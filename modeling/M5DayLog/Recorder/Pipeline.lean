import M5DayLog.Config
import M5DayLog.Lib.Fat

/-! The pipeline between the capture task and the writer: two slots, of which one takes the captured bytes while the other
waits for the writer. What the slots hold, the oldest first, is the queue between the two; what does not fit is dropped and
counted. -/

namespace M5DayLog

open Bytes Fat

section Slots

/-- Whole samples captured and dropped, in the slots and in the driver, and the health of the writer. -/
structure RecorderCounters where
  samplesCaptured : UInt32
  chunksWritten : UInt32
  bufferOverflow : UInt32
  bufferDropBytes : UInt32
  bufferDropSamples : UInt32
  dmaOverrunEvents : UInt32
  dmaDropBytes : UInt32
  dmaDropSamples : UInt32
  dmaReadStalls : UInt32
  sdWriteErrors : UInt32
  maxSdLatencyUs : UInt32
  deriving DecidableEq

/-- The memory behind a slot. -/
abbrev PcmSlot := { bytes : Bytes // bytes.length = bufferBytes }

/-- A slot is full exactly when it is marked so. -/
structure PcmPipeline where
  slot : Fin 2 → PcmSlot
  fill : Fin 2 → ℕ
  full : Fin 2 → Bool
  readIndex : Fin 2
  writeIndex : Fin 2
  counters : RecorderCounters
  fill_le : ∀ i, fill i ≤ bufferBytes
  full_iff : ∀ i, full i = true ↔ fill i = bufferBytes

namespace PcmPipeline

def init (backing : Fin 2 → PcmSlot) : PcmPipeline where
  slot := backing
  fill _ := 0
  full _ := false
  readIndex := 0
  writeIndex := 0
  counters := ⟨0, 0, 0, 0, 0, 0, 0, 0, 0, 0, 0⟩
  fill_le _ := Nat.zero_le _
  full_iff _ := by simp [bufferBytes]

variable (p : PcmPipeline)

def room (w : Fin 2) : ℕ := bufferBytes - p.fill w

/-- The slot that takes the next bytes: the other one where the slot in turn is full. -/
def active : Fin 2 := if p.full p.writeIndex then 1 - p.writeIndex else p.writeIndex

/-- Copy what fits of the bytes into a slot, and go to the other slot once this one is full. -/
def stage (w : Fin 2) (rest : Bytes) : PcmPipeline where
  slot := Function.update p.slot w ⟨Card.overwrite (p.fill w) (rest.take (p.room w)) (p.slot w).1, by
    have := p.fill_le w
    rw [Card.overwrite_length, List.length_take, (p.slot w).2, room]
    omega⟩
  fill := Function.update p.fill w (p.fill w + (rest.take (p.room w)).length)
  full := if p.fill w + (rest.take (p.room w)).length = bufferBytes then Function.update p.full w true else p.full
  readIndex := p.readIndex
  writeIndex := if p.fill w + (rest.take (p.room w)).length = bufferBytes then 1 - w else w
  counters := { p.counters with
    samplesCaptured := p.counters.samplesCaptured + ((rest.take (p.room w)).length / bytesPerSample).toUInt32 }
  fill_le i := by
    have := p.fill_le i
    rw [Function.update_apply]
    split_ifs with hi
    · rw [List.length_take, room]
      subst hi
      omega
    · exact this
  full_iff i := by
    have hle := p.fill_le w
    have hlen : (rest.take (p.room w)).length ≤ p.room w := List.length_take_le _ _
    by_cases hi : i = w
    · subst hi
      rw [Function.update_self]
      split_ifs with hfull
      · exact iff_of_true (Function.update_self ..) hfull
      · rw [p.full_iff i]
        refine iff_of_false (fun hi => hfull ?_) hfull
        rw [room, hi, Nat.sub_self, Nat.le_zero] at hlen
        rw [hi, room, hi, Nat.sub_self, List.take_zero]
        rfl
    · rw [Function.update_of_ne hi]
      split_ifs
      · rw [Function.update_of_ne hi, p.full_iff i]
      · exact p.full_iff i

/-- Both slots are full: the rest is lost, and counted. -/
def dropRest (rest : ℕ) : PcmPipeline :=
  { p with counters := { p.counters with
      bufferOverflow := p.counters.bufferOverflow + 1
      bufferDropBytes := p.counters.bufferDropBytes + rest.toUInt32
      bufferDropSamples := p.counters.bufferDropSamples + (rest / bytesPerSample).toUInt32 } }

theorem full_both (w : Fin 2) : (p.full 0 = true ∧ p.full 1 = true) ↔ p.full w = true ∧ p.full (1 - w) = true := by
  match w with
  | 0 => exact Iff.rfl
  | 1 => exact and_comm

/-- The slot in turn is not full. -/
theorem full_active (h : ¬ (p.full 0 = true ∧ p.full 1 = true)) : p.full p.active = false := by
  rw [p.full_both p.writeIndex] at h
  unfold active
  split_ifs with hw
  · exact Bool.eq_false_iff.mpr fun hother => h ⟨hw, hother⟩
  · exact Bool.eq_false_iff.mpr hw

theorem room_pos {w : Fin 2} (h : p.full w = false) : 0 < p.room w := by
  have hne : p.fill w ≠ bufferBytes := fun hfull => by
    rw [(p.full_iff w).mpr hfull] at h
    cases h
  have := p.fill_le w
  unfold room
  omega

/-- Stage the samples slot by slot. The count is of the bytes that are left when both slots are full. -/
def produceFrom (p : PcmPipeline) (rest : Bytes) : ℕ × PcmPipeline :=
  if hrest : rest = [] then (0, p)
  else if hfull : p.full 0 = true ∧ p.full 1 = true then (rest.length, p.dropRest rest.length)
  else
    have : 0 < rest.length ∧ 0 < p.room p.active := ⟨List.length_pos_iff.mpr hrest, p.room_pos (p.full_active hfull)⟩
    produceFrom (p.stage p.active rest) (rest.drop (p.room p.active))
termination_by rest.length

/-- The whole samples of the data go into the slots; an odd last byte does not. The count is of the bytes not captured. -/
def produce (data : Bytes) : ℕ × PcmPipeline :=
  let usable := data.length - data.length % bytesPerSample
  let left := p.produceFrom (data.take usable)
  (data.length - (usable - left.1), left.2)

def hasFull : Bool := p.full 0 || p.full 1

/-- The oldest full slot. -/
def peekFull : Option (Fin 2) :=
  if p.full p.readIndex then some p.readIndex
  else if p.full (1 - p.readIndex) then some (1 - p.readIndex) else none

/-- Give the oldest full slot back to the capture. -/
def releaseFull : PcmPipeline :=
  match p.peekFull with
  | none => p
  | some index => { p with
      full := Function.update p.full index false
      fill := Function.update p.fill index 0
      readIndex := 1 - index
      counters := { p.counters with chunksWritten := p.counters.chunksWritten + 1 }
      fill_le := fun i => by
        rw [Function.update_apply]
        split_ifs
        · exact Nat.zero_le _
        · exact p.fill_le i
      full_iff := fun i => by
        by_cases hi : i = index
        · subst hi
          simp [bufferBytes]
        · rw [Function.update_of_ne hi, Function.update_of_ne hi, p.full_iff i] }

def noteSdWrite (latencyUs : UInt32) : PcmPipeline :=
  { p with counters :=
      if latencyUs > p.counters.maxSdLatencyUs then { p.counters with maxSdLatencyUs := latencyUs } else p.counters }

def noteDriverOverflow (events dropBytes : UInt32) : PcmPipeline :=
  { p with counters :=
      if events = 0 ∧ dropBytes = 0 then p.counters
      else { p.counters with
        dmaOverrunEvents := p.counters.dmaOverrunEvents + events
        dmaDropBytes := p.counters.dmaDropBytes + dropBytes
        dmaDropSamples := p.counters.dmaDropSamples + dropBytes / bytesPerSample.toUInt32 } }

def noteReadStall : PcmPipeline := { p with counters := { p.counters with dmaReadStalls := p.counters.dmaReadStalls + 1 } }

def noteSdError : PcmPipeline := { p with counters := { p.counters with sdWriteErrors := p.counters.sdWriteErrors + 1 } }

end PcmPipeline

end Slots

section Queue

namespace PcmPipeline

variable {p : PcmPipeline} {rest data : Bytes} {i w : Fin 2}

/-- The bytes that a slot holds. -/
def held (p : PcmPipeline) (i : Fin 2) : Bytes := (p.slot i).1.take (p.fill i)

/-- The bytes between the two tasks, the oldest first. -/
def queued (p : PcmPipeline) : Bytes := p.held p.readIndex ++ p.held (1 - p.readIndex)

/-- The slot to be read is the older one, and the capture writes behind it. -/
structure Ordered (p : PcmPipeline) : Prop where
  oldest : p.full p.readIndex = false → p.fill (1 - p.readIndex) = 0
  turn : p.writeIndex = if p.full p.readIndex && !p.full (1 - p.readIndex) then 1 - p.readIndex else p.readIndex

theorem one_sub_one_sub (i : Fin 2) : 1 - (1 - i) = i := by
  match i with
  | 0 => rfl
  | 1 => rfl

theorem one_sub_ne (i : Fin 2) : 1 - i ≠ i := by
  match i with
  | 0 => exact nofun
  | 1 => exact nofun

theorem full_eq_false : p.full i = false ↔ p.fill i ≠ bufferBytes := by
  rw [← Bool.not_eq_true, p.full_iff i]

theorem held_of_full (h : p.full i = true) : p.held i = (p.slot i).1 := by
  exact List.take_of_length_le ((p.slot i).2.trans_le ((p.full_iff i).mp h).ge)

theorem held_of_empty (h : p.fill i = 0) : p.held i = [] := by
  rw [held, h, List.take_zero]

theorem ordered_init (backing : Fin 2 → PcmSlot) : (init backing).Ordered := ⟨fun _ => rfl, rfl⟩

theorem queued_init (backing : Fin 2 → PcmSlot) : (init backing).queued = [] := by
  simp [queued, held, init]

theorem Ordered.active (h : p.Ordered) (hfree : ¬ (p.full 0 = true ∧ p.full 1 = true)) :
    p.active = if p.full p.readIndex then 1 - p.readIndex else p.readIndex := by
  rw [p.full_both p.readIndex] at hfree
  unfold PcmPipeline.active
  rw [h.turn]
  cases hr : p.full p.readIndex with
  | false => simp [hr]
  | true =>
    have ho : p.full (1 - p.readIndex) = false := Bool.eq_false_iff.mpr fun ho => hfree ⟨hr, ho⟩
    simp [ho]

/-- The bytes go in behind what the slot holds. -/
theorem held_stage : (p.stage w rest).held i = if i = w then p.held w ++ rest.take (p.room w) else p.held i := by
  unfold held stage
  by_cases hi : i = w
  · have hlen := (p.slot w).2
    have hfill := p.fill_le w
    subst hi
    simp only [Function.update_self, if_pos, Card.overwrite]
    rw [List.take_append_of_le_length (by simp; omega), List.take_of_length_le (by simp)]
  · simp only [Function.update_of_ne hi, if_neg hi]

theorem fill_stage : (p.stage w rest).fill i = p.fill i + if i = w then (rest.take (p.room w)).length else 0 := by
  unfold stage
  by_cases hi : i = w
  · subst hi
    simp only [Function.update_self, if_pos]
  · simp only [Function.update_of_ne hi, if_neg hi, Nat.add_zero]

theorem full_stage (hw : i ≠ w) : (p.stage w rest).full i = p.full i := by
  apply Bool.eq_iff_iff.mpr
  rw [PcmPipeline.full_iff, PcmPipeline.full_iff, fill_stage, if_neg hw, Nat.add_zero]

theorem writeIndex_stage : (p.stage w rest).writeIndex = if (p.stage w rest).full w then 1 - w else w := by
  have hfill : (p.stage w rest).fill w = p.fill w + (rest.take (p.room w)).length := Function.update_self ..
  by_cases hfull : p.fill w + (rest.take (p.room w)).length = bufferBytes
  · rw [if_pos (((p.stage w rest).full_iff w).mpr (hfill.trans hfull))]
    exact if_pos hfull
  · rw [if_neg fun hw => hfull (hfill.symm.trans (((p.stage w rest).full_iff w).mp hw))]
    exact if_neg hfull

/-- One slot's worth of bytes goes to the end of the queue. -/
theorem Ordered.stage (h : p.Ordered) (rest : Bytes) (hfree : ¬ (p.full 0 = true ∧ p.full 1 = true)) :
    (p.stage p.active rest).Ordered ∧ (p.stage p.active rest).queued = p.queued ++ rest.take (p.room p.active) := by
  have hactive := h.active hfree
  have hread : (p.stage p.active rest).readIndex = p.readIndex := rfl
  have hne := one_sub_ne p.readIndex
  cases hr : p.full p.readIndex with
  | false =>
    rw [hr, if_neg Bool.false_ne_true] at hactive
    have hother := h.oldest hr
    have hempty : (p.stage p.active rest).fill (1 - p.readIndex) = 0 := by
      rw [fill_stage, hactive, if_neg hne, hother]
    have hotherFree : (p.stage p.active rest).full (1 - p.readIndex) = false :=
      full_eq_false.mpr (by rw [hempty]; decide)
    constructor
    · refine ⟨fun _ => hempty, ?_⟩
      rw [writeIndex_stage, hread, hotherFree, Bool.not_false, Bool.and_true, hactive]
    · rw [queued, hread, held_stage, held_stage, hactive, if_pos rfl, if_neg hne, held_of_empty hother, List.append_nil,
        queued, held_of_empty hother, List.append_nil]
  | true =>
    rw [hr, if_pos rfl] at hactive
    have hfull : (p.stage p.active rest).full p.readIndex = true := by
      rw [full_stage (by rw [hactive]; exact hne.symm), hr]
    constructor
    · refine ⟨fun hno => absurd hno (by rw [hread, hfull]; exact nofun), ?_⟩
      rw [writeIndex_stage, hread, hfull, Bool.true_and, hactive, one_sub_one_sub]
      cases (p.stage (1 - p.readIndex) rest).full (1 - p.readIndex) <;> rfl
    · rw [queued, hread, held_stage, held_stage, hactive, if_neg hne.symm, if_pos rfl, queued, List.append_assoc]

/-- What the data leaves uncaptured is what is counted as dropped. -/
structure Staged (p : PcmPipeline) (rest : Bytes) (r : ℕ × PcmPipeline) : Prop where
  left_le : r.1 ≤ rest.length
  ordered : r.2.Ordered
  queued : r.2.queued = p.queued ++ rest.take (rest.length - r.1)
  dropBytes : r.2.counters.bufferDropBytes = p.counters.bufferDropBytes + r.1.toUInt32

theorem produceFrom_staged (h : p.Ordered) (rest : Bytes) : Staged p rest (p.produceFrom rest) := by
  induction p, rest using produceFrom.induct with
  | case1 p =>
    rw [produceFrom, dif_pos rfl]
    exact ⟨le_refl _, h, by simp, by simp⟩
  | case2 p rest hrest hfull =>
    rw [produceFrom, dif_neg hrest, dif_pos hfull]
    exact ⟨le_refl _, ⟨h.oldest, h.turn⟩, by simp [PcmPipeline.queued, held, dropRest], rfl⟩
  | case3 p rest hrest hfree hpos ih =>
    rw [produceFrom, dif_neg hrest, dif_neg hfree]
    obtain ⟨hordered, hqueued⟩ := h.stage rest hfree
    have hs := ih hordered
    have hlen := hs.left_le
    rw [List.length_drop] at hlen
    refine ⟨by omega, hs.ordered, ?_, hs.dropBytes⟩
    rw [hs.queued, hqueued, List.append_assoc, List.length_drop]
    rw [← List.take_add, List.take_eq_take_iff.mpr]
    omega

theorem produce_spec (h : p.Ordered) (data : Bytes) : let r := p.produce data
    r.1 ≤ data.length ∧ r.2.Ordered ∧ r.2.queued = p.queued ++ data.take (data.length - r.1) ∧
      ∃ dropped, r.2.counters.bufferDropBytes = p.counters.bufferDropBytes + dropped.toUInt32 ∧
        data.length - r.1 + dropped + data.length % 2 = data.length := by
  intro r
  have hodd : data.length % bytesPerSample ≤ data.length := Nat.mod_le ..
  have hs := produceFrom_staged h (data.take (data.length - data.length % bytesPerSample))
  set left := p.produceFrom (data.take (data.length - data.length % bytesPerSample)) with hleft
  have hlen := hs.left_le
  rw [List.length_take, Nat.min_eq_left (Nat.sub_le ..)] at hlen
  have hr : r.1 = data.length - (data.length - data.length % bytesPerSample - left.1) := rfl
  have htwo : data.length % bytesPerSample = data.length % 2 := rfl
  refine ⟨by omega, hs.ordered, ?_, left.1, hs.dropBytes, by omega⟩
  rw [show r.2 = left.2 from rfl, hs.queued, List.length_take, List.take_take, List.take_eq_take_iff.mpr]
  omega

/-- While a slot waits for the writer the capture does not touch it. -/
theorem produceFrom_slot (rest : Bytes) (hi : p.full i = true) :
    (p.produceFrom rest).2.slot i = p.slot i ∧ (p.produceFrom rest).2.full i = true ∧
      (p.produceFrom rest).2.readIndex = p.readIndex := by
  induction p, rest using produceFrom.induct with
  | case1 p =>
    rw [produceFrom, dif_pos rfl]
    exact ⟨rfl, hi, rfl⟩
  | case2 p rest hrest hfull =>
    rw [produceFrom, dif_neg hrest, dif_pos hfull]
    exact ⟨rfl, hi, rfl⟩
  | case3 p rest hrest hfree hpos ih =>
    have hne : i ≠ p.active := by
      rintro rfl
      rw [p.full_active hfree] at hi
      cases hi
    rw [produceFrom, dif_neg hrest, dif_neg hfree]
    obtain ⟨hslot, hfull, hread⟩ := ih ((full_stage hne).trans hi)
    exact ⟨hslot.trans (Function.update_of_ne hne ..), hfull, hread⟩

/-- The slot that is given back is the first part of the queue. -/
theorem releaseFull_spec (h : p.Ordered) : p.releaseFull.Ordered ∧
    (p.peekFull.elim [] fun i => (p.slot i).1) ++ p.releaseFull.queued = p.queued := by
  have hne := one_sub_ne p.readIndex
  cases hr : p.full p.readIndex with
  | false =>
    have hother : p.full (1 - p.readIndex) = false := full_eq_false.mpr (by rw [h.oldest hr]; decide)
    have hpeek : p.peekFull = none := by
      simp [peekFull, hr, hother]
    rw [releaseFull, hpeek]
    exact ⟨h, rfl⟩
  | true =>
    have hpeek : p.peekFull = some p.readIndex := if_pos hr
    rw [releaseFull, hpeek]
    refine ⟨⟨?_, ?_⟩, ?_⟩
    · intro _
      show Function.update p.fill p.readIndex 0 (1 - (1 - p.readIndex)) = 0
      rw [one_sub_one_sub, Function.update_self]
    · show p.writeIndex = if Function.update p.full p.readIndex false (1 - p.readIndex) &&
        !Function.update p.full p.readIndex false (1 - (1 - p.readIndex)) then 1 - (1 - p.readIndex) else 1 - p.readIndex
      rw [one_sub_one_sub, Function.update_self, Function.update_of_ne hne, Bool.not_false, Bool.and_true, h.turn, hr,
        Bool.true_and]
      cases p.full (1 - p.readIndex) <;> rfl
    · show (p.slot p.readIndex).1 ++ ((p.slot (1 - p.readIndex)).1.take (Function.update p.fill p.readIndex 0 (1 - p.readIndex)) ++
        (p.slot (1 - (1 - p.readIndex))).1.take (Function.update p.fill p.readIndex 0 (1 - (1 - p.readIndex)))) = _
      rw [one_sub_one_sub, Function.update_self, Function.update_of_ne hne, List.take_zero, List.append_nil, queued,
        held_of_full hr, held]

end PcmPipeline

end Queue

section Run

/-- The calls of the two tasks. -/
inductive PcmCall
  | produce (data : Bytes)
  | hasFull
  | peekFull
  | releaseFull
  | noteSdWrite (latencyUs : UInt32)
  | noteDriverOverflow (events dropBytes : UInt32)
  | noteReadStall
  | noteSdError
  deriving DecidableEq

/-- The pipeline, with the bytes it has accepted from the capture and the slots the writer has given back. -/
structure PcmRun where
  pipeline : PcmPipeline
  accepted : Bytes
  released : Bytes

namespace PcmRun

variable {s : PcmRun} {call : PcmCall} {i : Fin 2}

def start (backing : Fin 2 → PcmSlot) : PcmRun := ⟨.init backing, [], []⟩

def step (s : PcmRun) : PcmCall → PcmRun
  | .produce data =>
    let r := s.pipeline.produce data
    ⟨r.2, s.accepted ++ data.take (data.length - r.1), s.released⟩
  | .releaseFull =>
    ⟨s.pipeline.releaseFull, s.accepted, s.released ++ s.pipeline.peekFull.elim [] fun i => (s.pipeline.slot i).1⟩
  | .hasFull | .peekFull => s
  | .noteSdWrite latencyUs => { s with pipeline := s.pipeline.noteSdWrite latencyUs }
  | .noteDriverOverflow events dropBytes => { s with pipeline := s.pipeline.noteDriverOverflow events dropBytes }
  | .noteReadStall => { s with pipeline := s.pipeline.noteReadStall }
  | .noteSdError => { s with pipeline := s.pipeline.noteSdError }

def after (backing : Fin 2 → PcmSlot) (calls : List PcmCall) : PcmRun := calls.foldl step (start backing)

/-- What has been accepted has been given out or is still queued. -/
structure Conserves (s : PcmRun) : Prop where
  ordered : s.pipeline.Ordered
  bytes : s.released ++ s.pipeline.queued = s.accepted

theorem conserves_step (h : s.Conserves) (call : PcmCall) : (s.step call).Conserves := by
  cases call with
  | produce data =>
    obtain ⟨-, hordered, hqueued, -⟩ := PcmPipeline.produce_spec h.ordered data
    refine ⟨hordered, ?_⟩
    show s.released ++ (s.pipeline.produce data).2.queued = s.accepted ++ _
    rw [hqueued, ← List.append_assoc, h.bytes]
  | releaseFull =>
    obtain ⟨hordered, hqueued⟩ := PcmPipeline.releaseFull_spec h.ordered
    refine ⟨hordered, ?_⟩
    show s.released ++ _ ++ s.pipeline.releaseFull.queued = s.accepted
    rw [List.append_assoc, hqueued, h.bytes]
  | hasFull => exact h
  | peekFull => exact h
  | noteSdWrite latencyUs => exact ⟨⟨h.ordered.oldest, h.ordered.turn⟩, h.bytes⟩
  | noteDriverOverflow events dropBytes => exact ⟨⟨h.ordered.oldest, h.ordered.turn⟩, h.bytes⟩
  | noteReadStall => exact ⟨⟨h.ordered.oldest, h.ordered.turn⟩, h.bytes⟩
  | noteSdError => exact ⟨⟨h.ordered.oldest, h.ordered.turn⟩, h.bytes⟩

theorem conserves_after (backing : Fin 2 → PcmSlot) (calls : List PcmCall) : (after backing calls).Conserves := by
  suffices h : ∀ s : PcmRun, s.Conserves → (calls.foldl step s).Conserves from
    h _ ⟨PcmPipeline.ordered_init backing, PcmPipeline.queued_init backing⟩
  induction calls with
  | nil => exact fun s h => h
  | cons call calls ih => exact fun s h => ih _ (conserves_step h call)

/-- The slot that is shown to the writer is the one in turn. -/
theorem peekFull_eq_some (h : s.pipeline.Ordered) :
    s.pipeline.peekFull = some i ↔ s.pipeline.readIndex = i ∧ s.pipeline.full i = true := by
  unfold PcmPipeline.peekFull
  cases hr : s.pipeline.full s.pipeline.readIndex with
  | false =>
    have hother : s.pipeline.full (1 - s.pipeline.readIndex) = false :=
      PcmPipeline.full_eq_false.mpr (by rw [h.oldest hr]; decide)
    rw [hother]
    refine iff_of_false nofun ?_
    rintro ⟨rfl, hfull⟩
    rw [hr] at hfull
    cases hfull
  | true =>
    rw [if_pos rfl, Option.some.injEq]
    refine ⟨?_, And.left⟩
    rintro rfl
    exact ⟨rfl, hr⟩

/-- Only the writer's own call takes a slot from it. -/
theorem step_peeked (h : s.Conserves) (hcall : call ≠ .releaseFull) (hi : s.pipeline.peekFull = some i) :
    (s.step call).pipeline.peekFull = some i ∧ (s.step call).pipeline.slot i = s.pipeline.slot i := by
  rw [peekFull_eq_some h.ordered] at hi
  rw [peekFull_eq_some (conserves_step h call).ordered]
  cases call with
  | produce data =>
    obtain ⟨hslot, hfull, hread⟩ :=
      PcmPipeline.produceFrom_slot (data.take (data.length - data.length % bytesPerSample)) hi.2
    exact ⟨⟨hread.trans hi.1, hfull⟩, hslot⟩
  | releaseFull => exact absurd rfl hcall
  | hasFull => exact ⟨hi, rfl⟩
  | peekFull => exact ⟨hi, rfl⟩
  | noteSdWrite latencyUs => exact ⟨hi, rfl⟩
  | noteDriverOverflow events dropBytes => exact ⟨hi, rfl⟩
  | noteReadStall => exact ⟨hi, rfl⟩
  | noteSdError => exact ⟨hi, rfl⟩

theorem foldl_peeked (calls : List PcmCall) (h : s.Conserves) (hcalls : .releaseFull ∉ calls)
    (hi : s.pipeline.peekFull = some i) :
    (calls.foldl step s).pipeline.peekFull = some i ∧ (calls.foldl step s).pipeline.slot i = s.pipeline.slot i := by
  induction calls generalizing s with
  | nil => exact ⟨hi, rfl⟩
  | cons call calls ih =>
    rw [List.mem_cons, not_or] at hcalls
    obtain ⟨hne, hcalls⟩ := hcalls
    obtain ⟨hpeek, hslot⟩ := step_peeked h (Ne.symm hne) hi
    obtain ⟨hlast, hlastSlot⟩ := ih (conserves_step h call) hcalls hpeek
    exact ⟨hlast, hlastSlot.trans hslot⟩

end PcmRun

/-- However the calls of the two tasks interleave, the writer gives back the accepted bytes in order; a slot that it has
been shown stays as it is until it gives it back; and a call that produces data accounts for every byte of it. -/
theorem pcmPipeline_fifo (backing : Fin 2 → PcmSlot) (calls : List PcmCall) :
    (PcmRun.after backing calls).released <+: (PcmRun.after backing calls).accepted ∧
    (∀ shown since i, calls = shown ++ since → (PcmRun.after backing shown).pipeline.peekFull = some i →
      .releaseFull ∉ since → (PcmRun.after backing calls).pipeline.peekFull = some i ∧
        (PcmRun.after backing calls).pipeline.slot i = (PcmRun.after backing shown).pipeline.slot i) ∧
    ∀ data, let p := (PcmRun.after backing calls).pipeline; let r := p.produce data
      ∃ captured dropped, r.2.queued = p.queued ++ data.take captured ∧
        r.2.counters.bufferDropBytes = p.counters.bufferDropBytes + dropped.toUInt32 ∧
        captured + dropped + data.length % 2 = data.length ∧ r.1 = data.length - captured := by
  have hconserves := PcmRun.conserves_after backing calls
  refine ⟨⟨_, hconserves.bytes⟩, ?_, ?_⟩
  · intro shown since i hcalls hpeek hsince
    have hlast := PcmRun.foldl_peeked since (PcmRun.conserves_after backing shown) hsince hpeek
    rwa [PcmRun.after, ← List.foldl_append, ← hcalls] at hlast
  · intro data p r
    obtain ⟨hle, -, hqueued, dropped, hdropped, htotal⟩ := PcmPipeline.produce_spec hconserves.ordered data
    exact ⟨data.length - r.1, dropped, hqueued, hdropped, htotal, (Nat.sub_sub_self hle).symm⟩

end Run

end M5DayLog
