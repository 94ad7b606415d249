import M5DayLog.Lib.Buffer
import M5DayLog.Lib.Bytes
import Mathlib.Data.List.GetD

/-! The bulk IN endpoint of the CDC channel. Its address is looked up in the configuration descriptor that the USB stack serves, by a
walk from descriptor to descriptor; each step goes on by a length that the data gives. -/

namespace M5DayLog.UsbDescriptors

open Bytes Buffer

section Walk

def tusbDescConfiguration : UInt8 := 0x02
def tusbDescInterface : UInt8 := 0x04
def tusbDescEndpoint : UInt8 := 0x05
def tusbClassCdcData : UInt8 := 0x0a
def tusbXferBulk : UInt8 := 0x02

/-- The total length that a configuration descriptor declares, from its bytes 2 and 3. -/
def declaredTotal (low high : UInt8) : ℕ := low.toNat ||| high.toNat <<< 8

/-- Where the walk stands, and whether the last interface was one of CDC data. -/
structure Walk where
  offset : ℕ
  cdcDataInterface : Bool

/-- The alternate setting is read only where the class is that of CDC data. -/
def readCdcData (desc : Bytes) (offset : ℕ) : Except Fault Bool := do
  let interfaceClass ← readAt desc (offset + 5)
  if interfaceClass = tusbClassCdcData then
    let alternateSetting ← readAt desc (offset + 3)
    return alternateSetting = 0
  else return false

/-- The attributes are read only where the direction is IN. -/
def readBulkIn (desc : Bytes) (offset : ℕ) : Except Fault Bool := do
  let address ← readAt desc (offset + 2)
  if address &&& 0x80 ≠ 0 then
    let attributes ← readAt desc (offset + 3)
    return attributes &&& 0x03 = tusbXferBulk
  else return false

def endpointRound (desc : Bytes) (total : ℕ) (w : Walk) : Except Fault (Round Walk UInt8) := do
  if w.offset < total then
    let length ← readAt desc w.offset
    let size := length.toNat
    if size < 2 ∨ size > total - w.offset then return .done 0
    else
      let type ← readAt desc (w.offset + 1)
      if type = tusbDescInterface then
        if size < 9 then return .done 0
        else
          let cdcData ← readCdcData desc w.offset
          return .next ⟨w.offset + size, cdcData⟩
      else if w.cdcDataInterface ∧ type = tusbDescEndpoint then
        if size < 7 then return .done 0
        else
          let bulkIn ← readBulkIn desc w.offset
          if bulkIn then
            let address ← readAt desc (w.offset + 2)
            return .done address
          else return .next ⟨w.offset + size, w.cdcDataInterface⟩
      else return .next ⟨w.offset + size, w.cdcDataInterface⟩
  else return .done 0

/-- Zero where there is no such endpoint. -/
def cdcBulkInEndpoint : Option Bytes → Except Fault UInt8
  | none => return 0
  | some desc => do
    let length ← readAt desc 0
    if length < 9 then return 0
    else
      let type ← readAt desc 1
      if type ≠ tusbDescConfiguration then return 0
      else
        let low ← readAt desc 2
        let high ← readAt desc 3
        let total := declaredTotal low high
        if total < 9 ∨ total > 1024 then return 0
        else loop (endpointRound desc total) (total + 1) ⟨0, false⟩

end Walk

section Descriptors

/-- A descriptor: its first byte counts its bytes, and its second byte is its type. -/
structure Descriptor where
  bytes : Bytes
  two_le : 2 ≤ bytes.length
  counted : (bytes.getD 0 0).toNat = bytes.length

namespace Descriptor

def type (d : Descriptor) : UInt8 := d.bytes.getD 1 0

/-- An interface of CDC data, in its alternate setting 0. -/
def IsCdcData (d : Descriptor) : Prop :=
  d.type = tusbDescInterface ∧ d.bytes.getD 5 0 = tusbClassCdcData ∧ d.bytes.getD 3 0 = 0

def address (d : Descriptor) : UInt8 := d.bytes.getD 2 0

def IsBulkIn (d : Descriptor) : Prop :=
  d.type = tusbDescEndpoint ∧ d.address &&& 0x80 ≠ 0 ∧ d.bytes.getD 3 0 &&& 0x03 = tusbXferBulk

/-- Too short for the fields of its type. -/
def Short (d : Descriptor) : Prop :=
  (d.type = tusbDescInterface ∧ d.bytes.length < 9) ∨ (d.type = tusbDescEndpoint ∧ d.bytes.length < 7)

/-- The descriptor of a configuration, with which the array has to begin. -/
def IsConfiguration (d : Descriptor) : Prop := 9 ≤ d.bytes.length ∧ d.type = tusbDescConfiguration

end Descriptor

/-- What follows these descriptors belongs to an interface of CDC data in its alternate setting 0: the last interface is one. -/
def InCdcData (before : List Descriptor) : Prop :=
  ∃ l d r, before = l ++ d :: r ∧ d.IsCdcData ∧ ∀ e ∈ r, e.type ≠ tusbDescInterface

/-- Malformed: an array that does not begin with a configuration, or a descriptor that is too short for its type. -/
def Malformed (before : List Descriptor) (d : Descriptor) : Prop := (before = [] ∧ ¬ d.IsConfiguration) ∨ d.Short

/-- Malformed, and not passed over: the endpoints of other interfaces are passed over, whatever their length. -/
def Blocking (before : List Descriptor) (d : Descriptor) : Prop :=
  (before = [] ∧ ¬ d.IsConfiguration) ∨ (d.Short ∧ (d.type = tusbDescEndpoint → InCdcData before))

def flat (ds : List Descriptor) : Bytes := ds.flatMap (·.bytes)

/-- `d` is the first bulk IN endpoint of such an interface, and no descriptor up to it is malformed. -/
structure FirstBulkIn (malformed : List Descriptor → Descriptor → Prop) (desc : Bytes) (before : List Descriptor) (d : Descriptor) :
    Prop where
  split : flat (before ++ [d]) <+: desc
  bulkIn : d.IsBulkIn ∧ InCdcData before
  first : ∀ l e r, before = l ++ e :: r → ¬ (e.IsBulkIn ∧ InCdcData l)
  wellFormed : ∀ l e r, before ++ [d] = l ++ e :: r → ¬ malformed l e

/-- The address of the first bulk IN endpoint, or zero where there is none before the array ends or is malformed. -/
def Answers (malformed : List Descriptor → Descriptor → Prop) (desc : Bytes) (address : UInt8) : Prop :=
  (∃ before d, FirstBulkIn malformed desc before d ∧ address = d.address) ∨
    ((∀ before d, ¬ FirstBulkIn malformed desc before d) ∧ address = 0)

theorem flat_append (l r : List Descriptor) : flat (l ++ r) = flat l ++ flat r := List.flatMap_append

theorem flat_cons (d : Descriptor) (r : List Descriptor) : flat (d :: r) = d.bytes ++ flat r := List.flatMap_cons

/-- Two descriptors at one place are the same, as their first byte counts them. -/
theorem Descriptor.unique {d e : Descriptor} {x y : Bytes} (h : d.bytes ++ x = e.bytes ++ y) : d = e ∧ x = y := by
  have hfirst : d.bytes.getD 0 0 = e.bytes.getD 0 0 := by
    have hget := congrArg (·.getD 0 0) h
    have hd := d.two_le
    have he := e.two_le
    simpa only [List.getD_append _ _ _ _ (show 0 < d.bytes.length by omega),
      List.getD_append _ _ _ _ (show 0 < e.bytes.length by omega)] using hget
  have hlength : d.bytes.length = e.bytes.length := by rw [← d.counted, ← e.counted, hfirst]
  obtain ⟨hbytes, hrest⟩ := List.append_inj h hlength
  obtain ⟨db, _, _⟩ := d
  obtain ⟨eb, _, _⟩ := e
  obtain rfl : db = eb := hbytes
  exact ⟨rfl, hrest⟩

/-- Of two ways to split a text into descriptors, one goes on where the other ends. -/
theorem flat_comparable {a b : List Descriptor} {x y : Bytes} (h : flat a ++ x = flat b ++ y) : a <+: b ∨ b <+: a := by
  induction a generalizing b with
  | nil => exact Or.inl List.nil_prefix
  | cons d a ih =>
    cases b with
    | nil => exact Or.inr List.nil_prefix
    | cons e b =>
      rw [flat_cons, flat_cons, List.append_assoc, List.append_assoc] at h
      obtain ⟨rfl, hrest⟩ := Descriptor.unique h
      rw [List.cons_prefix_cons, List.cons_prefix_cons]
      exact (ih hrest).imp (fun h => ⟨rfl, h⟩) fun h => ⟨rfl, h⟩

/-- A place in a list that ends in `d` is before `d`, or is that of `d`. -/
theorem append_singleton_split {α : Type} {before l r : List α} {d e : α} (h : before ++ [d] = l ++ e :: r) :
    (before = l ∧ d = e) ∨ ∃ r', before = l ++ e :: r' := by
  rcases List.eq_nil_or_concat r with rfl | ⟨r', f, rfl⟩
  · obtain ⟨rfl, hd⟩ := List.append_inj' h rfl
    exact Or.inl ⟨rfl, List.head_eq_of_cons_eq hd⟩
  · rw [List.concat_eq_append, ← List.cons_append, ← List.append_assoc] at h
    exact Or.inr ⟨r', (List.append_inj' h rfl).1⟩

theorem inCdcData_interface {before : List Descriptor} {d : Descriptor} (h : d.type = tusbDescInterface) :
    InCdcData (before ++ [d]) ↔ d.IsCdcData := by
  constructor
  · rintro ⟨l, e, r, hsplit, hdata, hlast⟩
    rcases append_singleton_split hsplit with ⟨-, rfl⟩ | ⟨r', rfl⟩
    · exact hdata
    · rw [List.append_assoc, List.cons_append, List.append_cancel_left_eq, List.cons_inj_right] at hsplit
      exact absurd h (hlast d (hsplit ▸ List.mem_append_right _ List.mem_cons_self))
  · exact fun hdata => ⟨before, d, [], rfl, hdata, fun _ he => absurd he List.not_mem_nil⟩

theorem inCdcData_other {before : List Descriptor} {d : Descriptor} (h : d.type ≠ tusbDescInterface) :
    InCdcData (before ++ [d]) ↔ InCdcData before := by
  constructor
  · rintro ⟨l, e, r, hsplit, hdata, hlast⟩
    rcases append_singleton_split hsplit with ⟨-, rfl⟩ | ⟨r', rfl⟩
    · exact absurd hdata.1 h
    · rw [List.append_assoc, List.cons_append, List.append_cancel_left_eq, List.cons_inj_right] at hsplit
      exact ⟨l, e, r', rfl, hdata, fun f hf => hlast f (hsplit ▸ List.mem_append_left _ hf)⟩
  · rintro ⟨l, e, r, rfl, hdata, hlast⟩
    refine ⟨l, e, r ++ [d], by rw [List.append_assoc, List.cons_append], hdata, fun f hf => ?_⟩
    rcases List.mem_append.mp hf with hf | hf
    · exact hlast f hf
    · exact List.mem_singleton.mp hf ▸ h

end Descriptors

section Run

variable {desc rest : Bytes} {before : List Descriptor} {d : Descriptor} {w : Walk} {total : ℕ}

/-- The state of the walk behind these descriptors, none of which has stopped it. -/
structure Walked (desc : Bytes) (before : List Descriptor) (rest : Bytes) (w : Walk) : Prop where
  split : desc = flat before ++ rest
  offset : w.offset = (flat before).length
  cdcData : w.cdcDataInterface = true ↔ InCdcData before
  first : ∀ l e r, before = l ++ e :: r → ¬ (e.IsBulkIn ∧ InCdcData l)
  wellFormed : ∀ l e r, before = l ++ e :: r → ¬ Blocking l e

theorem Walked.start (desc : Bytes) : Walked desc [] desc ⟨0, false⟩ where
  split := rfl
  offset := rfl
  cdcData := by
    refine iff_of_false Bool.false_ne_true ?_
    rintro ⟨l, d, r, h, -⟩
    exact List.append_ne_nil_of_right_ne_nil l (List.cons_ne_nil d r) h.symm
  first := fun l e r h => absurd h.symm (List.append_ne_nil_of_right_ne_nil l (List.cons_ne_nil e r))
  wellFormed := fun l e r h => absurd h.symm (List.append_ne_nil_of_right_ne_nil l (List.cons_ne_nil e r))

theorem Walked.at (h : Walked desc before rest w) : At desc w.offset rest := by
  rw [h.split, h.offset]
  exact At.append _ _

/-- The walk goes on behind a descriptor that is no such endpoint and is not malformed. -/
theorem Walked.push (h : Walked desc before (d.bytes ++ rest) w) (hbulk : ¬ (d.IsBulkIn ∧ InCdcData before))
    (hblock : ¬ Blocking before d) {cdcData : Bool} (hdata : cdcData = true ↔ InCdcData (before ++ [d])) :
    Walked desc (before ++ [d]) rest ⟨w.offset + d.bytes.length, cdcData⟩ where
  split := by rw [h.split, flat_append, flat_cons, List.append_assoc, List.append_assoc]; rfl
  offset := by rw [flat_append, flat_cons, List.length_append, List.length_append, h.offset]; rfl
  cdcData := hdata
  first := by
    intro l e r hsplit
    rcases append_singleton_split hsplit with ⟨rfl, rfl⟩ | ⟨r', hbefore⟩
    · exact hbulk
    · exact h.first l e r' hbefore
  wellFormed := by
    intro l e r hsplit
    rcases append_singleton_split hsplit with ⟨rfl, rfl⟩ | ⟨r', hbefore⟩
    · exact hblock
    · exact h.wellFormed l e r' hbefore

/-- Where what is left begins with no descriptor but a malformed one, there is no such endpoint. -/
theorem Walked.none (h : Walked desc before rest w) (hstop : ∀ e more, rest = e.bytes ++ more → Blocking before e)
    (b : List Descriptor) (d : Descriptor) : ¬ FirstBulkIn Blocking desc b d := by
  intro hfirst
  obtain ⟨more, hmore⟩ := hfirst.split
  rcases flat_comparable (hmore.trans h.split) with ⟨r, hr⟩ | ⟨r, hr⟩
  · exact h.first b d r (by rw [← hr, List.append_assoc]; rfl) hfirst.bulkIn
  · cases r with
    | nil =>
      rw [List.append_nil] at hr
      exact h.first b d [] hr hfirst.bulkIn
    | cons e r =>
      refine hfirst.wellFormed before e r hr.symm (hstop e (flat r ++ more) ?_)
      rw [h.split, ← hr, flat_append, flat_cons, List.append_assoc, List.append_cancel_left_eq, List.append_assoc] at hmore
      exact hmore.symm

theorem Walked.found (h : Walked desc before (d.bytes ++ rest) w) (hbulk : d.IsBulkIn ∧ InCdcData before)
    (hblock : ¬ Blocking before d) : FirstBulkIn Blocking desc before d where
  split := ⟨rest, by rw [h.split, flat_append, flat_cons, List.append_assoc, List.append_assoc]; rfl⟩
  bulkIn := hbulk
  first := h.first
  wellFormed := by
    intro l e r hsplit
    rcases append_singleton_split hsplit with ⟨rfl, rfl⟩ | ⟨r', hbefore⟩
    · exact hblock
    · exact h.wellFormed l e r' hbefore

/-- Where the first byte counts bytes that are there, a descriptor stands. -/
theorem exists_descriptor (c : UInt8) (rest : Bytes) (htwo : 2 ≤ c.toNat) (hfits : c.toNat ≤ (c :: rest).length) :
    ∃ (d : Descriptor) (more : Bytes), c :: rest = d.bytes ++ more ∧ d.bytes.length = c.toNat := by
  have hlength : ((c :: rest).take c.toNat).length = c.toNat := by rw [List.length_take, Nat.min_eq_left hfits]
  refine ⟨⟨(c :: rest).take c.toNat, by omega, ?_⟩, (c :: rest).drop c.toNat, (List.take_append_drop _ _).symm, hlength⟩
  obtain ⟨n, hn⟩ := Nat.exists_eq_succ_of_ne_zero (show c.toNat ≠ 0 by omega)
  rw [hlength, hn, List.take_succ_cons]
  exact hn

theorem readAt_field {i k : ℕ} (h : At desc i (d.bytes ++ rest)) (hk : k < d.bytes.length) :
    readAt desc (i + k) = .ok (d.bytes.getD k 0) := by
  have hfits : k ≤ (d.bytes ++ rest).length := by
    rw [List.length_append]
    omega
  have hfield := h.skip hfits
  rw [List.drop_append_of_le_length hk.le, List.drop_eq_getElem_cons hk] at hfield
  rw [hfield.readAt, List.getD_eq_getElem _ _ hk]

theorem counted_of_split {c : UInt8} {more : Bytes} (h : c :: rest = d.bytes ++ more) : c.toNat = d.bytes.length := by
  have hd := d.two_le
  have hget := congrArg (·.getD 0 0) h
  rw [← d.counted]
  simpa only [List.getD_cons_zero, List.getD_append _ _ _ _ (show 0 < d.bytes.length by omega)] using congrArg UInt8.toNat hget

theorem readCdcData_run {i : ℕ} (h : At desc i (d.bytes ++ rest)) (htype : d.type = tusbDescInterface) (hlong : 9 ≤ d.bytes.length) :
    ∃ cdcData, readCdcData desc i = .ok cdcData ∧ (cdcData = true ↔ d.IsCdcData) := by
  rw [readCdcData, readAt_field h (by omega), ok_bind]
  split
  · next hclass =>
    rw [readAt_field h (by omega), ok_bind]
    refine ⟨_, rfl, ?_⟩
    rw [decide_eq_true_iff]
    exact ⟨fun halternate => ⟨htype, hclass, halternate⟩, fun hdata => hdata.2.2⟩
  · next hclass => exact ⟨false, rfl, iff_of_false Bool.false_ne_true fun hdata => hclass hdata.2.1⟩

theorem readBulkIn_run {i : ℕ} (h : At desc i (d.bytes ++ rest)) (htype : d.type = tusbDescEndpoint) (hlong : 7 ≤ d.bytes.length) :
    ∃ bulkIn, readBulkIn desc i = .ok bulkIn ∧ (bulkIn = true ↔ d.IsBulkIn) := by
  rw [readBulkIn, readAt_field h (by omega), ok_bind]
  split
  · next hin =>
    rw [readAt_field h (by omega), ok_bind]
    refine ⟨_, rfl, ?_⟩
    rw [decide_eq_true_iff]
    exact ⟨fun hbulk => ⟨htype, hin, hbulk⟩, fun hbulk => hbulk.2.2⟩
  · next hin => exact ⟨false, rfl, iff_of_false Bool.false_ne_true fun hbulk => hin hbulk.2.1⟩

/-- The round in front of a whole descriptor. -/
theorem endpointRound_descriptor (h : At desc w.offset (d.bytes ++ rest)) : endpointRound desc desc.length w =
    if d.type = tusbDescInterface then
      if d.bytes.length < 9 then .ok (.done 0)
      else do
        let cdcData ← readCdcData desc w.offset
        return .next ⟨w.offset + d.bytes.length, cdcData⟩
    else if w.cdcDataInterface ∧ d.type = tusbDescEndpoint then
      if d.bytes.length < 7 then .ok (.done 0)
      else do
        let bulkIn ← readBulkIn desc w.offset
        if bulkIn then
          let address ← readAt desc (w.offset + 2)
          return .done address
        else return .next ⟨w.offset + d.bytes.length, w.cdcDataInterface⟩
    else .ok (.next ⟨w.offset + d.bytes.length, w.cdcDataInterface⟩) := by
  have htwo := d.two_le
  have hlength := h.length
  rw [List.length_append] at hlength
  have hcount := readAt_field (k := 0) h (by omega)
  rw [Nat.add_zero] at hcount
  rw [endpointRound, if_pos (by omega), hcount, ok_bind]
  simp only [d.counted]
  rw [if_neg (by omega), readAt_field h (by omega : 1 < d.bytes.length)]
  rfl

/-- One round takes a descriptor, or it answers there. -/
theorem Walked.visit (h : Walked desc before (d.bytes ++ rest) w) (hheader : before = [] → d.IsConfiguration) :
    (∃ address, endpointRound desc desc.length w = .ok (.done address) ∧ Answers Blocking desc address) ∨
      ∃ cdcData, endpointRound desc desc.length w = .ok (.next ⟨w.offset + d.bytes.length, cdcData⟩) ∧
        Walked desc (before ++ [d]) rest ⟨w.offset + d.bytes.length, cdcData⟩ := by
  have hblocking : Blocking before d ↔ d.Short ∧ (d.type = tusbDescEndpoint → InCdcData before) :=
    or_iff_right fun hempty => hempty.2 (hheader hempty.1)
  have stop (hblock : Blocking before d) : Answers Blocking desc 0 := by
    refine Or.inr ⟨h.none fun e more hsplit => ?_, rfl⟩
    obtain ⟨rfl, -⟩ := Descriptor.unique hsplit
    exact hblock
  have hdistinct : tusbDescInterface ≠ tusbDescEndpoint := by decide
  rw [endpointRound_descriptor h.at]
  split
  · next htype =>
    have hother : d.type ≠ tusbDescEndpoint := fun he => hdistinct (htype.symm.trans he)
    split
    · next hshort =>
      exact Or.inl ⟨0, rfl, stop (hblocking.mpr ⟨Or.inl ⟨htype, hshort⟩, fun he => absurd he hother⟩)⟩
    · next hlong =>
      obtain ⟨cdcData, hread, hdata⟩ := readCdcData_run h.at htype (Nat.not_lt.mp hlong)
      rw [hread]
      refine Or.inr ⟨cdcData, rfl, h.push (fun hbulk => hother hbulk.1.1) (fun hblock => ?_) (hdata.trans (inCdcData_interface htype).symm)⟩
      rcases (hblocking.mp hblock).1 with hshort | hshort
      · exact hlong hshort.2
      · exact hother hshort.1
  · next htype =>
    have hflag : w.cdcDataInterface = true ↔ InCdcData (before ++ [d]) := h.cdcData.trans (inCdcData_other htype).symm
    split
    · next hvisit =>
      obtain ⟨hcdc, hendpoint⟩ := hvisit
      have hin := h.cdcData.mp hcdc
      split
      · next hshort => exact Or.inl ⟨0, rfl, stop (hblocking.mpr ⟨Or.inr ⟨hendpoint, hshort⟩, fun _ => hin⟩)⟩
      · next hlong =>
        have hwell : ¬ Blocking before d := by
          intro hblock
          rcases (hblocking.mp hblock).1 with hshort | hshort
          · exact htype hshort.1
          · exact hlong hshort.2
        obtain ⟨bulkIn, hread, hbulk⟩ := readBulkIn_run h.at hendpoint (Nat.not_lt.mp hlong)
        rw [hread, ok_bind]
        cases bulkIn with
        | true =>
          refine Or.inl ⟨d.address, ?_, Or.inl ⟨before, d, h.found ⟨hbulk.mp rfl, hin⟩ hwell, rfl⟩⟩
          rw [if_pos rfl, readAt_field h.at (by omega)]
          rfl
        | false =>
          exact Or.inr ⟨w.cdcDataInterface, rfl, h.push (fun hb => Bool.false_ne_true (hbulk.mpr hb.1)) hwell hflag⟩
    · next hpass =>
      have hpass : d.type = tusbDescEndpoint → ¬ InCdcData before := fun he hin => hpass ⟨h.cdcData.mpr hin, he⟩
      refine Or.inr ⟨w.cdcDataInterface, rfl, h.push (fun hb => hpass hb.1.1 hb.2) (fun hblock => ?_) hflag⟩
      obtain ⟨hshort | hshort, hin⟩ := hblocking.mp hblock
      · exact htype hshort.1
      · exact hpass hshort.1 (hin hshort.1)

/-- One round of the walk answers, or it takes one more descriptor. -/
theorem endpointRound_run (hheader : ∀ (d : Descriptor) more, desc = d.bytes ++ more → d.IsConfiguration) (w : Walk)
    (h : ∃ before rest, Walked desc before rest w) :
    (∃ address, endpointRound desc desc.length w = .ok (.done address) ∧ Answers Blocking desc address) ∨
      ∃ v, endpointRound desc desc.length w = .ok (.next v) ∧ (∃ before rest, Walked desc before rest v) ∧
        desc.length - v.offset < desc.length - w.offset := by
  obtain ⟨before, rest, h⟩ := h
  have hlength := h.at.length
  by_cases hwhole : ∃ (d : Descriptor) (more : Bytes), rest = d.bytes ++ more
  · obtain ⟨d, more, rfl⟩ := hwhole
    have hdesc : before = [] → d.IsConfiguration := by
      rintro rfl
      exact hheader d more h.split
    rw [List.length_append] at hlength
    have htwo := d.two_le
    exact (h.visit hdesc).imp_right fun ⟨cdcData, hround, hwalked⟩ => ⟨_, hround, ⟨_, _, hwalked⟩, by simp only; omega⟩
  · -- the array ends here, or the length is none that a descriptor can have
    refine Or.inl ⟨0, ?_, Or.inr ⟨h.none fun e more hsplit => absurd ⟨e, more, hsplit⟩ hwhole, rfl⟩⟩
    cases rest with
    | nil =>
      rw [List.length_nil] at hlength
      rw [endpointRound, if_neg (by omega)]
      rfl
    | cons c rest =>
      have hsize : c.toNat < 2 ∨ c.toNat > desc.length - w.offset := by
        by_contra hsize
        obtain ⟨d, more, hsplit, -⟩ := exists_descriptor c rest (by omega) (by omega)
        exact hwhole ⟨d, more, hsplit⟩
      rw [List.length_cons] at hlength
      rw [endpointRound, if_pos (by omega), h.at.readAt, ok_bind]
      simp only [if_pos hsize]
      rfl

theorem getD_of_split {k : ℕ} {more : Bytes} (h : desc = d.bytes ++ more) (hk : k < d.bytes.length) :
    desc.getD k 0 = d.bytes.getD k 0 := by
  rw [h, List.getD_append _ _ _ _ hk]

/-- The walk over an array that ends where it declares. -/
theorem cdcBulkInEndpoint_run (desc : Bytes) (htotal : declaredTotal (desc.getD 2 0) (desc.getD 3 0) = desc.length)
    (hlow : 9 ≤ desc.length) (hhigh : desc.length ≤ 1024) :
    ∃ address, cdcBulkInEndpoint (some desc) = .ok address ∧ Answers Blocking desc address := by
  have hread : ∀ k < 9, readAt desc k = .ok (desc.getD k 0) := by
    intro k hk
    rw [readAt_lt (by omega), List.getD_eq_getElem _ _ (by omega)]
  have stop (hstop : ∀ (d : Descriptor) more, desc = d.bytes ++ more → ¬ d.IsConfiguration) : Answers Blocking desc 0 :=
    Or.inr ⟨(Walked.start desc).none fun d more hsplit => Or.inl ⟨rfl, hstop d more hsplit⟩, rfl⟩
  rw [cdcBulkInEndpoint, hread 0 (by norm_num), ok_bind]
  split
  · next hlength =>
    refine ⟨0, rfl, stop fun d more hsplit hconf => ?_⟩
    have htwo := d.two_le
    rw [getD_of_split hsplit (by omega), UInt8.lt_iff_toNat_lt, d.counted] at hlength
    exact absurd hconf.1 (Nat.not_le.mpr hlength)
  · next hlength =>
    rw [hread 1 (by norm_num), ok_bind]
    split
    · next htype =>
      refine ⟨0, rfl, stop fun d more hsplit hconf => htype ?_⟩
      rw [getD_of_split hsplit d.two_le]
      exact hconf.2
    · next htype =>
      have hheader : ∀ (d : Descriptor) more, desc = d.bytes ++ more → d.IsConfiguration := by
        intro d more hsplit
        have htwo := d.two_le
        rw [getD_of_split hsplit (by omega), UInt8.lt_iff_toNat_lt, d.counted] at hlength
        rw [getD_of_split hsplit d.two_le] at htype
        exact ⟨Nat.not_lt.mp hlength, not_not.mp htype⟩
      rw [hread 2 (by norm_num), hread 3 (by norm_num), ok_bind, ok_bind]
      simp only [htotal]
      rw [if_neg (by omega)]
      exact loop_potential (fun w => ∃ before rest, Walked desc before rest w) (fun w => desc.length - w.offset)
        (endpointRound_run hheader) ⟨[], desc, Walked.start desc⟩ (by omega)

end Run

section Beyond

variable (desc more : Bytes)

theorem readCdcData_extends (offset : ℕ) : Extends (readCdcData desc offset) (readCdcData (desc ++ more) offset) := by
  refine (Extends.readAt desc more _).bind fun interfaceClass => ?_
  split
  · exact (Extends.readAt desc more _).bind fun _ => Extends.refl _
  · exact Extends.refl _

theorem readBulkIn_extends (offset : ℕ) : Extends (readBulkIn desc offset) (readBulkIn (desc ++ more) offset) := by
  refine (Extends.readAt desc more _).bind fun address => ?_
  split
  · exact (Extends.readAt desc more _).bind fun _ => Extends.refl _
  · exact Extends.refl _

theorem endpointRound_extends (total : ℕ) (w : Walk) : Extends (endpointRound desc total w) (endpointRound (desc ++ more) total w) := by
  rw [endpointRound, endpointRound]
  split
  · refine (Extends.readAt desc more _).bind fun length => ?_
    dsimp only
    split
    · exact Extends.refl _
    · refine (Extends.readAt desc more _).bind fun type => ?_
      split
      · split
        · exact Extends.refl _
        · exact (readCdcData_extends desc more _).bind fun _ => Extends.refl _
      · split
        · split
          · exact Extends.refl _
          · refine (readBulkIn_extends desc more _).bind fun bulkIn => ?_
            split
            · exact (Extends.readAt desc more _).bind fun _ => Extends.refl _
            · exact Extends.refl _
        · exact Extends.refl _
  · exact Extends.refl _

/-- What follows the array is not looked at. -/
theorem cdcBulkInEndpoint_extends : Extends (cdcBulkInEndpoint (some desc)) (cdcBulkInEndpoint (some (desc ++ more))) := by
  refine (Extends.readAt desc more _).bind fun length => ?_
  split
  · exact Extends.refl _
  · refine (Extends.readAt desc more _).bind fun type => ?_
    split
    · exact Extends.refl _
    · refine (Extends.readAt desc more _).bind fun low => (Extends.readAt desc more _).bind fun high => ?_
      dsimp only
      split
      · exact Extends.refl _
      · exact Extends.loop (endpointRound_extends desc more _) _ _

end Beyond

/-- The walk needs no byte past the total length that the array declares, it ends, and it gives the address of the first bulk IN
endpoint of an interface of CDC data in its alternate setting 0. -/
theorem cdcBulkInEndpoint_answers (desc : Bytes) (total : ℕ) (htotal : declaredTotal (desc.getD 2 0) (desc.getD 3 0) = total)
    (hlow : 9 ≤ total) (hhigh : total ≤ 1024) (hfits : total ≤ desc.length) :
    ∃ address, cdcBulkInEndpoint (some (desc.take total)) = .ok address ∧ cdcBulkInEndpoint (some desc) = .ok address ∧
      Answers Blocking (desc.take total) address := by
  have hlength : (desc.take total).length = total := by rw [List.length_take, Nat.min_eq_left hfits]
  have hfield : ∀ k < 9, (desc.take total).getD k 0 = desc.getD k 0 := by
    intro k hk
    rw [List.getD_eq_getElem _ _ (by omega), List.getD_eq_getElem _ _ (by omega), List.getElem_take]
  obtain ⟨address, hrun, hanswers⟩ := cdcBulkInEndpoint_run (desc.take total)
    (by rw [hfield 2 (by norm_num), hfield 3 (by norm_num), htotal, hlength]) (by omega) (by omega)
  have hextends := cdcBulkInEndpoint_extends (desc.take total) (desc.drop total) address hrun
  rw [List.take_append_drop] at hextends
  exact ⟨address, hrun, hextends, hanswers⟩

section Passed

/-- A configuration whose first interface is not of CDC data. The one endpoint of that interface is cut short. -/
def configurationDescriptor : Descriptor := ⟨[0x09, 0x02, 0x24, 0x00, 0x02, 0x01, 0x00, 0x80, 0x32], by decide, by decide⟩

def massStorageDescriptor : Descriptor := ⟨[0x09, 0x04, 0x00, 0x00, 0x01, 0x08, 0x06, 0x50, 0x00], by decide, by decide⟩

def shortDescriptor : Descriptor := ⟨[0x02, 0x05], by decide, by decide⟩

def cdcDataDescriptor : Descriptor := ⟨[0x09, 0x04, 0x01, 0x00, 0x01, 0x0a, 0x00, 0x00, 0x00], by decide, by decide⟩

def bulkInDescriptor : Descriptor := ⟨[0x07, 0x05, 0x82, 0x02, 0x40, 0x00, 0x00], by decide, by decide⟩

def passedDescriptors : Bytes :=
  flat ([configurationDescriptor, massStorageDescriptor, shortDescriptor] ++ [cdcDataDescriptor, bulkInDescriptor])

theorem cdcBulkInEndpoint_answers_passed :
    ∃ address, cdcBulkInEndpoint (some (passedDescriptors.take 36)) = .ok address ∧
      cdcBulkInEndpoint (some passedDescriptors) = .ok address ∧ Answers Blocking (passedDescriptors.take 36) address :=
  cdcBulkInEndpoint_answers passedDescriptors 36 (by decide) (by decide) (by decide) (by decide)

/-- The walk goes past the short endpoint, to an address behind it. -/
theorem shortDescriptor_passed :
    declaredTotal (passedDescriptors.getD 2 0) (passedDescriptors.getD 3 0) = 36 ∧ passedDescriptors.length = 36 ∧
      cdcBulkInEndpoint (some passedDescriptors) = .ok 0x82 ∧ ¬ Answers Malformed passedDescriptors 0x82 := by
  refine ⟨by decide, by decide, by decide, ?_⟩
  rintro (⟨before, d, hfirst, -⟩ | ⟨-, hzero⟩)
  · have hbulk : ∀ e ∈ [configurationDescriptor, massStorageDescriptor, shortDescriptor], ¬ e.IsBulkIn := by
      unfold Descriptor.IsBulkIn
      decide
    obtain ⟨more, hmore⟩ := hfirst.split
    rcases flat_comparable (hmore.trans (flat_append _ _)) with hbegins | ⟨r, hr⟩
    · exact hbulk d (hbegins.subset (List.mem_append_right _ (List.mem_singleton_self d))) hfirst.bulkIn.1
    · exact hfirst.wellFormed [configurationDescriptor, massStorageDescriptor] shortDescriptor r hr.symm
        (Or.inr (Or.inr ⟨by decide, by decide⟩))
  · exact absurd hzero (by decide)

end Passed

end M5DayLog.UsbDescriptors
