import M5DayLog.Cdc.Gate

/-! A cutoff against an open in progress, between two threads. A close acts only on an open phase and a reset withdraws
only what has been reserved, so that an open which has not got that far forgets the cutoff once it is over: it moves the
phase, and the session is open after both have returned. Where no open does so, the cutoff wins in every interleaving. -/

namespace M5DayLog

open Threads

variable {κ : Type} [DecidableEq κ] [Counter κ]

/-- The record of a run of two threads. -/
structure Overlap where
  /-- The thread is in an open. -/
  opening : Bool → Bool
  /-- The thread's close or reset was called while the other was in an open, and no open has been called since. -/
  inside : Bool → Bool
  /-- A close or reset that was called during the thread's open has returned. -/
  lost : Bool → Bool
  /-- A close or reset that was called during an open has returned, and no open has been called since. -/
  owed : Bool

namespace Overlap

def start : Overlap := ⟨fun _ => false, fun _ => false, fun _ => false, false⟩

/-- A close or reset is called. -/
def cutoff (t : Bool) (h : Overlap) : Overlap := { h with inside := Function.update h.inside t (h.opening !t) }

/-- A close or reset returns. -/
def cutoffDone (t : Bool) (h : Overlap) : Overlap :=
  if h.inside t then { h with lost := Function.update h.lost (!t) true, owed := true } else h

def note : Note Bool (GateOp κ) GateOp.Ans (GateCall κ) GateCall.Ret → Overlap → Overlap
  | .called t .opens, h => ⟨Function.update h.opening t true, fun _ => false, Function.update h.lost t false, false⟩
  | .called t .close, h => h.cutoff t
  | .called t .reset, h => h.cutoff t
  | .returned t .opens _, h => { h with opening := Function.update h.opening t false }
  | .returned t .close _, h => h.cutoffDone t
  | .returned t .reset _, h => h.cutoffDone t
  | _, h => h

end Overlap

/-- What `usb_cdc_session_gate_is_open` looks at. -/
def Gate.isOpen (g : Gate κ) : Bool :=
  g.phase = .opened && g.rxState = .isOpen && decide (g.rxDiscardEpoch = g.rxDrainedEpoch)

/-- Where the run must not go wrong: no open moves the phase after a cutoff that was called during it has returned. -/
def OpensInTime (_ : Gate κ) (h : Overlap) (t : Bool) : (o : GateOp κ) → o.Ans → Prop
  | .exchangePhase _ .opened, none => h.lost t = false
  | _, _ => True

instance (g : Gate κ) (h : Overlap) (t : Bool) (o : GateOp κ) (r : o.Ans) : Decidable (OpensInTime g h t o r) := by
  unfold OpensInTime
  split <;> infer_instance

/-- Where a thread stands: in an open, before or after it has reserved the receive word; in a close, after it has moved
the phase or withdrawn the session; or at the end of a cutoff. -/
inductive CutoffMark
  | free
  | looking
  | reserved
  | closing
  | cut
  | leaving
  deriving DecidableEq

open CutoffMark

def CutoffMark.Calm (m : CutoffMark) : Prop := m ≠ .leaving

/-- No open in progress can publish, unless it moves the phase. -/
def Barred (g : Gate κ) (G : Bool → CutoffMark) : Prop :=
  g.phase ≠ .opened ∨
    g.rxState.opened = false ∧ ∀ t, G t ≠ .looking ∧ (G t = .reserved → g.rxState.opening = false)

structure CutsOff (g : Gate κ) (h : Overlap) (G : Bool → CutoffMark) : Prop where
  opening : ∀ t, h.opening t = true ↔ G t = .looking ∨ G t = .reserved
  lost : h.owed = true → ∀ t, h.opening t = true → h.lost t = true
  owed : h.owed = true → Barred g G
  closing : ∀ t, G t = .closing → h.inside t = true → G (!t) = .looking → g.phase ≠ .opened
  cut : ∀ t, G t = .cut → h.inside t = true → g.rxState.opened = false ∧ g.rxState.opening = false ∧
    (G (!t) = .looking → g.phase ≠ .opened ∧ g.rxState.dirty = true)
  leaving : ∀ t, G t = .leaving → h.inside t = true → Barred g G

abbrev KeepsCutoff {α : Type} (t : Bool) (p : GateProg κ α) (Q : α → CutoffMark → Prop) (m : CutoffMark) : Prop :=
  Keeps (gateCode Bool fun _ _ => true) Overlap.note CutsOff OpensInTime CutoffMark.Calm t p Q m

set_option linter.unusedSectionVars false

/-- A fact about both threads. -/
theorem forall_two {p : Bool → Prop} (t : Bool) (ht : p t) (hother : p (!t)) (u : Bool) : p u := by
  cases u <;> cases t <;> assumption

theorem not_ne (t : Bool) : (!t) ≠ t := by
  cases t <;> simp

variable {g g' : Gate κ} {h : Overlap} {G : Bool → CutoffMark} {t : Bool} {m m' : CutoffMark}

/-- The step sets no flag, opens no phase, and clears the dirty mark only where no close depends on it. -/
structure Harmless (g g' : Gate κ) (m : CutoffMark) : Prop where
  phase : g'.phase = .opened → g.phase = .opened
  opened : g.rxState.opened = false → g'.rxState.opened = false
  opening : g.rxState.opening = false → g'.rxState.opening = false
  dirty : g.rxState.dirty = true → m = .looking ∨ m = .cut → g'.rxState.dirty = true

theorem Barred.harmless (h : Barred g G) (hh : Harmless g g' m) : Barred g' G := by
  rcases h with h | ⟨h1, h2⟩
  · exact Or.inl fun hp => h (hh.phase hp)
  · exact Or.inr ⟨hh.opened h1, fun t => ⟨(h2 t).1, fun ht => hh.opening ((h2 t).2 ht)⟩⟩

theorem Barred.update (hb : Barred g G) (hlooking : m' ≠ .looking) (hreserved : m' ≠ .reserved) :
    Barred g (Function.update G t m') := by
  rcases hb with hp | ⟨hopened, hall⟩
  · exact Or.inl hp
  · refine Or.inr ⟨hopened, fun u => ?_⟩
    by_cases hu : u = t
    · subst hu
      rw [Function.update_self]
      exact ⟨hlooking, fun hm => absurd hm hreserved⟩
    · rw [Function.update_of_ne hu]
      exact hall u

theorem CutsOff.harmless (hI : CutsOff g h G) (hG : G t = m) (hh : Harmless g g' m) : CutsOff g' h G := by
  refine ⟨hI.opening, hI.lost, fun ho => (hI.owed ho).harmless hh, fun u hu hin hl hp => ?_, fun u hu hin => ?_,
    fun u hu hin => (hI.leaving u hu hin).harmless hh⟩
  · exact hI.closing u hu hin hl (hh.phase hp)
  · obtain ⟨h1, h2, h3⟩ := hI.cut u hu hin
    refine ⟨hh.opened h1, hh.opening h2, fun hl => ?_⟩
    obtain ⟨hp, hd⟩ := h3 hl
    refine ⟨fun hp' => hp (hh.phase hp'), hh.dirty hd ?_⟩
    -- the thread is the one that is cut or the one that is looking
    by_cases hut : u = t
    · subst hut
      exact Or.inr (hG.symm.trans hu)
    · obtain rfl : (!u) = t := by cases u <;> cases t <;> simp_all
      exact Or.inl (hG.symm.trans hl)

/-- One thread moves, and the other is not about to return. -/
theorem CutsOff.move (hI : CutsOff g h G) (hG : G t = m) (hcalm : G (!t) ≠ .leaving)
    (hopen : m' = .looking ∨ m' = .reserved ↔ m = .looking ∨ m = .reserved)
    (howed : h.owed = true → Barred g' (Function.update G t m'))
    (hclosing : G (!t) = .closing → h.inside (!t) = true → m' = .looking → g'.phase ≠ .opened)
    (hcut : G (!t) = .cut → h.inside (!t) = true → g'.rxState.opened = false ∧ g'.rxState.opening = false ∧
      (m' = .looking → g'.phase ≠ .opened ∧ g'.rxState.dirty = true))
    (hown : h.inside t = true → (m' = .closing → G (!t) = .looking → g'.phase ≠ .opened) ∧
      (m' = .cut → g'.rxState.opened = false ∧ g'.rxState.opening = false ∧
        (G (!t) = .looking → g'.phase ≠ .opened ∧ g'.rxState.dirty = true)) ∧
      (m' = .leaving → Barred g' (Function.update G t m'))) : CutsOff g' h (Function.update G t m') := by
  have hself : Function.update G t m' t = m' := Function.update_self ..
  have hnot : Function.update G t m' (!t) = G (!t) := Function.update_of_ne (not_ne t) ..
  refine ⟨forall_two t ?_ ?_, hI.lost, howed, forall_two t ?_ ?_, forall_two t ?_ ?_, forall_two t ?_ ?_⟩
  · rw [hself, hI.opening, hG, hopen]
  · rw [hnot]
    exact hI.opening _
  · rw [hself, hnot]
    exact fun hm hin => (hown hin).1 hm
  · rw [hnot, Bool.not_not, hself]
    exact hclosing
  · rw [hself, hnot]
    exact fun hm hin => (hown hin).2.1 hm
  · rw [hnot, Bool.not_not, hself]
    exact hcut
  · rw [hself]
    exact fun hm hin => (hown hin).2.2 hm
  · rw [hnot]
    exact fun hm _ => absurd hm hcalm

/-- A thread comes to rest. -/
theorem CutsOff.rest {h' : Overlap} (hI : CutsOff g h G) (hself : h'.opening t = false)
    (hopening : h'.opening (!t) = h.opening (!t)) (hinside : h'.inside = h.inside)
    (hlost : h'.owed = true → h'.opening (!t) = true → h'.lost (!t) = true) (howed : h'.owed = true → Barred g G) :
    CutsOff g h' (Function.update G t .free) := by
  have hself' : Function.update G t CutoffMark.free t = .free := Function.update_self ..
  have hnot : Function.update G t CutoffMark.free (!t) = G (!t) := Function.update_of_ne (not_ne t) ..
  refine ⟨forall_two t ?_ ?_, fun ho => forall_two t ?_ (hlost ho), fun ho => (howed ho).update (by simp) (by simp),
    forall_two t ?_ ?_, forall_two t ?_ ?_, forall_two t ?_ ?_⟩
  · simp [hself]
  · rw [hnot, hopening]
    exact hI.opening _
  · simp [hself]
  · simp
  · simp
  · simp
  · rw [hnot, Bool.not_not, hself', hinside]
    intro hm hin
    obtain ⟨h1, h2, _⟩ := hI.cut _ hm hin
    exact ⟨h1, h2, by simp⟩
  · simp
  · rw [hnot, hinside]
    exact fun hm hin => (hI.leaving _ hm hin).update (by simp) (by simp)

section Operations

theorem cutoff_harmless {o : GateOp κ} {Q : o.Ans → CutoffMark → Prop} (hm : m ≠ .leaving)
    (ho : ∀ weak g g' r, Gate.act o weak g = some (r, g') → Harmless g g' m) (hQ : ∀ r, Q r m) :
    KeepsCutoff t (.op o) Q m := by
  refine keeps_op hm fun g h G hI _ hG weak r g' hact _ => ⟨m, ?_, hQ r⟩
  rw [← hG, Function.update_eq_self]
  exact hI.harmless hG (ho weak g g' r hact)

theorem cutoff_loads {α : Type} {p : GateProg κ α} {Q : α → CutoffMark → Prop} (hm : m ≠ .leaving) (hp : Loads p)
    (hQ : ∀ a, Q a m) : KeepsCutoff t p Q m := by
  refine keeps_of_only hp hm (fun o ho g h G hI _ _ weak r g' hact _ => ?_) hQ
  obtain rfl := act_load ho hact
  exact hI

/-- What only works on the receive words, outside of the stages that depend on the dirty mark. -/
theorem harmless_drain {o : GateOp κ} (ho : o.isDrain = true) (hlooking : m ≠ .looking) (hcut : m ≠ .cut) {weak : Bool}
    {r : o.Ans} (hact : Gate.act o weak g = some (r, g')) : Harmless g g' m := by
  have hdirty : g.rxState.dirty = true → m = .looking ∨ m = .cut → g'.rxState.dirty = true := fun _ hm =>
    absurd hm (not_or.mpr ⟨hlooking, hcut⟩)
  cases o
  case exchangeRx e d =>
    simp only [GateOp.isDrain, GateOp.isReceive, Bool.and_eq_true, Bool.or_eq_true, Bool.not_eq_true'] at ho
    obtain ⟨_, rfl, rfl⟩ | ⟨_, _, rfl⟩ := act_exchangeRx weak hact
    · exact ⟨id, fun h => ho.1.resolve_left (by simp [h]), fun h => ho.2.resolve_left (by simp [h]), hdirty⟩
    · exact ⟨id, id, id, hdirty⟩
  case exchangeRxWeak e d =>
    simp only [GateOp.isDrain, GateOp.isReceive, Bool.and_eq_true, Bool.or_eq_true, Bool.not_eq_true'] at ho
    obtain ⟨_, rfl, rfl⟩ | ⟨_, rfl⟩ := act_exchangeRxWeak weak hact
    · exact ⟨id, fun h => ho.1.resolve_left (by simp [h]), fun h => ho.2.resolve_left (by simp [h]), hdirty⟩
    · exact ⟨id, id, id, hdirty⟩
  case exchangeDrainedWeak => obtain ⟨_, _, rfl⟩ | ⟨_, rfl⟩ := act_exchangeDrainedWeak weak hact <;> exact ⟨id, id, id, hdirty⟩
  case halt => cases r
  case storePhase => cases ho
  case exchangePhase => cases ho
  case addGeneration => cases ho
  case addActive => cases ho
  case subActive => cases ho
  all_goals
    cases hact
    exact ⟨id, id, id, hdirty⟩

theorem cutoff_drains {α : Type} {p : GateProg κ α} {Q : α → CutoffMark → Prop} (hp : Drains p)
    (hm : m = .free ∨ m = .reserved) (hQ : ∀ a, Q a m) : KeepsCutoff t p Q m := by
  have hcalm : m ≠ .leaving := by rcases hm with rfl | rfl <;> simp
  have hlooking : m ≠ .looking := by rcases hm with rfl | rfl <;> simp
  have hcut : m ≠ .cut := by rcases hm with rfl | rfl <;> simp
  refine keeps_of_only hp hcalm (fun o ho g h G hI _ hG weak r g' hact _ => ?_) hQ
  have hnote : Overlap.note (.acted t o r) h = h := rfl
  rw [hnote]
  exact hI.harmless hG (harmless_drain ho hlooking hcut hact)

/-- An open reserves the clean word; no close has cut it before, as it would be dirty. -/
theorem cutoff_reserve {Q : Option RxState → CutoffMark → Prop} (hnone : Q none .reserved)
    (hsome : ∀ found, Q (some found) .looking) : KeepsCutoff t (exchangeRx (κ := κ) .zero .isOpening) Q .looking := by
  refine keeps_op (by simp [Calm]) fun g h G hI hcalm hG weak r g' hact _ => ?_
  obtain ⟨rfl, hrx, rfl⟩ | ⟨rfl, _, rfl⟩ := act_exchangeRx weak hact
  · refine ⟨.reserved, ?_, hnone⟩
    refine hI.move hG (hcalm _) (by simp) (fun ho => ?_) (by simp) (fun hm hin => ?_) (by simp)
    · rcases hI.owed ho with hp | ⟨_, hl⟩
      · exact Or.inl hp
      · exact absurd hG (hl t).1
    · have hdirty := ((hI.cut _ hm hin).2.2 (by simpa using hG)).2
      rw [hrx] at hdirty
      cases hdirty
  · refine ⟨.looking, ?_, hsome _⟩
    rw [← hG, Function.update_eq_self]
    exact hI

/-- An open moves the phase; by then no cutoff that was called during it has returned. -/
theorem cutoff_openPhase {Q : Option GatePhase → CutoffMark → Prop} (hQ : ∀ r, Q r .reserved) :
    KeepsCutoff t (exchangePhase (κ := κ) .closed .opened) Q .reserved := by
  refine keeps_op (by simp [Calm]) fun g h G hI hcalm hG weak r g' hact hok => ⟨.reserved, ?_, hQ r⟩
  obtain ⟨rfl, hphase, rfl⟩ | ⟨rfl, _, rfl⟩ := act_exchangePhase weak hact
  · have hopening : h.opening t = true := (hI.opening t).mpr (Or.inr hG)
    have howed : h.owed = false := by
      cases ho : h.owed with
      | false => rfl
      | true =>
        have hlost := hI.lost ho t hopening
        rw [show h.lost t = false from hok] at hlost
        cases hlost
    refine hI.move hG (hcalm _) Iff.rfl (by simp [howed]) (by simp) (fun hm hin => ?_) (by simp)
    obtain ⟨h1, h2, _⟩ := hI.cut _ hm hin
    exact ⟨h1, h2, by simp⟩
  · rw [← hG, Function.update_eq_self]
    exact hI

/-- A reservation is published only where no cutoff has withdrawn it. -/
theorem cutoff_publish {Q : Option RxState → CutoffMark → Prop} (hQ : ∀ r, Q r .reserved) :
    KeepsCutoff t (exchangeRx (κ := κ) .isOpening .isOpen) Q .reserved := by
  refine keeps_op (by simp [Calm]) fun g h G hI hcalm hG weak r g' hact _ => ⟨.reserved, ?_, hQ r⟩
  obtain ⟨rfl, hrx, rfl⟩ | ⟨rfl, _, rfl⟩ := act_exchangeRx weak hact
  · refine hI.move hG (hcalm _) Iff.rfl (fun ho => ?_) (by simp) (fun hm hin => ?_) (by simp)
    · rcases hI.owed ho with hp | ⟨_, hl⟩
      · exact Or.inl hp
      · have hopening := (hl t).2 hG
        rw [hrx] at hopening
        cases hopening
    · have hopening := (hI.cut _ hm hin).2.1
      rw [hrx] at hopening
      cases hopening
  · rw [← hG, Function.update_eq_self]
    exact hI

/-- A close moves an open phase, or has nothing to do. -/
theorem cutoff_closePhase {Q : Option GatePhase → CutoffMark → Prop} (hnone : Q none .closing)
    (hsome : ∀ found, Q (some found) .leaving) : KeepsCutoff t (exchangePhase (κ := κ) .opened .closed) Q .free := by
  refine keeps_op (by simp [Calm]) fun g h G hI hcalm hG weak r g' hact _ => ?_
  obtain ⟨rfl, _, rfl⟩ | ⟨rfl, hphase, rfl⟩ := act_exchangePhase weak hact
  · refine ⟨.closing, ?_, hnone⟩
    refine hI.move hG (hcalm _) (by simp) (fun _ => Or.inl (by simp)) (by simp) (fun hm hin => ?_) (by simp)
    obtain ⟨h1, h2, _⟩ := hI.cut _ hm hin
    exact ⟨h1, h2, by simp⟩
  · refine ⟨.leaving, ?_, hsome _⟩
    refine hI.move hG (hcalm _) (by simp) (fun _ => Or.inl hphase) (by simp) (fun hm hin => ?_)
      (fun _ => ⟨by simp, by simp, fun _ => Or.inl hphase⟩)
    obtain ⟨h1, h2, _⟩ := hI.cut _ hm hin
    exact ⟨h1, h2, by simp⟩

/-- The boundary of a close withdraws what the other thread has reserved or published. -/
theorem cutoff_boundary {Q : Option RxState → CutoffMark → Prop} {state : RxState} (hnone : Q none .cut)
    (hsome : ∀ found, Q (some found) .closing) :
    KeepsCutoff t (exchangeRxWeak (κ := κ) state (boundaryState state)) Q .closing := by
  refine keeps_op (by simp [Calm]) fun g h G hI hcalm hG weak r g' hact _ => ?_
  obtain ⟨rfl, _, rfl⟩ | ⟨rfl, rfl⟩ := act_exchangeRxWeak weak hact
  · refine ⟨.cut, ?_, hnone⟩
    refine hI.move hG (hcalm _) (by simp) (fun ho => ?_) (by simp) (fun _ _ => ⟨rfl, rfl, by simp⟩) fun hin => ?_
    · rcases hI.owed ho with hp | ⟨_, hl⟩
      · exact Or.inl hp
      · refine Or.inr ⟨rfl, fun u => ?_⟩
        by_cases hu : u = t
        · subst hu
          simp
        · rw [Function.update_of_ne hu]
          exact ⟨(hl u).1, fun _ => rfl⟩
    · exact ⟨by simp, fun _ => ⟨rfl, rfl, fun hl => ⟨hI.closing t hG hin hl, rfl⟩⟩, by simp⟩
  · refine ⟨.closing, ?_, hsome _⟩
    rw [← hG, Function.update_eq_self]
    exact hI

/-- Behind the boundary of a close no open in progress can publish. -/
theorem CutsOff.barred (hI : CutsOff g h G) (hG : G t = .cut) (hin : h.inside t = true) : Barred g G := by
  obtain ⟨hopened, hopening, hlooking⟩ := hI.cut t hG hin
  by_cases hl : G (!t) = .looking
  · exact Or.inl (hlooking hl).1
  · refine Or.inr ⟨hopened, fun u => ⟨?_, fun _ => hopening⟩⟩
    by_cases hu : u = t
    · subst hu
      simp [hG]
    · obtain rfl : u = !t := by cases u <;> cases t <;> simp_all
      exact hl

/-- Clearing the dirty mark is the last thing that a close does. -/
theorem cutoff_clear {Q : Option RxState → CutoffMark → Prop} {state : RxState} (hnone : Q none .leaving)
    (hsome : ∀ found, Q (some found) .cut) :
    KeepsCutoff t (exchangeRxWeak (κ := κ) state { state with dirty := false }) Q .cut := by
  refine keeps_op (by simp [Calm]) fun g h G hI hcalm hG weak r g' hact _ => ?_
  obtain ⟨rfl, hrx, rfl⟩ | ⟨rfl, rfl⟩ := act_exchangeRxWeak weak hact
  · refine ⟨.leaving, ?_, hnone⟩
    have hbarred : ∀ {G' : Bool → CutoffMark}, Barred g G' →
        Barred { g with rxState := { state with dirty := false } } (Function.update G' t .leaving) := by
      intro G' hb
      refine Barred.update (hb.harmless (m := .free) ⟨id, ?_, ?_, by simp⟩) (by simp) (by simp)
      · simp [hrx]
      · simp [hrx]
    refine hI.move hG (hcalm _) (by simp) (fun ho => hbarred (hI.owed ho)) (by simp) (fun hm hin => ?_) fun hin => ?_
    · obtain ⟨h1, h2, _⟩ := hI.cut _ hm hin
      rw [hrx] at h1 h2
      exact ⟨h1, h2, by simp⟩
    · exact ⟨by simp, by simp, fun _ => hbarred (hI.barred hG hin)⟩
  · refine ⟨.cut, ?_, hsome _⟩
    rw [← hG, Function.update_eq_self]
    exact hI

/-- The last step of a reset. -/
theorem cutoff_storeClosed {Q : Unit → CutoffMark → Prop} (hQ : Q () .leaving) :
    KeepsCutoff t (storePhase (κ := κ) .closed) Q .free := by
  refine keeps_op (by simp [Calm]) fun g h G hI hcalm hG weak r g' hact _ => ⟨.leaving, ?_, hQ⟩
  cases hact
  have hbarred : Barred { g with phase := .closed } (Function.update G t .leaving) := Or.inl (by simp)
  refine hI.move hG (hcalm _) (by simp) (fun _ => hbarred) (by simp) (fun hm hin => ?_)
    fun _ => ⟨by simp, by simp, fun _ => hbarred⟩
  obtain ⟨h1, h2, _⟩ := hI.cut _ hm hin
  exact ⟨h1, h2, by simp⟩

end Operations

section Procedures

theorem cutoff_openFailed {Q : Bool → CutoffMark → Prop} (hQ : ∀ b, Q b .reserved) (fuel : ℕ) :
    KeepsCutoff t (openFailed (κ := κ) fuel) Q .reserved := by
  rw [openFailed, KeepsCutoff, keeps_bind]
  exact cutoff_drains (receives_drains (receives_cancelOpening fuel)) (Or.inr rfl) fun _ => hQ false

theorem cutoff_openPublish {Q : Bool → CutoffMark → Prop} (hQ : ∀ b, Q b .reserved) (fuel : ℕ) :
    KeepsCutoff t (openPublish (κ := κ) fuel) Q .reserved := by
  rw [openPublish, KeepsCutoff, keeps_bind]
  refine cutoff_loads (by simp) (isLoad_op rfl) fun phase => ?_
  split
  · exact cutoff_openFailed hQ fuel
  · rw [keeps_bind]
    refine cutoff_publish fun r => ?_
    cases r with
    | some _ => exact cutoff_openFailed hQ fuel
    | none =>
      rw [keeps_bind]
      refine cutoff_loads (by simp) (isLoad_op rfl) fun phase => ?_
      split
      · rw [keeps_bind]
        exact cutoff_drains (receives_drains (receives_boundary fuel)) (Or.inr rfl) fun _ => hQ false
      · exact hQ true

theorem cutoff_openReserve {Q : Bool → CutoffMark → Prop} (hlooking : Q false .looking) (hQ : ∀ b, Q b .reserved)
    (fuel : ℕ) : KeepsCutoff t (openReserve (κ := κ) fuel) Q .looking := by
  rw [openReserve, KeepsCutoff, keeps_bind]
  refine cutoff_reserve ?_ fun _ => hlooking
  rw [keeps_bind]
  refine cutoff_loads (by simp) (isLoad_op rfl) fun phase => ?_
  cases phase with
  | closed =>
    rw [keeps_bind]
    refine cutoff_openPhase fun r => ?_
    cases r with
    | none => exact cutoff_openPublish hQ fuel
    | some found =>
      dsimp only
      split
      · exact cutoff_openFailed hQ fuel
      · exact cutoff_openPublish hQ fuel
  | opened => exact cutoff_openPublish hQ fuel
  | resetting => exact cutoff_openFailed hQ fuel

theorem cutoff_open {Q : Bool → CutoffMark → Prop} (hlooking : ∀ b, Q b .looking) (hQ : ∀ b, Q b .reserved) (fuel : ℕ) :
    KeepsCutoff t (usbCdcSessionGateOpen (κ := κ) fuel) Q .looking := by
  rw [usbCdcSessionGateOpen, KeepsCutoff, keeps_bind]
  refine cutoff_loads (by simp) (isLoad_op rfl) fun phase => ?_
  split
  · exact hlooking false
  · split
    · rw [keeps_bind]
      refine cutoff_loads (by simp) loads_rxAdmissionIsOpen fun admitted => ?_
      split
      · rw [keeps_bind]
        exact cutoff_loads (by simp) loads_hasPending fun pending => hlooking _
      · exact cutoff_openReserve (hlooking _) hQ fuel
    · exact cutoff_openReserve (hlooking _) hQ fuel

theorem cutoff_tryClear {Q : Unit → CutoffMark → Prop} (hcut : Q () .cut) (hleaving : Q () .leaving) (fuel : ℕ) :
    KeepsCutoff t (gateTryClearRxDirty (κ := κ) fuel) Q .cut := by
  induction fuel with
  | zero => exact ⟨by simp [Calm], fun g h G _ _ _ weak r => nomatch r⟩
  | succ fuel ih =>
    rw [gateTryClearRxDirty, KeepsCutoff, keeps_bind]
    refine cutoff_loads (by simp) (isLoad_op rfl) fun state => ?_
    split
    · exact hcut
    · rw [keeps_bind]
      refine cutoff_loads (by simp) loads_hasPending fun pending => ?_
      split
      · exact hcut
      · rw [keeps_bind]
        refine cutoff_clear hleaving fun _ => ?_
        exact ih

theorem cutoff_close {Q : Unit → CutoffMark → Prop} (hcut : Q () .cut) (hleaving : Q () .leaving) (fuel : ℕ) :
    KeepsCutoff t (usbCdcSessionGateClose (κ := κ) fuel) Q .free := by
  have hregister : ∀ {R : Bool → CutoffMark → Prop}, (∀ b, R b .cut) → ∀ fuel state,
      KeepsCutoff t (gateRegisterBoundary (κ := κ) fuel state) R .closing := by
    intro R hR fuel
    induction fuel with
    | zero => exact fun _ => ⟨by simp [Calm], fun g h G _ _ _ weak r => nomatch r⟩
    | succ fuel ih =>
      intro state
      rw [gateRegisterBoundary, KeepsCutoff, keeps_bind]
      exact cutoff_boundary (hR _) fun found => ih found
  rw [usbCdcSessionGateClose, KeepsCutoff, keeps_bind]
  refine cutoff_closePhase ?_ fun _ => hleaving
  rw [keeps_bind]
  refine cutoff_harmless (by simp) (fun weak g g' r hact => by cases hact; exact ⟨id, id, id, fun h _ => h⟩) fun _ => ?_
  rw [gateMarkRxBoundaryStale, keeps_bind]
  refine cutoff_loads (by simp) (isLoad_op rfl) fun state => ?_
  rw [keeps_bind]
  refine hregister (fun registered => ?_) fuel state
  rw [keeps_bind]
  refine cutoff_harmless (by simp) (fun weak g g' r hact => by cases hact; exact ⟨id, id, id, fun h _ => h⟩) fun _ => ?_
  split
  · rw [keeps_bind]
    refine cutoff_harmless (by simp) (fun weak g g' r hact => by cases hact; exact ⟨id, id, id, fun h _ => h⟩) fun _ => ?_
    exact cutoff_tryClear hcut hleaving fuel
  · exact cutoff_tryClear hcut hleaving fuel

theorem cutoff_reset {Q : Unit → CutoffMark → Prop} (hQ : Q () .leaving) (fuel : ℕ) :
    KeepsCutoff t (usbCdcSessionGateReset (κ := κ) fuel) Q .free := by
  rw [usbCdcSessionGateReset, KeepsCutoff, keeps_bind]
  refine cutoff_harmless (by simp) (fun weak g g' r hact => by cases hact; exact ⟨by simp, id, id, fun h _ => h⟩) fun _ => ?_
  rw [keeps_bind]
  refine cutoff_drains (receives_drains (receives_closeAdmission fuel)) (Or.inl rfl) fun _ => ?_
  rw [keeps_bind]
  refine cutoff_harmless (by simp) (fun weak g g' r hact => by cases hact; exact ⟨id, id, id, fun h _ => h⟩) fun _ => ?_
  rw [keeps_bind]
  refine cutoff_loads (by simp) (loads_waitIdle fuel) fun _ => ?_
  exact cutoff_storeClosed hQ

theorem cutoff_commandBegin {Q : Bool → CutoffMark → Prop} (hQ : ∀ b, Q b .free) (generation : κ) :
    KeepsCutoff t (usbCdcSessionGateCommandBegin generation) Q .free := by
  rw [usbCdcSessionGateCommandBegin, KeepsCutoff, keeps_bind]
  refine cutoff_loads (by simp) (loads_generationOpen _) fun admitted => ?_
  split
  · exact hQ false
  · rw [keeps_bind]
    refine cutoff_harmless (by simp) (fun weak g g' r hact => by cases hact; exact ⟨id, id, id, fun h _ => h⟩) fun _ => ?_
    rw [keeps_bind]
    refine cutoff_loads (by simp) (loads_generationOpen _) fun admitted => ?_
    split
    · rw [keeps_bind]
      exact cutoff_harmless (by simp) (fun weak g g' r hact => by cases hact; exact ⟨id, id, id, fun h _ => h⟩) fun _ => hQ false
    · exact hQ true

end Procedures

section Runs

abbrev ReturnsCutoff (t : Bool) (held : Commands κ) (c : GateCall κ) (v : c.Ret) (m : CutoffMark) : Prop :=
  Returns (gateCode Bool fun _ _ => true) Overlap.note CutsOff (fun _ => .free) t held c v m

variable {held : Commands κ} {c : GateCall κ} {v : c.Ret}

/-- A call that is neither an open nor a cutoff. -/
theorem returns_other (hnote : ∀ h : Overlap, h.note (.returned t c v) = h) : ReturnsCutoff t held c v .free := by
  intro g h G hI hG
  rw [hnote]
  show CutsOff g h (Function.update G t .free)
  rw [← hG, Function.update_eq_self]
  exact hI

theorem returns_open {b : Bool} : ReturnsCutoff (κ := κ) t held .opens b m := by
  intro g h G hI hG
  have hother : Function.update h.opening t false (!t) = h.opening (!t) := Function.update_of_ne (not_ne t) ..
  refine hI.rest (Function.update_self ..) hother rfl (fun ho hu => ?_) hI.owed
  exact hI.lost ho _ (hother.symm.trans hu)

/-- A cutoff returns: from then on no open in progress can publish. -/
theorem cutsOff_cutoffDone (hI : CutsOff g h G) (hopen : h.opening t = false) (hb : h.inside t = true → Barred g G) :
    CutsOff g (h.cutoffDone t) (Function.update G t .free) := by
  unfold Overlap.cutoffDone
  split
  case isTrue hin =>
    exact hI.rest hopen rfl rfl (fun _ _ => Function.update_self ..) fun _ => hb hin
  case isFalse => exact hI.rest hopen rfl rfl (fun ho hu => hI.lost ho _ hu) hI.owed

theorem CutsOff.not_opening (hI : CutsOff g h G) (hG : G t = m) (hlooking : m ≠ .looking) (hreserved : m ≠ .reserved) :
    h.opening t = false := by
  rw [← Bool.not_eq_true, hI.opening, hG]
  exact not_or.mpr ⟨hlooking, hreserved⟩

theorem returns_cutoff (hc : ∀ h : Overlap, h.note (.returned t c v) = h.cutoffDone t) (hm : m = .cut ∨ m = .leaving) :
    ReturnsCutoff t held c v m := by
  intro g h G hI hG
  rw [hc]
  rcases hm with rfl | rfl
  · exact cutsOff_cutoffDone hI (hI.not_opening hG (by simp) (by simp)) fun hin => hI.barred hG hin
  · exact cutsOff_cutoffDone hI (hI.not_opening hG (by simp) (by simp)) fun hin => hI.leaving t hG hin

/-- A close or reset is called by a thread at rest. -/
theorem cutsOff_cutoff (hI : CutsOff g h G) (hG : G t = .free) : CutsOff g (h.cutoff t) (Function.update G t .free) := by
  have hkeep : ∀ u, G u ≠ .free → (h.cutoff t).inside u = true → h.inside u = true := by
    intro u hu hin
    have hut : u ≠ t := by
      rintro rfl
      exact hu hG
    rwa [show (h.cutoff t).inside u = h.inside u from Function.update_of_ne hut ..] at hin
  rw [← hG, Function.update_eq_self]
  exact ⟨hI.opening, hI.lost, hI.owed, fun u hm hin => hI.closing u hm (hkeep u (by simp [hm]) hin),
    fun u hm hin => hI.cut u hm (hkeep u (by simp [hm]) hin), fun u hm hin => hI.leaving u hm (hkeep u (by simp [hm]) hin)⟩

/-- An open is called: no earlier cutoff is owed anything. -/
theorem cutsOff_open (hI : CutsOff g h G) :
    CutsOff g ⟨Function.update h.opening t true, fun _ => false, Function.update h.lost t false, false⟩
      (Function.update G t .looking) := by
  refine ⟨fun u => ?_, by simp, by simp, by simp, by simp, by simp⟩
  show Function.update h.opening t true u = true ↔ _
  by_cases hu : u = t
  · subst hu
    simp
  · rw [Function.update_of_ne hu, Function.update_of_ne hu]
    exact hI.opening u

theorem keepsCalls_cutoff : KeepsCalls (gateCode Bool fun (_ : Gate κ) _ => true) Overlap.note CutsOff OpensInTime
    CutoffMark.Calm fun _ => .free := by
  intro t c held g h G hI _ hG _
  replace hG : G t = .free := hG
  have hrest : CutsOff g h (Function.update G t .free) := by
    rw [← hG, Function.update_eq_self]
    exact hI
  cases c with
  | generation | rxDiscardEpoch =>
    exact ⟨.free, hrest, fun _ => cutoff_loads (by simp) (isLoad_op rfl) fun _ => returns_other fun _ => rfl⟩
  | isOpen => exact ⟨.free, hrest, fun _ => cutoff_loads (by simp) loads_isOpen fun _ => returns_other fun _ => rfl⟩
  | opens => exact ⟨.looking, cutsOff_open hI, fun fuel => cutoff_open (fun _ => returns_open) (fun _ => returns_open) fuel⟩
  | close =>
    refine ⟨.free, cutsOff_cutoff hI hG, fun fuel => cutoff_close ?_ ?_ fuel⟩
    · exact returns_cutoff (fun _ => rfl) (Or.inl rfl)
    · exact returns_cutoff (fun _ => rfl) (Or.inr rfl)
  | snapshot => exact ⟨.free, hrest, fun _ => cutoff_loads (by simp) loads_snapshot fun _ => returns_other fun _ => rfl⟩
  | snapshotIsCurrent snapshot =>
    refine ⟨.free, hrest, fun _ => cutoff_loads (by simp) (loads_snapshotIsCurrent snapshot) fun b => ?_⟩
    exact returns_other fun _ => rfl
  | noteRx =>
    exact ⟨.free, hrest, fun fuel => cutoff_drains (receives_drains (receives_noteRx fuel)) (Or.inl rfl) fun _ => returns_other fun _ => rfl⟩
  | shouldDiscardRx =>
    exact ⟨.free, hrest, fun _ => cutoff_loads (by simp) loads_hasPending fun _ => returns_other fun _ => rfl⟩
  | markRxDrained epoch =>
    refine ⟨.free, hrest, fun fuel => cutoff_drains (drains_markRxDrained epoch fuel) (Or.inl rfl) fun _ => ?_⟩
    exact returns_other fun _ => rfl
  | commandBegin generation =>
    exact ⟨.free, hrest, fun _ => cutoff_commandBegin (fun _ => returns_other fun _ => rfl) generation⟩
  | commandEnd generation =>
    refine ⟨.free, hrest, fun _ => cutoff_harmless (by simp) (fun weak g g' r hact => ?_) fun _ => returns_other fun _ => rfl⟩
    cases hact
    exact ⟨id, id, id, fun h _ => h⟩
  | reset => exact ⟨.free, cutsOff_cutoff hI hG, fun fuel => cutoff_reset (returns_cutoff (fun _ => rfl) (Or.inr rfl)) fuel⟩

/-- Between two threads: where no open moves the phase after a cutoff that was called during it has returned, the gate is
not open from the return of a cutoff that was called during an open until another open is called. -/
theorem cutoff_wins {P : Pool Bool (GateOp κ) GateOp.Ans (Gate κ) (GateCall κ) GateCall.Ret (Commands κ) Overlap}
    (hP : Reach (gateCode Bool fun _ _ => true) Overlap.note OpensInTime (gatePool Bool .start) P)
    (howed : P.seen.owed = true) : P.mem.isOpen = false := by
  have hinit : CutsOff (κ := κ) Gate.init .start fun _ => .free :=
    ⟨by simp [Overlap.start], by simp [Overlap.start], by simp [Overlap.start], by simp, by simp, by simp⟩
  obtain ⟨G, hI, _, _⟩ := good_reach (by simp [Calm]) keepsCalls_cutoff (good_idle (by simp [Calm]) hinit) hP
  rcases hI.owed howed with hp | ⟨hopened, _⟩
  · simp [Gate.isOpen, hp]
  · have hrx : P.mem.rxState ≠ .isOpen := fun hrx => by simp [hrx, RxState.isOpen] at hopened
    simp [Gate.isOpen, hrx]

section Lost

/-- A close comes after an open has read the phase, and before it has moved it. -/
def lostEvents : List (Event Bool Bool (GateCall UInt32)) :=
  .call true .opens 9 :: .act true false :: .call false .close 9 :: .act false false :: List.replicate 6 (.act true false)

theorem cutoff_lost : (run (gateCode Bool fun (_ : Gate UInt32) _ => true) Overlap.note (fun _ _ _ _ _ => True) lostEvents
    (gatePool Bool .start)).any (fun P => P.seen.owed && !P.seen.opening true && !P.seen.opening false && P.mem.isOpen) = true := by
  decide +kernel

/-- A close comes after the open has moved the phase. -/
def keptEvents : List (Event Bool Bool (GateCall UInt32)) :=
  .call true .opens 9 :: List.replicate 5 (.act true false) ++ .call false .close 9 :: List.replicate 9 (.act false false)

theorem keptEvents_run : (run (gateCode Bool fun (_ : Gate UInt32) _ => true) Overlap.note OpensInTime keptEvents
    (gatePool Bool .start)).isSome = true := by
  decide +kernel

theorem cutoff_wins_kept : ((run (gateCode Bool fun (_ : Gate UInt32) _ => true) Overlap.note OpensInTime keptEvents
    (gatePool Bool .start)).get keptEvents_run).mem.isOpen = false :=
  cutoff_wins (reach_run keptEvents .start (Option.some_get _).symm) (by decide +kernel)

end Lost

end Runs

end M5DayLog
