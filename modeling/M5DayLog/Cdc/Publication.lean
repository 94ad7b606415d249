import M5DayLog.Cdc.Gate

/-! When an open publishes its reservation, every receive callback that was classified as stale has been drained. A
callback is counted in the receive word until it has marked the word dirty, and the mark stays until the drained epoch has
caught up: so a clean word has nothing pending, unless the mark is cleared after a callback that has come and gone since
the clearing thread looked. -/

namespace M5DayLog

open Threads

variable {ι : Type} [DecidableEq ι] [Fintype ι]

/-- An epoch that a thread may have observed is at most the current one, as no counter wraps. -/
def epochSeen (g : Gate ℕ) (epoch : ℕ) : Bool := epoch ≤ g.rxDiscardEpoch

/-- Where the run must not go wrong: the dirty mark is cleared only when nothing is pending, and an epoch is added only
while the word is dirty or counts a classifier. -/
def ClearsDrained (g : Gate ℕ) (_ : Unit) (_ : ι) : (o : GateOp ℕ) → o.Ans → Prop
  | .exchangeRxWeak e d, none => e.dirty = true → d.dirty = false → g.rxDiscardEpoch = g.rxDrainedEpoch
  | .addDiscard, _ => g.rxState.dirty = true ∨ 0 < g.rxState.count
  | _, _ => True

instance (g : Gate ℕ) (h : Unit) (t : ι) (o : GateOp ℕ) (r : o.Ans) : Decidable (ClearsDrained g h t o r) := by
  unfold ClearsDrained
  split <;> infer_instance

/-- What a thread has in hand: a classifier in the count, before or after its dirty mark, or an observed epoch. -/
inductive RxMark
  | free
  | counted
  | dirtied
  | draining (epoch : ℕ)
  deriving DecidableEq

def RxMark.weight : RxMark → ℕ
  | .counted | .dirtied => 1
  | .free | .draining _ => 0

structure Drained (g : Gate ℕ) (G : ι → RxMark) : Prop where
  count : g.rxState.count = ∑ t, (G t).weight
  clean : g.rxState.dirty = false → g.rxState.count = 0 → g.rxDiscardEpoch = g.rxDrainedEpoch
  le : g.rxDrainedEpoch ≤ g.rxDiscardEpoch
  dirty : ∀ t, G t = .dirtied → g.rxState.dirty = true
  observed : ∀ t e, G t = .draining e → e ≤ g.rxDiscardEpoch

abbrev KeepsDrained {α : Type} (t : ι) (p : GateProg ℕ α) (Q : α → RxMark → Prop) (m : RxMark) : Prop :=
  Keeps (gateCode ι epochSeen) (fun _ h => h) (fun g _ G => Drained g G) ClearsDrained (fun _ => True) t p Q m

namespace Drained

variable {g g' : Gate ℕ} {G : ι → RxMark} {t : ι} {m m' : RxMark}

/-- A thread whose classifier is in the count is counted. -/
theorem pos (h : Drained g G) (hG : G t = m) (hw : m.weight = 1) : 0 < g.rxState.count := by
  have hsum := sum_update RxMark.weight G t .free
  rw [hG, hw] at hsum
  have hfree : RxMark.free.weight = 0 := rfl
  have := h.count
  omega

/-- One thread moves: the count follows its mark, and neither dirty marks nor observed epochs are lost. -/
theorem move (h : Drained g G) (hG : G t = m) (hcount : g'.rxState.count + m.weight = g.rxState.count + m'.weight)
    (hclean : g'.rxState.dirty = false → g'.rxState.count = 0 → g'.rxDiscardEpoch = g'.rxDrainedEpoch)
    (hle : g'.rxDrainedEpoch ≤ g'.rxDiscardEpoch) (hdiscard : g.rxDiscardEpoch ≤ g'.rxDiscardEpoch)
    (hdirty : g.rxState.dirty = true → (∃ u, u ≠ t ∧ G u = .dirtied) → g'.rxState.dirty = true)
    (hmark : m' = .dirtied → g'.rxState.dirty = true) (hepoch : ∀ e, m' = .draining e → e ≤ g'.rxDiscardEpoch) :
    Drained g' (Function.update G t m') := by
  refine ⟨?_, hclean, hle, fun u hu => ?_, fun u e hu => ?_⟩
  · have hsum := sum_update RxMark.weight G t m'
    have hold := h.count
    rw [hG] at hsum
    omega
  · by_cases hut : u = t
    · subst hut
      rw [Function.update_self] at hu
      exact hmark hu
    · rw [Function.update_of_ne hut] at hu
      exact hdirty (h.dirty u hu) ⟨u, hut, hu⟩
  · by_cases hut : u = t
    · subst hut
      rw [Function.update_self] at hu
      exact hepoch e hu
    · rw [Function.update_of_ne hut] at hu
      exact (h.observed u e hu).trans hdiscard

end Drained

section Operations

variable {t : ι} {m m' : RxMark}

/-- Operations that leave alone what the invariant is about. -/
theorem keeps_same {o : GateOp ℕ} {Q : o.Ans → RxMark → Prop}
    (ho : ∀ weak g g' r, Gate.act o weak g = some (r, g') → g'.rxState.dirty = g.rxState.dirty ∧
      g'.rxState.count = g.rxState.count ∧ g'.rxDiscardEpoch = g.rxDiscardEpoch ∧ g'.rxDrainedEpoch = g.rxDrainedEpoch)
    (hQ : ∀ r, Q r m) : KeepsDrained t (.op o) Q m := by
  refine keeps_op trivial fun g _ G hI _ hG weak r g' hact _ => ?_
  obtain ⟨hdirty, hcount, hdiscard, hdrained⟩ := ho weak g g' r hact
  refine ⟨m, ?_, hQ r⟩
  refine hI.move hG (by rw [hcount]) ?_ (by rw [hdiscard, hdrained]; exact hI.le) hdiscard.ge (fun h _ => hdirty ▸ h) ?_ ?_
  · rw [hdirty, hcount, hdiscard, hdrained]
    exact hI.clean
  · rintro rfl
    exact hdirty ▸ hI.dirty t hG
  · rintro e rfl
    exact hdiscard ▸ hI.observed t e hG

theorem keeps_loads {α : Type} {p : GateProg ℕ α} {Q : α → RxMark → Prop} (hp : Loads p) (hQ : ∀ a, Q a m) :
    KeepsDrained t p Q m := by
  refine keeps_of_only hp trivial (fun o ho g _ G hI _ _ weak r g' hact _ => ?_) hQ
  obtain rfl := act_load ho hact
  exact hI

theorem keeps_exchangePhase {e d : GatePhase} {Q : Option GatePhase → RxMark → Prop} (hQ : ∀ r, Q r m) :
    KeepsDrained t (exchangePhase e d) Q m := by
  refine keeps_same (fun weak g g' r hact => ?_) hQ
  obtain ⟨_, _, rfl⟩ | ⟨_, _, rfl⟩ := act_exchangePhase weak hact <;> exact ⟨rfl, rfl, rfl, rfl⟩

/-- An exchange that leaves the dirty mark and the count alone. -/
theorem keeps_exchangeRx {e d : RxState} {Q : Option RxState → RxMark → Prop} (hd : d.dirty = e.dirty)
    (hc : d.count = e.count) (hQ : ∀ r, Q r m) : KeepsDrained t (exchangeRx e d) Q m := by
  refine keeps_same (fun weak g g' r hact => ?_) hQ
  obtain ⟨_, rfl, rfl⟩ | ⟨_, _, rfl⟩ := act_exchangeRx weak hact
  · exact ⟨hd, hc, rfl, rfl⟩
  · exact ⟨rfl, rfl, rfl, rfl⟩

theorem keeps_exchangeRxWeak {e d : RxState} {Q : Option RxState → RxMark → Prop} (hd : d.dirty = e.dirty)
    (hc : d.count = e.count) (hQ : ∀ r, Q r m) : KeepsDrained t (exchangeRxWeak e d) Q m := by
  refine keeps_same (fun weak g g' r hact => ?_) hQ
  obtain ⟨_, rfl, rfl⟩ | ⟨_, rfl⟩ := act_exchangeRxWeak weak hact
  · exact ⟨hd, hc, rfl, rfl⟩
  · exact ⟨rfl, rfl, rfl, rfl⟩

theorem keeps_halt {α : Type} {Q : α → RxMark → Prop} : KeepsDrained t (gateHalt : GateProg ℕ α) Q m := by
  exact ⟨trivial, fun g _ G _ _ _ weak r => nomatch r⟩

/-- An exchange that counts a classifier of a thread that has none, or only marks the word dirty. -/
theorem keeps_register (m' : RxMark) {e d : RxState} {Q : Option RxState → RxMark → Prop} (hm' : m'.weight + e.count = d.count)
    (hdirty : e.dirty = true → d.dirty = true) (hclean : d.dirty = false → d.count ≠ 0)
    (hmark : m' = .dirtied → d.dirty = true) (hfree : ∀ epoch, m' ≠ .draining epoch) (hnone : Q none m')
    (hsome : ∀ found, Q (some found) .free) : KeepsDrained t (exchangeRxWeak e d) Q .free := by
  refine keeps_op trivial fun g _ G hI _ hG weak r g' hact _ => ?_
  obtain ⟨rfl, rfl, rfl⟩ | ⟨rfl, rfl⟩ := act_exchangeRxWeak weak hact
  · refine ⟨m', ?_, hnone⟩
    refine hI.move hG ?_ (fun h1 h2 => absurd h2 (hclean h1)) hI.le le_rfl (fun h _ => hdirty h) hmark ?_
    · rw [Nat.add_comm d.count, ← hm']
      show 0 + (m'.weight + g.rxState.count) = g.rxState.count + m'.weight
      omega
    · exact fun epoch h => absurd h (hfree epoch)
  · refine ⟨.free, ?_, hsome _⟩
    rw [← hG, Function.update_eq_self]
    exact hI

/-- An epoch is added by a thread in the count, or while the run allows it. -/
theorem keeps_addDiscard {Q : Unit → RxMark → Prop} (hm : ∀ e, m ≠ .draining e) (hQ : Q () m) :
    KeepsDrained t addDiscard Q m := by
  refine keeps_op trivial fun g _ G hI _ hG weak r g' hact hok => ?_
  cases hact
  refine ⟨m, ?_, hQ⟩
  refine hI.move hG rfl (fun h1 h2 => ?_) (hI.le.trans (Nat.le_succ _)) (Nat.le_succ _) (fun h _ => h) ?_ ?_
  · rcases hok with hdirty | hcount
    · rw [hdirty] at h1
      cases h1
    · exact absurd h2 hcount.ne'
  · rintro rfl
    exact hI.dirty t hG
  · exact fun e h => absurd h (hm e)

theorem keeps_dirtyRx (m' : RxMark) {Q : Unit → RxMark → Prop} (hw : m.weight = m'.weight) (hm' : ∀ e, m' ≠ .draining e) (hQ : Q () m') :
    KeepsDrained t dirtyRx Q m := by
  refine keeps_op trivial fun g _ G hI _ hG weak r g' hact _ => ?_
  cases hact
  refine ⟨m', ?_, hQ⟩
  exact hI.move hG (by rw [hw]) (by simp) hI.le le_rfl (fun _ _ => rfl) (fun _ => rfl) fun e h => absurd h (hm' e)

theorem keeps_subRx {Q : Unit → RxMark → Prop} (hQ : Q () .free) : KeepsDrained t subRx Q .dirtied := by
  refine keeps_op trivial fun g _ G hI _ hG weak r g' hact _ => ?_
  cases hact
  have hdirty := hI.dirty t hG
  refine ⟨.free, ?_, hQ⟩
  refine hI.move hG ?_ (fun h _ => ?_) hI.le le_rfl (fun h _ => h) (by simp) (by simp)
  · have := hI.pos hG rfl
    simp only [RxMark.weight]
    omega
  · simp [hdirty] at h

/-- Clearing the dirty mark of a word that counts no classifier. -/
theorem keeps_clear {e : RxState} {Q : Option RxState → RxMark → Prop} (hcount : e.count = 0) (hdirty : e.dirty = true)
    (hw : m.weight = 0) (hQ : ∀ r, Q r m) : KeepsDrained t (exchangeRxWeak e { e with dirty := false }) Q m := by
  refine keeps_op trivial fun g _ G hI _ hG weak r g' hact hok => ?_
  refine ⟨m, ?_, hQ r⟩
  obtain ⟨rfl, rfl, rfl⟩ | ⟨rfl, rfl⟩ := act_exchangeRxWeak weak hact
  · refine hI.move hG rfl (fun _ _ => hok hdirty rfl) hI.le le_rfl (fun _ hother => ?_) ?_ ?_
    · obtain ⟨u, _, hu⟩ := hother
      exact absurd hcount (hI.pos hu rfl).ne'
    · rintro rfl
      cases hw
    · rintro epoch rfl
      exact hI.observed t epoch hG
  · rw [← hG, Function.update_eq_self]
    exact hI

theorem keeps_exchangeDrained {e epoch : ℕ} {Q : Option ℕ → RxMark → Prop} (hlt : e < epoch)
    (hQ : ∀ r, Q r (.draining epoch)) : KeepsDrained t (exchangeDrainedWeak e epoch) Q (.draining epoch) := by
  refine keeps_op trivial fun g _ G hI _ hG weak r g' hact _ => ?_
  refine ⟨.draining epoch, ?_, hQ r⟩
  have hepoch := hI.observed t epoch hG
  obtain ⟨rfl, rfl, rfl⟩ | ⟨rfl, rfl⟩ := act_exchangeDrainedWeak weak hact
  · refine hI.move hG rfl (fun h1 h2 => ?_) hepoch le_rfl (fun h _ => h) (by simp) ?_
    · have := hI.clean h1 h2
      omega
    · rintro e h
      cases h
      exact hepoch
  · rw [← hG, Function.update_eq_self]
    exact hI

end Operations

section Procedures

variable {t : ι} {m : RxMark}

theorem keeps_tryClear {Q : Unit → RxMark → Prop} (hw : m.weight = 0) (hQ : Q () m) (fuel : ℕ) :
    KeepsDrained t (gateTryClearRxDirty fuel) Q m := by
  induction fuel with
  | zero => exact keeps_halt
  | succ fuel ih =>
    rw [gateTryClearRxDirty, KeepsDrained, keeps_bind]
    refine keeps_loads (isLoad_op rfl) fun state => ?_
    split
    case isTrue => exact hQ
    case isFalse hstate =>
      simp only [not_or, Bool.not_eq_true, Bool.not_eq_true', Bool.not_eq_false, ne_eq, not_not] at hstate
      rw [keeps_bind]
      refine keeps_loads loads_hasPending fun pending => ?_
      split
      · exact hQ
      · rw [keeps_bind]
        refine keeps_clear hstate.2.2.2 hstate.2.2.1 hw fun r => ?_
        cases r with
        | none => exact hQ
        | some _ => exact ih

theorem keeps_cancelOpening {Q : Unit → RxMark → Prop} (hw : m.weight = 0) (hQ : Q () m) (fuel : ℕ) :
    KeepsDrained t (gateCancelRxOpening fuel) Q m := by
  have hfrom : ∀ fuel state, KeepsDrained t (gateCancelRxOpeningFrom fuel state) Q m := by
    intro fuel
    induction fuel with
    | zero => exact fun _ => keeps_halt
    | succ fuel ih =>
      intro state
      rw [gateCancelRxOpeningFrom]
      split
      · exact hQ
      · rw [KeepsDrained, keeps_bind]
        refine keeps_exchangeRxWeak rfl rfl fun r => ?_
        cases r with
        | none => exact keeps_tryClear hw hQ fuel
        | some found => exact ih found
  rw [gateCancelRxOpening, KeepsDrained, keeps_bind]
  exact keeps_loads (isLoad_op rfl) fun state => hfrom fuel state

theorem keeps_closeAdmission {Q : Unit → RxMark → Prop} (hw : m.weight = 0) (hQ : Q () m) (fuel : ℕ) :
    KeepsDrained t (gateCloseRxAdmission fuel) Q m := by
  have hfrom : ∀ fuel state, KeepsDrained t (gateCloseRxAdmissionFrom fuel state) Q m := by
    intro fuel
    induction fuel with
    | zero => exact fun _ => keeps_halt
    | succ fuel ih =>
      intro state
      rw [gateCloseRxAdmissionFrom]
      split
      · exact hQ
      · rw [KeepsDrained, keeps_bind]
        refine keeps_exchangeRxWeak rfl rfl fun r => ?_
        cases r with
        | none => exact keeps_tryClear hw hQ fuel
        | some found => exact ih found
  rw [gateCloseRxAdmission, KeepsDrained, keeps_bind]
  exact keeps_loads (isLoad_op rfl) fun state => hfrom fuel state

/-- The boundary counts its classifier already dirty. -/
theorem keeps_registerBoundary {Q : Bool → RxMark → Prop} (hcounted : Q true .dirtied) (hsaturated : Q false .free)
    (fuel : ℕ) (state : RxState) : KeepsDrained t (gateRegisterBoundary fuel state) Q .free := by
  induction fuel generalizing state with
  | zero => exact keeps_halt
  | succ fuel ih =>
    rw [gateRegisterBoundary, KeepsDrained, keeps_bind]
    by_cases hfull : state.count = RxState.countMask
    · refine keeps_register .free ?_ (fun _ => rfl) (by simp [boundaryState]) (by simp) (by simp) ?_ fun found => ih found
      · simp [RxMark.weight, boundaryState, hfull]
      · simpa [hfull] using hsaturated
    · refine keeps_register .dirtied ?_ (fun _ => rfl) (by simp [boundaryState]) (by simp [boundaryState]) (by simp) ?_
        fun found => ih found
      · simp only [RxMark.weight, boundaryState, if_neg hfull]
        omega
      · simpa [hfull] using hcounted

theorem keeps_boundary {Q : Unit → RxMark → Prop} (hQ : Q () .free) (fuel : ℕ) :
    KeepsDrained t (gateMarkRxBoundaryStale fuel) Q .free := by
  rw [gateMarkRxBoundaryStale, KeepsDrained, keeps_bind]
  refine keeps_loads (isLoad_op rfl) fun state => ?_
  rw [keeps_bind]
  refine keeps_registerBoundary ?_ ?_ fuel state
  · rw [keeps_bind]
    refine keeps_addDiscard (by simp) ?_
    simp only [if_true]
    rw [keeps_bind]
    exact keeps_subRx (keeps_tryClear rfl hQ fuel)
  · rw [keeps_bind]
    refine keeps_addDiscard (by simp) ?_
    exact keeps_tryClear rfl hQ fuel

theorem keeps_noteRx {Q : Unit → RxMark → Prop} (hQ : Q () .free) (fuel : ℕ) :
    KeepsDrained t (usbCdcSessionGateNoteRx fuel) Q .free := by
  have hregister : ∀ {R : Option Bool → RxMark → Prop}, R none .free → R (some false) .free → R (some true) .counted →
      ∀ fuel state, KeepsDrained t (noteRxRegister fuel state) R .free := by
    intro R hopen hfull hcounted fuel
    induction fuel with
    | zero => exact fun _ => keeps_halt
    | succ fuel ih =>
      intro state
      rw [noteRxRegister]
      split
      · exact hopen
      · split
        · exact hfull
        · rw [KeepsDrained, keeps_bind]
          exact keeps_register .counted (Nat.add_comm ..) id (by simp) (by simp) (by simp) hcounted fun found => ih found
  rw [usbCdcSessionGateNoteRx, KeepsDrained, keeps_bind]
  refine keeps_loads (isLoad_op rfl) fun state => ?_
  rw [keeps_bind]
  refine hregister hQ ?_ ?_ fuel state
  · rw [keeps_bind]
    refine keeps_addDiscard (by simp) ?_
    rw [keeps_bind]
    refine keeps_dirtyRx .free rfl (by simp) ?_
    exact hQ
  · rw [keeps_bind]
    refine keeps_addDiscard (by simp) ?_
    rw [keeps_bind]
    exact keeps_dirtyRx .dirtied rfl (by simp) (keeps_subRx hQ)

theorem keeps_markRxDrained {Q : Unit → RxMark → Prop} {epoch : ℕ} (hQ : Q () (.draining epoch)) (fuel : ℕ) :
    KeepsDrained t (usbCdcSessionGateMarkRxDrained epoch fuel) Q (.draining epoch) := by
  have hfrom : ∀ {R : Unit → RxMark → Prop}, R () (.draining epoch) → ∀ fuel current,
      KeepsDrained t (markRxDrainedFrom epoch fuel current) R (.draining epoch) := by
    intro R hR fuel
    induction fuel with
    | zero => exact fun _ => keeps_halt
    | succ fuel ih =>
      intro current
      rw [markRxDrainedFrom]
      split
      · exact hR
      · rename_i hlt
        rw [KeepsDrained, keeps_bind]
        refine keeps_exchangeDrained (by simpa [Counter.lt] using hlt) fun r => ?_
        cases r with
        | none => exact hR
        | some found => exact ih found
  rw [usbCdcSessionGateMarkRxDrained, KeepsDrained, keeps_bind]
  refine keeps_loads (isLoad_op rfl) fun current => ?_
  rw [keeps_bind]
  exact hfrom (keeps_tryClear rfl hQ fuel) fuel current

theorem keeps_openFailed {Q : Bool → RxMark → Prop} (hw : m.weight = 0) (hQ : ∀ b, Q b m) (fuel : ℕ) :
    KeepsDrained t (openFailed fuel) Q m := by
  rw [openFailed, KeepsDrained, keeps_bind]
  exact keeps_cancelOpening hw (hQ false) fuel

theorem keeps_openPublish {Q : Bool → RxMark → Prop} (hQ : ∀ b, Q b .free) (fuel : ℕ) :
    KeepsDrained t (openPublish fuel) Q .free := by
  rw [openPublish, KeepsDrained, keeps_bind]
  refine keeps_loads (isLoad_op rfl) fun phase => ?_
  split
  · exact keeps_openFailed rfl hQ fuel
  · rw [keeps_bind]
    refine keeps_exchangeRx rfl rfl fun r => ?_
    cases r with
    | some _ => exact keeps_openFailed rfl hQ fuel
    | none =>
      rw [keeps_bind]
      refine keeps_loads (isLoad_op rfl) fun phase => ?_
      split
      · rw [keeps_bind]
        exact keeps_boundary (hQ false) fuel
      · exact hQ true

theorem keeps_openReserve {Q : Bool → RxMark → Prop} (hQ : ∀ b, Q b .free) (fuel : ℕ) :
    KeepsDrained t (openReserve fuel) Q .free := by
  rw [openReserve, KeepsDrained, keeps_bind]
  refine keeps_exchangeRx rfl rfl fun r => ?_
  cases r with
  | some _ => exact hQ false
  | none =>
    rw [keeps_bind]
    refine keeps_loads (isLoad_op rfl) fun phase => ?_
    cases phase with
    | closed =>
      rw [keeps_bind]
      refine keeps_exchangePhase fun r => ?_
      cases r with
      | none => exact keeps_openPublish hQ fuel
      | some found =>
        dsimp only
        split
        · exact keeps_openFailed rfl hQ fuel
        · exact keeps_openPublish hQ fuel
    | opened => exact keeps_openPublish hQ fuel
    | resetting => exact keeps_openFailed rfl hQ fuel

theorem keeps_open {Q : Bool → RxMark → Prop} (hQ : ∀ b, Q b .free) (fuel : ℕ) :
    KeepsDrained t (usbCdcSessionGateOpen fuel) Q .free := by
  rw [usbCdcSessionGateOpen, KeepsDrained, keeps_bind]
  refine keeps_loads (isLoad_op rfl) fun phase => ?_
  split
  · exact hQ false
  · split
    · rw [keeps_bind]
      refine keeps_loads loads_rxAdmissionIsOpen fun admitted => ?_
      split
      · rw [keeps_bind]
        exact keeps_loads loads_hasPending fun pending => hQ _
      · exact keeps_openReserve hQ fuel
    · exact keeps_openReserve hQ fuel

/-- Operations on the phase, the generation and the active commands. -/
theorem keeps_elsewhere {o : GateOp ℕ} {Q : o.Ans → RxMark → Prop}
    (ho : ∀ weak g g' r, Gate.act o weak g = some (r, g') →
      g'.rxState = g.rxState ∧ g'.rxDiscardEpoch = g.rxDiscardEpoch ∧ g'.rxDrainedEpoch = g.rxDrainedEpoch)
    (hQ : ∀ r, Q r m) : KeepsDrained t (.op o) Q m := by
  refine keeps_same (fun weak g g' r hact => ?_) hQ
  obtain ⟨hrx, hepochs⟩ := ho weak g g' r hact
  exact ⟨congrArg _ hrx, congrArg _ hrx, hepochs⟩

theorem keeps_close {Q : Unit → RxMark → Prop} (hQ : Q () .free) (fuel : ℕ) :
    KeepsDrained t (usbCdcSessionGateClose fuel) Q .free := by
  rw [usbCdcSessionGateClose, KeepsDrained, keeps_bind]
  refine keeps_exchangePhase fun r => ?_
  cases r with
  | some _ => exact hQ
  | none =>
    rw [keeps_bind]
    refine keeps_elsewhere (fun weak g g' r hact => ?_) fun r => keeps_boundary hQ fuel
    cases hact
    exact ⟨rfl, rfl, rfl⟩

theorem keeps_commandBegin {Q : Bool → RxMark → Prop} (hQ : ∀ b, Q b m) (generation : ℕ) :
    KeepsDrained t (usbCdcSessionGateCommandBegin generation) Q m := by
  rw [usbCdcSessionGateCommandBegin, KeepsDrained, keeps_bind]
  refine keeps_loads (loads_generationOpen _) fun admitted => ?_
  split
  · exact hQ false
  · rw [keeps_bind]
    refine keeps_elsewhere (fun weak g g' r hact => by cases hact; exact ⟨rfl, rfl, rfl⟩) fun _ => ?_
    rw [keeps_bind]
    refine keeps_loads (loads_generationOpen _) fun admitted => ?_
    split
    · rw [keeps_bind]
      exact keeps_elsewhere (fun weak g g' r hact => by cases hact; exact ⟨rfl, rfl, rfl⟩) fun _ => hQ false
    · exact hQ true

theorem keeps_reset {Q : Unit → RxMark → Prop} (hQ : Q () .free) (fuel : ℕ) :
    KeepsDrained t (usbCdcSessionGateReset fuel) Q .free := by
  rw [usbCdcSessionGateReset, KeepsDrained, keeps_bind]
  refine keeps_elsewhere (fun weak g g' r hact => by cases hact; exact ⟨rfl, rfl, rfl⟩) fun _ => ?_
  rw [keeps_bind]
  refine keeps_closeAdmission rfl ?_ fuel
  rw [keeps_bind]
  refine keeps_elsewhere (fun weak g g' r hact => by cases hact; exact ⟨rfl, rfl, rfl⟩) fun _ => ?_
  rw [keeps_bind]
  refine keeps_loads (loads_waitIdle fuel) fun _ => ?_
  exact keeps_elsewhere (fun weak g g' r hact => by cases hact; exact ⟨rfl, rfl, rfl⟩) fun _ => hQ

end Procedures

section Runs

variable {t : ι}

/-- A thread at rest has nothing in hand. -/
theorem returns_drained {l : Commands ℕ} {c : GateCall ℕ} {v : c.Ret} {m : RxMark} (hw : m.weight = 0) :
    Returns (gateCode ι epochSeen) (fun _ h => h) (fun g (_ : Unit) G => Drained g G) (fun _ => .free) t l c v m := by
  intro g _ G hI hG
  exact hI.move hG (by rw [hw]; rfl) hI.clean hI.le le_rfl (fun h _ => h) (by simp) (by simp)

theorem keepsCalls_drained : KeepsCalls (gateCode ι epochSeen) (fun _ h => h) (fun g (_ : Unit) G => Drained g G)
    ClearsDrained (fun _ => True) fun _ => RxMark.free := by
  intro t c l g _ G hI _ hG hmay
  replace hG : G t = .free := hG
  have hrest : Drained g (Function.update G t .free) := by
    rw [← hG, Function.update_eq_self]
    exact hI
  cases c with
  | generation | rxDiscardEpoch => exact ⟨.free, hrest, fun _ => keeps_loads (isLoad_op rfl) fun _ => returns_drained rfl⟩
  | isOpen => exact ⟨.free, hrest, fun _ => keeps_loads loads_isOpen fun _ => returns_drained rfl⟩
  | opens => exact ⟨.free, hrest, fun fuel => keeps_open (fun _ => returns_drained rfl) fuel⟩
  | close => exact ⟨.free, hrest, fun fuel => keeps_close (returns_drained rfl) fuel⟩
  | snapshot => exact ⟨.free, hrest, fun _ => keeps_loads loads_snapshot fun _ => returns_drained rfl⟩
  | snapshotIsCurrent snapshot =>
    exact ⟨.free, hrest, fun _ => keeps_loads (loads_snapshotIsCurrent snapshot) fun _ => returns_drained rfl⟩
  | noteRx => exact ⟨.free, hrest, fun fuel => keeps_noteRx (returns_drained rfl) fuel⟩
  | shouldDiscardRx => exact ⟨.free, hrest, fun _ => keeps_loads loads_hasPending fun _ => returns_drained rfl⟩
  | markRxDrained epoch =>
    have hepoch : epoch ≤ g.rxDiscardEpoch := by simpa [gateCode, mayCall, epochSeen] using hmay
    refine ⟨.draining epoch, ?_, fun fuel => keeps_markRxDrained (returns_drained rfl) fuel⟩
    refine hI.move hG rfl hI.clean hI.le le_rfl (fun h _ => h) (by simp) ?_
    rintro e h
    cases h
    exact hepoch
  | commandBegin generation =>
    exact ⟨.free, hrest, fun _ => keeps_commandBegin (fun _ => returns_drained rfl) generation⟩
  | commandEnd generation =>
    refine ⟨.free, hrest, fun _ => ?_⟩
    exact keeps_elsewhere (fun weak g g' r hact => by cases hact; exact ⟨rfl, rfl, rfl⟩) fun _ => returns_drained rfl
  | reset => exact ⟨.free, hrest, fun fuel => keeps_reset (returns_drained rfl) fuel⟩

/-- The next step of thread `t` publishes the session. -/
def publishes {κ : Type} (P : Pool ι (GateOp κ) GateOp.Ans (Gate κ) (GateCall κ) GateCall.Ret (Commands κ) Unit) (t : ι) :
    Bool :=
  match P.thread t with
  | .busy _ _ (.call (.exchangeRx e d) _) => e = .isOpening && d = .isOpen && P.mem.rxState = e
  | _ => false

/-- In a run that never clears the mark while an epoch is pending, nor adds an epoch to a clean word, every publication
finds the discarded epochs drained. -/
theorem publication_drained {P : Pool ι (GateOp ℕ) GateOp.Ans (Gate ℕ) (GateCall ℕ) GateCall.Ret (Commands ℕ) Unit}
    (h : Reach (gateCode ι epochSeen) (fun _ h => h) ClearsDrained (gatePool ι ()) P) (hp : publishes P t = true) :
    P.mem.rxDiscardEpoch = P.mem.rxDrainedEpoch := by
  have hinit : Drained (ι := ι) Gate.init fun _ => .free := by
    refine ⟨?_, fun _ _ => rfl, le_rfl, by simp, by simp⟩
    simp [RxMark.weight, Gate.init, RxState.zero]
  obtain ⟨G, hI, _, _⟩ := good_reach (fun _ => trivial) keepsCalls_drained (good_idle (fun _ => trivial) hinit) h
  have hrx : P.mem.rxState = .isOpening := by
    unfold publishes at hp
    split at hp
    · simp only [Bool.and_eq_true, decide_eq_true_eq] at hp
      exact hp.2.trans hp.1.1
    · cases hp
  exact hI.clean (by rw [hrx]; rfl) (by rw [hrx]; rfl)

section Stale

/-- A callback comes and goes between the look at the epochs and the exchange that clears the mark. -/
def staleEvents : List (Event Bool Bool (GateCall ℕ)) :=
  let note := .call false .noteRx 9 :: List.replicate 5 (.act false false)
  note ++ .call true (.markRxDrained 1) 9 :: List.replicate 5 (.act true false) ++ note ++
    .act true false :: .call true .opens 9 :: List.replicate 5 (.act true false)

theorem publication_stale : (run (gateCode Bool epochSeen) (fun _ h => h) (fun _ _ _ _ _ => True) staleEvents
    (gatePool Bool ())).any (fun P => publishes P true && decide (P.mem.rxDiscardEpoch ≠ P.mem.rxDrainedEpoch)) = true := by
  decide +kernel

/-- The same callback is drained before the open. -/
def freshEvents : List (Event Bool Bool (GateCall ℕ)) :=
  .call false .noteRx 9 :: List.replicate 5 (.act false false) ++
    .call true (.markRxDrained 1) 9 :: List.replicate 6 (.act true false) ++
    .call true .opens 9 :: List.replicate 5 (.act true false)

theorem freshEvents_run : (run (gateCode Bool epochSeen) (fun _ h => h) ClearsDrained freshEvents
    (gatePool Bool ())).isSome = true := by
  decide +kernel

theorem publication_drained_fresh : ((run (gateCode Bool epochSeen) (fun _ h => h) ClearsDrained freshEvents
      (gatePool Bool ())).get freshEvents_run).mem.rxDiscardEpoch =
    ((run (gateCode Bool epochSeen) (fun _ h => h) ClearsDrained freshEvents
      (gatePool Bool ())).get freshEvents_run).mem.rxDrainedEpoch :=
  publication_drained (t := true) (reach_run freshEvents .start (Option.some_get _).symm) (by decide +kernel)

end Stale

end Runs

end M5DayLog
