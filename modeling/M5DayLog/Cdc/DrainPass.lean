import M5DayLog.Cdc.Gate

/-! One pass of the worker over an empty FIFO, with no other thread in a call. Whether an epoch is pending is decided by
inequality, but the drained epoch only advances to a greater one: once the discard epoch has wrapped below it, no pass
drains the gate, and no session opens. -/

namespace M5DayLog

open Threads Counter

/-- The worker reads the discard epoch, finds the FIFO empty, and marks that epoch as drained. -/
def drainPass {κ : Type} [DecidableEq κ] [Counter κ] (fuel : ℕ) : GateProg κ Unit := do
  let epoch ← usbCdcSessionGateRxDiscardEpoch
  usbCdcSessionGateMarkRxDrained epoch fuel

section Alone

variable {κ : Type} [DecidableEq κ] [Counter κ]

namespace Gate

/-- No epoch is pending. -/
def settled (g : Gate κ) : Bool := g.rxDiscardEpoch = g.rxDrainedEpoch

def cleared (g : Gate κ) : Gate κ :=
  if !g.rxState.opened && !g.rxState.opening && g.rxState.count = 0 && g.settled then
    { g with rxState := { g.rxState with dirty := false } }
  else g

def advanced (g : Gate κ) (observed : κ) : Gate κ :=
  if lt g.rxDrainedEpoch observed then { g with rxDrainedEpoch := observed } else g

@[simp] theorem cleared_phase (g : Gate κ) : g.cleared.phase = g.phase := by
  unfold cleared
  split <;> rfl

@[simp] theorem cleared_settled (g : Gate κ) : g.cleared.settled = g.settled := by
  unfold cleared
  split <;> rfl

theorem cleared_opened (g : Gate κ) (h : g.rxState.opened = true) : g.cleared = g := by
  simp [cleared, h]

/-- Nothing is left of a word that only is dirty. -/
theorem cleared_zero (g : Gate κ) (hopened : g.rxState.opened = false) (hopening : g.rxState.opening = false)
    (hcount : g.rxState.count = 0) (hsettled : g.settled = true) : g.cleared.rxState = .zero := by
  rw [cleared, if_pos (by simp [hopened, hopening, hcount, hsettled])]
  show RxState.mk _ _ _ _ = _
  rw [hopened, hopening, hcount]
  rfl

@[simp] theorem advanced_phase (g : Gate κ) (observed : κ) : (g.advanced observed).phase = g.phase := by
  unfold advanced
  split <;> rfl

@[simp] theorem advanced_rxState (g : Gate κ) (observed : κ) : (g.advanced observed).rxState = g.rxState := by
  unfold advanced
  split <;> rfl

/-- The drained epoch catches up only where it is not the greater of the two. -/
theorem advanced_settled (g : Gate UInt32) :
    (g.advanced g.rxDiscardEpoch).settled = true ↔ g.rxDrainedEpoch ≤ g.rxDiscardEpoch := by
  unfold advanced
  by_cases h : g.rxDrainedEpoch < g.rxDiscardEpoch
  · have hlt : lt g.rxDrainedEpoch g.rxDiscardEpoch = true := decide_eq_true h
    rw [if_pos hlt]
    exact ⟨fun _ => UInt32.le_of_lt h, fun _ => decide_eq_true rfl⟩
  · have hlt : lt g.rxDrainedEpoch g.rxDiscardEpoch ≠ true := fun hlt => h (of_decide_eq_true hlt)
    rw [if_neg hlt, settled, decide_eq_true_eq]
    constructor
    · intro heq
      exact heq ▸ UInt32.le_refl _
    · intro hle
      exact UInt32.le_antisymm (UInt32.not_lt.mp h) hle

/-- What an open answers to its caller, alone. -/
def opens (g : Gate κ) : Bool :=
  if g.phase = .opened ∧ g.rxState = .isOpen then g.settled else g.rxState = .zero

end Gate

section Operations

variable {β : Type} (weak : List Bool) (g : Gate κ)

/-- The gate's operations, alone. -/
abbrev solo (p : GateProg κ β) (weak : List Bool) (g : Gate κ) : Option (β × List Bool × Gate κ) := alone Gate.act false p weak g

theorem solo_bind {α : Type} (p : GateProg κ α) (f : α → GateProg κ β) :
    solo (p >>= f) weak g = (solo p weak g).bind fun r => solo (f r.1) r.2.1 r.2.2 := alone_bind p f weak g

theorem solo_op {o : GateOp κ} (f : o.Ans → GateProg κ β) : solo (.call o f) weak g =
    (Gate.act o (weak.headD false) g).bind fun r => solo (f r.1) weak.tail r.2 := alone_call o f weak g

@[simp] theorem solo_ret (b : β) : solo (.ret b) weak g = some (b, weak, g) := rfl

@[simp] theorem solo_loadPhase (f : GatePhase → GateProg κ β) : solo (loadPhase >>= f) weak g = solo (f g.phase) weak.tail g := rfl

@[simp] theorem solo_loadRx (f : RxState → GateProg κ β) : solo (loadRx >>= f) weak g = solo (f g.rxState) weak.tail g := rfl

@[simp] theorem solo_loadDrained (f : κ → GateProg κ β) :
    solo (loadDrained >>= f) weak g = solo (f g.rxDrainedEpoch) weak.tail g := rfl

@[simp] theorem solo_rxDiscardEpoch (f : κ → GateProg κ β) :
    solo (usbCdcSessionGateRxDiscardEpoch >>= f) weak g = solo (f g.rxDiscardEpoch) weak.tail g := rfl

@[simp] theorem solo_rxAdmissionIsOpen (f : Bool → GateProg κ β) :
    solo (gateRxAdmissionIsOpen >>= f) weak g = solo (f (g.rxState = .isOpen)) weak.tail g := rfl

@[simp] theorem solo_hasPending (f : Bool → GateProg κ β) :
    solo (gateHasPendingRxDiscard >>= f) weak g = solo (f !g.settled) weak.tail.tail g := by
  show solo (f _) weak.tail.tail g = _
  simp [Gate.settled]

theorem solo_exchangePhase (e d : GatePhase) (f : Option GatePhase → GateProg κ β) :
    solo (exchangePhase e d >>= f) weak g =
      if g.phase = e then solo (f none) weak.tail { g with phase := d } else solo (f (some g.phase)) weak.tail g := by
  show solo (.call (.exchangePhase e d) f) weak g = _
  rw [solo_op, Gate.act]
  split <;> rfl

theorem solo_exchangeRx (e d : RxState) (f : Option RxState → GateProg κ β) :
    solo (exchangeRx e d >>= f) weak g =
      if g.rxState = e then solo (f none) weak.tail { g with rxState := d } else solo (f (some g.rxState)) weak.tail g := by
  show solo (.call (.exchangeRx e d) f) weak g = _
  rw [solo_op, Gate.act]
  split <;> rfl

/-- A weak exchange of what is there. -/
theorem solo_exchangeRxWeak (d : RxState) (f : Option RxState → GateProg κ β) :
    solo (exchangeRxWeak g.rxState d >>= f) weak g =
      if weak.headD false then solo (f (some g.rxState)) weak.tail g
      else solo (f none) weak.tail { g with rxState := d } := by
  show solo (.call (.exchangeRxWeak g.rxState d) f) weak g = _
  rw [solo_op, Gate.act]
  cases weak.headD false <;> simp

theorem solo_exchangeDrainedWeak (d : κ) (f : Option κ → GateProg κ β) :
    solo (exchangeDrainedWeak g.rxDrainedEpoch d >>= f) weak g =
      if weak.headD false then solo (f (some g.rxDrainedEpoch)) weak.tail g
      else solo (f none) weak.tail { g with rxDrainedEpoch := d } := by
  show solo (.call (.exchangeDrainedWeak g.rxDrainedEpoch d) f) weak g = _
  rw [solo_op, Gate.act]
  cases weak.headD false <;> simp

end Operations

/-- A weak exchange that fails uses up one of the machine's choices. -/
theorem tail_lt {weak : List Bool} (h : weak.headD false = true) : weak.tail.length < weak.length := by
  cases weak with
  | nil => cases h
  | cons b weak => exact Nat.lt_succ_self _

/-- The loop tries again only after an exchange that fails. -/
theorem solo_tryClear (fuel : ℕ) (weak : List Bool) (g : Gate κ) (hfuel : weak.length < fuel) :
    ∃ weak', solo (gateTryClearRxDirty fuel) weak g = some ((), weak', g.cleared) := by
  induction fuel generalizing weak with
  | zero => exact absurd hfuel (Nat.not_lt_zero _)
  | succ fuel ih =>
    rw [gateTryClearRxDirty, solo_loadRx]
    split
    case isTrue hstate =>
      refine ⟨weak.tail, ?_⟩
      rw [Gate.cleared]
      split
      case isTrue hclear =>
        simp only [Bool.and_eq_true, Bool.not_eq_true', decide_eq_true_eq] at hclear
        obtain ⟨⟨⟨hopened, hopening⟩, hcount⟩, _⟩ := hclear
        have hdirty : g.rxState.dirty = false := by simpa [hopened, hopening, hcount] using hstate
        simp [← hdirty]
      case isFalse => rfl
    case isFalse hstate =>
      simp only [not_or, Bool.not_eq_true, Bool.not_eq_true', Bool.not_eq_false, ne_eq, not_not] at hstate
      obtain ⟨hopened, hopening, hdirty, hcount⟩ := hstate
      rw [solo_hasPending]
      cases hsettled : g.settled with
      | false =>
        refine ⟨weak.tail.tail.tail, ?_⟩
        simp [Gate.cleared, hsettled]
      | true =>
        simp only [Bool.not_true, Bool.false_eq_true, if_false]
        rw [solo_exchangeRxWeak]
        split
        case isTrue hweak =>
          have htail := tail_lt hweak
          apply ih
          simp only [List.length_tail] at htail ⊢
          omega
        case isFalse =>
          rw [Gate.cleared, if_pos (by simp [hopened, hopening, hcount, hsettled])]
          exact ⟨_, rfl⟩

theorem solo_markRxDrainedFrom (observed : κ) (fuel : ℕ) (weak : List Bool) (g : Gate κ) (hfuel : weak.length < fuel) :
    ∃ weak', weak'.length ≤ weak.length ∧
      solo (markRxDrainedFrom observed fuel g.rxDrainedEpoch) weak g = some ((), weak', g.advanced observed) := by
  induction fuel generalizing weak with
  | zero => exact absurd hfuel (Nat.not_lt_zero _)
  | succ fuel ih =>
    rw [markRxDrainedFrom, Gate.advanced]
    cases hlt : lt g.rxDrainedEpoch observed with
    | false => exact ⟨weak, le_rfl, rfl⟩
    | true =>
      simp only [Bool.not_true, Bool.false_eq_true, if_false, if_true]
      rw [solo_exchangeDrainedWeak]
      split
      case isTrue hweak =>
        have htail := tail_lt hweak
        obtain ⟨weak', hle, hrun⟩ := ih weak.tail (by omega)
        rw [Gate.advanced, if_pos hlt] at hrun
        exact ⟨weak', by omega, hrun⟩
      case isFalse => exact ⟨weak.tail, by simp, rfl⟩

theorem solo_markRxDrained (observed : κ) (fuel : ℕ) (weak : List Bool) (g : Gate κ) (hfuel : weak.length < fuel) :
    ∃ weak', solo (usbCdcSessionGateMarkRxDrained observed fuel) weak g = some ((), weak', (g.advanced observed).cleared) := by
  rw [usbCdcSessionGateMarkRxDrained, solo_loadDrained]
  obtain ⟨rest, hle, hrun⟩ := solo_markRxDrainedFrom observed fuel weak.tail g (by simp; omega)
  obtain ⟨weak', hclear⟩ := solo_tryClear fuel rest (g.advanced observed) (by simp at hle; omega)
  refine ⟨weak', ?_⟩
  rw [solo_bind, hrun]
  exact hclear

/-- The whole pass. -/
theorem solo_drainPass (fuel : ℕ) (weak : List Bool) (g : Gate κ) (hfuel : weak.length < fuel) :
    ∃ weak', solo (drainPass fuel) weak g = some ((), weak', (g.advanced g.rxDiscardEpoch).cleared) := by
  rw [drainPass, solo_rxDiscardEpoch]
  exact solo_markRxDrained g.rxDiscardEpoch fuel weak.tail g (by simp; omega)

/-- A callback that comes and goes while no session is published. -/
theorem solo_noteRx (weak : List Bool) (g : Gate κ) (hweak : weak = []) (hrx : g.rxState = .zero) :
    solo (usbCdcSessionGateNoteRx 1) weak g =
      some ((), [], { g with rxState := ⟨false, true, false, 0⟩, rxDiscardEpoch := succ g.rxDiscardEpoch }) := by
  subst hweak
  obtain ⟨generation, active, phase, rx, discard, drained⟩ := g
  cases hrx
  rfl

theorem solo_openReserve (fuel : ℕ) (weak : List Bool) (g : Gate κ) (hphase : g.phase ≠ .resetting) :
    ∃ weak' g', solo (openReserve fuel) weak g = some (decide (g.rxState = .zero), weak', g') := by
  rw [openReserve, solo_exchangeRx]
  by_cases hzero : g.rxState = .zero
  · cases h : g.phase with
    | closed => simp [hzero, h, solo_exchangePhase, openPublish, solo_exchangeRx]
    | opened => simp [hzero, h, openPublish, solo_exchangeRx]
    | resetting => exact absurd h hphase
  · simp [hzero]

theorem solo_open (fuel : ℕ) (weak : List Bool) (g : Gate κ) (hphase : g.phase ≠ .resetting) :
    ∃ weak' g', solo (usbCdcSessionGateOpen fuel) weak g = some (g.opens, weak', g') := by
  rw [usbCdcSessionGateOpen, solo_loadPhase, if_neg hphase, Gate.opens]
  by_cases hopened : g.phase = .opened
  · rw [if_pos hopened, solo_rxAdmissionIsOpen]
    by_cases hrx : g.rxState = .isOpen
    · simp [hopened, hrx]
    · simp only [hrx, decide_false, Bool.false_eq_true, if_false, and_false]
      exact solo_openReserve fuel _ g hphase
  · simp only [hopened, if_false, false_and]
    exact solo_openReserve fuel _ g hphase

end Alone

section Reservation

variable {κ : Type} [DecidableEq κ] [Counter κ] {ι : Type} [DecidableEq ι] {Seen : Type}
variable {observed : Gate κ → κ → Bool} {note : Note ι (GateOp κ) GateOp.Ans (GateCall κ) GateCall.Ret → Seen → Seen}

/-- A reserved word is the reservation of a thread that is inside an open. -/
def Reserved (g : Gate κ) (_ : Seen) (G : ι → Bool) : Prop := g.rxState.opening = true → ∃ t, G t = true

/-- The operation reserves nothing. -/
def GateOp.isMild : GateOp κ → Bool
  | .exchangeRx e d | .exchangeRxWeak e d => e.opening || !d.opening
  | _ => true

theorem act_mild {o : GateOp κ} (ho : o.isMild = true) {weak : Bool} {g g' : Gate κ} {r : o.Ans}
    (hact : Gate.act o weak g = some (r, g')) (h : g'.rxState.opening = true) : g.rxState.opening = true := by
  cases o with
  | exchangeRx e d =>
    obtain ⟨_, rfl, rfl⟩ | ⟨_, _, rfl⟩ := act_exchangeRx weak hact
    · replace h : d.opening = true := h
      simpa [GateOp.isMild, h] using ho
    · exact h
  | exchangeRxWeak e d =>
    obtain ⟨_, rfl, rfl⟩ | ⟨_, rfl⟩ := act_exchangeRxWeak weak hact
    · replace h : d.opening = true := h
      simpa [GateOp.isMild, h] using ho
    · exact h
  | exchangePhase e d => obtain ⟨_, _, rfl⟩ | ⟨_, _, rfl⟩ := act_exchangePhase weak hact <;> exact h
  | exchangeDrainedWeak e d => obtain ⟨_, _, rfl⟩ | ⟨_, rfl⟩ := act_exchangeDrainedWeak weak hact <;> exact h
  | halt => cases hact
  | _ => cases hact; exact h

abbrev Mild {α : Type} (p : GateProg κ α) : Prop := Device.Only (fun o => o.isMild = true) p

theorem mild_op {o : GateOp κ} (ho : o.isMild = true) : Mild (.op o : GateProg κ o.Ans) := .call o _ ho fun r => .ret r

theorem drains_mild {α : Type} {p : GateProg κ α} (hp : Drains p) : Mild p :=
  hp.mono fun o ho => by cases o <;> simp_all [GateOp.isMild, GateOp.isDrain, GateOp.isReceive]

theorem receives_mild {α : Type} {p : GateProg κ α} (hp : Receives p) : Mild p := drains_mild (receives_drains hp)

theorem loads_mild {α : Type} {p : GateProg κ α} (hp : Loads p) : Mild p := receives_mild (loads_receives hp)

theorem mild_close (fuel : ℕ) : Mild (usbCdcSessionGateClose fuel : GateProg κ Unit) := by
  apply (mild_op rfl).bind
  intro r
  cases r with
  | some _ => exact .ret _
  | none => exact (mild_op rfl).bind fun _ => receives_mild (receives_boundary fuel)

theorem mild_commandBegin (generation : κ) : Mild (usbCdcSessionGateCommandBegin generation) := by
  apply (loads_mild (loads_generationOpen generation)).bind
  intro admitted
  split
  · exact .ret _
  · apply (mild_op rfl).bind fun _ => (loads_mild (loads_generationOpen generation)).bind _
    intro _ admitted
    split
    · exact (mild_op rfl).bind fun _ => .ret _
    · exact .ret _

theorem mild_reset (fuel : ℕ) : Mild (usbCdcSessionGateReset fuel : GateProg κ Unit) := by
  apply (mild_op rfl).bind
  intro _
  apply (receives_mild (receives_closeAdmission fuel)).bind
  intro _
  apply (mild_op rfl).bind
  intro _
  exact (loads_mild (loads_waitIdle fuel)).bind fun _ => mild_op rfl

abbrev KeepsReserved {α : Type} (observed : Gate κ → κ → Bool)
    (note : Note ι (GateOp κ) GateOp.Ans (GateCall κ) GateCall.Ret → Seen → Seen) (t : ι) (p : GateProg κ α)
    (Q : α → Bool → Prop) (m : Bool) : Prop :=
  Keeps (gateCode ι observed) note Reserved (fun _ _ _ _ _ => True) (fun _ => True) t p Q m

variable {t : ι} {m : Bool}

theorem reserved_mild {α : Type} {p : GateProg κ α} {Q : α → Bool → Prop} (hp : Mild p) (hQ : ∀ a, Q a m) :
    KeepsReserved observed note t p Q m := by
  apply keeps_of_only hp trivial _ hQ
  intro o ho g _ G hI _ _ weak r g' hact _ h
  exact hI (act_mild ho hact h)

/-- An operation after which the thread's mark says whether the word is still reserved. -/
theorem reserved_op {o : GateOp κ} {Q : o.Ans → Bool → Prop}
    (h : ∀ weak g g' r, Gate.act o weak g = some (r, g') → Q r g'.rxState.opening) :
    KeepsReserved observed note t (.op o) Q m := by
  apply keeps_op trivial
  intro g _ G hI _ _ weak r g' hact _
  refine ⟨g'.rxState.opening, fun hopening => ⟨t, ?_⟩, h weak g g' r hact⟩
  rw [Function.update_self, hopening]

/-- A thread that has seen the word without a reservation has none. -/
theorem reserved_cancelOpening {Q : Unit → Bool → Prop} (hQ : Q () false) (fuel : ℕ) :
    KeepsReserved observed note t (gateCancelRxOpening fuel) Q m := by
  have hfrom : ∀ fuel state, KeepsReserved observed note t (gateCancelRxOpeningFrom fuel state) Q state.opening := by
    intro fuel
    induction fuel with
    | zero => exact fun _ => ⟨trivial, fun g _ G _ _ _ weak r => nomatch r⟩
    | succ fuel ih =>
      intro state
      rw [gateCancelRxOpeningFrom]
      cases hstate : state.opening with
      | false => exact hQ
      | true =>
        simp only [Bool.not_true, Bool.false_eq_true, if_false]
        rw [KeepsReserved, keeps_bind]
        apply reserved_op
        intro weak g g' r hact
        obtain ⟨rfl, _, rfl⟩ | ⟨rfl, rfl⟩ := act_exchangeRxWeak weak hact
        · exact reserved_mild (receives_mild (receives_tryClear fuel)) fun _ => hQ
        · exact ih _
  rw [gateCancelRxOpening, KeepsReserved, keeps_bind]
  apply reserved_op
  intro weak g g' r hact
  cases hact
  exact hfrom fuel g.rxState

theorem reserved_openFailed {Q : Bool → Bool → Prop} (hQ : Q false false) (fuel : ℕ) :
    KeepsReserved observed note t (openFailed fuel) Q m := by
  rw [openFailed, KeepsReserved, keeps_bind]
  exact reserved_cancelOpening hQ fuel

theorem reserved_openPublish {Q : Bool → Bool → Prop} (hQ : ∀ b, Q b false) (fuel : ℕ) :
    KeepsReserved observed note t (openPublish fuel) Q true := by
  rw [openPublish, KeepsReserved, keeps_bind]
  apply reserved_mild (mild_op rfl)
  intro phase
  split
  · exact reserved_openFailed (hQ false) fuel
  · rw [keeps_bind]
    apply reserved_op
    intro weak g g' r hact
    obtain ⟨rfl, _, rfl⟩ | ⟨rfl, _, rfl⟩ := act_exchangeRx weak hact
    · show Keeps _ _ _ _ _ t _ Q false
      rw [keeps_bind]
      apply reserved_mild (mild_op rfl)
      intro phase
      split
      · rw [keeps_bind]
        exact reserved_mild (receives_mild (receives_boundary fuel)) fun _ => hQ false
      · exact hQ true
    · exact reserved_openFailed (hQ false) fuel

theorem reserved_openReserve {Q : Bool → Bool → Prop} (hQ : ∀ b, Q b false) (fuel : ℕ) :
    KeepsReserved observed note t (openReserve fuel) Q false := by
  rw [openReserve, KeepsReserved, keeps_bind]
  apply keeps_op trivial
  intro g seen G hI _ hG weak r g' hact _
  obtain ⟨rfl, _, rfl⟩ | ⟨rfl, _, rfl⟩ := act_exchangeRx weak hact
  · refine ⟨true, fun _ => ⟨t, Function.update_self ..⟩, ?_⟩
    rw [keeps_bind]
    apply reserved_mild (mild_op rfl)
    intro phase
    cases phase with
    | closed =>
      rw [keeps_bind]
      apply reserved_mild (mild_op rfl)
      intro r
      cases r with
      | none => exact reserved_openPublish hQ fuel
      | some found =>
        dsimp only
        split
        · exact reserved_openFailed (hQ false) fuel
        · exact reserved_openPublish hQ fuel
    | opened => exact reserved_openPublish hQ fuel
    | resetting => exact reserved_openFailed (hQ false) fuel
  · refine ⟨false, ?_, hQ false⟩
    rw [← hG, Function.update_eq_self]
    exact hI

theorem reserved_open {Q : Bool → Bool → Prop} (hQ : ∀ b, Q b false) (fuel : ℕ) :
    KeepsReserved observed note t (usbCdcSessionGateOpen fuel) Q false := by
  rw [usbCdcSessionGateOpen, KeepsReserved, keeps_bind]
  apply reserved_mild (mild_op rfl)
  intro phase
  split
  · exact hQ false
  · split
    · rw [keeps_bind]
      apply reserved_mild (loads_mild loads_rxAdmissionIsOpen)
      intro admitted
      split
      · rw [keeps_bind]
        exact reserved_mild (loads_mild loads_hasPending) fun _ => hQ _
      · exact reserved_openReserve hQ fuel
    · exact reserved_openReserve hQ fuel

theorem keepsCalls_reserved : KeepsCalls (gateCode ι observed) note Reserved (fun _ _ _ _ _ => True) (fun _ => True)
    fun _ => false := by
  intro t c held g seen G hI _ hG _
  replace hG : G t = false := hG
  have hrest : ∀ (g : Gate κ) (seen seen' : Seen) (G : ι → Bool), Reserved g seen G → G t = false →
      Reserved g seen' (Function.update G t false) := by
    intro g seen seen' G hI hG
    rw [← hG, Function.update_eq_self]
    exact hI
  have hQ : ∀ v, Returns (gateCode ι observed) note Reserved (fun _ => false) t held c v false :=
    fun v g seen G => hrest g seen _ G
  refine ⟨false, hrest g seen _ G hI hG, fun fuel => ?_⟩
  cases c with
  | generation | rxDiscardEpoch => exact reserved_mild (mild_op rfl) hQ
  | isOpen => exact reserved_mild (loads_mild loads_isOpen) hQ
  | opens => exact reserved_open hQ fuel
  | close => exact reserved_mild (mild_close fuel) hQ
  | snapshot => exact reserved_mild (loads_mild loads_snapshot) hQ
  | snapshotIsCurrent snapshot => exact reserved_mild (loads_mild (loads_snapshotIsCurrent snapshot)) hQ
  | noteRx => exact reserved_mild (receives_mild (receives_noteRx fuel)) hQ
  | shouldDiscardRx => exact reserved_mild (loads_mild loads_hasPending) hQ
  | markRxDrained epoch => exact reserved_mild (drains_mild (drains_markRxDrained epoch fuel)) hQ
  | commandBegin generation => exact reserved_mild (mild_commandBegin generation) hQ
  | commandEnd generation => exact reserved_mild (mild_op rfl) hQ
  | reset => exact reserved_mild (mild_reset fuel) hQ

/-- With no call in progress, the word is not reserved. -/
theorem quiet_opening {seen : Seen} {P : Pool ι (GateOp κ) GateOp.Ans (Gate κ) (GateCall κ) GateCall.Ret (Commands κ) Seen}
    (h : Reach (gateCode ι observed) note (fun _ _ _ _ _ => True) (gatePool ι seen) P)
    (hidle : ∀ t, ∃ held, P.thread t = .idle held) : P.mem.rxState.opening = false := by
  have hinit : Reserved (ι := ι) (κ := κ) Gate.init seen fun _ => false := fun h => absurd h (by simp [Gate.init, RxState.zero])
  obtain ⟨G, hI, _, hthreads⟩ := good_reach (fun _ => trivial) keepsCalls_reserved (good_idle (fun _ => trivial) hinit) h
  by_contra hopening
  obtain ⟨t, ht⟩ := hI (by simpa using hopening)
  obtain ⟨held, hheld⟩ := hidle t
  have hrest := hthreads t
  simp only [hheld, ht] at hrest
  cases hrest

end Reservation

section Progress

variable {ι : Type} [DecidableEq ι] {Seen : Type} {observed : Gate UInt32 → UInt32 → Bool}
variable {note : Note ι (GateOp UInt32) GateOp.Ans (GateCall UInt32) GateCall.Ret → Seen → Seen} {seen : Seen}

/-- From a gate with no call in progress and no classifier in the count, a pass over an empty FIFO leaves nothing pending
and not dirty, and the next open publishes a session, exactly when the discard epoch has not wrapped below the drained one
and the word carries no publication that is dirty or whose phase is gone. -/
theorem drainPass_progress
    {P : Pool ι (GateOp UInt32) GateOp.Ans (Gate UInt32) (GateCall UInt32) GateCall.Ret (Commands UInt32) Seen}
    (h : Reach (gateCode ι observed) note (fun _ _ _ _ _ => True) (gatePool ι seen) P)
    (hidle : ∀ t, ∃ held, P.thread t = .idle held) (hcount : P.mem.rxState.count = 0) (hphase : P.mem.phase ≠ .resetting)
    (weak : List Bool) (fuel : ℕ) (hfuel : weak.length < fuel) :
    (∃ weak' g, solo (drainPass fuel) weak P.mem = some ((), weak', g) ∧ g.rxDiscardEpoch = g.rxDrainedEpoch ∧
        g.rxState.dirty = false ∧
        ∀ weak fuel, ∃ weak' g', solo (usbCdcSessionGateOpen fuel) weak g = some (true, weak', g')) ↔
      P.mem.rxDrainedEpoch ≤ P.mem.rxDiscardEpoch ∧
        (P.mem.rxState.opened = true → P.mem.phase = .opened ∧ P.mem.rxState = .isOpen) := by
  have hopening := quiet_opening h hidle
  generalize P.mem = g at *
  obtain ⟨rest, hpass⟩ := solo_drainPass fuel weak g hfuel
  have hrx : (g.advanced g.rxDiscardEpoch).rxState = g.rxState := Gate.advanced_rxState ..
  have hphase' : (g.advanced g.rxDiscardEpoch).cleared.phase = g.phase := by simp
  constructor
  · rintro ⟨weak', g', hrun, hsettled, hdirty, hopen⟩
    rw [hpass] at hrun
    cases hrun
    have hle : g.rxDrainedEpoch ≤ g.rxDiscardEpoch := by
      apply (Gate.advanced_settled g).mp
      rw [← Gate.cleared_settled]
      exact decide_eq_true hsettled
    refine ⟨hle, fun hopened => ?_⟩
    rw [Gate.cleared_opened _ (by rwa [hrx])] at hopen hphase'
    obtain ⟨_, _, hopen⟩ := hopen [] 0
    obtain ⟨_, _, hanswer⟩ := solo_open 0 [] (g.advanced g.rxDiscardEpoch) (by rwa [hphase'])
    rw [hanswer, Gate.opens, hrx, hphase'] at hopen
    split at hopen
    case isTrue hpublished => exact hpublished
    case isFalse =>
      have hzero : g.rxState = .zero := by simpa using congrArg (fun r => r.map Prod.fst) hopen
      rw [hzero] at hopened
      cases hopened
  · rintro ⟨hle, hopened⟩
    have hsettled := (Gate.advanced_settled g).mpr hle
    have hsettled' : (g.advanced g.rxDiscardEpoch).cleared.settled = true := by rwa [Gate.cleared_settled]
    have hclean : (g.advanced g.rxDiscardEpoch).cleared.rxState.dirty = false ∧
        (g.advanced g.rxDiscardEpoch).cleared.opens = true := by
      cases hflag : g.rxState.opened with
      | true =>
        obtain ⟨hphase, hisOpen⟩ := hopened hflag
        rw [Gate.cleared_opened _ (by rwa [hrx]), Gate.opens, hrx, if_pos ⟨by simpa using hphase, hisOpen⟩, hisOpen]
        exact ⟨rfl, hsettled⟩
      | false =>
        have hzero := Gate.cleared_zero (g.advanced g.rxDiscardEpoch) (by rwa [hrx]) (by rwa [hrx]) (by rwa [hrx]) hsettled
        rw [Gate.opens, hzero]
        exact ⟨rfl, by simp [RxState.zero, RxState.isOpen]⟩
    refine ⟨rest, _, hpass, of_decide_eq_true hsettled', hclean.1, fun weak fuel => ?_⟩
    obtain ⟨weak', g', hanswer⟩ := solo_open fuel weak (g.advanced g.rxDiscardEpoch).cleared (by rwa [hphase'])
    rw [hclean.2] at hanswer
    exact ⟨weak', g', hanswer⟩

section Wrap

/-- The worker marks the epoch that is current. -/
def epochCurrent (g : Gate UInt32) (epoch : UInt32) : Bool := epoch = g.rxDiscardEpoch

/-- The gate after `n` callbacks, each drained before the next. -/
def drainedAt (n : ℕ) : Gate UInt32 := ⟨1, 0, .closed, .zero, UInt32.ofNat n, UInt32.ofNat n⟩

/-- One thread, at rest, at a gate. -/
abbrev restPool (g : Gate UInt32) :
    Pool Unit (GateOp UInt32) GateOp.Ans (Gate UInt32) (GateCall UInt32) GateCall.Ret (Commands UInt32) Unit :=
  ⟨g, fun _ => .idle [], ()⟩

abbrev Rests (g : Gate UInt32) : Prop :=
  Reach (gateCode Unit epochCurrent) (fun _ h => h) (fun _ _ _ _ _ => True) (gatePool Unit ()) (restPool g)

/-- A call of the only thread. -/
theorem rests_call {g g' : Gate UInt32} {c : GateCall UInt32} {fuel : ℕ} {v : c.Ret} {rest : List Bool} (h : Rests g)
    (hmay : mayCall epochCurrent c [] g = true) (hafter : afterCall c v [] = [])
    (hrun : solo (gateBody c fuel) [] g = some (v, rest, g')) : Rests g' := by
  obtain ⟨_, hreach⟩ := reach_alone (D := gateCode Unit epochCurrent) (t := ()) (c := c) (fun _ _ _ _ => trivial) h rfl hmay hrun
  have hidle : (gateCode Unit epochCurrent).after c v [] = [] := hafter
  rw [hidle] at hreach
  rwa [show Function.update (restPool g).thread () (.idle []) = fun _ => .idle [] from Function.update_eq_self ..] at hreach

theorem rests_noteRx {g : Gate UInt32} (h : Rests g) (hrx : g.rxState = .zero) :
    Rests { g with rxState := ⟨false, true, false, 0⟩, rxDiscardEpoch := g.rxDiscardEpoch + 1 } :=
  rests_call (c := .noteRx) h rfl rfl (solo_noteRx [] g rfl hrx)

theorem rests_drain {g : Gate UInt32} (h : Rests g) : Rests (g.advanced g.rxDiscardEpoch).cleared := by
  obtain ⟨_, hrun⟩ := solo_markRxDrained g.rxDiscardEpoch 1 [] g Nat.one_pos
  exact rests_call (c := .markRxDrained g.rxDiscardEpoch) h (decide_eq_true rfl) rfl hrun

theorem drainedAt_reached (n : ℕ) (hn : n < 2 ^ 32) : Rests (drainedAt n) := by
  induction n with
  | zero => exact .start
  | succ n ih =>
    have hnoted := rests_drain (rests_noteRx (ih (by omega)) rfl)
    have hsucc : UInt32.ofNat n + 1 = UInt32.ofNat (n + 1) := by rw [UInt32.ofNat_add]; rfl
    have hlt : UInt32.ofNat n < UInt32.ofNat (n + 1) := by
      rw [UInt32.lt_iff_toNat_lt, UInt32.toNat_ofNat', UInt32.toNat_ofNat']
      omega
    have hnext : lt (UInt32.ofNat n) (UInt32.ofNat (n + 1)) = true := decide_eq_true hlt
    simp only [drainedAt, hsucc, Gate.advanced, hnext, if_true, Gate.cleared, Gate.settled, Bool.not_false, Bool.and_self,
      decide_true] at hnoted
    exact hnoted

/-- The discard epoch has wrapped to zero while the drained one stands at the greatest: no pass leaves that gate. -/
theorem drainPass_wrapped :
    let wrapped : Gate UInt32 := ⟨1, 0, .closed, ⟨false, true, false, 0⟩, 0, 4294967295⟩
    Rests wrapped ∧ ∃ g, solo (drainPass 1) [] wrapped = some ((), [], g) ∧ g.rxDiscardEpoch ≠ g.rxDrainedEpoch ∧
      g.rxState.dirty = true ∧ (solo (usbCdcSessionGateOpen 1) [] g).map Prod.fst = some false := by
  have hmost : drainedAt (2 ^ 32 - 1) = ⟨1, 0, .closed, .zero, 4294967295, 4294967295⟩ := rfl
  have hreached := rests_noteRx (drainedAt_reached (2 ^ 32 - 1) (by decide)) rfl
  rw [hmost] at hreached
  exact ⟨hreached, _, rfl, by decide, rfl, rfl⟩

/-- After the first callback nothing has wrapped; one of the exchanges fails. -/
theorem drainPass_progress_first :
    let noted : Gate UInt32 := ⟨1, 0, .closed, ⟨false, true, false, 0⟩, 1, 0⟩
    ∃ weak g, solo (drainPass 4) [false, false, true] noted = some ((), weak, g) ∧
      g.rxDiscardEpoch = g.rxDrainedEpoch ∧ g.rxState.dirty = false ∧
      ∀ weak fuel, ∃ weak' g', solo (usbCdcSessionGateOpen fuel) weak g = some (true, weak', g') :=
  (drainPass_progress (rests_noteRx .start rfl) (fun _ => ⟨[], rfl⟩) rfl (by decide) [false, false, true] 4 (by decide)).mpr
    ⟨by decide, by decide⟩

end Wrap

end Progress

end M5DayLog
