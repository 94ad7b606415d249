import M5DayLog.Cdc.Gate

/-! A reset of the session gate is a barrier. Every command that has been counted was admitted under the generation that
was current after it was counted; a reset that has seen the count at zero leaves no command of an older generation, and
later ones read a generation that is at least its own. -/

namespace M5DayLog

open Threads

variable {ι : Type} [DecidableEq ι] [Fintype ι]

/-- The record of a run: the commands of each thread, what each thread's last increment has made the generation, and
below which generation a reset that has returned has outdated them all. -/
structure Commanded (ι : Type) where
  held : ι → List ℕ
  ending : ι → Option ℕ
  current : ι → ℕ
  outdated : ℕ
  /-- `outdated` at the call that the thread is in. -/
  called : ι → ℕ
  /-- A `commandBegin` or `snapshotIsCurrent` that was called with an outdated generation has returned true. -/
  revived : Bool

namespace Commanded

variable (h : Commanded ι)

def start : Commanded ι := ⟨fun _ => [], fun _ => none, fun _ => 0, 0, fun _ => 0, false⟩

/-- A thread's call under `generation` has returned true. -/
def admitted (t : ι) (generation : ℕ) : Commanded ι :=
  { h with revived := h.revived || decide (generation < h.called t) }

def note : Note ι (GateOp ℕ) GateOp.Ans (GateCall ℕ) GateCall.Ret → Commanded ι → Commanded ι
  | .called t (.commandEnd generation), h =>
    { h with called := Function.update h.called t h.outdated, ending := Function.update h.ending t (some generation) }
  | .called t _, h =>
    { h with called := Function.update h.called t h.outdated, ending := Function.update h.ending t none }
  | .acted t .addGeneration old, h => { h with current := Function.update h.current t (old + 1) }
  | .acted t .subActive _, h =>
    match h.ending t with
    | some generation => { h with held := Function.update h.held t ((h.held t).erase generation) }
    | none => h
  | .returned t (.commandEnd _) _, h => { h with ending := Function.update h.ending t none }
  | .returned t .reset _, h => { h with outdated := max h.outdated (h.current t) }
  | .returned t (.commandBegin generation) true, h =>
    { h.admitted t generation with held := Function.update h.held t (generation :: h.held t) }
  | .returned t (.snapshotIsCurrent snapshot) true, h => h.admitted t snapshot.generation
  | _, h => h

end Commanded

/-- Where a thread stands: counted, admitted after it was counted, the reader of a generation, or a reset that has raised
the generation and then seen no command. -/
inductive CommandStage
  | free
  | counted
  | checked (generation : ℕ)
  | looked (generation : ℕ)
  | raised (generation : ℕ)
  | emptied (generation : ℕ)

structure CommandMark where
  held : List ℕ
  ending : Option ℕ
  stage : CommandStage

def CommandMark.weight (m : CommandMark) : ℕ :=
  m.held.length + match m.stage with
    | .counted | .checked _ => 1
    | _ => 0

/-- What a mark says of its thread. No command is older than `floor`. -/
structure Own (generation : ℕ) (h : Commanded ι) (floor : ℕ) (t : ι) (m : CommandMark) : Prop where
  held : h.held t = m.held
  ending : h.ending t = m.ending
  called : h.called t ≤ h.outdated
  live : ∀ g ∈ m.held, floor ≤ g
  stage : match m.stage with
    | .free | .counted => True
    | .checked g => floor ≤ g
    | .looked g => h.called t ≤ g
    | .raised g => h.current t = g ∧ g ≤ generation
    | .emptied g => h.current t = g ∧ g ≤ floor

structure BarrierAt (s : Gate ℕ) (h : Commanded ι) (floor : ℕ) (G : ι → CommandMark) : Prop where
  active : s.activeCommands = ∑ t, (G t).weight
  outdated : h.outdated ≤ floor
  current : floor ≤ s.generation
  revived : h.revived = false
  own : ∀ t, Own s.generation h floor t (G t)

def Barrier (s : Gate ℕ) (h : Commanded ι) (G : ι → CommandMark) : Prop := ∃ floor, BarrierAt s h floor G

/-- No epoch is special for the commands. -/
def anyEpoch {κ : Type} (_ : Gate κ) (_ : κ) : Bool := true

abbrev KeepsBarrier {α : Type} (t : ι) (p : GateProg ℕ α) (Q : α → CommandMark → Prop) (m : CommandMark) : Prop :=
  Keeps (gateCode ι anyEpoch) Commanded.note Barrier (fun _ _ _ _ _ => True) (fun _ => True) t p Q m

variable {s s' : Gate ℕ} {h h' : Commanded ι} {floor : ℕ} {G : ι → CommandMark} {t : ι} {m m' : CommandMark}

omit [DecidableEq ι] [Fintype ι] in
/-- What the marks of other threads say is not disturbed. -/
theorem Own.mono {u : ι} {generation generation' : ℕ} (how : Own generation h floor u m) (hgen : generation ≤ generation')
    (hheld : h'.held u = h.held u) (hending : h'.ending u = h.ending u) (hcurrent : h'.current u = h.current u)
    (hcalled : h'.called u = h.called u) (houtdated : h.outdated ≤ h'.outdated) : Own generation' h' floor u m := by
  refine ⟨hheld.trans how.held, hending.trans how.ending, (hcalled.trans_le how.called).trans houtdated, how.live, ?_⟩
  have hstage := how.stage
  cases hm : m.stage <;> simp only [hm] at hstage ⊢
  case checked => exact hstage
  case looked => exact hcalled.trans_le hstage
  case raised => exact ⟨hcurrent.trans hstage.1, hstage.2.trans hgen⟩
  case emptied => exact ⟨hcurrent.trans hstage.1, hstage.2⟩

namespace BarrierAt

/-- One thread moves. -/
theorem move (hI : BarrierAt s h floor G) (hG : G t = m) (hactive : s'.activeCommands + m.weight = s.activeCommands + m'.weight)
    (hgen : s.generation ≤ s'.generation) (houtdated : h.outdated ≤ h'.outdated) (hfloor : h'.outdated ≤ floor)
    (hrevived : h'.revived = false)
    (hothers : ∀ u, u ≠ t → h'.held u = h.held u ∧ h'.ending u = h.ending u ∧ h'.current u = h.current u ∧
      h'.called u = h.called u)
    (how : Own s'.generation h' floor t m') : BarrierAt s' h' floor (Function.update G t m') := by
  refine ⟨?_, hfloor, hI.current.trans hgen, hrevived, fun u => ?_⟩
  · have hsum := sum_update CommandMark.weight G t m'
    have hold := hI.active
    rw [hG] at hsum
    omega
  · by_cases hu : u = t
    · subst hu
      rwa [Function.update_self]
    · rw [Function.update_of_ne hu]
      obtain ⟨h1, h2, h3, h4⟩ := hothers u hu
      exact (hI.own u).mono hgen h1 h2 h3 h4 houtdated

/-- Only the mark changes. -/
theorem remark (hI : BarrierAt s h floor G) (hG : G t = m) (hw : m.weight = m'.weight)
    (how : Own s.generation h floor t m') : BarrierAt s h floor (Function.update G t m') :=
  hI.move hG (by rw [hw]) le_rfl le_rfl hI.outdated hI.revived (fun _ _ => ⟨rfl, rfl, rfl, rfl⟩) how

end BarrierAt

section Apart

/-- The operation leaves the generation and the active commands alone. -/
def GateOp.isApart : GateOp ℕ → Bool
  | .addGeneration | .addActive | .subActive => false
  | _ => true

theorem act_apart {o : GateOp ℕ} (ho : GateOp.isApart o = true) {weak : Bool} {g g' : Gate ℕ} {r : o.Ans}
    (hact : Gate.act o weak g = some (r, g')) : g'.generation = g.generation ∧ g'.activeCommands = g.activeCommands := by
  cases o
  case exchangePhase => obtain ⟨_, _, rfl⟩ | ⟨_, _, rfl⟩ := act_exchangePhase weak hact <;> exact ⟨rfl, rfl⟩
  case exchangeRx => obtain ⟨_, _, rfl⟩ | ⟨_, _, rfl⟩ := act_exchangeRx weak hact <;> exact ⟨rfl, rfl⟩
  case exchangeRxWeak => obtain ⟨_, _, rfl⟩ | ⟨_, rfl⟩ := act_exchangeRxWeak weak hact <;> exact ⟨rfl, rfl⟩
  case exchangeDrainedWeak => obtain ⟨_, _, rfl⟩ | ⟨_, rfl⟩ := act_exchangeDrainedWeak weak hact <;> exact ⟨rfl, rfl⟩
  case halt => exact nomatch r
  case addGeneration => cases ho
  case addActive => cases ho
  case subActive => cases ho
  all_goals
    cases hact
    exact ⟨rfl, rfl⟩

abbrev Apart {α : Type} (p : GateProg ℕ α) : Prop := Device.Only (fun o => GateOp.isApart o = true) p

theorem apart_op {o : GateOp ℕ} (ho : GateOp.isApart o = true) : Apart (.op o) := .call o _ ho fun r => .ret r

theorem receives_apart {α : Type} {p : GateProg ℕ α} (hp : Receives p) : Apart p :=
  hp.mono fun o ho => by cases o <;> simp_all [GateOp.isReceive, GateOp.isLoad, GateOp.isApart]

theorem loads_apart {α : Type} {p : GateProg ℕ α} (hp : Loads p) : Apart p := receives_apart (loads_receives hp)

theorem opens_apart {α : Type} {p : GateProg ℕ α} (hp : Opens p) : Apart p :=
  hp.mono fun o ho => by cases o <;> simp_all [GateOp.isOpens, GateOp.isReceive, GateOp.isLoad, GateOp.isApart]

theorem drains_apart {α : Type} {p : GateProg ℕ α} (hp : Drains p) : Apart p :=
  hp.mono fun o ho => by cases o <;> simp_all [GateOp.isDrain, GateOp.isReceive, GateOp.isLoad, GateOp.isApart]

end Apart

section Operations

theorem barrier_apart {α : Type} {p : GateProg ℕ α} {Q : α → CommandMark → Prop} (hp : Apart p) (hQ : ∀ a, Q a m) :
    KeepsBarrier t p Q m := by
  refine keeps_of_only hp trivial (fun o ho g h G hI _ _ weak r g' hact _ => ?_) hQ
  have hnote : Commanded.note (.acted t o r) h = h := by
    cases o <;> simp_all [GateOp.isApart, Commanded.note]
  obtain ⟨hgen, hactive⟩ := act_apart ho hact
  obtain ⟨floor, hat⟩ := hI
  rw [hnote]
  exact ⟨floor, hactive ▸ hat.active, hat.outdated, hgen ▸ hat.current, hat.revived, fun u => hgen ▸ hat.own u⟩

theorem barrier_loads {α : Type} {p : GateProg ℕ α} {Q : α → CommandMark → Prop} (hp : Loads p) (hQ : ∀ a, Q a m) :
    KeepsBarrier t p Q m := barrier_apart (loads_apart hp) hQ

/-- Where the current generation is the one asked for, the mark may rise. -/
theorem barrier_loadGeneration {Q : ℕ → CommandMark → Prop} {generation : ℕ} (hw : m.weight = m'.weight)
    (hup : ∀ g (h : Commanded ι) floor, h.outdated ≤ floor → floor ≤ generation → Own g h floor t m →
      Own g h floor t m')
    (hne : ∀ current, current ≠ generation → Q current m) (heq : Q generation m') : KeepsBarrier t loadGeneration Q m := by
  refine keeps_op trivial fun g h G ⟨floor, hat⟩ _ hG weak r g' hact _ => ?_
  cases hact
  by_cases hr : g.generation = generation
  · refine ⟨m', ⟨floor, ?_⟩, hr ▸ heq⟩
    exact hat.remark hG hw (hup _ _ _ hat.outdated (hr ▸ hat.current) (hG ▸ hat.own t))
  · refine ⟨m, ⟨floor, ?_⟩, hne _ hr⟩
    show BarrierAt g h floor _
    rw [← hG, Function.update_eq_self]
    exact hat

theorem barrier_generationOpen (m' : CommandMark) {Q : Bool → CommandMark → Prop} {generation : ℕ} (hw : m.weight = m'.weight)
    (hup : ∀ g (h : Commanded ι) floor, h.outdated ≤ floor → floor ≤ generation → Own g h floor t m →
      Own g h floor t m')
    (hold : Q false m) (hnew : ∀ b, Q b m') : KeepsBarrier t (generationOpen generation) Q m := by
  rw [generationOpen, KeepsBarrier, keeps_bind]
  refine barrier_loads (isLoad_op rfl) fun phase => ?_
  split
  · exact hold
  · rw [keeps_bind]
    refine barrier_loadGeneration hw hup (fun current hc => ?_) ?_
    · rw [if_pos hc]
      exact hold
    · rw [if_neg (by simp)]
      exact barrier_loads loads_admissionOpen hnew

/-- A command is counted. -/
theorem barrier_addActive {Q : Unit → CommandMark → Prop} {held : List ℕ} {ending : Option ℕ}
    (hQ : Q () ⟨held, ending, .counted⟩) : KeepsBarrier t addActive Q ⟨held, ending, .free⟩ := by
  refine keeps_op trivial fun g h G ⟨floor, hat⟩ _ hG weak r g' hact _ => ?_
  cases hact
  have how := hG ▸ hat.own t
  refine ⟨_, ⟨floor, ?_⟩, hQ⟩
  refine hat.move hG ?_ le_rfl le_rfl hat.outdated hat.revived (fun _ _ => ⟨rfl, rfl, rfl, rfl⟩)
    ⟨how.held, how.ending, how.called, how.live, trivial⟩
  show g.activeCommands + 1 + held.length = g.activeCommands + (held.length + 1)
  omega

/-- A command that was not admitted is no longer counted. -/
theorem barrier_subActive {Q : Unit → CommandMark → Prop} {held : List ℕ} {stage : CommandStage}
    (hw : (CommandMark.mk held none stage).weight = held.length + 1) (hQ : Q () ⟨held, none, .free⟩) :
    KeepsBarrier t subActive Q ⟨held, none, stage⟩ := by
  refine keeps_op trivial fun g h G ⟨floor, hat⟩ _ hG weak r g' hact _ => ?_
  cases hact
  have how := hG ▸ hat.own t
  have hnote : Commanded.note (.acted t .subActive ()) h = h := by simp [Commanded.note, how.ending]
  have hsum := sum_update CommandMark.weight G t ⟨held, none, .free⟩
  have hactive := hat.active
  have hfree : (CommandMark.mk held none .free).weight = held.length := rfl
  rw [hG, hw] at hsum
  refine ⟨_, ⟨floor, ?_⟩, hQ⟩
  rw [hnote]
  refine hat.move hG ?_ le_rfl le_rfl hat.outdated hat.revived (fun _ _ => ⟨rfl, rfl, rfl, rfl⟩)
    ⟨how.held, how.ending, how.called, how.live, trivial⟩
  show g.activeCommands - 1 + _ = _
  omega

/-- A command of the thread ends. -/
theorem barrier_commandEnd {Q : Unit → CommandMark → Prop} {held : List ℕ} {generation : ℕ} (hmem : generation ∈ held)
    (hQ : Q () ⟨held.erase generation, some generation, .free⟩) :
    KeepsBarrier t subActive Q ⟨held, some generation, .free⟩ := by
  refine keeps_op trivial fun g h G ⟨floor, hat⟩ _ hG weak r g' hact _ => ?_
  cases hact
  have how := hG ▸ hat.own t
  have hnote : Commanded.note (.acted t .subActive ()) h =
      { h with held := Function.update h.held t (held.erase generation) } := by
    simp [Commanded.note, how.ending, how.held]
  have hsum := sum_update CommandMark.weight G t ⟨held.erase generation, some generation, .free⟩
  have hactive := hat.active
  have hlen := List.length_erase_add_one hmem
  have hfree : ∀ l e, (CommandMark.mk l e .free).weight = l.length := fun _ _ => rfl
  rw [hG, hfree, hfree] at hsum
  refine ⟨_, ⟨floor, ?_⟩, hQ⟩
  rw [hnote]
  refine hat.move hG ?_ le_rfl le_rfl hat.outdated hat.revived (fun u hu => ⟨?_, rfl, rfl, rfl⟩)
    ⟨?_, how.ending, how.called, fun c hc => how.live c (List.mem_of_mem_erase hc), trivial⟩
  · show g.activeCommands - 1 + _ = _
    rw [hfree, hfree]
    omega
  · exact Function.update_of_ne hu ..
  · exact Function.update_self ..

/-- The generation is raised; what the thread has made it is recorded. -/
theorem barrier_addGeneration {Q : ℕ → CommandMark → Prop} {held : List ℕ} {ending : Option ℕ}
    (hQ : ∀ old, Q old ⟨held, ending, .raised (old + 1)⟩) : KeepsBarrier t addGeneration Q ⟨held, ending, .free⟩ := by
  refine keeps_op trivial fun g h G ⟨floor, hat⟩ _ hG weak r g' hact _ => ?_
  cases hact
  have how := hG ▸ hat.own t
  refine ⟨_, ⟨floor, ?_⟩, hQ _⟩
  refine hat.move hG rfl (Nat.le_succ _) le_rfl hat.outdated hat.revived (fun u hu => ⟨rfl, rfl, ?_, rfl⟩)
    ⟨how.held, how.ending, how.called, how.live, ?_, le_rfl⟩
  · exact Function.update_of_ne hu ..
  · exact Function.update_self ..

/-- Where no command is counted, none is older than a generation that has been reached. -/
theorem BarrierAt.empty (hat : BarrierAt s h floor G) (hzero : s.activeCommands = 0) {held : List ℕ} {ending : Option ℕ}
    {generation : ℕ} (hG : G t = ⟨held, ending, .raised generation⟩) :
    BarrierAt s h (max floor generation) (Function.update G t ⟨held, ending, .emptied generation⟩) := by
  have how := hG ▸ hat.own t
  have hweights : ∀ u, (G u).weight = 0 := fun u =>
    Finset.sum_eq_zero_iff.mp (hat.active.symm.trans hzero) u (Finset.mem_univ u)
  have hempty : ∀ u, Own s.generation h (max floor generation) u (G u) := by
    intro u
    have hu := hat.own u
    have hw := hweights u
    have hnil : (G u).held = [] := List.eq_nil_of_length_eq_zero (by unfold CommandMark.weight at hw; omega)
    refine ⟨hu.held, hu.ending, hu.called, by simp [hnil], ?_⟩
    have hstage := hu.stage
    cases hm : (G u).stage <;> simp only [hm] at hstage ⊢
    case checked => simp [CommandMark.weight, hm] at hw
    case looked => exact hstage
    case raised => exact hstage
    case emptied => exact ⟨hstage.1, hstage.2.trans (le_max_left ..)⟩
  have hall : BarrierAt s h (max floor generation) G :=
    ⟨hat.active, hat.outdated.trans (le_max_left ..), max_le hat.current how.stage.2, hat.revived, hempty⟩
  have hlive := (hempty t).live
  rw [hG] at hlive
  exact hall.remark hG rfl ⟨how.held, how.ending, how.called, hlive, how.stage.1, le_max_right ..⟩

theorem barrier_loadActive {Q : ℕ → CommandMark → Prop} {held : List ℕ} {ending : Option ℕ} {generation : ℕ}
    (hzero : Q 0 ⟨held, ending, .emptied generation⟩) (hbusy : ∀ n, n ≠ 0 → Q n ⟨held, ending, .raised generation⟩) :
    KeepsBarrier t loadActive Q ⟨held, ending, .raised generation⟩ := by
  refine keeps_op trivial fun g h G ⟨floor, hat⟩ _ hG weak r g' hact _ => ?_
  cases hact
  by_cases hr : g.activeCommands = 0
  · exact ⟨_, ⟨_, hat.empty hr hG⟩, hr ▸ hzero⟩
  · refine ⟨_, ⟨floor, ?_⟩, hbusy _ hr⟩
    show BarrierAt g h floor _
    rw [← hG, Function.update_eq_self]
    exact hat

/-- A reset waits until no command is counted. -/
theorem barrier_waitIdle {Q : Unit → CommandMark → Prop} {held : List ℕ} {ending : Option ℕ} {generation : ℕ}
    (hQ : Q () ⟨held, ending, .emptied generation⟩) (fuel : ℕ) :
    KeepsBarrier t (gateWaitIdle fuel) Q ⟨held, ending, .raised generation⟩ := by
  induction fuel with
  | zero =>
    exact ⟨trivial, fun g h G _ _ _ weak r => nomatch r⟩
  | succ fuel ih =>
    rw [gateWaitIdle, KeepsBarrier, keeps_bind]
    refine barrier_loadActive ?_ fun n hn => ?_
    · exact hQ
    · rw [if_neg (show ¬n = Counter.zero from hn), keeps_bind]
      exact barrier_loads (isLoad_op rfl) fun _ => ih

end Operations

section Procedures

theorem barrier_commandBegin {Q : Bool → CommandMark → Prop} {held : List ℕ} {generation : ℕ}
    (hfalse : Q false ⟨held, none, .free⟩) (htrue : Q true ⟨held, none, .checked generation⟩) :
    KeepsBarrier t (usbCdcSessionGateCommandBegin generation) Q ⟨held, none, .free⟩ := by
  rw [usbCdcSessionGateCommandBegin, KeepsBarrier, keeps_bind]
  refine barrier_loads (loads_generationOpen _) fun admitted => ?_
  split
  · exact hfalse
  · rw [keeps_bind]
    refine barrier_addActive ?_
    rw [keeps_bind]
    refine barrier_generationOpen ⟨held, none, .checked generation⟩ rfl (fun g h floor _ hle how => ?_) ?_ fun b => ?_
    · exact ⟨how.held, how.ending, how.called, how.live, hle⟩
    · simp only [Bool.not_false, if_true]
      rw [keeps_bind]
      exact barrier_subActive rfl hfalse
    · cases b with
      | false =>
        simp only [Bool.not_false, if_true]
        rw [keeps_bind]
        exact barrier_subActive rfl hfalse
      | true => exact htrue

theorem barrier_close {Q : Unit → CommandMark → Prop} {held : List ℕ} (hQ : ∀ stage, (∀ g, stage ≠ .checked g) →
    stage ≠ .counted → Q () ⟨held, none, stage⟩) (fuel : ℕ) :
    KeepsBarrier t (usbCdcSessionGateClose fuel) Q ⟨held, none, .free⟩ := by
  rw [usbCdcSessionGateClose, KeepsBarrier, keeps_bind]
  refine barrier_apart (apart_op rfl) fun r => ?_
  cases r with
  | some _ => exact hQ _ (by simp) (by simp)
  | none =>
    rw [keeps_bind]
    refine barrier_addGeneration fun old => ?_
    exact barrier_apart (receives_apart (receives_boundary fuel)) fun _ => hQ _ (by simp) (by simp)

theorem barrier_reset {Q : Unit → CommandMark → Prop} {held : List ℕ}
    (hQ : ∀ generation, Q () ⟨held, none, .emptied generation⟩) (fuel : ℕ) :
    KeepsBarrier t (usbCdcSessionGateReset fuel) Q ⟨held, none, .free⟩ := by
  rw [usbCdcSessionGateReset, KeepsBarrier, keeps_bind]
  refine barrier_apart (apart_op rfl) fun _ => ?_
  rw [keeps_bind]
  refine barrier_apart (receives_apart (receives_closeAdmission fuel)) fun _ => ?_
  rw [keeps_bind]
  refine barrier_addGeneration fun old => ?_
  rw [keeps_bind]
  refine barrier_waitIdle ?_ fuel
  exact barrier_apart (apart_op rfl) fun _ => hQ _

end Procedures

section Runs

/-- The mark of a thread that has the commands `held` and is in no call. -/
def atRest (held : List ℕ) : CommandMark := ⟨held, none, .free⟩

abbrev ReturnsBarrier (t : ι) (held : List ℕ) (c : GateCall ℕ) (v : c.Ret) (m : CommandMark) : Prop :=
  Returns (gateCode ι anyEpoch) Commanded.note Barrier atRest t held c v m

/-- The command that a call ends. -/
def endingOf : GateCall ℕ → Option ℕ
  | .commandEnd generation => some generation
  | _ => none

theorem barrier_called {held : List ℕ} (hI : Barrier s h G) (hG : G t = atRest held) (c : GateCall ℕ) :
    Barrier s (Commanded.note (.called t c) h) (Function.update G t ⟨held, endingOf c, .free⟩) := by
  obtain ⟨floor, hat⟩ := hI
  have how := hG ▸ hat.own t
  have hnote : Commanded.note (.called t c) h = { h with
      called := Function.update h.called t h.outdated, ending := Function.update h.ending t (endingOf c) } := by
    cases c <;> rfl
  rw [hnote]
  refine ⟨floor, hat.move hG rfl le_rfl le_rfl hat.outdated hat.revived (fun u hu => ⟨rfl, ?_, rfl, ?_⟩)
    ⟨how.held, ?_, ?_, how.live, trivial⟩⟩
  · exact Function.update_of_ne hu ..
  · exact Function.update_of_ne hu ..
  · exact Function.update_self ..
  · exact (Function.update_self ..).le

/-- A call that records nothing at its return. -/
theorem returns_plain {held : List ℕ} {c : GateCall ℕ} {v : c.Ret} {stage : CommandStage}
    (hnote : ∀ h : Commanded ι, h.note (.returned t c v) = h) (hafter : afterCall c v held = held)
    (hw : (CommandMark.mk held none stage).weight = held.length) : ReturnsBarrier t held c v ⟨held, none, stage⟩ := by
  intro s h G ⟨floor, hat⟩ hG
  have how := hG ▸ hat.own t
  rw [hnote]
  show Barrier s h (Function.update G t (atRest (afterCall c v held)))
  rw [hafter]
  exact ⟨floor, hat.remark hG hw ⟨how.held, how.ending, how.called, how.live, trivial⟩⟩

theorem returns_commandBegin {held : List ℕ} {generation : ℕ} :
    ReturnsBarrier t held (.commandBegin generation) true ⟨held, none, .checked generation⟩ := by
  intro s h G ⟨floor, hat⟩ hG
  have how := hG ▸ hat.own t
  have hle : floor ≤ generation := how.stage
  have hfresh : ¬generation < h.called t := by
    have := how.called
    have := hat.outdated
    omega
  refine ⟨floor, hat.move hG rfl le_rfl le_rfl hat.outdated ?_ (fun u hu => ⟨?_, rfl, rfl, rfl⟩)
    ⟨?_, how.ending, how.called, ?_, trivial⟩⟩
  · simp [Commanded.note, Commanded.admitted, hat.revived, hfresh]
  · exact Function.update_of_ne hu ..
  · show Function.update h.held t _ t = _
    rw [Function.update_self, how.held]
    rfl
  · intro g hg
    obtain rfl | hg := List.mem_cons.mp hg
    · exact hle
    · exact how.live g hg

theorem returns_snapshotIsCurrent {held : List ℕ} {snapshot : SessionSnapshot ℕ} :
    ReturnsBarrier t held (.snapshotIsCurrent snapshot) true ⟨held, none, .looked snapshot.generation⟩ := by
  intro s h G ⟨floor, hat⟩ hG
  have how := hG ▸ hat.own t
  have hle : h.called t ≤ snapshot.generation := how.stage
  refine ⟨floor, hat.move hG rfl le_rfl le_rfl hat.outdated ?_ (fun _ _ => ⟨rfl, rfl, rfl, rfl⟩)
    ⟨how.held, how.ending, how.called, how.live, trivial⟩⟩
  simp [Commanded.note, Commanded.admitted, hat.revived, hle]

theorem returns_commandEnd {held : List ℕ} {generation : ℕ} :
    ReturnsBarrier t held (.commandEnd generation) () ⟨held.erase generation, some generation, .free⟩ := by
  intro s h G ⟨floor, hat⟩ hG
  have how := hG ▸ hat.own t
  refine ⟨floor, hat.move hG rfl le_rfl le_rfl hat.outdated hat.revived (fun u hu => ⟨rfl, ?_, rfl, rfl⟩)
    ⟨how.held, ?_, how.called, how.live, trivial⟩⟩
  · exact Function.update_of_ne hu ..
  · exact Function.update_self ..

theorem returns_reset {held : List ℕ} {generation : ℕ} :
    ReturnsBarrier t held .reset () ⟨held, none, .emptied generation⟩ := by
  intro s h G ⟨floor, hat⟩ hG
  have how := hG ▸ hat.own t
  have hcurrent : h.current t = generation := how.stage.1
  refine ⟨floor, hat.move hG rfl le_rfl (le_max_left ..) ?_ hat.revived (fun _ _ => ⟨rfl, rfl, rfl, rfl⟩)
    ⟨how.held, how.ending, how.called.trans (le_max_left ..), how.live, trivial⟩⟩
  exact max_le hat.outdated (hcurrent.trans_le how.stage.2)

theorem keepsCalls_barrier :
    KeepsCalls (gateCode ι anyEpoch) Commanded.note Barrier (fun _ _ _ _ _ => True) (fun _ => True) atRest := by
  intro t c held s h G hI _ hG hmay
  refine ⟨_, barrier_called hI hG c, fun fuel => ?_⟩
  cases c with
  | generation | rxDiscardEpoch => exact barrier_loads (isLoad_op rfl) fun _ => returns_plain (fun _ => rfl) rfl rfl
  | isOpen => exact barrier_loads loads_isOpen fun _ => returns_plain (fun _ => rfl) rfl rfl
  | opens => exact barrier_apart (opens_apart (opens_open fuel)) fun _ => returns_plain (fun _ => rfl) rfl rfl
  | close =>
    refine barrier_close (fun stage hchecked hcounted => returns_plain (fun _ => rfl) rfl ?_) fuel
    cases stage <;> simp_all [CommandMark.weight]
  | snapshot => exact barrier_loads loads_snapshot fun _ => returns_plain (fun _ => rfl) rfl rfl
  | snapshotIsCurrent snapshot =>
    show KeepsBarrier t (usbCdcSessionGateSnapshotIsCurrent snapshot) _ _
    unfold usbCdcSessionGateSnapshotIsCurrent
    split
    · exact returns_plain (fun _ => rfl) rfl rfl
    · refine barrier_generationOpen ⟨held, none, .looked snapshot.generation⟩ rfl
        (fun g h floor houtdated hle how => ?_) (returns_plain (fun _ => rfl) rfl rfl) fun b => ?_
      · exact ⟨how.held, how.ending, how.called, how.live, how.called.trans (houtdated.trans hle)⟩
      · cases b with
        | false => exact returns_plain (fun _ => rfl) rfl rfl
        | true => exact returns_snapshotIsCurrent
  | noteRx => exact barrier_apart (receives_apart (receives_noteRx fuel)) fun _ => returns_plain (fun _ => rfl) rfl rfl
  | shouldDiscardRx => exact barrier_loads loads_hasPending fun _ => returns_plain (fun _ => rfl) rfl rfl
  | markRxDrained epoch => exact barrier_apart (drains_apart (drains_markRxDrained epoch fuel)) fun _ => returns_plain (fun _ => rfl) rfl rfl
  | commandBegin generation =>
    exact barrier_commandBegin (returns_plain (fun _ => rfl) rfl rfl) returns_commandBegin
  | commandEnd generation =>
    exact barrier_commandEnd (by simpa [gateCode, mayCall] using hmay) returns_commandEnd
  | reset => exact barrier_reset (fun _ => returns_reset) fuel

/-- Once a reset has returned, no command of a generation older than the reset's is active, and none is admitted, nor is
a snapshot of one current, from then on. -/
theorem reset_barrier {P : Pool ι (GateOp ℕ) GateOp.Ans (Gate ℕ) (GateCall ℕ) GateCall.Ret (Commands ℕ) (Commanded ι)}
    (hP : Reach (gateCode ι anyEpoch) Commanded.note (fun _ _ _ _ _ => True) (gatePool ι .start) P) :
    (∀ t, ∀ generation ∈ P.seen.held t, P.seen.outdated ≤ generation) ∧ P.seen.revived = false := by
  have hinit : Barrier (ι := ι) Gate.init .start fun _ => atRest [] := by
    refine ⟨0, ?_, le_rfl, Nat.zero_le _, rfl, fun t => ⟨rfl, rfl, le_rfl, by simp [atRest], trivial⟩⟩
    simp [Gate.init, Counter.zero, CommandMark.weight, atRest]
  obtain ⟨G, ⟨floor, hat⟩, _, _⟩ := good_reach (fun _ => trivial) keepsCalls_barrier (good_idle (fun _ => trivial) hinit) hP
  refine ⟨fun t generation hmem => ?_, hat.revived⟩
  rw [(hat.own t).held] at hmem
  exact hat.outdated.trans ((hat.own t).live generation hmem)

section Wait

/-- A reset begins while a command is active, and waits for its end. -/
def waitEvents : List (Event Bool Bool (GateCall ℕ)) :=
  .call true .opens 9 :: List.replicate 7 (.act true false) ++
    .call true (.commandBegin 1) 9 :: List.replicate 11 (.act true false) ++
    .call false .reset 9 :: List.replicate 7 (.act false false) ++
    [.call true (.commandEnd 1) 9, .act true false, .act false false, .act false false]

theorem waitEvents_run : (run (gateCode Bool anyEpoch) Commanded.note (fun _ _ _ _ _ => True) waitEvents
    (gatePool Bool .start)).isSome = true := by
  decide +kernel

theorem reset_barrier_wait : let P := (run (gateCode Bool anyEpoch) Commanded.note (fun _ _ _ _ _ => True) waitEvents
      (gatePool Bool .start)).get waitEvents_run
    (∀ t, ∀ generation ∈ P.seen.held t, P.seen.outdated ≤ generation) ∧ P.seen.revived = false :=
  reset_barrier (reach_run waitEvents .start (Option.some_get _).symm)

end Wait

end Runs

end M5DayLog
