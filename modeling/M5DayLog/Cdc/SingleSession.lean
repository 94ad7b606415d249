import M5DayLog.Cdc.Worker

/-! The worker executes lines of a single session. A batch is let through only where no discard epoch is pending; as the
drained epoch moves only after the FIFO has been found empty, a byte that has waited through a boundary never gets that
far. Generations only grow, so that a command which finds the generation of its first byte has it for all of them. -/

namespace M5DayLog

open Threads

variable {ε : Type} {A : ε → Type} {X χ ι : Type} [DecidableEq ι]

section Invariant

structure HandedLine where
  bytes : List BatchByte
  generation : ℕ
  deriving DecidableEq

/-- The record of a run: the generation that the worker has loaded last, and the lines it has handed to the command
processor, each with the generation that its `command_begin` has loaded last. -/
structure Handed where
  loaded : ℕ
  lines : List HandedLine

def handed (worker : ι) : Note ι (CdcOp ε) (CdcOp.Ans A) (CdcCall A) CdcCall.Ret → Handed → Handed
  | .acted t (.gate .loadGeneration) generation, h => if t = worker then { h with loaded := generation } else h
  | .acted _ (.process line) _, h => { h with lines := ⟨line, h.loaded⟩ :: h.lines }
  | _, h => h

/-- Every byte came in under the generation of the command, and has seen no boundary in the FIFO. -/
def HandedLine.Single (line : HandedLine) : Prop := ∀ b ∈ line.bytes, b.generation = line.generation ∧ b.epoch = 0

/-- What the worker holds between two operations: at rest its framer, otherwise a generation that is not in the future,
the epoch it has observed and whether it has found the FIFO empty since, the batch it has read, and the generation it has
loaded last where it will need it. -/
structure WorkerMark where
  rest : Worker := .init
  generation : ℕ := 0
  observed : ℕ := 0
  emptied : Bool := false
  batch : List RxByte := []
  loaded : Option ℕ := none

/-- A marked byte has its drain still to come. -/
def Undrained (g : Gate ℕ) (b : RxByte) : Prop := b.epoch ≠ 0 → g.rxDrainedEpoch < b.epoch ∧ b.epoch ≤ g.rxDiscardEpoch

/-- The frame holds fresh bytes, of generations from that of the frame to the bound. -/
def Worker.Holds (w : Worker) (bound : ℕ) : Prop :=
  ∀ b ∈ w.framer.line, b.epoch = 0 ∧ w.frameGeneration ≤ b.generation ∧ b.generation ≤ bound

structure SessionInv (s : Cdc X) (h : Handed) (m : WorkerMark) : Prop where
  lines : ∀ line ∈ h.lines, line.Single
  loaded : ∀ generation, m.loaded = some generation → h.loaded = generation
  rest : m.rest.Holds s.gate.generation
  generation : m.generation ≤ s.gate.generation
  observed : m.observed ≤ s.gate.rxDiscardEpoch
  drained : s.gate.rxDrainedEpoch ≤ s.gate.rxDiscardEpoch
  fifo : ∀ b ∈ s.fifo, Undrained s.gate b
  emptied : m.emptied = true → ∀ b ∈ s.fifo, b.epoch ≠ 0 → m.observed < b.epoch
  batch : ∀ b ∈ m.batch, Undrained s.gate b

theorem Worker.Holds.mono {w : Worker} {bound bound' : ℕ} (h : w.Holds bound) (hle : bound ≤ bound') : w.Holds bound' :=
  fun b hb => ⟨(h b hb).1, (h b hb).2.1, (h b hb).2.2.trans hle⟩

theorem Worker.holds_reset (w : Worker) (bound : ℕ) : w.reset.Holds bound := by
  intro b hb
  simp [Worker.reset, Framer.reset] at hb

end Invariant

section Operations

/-- The operation neither drains, reads nor hands a line over. -/
def CdcOp.isSteady : CdcOp ε → Bool
  | .gate (.exchangeDrainedWeak _ _) | .read | .process _ => false
  | _ => true

/-- Generations and discard epochs only grow. -/
theorem act_grows {o : GateOp ℕ} (ho : ∀ e d, o ≠ .exchangeDrainedWeak e d) {weak : Bool} {g g' : Gate ℕ} {r : o.Ans}
    (hact : Gate.act o weak g = some (r, g')) : g.generation ≤ g'.generation ∧ g'.rxDrainedEpoch = g.rxDrainedEpoch ∧
      g.rxDiscardEpoch ≤ g'.rxDiscardEpoch ∧ (o = .addDiscard → g.rxDiscardEpoch < g'.rxDiscardEpoch) := by
  cases o with
  | exchangePhase e d =>
    obtain ⟨_, _, rfl⟩ | ⟨_, _, rfl⟩ := act_exchangePhase weak hact <;> simp
  | exchangeRx e d =>
    obtain ⟨_, _, rfl⟩ | ⟨_, _, rfl⟩ := act_exchangeRx weak hact <;> simp
  | exchangeRxWeak e d =>
    obtain ⟨_, _, rfl⟩ | ⟨_, rfl⟩ := act_exchangeRxWeak weak hact <;> simp
  | exchangeDrainedWeak e d => exact absurd rfl (ho e d)
  | halt => exact nomatch r
  | _ =>
    simp only [Gate.act, Option.some.injEq, Prod.mk.injEq] at hact
    obtain ⟨_, rfl⟩ := hact
    simp [Counter.succ]

/-- A byte found in the FIFO later was there before, has just come in, or has just been marked. -/
theorem mem_published {epoch : ℕ} {o : GateOp ℕ} {fifo : List RxByte} {b : RxByte} (h : b ∈ Cdc.published epoch o fifo) :
    b ∈ fifo ∨ o = .addDiscard ∧ b.epoch = epoch := by
  cases o with
  | addDiscard =>
    obtain ⟨b', _, rfl⟩ := List.mem_map.mp h
    exact Or.inr ⟨rfl, rfl⟩
  | _ => exact Or.inl h

variable {envAct : (o : ε) → χ → X → Option (A o × X)} {s s' : Cdc X} {h h' : Handed} {m : WorkerMark} {c : ℕ × χ}

/-- A steady operation moves generation and discard epoch forward, and leaves the drained epoch alone. -/
theorem act_steady {o : CdcOp ε} (ho : o.isSteady = true) {r : o.Ans A} (hact : Cdc.act envAct o c s = some (r, s')) :
    s.gate.generation ≤ s'.gate.generation ∧ s'.gate.rxDrainedEpoch = s.gate.rxDrainedEpoch ∧
      s.gate.rxDiscardEpoch ≤ s'.gate.rxDiscardEpoch ∧ ∀ b ∈ s'.fifo, b ∈ s.fifo ∨ b.epoch = 0 ∨
        b.epoch = s'.gate.rxDiscardEpoch ∧ s.gate.rxDiscardEpoch < b.epoch := by
  obtain ⟨n, x⟩ := c
  cases o with
  | gate o =>
    have hdrain : ∀ e d, o ≠ .exchangeDrainedWeak e d := by
      rintro e d rfl
      simp [CdcOp.isSteady] at ho
    simp only [Cdc.act, Option.map_eq_some_iff] at hact
    obtain ⟨⟨r', g'⟩, hg, heq⟩ := hact
    cases heq
    have hgrows := act_grows hdrain hg
    refine ⟨hgrows.1, hgrows.2.1, hgrows.2.2.1, fun b hb => ?_⟩
    rcases mem_published hb with hb | ⟨rfl, hb⟩
    · exact Or.inl hb
    · exact Or.inr (Or.inr ⟨hb, hb ▸ hgrows.2.2.2 rfl⟩)
  | env o =>
    simp only [Cdc.act, Option.map_eq_some_iff] at hact
    obtain ⟨⟨r', e⟩, _, heq⟩ := hact
    cases heq
    exact ⟨le_rfl, rfl, le_rfl, fun b hb => Or.inl hb⟩
  | read => simp [CdcOp.isSteady] at ho
  | process line => simp [CdcOp.isSteady] at ho
  | notifyTake =>
    simp only [Cdc.act] at hact
    split at hact <;> cases hact
    exact ⟨le_rfl, rfl, le_rfl, fun b hb => Or.inl hb⟩
  | receive data =>
    cases hact
    refine ⟨le_rfl, rfl, le_rfl, fun b hb => ?_⟩
    rcases List.mem_append.mp hb with hb | hb
    · exact Or.inl hb
    · obtain ⟨value, _, rfl⟩ := List.mem_map.mp hb
      exact Or.inr (Or.inl rfl)
  | _ =>
    cases hact
    exact ⟨le_rfl, rfl, le_rfl, fun b hb => Or.inl hb⟩

/-- Steady operations keep the invariant. -/
theorem SessionInv.steady (hI : SessionInv s h m) {o : CdcOp ε} (ho : o.isSteady = true) {r : o.Ans A}
    (hact : Cdc.act envAct o c s = some (r, s')) (hlines : h'.lines = h.lines)
    (hloaded : ∀ generation, m.loaded = some generation → h'.loaded = h.loaded) : SessionInv s' h' m := by
  obtain ⟨hgen, hdrained, hdiscard, hfifo⟩ := act_steady ho hact
  have hundrained : ∀ b, Undrained s.gate b → Undrained s'.gate b := by
    intro b hb hne
    exact ⟨hdrained ▸ (hb hne).1, (hb hne).2.trans hdiscard⟩
  refine ⟨hlines ▸ hI.lines, fun g hg => (hloaded g hg).trans (hI.loaded g hg), hI.rest.mono hgen, hI.generation.trans hgen,
    hI.observed.trans hdiscard, hdrained ▸ hI.drained.trans hdiscard, fun b hb => ?_, fun hm b hb hne => ?_,
    fun b hb => hundrained b (hI.batch b hb)⟩
  · rcases hfifo b hb with hb | hb | ⟨hb, hlt⟩
    · exact hundrained b (hI.fifo b hb)
    · exact fun hne => absurd hb hne
    · have := hI.drained
      exact fun _ => ⟨by omega, by omega⟩
  · rcases hfifo b hb with hb | hb | ⟨hb, hlt⟩
    · exact hI.emptied hm b hb hne
    · exact absurd hb hne
    · have := hI.observed
      omega

end Operations

section Programs

variable (config : CdcConfig A) (envAct : (o : ε) → χ → X → Option (A o × X)) (worker : ι)

abbrev KeepsSession {α : Type} (t : ι) (p : CdcProg A α) (Q : α → WorkerMark → Prop) (m : WorkerMark) : Prop :=
  Keeps (cdcCode config envAct worker) (handed worker) (fun s h G => SessionInv s h (G worker)) (fun _ _ _ _ _ => True)
    (fun _ => True) t p Q m

abbrev Steady {α : Type} (p : CdcProg A α) : Prop := Device.Only (fun o => o.isSteady = true) p

variable {config envAct worker} {t : ι} {m : WorkerMark}

theorem handed_lines {o : CdcOp ε} (ho : o.isSteady = true) (r : o.Ans A) (h : Handed) :
    (handed worker (.acted t o r : Note ι (CdcOp ε) (CdcOp.Ans A) (CdcCall A) CdcCall.Ret) h).lines = h.lines := by
  unfold handed
  split
  · split <;> rfl
  · simp_all [CdcOp.isSteady]
  · rfl

theorem handed_loaded {o : CdcOp ε} (ho : t ≠ worker ∨ o ≠ .gate .loadGeneration) (r : o.Ans A) (h : Handed) :
    (handed worker (.acted t o r : Note ι (CdcOp ε) (CdcOp.Ans A) (CdcCall A) CdcCall.Ret) h).loaded = h.loaded := by
  unfold handed
  split
  · simp_all
  · rfl
  · rfl

/-- Other threads keep the worker's invariant with every steady program. -/
theorem keeps_other {α : Type} {p : CdcProg A α} {Q : α → WorkerMark → Prop} (hp : Steady p) (ht : t ≠ worker)
    (hQ : ∀ a, Q a m) : KeepsSession config envAct worker t p Q m := by
  refine keeps_of_only hp trivial (fun o ho s h G hI _ _ c r s' hact _ => ?_) hQ
  exact hI.steady ho hact (handed_lines ho r h) fun _ _ => handed_loaded (Or.inl ht) r h

/-- The worker itself keeps it while it needs no generation that it has loaded. -/
theorem keeps_steady {α : Type} {p : CdcProg A α} {Q : α → WorkerMark → Prop} (hp : Steady p) (hm : m.loaded = none)
    (hQ : ∀ a, Q a m) : KeepsSession config envAct worker worker p Q m := by
  refine keeps_of_only hp trivial (fun o ho s h G hI _ hG c r s' hact _ => ?_) hQ
  refine hI.steady ho hact (handed_lines ho r h) fun g hg => ?_
  rw [hG, hm] at hg
  cases hg

end Programs

section SteadyPrograms

variable {α : Type}

theorem steady_op {o : CdcOp ε} (ho : o.isSteady = true) : Steady (.op o : CdcProg A (o.Ans A)) := .call o _ ho fun r => .ret r

theorem steady_onGate {p : GateProg ℕ α} (hp : Device.Only (fun o => ∀ e d, o ≠ .exchangeDrainedWeak e d) p) :
    Steady (onGate p : CdcProg A α) := by
  refine hp.lift fun o ho => ?_
  cases o <;> first | rfl | exact absurd rfl (ho _ _)

theorem steady_opens {p : GateProg ℕ α} (hp : Opens p) : Steady (onGate p : CdcProg A α) := by
  refine steady_onGate (hp.mono fun o ho => ?_)
  rintro e d rfl
  cases ho

theorem steady_receives {p : GateProg ℕ α} (hp : Receives p) : Steady (onGate p : CdcProg A α) := steady_opens (receives_opens hp)

theorem steady_loads {p : GateProg ℕ α} (hp : Loads p) : Steady (onGate p : CdcProg A α) := steady_receives (loads_receives hp)

theorem steady_onEnv (p : Prog ε A α) : Steady (onEnv p : CdcProg A α) := by
  induction p with
  | ret a => exact .ret a
  | call o k ih => exact .call _ _ rfl ih

theorem steady_halt : Steady (cdcHalt : CdcProg A α) := steady_receives receives_halt

theorem steady_close (fuel : ℕ) : Steady (usbCdcProtocolCloseSession fuel : CdcProg A Unit) := by
  refine (steady_op rfl).bind fun _ => (steady_op rfl).bind fun _ => (steady_op rfl).bind fun _ => steady_onGate ?_
  refine .call _ _ (by simp) fun r => ?_
  cases r with
  | some _ => exact .ret _
  | none =>
    refine .call _ _ (by simp) fun _ => (receives_boundary fuel).mono fun o ho => ?_
    rintro e d rfl
    cases ho

theorem steady_reset (fuel : ℕ) : Steady (usbCdcProtocolResetSession fuel : CdcProg A Unit) := by
  refine (steady_op rfl).bind fun _ => (steady_op rfl).bind fun _ => (steady_op rfl).bind fun _ => ?_
  refine Device.Only.bind ?_ fun _ => (steady_receives (receives_noteRx fuel)).bind fun _ => steady_op rfl
  have hreceives : ∀ {β : Type} {p : GateProg ℕ β}, Receives p → Device.Only (fun o => ∀ e d, o ≠ .exchangeDrainedWeak e d) p := by
    intro β p hp
    refine hp.mono fun o ho => ?_
    rintro e d rfl
    cases ho
  refine steady_onGate (.call _ _ (by simp) fun _ => (hreceives (receives_closeAdmission fuel)).bind fun _ => ?_)
  refine .call _ _ (by simp) fun _ => (hreceives (loads_receives (loads_waitIdle fuel))).bind fun _ => ?_
  exact .call _ _ (by simp) fun r => .ret r

theorem steady_open (fuel : ℕ) : Steady (usbCdcProtocolOpenSession fuel : CdcProg A Unit) := by
  refine (steady_op rfl).bind fun _ => (steady_op rfl).bind fun _ => (steady_op rfl).bind fun _ => ?_
  induction fuel with
  | zero => exact steady_halt
  | succ fuel ih =>
    refine (steady_op rfl).bind fun requested => ?_
    split
    · exact .ret _
    · refine (steady_opens (opens_open fuel)).bind fun opened => ?_
      split
      · exact .ret _
      · exact (steady_op rfl).bind fun _ => (steady_op rfl).bind fun _ => ih

theorem steady_rxCallback (fuel : ℕ) : Steady (usbCdcRxCallback fuel : CdcProg A Unit) :=
  (steady_op rfl).bind fun _ => (steady_receives (receives_noteRx fuel)).bind fun _ => steady_op rfl

theorem steady_lineState (dtr rts : Bool) : Steady (usbCdcLineStateCallback dtr rts : CdcProg A Unit) :=
  (steady_op rfl).bind fun _ => (steady_op rfl).bind fun _ => steady_op rfl

theorem steady_sessionIsCurrent (generation : ℕ) : Steady (cdcTxSessionIsCurrent generation : CdcProg A Bool) :=
  steady_loads (loads_snapshotIsCurrent _)

theorem steady_txIsCurrent (generation : ℕ) : Steady (txIsCurrent generation : CdcProg A Bool) := by
  refine (steady_op rfl).bind fun connected => ?_
  split
  · exact .ret _
  · exact steady_sessionIsCurrent generation

theorem steady_sampleReady (before : UInt32) : Steady (txFinalInSampleReady before : CdcProg A Bool) :=
  (steady_op rfl).bind fun _ => (steady_op rfl).bind fun _ => (steady_op rfl).bind fun _ => .ret _

theorem steady_waitFinalIn (generation : ℕ) (before timeout grace : UInt32) (fuel : ℕ) :
    Steady (usbCdcTxWaitFinalIn generation before timeout grace fuel : CdcProg A Bool) := by
  unfold usbCdcTxWaitFinalIn
  split
  · exact .ret _
  · refine (steady_op rfl).bind fun start => ?_
    induction fuel with
    | zero => exact steady_halt
    | succ fuel ih =>
      have hagain : Steady (do
          let now ← tx .nowTicks
          if now - start < timeout then waitFinalInFrom generation before timeout grace start fuel
          else return false : CdcProg A Bool) := by
        refine (steady_op rfl).bind fun now => ?_
        split
        · exact ih
        · exact .ret _
      refine (steady_sessionIsCurrent generation).bind fun current => ?_
      split
      · exact .ret _
      · refine (steady_sampleReady before).bind fun ready => ?_
        split
        · refine (steady_op rfl).bind fun _ => (steady_sessionIsCurrent generation).bind fun current => ?_
          split
          · exact .ret _
          · refine (steady_sampleReady before).bind fun ready => ?_
            split
            · exact hagain
            · refine (steady_op rfl).bind fun _ => (steady_sessionIsCurrent generation).bind fun current => ?_
              split
              · exact .ret _
              · exact steady_sampleReady before
        · exact (steady_op rfl).bind fun _ => hagain

theorem steady_writeQueue (generation fuel : ℕ) (data : List UInt8) : Steady (writeQueue generation fuel data : CdcProg A Bool) := by
  induction fuel generalizing data with
  | zero =>
    cases data with
    | nil => exact .ret _
    | cons => exact steady_halt
  | succ fuel ih =>
    cases data with
    | nil => exact .ret _
    | cons c data =>
      refine (steady_txIsCurrent generation).bind fun current => ?_
      split
      · exact .ret _
      · refine (steady_op rfl).bind fun queued => ?_
        split
        · exact .ret _
        · split
          · refine (steady_txIsCurrent generation).bind fun current => ?_
            split
            · exact .ret _
            · refine (steady_op rfl).bind fun flushed => ?_
              split
              · exact ih _
              · exact (steady_op rfl).bind fun _ => ih _
          · exact ih _

theorem steady_writeNewline (generation fuel : ℕ) : Steady (writeNewline generation fuel : CdcProg A Bool) := by
  induction fuel with
  | zero => exact steady_halt
  | succ fuel ih =>
    refine (steady_txIsCurrent generation).bind fun current => ?_
    split
    · exact .ret _
    · refine (steady_op rfl).bind fun queued => ?_
      split
      · exact .ret _
      · exact (steady_op rfl).bind fun _ => (steady_op rfl).bind fun _ => ih

theorem steady_writeResponse (config : CdcConfig A) (response : List UInt8) (generation : ℕ) (accepted : Bool) (fuel : ℕ) :
    Steady (cdcWriteResponse config response generation accepted fuel) := by
  have hbefore : Steady (if accepted then loadTxCompleted else pure 0 : CdcProg A UInt32) := by
    split
    · exact steady_op rfl
    · exact .ret _
  refine hbefore.bind fun before => ?_
  refine (steady_writeQueue generation fuel response).bind fun queued => ?_
  split
  · exact .ret _
  · refine (steady_writeNewline generation fuel).bind fun ended => ?_
    split
    · exact .ret _
    · refine (steady_txIsCurrent generation).bind fun current => ?_
      split
      · exact .ret _
      · refine (steady_op rfl).bind fun flushed => ?_
        split
        · exact .ret _
        · split
          · refine Device.Only.bind ?_ fun done => ?_
            · unfold cdcReleaseAwaitEndpoint
              split
              · exact .ret _
              · exact steady_waitFinalIn ..
            · split
              · exact .ret _
              · exact steady_sessionIsCurrent generation
          · exact steady_sessionIsCurrent generation

end SteadyPrograms

section WorkerWalk

variable {config : CdcConfig A} {envAct : (o : ε) → χ → X → Option (A o × X)} {worker : ι} {m : WorkerMark}

/-- The mark may change at an operation. -/
theorem keeps_mark {o : CdcOp ε} {Q : o.Ans A → WorkerMark → Prop}
    (hact : ∀ s h c r s', SessionInv s h m → Cdc.act envAct o c s = some (r, s') → ∃ m', Q r m' ∧
      SessionInv s' (handed worker (.acted worker o r : Note ι (CdcOp ε) (CdcOp.Ans A) (CdcCall A) CdcCall.Ret) h) m') :
    KeepsSession config envAct worker worker (.op o) Q m := by
  refine keeps_op trivial fun s h G hI _ hG c r s' hs _ => ?_
  obtain ⟨m', hQ, hI'⟩ := hact s h c r s' (hG ▸ hI) hs
  exact ⟨m', by simpa using hI', hQ⟩

/-- A gate operation of the worker acts on the gate. -/
theorem act_gate {o : GateOp ℕ} {c : ℕ × χ} {s s' : Cdc X} {r : o.Ans} (h : Cdc.act envAct (.gate o) c s = some (r, s')) :
    ∃ g, Gate.act o (c.1 != 0) s.gate = some (r, g) ∧
      s' = { s with gate := g, fifo := Cdc.published g.rxDiscardEpoch o s.fifo } := by
  simp only [Cdc.act, Option.map_eq_some_iff] at h
  obtain ⟨⟨r', g⟩, hg, heq⟩ := h
  cases heq
  exact ⟨g, hg, rfl⟩

/-- The mark of a worker that has just loaded a generation, and keeps it in mind or not. -/
def WorkerMark.load (m : WorkerMark) (keep : Bool) (generation : ℕ) : WorkerMark :=
  { m with generation := generation, loaded := if keep then some generation else none }

theorem keeps_loadGeneration (keep : Bool) : KeepsSession config envAct worker worker (onGate loadGeneration)
    (fun generation m' => m.generation ≤ generation ∧ m' = m.load keep generation) m := by
  refine keeps_mark fun s h c r s' hI hact => ⟨m.load keep r, ?_⟩
  obtain ⟨g, hg, rfl⟩ := act_gate hact
  cases hg
  refine ⟨⟨hI.generation, rfl⟩, ?_⟩
  refine ⟨by simpa [handed] using hI.lines, fun g hg => ?_, hI.rest, le_rfl, hI.observed, hI.drained, hI.fifo, hI.emptied, hI.batch⟩
  cases keep with
  | false => cases hg
  | true => simpa [handed, WorkerMark.load] using hg

/-- A load of the discard epoch bounds the marks of the batch in hand. -/
theorem keeps_loadDiscard : KeepsSession config envAct worker worker (onGate loadDiscard)
    (fun epoch m' => m' = m ∧ ∀ b ∈ m.batch, b.epoch ≤ epoch) m := by
  refine keeps_mark fun s h c r s' hI hact => ⟨m, ?_⟩
  obtain ⟨g, hg, rfl⟩ := act_gate hact
  cases hg
  refine ⟨⟨rfl, fun b hb => ?_⟩, hI⟩
  by_cases hne : b.epoch = 0
  · omega
  · exact (hI.batch b hb hne).2

theorem keeps_loadDrained : KeepsSession config envAct worker worker (onGate loadDrained)
    (fun epoch m' => m' = m ∧ ∀ b ∈ m.batch, b.epoch ≠ 0 → epoch < b.epoch) m := by
  refine keeps_mark fun s h c r s' hI hact => ⟨m, ?_⟩
  obtain ⟨g, hg, rfl⟩ := act_gate hact
  cases hg
  exact ⟨⟨rfl, fun b hb hne => (hI.batch b hb hne).1⟩, hI⟩

/-- An operation of the worker that is steady and does not load the generation. -/
theorem keeps_steadyOp {o : CdcOp ε} {Q : o.Ans A → WorkerMark → Prop} (ho : o.isSteady = true) (hload : o ≠ .gate .loadGeneration)
    (hQ : ∀ r, Q r m) : KeepsSession config envAct worker worker (.op o) Q m := by
  refine keeps_mark fun s h c r s' hI hact => ⟨m, hQ r, ?_⟩
  exact hI.steady ho hact (handed_lines ho r h) fun _ _ => handed_loaded (Or.inr hload) r h

/-- What stands after a look at the gate: the same mark, or a generation that has been loaded. Where the look has found the
session open, the generation is the expected one, and the batch in hand has seen no boundary. -/
def Looked (m : WorkerMark) (keep : Bool) (generation : ℕ) (current : Bool) (m' : WorkerMark) : Prop :=
  (current = false ∧ m' = m) ∨ ∃ found, m.generation ≤ found ∧ m' = m.load keep found ∧
    (current = true → found = generation ∧ ∀ b ∈ m.batch, b.epoch = 0)

theorem keeps_hasPending : KeepsSession config envAct worker worker (onGate gateHasPendingRxDiscard)
    (fun pending m' => m' = m ∧ (pending = false → ∀ b ∈ m.batch, b.epoch = 0)) m := by
  rw [gateHasPendingRxDiscard, onGate_bind]
  refine keeps_then keeps_loadDiscard fun discard m' h => ?_
  obtain ⟨rfl, hdiscard⟩ := h
  rw [onGate_bind]
  refine keeps_then keeps_loadDrained fun drained m' h => ?_
  obtain ⟨rfl, hdrained⟩ := h
  refine ⟨rfl, fun heq b hb => ?_⟩
  simp only [ne_eq, decide_not, Bool.not_eq_eq_eq_not, Bool.not_false, decide_eq_true_eq] at heq
  by_contra hne
  have := hdiscard b hb
  have := hdrained b hb hne
  omega

theorem keeps_admissionOpen : KeepsSession config envAct worker worker (onGate admissionOpen)
    (fun admitted m' => m' = m ∧ (admitted = true → ∀ b ∈ m.batch, b.epoch = 0)) m := by
  have hadmitted : KeepsSession config envAct worker worker (onGate gateRxAdmissionIsOpen) (fun _ m' => m' = m) m :=
    keeps_steadyOp rfl (by simp) fun _ => rfl
  rw [admissionOpen, onGate_bind]
  refine keeps_then hadmitted fun admitted m' h => ?_
  subst h
  split
  · exact ⟨rfl, (by rintro ⟨⟩)⟩
  · rw [onGate_bind]
    exact keeps_then keeps_hasPending fun pending m' h => ⟨h.1, fun hp => h.2 (by simpa using hp)⟩

theorem keeps_generationOpen (keep : Bool) (generation : ℕ) :
    KeepsSession config envAct worker worker (onGate (generationOpen generation)) (Looked m keep generation) m := by
  have hphase : KeepsSession config envAct worker worker (onGate loadPhase) (fun _ m' => m' = m) m :=
    keeps_steadyOp rfl (by simp) fun _ => rfl
  rw [generationOpen, onGate_bind]
  refine keeps_then hphase fun phase m' h => ?_
  subst h
  split
  · exact Or.inl ⟨rfl, rfl⟩
  · rw [onGate_bind]
    refine keeps_then (keeps_loadGeneration keep) fun found m' h => ?_
    obtain ⟨hle, rfl⟩ := h
    split
    case isTrue => exact Or.inr ⟨found, hle, rfl, (by rintro ⟨⟩)⟩
    case isFalse heq =>
      refine keeps_mono keeps_admissionOpen fun admitted m' h => Or.inr ⟨found, hle, h.1, fun ha => ⟨?_, h.2 ha⟩⟩
      simpa using heq

/-- The worker goes on with no generation in mind, having seen none older than before. -/
def Follows (m m' : WorkerMark) : Prop := m.generation ≤ m'.generation ∧ m'.loaded = none

theorem Follows.trans {m m' m'' : WorkerMark} (h : Follows m m') (h' : Follows m' m'') : Follows m m'' := ⟨h.1.trans h'.1, h'.2⟩

theorem Looked.follows {keep current : Bool} {generation : ℕ} {m' : WorkerMark} (h : Looked m keep generation current m')
    (hm : m.loaded = none) (hkeep : keep = false) : Follows m m' := by
  rcases h with ⟨_, rfl⟩ | ⟨found, hle, rfl, _⟩
  · exact ⟨le_rfl, hm⟩
  · exact ⟨hle, by simp [WorkerMark.load, hkeep]⟩

theorem Looked.of_current {keep : Bool} {generation : ℕ} {m' : WorkerMark} (h : Looked m keep generation true m') :
    m.generation ≤ generation ∧ m' = m.load keep generation ∧ ∀ b ∈ m.batch, b.epoch = 0 := by
  rcases h with ⟨h, _⟩ | ⟨found, hle, rfl, hcurrent⟩
  · cases h
  · obtain ⟨rfl, hfresh⟩ := hcurrent rfl
    exact ⟨hle, rfl, hfresh⟩

theorem SessionInv.forget {s : Cdc X} {h : Handed} (hI : SessionInv s h m) : SessionInv s h { m with loaded := none } :=
  ⟨hI.lines, fun _ hg => (nomatch hg), hI.rest, hI.generation, hI.observed, hI.drained, hI.fifo, hI.emptied, hI.batch⟩

theorem keeps_forget {o : CdcOp ε} (ho : o.isSteady = true) :
    KeepsSession config envAct worker worker (.op o) (fun _ m' => m' = { m with loaded := none }) m := by
  refine keeps_mark fun s h c r s' hI hact => ⟨_, rfl, ?_⟩
  exact hI.forget.steady ho hact (handed_lines ho r h) fun _ hg => nomatch hg

theorem keeps_sessionBegin (generation : ℕ) (hm : m.loaded = none) :
    KeepsSession config envAct worker worker (onGate (usbCdcSessionGateCommandBegin generation))
      (fun admitted m' => (admitted = false → Follows m m') ∧
        (admitted = true → m.generation ≤ generation ∧ m' = m.load true generation)) m := by
  rw [usbCdcSessionGateCommandBegin, onGate_bind]
  refine keeps_then (keeps_generationOpen false generation) fun admitted m₁ hlook => ?_
  cases admitted with
  | false => exact ⟨fun _ => hlook.follows hm rfl, (by rintro ⟨⟩)⟩
  | true =>
    obtain ⟨hle, rfl, _⟩ := hlook.of_current
    have hactive : KeepsSession config envAct worker worker (onGate addActive) (fun _ m' => m' = m.load false generation)
        (m.load false generation) := keeps_steadyOp rfl (by simp) fun _ => rfl
    rw [if_neg (by simp), onGate_bind]
    refine keeps_then hactive fun _ m' h => ?_
    subst h
    rw [onGate_bind]
    refine keeps_then (keeps_generationOpen true generation) fun admitted m₂ hlook => ?_
    cases admitted with
    | false =>
      rw [if_pos (by simp), onGate_bind]
      refine keeps_then (keeps_forget rfl) fun _ m' h => ⟨fun _ => ?_, (by rintro ⟨⟩)⟩
      subst h
      rcases hlook with ⟨_, rfl⟩ | ⟨found, hfound, rfl, _⟩
      · exact ⟨hle, rfl⟩
      · exact ⟨hle.trans hfound, rfl⟩
    | true =>
      obtain ⟨_, rfl, _⟩ := hlook.of_current
      exact ⟨(by rintro ⟨⟩), fun _ => ⟨hle, rfl⟩⟩

/-- A line of fresh bytes under the generation in mind is handed over. -/
theorem keeps_processing {line : List BatchByte} {generation : ℕ} (hm : m.loaded = some generation)
    (hline : ∀ b ∈ line, b.generation = generation ∧ b.epoch = 0) :
    KeepsSession config envAct worker worker (processing line) (fun _ m' => m' = { m with loaded := none }) m := by
  refine keeps_mark fun s h c r s' hI hact => ⟨_, rfl, ?_⟩
  cases hact
  refine { hI.forget with lines := fun l hl => ?_, loaded := fun _ hg => nomatch hg }
  simp only [handed, List.mem_cons] at hl
  rcases hl with rfl | hl
  · exact fun b hb => by rw [hI.loaded generation hm]; exact hline b hb
  · exact hI.lines l hl

theorem keeps_follows {α : Type} {p : CdcProg A α} (hp : Steady p) (hm : m.loaded = none) :
    KeepsSession config envAct worker worker p (fun _ m' => Follows m m') m := keeps_steady hp hm fun _ => ⟨le_rfl, hm⟩

theorem steady_completeAcceptedRelease (config : CdcConfig A) (reply : CdcReply) (complete : Bool) :
    Steady (usbCdcTxCompleteAcceptedRelease config reply complete) := by
  unfold usbCdcTxCompleteAcceptedRelease
  split
  · exact .ret _
  · exact steady_onEnv _

/-- A command of a line whose bytes are fresh and no older than the frame. -/
theorem keeps_workerCommand {line : List BatchByte} {generation fuel : ℕ} (hm : m.loaded = none)
    (hline : ∀ b ∈ line, b.epoch = 0 ∧ generation ≤ b.generation ∧ b.generation ≤ m.generation) :
    KeepsSession config envAct worker worker (workerCommand config line generation fuel) (fun _ m' => Follows m m') m := by
  refine keeps_then (keeps_sessionBegin generation hm) fun admitted m₁ hbegin => ?_
  cases admitted with
  | false => exact hbegin.1 rfl
  | true =>
    obtain ⟨hle, rfl⟩ := hbegin.2 rfl
    have hsingle : ∀ b ∈ line, b.generation = generation ∧ b.epoch = 0 := by
      intro b hb
      obtain ⟨hfresh, hfrom, hto⟩ := hline b hb
      exact ⟨by omega, hfresh⟩
    refine keeps_then (keeps_processing rfl hsingle) fun _ m₂ h => ?_
    subst h
    have hrest : Steady (do
        let reply ← onEnv (config.processLine (line.map (·.value)))
        let connected ← loadFlag .connected
        let complete ← (if reply.response ≠ [] ∧ connected then
            cdcWriteResponse config reply.response generation reply.releaseAccepted fuel
          else pure false : CdcProg A Bool)
        onGate usbCdcSessionGateCommandEnd
        let _ ← usbCdcTxCompleteAcceptedRelease config reply complete
        onEnv config.commandAdmissionOpen) := by
      refine (steady_onEnv _).bind fun reply => (steady_op rfl).bind fun connected => Device.Only.bind ?_ fun complete => ?_
      · split
        · exact steady_writeResponse ..
        · exact .ret _
      · refine (steady_op rfl).bind fun _ => (steady_completeAcceptedRelease config reply complete).bind fun _ => ?_
        exact steady_onEnv _
    exact keeps_mono (keeps_follows hrest rfl) fun _ m' h => ⟨hle.trans h.1, h.2⟩

/-- A session that is found current is no older than anything seen, and the batch in hand is fresh. -/
theorem keeps_batchCurrent (snapshot : SessionSnapshot ℕ) (pendingToo : Bool) (hm : m.loaded = none) :
    KeepsSession config envAct worker worker (batchCurrent config snapshot pendingToo)
      (fun current m' => Follows m m' ∧ (current = true → m.generation ≤ snapshot.generation ∧
        snapshot.generation ≤ m'.generation ∧ ∀ b ∈ m.batch, b.epoch = 0)) m := by
  refine keeps_then (keeps_steady (steady_op rfl) hm fun _ => rfl : KeepsSession config envAct worker worker _ (fun _ m' => m = m') m)
    fun connected m' h => ?_
  subst h
  split
  · exact ⟨⟨le_rfl, hm⟩, (by rintro ⟨⟩)⟩
  · have hsnapshot : KeepsSession config envAct worker worker (onGate (usbCdcSessionGateSnapshotIsCurrent snapshot))
        (Looked m false snapshot.generation) m := by
      unfold usbCdcSessionGateSnapshotIsCurrent
      split
      · exact Or.inl ⟨rfl, rfl⟩
      · exact keeps_generationOpen false snapshot.generation
    refine keeps_then hsnapshot fun current m₁ hlook => ?_
    cases current with
    | false => exact ⟨hlook.follows hm rfl, (by rintro ⟨⟩)⟩
    | true =>
      obtain ⟨hle, rfl, hfresh⟩ := hlook.of_current
      have hrest : Steady (do
          let discard ← (if pendingToo then onGate usbCdcSessionGateShouldDiscardRx else pure false : CdcProg A Bool)
          if discard then return false else onEnv config.commandAdmissionOpen) := by
        refine Device.Only.bind ?_ fun discard => ?_
        · split
          · exact steady_loads loads_hasPending
          · exact .ret _
        · split
          · exact .ret _
          · exact steady_onEnv _
      exact keeps_mono (keeps_follows hrest rfl) fun _ m' h => ⟨⟨hle.trans h.1, h.2⟩, fun _ => ⟨hle, h.1, hfresh⟩⟩

/-- A frame that is not empty has a byte. -/
theorem Framer.exists_mem {framer : Framer} (h : framer.isEmpty = false) : ∃ b, b ∈ framer.line := by
  refine List.exists_mem_of_ne_nil _ fun hnil => ?_
  cases ho : framer.oversized with
  | false => simp [isEmpty, hnil, ho] at h
  | true => simpa [hnil] using framer.full ho

/-- A fresh byte of a current batch goes into the frame: what is kept or handed on is fresh and no older than the frame. -/
theorem Worker.Holds.feed {w : Worker} {b : RxByte} {bound generation : ℕ} (h : w.Holds bound) (hb : b.epoch = 0)
    (hle : bound ≤ generation) {c : BatchByte} (hc : c ∈ (w.framer.feed ⟨b, generation⟩).2.line ∨
      ∃ line, (w.framer.feed ⟨b, generation⟩).1 = some line ∧ c ∈ line) :
    c.epoch = 0 ∧ (if w.framer.isEmpty then generation else w.frameGeneration) ≤ c.generation ∧ c.generation ≤ generation := by
  rcases Framer.mem_feed hc with hc | rfl
  · obtain ⟨hfresh, hfrom, hto⟩ := h c hc
    have hempty : w.framer.isEmpty = false := by
      cases hempty : w.framer.isEmpty with
      | false => rfl
      | true =>
        simp only [Framer.isEmpty, Bool.and_eq_true, List.isEmpty_iff] at hempty
        rw [hempty.1] at hc
        cases hc
    rw [if_neg (by simp [hempty])]
    exact ⟨hfresh, hfrom, hto.trans hle⟩
  · refine ⟨hb, ?_, le_rfl⟩
    split
    case isTrue => exact le_rfl
    case isFalse hempty =>
      obtain ⟨c, hc⟩ := Framer.exists_mem (Bool.eq_false_iff.mpr hempty)
      obtain ⟨_, hfrom, hto⟩ := h c hc
      exact hfrom.trans (hto.trans hle)

theorem keeps_workerBytes (snapshot : SessionSnapshot ℕ) (fuel : ℕ) (bytes : List RxByte) (w : Worker) (hm : m.loaded = none)
    (hw : w.Holds m.generation) (hbytes : ∀ b ∈ bytes, b.epoch = 0) :
    KeepsSession config envAct worker worker (workerBytes config snapshot fuel bytes w)
      (fun w' m' => m'.loaded = none ∧ w'.Holds m'.generation) m := by
  induction bytes generalizing w m with
  | nil => exact ⟨hm, hw⟩
  | cons b bytes ih =>
    have hsame : ∀ {α : Type} {p : CdcProg A α} {m : WorkerMark}, Steady p → m.loaded = none →
        KeepsSession config envAct worker worker p (fun _ m' => m = m') m := fun hp hm => keeps_steady hp hm fun _ => rfl
    refine keeps_then (hsame (steady_op rfl) hm) fun reset m' h => ?_
    subst h
    have hcurrent : KeepsSession config envAct worker worker
        (if reset then pure false else batchCurrent config snapshot false : CdcProg A Bool)
        (fun current m' => Follows m m' ∧ (current = true → m.generation ≤ snapshot.generation ∧
          snapshot.generation ≤ m'.generation)) m := by
      split
      · exact ⟨⟨le_rfl, hm⟩, (by rintro ⟨⟩)⟩
      · exact keeps_mono (keeps_batchCurrent snapshot false hm) fun _ _ h => ⟨h.1, fun hc => ⟨(h.2 hc).1, (h.2 hc).2.1⟩⟩
    refine keeps_then hcurrent fun current m₁ h => ?_
    obtain ⟨⟨hle, hm₁⟩, hcurrent⟩ := h
    cases current with
    | false => exact keeps_then (hsame (steady_op rfl) hm₁) fun _ m' h => ⟨h ▸ hm₁, w.holds_reset _⟩
    | true =>
      obtain ⟨hsnapshot, hto⟩ := hcurrent rfl
      have hfeed := fun c => hw.feed (hbytes b (List.mem_cons_self ..)) hsnapshot (c := c)
      have hbytes' : ∀ b ∈ bytes, b.epoch = 0 := fun b hb => hbytes b (List.mem_cons_of_mem _ hb)
      rw [if_neg (by simp)]
      dsimp only
      cases hf : w.framer.feed ⟨b, snapshot.generation⟩ with
      | mk line framer =>
        rw [hf] at hfeed
        have hkept : ∀ {m' : WorkerMark}, m₁.generation ≤ m'.generation →
            Worker.Holds ⟨framer, if w.framer.isEmpty then snapshot.generation else w.frameGeneration⟩ m'.generation := by
          intro m' hle c hc
          obtain ⟨hfresh, hfrom, hupto⟩ := hfeed c (Or.inl hc)
          exact ⟨hfresh, hfrom, hupto.trans (hto.trans hle)⟩
        cases line with
        | none => exact ih _ hm₁ (hkept le_rfl) hbytes'
        | some line =>
          refine keeps_then (keeps_workerCommand hm₁ fun c hc => ?_) fun goes m₂ h => ?_
          · obtain ⟨hfresh, hfrom, hupto⟩ := hfeed c (Or.inr ⟨line, rfl, hc⟩)
            exact ⟨hfresh, hfrom, hupto.trans hto⟩
          · split
            · exact ih _ h.2 (hkept h.1) hbytes'
            · exact ⟨h.2, Worker.holds_reset ⟨framer, _⟩ _⟩

theorem keeps_observe : KeepsSession config envAct worker worker (onGate usbCdcSessionGateRxDiscardEpoch)
    (fun epoch m' => m' = { generation := m.generation, observed := epoch }) m := by
  refine keeps_mark fun s h c r s' hI hact => ⟨_, rfl, ?_⟩
  obtain ⟨g, hg, rfl⟩ := act_gate hact
  cases hg
  exact ⟨hI.lines, fun _ hg => (nomatch hg), fun b hb => (nomatch hb), hI.generation, le_rfl, hI.drained, hI.fifo,
    fun he => (nomatch he), fun b hb => nomatch hb⟩

/-- A read that finds no byte has found the FIFO empty. -/
theorem keeps_read (hm : m.loaded = none) :
    KeepsSession config envAct worker worker cdcacmRead (fun got m' => match got with
      | none => m' = m
      | some bytes => m' = { m with emptied := bytes.isEmpty, batch := bytes }) m := by
  refine keeps_mark fun s h c r s' hI hact => ?_
  obtain ⟨n, x⟩ := c
  cases n with
  | zero =>
    cases hact
    exact ⟨m, rfl, hI⟩
  | succ n =>
    simp only [Cdc.act, Option.some.injEq, Prod.mk.injEq] at hact
    obtain ⟨rfl, rfl⟩ := hact
    refine ⟨_, rfl, ⟨hI.lines, fun g hg => by simp [hm] at hg, hI.rest, hI.generation, hI.observed, hI.drained, fun b hb => ?_,
      fun he b hb => ?_, fun b hb => ?_⟩⟩
    · exact hI.fifo b (List.mem_of_mem_drop hb)
    · have hempty : s.fifo = [] := by
        simp only [List.isEmpty_iff, List.take_eq_nil_iff] at he
        refine he.resolve_left ?_
        have : cdcRxChunkBytes = 256 := rfl
        omega
      rw [hempty] at hb
      simp at hb
    · exact hI.fifo b (List.mem_of_mem_take hb)

theorem keeps_sessionDrained {epoch : ℕ} (fuel : ℕ) (hm : m.loaded = none) (hobserved : m.observed = epoch)
    (hemptied : m.emptied = true) (hbatch : m.batch = []) :
    KeepsSession config envAct worker worker (onGate (usbCdcSessionGateMarkRxDrained epoch fuel)) (fun _ m' => m' = m) m := by
  have hsteady : ∀ {α : Type} {p : GateProg ℕ α}, Receives p →
      KeepsSession config envAct worker worker (onGate p) (fun _ m' => m' = m) m :=
    fun hp => keeps_steady (steady_receives hp) hm fun _ => rfl
  have hexchange : ∀ expected, KeepsSession config envAct worker worker (onGate (exchangeDrainedWeak expected epoch))
      (fun _ m' => m' = m) m := by
    intro expected
    refine keeps_mark fun s h c r s' hI hact => ⟨m, rfl, ?_⟩
    obtain ⟨g, hg, rfl⟩ := act_gate hact
    obtain ⟨_, _, rfl⟩ | ⟨_, rfl⟩ := act_exchangeDrainedWeak _ hg
    · refine ⟨hI.lines, hI.loaded, hI.rest, hI.generation, hI.observed, hobserved ▸ hI.observed, fun b hb hne => ?_, hI.emptied,
        by simp [hbatch]⟩
      exact ⟨hobserved ▸ hI.emptied hemptied b hb hne, (hI.fifo b hb hne).2⟩
    · exact hI
  have hfrom : ∀ fuel current, KeepsSession config envAct worker worker (onGate (markRxDrainedFrom epoch fuel current))
      (fun _ m' => m' = m) m := by
    intro fuel
    induction fuel with
    | zero => exact fun _ => hsteady receives_halt
    | succ fuel ih =>
      intro current
      rw [markRxDrainedFrom]
      split
      · rfl
      · rw [onGate_bind]
        refine keeps_then (hexchange current) fun r m' h => ?_
        subst h
        cases r with
        | none => rfl
        | some found => exact ih found
  rw [usbCdcSessionGateMarkRxDrained, onGate_bind]
  refine keeps_then (hsteady (receives_op rfl)) fun current m' h => ?_
  subst h
  rw [onGate_bind]
  refine keeps_then (hfrom fuel current) fun _ m' h => ?_
  subst h
  exact hsteady (receives_tryClear fuel)

theorem keeps_consumeReset (w : Worker) (hm : m.loaded = none) (hw : w.Holds m.generation) :
    KeepsSession config envAct worker worker (consumeReset w) (fun w' m' => m' = m ∧ w'.Holds m.generation) m := by
  have hflag : ∀ {α : Type} {p : CdcProg A α}, Steady p → KeepsSession config envAct worker worker p (fun _ m' => m = m') m :=
    fun hp => keeps_steady hp hm fun _ => rfl
  refine keeps_then (hflag (steady_op rfl)) fun reset m' h => ?_
  subst h
  split
  · exact keeps_then (hflag (steady_op rfl)) fun _ m' h => ⟨h.symm, w.holds_reset _⟩
  · exact ⟨rfl, hw⟩

theorem keeps_workerBatches (total fuel : ℕ) (w : Worker) (hm : m.loaded = none) (hw : w.Holds m.generation) :
    KeepsSession config envAct worker worker (workerBatches config total fuel w)
      (fun w' m' => m'.loaded = none ∧ w'.Holds m'.generation) m := by
  induction fuel generalizing w m with
  | zero => exact ⟨trivial, fun _ _ _ _ _ _ _ r => nomatch r⟩
  | succ fuel ih =>
    refine keeps_then (keeps_steady (steady_loads loads_snapshot) hm fun _ => rfl :
      KeepsSession config envAct worker worker _ (fun _ m' => m = m') m) fun snapshot m' h => ?_
    subst h
    refine keeps_then keeps_observe fun epoch m' h => ?_
    subst h
    refine keeps_then (keeps_read rfl) fun got m' h => ?_
    cases got with
    | none =>
      dsimp only at h
      subst h
      exact ⟨rfl, hw⟩
    | some bytes =>
      dsimp only at h
      subst h
      cases bytes with
      | nil =>
        refine keeps_then (keeps_sessionDrained total rfl rfl rfl rfl) fun _ m' h => ?_
        subst h
        exact ⟨rfl, hw⟩
      | cons b bytes =>
        refine keeps_then (keeps_consumeReset w rfl hw) fun w m' h => ?_
        obtain ⟨rfl, hw⟩ := h
        refine keeps_then (keeps_batchCurrent snapshot true rfl) fun current m₁ h => ?_
        obtain ⟨⟨hle, hm₁⟩, hcurrent⟩ := h
        cases current with
        | false => exact ih _ hm₁ (w.holds_reset _)
        | true =>
          obtain ⟨_, _, hfresh⟩ := hcurrent rfl
          refine keeps_then (keeps_workerBytes snapshot total (b :: bytes) w hm₁ (hw.mono hle) hfresh) fun w m₂ h => ?_
          exact ih w h.1 h.2

theorem keeps_workerTask (w : Worker) (fuel : ℕ) (hm : m.loaded = none) (hw : w.Holds m.generation) :
    KeepsSession config envAct worker worker (usbCdcWorkerTask config w fuel)
      (fun w' m' => m'.loaded = none ∧ w'.Holds m'.generation) m := by
  refine keeps_then (keeps_steady (steady_op rfl) hm fun _ => rfl : KeepsSession config envAct worker worker _ (fun _ m' => m = m') m)
    fun _ m' h => ?_
  subst h
  refine keeps_then (keeps_consumeReset w hm hw) fun w m' h => ?_
  obtain ⟨rfl, hw⟩ := h
  exact keeps_workerBatches fuel fuel w hm hw

end WorkerWalk

section Runs

variable (config : CdcConfig A) (envAct : (o : ε) → χ → X → Option (A o × X)) (worker : ι)

def restMark (w : Worker) : WorkerMark := { rest := w }

/-- The calls of the other threads are made of steady operations. -/
theorem steady_body {c : CdcCall A} (hc : c ≠ .worker) (w : Worker) (fuel : ℕ) : Steady (cdcBody config c w fuel) := by
  cases c with
  | worker => exact absurd rfl hc
  | closeSession => exact steady_close fuel
  | resetSession => exact steady_reset fuel
  | openSession => exact steady_open fuel
  | rxCallback => exact steady_rxCallback fuel
  | lineState dtr rts => exact steady_lineState dtr rts
  | txComplete => exact steady_op rfl
  | receive data => exact steady_op rfl
  | env p => exact steady_onEnv p

theorem keepsCalls_session : KeepsCalls (cdcCode config envAct worker) (handed worker)
    (fun s h G => SessionInv s h (G worker)) (fun _ _ _ _ _ => True) (fun _ => True) restMark := by
  intro t c w s h G hI _ hG hmay
  by_cases ht : t = worker
  · subst ht
    cases c with
    | worker =>
      rw [hG] at hI
      have hholds : w.Holds s.gate.generation := hI.rest
      refine ⟨{ generation := s.gate.generation }, ?_, fun fuel => ?_⟩
      · dsimp only
        rw [Function.update_self]
        exact ⟨hI.lines, fun _ hg => (nomatch hg), fun b hb => (nomatch hb), le_rfl, Nat.zero_le _, hI.drained, hI.fifo,
          fun he => (nomatch he), fun b hb => nomatch hb⟩
      · refine keeps_mono (keeps_workerTask w fuel rfl hholds) fun w' m' hw' s h G hI hG => ?_
        dsimp only at hI ⊢
        rw [hG] at hI
        rw [Function.update_self]
        exact ⟨hI.lines, fun _ hg => (nomatch hg), hw'.2.mono hI.generation, Nat.zero_le _, Nat.zero_le _, hI.drained, hI.fifo,
          fun he => (nomatch he), fun b hb => nomatch hb⟩
    | _ => simp [cdcCode, mayCdc] at hmay
  · have hc : c ≠ .worker := by
      rintro rfl
      simp [cdcCode, mayCdc, ht] at hmay
    refine ⟨G t, by rwa [Function.update_eq_self], fun fuel => ?_⟩
    refine keeps_other (steady_body config hc w fuel) ht fun v s h G hI _ => ?_
    dsimp only
    rwa [Function.update_of_ne (Ne.symm ht)]

variable {config envAct worker}

/-- In every run from a new channel, whatever the callbacks and the host do, each line handed to the command processor
consists of bytes that came in under the generation of its command and that no boundary has found in the FIFO. -/
theorem worker_singleSession {x : X} {P : Pool ι (CdcOp ε) (CdcOp.Ans A) (Cdc X) (CdcCall A) CdcCall.Ret Worker Handed}
    (h : Reach (cdcCode config envAct worker) (handed worker) (fun _ _ _ _ _ => True) (cdcPool ι x ⟨0, []⟩) P) :
    ∀ line ∈ P.seen.lines, ∀ b ∈ line.bytes, b.generation = line.generation ∧ b.epoch = 0 := by
  have hinit : SessionInv (Cdc.init x) ⟨0, []⟩ (restMark .init) :=
    ⟨fun _ hl => (nomatch hl), fun _ hg => (nomatch hg), fun b hb => (nomatch hb), Nat.zero_le _, le_rfl, le_rfl,
      fun b hb => (nomatch hb), fun he => (nomatch he), fun b hb => nomatch hb⟩
  obtain ⟨G, hI, _⟩ := good_reach (fun _ => trivial) (keepsCalls_session config envAct worker)
    (good_idle (fun _ => trivial) hinit) h
  exact hI.lines

section TwoBatches

abbrev NoOp : Empty → Type := fun o => nomatch o

def quietConfig : CdcConfig NoOp where
  commandAdmissionOpen := .ret true
  processLine _ := .ret ⟨[], false, []⟩
  releaseResponseComplete _ := .ret false
  descriptor := []
  msToTicks n := n.toUInt32

abbrev quietCode : Code Bool (CdcOp Empty) (CdcOp.Ans NoOp) (ℕ × Unit) (Cdc Unit) (CdcCall NoOp) CdcCall.Ret Worker :=
  cdcCode quietConfig (fun o => nomatch o) true

/-- A call, and as many operations of its thread. -/
def callActs (t : Bool) (c : CdcCall NoOp) (n : ℕ) : List (Event Bool (ℕ × Unit) (CdcCall NoOp)) :=
  .call t c 3 :: List.replicate n (.act t (2, ()))

/-- A line that comes in two batches. -/
def twoBatchEvents : List (Event Bool (ℕ × Unit) (CdcCall NoOp)) :=
  callActs false .openSession 11 ++ callActs false (.receive [65]) 1 ++ callActs false .rxCallback 3 ++
    callActs true .worker 45 ++ callActs false (.receive [66, 10]) 1 ++ callActs false .rxCallback 3 ++
    callActs true .worker 65

theorem twoBatchEvents_run : (run quietCode (handed true) (fun _ _ _ _ _ => True) twoBatchEvents
    (cdcPool Bool () ⟨0, []⟩)).map (·.seen.lines) = some [⟨[⟨⟨65, 0⟩, 1⟩, ⟨⟨66, 0⟩, 1⟩], 1⟩] := by
  decide +kernel

theorem worker_singleSession_twoBatches : ∃ P, run quietCode (handed true) (fun _ _ _ _ _ => True) twoBatchEvents
    (cdcPool Bool () ⟨0, []⟩) = some P ∧ P.seen.lines ≠ [] ∧
      ∀ line ∈ P.seen.lines, ∀ b ∈ line.bytes, b.generation = line.generation ∧ b.epoch = 0 := by
  obtain ⟨P, hP, hlines⟩ := Option.map_eq_some_iff.mp twoBatchEvents_run
  refine ⟨P, hP, by simp [hlines], worker_singleSession (reach_run twoBatchEvents .start hP)⟩

end TwoBatches

end Runs

end M5DayLog
