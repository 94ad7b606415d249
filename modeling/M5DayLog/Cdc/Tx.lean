import M5DayLog.Cdc.Worker
import M5DayLog.Lib.Lines
import M5DayLog.Lib.Trace

/-! One response on its way into the transmit queue. The writer offers what is left of the response until the queue has
taken all of it, then a line feed, and looks at the connection and the session before every offer. What the queue, the flush,
the endpoint, the connection and the session answer is up to the platform. The worker of the channel runs it with its own
callbacks. -/

namespace M5DayLog.UsbCdcTx

open Bytes Lines Prog

section Writer

/-- The callbacks of the writer. -/
inductive TxCall
  | isConnected
  | sessionIsCurrent (generation : ℕ)
  | queue (data : Bytes)
  | queueChar (value : UInt8)
  | flush (timeoutMs : ℕ)
  | wait
  | awaitEndpoint (timeoutMs : ℕ)
  deriving DecidableEq

abbrev TxCall.Ans : TxCall → Type
  | queue _ | queueChar _ => ℕ
  | wait => Unit
  | isConnected | sessionIsCurrent _ | flush _ | awaitEndpoint _ => Bool

/-- Which of the two optional callbacks there are, and the timeouts. -/
structure UsbCdcTxOps where
  wait : Bool
  awaitEndpoint : Bool
  endpointTimeoutMs : ℕ
  retryFlushTimeoutMs : ℕ
  finalFlushTimeoutMs : ℕ

abbrev TxProg := Prog TxCall TxCall.Ans

variable (ops : UsbCdcTxOps) (responseGeneration : ℕ)

def txIsCurrent : TxProg Bool := do
  let connected ← .op TxCall.isConnected
  if !connected then return false else .op (TxCall.sessionIsCurrent responseGeneration)

/-- Queue what is left of the response. `none` where the loop has used up its fuel. -/
def queueRest : ℕ → Bytes → TxProg (Option Bool)
  | _, [] => return some true
  | 0, _ => return none
  | fuel + 1, rest => do
    let current ← txIsCurrent responseGeneration
    if !current then return some false
    else
      let queued ← .op (TxCall.queue rest)
      if queued > rest.length then return some false
      else if queued = 0 then
        let current ← txIsCurrent responseGeneration
        if !current then return some false
        else
          let flushed ← .op (TxCall.flush ops.retryFlushTimeoutMs)
          if !flushed && ops.wait then
            .op TxCall.wait
            queueRest fuel rest
          else queueRest fuel rest
      else queueRest fuel (rest.drop queued)

def queueNewline : ℕ → TxProg (Option Bool)
  | 0 => return none
  | fuel + 1 => do
    let current ← txIsCurrent responseGeneration
    if !current then return some false
    else
      let queued ← .op (TxCall.queueChar newline)
      if queued ≠ 0 then return some true
      else
        let _ ← @Prog.op TxCall TxCall.Ans (.flush ops.retryFlushTimeoutMs)
        if ops.wait then
          .op TxCall.wait
          queueNewline fuel
        else queueNewline fuel

/-- The final flush, and where a release is at stake the last IN transfer. -/
def finishResponse : TxProg Bool := do
  let current ← txIsCurrent responseGeneration
  if !current then return false
  else
    let flushed ← .op (TxCall.flush ops.finalFlushTimeoutMs)
    if !flushed then return false
    else if ops.awaitEndpoint then
      let done ← .op (TxCall.awaitEndpoint ops.endpointTimeoutMs)
      if !done then return false else .op (TxCall.sessionIsCurrent responseGeneration)
    else .op (TxCall.sessionIsCurrent responseGeneration)

def usbCdcTxWriteResponse (response : Bytes) (fuel : ℕ) : TxProg (Option Bool) := do
  match ← queueRest ops responseGeneration fuel response with
  | some true =>
    match ← queueNewline ops responseGeneration fuel with
    | some true => return some (← finishResponse ops responseGeneration)
    | other => return other
  | other => return other

end Writer

section Exact

/-- What the queue has taken at one call. -/
def taken : (Σ o : TxCall, o.Ans) → Bytes
  | ⟨.queue data, n⟩ => data.take n
  | ⟨.queueChar c, n⟩ => if n = 0 then [] else [c]
  | _ => []

/-- What the queue has taken so far. -/
def queuedBytes (t : Trace TxCall TxCall.Ans) : Bytes := t.flatMap taken

/-- The connection or the session has been seen not to be current. -/
def lost : (Σ o : TxCall, o.Ans) → Bool
  | ⟨.isConnected, b⟩ | ⟨.sessionIsCurrent _, b⟩ => !b
  | _ => false

variable {ops : UsbCdcTxOps} {responseGeneration : ℕ} {full rest : Bytes} {h : Trace TxCall TxCall.Ans}
variable {e : Σ o : TxCall, o.Ans}

/-- What has been queued is a first part of the whole, and nothing has been done since the session has been seen lost. -/
structure Exact (full : Bytes) (h : Trace TxCall TxCall.Ans) : Prop where
  queued : queuedBytes h <+: full
  stops : ∀ e ∈ h.dropLast, lost e = false

/-- The whole has been queued up to `rest`, and the session has been current whenever it was looked at. -/
structure Queued (full rest : Bytes) (h : Trace TxCall TxCall.Ans) : Prop where
  queued : queuedBytes h ++ rest = full
  current : ∀ e ∈ h, lost e = false

theorem queuedBytes_append (h : Trace TxCall TxCall.Ans) (e : Σ o : TxCall, o.Ans) :
    queuedBytes (h ++ [e]) = queuedBytes h ++ taken e := by
  simp [queuedBytes]

/-- The queue may take a first part of what is left. -/
theorem Queued.exact (hq : Queued full rest h) (htaken : taken e <+: rest) : Exact full (h ++ [e]) := by
  constructor
  · rw [queuedBytes_append, ← hq.queued]
    exact (List.prefix_append_right_inj _).mpr htaken
  · rw [List.dropLast_concat]
    exact hq.current

theorem Queued.snoc {after : Bytes} (hq : Queued full rest h) (htaken : taken e ++ after = rest) (hl : lost e = false) :
    Queued full after (h ++ [e]) := by
  constructor
  · rw [queuedBytes_append, List.append_assoc, htaken, hq.queued]
  · intro x hx
    rcases List.mem_append.mp hx with hx | hx
    · exact hq.current x hx
    · rw [List.mem_singleton.mp hx, hl]

variable {Q : Bool → Trace TxCall TxCall.Ans → Prop} {R : Option Bool → Trace TxCall TxCall.Ans → Prop}

/-- Looking at the connection and the session queues nothing. -/
theorem always_txIsCurrent (hq : Queued full rest h) (hyes : ∀ h', Queued full rest h' → Q true h')
    (hno : ∀ h', Q false h') : Always (Exact full) (txIsCurrent responseGeneration) Q h := by
  intro connected
  refine ⟨hq.exact List.nil_prefix, ?_⟩
  cases connected with
  | false => exact hno _
  | true =>
    have hnext : Queued full rest (h ++ [⟨.isConnected, true⟩]) := hq.snoc rfl rfl
    intro current
    refine ⟨hnext.exact List.nil_prefix, ?_⟩
    cases current with
    | false => exact hno _
    | true => exact hyes _ (hnext.snoc rfl rfl)

/-- The loop queues the response piece by piece, in order. -/
theorem always_queueRest (fuel : ℕ) (data : Bytes) (hq : Queued full (data ++ rest) h)
    (hdone : ∀ h', Queued full rest h' → R (some true) h') (hstop : ∀ r h', r ≠ some true → R r h') :
    Always (Exact full) (queueRest ops responseGeneration fuel data) R h := by
  induction fuel generalizing data h with
  | zero =>
    cases data with
    | nil => exact hdone h hq
    | cons b data => exact hstop _ _ nofun
  | succ fuel ih =>
    cases data with
    | nil => exact hdone h hq
    | cons b data =>
      unfold queueRest
      rw [always_bind]
      apply always_txIsCurrent hq _ fun h' => hstop (some false) h' nofun
      intro h₁ hq₁ n
      refine ⟨hq₁.exact ((List.take_prefix _ _).trans (List.prefix_append _ _)), ?_⟩
      show Always _ (if n > (b :: data).length then _ else _) R _
      by_cases hmany : n > (b :: data).length
      · rw [if_pos hmany]
        exact hstop _ _ nofun
      · have hq₂ : Queued full ((b :: data).drop n ++ rest) (h₁ ++ [⟨.queue (b :: data), n⟩]) :=
          hq₁.snoc (by rw [taken, ← List.append_assoc, List.take_append_drop]) rfl
        rw [if_neg hmany]
        by_cases hzero : n = 0
        · subst hzero
          rw [if_pos rfl, always_bind]
          apply always_txIsCurrent hq₂ _ fun h' => hstop (some false) h' nofun
          intro h₃ hq₃ flushed
          refine ⟨hq₃.exact List.nil_prefix, ?_⟩
          have hq₄ := hq₃.snoc (e := ⟨.flush ops.retryFlushTimeoutMs, flushed⟩) rfl rfl
          show Always _ (if _ then _ else _) R _
          split
          · exact fun _ => ⟨hq₄.exact List.nil_prefix, ih _ (hq₄.snoc rfl rfl)⟩
          · exact ih _ hq₄
        · rw [if_neg hzero]
          exact ih _ hq₂

/-- The line feed is offered until the queue takes it. -/
theorem always_queueNewline (fuel : ℕ) (hq : Queued full [newline] h) (hdone : ∀ h', Queued full [] h' → R (some true) h')
    (hstop : ∀ r h', r ≠ some true → R r h') : Always (Exact full) (queueNewline ops responseGeneration fuel) R h := by
  induction fuel generalizing h with
  | zero => exact hstop _ _ nofun
  | succ fuel ih =>
    unfold queueNewline
    rw [always_bind]
    apply always_txIsCurrent hq _ fun h' => hstop (some false) h' nofun
    intro h₁ hq₁ n
    by_cases hzero : n = 0
    · subst hzero
      have hq₂ : Queued full [newline] (h₁ ++ [⟨.queueChar newline, (0 : ℕ)⟩]) := hq₁.snoc rfl rfl
      refine ⟨hq₁.exact List.nil_prefix, fun flushed => ⟨hq₂.exact List.nil_prefix, ?_⟩⟩
      have hq₃ := hq₂.snoc (e := ⟨.flush ops.retryFlushTimeoutMs, flushed⟩) rfl rfl
      show Always _ (if _ then _ else _) R _
      split
      · exact fun _ => ⟨hq₃.exact List.nil_prefix, ih (hq₃.snoc rfl rfl)⟩
      · exact ih hq₃
    · have htaken : taken ⟨.queueChar newline, n⟩ = [newline] := if_neg hzero
      refine ⟨hq₁.exact (by rw [htaken]), ?_⟩
      show Always _ (if n ≠ 0 then _ else _) R _
      rw [if_pos hzero]
      exact hdone _ (hq₁.snoc (by rw [htaken, List.append_nil]) rfl)

/-- The last steps of a response that is reported as complete: the final flush, the endpoint where it is waited for, and the
session. -/
def finished (ops : UsbCdcTxOps) (responseGeneration : ℕ) : Trace TxCall TxCall.Ans :=
  ⟨.flush ops.finalFlushTimeoutMs, true⟩ ::
    ((if ops.awaitEndpoint then [⟨.awaitEndpoint ops.endpointTimeoutMs, true⟩] else []) ++
      [⟨.sessionIsCurrent responseGeneration, true⟩])

theorem always_finishResponse (hq : Queued full [] h) : Always (Exact full) (finishResponse ops responseGeneration)
    (fun b h' => b = true → ∃ h₀, h' = h₀ ++ finished ops responseGeneration ∧ queuedBytes h₀ = full) h := by
  unfold finishResponse
  rw [always_bind]
  apply always_txIsCurrent hq _ fun h' hfalse => absurd hfalse Bool.false_ne_true
  intro h₁ hq₁ flushed
  have hall : queuedBytes h₁ = full := by rw [← hq₁.queued, List.append_nil]
  refine ⟨hq₁.exact List.nil_prefix, ?_⟩
  cases flushed with
  | false => exact fun hfalse => absurd hfalse Bool.false_ne_true
  | true =>
    have hq₂ : Queued full [] (h₁ ++ [⟨.flush ops.finalFlushTimeoutMs, true⟩]) := hq₁.snoc rfl rfl
    show Always _ (if ops.awaitEndpoint then _ else _) _ _
    cases hawait : ops.awaitEndpoint with
    | false =>
      refine fun current => ⟨hq₂.exact List.nil_prefix, ?_⟩
      rintro rfl
      exact ⟨h₁, by simp [finished, hawait], hall⟩
    | true =>
      intro done
      refine ⟨hq₂.exact List.nil_prefix, ?_⟩
      cases done with
      | false => exact fun hfalse => absurd hfalse Bool.false_ne_true
      | true =>
        have hq₃ : Queued full [] (h₁ ++ [⟨.flush ops.finalFlushTimeoutMs, true⟩] ++
            [⟨.awaitEndpoint ops.endpointTimeoutMs, true⟩]) := hq₂.snoc rfl rfl
        refine fun current => ⟨hq₃.exact List.nil_prefix, ?_⟩
        rintro rfl
        exact ⟨h₁, by simp [finished, hawait], hall⟩

theorem always_writeResponse (response : Bytes) (fuel : ℕ) :
    Always (Exact (response ++ [newline])) (usbCdcTxWriteResponse ops responseGeneration response fuel)
      (fun r h => r = some true → ∃ h₀, h = h₀ ++ finished ops responseGeneration ∧ queuedBytes h₀ = response ++ [newline])
      [] := by
  have hstart : Queued (response ++ [newline]) (response ++ [newline]) [] := ⟨rfl, nofun⟩
  unfold usbCdcTxWriteResponse
  rw [always_bind]
  apply always_queueRest fuel response hstart
  · intro h₁ hq₁
    dsimp only
    rw [always_bind]
    apply always_queueNewline fuel hq₁
    · intro h₂ hq₂
      dsimp only
      rw [always_bind]
      apply always_mono _ (always_finishResponse hq₂)
      intro b h₃ hb hr
      exact hb (Option.some.inj hr)
    · intro r h₂ hr
      rcases r with _ | _ | _
      · exact nofun
      · exact nofun
      · exact absurd rfl hr
  · intro r h₁ hr
    rcases r with _ | _ | _
    · exact nofun
    · exact nofun
    · exact absurd rfl hr

/-- At every moment of every run the queue has taken a first part of the response and its line feed; nothing is done any more
once the connection or the session has been seen lost; and `true` comes only after all has been queued and flushed, the
endpoint has finished and the session has still been current. -/
theorem usbCdcTxWriteResponse_exact (ops : UsbCdcTxOps) (responseGeneration : ℕ) (response : Bytes) (fuel : ℕ)
    (t : Trace TxCall TxCall.Ans) (q : TxProg (Option Bool))
    (h : (usbCdcTxWriteResponse ops responseGeneration response fuel).Does t q) :
    queuedBytes t <+: response ++ [newline] ∧ (∀ t₁ e t₂, t = t₁ ++ e :: t₂ → lost e = true → t₂ = []) ∧
      (q = .ret (some true) →
        ∃ t₀, t = t₀ ++ finished ops responseGeneration ∧ queuedBytes t₀ = response ++ [newline]) := by
  obtain ⟨hexact, hret⟩ := h.sat (always_writeResponse response fuel) ⟨List.nil_prefix, nofun⟩
  refine ⟨hexact.queued, ?_, fun hq => hret _ hq rfl⟩
  rintro t₁ e t₂ rfl hlost
  by_contra hne
  have hmem : e ∈ (t₁ ++ e :: t₂).dropLast := by
    rw [List.dropLast_append_of_ne_nil (by simp), List.dropLast_cons_of_ne_nil hne]
    simp
  rw [hexact.stops e hmem] at hlost
  cases hlost

/-- A response of one byte that the queue refuses once. -/
def oneByteOps : UsbCdcTxOps := ⟨true, false, 500, 20, 250⟩

def oneByteRun : Trace TxCall TxCall.Ans :=
  [⟨.isConnected, true⟩, ⟨.sessionIsCurrent 4, true⟩, ⟨.queue [120], (0 : ℕ)⟩, ⟨.isConnected, true⟩,
    ⟨.sessionIsCurrent 4, true⟩, ⟨.flush 20, false⟩, ⟨.wait, ()⟩, ⟨.isConnected, true⟩, ⟨.sessionIsCurrent 4, true⟩,
    ⟨.queue [120], (1 : ℕ)⟩, ⟨.isConnected, true⟩, ⟨.sessionIsCurrent 4, true⟩, ⟨.queueChar 10, (1 : ℕ)⟩,
    ⟨.isConnected, true⟩, ⟨.sessionIsCurrent 4, true⟩, ⟨.flush 250, true⟩, ⟨.sessionIsCurrent 4, true⟩]

theorem oneByteRun_exact : queuedBytes oneByteRun <+: [120] ++ [newline] ∧
    (∀ t₁ e t₂, oneByteRun = t₁ ++ e :: t₂ → lost e = true → t₂ = []) ∧
    (Prog.ret (some true) = (Prog.ret (some true) : TxProg (Option Bool)) →
      ∃ t₀, oneByteRun = t₀ ++ finished oneByteOps 4 ∧ queuedBytes t₀ = [120] ++ [newline]) :=
  usbCdcTxWriteResponse_exact oneByteOps 4 [120] 3 oneByteRun (.ret (some true)) (by
    unfold oneByteRun
    repeat apply Does.call
    exact Does.rest _)

end Exact

end M5DayLog.UsbCdcTx

namespace M5DayLog

open UsbCdcTx Prog

section Worker

variable {ε : Type} {A : ε → Type} (config : CdcConfig A) (generation : ℕ) (releaseAccepted : Bool)
variable (callbacksBefore : UInt32) (fuel : ℕ)

/-- What the callbacks of the writer do in the channel. -/
def cdcTxCall : (o : TxCall) → CdcProg A o.Ans
  | .isConnected => loadFlag .connected
  | .sessionIsCurrent responseGeneration => cdcTxSessionIsCurrent responseGeneration
  | .queue data => tx (.queue data)
  | .queueChar value => tx (.queueChar value)
  | .flush timeoutMs => tx (.flush timeoutMs)
  | .wait => tx (.delayTicks 1)
  | .awaitEndpoint _ => cdcReleaseAwaitEndpoint config generation callbacksBefore fuel

def cdcTxOps : UsbCdcTxOps := ⟨true, releaseAccepted, cdcReleaseTxCompleteTimeoutMs, retryFlushTimeoutMs, finalFlushTimeoutMs⟩

/-- The channel stops where the writer has used up its fuel. -/
def orHalt {α : Type} : Option α → CdcProg A α
  | none => cdcHalt
  | some a => .ret a

variable {config generation releaseAccepted callbacksBefore fuel}

@[simp] theorem cdcHalt_bind {α β : Type} (f : α → CdcProg A β) : (cdcHalt : CdcProg A α) >>= f = cdcHalt := by
  unfold cdcHalt onGate gateHalt Prog.lift
  rw [bind_call]
  congr 1
  funext r
  exact Empty.elim r

theorem interp_txIsCurrent : (UsbCdcTx.txIsCurrent generation).interp (cdcTxCall config generation callbacksBefore fuel) =
    txIsCurrent generation := by
  unfold UsbCdcTx.txIsCurrent txIsCurrent
  simp only [bind_op, interp]
  congr 1
  funext connected
  cases connected with
  | false => rfl
  | true => exact bind_ret_right _

theorem interp_queueRest (loop : ℕ) (data : List UInt8) :
    (queueRest (cdcTxOps releaseAccepted) generation loop data).interp (cdcTxCall config generation callbacksBefore fuel) >>=
      orHalt = writeQueue generation loop data := by
  induction loop generalizing data with
  | zero =>
    cases data with
    | nil => rfl
    | cons b data => rfl
  | succ loop ih =>
    cases data with
    | nil => rfl
    | cons b data =>
      unfold queueRest writeQueue
      rw [interp_bind, interp_txIsCurrent, bind_assoc]
      congr 1
      funext current
      cases current with
      | false => rfl
      | true =>
        apply congrArg (Prog.call (CdcOp.tx (.queue (b :: data))))
        funext queued
        show (if queued > (b :: data).length then _ else _ : TxProg (Option Bool)).interp _ >>= orHalt = if _ then _ else _
        by_cases hmany : queued > (b :: data).length
        · rw [if_pos hmany, if_pos hmany]
          rfl
        · rw [if_neg hmany, if_neg hmany]
          by_cases hzero : queued = 0
          · rw [if_pos hzero, if_pos hzero, interp_bind, interp_txIsCurrent, bind_assoc]
            congr 1
            funext current
            cases current with
            | false => rfl
            | true =>
              apply congrArg (Prog.call (CdcOp.tx (.flush retryFlushTimeoutMs)))
              funext flushed
              cases flushed with
              | true => exact ih _
              | false => exact congrArg (Prog.call (CdcOp.tx (.delayTicks 1))) (funext fun _ => ih _)
          · rw [if_neg hzero, if_neg hzero]
            exact ih _

theorem interp_queueNewline (loop : ℕ) :
    (queueNewline (cdcTxOps releaseAccepted) generation loop).interp (cdcTxCall config generation callbacksBefore fuel) >>=
      orHalt = writeNewline generation loop := by
  induction loop with
  | zero => rfl
  | succ loop ih =>
    unfold queueNewline writeNewline
    rw [interp_bind, interp_txIsCurrent, bind_assoc]
    congr 1
    funext current
    cases current with
    | false => rfl
    | true =>
      apply congrArg (Prog.call (CdcOp.tx (.queueChar 10)))
      funext queued
      show (if queued ≠ 0 then _ else _ : TxProg (Option Bool)).interp _ >>= orHalt = if _ then _ else _
      by_cases hzero : queued ≠ 0
      · rw [if_pos hzero, if_pos hzero]
        rfl
      · rw [if_neg hzero, if_neg hzero]
        apply congrArg (Prog.call (CdcOp.tx (.flush retryFlushTimeoutMs)))
        funext _
        exact congrArg (Prog.call (CdcOp.tx (.delayTicks 1))) (funext fun _ => ih)

theorem interp_finishResponse :
    (finishResponse (cdcTxOps releaseAccepted) generation).interp (cdcTxCall config generation callbacksBefore fuel) = (do
      let current ← txIsCurrent generation
      if !current then return false
      else
        let flushed ← tx (.flush finalFlushTimeoutMs)
        if !flushed then return false
        else if releaseAccepted then
          let done ← cdcReleaseAwaitEndpoint config generation callbacksBefore fuel
          if !done then return false else cdcTxSessionIsCurrent generation
        else cdcTxSessionIsCurrent generation) := by
  unfold finishResponse
  rw [interp_bind, interp_txIsCurrent]
  congr 1
  funext current
  cases current with
  | false => rfl
  | true =>
    apply congrArg (Prog.call (CdcOp.tx (.flush finalFlushTimeoutMs)))
    funext flushed
    cases flushed with
    | false => rfl
    | true =>
      cases releaseAccepted with
      | false => exact bind_ret_right _
      | true =>
        apply congrArg (cdcReleaseAwaitEndpoint config generation callbacksBefore fuel >>= ·)
        funext done
        cases done with
        | false => rfl
        | true => exact bind_ret_right _

/-- The worker writes its responses with the writer, with the channel's callbacks. -/
theorem usbCdcTxWriteResponse_eq (response : List UInt8) :
    usbCdcTxWriteResponse config response generation releaseAccepted callbacksBefore fuel =
      (UsbCdcTx.usbCdcTxWriteResponse (cdcTxOps releaseAccepted) generation response fuel).interp
        (cdcTxCall config generation callbacksBefore fuel) >>= orHalt := by
  unfold usbCdcTxWriteResponse UsbCdcTx.usbCdcTxWriteResponse
  have hrest (loop : ℕ) (data : List UInt8) :
      (queueRest (cdcTxOps releaseAccepted) generation loop data).interp (cdcTxCall config generation callbacksBefore fuel) >>=
        orHalt = writeQueue generation loop data := interp_queueRest loop data
  have hnewline (loop : ℕ) :
      (queueNewline (cdcTxOps releaseAccepted) generation loop).interp (cdcTxCall config generation callbacksBefore fuel) >>=
        orHalt = writeNewline generation loop := interp_queueNewline loop
  rw [← hrest, interp_bind, bind_assoc, bind_assoc]
  apply bind_congr
  intro queued
  rcases queued with _ | _ | _
  · exact cdcHalt_bind _
  · rfl
  · dsimp only
    rw [interp_bind, bind_assoc, ← hnewline]
    show (_ >>= _ : CdcProg A Bool) >>= _ = _
    rw [bind_assoc]
    apply bind_congr
    intro ended
    rcases ended with _ | _ | _
    · exact cdcHalt_bind _
    · rfl
    · dsimp only
      rw [interp_bind, interp_finishResponse, bind_assoc]
      exact (bind_ret_right _).symm

end Worker

end M5DayLog
