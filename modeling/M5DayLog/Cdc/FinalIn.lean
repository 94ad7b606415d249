import M5DayLog.Cdc.Tx

/-! The wait for the last IN transfer of a release's response. It samples the queue and the endpoint until they have come to
rest twice, one tick apart, and once more after the host's grace period. The clock has 32 bits; the loop ends because the
time since its start never wraps before it is over. -/

namespace M5DayLog.UsbCdcTx

open Prog

section Wait

/-- The callbacks of the wait. -/
inductive FinalWaitCall
  | sessionCurrent
  | sample
  | nowTicks
  | delayTicks (n : UInt32)
  deriving DecidableEq

/-- A sample may fail; else it is the count of the transmit callbacks, whether the queue is drained and whether the endpoint
is busy. -/
abbrev FinalWaitCall.Ans : FinalWaitCall → Type
  | sessionCurrent => Bool
  | sample => Option (UInt32 × Bool × Bool)
  | nowTicks => UInt32
  | delayTicks _ => Unit

structure UsbCdcTxFinalWaitOps where
  callbacksBefore : UInt32
  timeoutTicks : UInt32
  hostGraceTicks : UInt32

abbrev FinalWaitProg := Prog FinalWaitCall FinalWaitCall.Ans

variable (ops : UsbCdcTxFinalWaitOps)

/-- A sample of the queue and the endpoint at rest, after a transmit callback. -/
def sampleReady : Option (UInt32 × Bool × Bool) → Bool
  | some (after, drained, busy) => usbCdcTxFinalInComplete ops.callbacksBefore after drained busy
  | none => false

def txFinalInSampleReady : FinalWaitProg Bool := do
  return sampleReady ops (← .op FinalWaitCall.sample)

/-- `none` where the loop has used up its fuel. -/
def waitFinalIn (start : UInt32) : ℕ → FinalWaitProg (Option Bool)
  | 0 => return none
  | fuel + 1 => do
    let again : FinalWaitProg (Option Bool) := do
      let now ← .op FinalWaitCall.nowTicks
      if now - start < ops.timeoutTicks then waitFinalIn start fuel else return some false
    let current ← .op FinalWaitCall.sessionCurrent
    if !current then return some false
    else
      let ready ← txFinalInSampleReady ops
      if ready then
        .op (FinalWaitCall.delayTicks 1)
        let current ← .op FinalWaitCall.sessionCurrent
        if !current then return some false
        else
          let ready ← txFinalInSampleReady ops
          if !ready then again
          else
            .op (FinalWaitCall.delayTicks ops.hostGraceTicks)
            let current ← .op FinalWaitCall.sessionCurrent
            if !current then return some false else return some (← txFinalInSampleReady ops)
      else
        .op (FinalWaitCall.delayTicks 1)
        again

def usbCdcTxWaitFinalIn (fuel : ℕ) : FinalWaitProg (Option Bool) := do
  if ops.timeoutTicks = 0 then return some false
  else
    let start ← .op FinalWaitCall.nowTicks
    waitFinalIn ops start fuel

end Wait

section Complete

variable {ops : UsbCdcTxFinalWaitOps} {start : UInt32} {h : Trace FinalWaitCall FinalWaitCall.Ans}

theorem sampleReady_iff {s : Option (UInt32 × Bool × Bool)} :
    sampleReady ops s = true ↔ ∃ after, s = some (after, true, false) ∧ after ≠ ops.callbacksBefore := by
  rcases s with _ | ⟨after, drained, busy⟩
  · simp [sampleReady]
  · cases drained <;> cases busy <;> simp [sampleReady, usbCdcTxFinalInComplete]

/-- The last steps of a wait that comes to its last sample. -/
def lastSteps (ops : UsbCdcTxFinalWaitOps) (s₁ s₂ s₃ : Option (UInt32 × Bool × Bool)) :
    Trace FinalWaitCall FinalWaitCall.Ans :=
  [⟨.sample, s₁⟩, ⟨.delayTicks 1, ()⟩, ⟨.sessionCurrent, true⟩, ⟨.sample, s₂⟩, ⟨.delayTicks ops.hostGraceTicks, ()⟩,
    ⟨.sessionCurrent, true⟩, ⟨.sample, s₃⟩]

/-- One round of the loop: it stops where the session is lost, comes to its last sample after two at rest, or reads the
clock. `P` is what the steps before that reading keep. -/
theorem always_round {P : Trace FinalWaitCall FinalWaitCall.Ans → Prop} {fuel : ℕ}
    {Q : Option Bool → Trace FinalWaitCall FinalWaitCall.Ans → Prop} (hP : P h)
    (hstep : ∀ h e, P h → (∀ now, e ≠ ⟨.nowTicks, now⟩) → P (h ++ [e]))
    (hagain : ∀ h now, P h → Always (fun _ => True)
      (if now - start < ops.timeoutTicks then waitFinalIn ops start fuel else .ret (some false)) Q (h ++ [⟨.nowTicks, now⟩]))
    (hlost : ∀ h, Q (some false) h)
    (hlast : ∀ h s₁ s₂ s₃, sampleReady ops s₁ = true → sampleReady ops s₂ = true →
      Q (some (sampleReady ops s₃)) (h ++ lastSteps ops s₁ s₂ s₃)) :
    Always (fun _ => True) (waitFinalIn ops start (fuel + 1)) Q h := by
  intro current
  apply And.intro trivial
  have hP₁ := hstep h ⟨.sessionCurrent, current⟩ hP nofun
  cases current with
  | false => exact hlost _
  | true =>
    intro s₁
    apply And.intro trivial
    have hP₂ := hstep _ ⟨.sample, s₁⟩ hP₁ nofun
    have hP₃ := hstep _ ⟨.delayTicks 1, ()⟩ hP₂ nofun
    show Always _ (if sampleReady ops s₁ = true then _ else _) _ _
    by_cases hs₁ : sampleReady ops s₁ = true
    · rw [if_pos hs₁]
      rintro ⟨⟩
      apply And.intro trivial
      intro current
      apply And.intro trivial
      have hP₄ := hstep _ ⟨.sessionCurrent, current⟩ hP₃ nofun
      cases current with
      | false => exact hlost _
      | true =>
        intro s₂
        apply And.intro trivial
        have hP₅ := hstep _ ⟨.sample, s₂⟩ hP₄ nofun
        show Always _ (if (!sampleReady ops s₂) = true then _ else _) _ _
        cases hs₂ : sampleReady ops s₂ with
        | false => exact fun now => ⟨trivial, hagain _ now hP₅⟩
        | true =>
          rintro ⟨⟩
          apply And.intro trivial
          intro current
          apply And.intro trivial
          cases current with
          | false => exact hlost _
          | true =>
            intro s₃
            apply And.intro trivial
            have hdone := hlast (h ++ [⟨.sessionCurrent, true⟩]) s₁ s₂ s₃ hs₁ hs₂
            show Q (some (sampleReady ops s₃)) _
            simpa [lastSteps] using hdone
    · rw [if_neg hs₁]
      exact fun _ => ⟨trivial, fun now => ⟨trivial, hagain _ now hP₃⟩⟩

/-- The history of a wait that has succeeded: the queue and the endpoint at rest at two samples one tick apart and at one
after the grace period, and the session current before each of the later two. -/
def AtRest (ops : UsbCdcTxFinalWaitOps) (h : Trace FinalWaitCall FinalWaitCall.Ans) : Prop :=
  ∃ h₀ n₁ n₂ n₃, n₁ ≠ ops.callbacksBefore ∧ n₂ ≠ ops.callbacksBefore ∧ n₃ ≠ ops.callbacksBefore ∧
    h = h₀ ++ lastSteps ops (some (n₁, true, false)) (some (n₂, true, false)) (some (n₃, true, false))

theorem always_waitFinalIn (start : UInt32) (fuel : ℕ) (h : Trace FinalWaitCall FinalWaitCall.Ans) :
    Always (fun _ => True) (waitFinalIn ops start fuel) (fun r h' => r = some true → AtRest ops h') h := by
  induction fuel generalizing h with
  | zero => exact nofun
  | succ fuel ih =>
    apply always_round (P := fun _ => True) trivial (fun _ _ _ _ => trivial)
    · intro h now _
      split
      · exact ih _
      · exact nofun
    · exact fun _ => nofun
    · intro h s₁ s₂ s₃ hs₁ hs₂ hr
      obtain ⟨n₁, rfl, hn₁⟩ := sampleReady_iff.mp hs₁
      obtain ⟨n₂, rfl, hn₂⟩ := sampleReady_iff.mp hs₂
      obtain ⟨n₃, rfl, hn₃⟩ := sampleReady_iff.mp (Option.some.inj hr)
      exact ⟨h, n₁, n₂, n₃, hn₁, hn₂, hn₃, rfl⟩

end Complete

section Deadline

/-- The readings of the clock, in order. -/
def clockReads (h : Trace FinalWaitCall FinalWaitCall.Ans) : List UInt32 :=
  h.filterMap fun
    | ⟨.nowTicks, now⟩ => some now
    | _ => none

/-- From one reading to the next the clock has gone on by a tick or more, and by less than would bring it round to before
the deadline again. -/
def Ticks (timeoutTicks a b : UInt32) : Prop := 1 ≤ (b - a).toNat ∧ (b - a).toNat < 2 ^ 32 - timeoutTicks.toNat

variable {ops : UsbCdcTxFinalWaitOps} {start : UInt32} {h : Trace FinalWaitCall FinalWaitCall.Ans}

/-- While the loop goes on the time since its start grows and does not wrap. -/
theorem elapsed_lt {start a b timeout : UInt32} (ha : a - start < timeout) (ht : Ticks timeout a b) :
    (a - start).toNat < (b - start).toNat := by
  have hb := b.toNat_lt
  have ha' := a.toNat_lt
  have hs := start.toNat_lt
  simp only [Ticks, UInt32.lt_iff_toNat_lt, UInt32.toNat_sub] at *
  omega

/-- The history has read the clock, last of all as `last`. -/
def LastRead (h : Trace FinalWaitCall FinalWaitCall.Ans) (last : UInt32) : Prop := (clockReads h).getLast? = some last

theorem LastRead.snoc {last : UInt32} {e : Σ o : FinalWaitCall, o.Ans} (hl : LastRead h last)
    (he : ∀ now, e ≠ ⟨.nowTicks, now⟩) : LastRead (h ++ [e]) last := by
  have hnone : clockReads [e] = [] := by
    rcases e with ⟨o, r⟩
    cases o <;> first | rfl | exact absurd rfl (he r)
  rw [LastRead, clockReads, List.filterMap_append]
  show (clockReads h ++ clockReads [e]).getLast? = some last
  rw [hnone, List.append_nil, hl]

theorem lastRead_now (now : UInt32) : LastRead (h ++ [⟨.nowTicks, now⟩]) now := by
  simp [LastRead, clockReads]

/-- Two readings one after the other in a history that goes on. -/
theorem ticks_of_append {h' : Trace FinalWaitCall FinalWaitCall.Ans} {last now timeout : UInt32} (hl : LastRead h last)
    (hp : h ++ [⟨.nowTicks, now⟩] <+: h') (hc : (clockReads h').IsChain (Ticks timeout)) : Ticks timeout last now := by
  obtain ⟨rest, rfl⟩ := hp
  have hreads : clockReads (h ++ [⟨.nowTicks, now⟩] ++ rest) = clockReads h ++ (now :: clockReads rest) := by
    simp [clockReads]
  rw [hreads, List.isChain_append] at hc
  exact hc.2.2 last hl now rfl

/-- The loop ends before the deadline's ticks are used up. -/
theorem always_deadline (start last : UInt32) (fuel : ℕ) (hl : LastRead h last) (helapsed : last - start < ops.timeoutTicks)
    (hfuel : ops.timeoutTicks.toNat ≤ fuel + (last - start).toNat) :
    Always (fun _ => True) (waitFinalIn ops start fuel)
      (fun r h' => (clockReads h').IsChain (Ticks ops.timeoutTicks) → r ≠ none) h := by
  induction fuel generalizing h last with
  | zero =>
    rw [UInt32.lt_iff_toNat_lt] at helapsed
    omega
  | succ fuel ih =>
    apply always_round (P := fun h => LastRead h last) hl fun h e hl he => hl.snoc he
    · intro h now hl
      split
      case isFalse => exact fun _ => nofun
      case isTrue hbefore =>
        by_cases ht : Ticks ops.timeoutTicks last now
        · have hgrows := elapsed_lt helapsed ht
          exact ih now (lastRead_now now) hbefore (by omega)
        · exact always_any _ fun r h' hp hc => absurd (ticks_of_append hl hp hc) ht
    · exact fun _ _ => nofun
    · exact fun _ _ _ _ _ _ _ => nofun

/-- A wait that succeeds has seen the queue and the endpoint at rest after a transmit callback, at two samples one tick apart
and again after the grace period, with the session current at the end. And a wait whose clock goes on, however it wraps, is
over within as many rounds as the deadline has ticks. -/
theorem usbCdcTxWaitFinalIn_complete (ops : UsbCdcTxFinalWaitOps) (fuel : ℕ) (t : Trace FinalWaitCall FinalWaitCall.Ans)
    (r : Option Bool) (hrun : (usbCdcTxWaitFinalIn ops fuel).Does t (.ret r)) :
    (r = some true → AtRest ops t) ∧
    (ops.timeoutTicks.toNat ≤ fuel → (clockReads t).IsChain (Ticks ops.timeoutTicks) → r ≠ none) := by
  have hboth : Always (fun _ => True) (usbCdcTxWaitFinalIn ops fuel) (fun r h => r = some true → AtRest ops h) [] ∧
      (ops.timeoutTicks.toNat ≤ fuel → Always (fun _ => True) (usbCdcTxWaitFinalIn ops fuel)
        (fun r h => (clockReads h).IsChain (Ticks ops.timeoutTicks) → r ≠ none) []) := by
    unfold usbCdcTxWaitFinalIn
    by_cases hzero : ops.timeoutTicks = 0
    · rw [if_pos hzero]
      exact ⟨nofun, fun _ _ => nofun⟩
    · rw [if_neg hzero]
      constructor
      · exact fun start => ⟨trivial, always_waitFinalIn start fuel _⟩
      · intro hfuel start
        have hpos : 0 < ops.timeoutTicks := UInt32.pos_iff_ne_zero.mpr hzero
        exact ⟨trivial, always_deadline start start fuel (lastRead_now start) (by rwa [UInt32.sub_self]) (by omega)⟩
  exact ⟨(hrun.sat hboth.1 trivial).2 r rfl, fun hfuel => (hrun.sat (hboth.2 hfuel) trivial).2 r rfl⟩

/-- A wait that begins at the last tick of the clock, finds the queue at rest in its second round and ends well. -/
def wrapOps : UsbCdcTxFinalWaitOps := ⟨7, 3, 5⟩

def wrapRun : Trace FinalWaitCall FinalWaitCall.Ans :=
  [⟨.nowTicks, (0xffffffff : UInt32)⟩, ⟨.sessionCurrent, true⟩, ⟨.sample, some (7, true, false)⟩, ⟨.delayTicks 1, ()⟩,
    ⟨.nowTicks, (0 : UInt32)⟩, ⟨.sessionCurrent, true⟩] ++
    lastSteps wrapOps (some (8, true, false)) (some (8, true, false)) (some (8, true, false))

theorem wrapRun_does : (usbCdcTxWaitFinalIn wrapOps 3).Does wrapRun (.ret (some true)) := by
  unfold wrapRun lastSteps
  repeat apply Does.call
  exact Does.rest _

theorem wrapRun_complete : AtRest wrapOps wrapRun ∧ (some true : Option Bool) ≠ none := by
  obtain ⟨hrest, hends⟩ := usbCdcTxWaitFinalIn_complete wrapOps 3 wrapRun (some true) wrapRun_does
  have hreads : (clockReads wrapRun).IsChain (Ticks wrapOps.timeoutTicks) :=
    List.isChain_pair.mpr (show Ticks 3 0xffffffff 0 from ⟨by decide, by decide⟩)
  exact ⟨hrest rfl, hends (by decide) hreads⟩

end Deadline

end M5DayLog.UsbCdcTx

namespace M5DayLog

open UsbCdcTx Prog

section Worker

variable {ε : Type} {A : ε → Type} {generation : ℕ} {fuel : ℕ} {callbacksBefore timeoutTicks hostGraceTicks : UInt32}

/-- What the callbacks of the wait do in the channel; its sample never fails. -/
def cdcReleaseWaitCall (generation : ℕ) : (o : FinalWaitCall) → CdcProg A o.Ans
  | .sessionCurrent => cdcTxSessionIsCurrent generation
  | .sample => do
    let after ← loadTxCompleted
    let drained ← tx .fifoDrained
    let busy ← tx .edptBusy
    return some (after, drained, busy)
  | .nowTicks => tx .nowTicks
  | .delayTicks n => tx (.delayTicks n)

theorem interp_finalInSampleReady (ops : UsbCdcTxFinalWaitOps) :
    (UsbCdcTx.txFinalInSampleReady ops).interp (cdcReleaseWaitCall generation) =
      (txFinalInSampleReady ops.callbacksBefore : CdcProg A Bool) := by
  rfl

/-- The loop of the channel is the loop of the wait, run with the channel's callbacks. -/
theorem interp_waitFinalIn (ops : UsbCdcTxFinalWaitOps) (start : UInt32) (fuel : ℕ) :
    (UsbCdcTx.waitFinalIn ops start fuel).interp (cdcReleaseWaitCall generation) >>= orHalt =
      (waitFinalInFrom generation ops.callbacksBefore ops.timeoutTicks ops.hostGraceTicks start fuel : CdcProg A Bool) := by
  induction fuel with
  | zero => rfl
  | succ fuel ih =>
    have hagain (now : UInt32) :
        (if now - start < ops.timeoutTicks then UsbCdcTx.waitFinalIn ops start fuel
          else (.ret (some false) : FinalWaitProg (Option Bool))).interp (cdcReleaseWaitCall generation) >>= orHalt =
        (if now - start < ops.timeoutTicks then
          waitFinalInFrom generation ops.callbacksBefore ops.timeoutTicks ops.hostGraceTicks start fuel
          else .ret false : CdcProg A Bool) := by
      split
      · exact ih
      · rfl
    unfold UsbCdcTx.waitFinalIn waitFinalInFrom
    simp only [bind_op, interp]
    rw [bind_assoc]
    congr 1
    funext current
    cases current with
    | false => rfl
    | true =>
      simp only [Bool.not_true, Bool.false_eq_true, if_false]
      rw [interp_bind, interp_finalInSampleReady, bind_assoc]
      congr 1
      funext ready
      cases ready with
      | false =>
        apply congrArg (Prog.call (CdcOp.tx (.delayTicks 1)))
        funext _
        exact congrArg (Prog.call (CdcOp.tx .nowTicks)) (funext hagain)
      | true =>
        apply congrArg (Prog.call (CdcOp.tx (.delayTicks 1)))
        funext _
        show (cdcTxSessionIsCurrent generation >>= _) >>= orHalt = cdcTxSessionIsCurrent generation >>= _
        rw [bind_assoc]
        congr 1
        funext current
        cases current with
        | false => rfl
        | true =>
          simp only [Bool.not_true, Bool.false_eq_true, if_false]
          rw [interp_bind, interp_finalInSampleReady, bind_assoc]
          congr 1
          funext ready
          cases ready with
          | false => exact congrArg (Prog.call (CdcOp.tx .nowTicks)) (funext hagain)
          | true =>
            apply congrArg (Prog.call (CdcOp.tx (.delayTicks ops.hostGraceTicks)))
            funext _
            show (cdcTxSessionIsCurrent generation >>= _) >>= orHalt = cdcTxSessionIsCurrent generation >>= _
            rw [bind_assoc]
            congr 1
            funext current
            cases current with
            | false => rfl
            | true => rfl

/-- The channel waits with the wait, with its own callbacks. -/
theorem usbCdcTxWaitFinalIn_eq :
    (usbCdcTxWaitFinalIn generation callbacksBefore timeoutTicks hostGraceTicks fuel : CdcProg A Bool) =
      (UsbCdcTx.usbCdcTxWaitFinalIn ⟨callbacksBefore, timeoutTicks, hostGraceTicks⟩ fuel).interp
        (cdcReleaseWaitCall generation) >>= orHalt := by
  unfold usbCdcTxWaitFinalIn UsbCdcTx.usbCdcTxWaitFinalIn
  split
  · rfl
  · apply congrArg (Prog.call (CdcOp.tx .nowTicks))
    funext start
    exact (interp_waitFinalIn ⟨callbacksBefore, timeoutTicks, hostGraceTicks⟩ start fuel).symm

end Worker

end M5DayLog
