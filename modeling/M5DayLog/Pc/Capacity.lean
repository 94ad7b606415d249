import M5DayLog.Lib.Trace
import M5DayLog.Pc.Release

/-! The free space of the Device's card, as an advice for the next day of recording. The probe takes an ordinary lease,
checks session and target before and after the one reading, and answers with numbers only where every check has held; what
the session, the validator, the reader and the clock answer is left open, so that a change of the session may fall between
any two of its calls. -/

namespace M5DayLog.Capacity

open Prog

section Values

def bytesPerSecond : ℕ := 16000 * 2
def daySeconds : ℕ := 16 * 60 * 60
def dayBytes : ℕ := bytesPerSecond * daySeconds
def reserveBytes : ℕ := 128 * 1024 * 1024
def warningThresholdBytes : ℕ := dayBytes + reserveBytes
def uint64Max : ℤ := 2 ^ 64 - 1

inductive CapacityStatus
  | readyForNext16h
  | actionRequired
  | unknown
  deriving DecidableEq

inductive CapacityReason
  | invalidAuthorizedTarget
  | staleOrSealedSession
  | syncNotVerified
  | identityUnverified
  | identityChanged
  | capacityApiUnavailable
  | capacityTimestampUnavailable
  | capacityAdmissionBlocked
  | capacityEstimateOnly
  | insufficientEstimatedNext16h
  deriving DecidableEq

structure VerifiedSession where
  target : EjectTarget
  cdcPort : String
  sessionEpoch : String
  deriving DecidableEq

/-- A field of a reading: an integer, or a value of another type. -/
inductive PyValue
  | int (n : ℤ)
  | other
  deriving DecidableEq

structure FreeSpace64 where
  availableToCaller : PyValue
  totalBytes : PyValue
  totalFreeBytes : PyValue
  deriving DecidableEq

/-- What the reader returns: free space, or a value of another type. -/
inductive Reading
  | freeSpace (value : FreeSpace64)
  | other
  deriving DecidableEq

/-- What the clock returns: a time with a zone, by what its conversion to text gives, or another value. -/
inductive ClockValue
  | aware (isoformat : Except ReleaseExc String)
  | other

structure CapacityResult where
  status : CapacityStatus
  reason : CapacityReason
  releaseBlocked : Bool
  usableFreeBytes : Option ℤ := none
  physicalFreeBytes : Option ℤ := none
  estimatedSeconds : Option ℤ := none
  observedAtUtc : Option String := none
  sessionEpoch : String
  deriving DecidableEq

def unknown (reason : CapacityReason) (epoch : String) (block : Bool) : CapacityResult :=
  { status := .unknown, reason, releaseBlocked := block, sessionEpoch := epoch }

/-- `[A-Za-z]:\`. -/
def isDriveRoot (s : String) : Bool :=
  match s.toList with
  | [c, ':', '\\'] => ( 'A' ≤ c && c ≤ 'Z') || ( 'a' ≤ c && c ≤ 'z')
  | _ => false

def isGuidChar (c : Char) : Bool :=
  ( '0' ≤ c && c ≤ '9') || ( 'a' ≤ c && c ≤ 'f') || ( 'A' ≤ c && c ≤ 'F') || c = '-'

/-- `\\?\Volume`, and 36 hexadecimal digits or hyphens in braces, and a backslash. -/
def isVolumeRoot (s : String) : Bool :=
  let head := "\\\\?\\Volume\x7b".toList
  let guid := (s.toList.drop head.length).take 36
  s.toList = head ++ (guid ++ "\x7d\\".toList) && guid.length = 36 && guid.all isGuidChar

def bindingShapeValid (binding : VerifiedSession) : Bool :=
  isDriveRoot binding.target.mountRoot && isVolumeRoot binding.target.volumeGuid && 0 ≤ binding.target.diskNumber &&
    [binding.target.expectedDeviceId, binding.target.diskInstanceId, binding.target.ejectInstanceId,
      binding.target.usbPhysicalInstanceId, binding.cdcPort, binding.sessionEpoch].all (· ≠ "")

def isCounter (n : ℤ) : Bool := 0 ≤ n ∧ n ≤ uint64Max

/-- `none` where it raises. -/
def usableFree : Reading → Option ℤ
  | .freeSpace ⟨.int a, .int total, .int free⟩ =>
    if !isCounter a ∨ !isCounter total ∨ !isCounter free then none
    else if total = 0 ∨ total < a ∨ free < a then none
    else some (min a free)
  | _ => none

/-- The volume's free bytes, as the reading states them. -/
def physicalFree : Reading → Option ℤ
  | .freeSpace ⟨_, _, .int free⟩ => some free
  | _ => none

/-- `none` where it raises. -/
def classifyFreeSpace (value : Reading) (epoch observedAtUtc : String) : Option CapacityResult := do
  let free ← usableFree value
  let seconds := max 0 (free - reserveBytes) / bytesPerSecond
  let ready : Bool := (warningThresholdBytes : ℤ) ≤ free
  return {
    status := if ready then .readyForNext16h else .actionRequired
    reason := if ready then .capacityEstimateOnly else .insufficientEstimatedNext16h
    releaseBlocked := false
    usableFreeBytes := some free
    physicalFreeBytes := physicalFree value
    estimatedSeconds := some seconds
    observedAtUtc := some observedAtUtc
    sessionEpoch := epoch }

end Values

section Probe

/-- The calls of a probe. `acquire` and `leave` are the two ends of the lease. -/
inductive ProbeOp
  | acquire
  | leave
  | gateState
  | currentSessionEpoch
  | durableSyncComplete
  | revalidateTarget (target : EjectTarget) (cdcPort : String)
  | volumeAvailable (target : EjectTarget)
  | query (volumeGuid : String)
  | clock
  deriving DecidableEq

abbrev ProbeOp.Val : ProbeOp → Type
  | gateState => GateState
  | currentSessionEpoch => String
  | durableSyncComplete | volumeAvailable _ => Bool
  | query _ => Reading
  | clock => ClockValue
  | _ => Unit

abbrev ProbeOp.Ans (o : ProbeOp) : Type := Except ReleaseExc o.Val

abbrev ProbeM := ExceptT ReleaseExc (Prog ProbeOp ProbeOp.Ans)

def ask (o : ProbeOp) : ProbeM o.Val := ExceptT.mk (.op o)

/-- `try ... except Exception`, `none` where it has caught one. -/
def attempt {α : Type} (body : ProbeM α) : ProbeM (Option α) := ExceptT.mk do
  match ← body.run with
  | .ok a => return .ok (some a)
  | .error e => return if e = .baseException then .error e else .ok none

/-- The gate is open and the session is still the one that was authorised. -/
def sessionCurrent (binding : VerifiedSession) : ProbeM Bool := do
  let state ← ask .gateState
  if state ≠ .opened then return false
  else
    let epoch ← ask .currentSessionEpoch
    return epoch = binding.sessionEpoch

/-- The target is validated anew, and there. -/
def targetVerified (binding : VerifiedSession) : ProbeM Bool := do
  let verified ← attempt do
    ask (.revalidateTarget binding.target binding.cdcPort)
    let available ← ask (.volumeAvailable binding.target)
    if !available then throw ReleaseExc.valueError else return ()
  return verified.isSome

/-- The reading, where its counters are consistent. -/
def readFreeSpace (binding : VerifiedSession) : ProbeM (Option Reading) :=
  attempt do
    let raw ← ask (.query binding.target.volumeGuid)
    if (usableFree raw).isNone then throw ReleaseExc.valueError else return raw

/-- The result for a reading, after the clock and the last look at the session. -/
def observe (binding : VerifiedSession) (raw : Reading) : ProbeM CapacityResult := do
  let observed ← attempt (ask .clock)
  if !(← sessionCurrent binding) then return unknown .staleOrSealedSession binding.sessionEpoch true
  else
    match observed with
    | some (.aware isoformat) =>
      let observedAtUtc ← ExceptT.mk (.ret isoformat)
      match classifyFreeSpace raw binding.sessionEpoch observedAtUtc with
      | none => throw ReleaseExc.valueError
      | some result => return result
    | _ => return unknown .capacityTimestampUnavailable binding.sessionEpoch false

/-- What follows the reading, which may have failed. -/
def afterReading (binding : VerifiedSession) (raw : Option Reading) : ProbeM CapacityResult := do
  if !(← targetVerified binding) then return unknown .identityChanged binding.sessionEpoch true
  else if !(← sessionCurrent binding) then return unknown .staleOrSealedSession binding.sessionEpoch true
  else
    match raw with
    | none => return unknown .capacityApiUnavailable binding.sessionEpoch false
    | some raw => observe binding raw

/-- What is done under the lease. -/
def probeLeased (binding : VerifiedSession) : ProbeM CapacityResult := do
  if !(← sessionCurrent binding) then return unknown .staleOrSealedSession binding.sessionEpoch true
  else if !(← ask .durableSyncComplete) then return unknown .syncNotVerified binding.sessionEpoch true
  else if !(← targetVerified binding) then return unknown .identityUnverified binding.sessionEpoch true
  else if !(← sessionCurrent binding) then return unknown .staleOrSealedSession binding.sessionEpoch true
  else
    let raw ← readFreeSpace binding
    afterReading binding raw

/-- `with gate.ordinary("msc")`. -/
def ordinary {α : Type} (body : ProbeM α) : ProbeM α := do
  ask .acquire
  ExceptT.mk do
    let r ← body.run
    let left ← (ask .leave).run
    return left.bind fun _ => r

def probeCapacity (binding : VerifiedSession) : ProbeM CapacityResult :=
  if !bindingShapeValid binding then return unknown .invalidAuthorizedTarget "" true
  else do
    let result ← attempt (ordinary (probeLeased binding))
    return result.getD (unknown .capacityAdmissionBlocked binding.sessionEpoch true)

end Probe

section Traces

abbrev ProbeTrace := Trace ProbeOp ProbeOp.Ans

/-- The gate was open, and the session the authorised one. -/
def current (binding : VerifiedSession) : ProbeTrace := [⟨.gateState, .ok .opened⟩, ⟨.currentSessionEpoch, .ok binding.sessionEpoch⟩]

/-- The target was validated, and available. -/
def verified (binding : VerifiedSession) : ProbeTrace :=
  [⟨.revalidateTarget binding.target binding.cdcPort, .ok ()⟩, ⟨.volumeAvailable binding.target, .ok true⟩]

/-- All checks around a reading have held; `rest` is what follows them under the lease. -/
def leasedTrace (binding : VerifiedSession) (reading : Except ReleaseExc Reading) (rest : ProbeTrace) : ProbeTrace :=
  current binding ++ (⟨.durableSyncComplete, .ok true⟩ :: (verified binding ++ (current binding ++
    (⟨.query binding.target.volumeGuid, reading⟩ :: (verified binding ++ (current binding ++ rest))))))

def closedTrace (binding : VerifiedSession) (reading : Except ReleaseExc Reading) (rest : ProbeTrace) : ProbeTrace :=
  ⟨.acquire, .ok ()⟩ :: (leasedTrace binding reading rest ++ [⟨.leave, .ok ()⟩])

variable {α : Type} {binding : VerifiedSession} {t : ProbeTrace}

theorem does_ask {o : ProbeOp} {r : Except ReleaseExc o.Val} : Does (ask o).run t (.ret r) ↔ t = [⟨o, r⟩] := by
  show Does (.call o .ret) t (.ret r) ↔ _
  rw [does_call]
  constructor
  · rintro ⟨r', t', rfl, h⟩
    obtain ⟨rfl, rfl⟩ := does_ret.mp h
    rfl
  · rintro rfl
    exact ⟨r, [], rfl, .rest _⟩

theorem does_return {a : α} {r : Except ReleaseExc α} : Does (pure a : ProbeM α).run t (.ret r) ↔ t = [] ∧ Except.ok a = r := does_ret

theorem does_attempt {body : ProbeM α} {x : Option α} : Does (attempt body).run t (.ret (.ok x)) ↔
    (∃ a, Does body.run t (.ret (.ok a)) ∧ x = some a) ∨
      ∃ e, Does body.run t (.ret (.error e)) ∧ e ≠ .baseException ∧ x = none := by
  show Does (body.run >>= _) t (.ret (Except.ok x)) ↔ _
  rw [does_bind]
  constructor
  · rintro ⟨r, t₁, t₂, rfl, hbody, h⟩
    cases r with
    | ok a =>
      obtain ⟨rfl, hx⟩ := does_ret.mp h
      cases hx
      exact Or.inl ⟨a, by rwa [List.append_nil], rfl⟩
    | error e =>
      obtain ⟨rfl, hx⟩ := does_ret.mp h
      split at hx
      case isTrue => cases hx
      case isFalse he =>
        cases hx
        exact Or.inr ⟨e, by rwa [List.append_nil], he, rfl⟩
  · rintro (⟨a, hbody, rfl⟩ | ⟨e, hbody, he, rfl⟩)
    · exact ⟨.ok a, t, [], (List.append_nil t).symm, hbody, .rest _⟩
    · refine ⟨.error e, t, [], (List.append_nil t).symm, hbody, ?_⟩
      apply does_ret.mpr
      rw [if_neg he]
      exact ⟨rfl, rfl⟩

theorem sessionCurrent_true : Does (sessionCurrent binding).run t (.ret (.ok true)) ↔ t = current binding := by
  constructor
  · intro h
    obtain ⟨state, t₁, t₂, rfl, hstate, hrest⟩ := does_raises.mp h
    obtain rfl := does_ask.mp hstate
    split at hrest
    case isTrue => cases (does_return.mp hrest).2
    case isFalse hopened =>
      obtain ⟨epoch, t₃, t₄, rfl, hepoch, hlast⟩ := does_raises.mp hrest
      obtain rfl := does_ask.mp hepoch
      obtain ⟨rfl, heq⟩ := does_return.mp hlast
      obtain rfl : epoch = binding.sessionEpoch := by simpa using heq
      obtain rfl : state = .opened := by simpa using hopened
      rfl
  · rintro rfl
    apply does_raises.mpr
    refine ⟨.opened, [_], [_], rfl, does_ask.mpr rfl, ?_⟩
    rw [if_neg (by simp)]
    apply does_raises.mpr
    exact ⟨binding.sessionEpoch, [_], [], rfl, does_ask.mpr rfl, does_return.mpr ⟨rfl, by simp⟩⟩

theorem targetVerified_true : Does (targetVerified binding).run t (.ret (.ok true)) ↔ t = verified binding := by
  constructor
  · intro h
    obtain ⟨x, t₁, t₂, rfl, hattempt, hreturn⟩ := does_raises.mp h
    obtain ⟨rfl, hx⟩ := does_return.mp hreturn
    rcases does_attempt.mp hattempt with ⟨a, hbody, rfl⟩ | ⟨e, _, _, rfl⟩
    · obtain ⟨_, t₃, t₄, rfl, hrevalidate, hrest⟩ := does_raises.mp hbody
      obtain rfl := does_ask.mp hrevalidate
      obtain ⟨available, t₅, t₆, rfl, havailable, hlast⟩ := does_raises.mp hrest
      obtain rfl := does_ask.mp havailable
      cases available with
      | false => cases (does_ret.mp hlast).2
      | true =>
        obtain ⟨rfl, -⟩ := does_return.mp hlast
        rfl
    · cases hx
  · rintro rfl
    apply does_raises.mpr
    refine ⟨some (), verified binding, [], (List.append_nil _).symm, ?_, does_return.mpr ⟨rfl, rfl⟩⟩
    apply does_attempt.mpr
    refine Or.inl ⟨(), ?_, rfl⟩
    apply does_raises.mpr
    refine ⟨(), [_], [_], rfl, does_ask.mpr rfl, ?_⟩
    apply does_raises.mpr
    exact ⟨true, [_], [], rfl, does_ask.mpr rfl, does_return.mpr ⟨rfl, rfl⟩⟩

end Traces

section Closed

variable {binding : VerifiedSession} {t : ProbeTrace} {result : CapacityResult}

/-- The result does not block the release, or holds a number. -/
def Answers (result : CapacityResult) : Prop :=
  result.releaseBlocked = false ∨ result.usableFreeBytes ≠ none ∨ result.physicalFreeBytes ≠ none ∨
    result.estimatedSeconds ≠ none

theorem not_answers_unknown (reason : CapacityReason) (epoch : String) : ¬ Answers (unknown reason epoch true) := by
  simp [Answers, unknown]

/-- A check that must hold before an answer. -/
theorem does_check {m : ProbeM Bool} {reason : CapacityReason} {epoch : String} {rest : ProbeM CapacityResult}
    (h : Does (m >>= fun ok => if (!ok) = true then pure (unknown reason epoch true) else rest).run t (.ret (.ok result)))
    (hanswers : Answers result) :
    ∃ t₁ t₂, t = t₁ ++ t₂ ∧ Does m.run t₁ (.ret (.ok true)) ∧ Does rest.run t₂ (.ret (.ok result)) := by
  obtain ⟨ok, t₁, t₂, rfl, hm, hrest⟩ := does_raises.mp h
  cases ok with
  | true => exact ⟨t₁, t₂, rfl, hm, hrest⟩
  | false =>
    obtain ⟨rfl, heq⟩ := does_return.mp hrest
    cases heq
    exact absurd hanswers (not_answers_unknown _ _)

/-- What a reading with consistent counters gives. -/
theorem usableFree_eq {raw : Reading} {free : ℤ} (h : usableFree raw = some free) :
    ∃ total physical, raw = .freeSpace ⟨.int free, .int total, .int physical⟩ ∧ 0 ≤ free ∧ free ≤ total ∧ free ≤ physical ∧
      0 < total ∧ total ≤ uint64Max ∧ physical ≤ uint64Max := by
  unfold usableFree at h
  split at h
  case h_1 a total physical =>
    simp only [isCounter, Option.ite_none_left_eq_some, Bool.not_eq_true', decide_eq_false_iff_not, not_or, not_not] at h
    obtain ⟨⟨ha, htotal, hphysical⟩, hcounters, hmin⟩ := h
    obtain rfl : a = free := by
      have := Option.some.inj hmin
      omega
    exact ⟨total, physical, rfl, by omega⟩
  case h_2 => cases h

/-- The result of a reading. -/
structure Estimates (reading : Reading) (epoch observedAtUtc : String) (result : CapacityResult) (free total physical seconds : ℤ) :
    Prop where
  reading : reading = .freeSpace ⟨.int free, .int total, .int physical⟩
  counters : 0 ≤ free ∧ free ≤ total ∧ free ≤ physical ∧ 0 < total ∧ total ≤ uint64Max ∧ physical ≤ uint64Max
  result : result = {
    status := if (warningThresholdBytes : ℤ) ≤ free then .readyForNext16h else .actionRequired
    reason := if (warningThresholdBytes : ℤ) ≤ free then .capacityEstimateOnly else .insufficientEstimatedNext16h
    releaseBlocked := false, usableFreeBytes := some free, physicalFreeBytes := some physical, estimatedSeconds := some seconds,
    observedAtUtc := some observedAtUtc, sessionEpoch := epoch }
  exact : 0 ≤ seconds ∧ seconds * bytesPerSecond ≤ max 0 (free - reserveBytes) ∧
    max 0 (free - reserveBytes) < (seconds + 1) * bytesPerSecond

theorem classifyFreeSpace_estimates {raw : Reading} {epoch observedAtUtc : String}
    (h : classifyFreeSpace raw epoch observedAtUtc = some result) :
    ∃ free total physical seconds, Estimates raw epoch observedAtUtc result free total physical seconds := by
  obtain ⟨free, hfree, h⟩ := Option.bind_eq_some_iff.mp h
  obtain ⟨total, physical, rfl, hcounters⟩ := usableFree_eq hfree
  refine ⟨free, total, physical, max 0 (free - reserveBytes) / bytesPerSecond, rfl, hcounters, ?_, ?_⟩
  · rw [← Option.some.inj h]
    by_cases hready : (warningThresholdBytes : ℤ) ≤ free <;> simp [hready, physicalFree]
  · simp only [bytesPerSecond]
    omega

/-- An answer from a reading: the clock was asked, and the session looked at once more. -/
theorem does_observe {raw : Reading} (h : Does (observe binding raw).run t (.ret (.ok result))) (hanswers : Answers result) :
    ∃ observed, t = ⟨.clock, observed⟩ :: current binding ∧
      (result = unknown .capacityTimestampUnavailable binding.sessionEpoch false ∨
        ∃ observedAtUtc, observed = .ok (.aware (.ok observedAtUtc)) ∧
          classifyFreeSpace raw binding.sessionEpoch observedAtUtc = some result) := by
  obtain ⟨observed, t₁, t₂, rfl, hclock, hrest⟩ := does_raises.mp h
  obtain ⟨t₃, t₄, rfl, hcurrent, hlast⟩ := does_check hrest hanswers
  obtain rfl := sessionCurrent_true.mp hcurrent
  rcases does_attempt.mp hclock with ⟨value, hask, rfl⟩ | ⟨e, hask, -, rfl⟩
  · obtain rfl := does_ask.mp hask
    cases value with
    | aware isoformat =>
      obtain ⟨observedAtUtc, t₅, t₆, rfl, hiso, hresult⟩ := does_raises.mp hlast
      obtain ⟨rfl, rfl⟩ := does_ret.mp hiso
      split at hresult
      case h_1 => cases (does_ret.mp hresult).2
      case h_2 hclassify =>
        obtain ⟨rfl, heq⟩ := does_return.mp hresult
        cases heq
        exact ⟨_, by simp, Or.inr ⟨observedAtUtc, rfl, hclassify⟩⟩
    | other =>
      obtain ⟨rfl, heq⟩ := does_return.mp hlast
      cases heq
      exact ⟨.ok .other, by simp, Or.inl rfl⟩
  · obtain rfl := does_ask.mp hask
    obtain ⟨rfl, heq⟩ := does_return.mp hlast
    cases heq
    exact ⟨.error e, by simp, Or.inl rfl⟩

/-- Only the one call is made, and a reading that is kept is the one it has returned. -/
theorem does_readFreeSpace {raw : Option Reading} (h : Does (readFreeSpace binding).run t (.ret (.ok raw))) :
    ∃ reading, t = [⟨.query binding.target.volumeGuid, reading⟩] ∧ ∀ value, raw = some value → reading = .ok value := by
  rcases does_attempt.mp h with ⟨value, hbody, rfl⟩ | ⟨e, hbody, -, rfl⟩
  · obtain ⟨found, t₁, t₂, rfl, hask, hrest⟩ := does_raises.mp hbody
    obtain rfl := does_ask.mp hask
    split at hrest
    case isTrue => cases (does_ret.mp hrest).2
    case isFalse =>
      obtain ⟨rfl, heq⟩ := does_return.mp hrest
      cases heq
      refine ⟨.ok value, rfl, ?_⟩
      rintro _ ⟨⟩
      rfl
  · obtain ⟨r, t₁, t₂, rfl, hask, hrest⟩ := does_bind.mp hbody
    obtain rfl := does_ask.mp hask
    refine ⟨r, ?_, nofun⟩
    cases r with
    | error e' => rw [(does_ret.mp hrest).1, List.append_nil]
    | ok found =>
      have hnil : t₂ = [] := by
        by_cases hnone : (usableFree found).isNone = true
        · rw [ExceptT.bindCont, if_pos hnone] at hrest
          exact (does_ret.mp hrest).1
        · rw [ExceptT.bindCont, if_neg hnone] at hrest
          exact (does_ret.mp hrest).1
      rw [hnil, List.append_nil]

/-- An answer after a reading: the target was validated once more, and the session looked at. -/
theorem does_afterReading {raw : Option Reading} (h : Does (afterReading binding raw).run t (.ret (.ok result)))
    (hanswers : Answers result) : ∃ rest, t = verified binding ++ (current binding ++ rest) ∧
      (raw = none ∧ rest = [] ∧ result = unknown .capacityApiUnavailable binding.sessionEpoch false ∨
        ∃ value, raw = some value ∧ Does (observe binding value).run rest (.ret (.ok result))) := by
  obtain ⟨t₁, t₂, rfl, hverified, hrest⟩ := does_check h hanswers
  obtain rfl := targetVerified_true.mp hverified
  obtain ⟨t₃, t₄, rfl, hcurrent, hlast⟩ := does_check hrest hanswers
  obtain rfl := sessionCurrent_true.mp hcurrent
  refine ⟨t₄, rfl, ?_⟩
  cases raw with
  | none =>
    obtain ⟨rfl, heq⟩ := does_return.mp hlast
    cases heq
    exact Or.inl ⟨rfl, rfl, rfl⟩
  | some value => exact Or.inr ⟨value, rfl, hlast⟩

/-- An answer under the lease. -/
theorem does_probeLeased (h : Does (probeLeased binding).run t (.ret (.ok result))) (hanswers : Answers result) :
    ∃ reading rest, t = leasedTrace binding reading rest ∧
      (rest = [] ∧ result = unknown .capacityApiUnavailable binding.sessionEpoch false ∨
        ∃ value, reading = .ok value ∧ Does (observe binding value).run rest (.ret (.ok result))) := by
  obtain ⟨t₁, t₂, rfl, hadmitted, hafterAdmitted⟩ := does_check h hanswers
  obtain rfl := sessionCurrent_true.mp hadmitted
  obtain ⟨t₃, t₄, rfl, hsync, hafterSync⟩ := does_check hafterAdmitted hanswers
  obtain rfl := does_ask.mp hsync
  obtain ⟨t₅, t₆, rfl, hverified, hafterVerified⟩ := does_check hafterSync hanswers
  obtain rfl := targetVerified_true.mp hverified
  obtain ⟨t₇, t₈, rfl, hcurrent, hafterCurrent⟩ := does_check hafterVerified hanswers
  obtain rfl := sessionCurrent_true.mp hcurrent
  obtain ⟨raw, t₉, t₁₀, rfl, hread, hafterRead⟩ := does_raises.mp hafterCurrent
  obtain ⟨reading, rfl, hreading⟩ := does_readFreeSpace hread
  obtain ⟨rest, rfl, hlast⟩ := does_afterReading hafterRead hanswers
  refine ⟨reading, rest, rfl, ?_⟩
  rcases hlast with ⟨-, hrest, hresult⟩ | ⟨value, rfl, hobserve⟩
  · exact Or.inl ⟨hrest, hresult⟩
  · exact Or.inr ⟨value, hreading value rfl, hobserve⟩

/-- What is returned under a lease is returned by the body, between the lease's ends. -/
theorem does_ordinary {α : Type} {body : ProbeM α} {a : α} (h : Does (ordinary body).run t (.ret (.ok a))) :
    ∃ inner, t = ⟨.acquire, .ok ()⟩ :: (inner ++ [⟨.leave, .ok ()⟩]) ∧ Does body.run inner (.ret (.ok a)) := by
  obtain ⟨_, t₁, t₂, rfl, hacquire, hrest⟩ := does_raises.mp h
  obtain rfl := does_ask.mp hacquire
  obtain ⟨r, inner, t₃, rfl, hbody, hrest⟩ := does_bind.mp hrest
  obtain ⟨left, t₄, t₅, rfl, hleave, hlast⟩ := does_bind.mp hrest
  obtain rfl := does_ask.mp hleave
  obtain ⟨rfl, heq⟩ := does_ret.mp hlast
  cases left with
  | error e => cases heq
  | ok _ =>
    replace heq : r = .ok a := heq
    subst heq
    exact ⟨inner, rfl, hbody⟩

/-- A probe that does not block the release has seen the target validated and available before and after its one query, and
the gate open in the authorised session at every check; a probe that answers with numbers has them from a reading with
consistent counters between the two validations, and its estimate is the whole seconds that fit above the reserve. -/
theorem probeCapacity_failsClosed (binding : VerifiedSession) (t : ProbeTrace) (result : CapacityResult)
    (hrun : Does (probeCapacity binding).run t (.ret (.ok result))) :
    (result.releaseBlocked = false → ∃ reading rest, t = closedTrace binding reading rest ∧
      (rest = [] ∨ ∃ observed, rest = ⟨.clock, observed⟩ :: current binding)) ∧
    ((result.usableFreeBytes ≠ none ∨ result.physicalFreeBytes ≠ none ∨ result.estimatedSeconds ≠ none) →
      ∃ reading observedAtUtc free total physical seconds,
        t = closedTrace binding (.ok reading) (⟨.clock, .ok (.aware (.ok observedAtUtc))⟩ :: current binding) ∧
        Estimates reading binding.sessionEpoch observedAtUtc result free total physical seconds) := by
  have hclosed : Answers result → ∃ reading rest, t = closedTrace binding reading rest ∧
      (rest = [] ∧ result = unknown .capacityApiUnavailable binding.sessionEpoch false ∨
        ∃ value, reading = .ok value ∧ Does (observe binding value).run rest (.ret (.ok result))) := by
    intro hanswers
    rw [probeCapacity] at hrun
    split at hrun
    case isTrue =>
      obtain ⟨-, heq⟩ := does_return.mp hrun
      cases heq
      exact absurd hanswers (not_answers_unknown _ _)
    case isFalse =>
      obtain ⟨x, t₁, t₂, rfl, hattempt, hreturn⟩ := does_raises.mp hrun
      obtain ⟨rfl, heq⟩ := does_return.mp hreturn
      rcases does_attempt.mp hattempt with ⟨r, hordinary, rfl⟩ | ⟨e, -, -, rfl⟩
      · cases heq
        obtain ⟨inner, rfl, hinner⟩ := does_ordinary hordinary
        obtain ⟨reading, rest, rfl, hlast⟩ := does_probeLeased hinner hanswers
        exact ⟨reading, rest, by rw [List.append_nil, closedTrace], hlast⟩
      · cases heq
        exact absurd hanswers (not_answers_unknown _ _)
  constructor
  · intro hblocked
    obtain ⟨reading, rest, ht, ⟨hrest, -⟩ | ⟨value, -, hobserve⟩⟩ := hclosed (Or.inl hblocked)
    · exact ⟨reading, rest, ht, Or.inl hrest⟩
    · obtain ⟨observed, hrest, -⟩ := does_observe hobserve (Or.inl hblocked)
      exact ⟨reading, rest, ht, Or.inr ⟨observed, hrest⟩⟩
  · intro hnumbers
    obtain ⟨reading, rest, rfl, ⟨-, rfl⟩ | ⟨value, rfl, hobserve⟩⟩ := hclosed (Or.inr hnumbers)
    · simp [unknown] at hnumbers
    · obtain ⟨observed, rfl, rfl | ⟨observedAtUtc, rfl, hclassify⟩⟩ := does_observe hobserve (Or.inr hnumbers)
      · simp [unknown] at hnumbers
      · obtain ⟨free, total, physical, seconds, hestimates⟩ := classifyFreeSpace_estimates hclassify
        exact ⟨value, observedAtUtc, free, total, physical, seconds, rfl, hestimates⟩

/-- Where all checks hold, the probe answers. -/
theorem closedTrace_answers {reading : Reading} {observedAtUtc : String} (hshape : bindingShapeValid binding = true)
    (h : classifyFreeSpace reading binding.sessionEpoch observedAtUtc = some result) :
    Does (probeCapacity binding).run
      (closedTrace binding (.ok reading) (⟨.clock, .ok (.aware (.ok observedAtUtc))⟩ :: current binding)) (.ret (.ok result)) := by
  have hread : Does (readFreeSpace binding).run [⟨.query binding.target.volumeGuid, .ok reading⟩] (.ret (.ok (some reading))) := by
    apply does_attempt.mpr
    refine Or.inl ⟨reading, ?_, rfl⟩
    apply does_raises.mpr
    refine ⟨reading, [_], [], rfl, does_ask.mpr rfl, ?_⟩
    obtain ⟨free, hfree, -⟩ := Option.bind_eq_some_iff.mp h
    rw [if_neg (by simp [hfree])]
    exact .rest _
  have hobserve : Does (observe binding reading).run (⟨.clock, .ok (.aware (.ok observedAtUtc))⟩ :: current binding)
      (.ret (.ok result)) := by
    apply does_raises.mpr
    refine ⟨some (.aware (.ok observedAtUtc)), [_], current binding, rfl, ?_, ?_⟩
    · exact does_attempt.mpr (Or.inl ⟨_, does_ask.mpr rfl, rfl⟩)
    apply does_raises.mpr
    refine ⟨true, current binding, [], (List.append_nil _).symm, sessionCurrent_true.mpr rfl, ?_⟩
    apply does_raises.mpr
    refine ⟨observedAtUtc, [], [], rfl, .rest _, ?_⟩
    rw [h]
    exact .rest _
  have hleased : Does (probeLeased binding).run
      (leasedTrace binding (.ok reading) (⟨.clock, .ok (.aware (.ok observedAtUtc))⟩ :: current binding)) (.ret (.ok result)) := by
    apply does_raises.mpr
    refine ⟨true, current binding, _, rfl, sessionCurrent_true.mpr rfl, ?_⟩
    apply does_raises.mpr
    refine ⟨true, [_], _, rfl, does_ask.mpr rfl, ?_⟩
    apply does_raises.mpr
    refine ⟨true, verified binding, _, rfl, targetVerified_true.mpr rfl, ?_⟩
    apply does_raises.mpr
    refine ⟨true, current binding, _, rfl, sessionCurrent_true.mpr rfl, ?_⟩
    apply does_raises.mpr
    refine ⟨some reading, [_], _, rfl, hread, ?_⟩
    apply does_raises.mpr
    refine ⟨true, verified binding, _, rfl, targetVerified_true.mpr rfl, ?_⟩
    apply does_raises.mpr
    exact ⟨true, current binding, _, rfl, sessionCurrent_true.mpr rfl, hobserve⟩
  rw [probeCapacity, if_neg (by simp [hshape])]
  apply does_raises.mpr
  refine ⟨some result, _, [], (List.append_nil _).symm, ?_, .rest _⟩
  apply does_attempt.mpr
  refine Or.inl ⟨result, ?_, rfl⟩
  apply does_raises.mpr
  refine ⟨(), [_], _, rfl, does_ask.mpr rfl, ?_⟩
  apply does_bind.mpr
  refine ⟨.ok result, _, [_], rfl, hleased, ?_⟩
  apply does_bind.mpr
  exact ⟨.ok (), [_], [], rfl, does_ask.mpr rfl, .rest _⟩

section Sample

def sampleSession : VerifiedSession where
  target := ⟨"11111111-1111-4111-8111-111111111111", "E:\\", "\\\\?\\Volume\x7b11111111-1111-4111-8111-111111111111\x7d\\", 1, "disk",
    "eject", "usb"⟩
  cdcPort := "COM3"
  sessionEpoch := "epoch"

theorem probeCapacity_sample : ∃ t result, Does (probeCapacity sampleSession).run t (.ret (.ok result)) ∧
    result.usableFreeBytes = some 134249728 ∧ result.estimatedSeconds = some 1 ∧
    ∃ reading observedAtUtc free total physical seconds,
      t = closedTrace sampleSession (.ok reading) (⟨.clock, .ok (.aware (.ok observedAtUtc))⟩ :: current sampleSession) ∧
      Estimates reading "epoch" observedAtUtc result free total physical seconds := by
  have hclassified : ∃ result, classifyFreeSpace (.freeSpace ⟨.int 134249728, .int 31902400512, .int 134249728⟩)
      sampleSession.sessionEpoch "2026-10-03T12:00:00+00:00" = some result ∧
      result.usableFreeBytes = some 134249728 ∧ result.estimatedSeconds = some 1 := ⟨_, rfl, rfl, rfl⟩
  obtain ⟨result, hclassified, hfree, hseconds⟩ := hclassified
  have hrun := closedTrace_answers (by decide +kernel) hclassified
  exact ⟨_, result, hrun, hfree, hseconds, (probeCapacity_failsClosed sampleSession _ _ hrun).2 (Or.inl (by simp [hfree]))⟩

end Sample

end Closed

end M5DayLog.Capacity
