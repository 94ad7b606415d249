import M5DayLog.Lib.Fat
import M5DayLog.Lib.Lines
import M5DayLog.Recorder.Writer

/-! The RTC correction. `rtcCorrectionApply` sets the chip and the system clock and commits one pending record to the
non-volatile store; `rtcCorrectionFlushPendingEvent` brings that record into the event log and only then clears it. RAM does
not outlive a loss of power, so a function takes it and gives it back. -/

namespace M5DayLog.Rtc

open Bytes Lines

section Time

inductive RtcCorrectionResult
  | ok
  | invalidArgs
  | rangeError
  | busy
  | internalError
  deriving DecidableEq

def rtcIsLeap (year : ℤ) : Bool := year.tmod 4 = 0 && (year.tmod 100 ≠ 0 || year.tmod 400 = 0)

def rtcDaysInMonth (year month : ℤ) : ℤ :=
  if month < 1 ∨ month > 12 then 0
  else if month = 2 ∧ rtcIsLeap year then 29
  else [31, 28, 31, 30, 31, 30, 31, 31, 30, 31, 30, 31].getD (month - 1).toNat 0

/-- Days from the epoch, by years that begin in March. -/
def rtcDaysFromCivil (year month day : ℤ) : ℤ :=
  let year := if month ≤ 2 then year - 1 else year
  let era := (if year ≥ 0 then year else year - 399).tdiv 400
  let yoe := year - era * 400
  let doy := (153 * (if month > 2 then month - 3 else month + 9) + 2) / 5 + day - 1
  let doe := yoe * 365 + yoe / 4 - yoe / 100 + doy
  era * 146097 + doe - 719468

def rtcParseFixedDigits (p : Bytes) (count : ℕ) : Option ℤ :=
  if (p.take count).length = count ∧ (p.take count).all isDigit then some (decVal 0 (p.take count)) else none

/-- `struct tm`, with the year and the month as people count them. -/
structure Tm where
  year : ℤ
  mon : ℤ
  mday : ℤ
  hour : ℤ
  min : ℤ
  sec : ℤ
  wday : ℤ

/-- The broken-down time of an instant; the year must fit the `int` of `tm_year`. -/
def gmtimeR (epoch : ℤ) : Option Tm :=
  let days := epoch / 86400
  let rem := epoch % 86400
  let z := days + 719468
  let era := z / 146097
  let doe := z % 146097
  let yoe := (doe - doe / 1460 + doe / 36524 - doe / 146096) / 365
  let doy := doe - (365 * yoe + yoe / 4 - yoe / 100)
  let mp := (5 * doy + 2) / 153
  let mon := if mp < 10 then mp + 3 else mp - 9
  let year := yoe + era * 400 + if mon ≤ 2 then 1 else 0
  if year - 1900 < -2 ^ 31 ∨ 2 ^ 31 ≤ year - 1900 then none
  else some ⟨year, mon, doy - (153 * mp + 2) / 5 + 1, rem / 3600, rem % 3600 / 60, rem % 60, (days + 4) % 7⟩

/-- `%0wd`. -/
def fmtInt (w : ℕ) (n : ℤ) : Bytes :=
  let digits := dec n.natAbs
  if n < 0 then dash :: (List.replicate (w - 1 - digits.length) 0x30 ++ digits)
  else List.replicate (w - digits.length) 0x30 ++ digits

/-- `"%04d-%02d-%02dT%02d:%02d:%02d+00:00"`. -/
def fmtUtc (tm : Tm) : Bytes :=
  fmtInt 4 tm.year ++ dash :: fmtInt 2 tm.mon ++ dash :: fmtInt 2 tm.mday ++ 0x54 :: fmtInt 2 tm.hour ++
    colon :: fmtInt 2 tm.min ++ colon :: fmtInt 2 tm.sec ++ lit "+00:00"

/-- The offset at the end of a time, in seconds ahead of UTC. -/
def rtcParseOffset (rest : Bytes) : Option ℤ :=
  if rest = [0x5a] then some 0
  else if at' rest 0 ≠ 0x2b ∧ at' rest 0 ≠ dash then none
  else if rest.length ≠ 6 ∨ at' rest 3 ≠ colon then none
  else
    match rtcParseFixedDigits (rest.drop 1) 2, rtcParseFixedDigits (rest.drop 4) 2 with
    | some offHour, some offMinute =>
      if offHour > 14 ∨ offMinute > 59 ∨ (offHour = 14 ∧ offMinute ≠ 0) then none
      else some ((if at' rest 0 = 0x2b then 1 else -1) * (offHour * 3600 + offMinute * 60))
    | _, _ => none

/-- What follows the seconds, with a fraction of them taken away. -/
def rtcSkipFraction (rest : Bytes) : Option Bytes :=
  match rest with
  | 0x2e :: rest => if (rest.takeWhile isDigit) = [] then none else some (rest.dropWhile isDigit)
  | rest => some rest

/-- The normal form of an instant in the century that the chip's two-digit year stands for. -/
def rtcNormalize (epoch : ℤ) : Except RtcCorrectionResult (ℤ × Bytes) :=
  if epoch < 946684800 ∨ epoch > 4102444799 then .error .rangeError
  else
    match gmtimeR epoch with
    | none => .error .rangeError
    | some tm => if (fmtUtc tm).length ≠ 25 then .error .internalError else .ok (epoch, fmtUtc tm)

/-- The instant that a text denotes and its normal form. A pointer that is null is `none`. -/
def rtcParseIso8601 (text : Option Bytes) : Except RtcCorrectionResult (ℤ × Bytes) :=
  match text with
  | none => .error .invalidArgs
  | some text =>
    if text.length < 20 ∨ text.length > 40 ∨ at' text 4 ≠ dash ∨ at' text 7 ≠ dash ∨ at' text 10 ≠ 0x54 ∨
        at' text 13 ≠ colon ∨ at' text 16 ≠ colon then .error .invalidArgs
    else
      match rtcParseFixedDigits text 4, rtcParseFixedDigits (text.drop 5) 2, rtcParseFixedDigits (text.drop 8) 2,
        rtcParseFixedDigits (text.drop 11) 2, rtcParseFixedDigits (text.drop 14) 2, rtcParseFixedDigits (text.drop 17) 2 with
      | some year, some month, some day, some hour, some minute, some second =>
        if month < 1 ∨ month > 12 ∨ day < 1 ∨ day > rtcDaysInMonth year month ∨ hour > 23 ∨ minute > 59 ∨ second > 59 then
          .error .rangeError
        else
          match (rtcSkipFraction (text.drop 19)).bind rtcParseOffset with
          | none => .error .invalidArgs
          | some offset =>
            rtcNormalize (rtcDaysFromCivil year month day * 86400 + hour * 3600 + minute * 60 + second - offset)
      | _, _, _, _, _, _ => .error .invalidArgs

def rtcFormatEpoch (epoch : ℤ) : Bytes :=
  match gmtimeR epoch with
  | some tm => if (fmtUtc tm).length ≠ 25 then lit "1970-01-01T00:00:00+00:00" else fmtUtc tm
  | none => lit "1970-01-01T00:00:00+00:00"

def rtcToBcd (value : ℤ) : UInt8 := (value.toNat / 10 * 16 + value.toNat % 10).toUInt8

def rtcBcdValid (value : UInt8) : Bool := value &&& 0x0f ≤ 9 && value >>> 4 ≤ 9

def rtcFromBcd (value : UInt8) : ℤ := (value >>> 4).toNat * 10 + (value &&& 0x0f).toNat

end Time

section Store

/-- The pending record. A field stands for the text up to its terminator, or for all its bytes where it has none. -/
structure RtcPendingRecord where
  magic : ℕ
  version : ℕ
  correctionId : Bytes
  before : Bytes
  after : Bytes
  source : Bytes
  deriving DecidableEq

def rtcPendingMagic : ℕ := 0x52544331
def rtcPendingVersion : ℕ := 1
def rtcSourceSize : ℕ := 4

def RtcPendingRecord.valid (record : RtcPendingRecord) : Bool :=
  record.magic = rtcPendingMagic && record.version = rtcPendingVersion && isValidUuid record.correctionId &&
    record.before.length < iso8601StrLen && record.after.length < iso8601StrLen && record.source.length < rtcSourceSize &&
    record.source = lit "pc" && record.before.length = 25 && record.after.length = 25

/-- What stands under the key: a blob of the record's size, or of another. -/
inductive RtcBlob
  | record (r : RtcPendingRecord)
  | odd
  deriving DecidableEq

inductive NvsErr
  | notFound
  | other
  deriving DecidableEq

/-- The namespace, where it has been made, and the blob under its key. -/
abbrev Nvs := Option (Option RtcBlob)

/-- The event log: what it reads as, and the other contents that a loss of power may leave on the card. -/
structure LogFile where
  seen : Option Bytes
  older : List (Option Bytes)

namespace LogFile

def contents (f : LogFile) : List (Option Bytes) := f.seen :: f.older

def pick (f : LogFile) (n : ℕ) : Option Bytes := f.contents.getD n f.seen

/-- All of it is on the card. -/
def settle (seen : Option Bytes) : LogFile := ⟨seen, []⟩

/-- Another content that is not yet on the card. -/
def change (f : LogFile) (seen : Option Bytes) : LogFile := ⟨seen, f.contents⟩

/-- The first `n` bytes of `data` at the end; any less may be on the card. -/
def extend (f : LogFile) (data : Bytes) (n : ℕ) : LogFile :=
  match f.seen with
  | none => f
  | some b => ⟨some (b ++ data.take n), (List.range n).map (fun k => some (b ++ data.take k)) ++ f.contents⟩

end LogFile

/-- What the record of a run keeps: an accepted correction, and a change of the committed pending record with all contents
that the card may have then. -/
inductive RtcNote
  | accepted (record : RtcPendingRecord)
  | changed (old new : Nvs) (log : List (Option Bytes))
  deriving DecidableEq

/-- The chip's registers and the system clock as they have last been set; how they run on from there is left open. -/
structure RtcWorld where
  chip : ℕ → UInt8
  clock : Option ℤ
  nvs : Nvs
  kept : Nvs
  log : LogFile
  notes : List RtcNote

/-- What RAM holds. -/
structure RtcRam where
  lock : Bool := false
  bus : Bool := false
  dev : Bool := false
  hwReady : Bool := false
  pending : Bool := false
  record : RtcPendingRecord := ⟨0, 0, [], [], [], []⟩

inductive RtcOp
  | nvsInit
  | mutexCreate
  | nvsLock
  | nvsOpen (readwrite : Bool)
  | nvsGetBlob
  | nvsSetBlob (record : RtcPendingRecord)
  | nvsEraseKey
  | nvsCommit
  | newMasterBus
  | busAddDevice
  | busRmDevice
  | delMasterBus
  | transmit (msg : Bytes)
  | transmitReceive (reg n : ℕ)
  | gettimeofday
  | settimeofday (t : ℤ)
  | esp_random
  | fopenUpdate
  | fopenCreate
  | fgets (pos n : ℕ)
  | ftell (pos : ℕ)
  | ftruncate (n : ℕ)
  | fseek
  | fsync
  | fwrite (data : Bytes)
  | fflush
  | fclose
  deriving DecidableEq

/-- What `fgets` has read, and the stream's two flags after it. Nothing read stands for a null pointer. -/
structure Fgets where
  data : Bytes
  eof : Bool
  error : Bool

abbrev RtcOp.Ans : RtcOp → Type
  | nvsOpen _ | nvsEraseKey => Except NvsErr Unit
  | nvsGetBlob => Except NvsErr RtcBlob
  | transmitReceive _ _ => Option Bytes
  | gettimeofday => Option ℤ
  | esp_random => Fin 16 → UInt8
  | fopenUpdate => Except Fat.Errno Unit
  | fgets _ _ => Fgets
  | fwrite _ => ℕ
  | _ => Bool

/-- What is left open at an operation: a failure, of which `n` says how far it went, or what the hardware gives. -/
inductive RtcFault
  | fail (n : ℕ)
  | bytes (data : Bytes)
  | time (t : ℤ)

namespace RtcWorld

def note (w : RtcWorld) (new : Nvs) : RtcWorld :=
  if new = w.kept then w else { w with kept := new, notes := .changed w.kept new w.log.contents :: w.notes }

/-- The first bytes of a message go to the registers from its address on. -/
def write (w : RtcWorld) (msg : Bytes) (n : ℕ) : RtcWorld :=
  match msg with
  | [] => w
  | reg :: data =>
    { w with chip := fun i => if reg.toNat ≤ i ∧ i < reg.toNat + (data.take n).length then at' data (i - reg.toNat) else w.chip i }

def setLog (w : RtcWorld) (log : LogFile) : RtcWorld := { w with log }

/-- What `fgets` reads of the log from `pos` on into a buffer of `n` bytes. -/
def line (w : RtcWorld) (pos n : ℕ) : Bytes := piece (n - 1) ((w.log.seen.getD []).drop pos)

def calm (w : RtcWorld) : (o : RtcOp) → o.Ans × RtcWorld
  | .nvsOpen false => (if w.nvs = none then .error .notFound else .ok (), w)
  | .nvsOpen true => (.ok (), { w with nvs := some (w.nvs.getD none) })
  | .nvsGetBlob =>
    (match w.nvs with
      | some (some blob) => .ok blob
      | _ => .error .notFound, w)
  | .nvsSetBlob record => (true, { w with nvs := some (some (.record record)) })
  | .nvsEraseKey => (if w.nvs.getD none = none then .error .notFound else .ok (), { w with nvs := some none })
  | .nvsCommit => (true, w.note w.nvs)
  | .transmit msg => (true, w.write msg msg.length)
  | .transmitReceive reg n => (some ((List.range n).map fun i => w.chip (reg + i)), w)
  | .gettimeofday => (w.clock, w)
  | .settimeofday t => (true, { w with clock := some t })
  | .esp_random => (fun _ => 0, w)
  | .fopenUpdate => (if w.log.seen = none then .error .ENOENT else .ok (), w)
  | .fopenCreate => (true, w.setLog (w.log.change (some [])))
  | .fgets pos n =>
    (⟨w.line pos n, !(w.line pos n).contains newline && (w.line pos n).length < n - 1, false⟩, w)
  | .ftruncate n => (true, w.setLog (w.log.change (w.log.seen.map fun b => b.take n)))
  | .fsync | .fclose => (true, w.setLog (.settle w.log.seen))
  | .fwrite data => (data.length, w.setLog (w.log.extend data data.length))
  | .nvsInit | .mutexCreate | .nvsLock | .newMasterBus | .busAddDevice | .busRmDevice | .delMasterBus | .ftell _ | .fseek
  | .fflush => (true, w)

/-- A failing call may have had its effect, or a part of it. What a file that is closed has on the card stays so. -/
def failing (w : RtcWorld) (n : ℕ) : (o : RtcOp) → o.Ans × RtcWorld
  | .nvsOpen readwrite => (.error .other, if n = 0 then w else (w.calm (.nvsOpen readwrite)).2)
  | .nvsGetBlob => (.error .other, w)
  | .nvsSetBlob record => (false, if n = 0 then w else (w.calm (.nvsSetBlob record)).2)
  | .nvsEraseKey => (.error .other, if n = 0 then w else (w.calm .nvsEraseKey).2)
  | .nvsCommit => (false, if n = 0 then w else (w.calm .nvsCommit).2)
  | .transmit msg => (false, w.write msg n)
  | .transmitReceive _ _ => (none, w)
  | .gettimeofday => (none, w)
  | .settimeofday _ => (false, w)
  | .esp_random => (fun _ => 0, w)
  | .fopenUpdate => (.error (.other n), w)
  | .fopenCreate => (false, if n = 0 then w else (w.calm .fopenCreate).2)
  | .fgets pos k => (⟨(w.line pos k).take (min n ((w.line pos k).length - 1)), false, true⟩, w)
  | .ftruncate k => (false, if n = 0 then w else (w.calm (.ftruncate k)).2)
  | .fsync => (false, w)
  | .fclose => (false, w.setLog (.settle (w.log.pick n)))
  | .fwrite data => (min n (data.length - 1), w.setLog (w.log.extend data (min n (data.length - 1))))
  | .nvsInit | .mutexCreate | .nvsLock | .newMasterBus | .busAddDevice | .busRmDevice | .delMasterBus | .ftell _ | .fseek
  | .fflush => (false, w)

/-- What the chip, the clock and the random generator give is not up to the program. -/
def act (w : RtcWorld) : (o : RtcOp) → Option RtcFault → o.Ans × RtcWorld
  | .transmitReceive _ n, some (.bytes data) => (some ((data ++ List.replicate n 0).take n), w)
  | .gettimeofday, some (.time t) => (some t, w)
  | .esp_random, some (.bytes data) => (fun i => at' data i, w)
  | o, some (.fail n) => w.failing n o
  | o, _ => w.calm o

/-- Power is lost: each store keeps what was on it for good, or what was on the way there. -/
def lose (w : RtcWorld) (n : ℕ) : RtcWorld :=
  let w := { w with clock := none, log := .settle (w.log.pick (n / 2)) }
  let w := if n % 2 = 0 then w.note w.nvs else w
  { w with nvs := w.kept }

end RtcWorld

def rtcDevice : Device RtcOp RtcOp.Ans RtcWorld RtcFault where
  act o f w := w.act o f
  cut o n w := (w.calm o).2.lose n

abbrev RtcProg := Prog RtcOp RtcOp.Ans

end Store
section Chip

open RtcOp

def rtcHwInit (ram : RtcRam) : RtcProg (Bool × RtcRam) := do
  if ram.hwReady then return (true, ram)
  else if !(← .op newMasterBus) then return (false, ram)
  else if !(← .op busAddDevice) then
    let _ ← @Prog.op RtcOp RtcOp.Ans delMasterBus
    return (false, { ram with bus := false })
  else return (true, { ram with bus := true, dev := true, hwReady := true })

def rtcHwDeinit (ram : RtcRam) : RtcProg (Bool × RtcRam) := do
  let removed ← (if ram.dev then .op busRmDevice else pure true : RtcProg Bool)
  let ram := if removed then { ram with dev := false } else ram
  let deleted ← (if ram.bus && !ram.dev then .op delMasterBus else pure true : RtcProg Bool)
  let ram := if deleted && !ram.dev then { ram with bus := false } else ram
  return (removed && deleted, if !ram.dev && !ram.bus then { ram with hwReady := false } else ram)

/-- The chip is stopped, set and started again; it is started in any case once it has been stopped. -/
def rtcHwWriteEpoch (epoch : ℤ) : RtcProg Bool := do
  match gmtimeR epoch with
  | none => return false
  | some tm =>
    if tm.year < 2000 ∨ tm.year > 2099 then return false
    else if !(← .op (transmit [0x00, 0x20])) then return false
    else if !(← .op (transmit [0x02, rtcToBcd tm.sec, rtcToBcd tm.min, rtcToBcd tm.hour, rtcToBcd tm.mday, rtcToBcd tm.wday,
        rtcToBcd tm.mon, rtcToBcd (tm.year.tmod 100)])) then
      let _ ← @Prog.op RtcOp RtcOp.Ans (transmit [0x00, 0x00])
      return false
    else .op (transmit [0x00, 0x00])

/-- What the seven registers say, unless the chip has lost its time or they are no time. -/
def rtcEpochOf (data : Bytes) : Option ℤ :=
  if at' data 0 &&& 0x80 ≠ 0 ∨ at' data 5 &&& 0x80 ≠ 0 then none
  else
    let sec := at' data 0 &&& 0x7f
    let min := at' data 1 &&& 0x7f
    let hour := at' data 2 &&& 0x3f
    let day := at' data 3 &&& 0x3f
    let month := at' data 5 &&& 0x1f
    let year := at' data 6
    if !([sec, min, hour, day, month, year].all rtcBcdValid) then none
    else
      let second := rtcFromBcd sec
      let minute := rtcFromBcd min
      let hour := rtcFromBcd hour
      let day := rtcFromBcd day
      let month := rtcFromBcd month
      let year := 2000 + rtcFromBcd year
      if month < 1 ∨ month > 12 ∨ day < 1 ∨ day > rtcDaysInMonth year month ∨ hour > 23 ∨ minute > 59 ∨ second > 59 then none
      else some (rtcDaysFromCivil year month day * 86400 + hour * 3600 + minute * 60 + second)

def rtcHwReadEpoch : RtcProg (Option ℤ) := do
  return (← .op (transmitReceive 0x02 7)).bind rtcEpochOf

/-- The system clock takes up the chip's time, where the chip has one. -/
def rtcSetSystemClock : RtcProg Unit := do
  match ← rtcHwReadEpoch with
  | some epoch =>
    let _ ← @Prog.op RtcOp RtcOp.Ans (settimeofday epoch)
  | none => return ()

/-- The bus is not left standing, whatever has failed. -/
def rtcSyncSystemClockBestEffort (ram : RtcRam) : RtcProg RtcRam := do
  let (ready, ram) ← rtcHwInit ram
  if ready then rtcSetSystemClock
  return (← rtcHwDeinit ram).2

end Chip

section Pending

open RtcOp

/-- RAM takes up what the store holds; a blob that is no valid record is an error. -/
def rtcLoadPending (ram : RtcRam) : RtcProg (Bool × RtcRam) := do
  let absent : RtcRam := { ram with pending := false, record := ⟨0, 0, [], [], [], []⟩ }
  match ← .op (nvsOpen false) with
  | .error .notFound => return (true, absent)
  | .error .other => return (false, ram)
  | .ok _ =>
    match ← .op nvsGetBlob with
    | .error .notFound => return (true, absent)
    | .ok (.record record) => if record.valid then return (true, { ram with pending := true, record }) else return (false, ram)
    | _ => return (false, ram)

def rtcCorrectionInit (ram : RtcRam) : RtcProg (Bool × RtcRam) := do
  if !(← .op nvsInit) then return (false, ram)
  else
    let lock ← (if ram.lock then pure true else .op mutexCreate : RtcProg Bool)
    let ram := { ram with lock }
    if !lock then return (false, ram)
    else if !(← .op nvsLock) then return (false, ram)
    else rtcLoadPending ram

/-- The time before a correction. A chip without a time must still be correctable. -/
def rtcEpochBefore : RtcProg ℤ := do
  match ← rtcHwReadEpoch with
  | some epoch => return epoch
  | none => return (← .op gettimeofday).getD 0

def rtcCommitPending (candidate : RtcPendingRecord) : RtcProg Bool := do
  if !(← .op nvsLock) then return false
  else
    match ← .op (nvsOpen true) with
    | .error _ => return false
    | .ok _ =>
      if !(← .op (nvsSetBlob candidate)) then return false
      else .op nvsCommit

/-- The one change of time. It begins only once the request has been checked in full; from the writing of the chip on a
failure leaves the outcome open. -/
def rtcCorrectionApply (ram : RtcRam) (requestedTime : Option Bytes) (normalizedSize : Option ℕ) :
    RtcProg (RtcCorrectionResult × Bytes × RtcRam) := do
  if normalizedSize.all fun size => size < iso8601StrLen then return (.invalidArgs, [], ram)
  else
    match rtcParseIso8601 requestedTime with
    | .error e => return (e, [], ram)
    | .ok (requested, normalized) =>
      if !ram.lock then return (.internalError, [], ram)
      else if ram.pending then return (.busy, [], ram)
      else
        let (ready, ram) ← rtcHwInit ram
        if !ready then return (.internalError, [], ram)
        else
          let before ← rtcEpochBefore
          match deviceIdentityFormatUuidV4 (← .op esp_random) with
          | none => return (.internalError, [], ram)
          | some correctionId =>
            let candidate : RtcPendingRecord :=
              ⟨rtcPendingMagic, rtcPendingVersion, correctionId, rtcFormatEpoch before, normalized, lit "pc"⟩
            if !(← rtcHwWriteEpoch requested) then return (.internalError, [], ram)
            else if !(← .op (settimeofday requested)) then return (.internalError, [], ram)
            else if !(← rtcCommitPending candidate) then return (.internalError, [], ram)
            else return (.ok, normalized, { ram with pending := true, record := candidate })

def rtcCorrectionClearPendingNvs : RtcProg Bool := do
  if !(← .op nvsLock) then return false
  else
    match ← .op (nvsOpen true) with
    | .error _ => return false
    | .ok _ =>
      match ← .op nvsEraseKey with
      | .error .other => return false
      | _ => .op nvsCommit

end Pending

section Recovery

open RtcOp

/-- A JSON document as the log's reader sees it: an object, with the text of each member that is one, or something else. -/
inductive CJson
  | object (members : List (Bytes × Option Bytes))
  | other

/-- `cJSON_GetObjectItemCaseSensitive`, where the item is a string. -/
def CJson.text (members : List (Bytes × Option Bytes)) (key : Bytes) : Option Bytes :=
  (members.find? fun m => m.1 = key).bind (·.2)

variable (parseWithOpts : Bytes → Option CJson)

/-- Whether a line is the record's event. A line that is no object, and an event under the record's id that says something
else, are errors. -/
def classifyCompleteEventLine (line : Bytes) (event : RtcPendingRecord) : Option Bool :=
  match parseWithOpts line with
  | some (.object members) =>
    if CJson.text members (lit "correctionId") = some event.correctionId ∧
        CJson.text members (lit "event") = some (lit "rtc_correction") then
      if CJson.text members (lit "before") ≠ some event.before ∨ CJson.text members (lit "after") ≠ some event.after ∨
          CJson.text members (lit "source") ≠ some event.source then none
      else some true
    else some false
  | _ => none

def rtcEventLineMax : ℕ := 512

/-- The text of a buffer up to its first zero. -/
def cstr (b : Bytes) : Bytes := b.takeWhile (· ≠ 0)

def eventText (event : RtcPendingRecord) : Bytes :=
  lit "\x7b\"event\":\"rtc_correction\",\"correctionId\":\"" ++ event.correctionId ++ lit "\",\"before\":\"" ++ event.before ++
    lit "\",\"after\":\"" ++ event.after ++ lit "\",\"source\":\"pc\"\x7d"

/-- Close the log and report a failure. -/
def failClosed {α : Type} : RtcProg (Option α) := do
  let _ ← @Prog.op RtcOp RtcOp.Ans fclose
  return none

/-- Read the log line by line and cut off a torn tail. The answer tells whether the event has been found; a failure has
closed the log. -/
def scanEvents (event : RtcPendingRecord) : ℕ → (lastComplete : ℕ) → (found : Bool) → RtcProg (Option Bool)
  | 0, _, _ => failClosed
  | fuel + 1, lastComplete, found => do
    let r ← .op (fgets lastComplete rtcEventLineMax)
    let line := cstr r.data
    if r.data = [] then
      if r.error then failClosed else return some found
    else if line = [] then failClosed
    else if line.getLast? ≠ some newline then
      if !r.eof then failClosed
      else if !(← .op (ftruncate lastComplete)) then failClosed
      else if !(← .op fseek) then failClosed
      else if !(← .op fsync) then failClosed
      else return some found
    else
      match classifyCompleteEventLine parseWithOpts line event with
      | none => failClosed
      | some isMatch =>
        if !(← .op (ftell (lastComplete + r.data.length))) then failClosed
        else scanEvents event fuel (lastComplete + r.data.length) (found || isMatch)

/-- The event goes to the end of the log and on to the card. -/
def appendEvent (event : RtcPendingRecord) : RtcProg Bool := do
  let out := eventText event ++ [newline]
  if !(← .op fseek) then return false
  else if out.length ≥ rtcEventLineMax then return false
  else if (← .op (fwrite out)) ≠ out.length then return false
  else if !(← .op fflush) then return false
  else .op fsync

/-- `"r+b"`, and `"w+b"` where there is no log yet. -/
def openEvents : RtcProg Bool := do
  match ← .op fopenUpdate with
  | .ok _ => return true
  | .error .ENOENT => .op fopenCreate
  | .error _ => return false

def rtcCorrectionRecoverEvent (event : RtcPendingRecord) (clearPending : RtcProg Bool) (fuel : ℕ) : RtcProg Bool := do
  if event.source ≠ lit "pc" then return false
  else
    let opened ← openEvents
    if !opened then return false
    else
      match ← scanEvents parseWithOpts event fuel 0 false with
      | none => return false
      | some found =>
        let appended ← (if found then pure true else appendEvent event : RtcProg Bool)
        if !appended then
          let _ ← @Prog.op RtcOp RtcOp.Ans fclose
          return false
        else if !(← .op fclose) then return false
        else clearPending

def rtcCorrectionFlushPendingEvent (ram : RtcRam) (eventsPath : Option Bytes) (fuel : ℕ) : RtcProg (Bool × RtcRam) := do
  if eventsPath.all (· = []) ∨ !ram.lock then return (false, ram)
  else
    let ram ← rtcSyncSystemClockBestEffort ram
    if !ram.pending then return (true, ram)
    else if ← rtcCorrectionRecoverEvent parseWithOpts ram.record rtcCorrectionClearPendingNvs fuel then
      return (true, { ram with pending := false, record := ⟨0, 0, [], [], [], []⟩ })
    else return (false, ram)

end Recovery

end M5DayLog.Rtc
