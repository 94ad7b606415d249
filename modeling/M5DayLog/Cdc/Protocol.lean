import M5DayLog.Cdc.Utf8
import M5DayLog.Cdc.Worker
import M5DayLog.Device.Storage
import M5DayLog.Lib.Lines
import M5DayLog.Lib.Trace
import M5DayLog.Recorder.DeviceIdentity
import M5DayLog.Recorder.RtcAudit
import M5DayLog.Recorder.State

/-! The application protocol of the serial channel: one request line in, one reply out. The line is parsed as JSON by a
library whose parser is a parameter here; the commands ask the callbacks of the configuration, and every reply is printed
into one buffer. -/

namespace M5DayLog.UsbCdcProtocol

open Bytes Lines Prog Rtc

section Requests

/-- What the parser returns, as a request is read: a string as a C string, an object with its members in their order. Of
anything else only its kind is looked at. -/
inductive CJsonItem
  | string (valuestring : Bytes)
  | object (members : List (Bytes × CJsonItem))
  | other

/-- `cJSON_GetObjectItemCaseSensitive`: the first member of that name. -/
def getObjectItem (name : Bytes) : List (Bytes × CJsonItem) → Option CJsonItem
  | [] => none
  | (key, item) :: members => if key = name then some item else getObjectItem name members

def CJsonItem.valuestring : CJsonItem → Option Bytes
  | string s => some s
  | _ => none

def usbCdcProtocolMaxIdBytes : ℕ := 64
def usbCdcProtocolTimeBytes : ℕ := 32
def usbCdcProtocolMajor : ℕ := 1
def cdcResponseBytes : ℕ := 768

def errorInvalidJson : Bytes := lit "INVALID_JSON"
def errorInvalidRequest : Bytes := lit "INVALID_REQUEST"
def errorRequestTooLarge : Bytes := lit "REQUEST_TOO_LARGE"
def errorUnknownCommand : Bytes := lit "UNKNOWN_COMMAND"
def errorInvalidArgs : Bytes := lit "INVALID_ARGS"
def errorRangeError : Bytes := lit "RANGE_ERROR"
def errorBusy : Bytes := lit "BUSY"
def errorInternalError : Bytes := lit "INTERNAL_ERROR"

def cdcIdValid (id : Bytes) : Bool :=
  id.length ≠ 0 && id.length ≤ usbCdcProtocolMaxIdBytes && id.all attemptIdChar

end Requests

section Replies

/-- The first member of a reply, with the comma after it. -/
def replyHead : Option Bytes → Bytes
  | some id => lit "\x7b\"id\":\"" ++ id ++ lit "\","
  | none => lit "\x7b\"id\":null,"

def cdcErrorResponse (id : Option Bytes) (code : Bytes) : Bytes :=
  replyHead (id.filter cdcIdValid) ++
    (lit "\"ok\":false,\"error\":\x7b\"code\":\"" ++ code ++ lit "\",\"message\":\"" ++ code ++ lit "\"\x7d\x7d")

/-- `"{\"id\":\"%s\",\"ok\":true,\"result\":{"`, what the command reports, and the two closing braces. -/
def okResponse (id result : Bytes) : Bytes :=
  replyHead (some id) ++ (lit "\"ok\":true,\"result\":\x7b" ++ result ++ lit "\x7d\x7d")

def releaseResponse (id attempt : Bytes) : Bytes :=
  okResponse id (lit "\"releaseAttemptId\":\"" ++ attempt ++ lit "\",\"accepted\":true")

def pongResponse (id : Bytes) : Bytes := okResponse id (lit "\"pong\":true")

def infoResponse (id deviceId : Bytes) : Bytes :=
  okResponse id (lit "\"protocolMajor\":" ++ dec usbCdcProtocolMajor ++ lit ",\"schemaVersion\":" ++ dec metadataSchemaVersion ++
    lit ",\"deviceId\":\"" ++ deviceId ++ lit "\",\"model\":\"" ++ recorderModel ++ lit "\",\"firmwareVersion\":\"" ++
    firmwareVersion ++ lit "\",\"audioCapabilities\":\x7b\"sampleRate\":" ++ dec sampleRateHz ++ lit ",\"bitDepth\":" ++
    dec bitsPerSample ++ lit ",\"channels\":" ++ dec channelCount ++ lit ",\"format\":\"pcm\"\x7d")

/-- What the status callback fills in. -/
structure UsbCdcProtocolStatus where
  state : Option Bytes
  reason : Option Bytes
  batteryMv : Int32
  batteryValid : Bool
  rtcCorrectionPending : Bool

def statusResponse (id state reason : Bytes) (status : UsbCdcProtocolStatus) : Bytes :=
  okResponse id (lit "\"state\":\"" ++ state ++ lit "\",\"reason\":\"" ++ reason ++ lit "\",\"batteryMv\":" ++
    (if status.batteryValid then fmtInt 0 status.batteryMv.toInt else lit "null") ++ lit ",\"rtcCorrectionPending\":" ++
    (if status.rtcCorrectionPending then lit "true" else lit "false"))

def timeResponse (id normalized : Bytes) : Bytes :=
  okResponse id (lit "\"time\":\"" ++ normalized ++ lit "\",\"eventPending\":true")

end Replies

section Callbacks

inductive UsbCdcReleaseResult
  | accepted
  | invalidArgs
  | wrongState
  | conflict
  | internalError
  deriving DecidableEq

inductive UsbCdcSetTimeResult
  | ok
  | invalidArgs
  | rangeError
  | busy
  | internalError
  deriving DecidableEq

def cdcReleaseErrorCode : UsbCdcReleaseResult → Bytes
  | .invalidArgs => errorInvalidArgs
  | .wrongState | .conflict => errorBusy
  | _ => errorInternalError

def cdcSetTimeErrorCode : UsbCdcSetTimeResult → Bytes
  | .invalidArgs => errorInvalidArgs
  | .rangeError => errorRangeError
  | .busy => errorBusy
  | _ => errorInternalError

/-- The callbacks that a command may ask. -/
inductive CdcCall
  | statusProvider
  | setTime (requestedTime : Bytes) (normalizedSize : ℕ)
  | releaseAccept (releaseAttemptId : Bytes)

/-- The status, where the callback gives one; the result of the setting of the time with the text left in its buffer. -/
abbrev CdcCall.Ans : CdcCall → Type
  | statusProvider => Option UsbCdcProtocolStatus
  | setTime _ _ => UsbCdcSetTimeResult × Bytes
  | releaseAccept _ => UsbCdcReleaseResult

abbrev CallProg := Prog CdcCall CdcCall.Ans

/-- Which of the callbacks there are, and the identity of the device. -/
structure UsbCdcProtocolConfig where
  deviceId : Option Bytes
  statusProvider : Bool
  setTime : Bool
  releaseAccept : Bool

structure UsbCdcProtocolEffect where
  releaseAccepted : Bool := false
  releaseAttemptId : Bytes := []
  deriving DecidableEq

/-- What the call returns, what it has printed into the buffer, and the effect it reports. -/
structure ProcessLine where
  returned : ℤ
  out : Bytes
  effect : UsbCdcProtocolEffect
  deriving DecidableEq

end Callbacks

section Commands

variable (parse : Bytes → Option CJsonItem) (config : Option UsbCdcProtocolConfig)

/-- The text that is printed for a request, in full, and the effect. -/
abbrev Printed := Bytes × UsbCdcProtocolEffect

def printed (text : Bytes) : Printed := (text, {})

def processReleaseStorage (id : Bytes) (args : List (Bytes × CJsonItem)) : CallProg Printed :=
  match (getObjectItem (lit "releaseAttemptId") args).bind CJsonItem.valuestring with
  | none => return printed (cdcErrorResponse (some id) errorInvalidArgs)
  | some attempt =>
    if args.length ≠ 1 || !cdcIdValid attempt then return printed (cdcErrorResponse (some id) errorInvalidArgs)
    else if config.all fun c => !c.releaseAccept then return printed (cdcErrorResponse (some id) errorInternalError)
    else do
      let result ← .op (CdcCall.releaseAccept attempt)
      if result ≠ .accepted then return printed (cdcErrorResponse (some id) (cdcReleaseErrorCode result))
      else return (releaseResponse id attempt, ⟨true, attempt⟩)

def processPing (id : Bytes) (args : List (Bytes × CJsonItem)) : Bytes :=
  if args ≠ [] then cdcErrorResponse (some id) errorInvalidArgs else pongResponse id

def processGetInfo (id : Bytes) (args : List (Bytes × CJsonItem)) : Bytes :=
  if args ≠ [] then cdcErrorResponse (some id) errorInvalidArgs
  else
    match config.bind (·.deviceId) with
    | none => cdcErrorResponse (some id) errorInternalError
    | some deviceId => infoResponse id deviceId

def processGetStatus (id : Bytes) (args : List (Bytes × CJsonItem)) : CallProg Printed :=
  if args ≠ [] then return printed (cdcErrorResponse (some id) errorInvalidArgs)
  else if config.all fun c => !c.statusProvider then return printed (cdcErrorResponse (some id) errorInternalError)
  else do
    let status ← .op CdcCall.statusProvider
    match status with
    | none => return printed (cdcErrorResponse (some id) errorInternalError)
    | some status =>
      match status.state, status.reason with
      | some state, some reason => return printed (statusResponse id state reason status)
      | _, _ => return printed (cdcErrorResponse (some id) errorInternalError)

def processSetTime (id : Bytes) (args : List (Bytes × CJsonItem)) : CallProg Printed :=
  match (getObjectItem (lit "time") args).bind CJsonItem.valuestring with
  | none => return printed (cdcErrorResponse (some id) errorInvalidArgs)
  | some time =>
    if args.length ≠ 1 then return printed (cdcErrorResponse (some id) errorInvalidArgs)
    else if config.all fun c => !c.setTime then return printed (cdcErrorResponse (some id) errorInternalError)
    else do
      let answer ← .op (CdcCall.setTime time usbCdcProtocolTimeBytes)
      if answer.1 ≠ .ok then return printed (cdcErrorResponse (some id) (cdcSetTimeErrorCode answer.1))
      else return printed (timeResponse id answer.2)

/-- The request with a valid `id`. -/
def processRequest (id : Bytes) (members : List (Bytes × CJsonItem)) : CallProg Printed :=
  match (getObjectItem (lit "cmd") members).bind CJsonItem.valuestring, getObjectItem (lit "args") members with
  | some cmd, some (.object args) =>
    if cmd = lit "RELEASE_STORAGE" then processReleaseStorage config id args
    else if cmd = lit "PING" then return printed (processPing id args)
    else if cmd = lit "GET_INFO" then return printed (processGetInfo config id args)
    else if cmd = lit "GET_STATUS" then processGetStatus config id args
    else if cmd = lit "SET_TIME" then processSetTime config id args
    else return printed (cdcErrorResponse (some id) errorUnknownCommand)
  | _, _ => return printed (cdcErrorResponse (some id) errorInvalidRequest)

/-- `snprintf` of the whole text into the buffer. -/
def snprintf (outSize : ℕ) (p : Printed) : ProcessLine := ⟨p.1.length, p.1.take (outSize - 1), p.2⟩

/-- The end of every request that has been parsed: a text that the buffer does not hold is replaced, and the effect is gone
with it. -/
def processDone (outSize : ℕ) (id : Option Bytes) (p : Printed) : ProcessLine :=
  if p.1.length ≥ outSize then snprintf outSize (printed (cdcErrorResponse id errorInternalError)) else snprintf outSize p

/-- `usb_cdc_protocol_process_line`. -/
def usbCdcProtocolProcessLine (outSize : ℕ) (line : Bytes) : CallProg ProcessLine :=
  if outSize = 0 then return ⟨-1, [], {}⟩
  else if line.length > usbCdcProtocolMaxLineBytes then
    return snprintf outSize (printed (cdcErrorResponse none errorRequestTooLarge))
  else if !cdcUtf8Valid line then return snprintf outSize (printed (cdcErrorResponse none errorInvalidJson))
  else
    match parse line with
    | none => return snprintf outSize (printed (cdcErrorResponse none errorInvalidJson))
    | some (.object members) =>
      match (getObjectItem (lit "id") members).bind CJsonItem.valuestring with
      | none => return processDone outSize none (printed (cdcErrorResponse none errorInvalidRequest))
      | some id =>
        if !cdcIdValid id then return processDone outSize none (printed (cdcErrorResponse none errorInvalidRequest))
        else do
          let p ← processRequest config id members
          return processDone outSize (some id) p
    | some _ => return processDone outSize none (printed (cdcErrorResponse none errorInvalidRequest))

end Commands

section Production

/-- The state the callbacks read under their lock, where they get it: the recorder's state, the reason of it, and the last
battery voltage. -/
def recorderCdcStatus (snapshot : Option (RecorderState × RecorderReason × Int32)) (pending : Bool) :
    Option UsbCdcProtocolStatus :=
  snapshot.map fun (state, reason, batteryMv) =>
    ⟨some (recorderStateStr state), some (recorderReasonStr reason), batteryMv, 0 < batteryMv, pending⟩

def recorderCdcSetTime : RtcCorrectionResult → UsbCdcSetTimeResult
  | .ok => .ok
  | .invalidArgs => .invalidArgs
  | .rangeError => .rangeError
  | .busy => .busy
  | .internalError => .internalError

def recorderCdcReleaseAccept : ReleaseStorageResult → UsbCdcReleaseResult
  | .accepted => .accepted
  | .invalidArgs => .invalidArgs
  | .wrongState => .wrongState
  | .conflict => .conflict

/-- The configuration the recorder starts the channel with. -/
def recorderCdcConfig (deviceId : Bytes) : UsbCdcProtocolConfig := ⟨some deviceId, true, true, true⟩

/-- The answer is one that the recorder's callback can give, whatever the platform under it answers. -/
def Produced : (c : CdcCall) → c.Ans → Prop
  | .statusProvider, r => ∃ snapshot pending, r = recorderCdcStatus snapshot pending
  | .setTime requestedTime normalizedSize, r => ∃ ram t out,
      Does (Rtc.rtcCorrectionApply ram (some requestedTime) (some normalizedSize)) t (.ret out) ∧
        r = (recorderCdcSetTime out.1, out.2.1)
  | .releaseAccept attempt, r => ∃ t out,
      Does (usbMscOwnershipAcceptReleaseStorage attempt) t (.ret out) ∧ r = recorderCdcReleaseAccept out

/-- A time that has been set is the normal form of the time that was asked for. -/
theorem rtcCorrectionApply_normalizes {ram : RtcRam} {requestedTime : Option Bytes} {size : Option ℕ}
    {t : Trace RtcOp RtcOp.Ans} {out : RtcCorrectionResult × Bytes × RtcRam}
    (hrun : Does (Rtc.rtcCorrectionApply ram requestedTime size) t (.ret out)) (hok : out.1 = .ok) :
    ∃ epoch, rtcParseIso8601 requestedTime = .ok (epoch, out.2.1) := by
  suffices h : Always (fun _ => True) (Rtc.rtcCorrectionApply ram requestedTime size)
      (fun out _ => out.1 = .ok → ∃ epoch, rtcParseIso8601 requestedTime = .ok (epoch, out.2.1)) [] from
    (hrun.sat h trivial).2 out rfl hok
  unfold Rtc.rtcCorrectionApply
  split
  · exact fun h => by cases h
  · rcases rtcParseIso8601_cases requestedTime with ⟨epoch, tm, heq, -⟩ | heq | heq | heq <;> rw [heq]
    · simp only
      split
      · exact fun h => by cases h
      · split
        · exact fun h => by cases h
        · refine always_bind_any fun ready h => ?_
          split
          · exact fun h => by cases h
          · refine always_bind_any fun before h => always_bind_any fun random h => ?_
            split
            · exact fun h => by cases h
            · refine always_bind_any fun written h => ?_
              split
              · exact fun h => by cases h
              · refine always_bind_any fun set h => ?_
                split
                · exact fun h => by cases h
                · refine always_bind_any fun stored h => ?_
                  split
                  · exact fun h => by cases h
                  · exact fun _ => ⟨epoch, rfl⟩
    all_goals exact fun h => by cases h

end Production

section Texts

/-- At most `k` bytes, all on one line. -/
def Fits (k : ℕ) (text : Bytes) : Prop := text.length ≤ k ∧ newline ∉ text

instance (k : ℕ) (text : Bytes) : Decidable (Fits k text) := by
  unfold Fits
  infer_instance

theorem Fits.append {j k : ℕ} {a b : Bytes} (ha : Fits j a) (hb : Fits k b) : Fits (j + k) (a ++ b) := by
  refine ⟨?_, fun h => (List.mem_append.mp h).elim ha.2 hb.2⟩
  rw [List.length_append]
  exact Nat.add_le_add ha.1 hb.1

theorem Fits.mono {j k : ℕ} {a : Bytes} (ha : Fits j a) (hjk : j ≤ k) : Fits k a := ⟨ha.1.trans hjk, ha.2⟩

theorem fits_all {p : UInt8 → Bool} {k : ℕ} {text : Bytes} (hp : p newline = false) (h : text.all p = true)
    (hlen : text.length ≤ k) : Fits k text := by
  refine ⟨hlen, fun hn => ?_⟩
  have := List.all_eq_true.mp h newline hn
  rw [hp] at this
  cases this

variable {id attempt deviceId normalized code : Bytes} {args members : List (Bytes × CJsonItem)}

theorem cdcIdValid_spec (h : cdcIdValid id = true) : id.length ≤ 64 ∧ id.all attemptIdChar = true := by
  simp only [cdcIdValid, Bool.and_eq_true, decide_eq_true_eq] at h
  exact ⟨h.1.2, h.2⟩

theorem fits_id (h : cdcIdValid id = true) : Fits 64 id :=
  fits_all (by decide) (cdcIdValid_spec h).2 (cdcIdValid_spec h).1

theorem text_id (h : cdcIdValid id = true) : Skips quote id := by
  intro d hd
  have hplain := List.all_eq_true.mp (cdcIdValid_spec h).2 d hd
  constructor
  · rintro rfl
    exact absurd hplain (by decide)
  · rintro rfl
    exact absurd hplain (by decide)

theorem fits_head (h : cdcIdValid id = true) : Fits 73 (replyHead (some id)) :=
  ((show Fits 7 (lit "\x7b\"id\":\"") by with_unfolding_all decide).append (fits_id h)).append
    (show Fits 2 (lit "\",") by with_unfolding_all decide)

theorem errorCode_fits : ∀ code ∈ [errorInvalidJson, errorInvalidRequest, errorRequestTooLarge, errorUnknownCommand,
    errorInvalidArgs, errorRangeError, errorBusy, errorInternalError], Fits 17 code := by
  with_unfolding_all decide

theorem fits_error {id : Option Bytes} (hcode : Fits 17 code) : Fits 151 (cdcErrorResponse id code) := by
  have hhead : Fits 73 (replyHead (id.filter cdcIdValid)) := by
    rcases h : id.filter cdcIdValid with _ | id'
    · exact show Fits 73 (lit "\x7b\"id\":null,") by with_unfolding_all decide
    · exact fits_head (Option.filter_eq_some_iff.mp h).2
  have hbody := ((((show Fits 28 (lit "\"ok\":false,\"error\":\x7b\"code\":\"") by with_unfolding_all decide).append
    hcode).append (show Fits 13 (lit "\",\"message\":\"") by with_unfolding_all decide)).append hcode).append
    (show Fits 3 (lit "\"\x7d\x7d") by with_unfolding_all decide)
  exact (hhead.append hbody).mono (by norm_num)

theorem fits_ok {k : ℕ} {result : Bytes} (hid : cdcIdValid id = true) (hresult : Fits k result) :
    Fits (95 + k) (okResponse id result) := by
  have hbody := ((show Fits 20 (lit "\"ok\":true,\"result\":\x7b") by with_unfolding_all decide).append hresult).append
    (show Fits 2 (lit "\x7d\x7d") by with_unfolding_all decide)
  exact ((fits_head hid).append hbody).mono (by omega)

theorem fits_release (hid : cdcIdValid id = true) (hattempt : cdcIdValid attempt = true) :
    Fits 500 (releaseResponse id attempt) :=
  (fits_ok hid (((show Fits 20 (lit "\"releaseAttemptId\":\"") by with_unfolding_all decide).append (fits_id hattempt)).append
    (show Fits 17 (lit "\",\"accepted\":true") by with_unfolding_all decide))).mono (by norm_num)

theorem fits_pong (hid : cdcIdValid id = true) : Fits 500 (pongResponse id) :=
  (fits_ok hid (show Fits 11 (lit "\"pong\":true") by with_unfolding_all decide)).mono (by norm_num)

theorem fits_time (hid : cdcIdValid id = true) (htime : Fits 25 normalized) : Fits 500 (timeResponse id normalized) :=
  (fits_ok hid (((show Fits 8 (lit "\"time\":\"") by with_unfolding_all decide).append htime).append
    (show Fits 21 (lit "\",\"eventPending\":true") by with_unfolding_all decide))).mono (by norm_num)

theorem fits_info (hid : cdcIdValid id = true) (hdevice : isValidUuid deviceId = true) :
    Fits 500 (infoResponse id deviceId) := by
  have huuid : Fits 36 deviceId := fits_all (by decide) (plainAscii_uuid hdevice) (uuid_length hdevice).le
  have hbefore : Fits 50 (lit "\"protocolMajor\":" ++ dec usbCdcProtocolMajor ++ lit ",\"schemaVersion\":" ++
      dec metadataSchemaVersion ++ lit ",\"deviceId\":\"") := by
    rw [lit_ofList, lit_ofList, lit_ofList]
    decide +kernel
  have hafter : Fits 150 (lit "\",\"model\":\"" ++ recorderModel ++ lit "\",\"firmwareVersion\":\"" ++ firmwareVersion ++
      lit "\",\"audioCapabilities\":\x7b\"sampleRate\":" ++ dec sampleRateHz ++ lit ",\"bitDepth\":" ++ dec bitsPerSample ++
      lit ",\"channels\":" ++ dec channelCount ++ lit ",\"format\":\"pcm\"\x7d") := by
    rw [recorderModel, firmwareVersion]
    repeat rw [lit_ofList]
    decide +kernel
  have hok := fits_ok hid ((hbefore.append huuid).append hafter)
  simp only [List.append_assoc] at hok
  simp only [infoResponse, List.append_assoc]
  exact hok.mono (by norm_num)

theorem fits_status {status : UsbCdcProtocolStatus} {state reason : Bytes} (hid : cdcIdValid id = true)
    (hstate : Fits 16 state) (hreason : Fits 16 reason) : Fits 500 (statusResponse id state reason status) := by
  have hmv : Fits 11 (fmtInt 0 status.batteryMv.toInt) := by
    refine fits_all (by decide) (plainAscii_fmtInt 0 _) ?_
    have hdigits : (dec status.batteryMv.toInt.natAbs).length ≤ 10 := by
      refine dec_length_le (by norm_num) ?_
      have := status.batteryMv.le_toInt
      have := status.batteryMv.toInt_lt
      omega
    simp only [fmtInt]
    split <;> simp <;> omega
  have hbattery : Fits 11 (if status.batteryValid then fmtInt 0 status.batteryMv.toInt else lit "null") := by
    split
    · exact hmv
    · with_unfolding_all decide
  have hpending : Fits 5 (if status.rtcCorrectionPending then lit "true" else lit "false") := by
    split <;> with_unfolding_all decide
  have hresult := (((((((show Fits 9 (lit "\"state\":\"") by with_unfolding_all decide).append hstate).append
    (show Fits 12 (lit "\",\"reason\":\"") by with_unfolding_all decide)).append hreason).append
    (show Fits 14 (lit "\",\"batteryMv\":") by with_unfolding_all decide)).append hbattery).append
    (show Fits 24 (lit ",\"rtcCorrectionPending\":") by with_unfolding_all decide)).append hpending
  exact (fits_ok hid hresult).mono (by norm_num)

theorem fits_state (state : RecorderState) : Fits 16 (recorderStateStr state) := by
  cases state <;> with_unfolding_all decide

theorem fits_reason (reason : RecorderReason) : Fits 16 (recorderReasonStr reason) := by
  cases reason <;> with_unfolding_all decide

end Texts

section Replies

variable {parse : Bytes → Option CJsonItem} {deviceId id line text : Bytes} {args members : List (Bytes × CJsonItem)}
variable {t : Trace CdcCall CdcCall.Ans} {p : Printed} {res : ProcessLine}

/-- `release_accept` has been called with this attempt and has accepted it. -/
def Accepted (t : Trace CdcCall CdcCall.Ans) (attempt : Bytes) : Prop := ⟨.releaseAccept attempt, .accepted⟩ ∈ t

/-- What a command with the arguments `args` has asked, and what it prints. -/
structure Replied (id : Bytes) (args : List (Bytes × CJsonItem)) (t : Trace CdcCall CdcCall.Ans) (p : Printed) : Prop where
  head : replyHead (some id) <+: p.1
  fits : Fits 500 p.1
  calls : t.length ≤ 1
  accepted : p.2.releaseAccepted = true → ∃ attempt, Accepted t attempt
  success : ∀ attempt, Accepted t attempt → p = (releaseResponse id attempt, ⟨true, attempt⟩)
  setTime : ∀ time size r, ⟨.setTime time size, r⟩ ∈ t → args = [(lit "time", .string time)]
  release : ∀ attempt r, ⟨.releaseAccept attempt, r⟩ ∈ t → args = [(lit "releaseAttemptId", .string attempt)]

theorem head_ok (id result : Bytes) : replyHead (some id) <+: okResponse id result := List.prefix_append _ _

theorem head_error {code : Bytes} (hid : cdcIdValid id = true) : replyHead (some id) <+: cdcErrorResponse (some id) code := by
  rw [cdcErrorResponse, Option.filter_some, if_pos hid]
  exact List.prefix_append _ _

/-- A text without an effect, after calls that have set or released nothing. -/
theorem replied_text (hhead : replyHead (some id) <+: text) (hfits : Fits 500 text) (hcalls : t.length ≤ 1)
    (hquiet : ∀ e ∈ t, e.1 = .statusProvider) : Replied id args t (printed text) where
  head := hhead
  fits := hfits
  calls := hcalls
  accepted h := by cases h
  success attempt h := by cases hquiet _ h
  setTime time size r h := by cases hquiet _ h
  release attempt r h := by cases hquiet _ h

theorem replied_error {code : Bytes} (hid : cdcIdValid id = true) (hcode : Fits 17 code) (hcalls : t.length ≤ 1)
    (hquiet : ∀ e ∈ t, e.1 = .statusProvider) : Replied id args t (printed (cdcErrorResponse (some id) code)) :=
  replied_text (head_error hid) ((fits_error hcode).mono (by norm_num)) hcalls hquiet

theorem only_member {name s : Bytes} (hone : args.length = 1)
    (h : (getObjectItem name args).bind CJsonItem.valuestring = some s) : args = [(name, .string s)] := by
  obtain ⟨⟨key, item⟩, rfl⟩ := List.length_eq_one_iff.mp hone
  simp only [getObjectItem] at h
  split at h
  · next hkey =>
    cases item with
    | string v =>
      cases h
      rw [hkey]
    | object ms => cases h
    | other => cases h
  · cases h

theorem processReleaseStorage_replied (hid : cdcIdValid id = true) {config : Option UsbCdcProtocolConfig}
    (hrun : Does (processReleaseStorage config id args) t (.ret p)) : Replied id args t p := by
  unfold processReleaseStorage at hrun
  have hinvalid : Fits 17 errorInvalidArgs := errorCode_fits _ (by simp)
  have hinternal : Fits 17 errorInternalError := errorCode_fits _ (by simp)
  split at hrun
  · obtain ⟨rfl, rfl⟩ := does_ret.mp hrun
    exact replied_error hid hinvalid (Nat.zero_le _) (by simp)
  · next attempt hattempt =>
    split at hrun
    · obtain ⟨rfl, rfl⟩ := does_ret.mp hrun
      exact replied_error hid hinvalid (Nat.zero_le _) (by simp)
    · next hvalid =>
      simp only [ne_eq, decide_not, Bool.or_eq_true, Bool.not_eq_true', decide_eq_false_iff_not, not_or, not_not,
        Bool.not_eq_false] at hvalid
      have hargs := only_member hvalid.1 hattempt
      split at hrun
      · obtain ⟨rfl, rfl⟩ := does_ret.mp hrun
        exact replied_error hid hinternal (Nat.zero_le _) (by simp)
      · rw [bind_op] at hrun
        obtain ⟨result, t', rfl, hdone⟩ := does_call.mp hrun
        have hrelease : ∀ attempt' r, (⟨.releaseAccept attempt', r⟩ : Σ c : CdcCall, c.Ans) ∈ [⟨.releaseAccept attempt, result⟩] →
            args = [(lit "releaseAttemptId", .string attempt')] := by
          intro attempt' r h
          cases List.mem_singleton.mp h
          exact hargs
        split at hdone
        · next hresult =>
          obtain ⟨rfl, rfl⟩ := does_ret.mp hdone
          have hcode : Fits 17 (cdcReleaseErrorCode result) := by
            cases result <;> exact errorCode_fits _ (by simp [cdcReleaseErrorCode])
          exact
            { head := head_error hid
              fits := (fits_error hcode).mono (by norm_num)
              calls := le_rfl
              accepted := fun h => by cases h
              success := fun attempt' h => by
                cases List.mem_singleton.mp h
                exact absurd rfl hresult
              setTime := fun time size r h => by cases List.mem_singleton.mp h
              release := hrelease }
        · next hresult =>
          obtain ⟨rfl, rfl⟩ := does_ret.mp hdone
          rw [not_not] at hresult
          subst hresult
          exact
            { head := head_ok _ _
              fits := fits_release hid hvalid.2
              calls := le_rfl
              accepted := fun _ => ⟨attempt, List.mem_singleton_self _⟩
              success := fun attempt' h => by
                cases List.mem_singleton.mp h
                rfl
              setTime := fun time size r h => by cases List.mem_singleton.mp h
              release := hrelease }

theorem processSetTime_replied (hid : cdcIdValid id = true) {config : Option UsbCdcProtocolConfig}
    (hrun : Does (processSetTime config id args) t (.ret p)) (hprod : ∀ e ∈ t, Produced e.1 e.2) : Replied id args t p := by
  unfold processSetTime at hrun
  have hinvalid : Fits 17 errorInvalidArgs := errorCode_fits _ (by simp)
  have hinternal : Fits 17 errorInternalError := errorCode_fits _ (by simp)
  split at hrun
  · obtain ⟨rfl, rfl⟩ := does_ret.mp hrun
    exact replied_error hid hinvalid (Nat.zero_le _) (by simp)
  · next time htime =>
    split at hrun
    · obtain ⟨rfl, rfl⟩ := does_ret.mp hrun
      exact replied_error hid hinvalid (Nat.zero_le _) (by simp)
    · next hone =>
      have hargs := only_member (not_not.mp hone) htime
      split at hrun
      · obtain ⟨rfl, rfl⟩ := does_ret.mp hrun
        exact replied_error hid hinternal (Nat.zero_le _) (by simp)
      · rw [bind_op] at hrun
        obtain ⟨⟨result, normalized⟩, t', rfl, hdone⟩ := does_call.mp hrun
        -- The reply differs with the result; that the one call is no release does not.
        have replied : ∀ text, replyHead (some id) <+: text → Fits 500 text →
            Replied id args [⟨.setTime time usbCdcProtocolTimeBytes, (result, normalized)⟩] (printed text) := by
          intro text hhead hfits
          exact
            { head := hhead
              fits := hfits
              calls := le_rfl
              accepted := fun h => by cases h
              success := fun attempt h => by cases List.mem_singleton.mp h
              setTime := fun time' size r h => by
                cases List.mem_singleton.mp h
                exact hargs
              release := fun attempt r h => by cases List.mem_singleton.mp h }
        split at hdone
        · obtain ⟨rfl, rfl⟩ := does_ret.mp hdone
          have hcode : Fits 17 (cdcSetTimeErrorCode result) := by
            cases result <;> exact errorCode_fits _ (by simp [cdcSetTimeErrorCode])
          exact replied _ (head_error hid) ((fits_error hcode).mono (by norm_num))
        · next hok =>
          obtain ⟨rfl, rfl⟩ := does_ret.mp hdone
          obtain ⟨ram, t', out, hdoes, hout⟩ := hprod _ List.mem_cons_self
          obtain ⟨hresult, rfl⟩ := Prod.mk.inj hout
          have hset : out.1 = .ok := by
            rw [not_not, hresult] at hok
            rcases h : out.1 with _ | _ | _ | _ | _ <;> rw [h] at hok <;> first | rfl | cases hok
          obtain ⟨epoch, hparse⟩ := rtcCorrectionApply_normalizes hdoes hset
          obtain ⟨hplain, hlength⟩ := rtcParseIso8601_normal hparse
          exact replied _ (head_ok _ _) (fits_time hid (fits_all (by decide) hplain hlength.le))

theorem processGetStatus_replied (hid : cdcIdValid id = true) {config : Option UsbCdcProtocolConfig}
    (hrun : Does (processGetStatus config id args) t (.ret p)) (hprod : ∀ e ∈ t, Produced e.1 e.2) : Replied id args t p := by
  unfold processGetStatus at hrun
  have hinternal : Fits 17 errorInternalError := errorCode_fits _ (by simp)
  split at hrun
  · obtain ⟨rfl, rfl⟩ := does_ret.mp hrun
    exact replied_error hid (errorCode_fits _ (by simp)) (Nat.zero_le _) (by simp)
  · split at hrun
    · obtain ⟨rfl, rfl⟩ := does_ret.mp hrun
      exact replied_error hid hinternal (Nat.zero_le _) (by simp)
    · rw [bind_op] at hrun
      obtain ⟨status, t', rfl, hdone⟩ := does_call.mp hrun
      obtain ⟨snapshot, pending, rfl⟩ := hprod _ List.mem_cons_self
      cases snapshot with
      | none =>
        obtain ⟨rfl, rfl⟩ := does_ret.mp hdone
        exact replied_error hid hinternal le_rfl (by simp)
      | some snapshot =>
        obtain ⟨state, reason, batteryMv⟩ := snapshot
        obtain ⟨rfl, rfl⟩ := does_ret.mp hdone
        exact replied_text (head_ok _ _) (fits_status hid (fits_state state) (fits_reason reason)) le_rfl (by simp)

theorem processPing_replied (hid : cdcIdValid id = true) : Replied id args [] (printed (processPing id args)) := by
  unfold processPing
  split
  · exact replied_error hid (errorCode_fits _ (by simp)) (Nat.zero_le _) (by simp)
  · exact replied_text (head_ok _ _) (fits_pong hid) (Nat.zero_le _) (by simp)

theorem processGetInfo_replied (hid : cdcIdValid id = true) (hdevice : isValidUuid deviceId = true) :
    Replied id args [] (printed (processGetInfo (some (recorderCdcConfig deviceId)) id args)) := by
  unfold processGetInfo
  split
  · exact replied_error hid (errorCode_fits _ (by simp)) (Nat.zero_le _) (by simp)
  · exact replied_text (head_ok _ _) (fits_info hid hdevice) (Nat.zero_le _) (by simp)

/-- A request with a valid `id`: what has been asked has been asked with the one argument there is. -/
theorem processRequest_replied (hid : cdcIdValid id = true) (hdevice : isValidUuid deviceId = true)
    (hrun : Does (processRequest (some (recorderCdcConfig deviceId)) id members) t (.ret p))
    (hprod : ∀ e ∈ t, Produced e.1 e.2) :
    (∃ args, getObjectItem (lit "args") members = some (.object args) ∧ Replied id args t p) ∨
      (t = [] ∧ Replied id [] [] p) := by
  unfold processRequest at hrun
  split at hrun
  · next cmd args _ hargs =>
    refine Or.inl ⟨args, hargs, ?_⟩
    split at hrun
    · exact processReleaseStorage_replied hid hrun
    split at hrun
    · obtain ⟨rfl, rfl⟩ := does_ret.mp hrun
      exact processPing_replied hid
    split at hrun
    · obtain ⟨rfl, rfl⟩ := does_ret.mp hrun
      exact processGetInfo_replied hid hdevice
    split at hrun
    · exact processGetStatus_replied hid hrun hprod
    split at hrun
    · exact processSetTime_replied hid hrun hprod
    · obtain ⟨rfl, rfl⟩ := does_ret.mp hrun
      exact replied_error hid (errorCode_fits _ (by simp)) (Nat.zero_le _) (by simp)
  · obtain ⟨rfl, rfl⟩ := does_ret.mp hrun
    exact Or.inr ⟨rfl, replied_error hid (errorCode_fits _ (by simp)) (Nat.zero_le _) (by simp)⟩

end Replies

section Lines

variable {parse : Bytes → Option CJsonItem} {deviceId line out : Bytes}
variable {t : Trace CdcCall CdcCall.Ans} {p : Printed} {res : ProcessLine}

/-- The line is JSON text, UTF-8 without a NUL, of an object whose first member `id` is the valid identifier `id`. -/
structure RequestId (parse : Bytes → Option CJsonItem) (line id : Bytes) : Prop where
  text : ∃ cs : List Char, Char.ofNat 0 ∉ cs ∧ line = cs.flatMap String.utf8EncodeChar
  object : ∃ members, parse line = some (.object members) ∧ getObjectItem (lit "id") members = some (.string id)
  valid : cdcIdValid id = true

theorem RequestId.unique {id id' : Bytes} (h : RequestId parse line id) (h' : RequestId parse line id') : id = id' := by
  obtain ⟨members, hparse, hid⟩ := h.object
  obtain ⟨members', hparse', hid'⟩ := h'.object
  rw [hparse] at hparse'
  cases hparse'
  rw [hid] at hid'
  cases hid'
  rfl

theorem strchr_id {id : Bytes} (h : cdcIdValid id = true) (x : Bytes) : strchr quote (id ++ quote :: x) = some (quote :: x) := by
  rw [strchr_skip (text_id h), strchr, if_pos rfl]

theorem head_unique {a b : Option Bytes} (ha : ∀ id ∈ a, cdcIdValid id = true) (hb : ∀ id ∈ b, cdcIdValid id = true)
    (hout : replyHead a <+: out) (hout' : replyHead b <+: out) : a = b := by
  obtain ⟨x, rfl⟩ := hout
  obtain ⟨y, heq⟩ := hout'
  have hsome : ∀ id z, replyHead (some id) ++ z = [0x7b, 0x22, 0x69, 0x64, 0x22, 0x3a, quote] ++ (id ++ quote :: 0x2c :: z) := by
    intro id z
    rw [replyHead, show lit "\x7b\"id\":\"" = [0x7b, 0x22, 0x69, 0x64, 0x22, 0x3a, quote] by with_unfolding_all decide,
      show lit "\"," = [quote, 0x2c] by with_unfolding_all decide]
    simp only [List.append_assoc, List.cons_append, List.nil_append]
  have hnone : ∀ z, replyHead none ++ z =
      [0x7b, 0x22, 0x69, 0x64, 0x22, 0x3a] ++ (0x6e :: 0x75 :: 0x6c :: 0x6c :: 0x2c :: z) := by
    intro z
    rw [replyHead, show lit "\x7b\"id\":null," = [0x7b, 0x22, 0x69, 0x64, 0x22, 0x3a, 0x6e, 0x75, 0x6c, 0x6c, 0x2c] by
      with_unfolding_all decide]
    rfl
  rcases a with _ | id <;> rcases b with _ | id'
  · rfl
  · rw [hsome, hnone] at heq
    simp [quote] at heq
  · rw [hsome, hnone] at heq
    simp [quote] at heq
  · rw [hsome, hsome, List.append_cancel_left_eq] at heq
    have hid := ha id rfl
    have hid' := hb id' rfl
    have hfind := congrArg (strchr quote) heq
    rw [strchr_id hid, strchr_id hid', Option.some.injEq] at hfind
    rw [hfind, List.append_cancel_right_eq] at heq
    rw [heq]

theorem cdcUtf8Valid_of (h : ∃ id, RequestId parse line id) : cdcUtf8Valid line = true :=
  (cdcUtf8Valid_iff line).mpr h.choose_spec.text

/-- What a line comes to: a request with a valid `id`, or an error without one. -/
theorem usbCdcProtocolProcessLine_cases {config : Option UsbCdcProtocolConfig} {outSize : ℕ} (hsize : outSize ≠ 0)
    (hrun : Does (usbCdcProtocolProcessLine parse config outSize line) t (.ret res)) :
    (∃ id members p, line.length ≤ usbCdcProtocolMaxLineBytes ∧ RequestId parse line id ∧ parse line = some (.object members) ∧
      Does (processRequest config id members) t (.ret p) ∧ res = processDone outSize (some id) p) ∨
    ((∀ id, ¬ (line.length ≤ usbCdcProtocolMaxLineBytes ∧ RequestId parse line id)) ∧ t = [] ∧
      ∃ code, Fits 17 code ∧
        (res = snprintf outSize (printed (cdcErrorResponse none code)) ∨
          res = processDone outSize none (printed (cdcErrorResponse none code)))) := by
  unfold usbCdcProtocolProcessLine at hrun
  rw [if_neg hsize] at hrun
  split at hrun
  · next hlong =>
    obtain ⟨rfl, rfl⟩ := does_ret.mp hrun
    exact Or.inr ⟨fun id h => absurd h.1 (Nat.not_le.mpr hlong), rfl, _, errorCode_fits _ (by simp), Or.inl rfl⟩
  · next hlong =>
    split at hrun
    · next hutf8 =>
      obtain ⟨rfl, rfl⟩ := does_ret.mp hrun
      refine Or.inr ⟨fun id h => ?_, rfl, _, errorCode_fits _ (by simp), Or.inl rfl⟩
      rw [cdcUtf8Valid_of ⟨id, h.2⟩] at hutf8
      cases hutf8
    · next hutf8 =>
      split at hrun
      · next hparse =>
        obtain ⟨rfl, rfl⟩ := does_ret.mp hrun
        refine Or.inr ⟨fun id h => ?_, rfl, _, errorCode_fits _ (by simp), Or.inl rfl⟩
        obtain ⟨members, hobject, _⟩ := h.2.object
        rw [hparse] at hobject
        cases hobject
      · next members hparse =>
        split at hrun
        · next hnone =>
          obtain ⟨rfl, rfl⟩ := does_ret.mp hrun
          refine Or.inr ⟨fun id h => ?_, rfl, _, errorCode_fits _ (by simp), Or.inr rfl⟩
          obtain ⟨members', hobject, hid⟩ := h.2.object
          rw [hparse] at hobject
          cases hobject
          rw [hid] at hnone
          cases hnone
        · next id hid =>
          have hstring : getObjectItem (lit "id") members = some (.string id) := by
            rcases h : getObjectItem (lit "id") members with _ | _ | _ | _ <;> rw [h] at hid <;> cases hid
            rfl
          split at hrun
          · next hvalid =>
            obtain ⟨rfl, rfl⟩ := does_ret.mp hrun
            refine Or.inr ⟨fun id' h => ?_, rfl, _, errorCode_fits _ (by simp), Or.inr rfl⟩
            obtain ⟨members', hobject, hid'⟩ := h.2.object
            rw [hparse] at hobject
            cases hobject
            rw [hstring] at hid'
            cases hid'
            rw [h.2.valid] at hvalid
            cases hvalid
          · next hvalid =>
            rw [Bool.not_eq_true, Bool.not_eq_false'] at hvalid hutf8
            obtain ⟨p, hdoes, rfl⟩ := does_bind_ret.mp hrun
            exact Or.inl ⟨id, members, p, Nat.not_lt.mp hlong,
              ⟨(cdcUtf8Valid_iff line).mp hutf8, ⟨members, hparse, hstring⟩, hvalid⟩, hparse, hdoes, rfl⟩
      · next item hparse hother =>
        obtain ⟨rfl, rfl⟩ := does_ret.mp hrun
        refine Or.inr ⟨fun id h => ?_, rfl, _, errorCode_fits _ (by simp), Or.inr rfl⟩
        obtain ⟨members, hobject, _⟩ := h.2.object
        rw [hother] at hobject
        cases hobject
        exact absurd rfl (hparse _)

theorem snprintf_spec {outSize k : ℕ} {p : Printed} (hfits : Fits k p.1) (hk : k < outSize) :
    snprintf outSize p = ⟨p.1.length, p.1, p.2⟩ := by
  have := hfits.1
  rw [snprintf, List.take_of_length_le (by omega)]

theorem processDone_spec {outSize k : ℕ} {id : Option Bytes} {p : Printed} (hfits : Fits k p.1) (hk : k < outSize) :
    processDone outSize id p = ⟨p.1.length, p.1, p.2⟩ := by
  have := hfits.1
  rw [processDone, if_neg (by omega), snprintf_spec hfits hk]

/-- What a line comes to in the production buffer: the whole text of a reply to its request, or of an error without an
identifier. -/
theorem usbCdcProtocolProcessLine_printed (hdevice : isValidUuid deviceId = true)
    (hrun : Does (usbCdcProtocolProcessLine parse (some (recorderCdcConfig deviceId)) cdcResponseBytes line) t (.ret res))
    (hprod : ∀ e ∈ t, Produced e.1 e.2) :
    ∃ p : Printed, res = ⟨p.1.length, p.1, p.2⟩ ∧ Fits 500 p.1 ∧
      ((∃ id members args, line.length ≤ usbCdcProtocolMaxLineBytes ∧ RequestId parse line id ∧
          parse line = some (.object members) ∧ Replied id args t p ∧
          (t ≠ [] → getObjectItem (lit "args") members = some (.object args))) ∨
        ((∀ id, ¬ (line.length ≤ usbCdcProtocolMaxLineBytes ∧ RequestId parse line id)) ∧ t = [] ∧
          ∃ code, p = printed (cdcErrorResponse none code))) := by
  rcases usbCdcProtocolProcessLine_cases (by decide) hrun with
    ⟨id, members, p, hlen, hid, hparse, hdoes, rfl⟩ | ⟨hno, rfl, code, hcode, hres⟩
  · obtain ⟨args, hreplied, hargs⟩ : ∃ args, Replied id args t p ∧
        (t ≠ [] → getObjectItem (lit "args") members = some (.object args)) := by
      rcases processRequest_replied hid.valid hdevice hdoes hprod with ⟨args, hargs, hreplied⟩ | ⟨rfl, hreplied⟩
      · exact ⟨args, hreplied, fun _ => hargs⟩
      · exact ⟨[], hreplied, fun h => absurd rfl h⟩
    exact ⟨p, processDone_spec hreplied.fits (by decide), hreplied.fits,
      Or.inl ⟨id, members, args, hlen, hid, hparse, hreplied, hargs⟩⟩
  · have hfits : Fits 500 (cdcErrorResponse none code) := (fits_error hcode).mono (by norm_num)
    refine ⟨printed (cdcErrorResponse none code), ?_, hfits, Or.inr ⟨hno, rfl, code, rfl⟩⟩
    rcases hres with rfl | rfl
    · exact snprintf_spec hfits (by decide)
    · exact processDone_spec hfits (by decide)

theorem head_pos {id : Option Bytes} (h : replyHead id <+: out) : 0 < out.length := by
  have hhead : 0 < (replyHead id).length := by
    cases id with
    | none => with_unfolding_all decide
    | some id => simp [replyHead, show (lit "\",").length = 2 by with_unfolding_all decide]
  exact lt_of_lt_of_le hhead h.length_le

/-- One reply for a line of any length, and no acceptance is lost on the way to it. -/
theorem usbCdcProtocolProcessLine_replies (hdevice : isValidUuid deviceId = true)
    (hrun : Does (usbCdcProtocolProcessLine parse (some (recorderCdcConfig deviceId)) cdcResponseBytes line) t (.ret res))
    (hprod : ∀ e ∈ t, Produced e.1 e.2) :
    -- one reply, in the buffer as a whole and on one line
    (res.returned = res.out.length ∧ 0 < res.out.length ∧ res.out.length < cdcResponseBytes ∧ newline ∉ res.out) ∧
    -- the identifier is echoed for a request of at most the length of a line that has one, and for no other
    (∀ id, cdcIdValid id = true →
      (replyHead (some id) <+: res.out ↔ line.length ≤ usbCdcProtocolMaxLineBytes ∧ RequestId parse line id)) ∧
    ((∀ id, ¬ (line.length ≤ usbCdcProtocolMaxLineBytes ∧ RequestId parse line id)) → replyHead none <+: res.out) ∧
    -- an acceptance is reported with its own reply
    (res.effect.releaseAccepted = true ↔ ∃ attempt, Accepted t attempt) ∧
    (∀ attempt, Accepted t attempt →
      ∃ id, RequestId parse line id ∧ res.out = releaseResponse id attempt ∧ res.effect = ⟨true, attempt⟩) ∧
    -- one call at most, with the one argument of the request
    t.length ≤ 1 ∧
    (∀ time size r, ⟨.setTime time size, r⟩ ∈ t → ∃ members, parse line = some (.object members) ∧
      getObjectItem (lit "args") members = some (.object [(lit "time", .string time)])) ∧
    (∀ attempt r, ⟨.releaseAccept attempt, r⟩ ∈ t → ∃ members, parse line = some (.object members) ∧
      getObjectItem (lit "args") members = some (.object [(lit "releaseAttemptId", .string attempt)])) := by
  obtain ⟨p, rfl, hfits, ⟨id, members, args, hlen, hid, hparse, hreplied, hargs⟩ | ⟨hno, rfl, code, rfl⟩⟩ :=
    usbCdcProtocolProcessLine_printed hdevice hrun hprod
  · refine ⟨⟨rfl, head_pos hreplied.head, lt_of_le_of_lt hfits.1 (by decide), hfits.2⟩,
      fun id' hid' => ⟨fun h => ?_, fun h => ?_⟩, fun h => absurd ⟨hlen, hid⟩ (h id), ⟨hreplied.accepted, ?_⟩, ?_,
      hreplied.calls, ?_, ?_⟩
    · have heq := head_unique (a := some id') (b := some id) (by simpa using hid') (by simpa using hid.valid) h hreplied.head
      cases heq
      exact ⟨hlen, hid⟩
    · cases h.2.unique hid
      exact hreplied.head
    · rintro ⟨attempt, h⟩
      rw [hreplied.success attempt h]
    · intro attempt h
      refine ⟨id, hid, ?_⟩
      rw [hreplied.success attempt h]
      exact ⟨rfl, rfl⟩
    · intro time size r h
      refine ⟨members, hparse, ?_⟩
      rw [hargs (List.ne_nil_of_mem h), hreplied.setTime time size r h]
    · intro attempt r h
      refine ⟨members, hparse, ?_⟩
      rw [hargs (List.ne_nil_of_mem h), hreplied.release attempt r h]
  · have hhead : replyHead none <+: cdcErrorResponse none code := List.prefix_append _ _
    refine ⟨⟨rfl, head_pos hhead, lt_of_le_of_lt hfits.1 (by decide), hfits.2⟩,
      fun id hid => ⟨fun h => ?_, fun h => absurd h (hno id)⟩, fun _ => hhead, ⟨?_, ?_⟩, ?_, Nat.zero_le _, ?_, ?_⟩
    · have heq := head_unique (a := some id) (b := none) (by simpa using hid) (by simp) h hhead
      cases heq
    · intro h
      cases h
    · rintro ⟨attempt, h⟩
      cases h
    · intro attempt h
      cases h
    · intro time size r h
      cases h
    · intro attempt r h
      cases h

/-! The witness and the counterexample: a request that is accepted, and a line that is too long for its `id` to be read. -/

def releaseLine : Bytes :=
  lit "\x7b\"id\":\"r\",\"cmd\":\"RELEASE_STORAGE\",\"args\":\x7b\"releaseAttemptId\":\"release-1\"\x7d\x7d"

/-- What the parser makes of that line; nothing is said of others. -/
def releaseParse (json : Bytes) : Option CJsonItem :=
  if json = releaseLine then
    some (.object [(lit "id", .string (lit "r")), (lit "cmd", .string (lit "RELEASE_STORAGE")),
      (lit "args", .object [(lit "releaseAttemptId", .string (lit "release-1"))])])
  else none

def someDeviceId : Bytes := lit "01234567-89ab-4def-8123-456789abcdef"

def releaseReply : ProcessLine :=
  ⟨78, lit "\x7b\"id\":\"r\",\"ok\":true,\"result\":\x7b\"releaseAttemptId\":\"release-1\",\"accepted\":true\x7d\x7d",
    ⟨true, lit "release-1"⟩⟩

theorem releaseLine_run : Does (usbCdcProtocolProcessLine releaseParse (some (recorderCdcConfig someDeviceId)) cdcResponseBytes
    releaseLine) [⟨.releaseAccept (lit "release-1"), .accepted⟩] (.ret releaseReply) := by
  have hutf8 : cdcUtf8Valid releaseLine = true := by
    rw [releaseLine, lit_ofList]
    decide +kernel
  have hlen : ¬ releaseLine.length > usbCdcProtocolMaxLineBytes := by
    rw [releaseLine, lit_ofList]
    decide +kernel
  have hreply : releaseReply =
      processDone cdcResponseBytes (some (lit "r")) (releaseResponse (lit "r") (lit "release-1"), ⟨true, lit "release-1"⟩) := by
    rw [releaseReply, lit_ofList, lit_ofList, lit_ofList]
    decide +kernel
  rw [hreply, usbCdcProtocolProcessLine, if_neg (by decide), if_neg hlen, hutf8, releaseParse, if_pos rfl]
  with_unfolding_all exact does_call.mpr ⟨_, [], rfl, .rest _⟩

theorem acceptReleaseStorage_run : ∃ t, Does (usbMscOwnershipAcceptReleaseStorage (lit "release-1")) t (.ret .accepted) := by
  have hvalid : usbReleaseAttemptIdValid (lit "release-1") = true := by with_unfolding_all decide
  rw [usbMscOwnershipAcceptReleaseStorage, hvalid]
  refine exists_does_call (true : Bool) <| exists_does_call (true : Bool) <| exists_does_call (true : Bool) <|
    exists_does_call (true : Bool) <| exists_does_call (false : Bool) ?_
  exact exists_does_call (true : Bool) <| exists_does_call () <| exists_does_call () ⟨_, .rest _⟩

theorem releaseLine_produced : ∀ e ∈ ([⟨.releaseAccept (lit "release-1"), .accepted⟩] : Trace CdcCall CdcCall.Ans),
    Produced e.1 e.2 := by
  intro e he
  rw [List.mem_singleton.mp he]
  obtain ⟨t, ht⟩ := acceptReleaseStorage_run
  exact ⟨t, .accepted, ht, rfl⟩

theorem releaseLine_accepted : (0 < releaseReply.out.length ∧ releaseReply.out.length < cdcResponseBytes) ∧
    releaseReply.effect.releaseAccepted = true ∧
    ∃ id, RequestId releaseParse releaseLine id ∧ releaseReply.out = releaseResponse id (lit "release-1") := by
  obtain ⟨⟨_, hpos, hlt, _⟩, _, _, haccepted, hsuccess, _⟩ := usbCdcProtocolProcessLine_replies (by with_unfolding_all decide)
    releaseLine_run releaseLine_produced
  have hmem : Accepted [⟨.releaseAccept (lit "release-1"), .accepted⟩] (lit "release-1") := List.mem_singleton_self _
  obtain ⟨id, hid, hout, _⟩ := hsuccess _ hmem
  exact ⟨⟨hpos, hlt⟩, haccepted.mpr ⟨_, hmem⟩, id, hid, hout⟩

def pingText : List Char := "\x7b\"id\":\"a\",\"cmd\":\"PING\",\"args\":\x7b\x7d\x7d".toList

/-- A request with a thousand blanks after it. -/
def paddedLine : Bytes := (pingText ++ List.replicate 1000 ' ').flatMap String.utf8EncodeChar

def paddedParse (json : Bytes) : Option CJsonItem :=
  if json = paddedLine then
    some (.object [(lit "id", .string (lit "a")), (lit "cmd", .string (lit "PING")), (lit "args", .object [])])
  else none

theorem paddedLine_request : RequestId paddedParse paddedLine (lit "a") where
  text := by
    refine ⟨_, fun h => ?_, rfl⟩
    rcases List.mem_append.mp h with h | h
    · exact absurd h (by decide)
    · exact absurd (List.eq_of_mem_replicate h) (by decide)
  object := by
    refine ⟨[(lit "id", .string (lit "a")), (lit "cmd", .string (lit "PING")), (lit "args", .object [])], ?_, ?_⟩
    · rw [paddedParse, if_pos rfl]
    · rw [getObjectItem, if_pos rfl]
  valid := by with_unfolding_all decide

theorem paddedLine_long : paddedLine.length > usbCdcProtocolMaxLineBytes := by
  have hspace : ((List.replicate 1000 ' ').flatMap String.utf8EncodeChar).length = 1000 := by
    rw [List.length_flatMap, List.map_replicate, List.sum_replicate]
    rfl
  have hping : (pingText.flatMap String.utf8EncodeChar).length = 33 := by decide
  simp only [paddedLine, List.flatMap_append, List.length_append, hspace, hping]
  decide

/-- Beyond the length of a line the identifier of a request is not echoed. -/
theorem usbCdcProtocolProcessLine_drops_id :
    ¬ ∀ (parse : Bytes → Option CJsonItem) (deviceId line : Bytes) (t : Trace CdcCall CdcCall.Ans) (res : ProcessLine),
      isValidUuid deviceId = true →
      Does (usbCdcProtocolProcessLine parse (some (recorderCdcConfig deviceId)) cdcResponseBytes line) t (.ret res) →
      (∀ e ∈ t, Produced e.1 e.2) → ∀ id, cdcIdValid id = true →
        (replyHead (some id) <+: res.out ↔ RequestId parse line id) := by
  intro h
  have hrun : Does (usbCdcProtocolProcessLine paddedParse (some (recorderCdcConfig someDeviceId)) cdcResponseBytes paddedLine) []
      (.ret (snprintf cdcResponseBytes (printed (cdcErrorResponse none errorRequestTooLarge)))) := by
    rw [usbCdcProtocolProcessLine, if_neg (by decide), if_pos paddedLine_long]
    exact .rest _
  have hecho := (h paddedParse someDeviceId paddedLine [] _ (by with_unfolding_all decide) hrun (by simp) (lit "a")
    paddedLine_request.valid).mpr paddedLine_request
  rw [snprintf_spec (fits_error (errorCode_fits _ (by simp))) (by decide)] at hecho
  have hnone : replyHead none <+: cdcErrorResponse none errorRequestTooLarge := List.prefix_append _ _
  cases head_unique (a := some (lit "a")) (b := none) (by simpa using paddedLine_request.valid) (by simp) hecho hnone

end Lines

section WorkerReply

variable {ε : Type} {A : ε → Type} {parse : Bytes → Option CJsonItem} {deviceId line : Bytes} {answer : CdcReply}
variable {callback : (c : CdcCall) → Prog ε A c.Ans} {t : Trace ε A}

/-- What the worker takes from a call: the bytes it is told are there, and the effect. -/
def ProcessLine.reply (res : ProcessLine) : CdcReply :=
  ⟨if 0 < res.returned then res.out.take res.returned.toNat else [], res.effect.releaseAccepted, res.effect.releaseAttemptId⟩

/-- The processing of a line as the worker of the channel runs it, with the callbacks as programs of their own. -/
def cdcProcessLine (parse : Bytes → Option CJsonItem) (deviceId : Bytes) (callback : (c : CdcCall) → Prog ε A c.Ans)
    (line : Bytes) : Prog ε A CdcReply :=
  (usbCdcProtocolProcessLine parse (some (recorderCdcConfig deviceId)) cdcResponseBytes line).interp callback >>= fun res =>
    .ret res.reply

/-- The worker has a response to send for every line, and where an acceptance comes with it, it is the reply to that. -/
theorem cdcProcessLine_replies (hdevice : isValidUuid deviceId = true)
    (hcallback : ∀ c t r, Does (callback c) t (.ret r) → Produced c r)
    (hrun : Does (cdcProcessLine parse deviceId callback line) t (.ret answer)) :
    (answer.response ≠ [] ∧ answer.response.length < cdcResponseBytes ∧ newline ∉ answer.response) ∧
      (answer.releaseAccepted = true →
        ∃ id, RequestId parse line id ∧ answer.response = releaseResponse id answer.releaseAttemptId) := by
  obtain ⟨res, hdoes, rfl⟩ := does_bind_ret.mp hrun
  obtain ⟨t', hdoes', hprod⟩ := hdoes.of_interp hcallback
  obtain ⟨p, rfl, hfits, hcases⟩ := usbCdcProtocolProcessLine_printed hdevice hdoes' hprod
  have hhead : ∃ id, replyHead id <+: p.1 := by
    rcases hcases with ⟨id, members, args, hlen, hid, hparse, hreplied, hargs⟩ | ⟨hno, rfl, code, rfl⟩
    · exact ⟨_, hreplied.head⟩
    · exact ⟨none, List.prefix_append _ _⟩
  have hpos := head_pos hhead.choose_spec
  have hresponse : (ProcessLine.reply ⟨p.1.length, p.1, p.2⟩).response = p.1 := by
    rw [ProcessLine.reply]
    simp only
    rw [if_pos (by omega), Int.toNat_natCast, List.take_length]
  rw [hresponse]
  refine ⟨⟨List.ne_nil_of_length_pos hpos, lt_of_le_of_lt hfits.1 (by decide), hfits.2⟩, fun haccepted => ?_⟩
  rcases hcases with ⟨id, members, args, hlen, hid, hparse, hreplied, hargs⟩ | ⟨hno, rfl, code, rfl⟩
  · obtain ⟨attempt, hattempt⟩ := hreplied.accepted haccepted
    refine ⟨id, hid, ?_⟩
    rw [hreplied.success attempt hattempt]
    rfl
  · cases haccepted

end WorkerReply

end M5DayLog.UsbCdcProtocol
