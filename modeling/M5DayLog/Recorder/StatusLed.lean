import M5DayLog.Recorder.Power
import M5DayLog.Recorder.State

/-! The status light: the handles of its pulse driver, and the indication that a terminal state leaves on. Any task may ask for
an indication, and the calls take turns under one mutex. -/

namespace M5DayLog.StatusLed

open Drivers Monitor Power

section Machine

def statusLedDataPin : ℕ := 21
def statusLedPowerPin : ℕ := 38

structure TxChannelConfig where
  gpioNum : ℕ
  memBlockSymbols : ℕ
  resolutionHz : ℕ
  transQueueDepth : ℕ
  deriving DecidableEq

structure RmtSymbol where
  level0 : Bool
  duration0 : ℕ
  level1 : Bool
  duration1 : ℕ
  deriving DecidableEq

structure BytesEncoderConfig where
  bit0 : RmtSymbol
  bit1 : RmtSymbol
  msbFirst : Bool
  deriving DecidableEq

def ledTxConfig : TxChannelConfig := ⟨statusLedDataPin, 64, 10000000, 4⟩

def ledEncoderConfig : BytesEncoderConfig := ⟨⟨true, 3, false, 9⟩, ⟨true, 9, false, 3⟩, true⟩

/-- The bytes of a colour in the order in which the light takes them. -/
def grb (red green blue : ℕ) : List ℕ := [green, red, blue]

def frameRed : List ℕ := grb 32 0 0
def frameAmber : List ℕ := grb 24 8 0
def frameOff : List ℕ := grb 0 0 0

inductive LedOp
  | load
  | setReady (ready : Bool)
  | setState (state : RecorderState)
  | clearChannel
  | clearEncoder
  | gpioConfig (cfg : GpioConfig)
  | gpioSetLevel (pin : ℕ) (level : Bool)
  | delayUs (us : ℕ)
  | newTxChannel (cfg : TxChannelConfig)
  | newBytesEncoder (cfg : BytesEncoderConfig)
  | rmtEnable (channel : Option ℕ)
  | rmtDisable (channel : Option ℕ)
  | rmtDelEncoder (encoder : Option ℕ)
  | rmtDelChannel (channel : Option ℕ)
  | rmtTransmit (channel encoder : Option ℕ) (frame : List ℕ)
  | rmtTxWaitAllDone (channel : Option ℕ) (timeoutMs : ℕ)
  deriving DecidableEq

/-- The variables of the component. -/
structure LedStatics where
  channel : Option ℕ
  encoder : Option ℕ
  ready : Bool
  state : RecorderState
  deriving DecidableEq

abbrev LedOp.Val : LedOp → Type
  | load => LedStatics
  | _ => Unit

/-- The light: its supply, the frame that it shows for certain, and the frames sent since, of which it may show any. -/
structure Lamp where
  rail : Bool
  shown : Option (List ℕ)
  sent : List (List ℕ)

structure LedWorld where
  var : LedStatics
  channels : Ledger
  encoders : Ledger
  lamp : Lamp

namespace LedWorld

/-- A light without supply forgets what it has shown. -/
def setRail (level : Bool) (l : Lamp) : Lamp := { l with rail := level, shown := if level then l.shown else none }

def effect : LedOp → LedWorld → LedWorld
  | .setReady ready, s => { s with var := { s.var with ready := ready } }
  | .setState state, s => { s with var := { s.var with state := state } }
  | .clearChannel, s => { s with var := { s.var with channel := none } }
  | .clearEncoder, s => { s with var := { s.var with encoder := none } }
  | .gpioSetLevel pin level, s => if pin = statusLedPowerPin then { s with lamp := setRail level s.lamp } else s
  | .newTxChannel _, s => { s with channels := s.channels.giveOut, var := { s.var with channel := some s.channels.next } }
  | .newBytesEncoder _, s => { s with encoders := s.encoders.giveOut, var := { s.var with encoder := some s.encoders.next } }
  | .rmtEnable channel, s | .rmtDisable channel, s => { s with channels := s.channels.use channel }
  | .rmtDelEncoder encoder, s => { s with encoders := s.encoders.handBack encoder }
  | .rmtDelChannel channel, s => { s with channels := s.channels.handBack channel }
  | .rmtTransmit channel encoder frame, s =>
    { s with channels := s.channels.use channel, encoders := s.encoders.use encoder,
             lamp := { s.lamp with sent := frame :: s.lamp.sent } }
  | .rmtTxWaitAllDone channel _, s =>
    { s with channels := s.channels.use channel, lamp := { s.lamp with shown := s.lamp.sent.head?.or s.lamp.shown, sent := [] } }
  | .load, s | .gpioConfig _, s | .delayUs _, s => s

/-- What a failing call leaves: the handles that it names have been used, one that is to be deleted is gone all the same, and a
frame that it was to send may be on its way. -/
def failing : LedOp → LedWorld → LedWorld
  | .rmtTxWaitAllDone channel _, s => { s with channels := s.channels.use channel }
  | .gpioConfig _, s | .gpioSetLevel _ _, s | .newTxChannel _, s | .newBytesEncoder _, s => s
  | o, s => s.effect o

end LedWorld

def LedOp.isPlain : LedOp → Bool
  | load | setReady _ | setState _ | clearChannel | clearEncoder | delayUs _ => true
  | _ => false

def LedOp.answer (s : LedWorld) : (o : LedOp) → o.Val
  | load => s.var
  | setReady _ | setState _ | clearChannel | clearEncoder | gpioConfig _ | gpioSetLevel _ _ | delayUs _ | newTxChannel _
  | newBytesEncoder _ | rmtEnable _ | rmtDisable _ | rmtDelEncoder _ | rmtDelChannel _ | rmtTransmit _ _ _
  | rmtTxWaitAllDone _ _ => ()

def ledDriver : Driver LedOp LedOp.Val LedWorld where
  plain := LedOp.isPlain
  answer o s _ := o.answer s
  effect o s := s.effect o
  failing o s := s.failing o

end Machine

section Programs

abbrev LedM := DriverM LedOp LedOp.Val EspError

abbrev led (o : LedOp) : LedM o.Val := ask o

def disableChannel : LedM Unit := do
  let var ← led .load
  if var.channel = none then return () else ignoring (led (.rmtDisable var.channel))

def dropEncoder : LedM Unit := do
  let var ← led .load
  if var.encoder = none then return ()
  else
    ignoring (led (.rmtDelEncoder var.encoder))
    led .clearEncoder

def dropChannel : LedM Unit := do
  let var ← led .load
  if var.channel = none then return ()
  else
    ignoring (led (.rmtDelChannel var.channel))
    led .clearChannel

def recorderStatusLedCleanup : LedM Unit := do
  disableChannel
  dropEncoder
  dropChannel
  ignoring (led (.gpioSetLevel statusLedPowerPin false))
  led (.setReady false)
  led (.setState .boot)

def recorderStatusLedWrite (red green blue : ℕ) (keepPowered : Bool) : LedM Unit := do
  let var ← led .load
  if !var.ready ∨ var.channel = none ∨ var.encoder = none then throw .invalidState
  else
    led (.gpioSetLevel statusLedPowerPin true)
    led (.delayUs 1000)
    led (.rmtTransmit var.channel var.encoder (grb red green blue))
    led (.rmtTxWaitAllDone var.channel 20)
    led (.delayUs 80)
    if keepPowered then return () else led (.gpioSetLevel statusLedPowerPin false)

/-- The body under the lock. A failure to set up the supply pin has nothing to clean up. -/
def recorderStatusLedInit : LedM Unit := do
  if (← led .load).ready then return ()
  else
    recorderStatusLedCleanup
    led (.gpioConfig (outputPin statusLedPowerPin))
    led (.gpioSetLevel statusLedPowerPin false)
    orElse (led (.newTxChannel ledTxConfig)) recorderStatusLedCleanup
    orElse (led (.newBytesEncoder ledEncoderConfig)) recorderStatusLedCleanup
    let var ← led .load
    orElse (led (.rmtEnable var.channel)) recorderStatusLedCleanup
    led (.setReady true)
    led (.setState .boot)
    orElse (recorderStatusLedWrite 0 0 0 false) recorderStatusLedCleanup

/-- An error indication gives way to nothing, and a low-battery one only to an error. -/
def recorderStatusLedSetState (state : RecorderState) : LedM Unit := do
  let var ← led .load
  if var.state = .error ∧ state ≠ .error then return ()
  else if var.state = .lowBatteryStop ∧ state ≠ .error ∧ state ≠ .lowBatteryStop then return ()
  else
    match state with
    | .error => recorderStatusLedWrite 32 0 0 true
    | .lowBatteryStop => recorderStatusLedWrite 24 8 0 true
    | _ => recorderStatusLedWrite 0 0 0 false
    led (.setState state)

def recorderStatusLedDeinit : LedM Unit := do
  if (← led .load).ready then
    ignoring (recorderStatusLedWrite 0 0 0 false)
    recorderStatusLedCleanup
  else recorderStatusLedCleanup

inductive LedCall
  | init
  | setState (state : RecorderState)
  | deinit

def LedCall.body : LedCall → LedM Unit
  | init => recorderStatusLedInit
  | setState state => recorderStatusLedSetState state
  | deinit => recorderStatusLedDeinit

/-- Only the initialisation makes the lock, and only the main task calls it. -/
def statusLed {ι : Type} (main : ι) :
    Component ι LedOp (fun o => Except EspError o.Val) LedWorld (Fault EspError) LedCall fun _ => Except EspError Unit where
  device := ledDriver.device
  body c := c.body.run
  maker := main
  makes c := match c with
    | .init => true
    | .setState _ | .deinit => false
  absent c := match c with
    | .init => .error .noMem
    | .setState _ => .error .invalidState
    | .deinit => .ok ()
  refused c := match c with
    | .init | .setState _ => .error .fail
    | .deinit => .ok ()

end Programs

section Indication

abbrev LedHistory := List ((_ : LedCall) × Except EspError Unit)

def severity : RecorderState → ℕ
  | .error => 2
  | .lowBatteryStop => 1
  | _ => 0

/-- The gravest indication that has been granted since the light was last taken down. -/
def alarm : LedHistory → ℕ
  | [] => 0
  | ⟨.deinit, _⟩ :: _ => 0
  | ⟨.setState state, .ok _⟩ :: hist => max (severity state) (alarm hist)
  | _ :: hist => alarm hist

/-- The frames that may be on the light for an indication of this severity. -/
def shades : ℕ → List (List ℕ)
  | 0 => []
  | 1 => [frameAmber, frameRed]
  | _ => [frameRed]

theorem shades_subset {a b : ℕ} (ha : 1 ≤ a) (hab : a ≤ b) : shades b ⊆ shades a := by
  match a, b with
  | 1, 1 => exact List.Subset.refl _
  | 1, _ + 2 => exact List.subset_cons_self _ _
  | _ + 2, _ + 2 => exact List.Subset.refl _

/-- The light is supplied and shows one of the frames, whichever of those sent it has taken. -/
structure Lamp.Lit (l : Lamp) (frames : List (List ℕ)) : Prop where
  rail : l.rail = true
  shown : ∃ f ∈ frames, l.shown = some f
  sent : ∀ f ∈ l.sent, f ∈ frames

theorem Lamp.Lit.mono {l : Lamp} {frames frames' : List (List ℕ)} (h : l.Lit frames) (hsub : frames ⊆ frames') : l.Lit frames' := by
  obtain ⟨f, hf, hshown⟩ := h.shown
  exact ⟨h.rail, ⟨f, hsub hf, hshown⟩, fun f hf => hsub (h.sent f hf)⟩

namespace LedWorld

/-- No call has named a handle that is not live, and none is live that the variables have lost. -/
structure Safe (s : LedWorld) : Prop where
  channel : s.channels.KeptBy s.var.channel
  encoder : s.encoders.KeptBy s.var.encoder

/-- The variables hold what is live. -/
structure Owned (s : LedWorld) : Prop where
  channel : s.channels.OwnedBy s.var.channel
  encoder : s.encoders.OwnedBy s.var.encoder

/-- The component as the cleanup leaves it. -/
def down (s : LedWorld) (lamp : Lamp) : LedWorld :=
  ⟨⟨none, none, false, .boot⟩, s.channels.released s.var.channel, s.encoders.released s.var.encoder, lamp⟩

theorem Owned.safe {s : LedWorld} (h : s.Owned) : s.Safe := ⟨h.channel.keptBy, h.encoder.keptBy⟩

theorem Owned.down {s : LedWorld} (h : s.Owned) (lamp : Lamp) : (s.down lamp).Owned := ⟨h.channel.released, h.encoder.released⟩

end LedWorld

/-- What holds between two calls: the light is up with both of its handles, or down with neither, and it shows the gravest
indication that is asked for. -/
structure LedKept (hist : LedHistory) (s : LedWorld) : Prop extends s.Owned where
  up : s.var.ready = true → s.var.channel ≠ none ∧ s.var.encoder ≠ none
  down : s.var.ready = false → s.var.channel = none ∧ s.var.encoder = none ∧ severity s.var.state = 0
  lit : 1 ≤ severity s.var.state → s.lamp.Lit (shades (severity s.var.state))
  grave : alarm hist ≤ severity s.var.state

/-- What holds all along a call. -/
structure LedCall.During (c : LedCall) (hist : LedHistory) (s : LedWorld) : Prop extends s.Safe where
  lit : c ≠ .deinit → 1 ≤ alarm hist → s.lamp.Lit (shades (alarm hist))

variable {s : LedWorld} {C : LedWorld → Prop} {hist : LedHistory}

section Cleanup

theorem runs_disableChannel (h : s.Owned) (hC : ∀ t : LedWorld, t.Safe → C t) :
    Runs ledDriver C disableChannel (fun r t => r = .ok () ∧ t = s) s := by
  have hs := hC s h.safe
  refine runs_load rfl (fun _ => rfl) rfl hs ?_
  obtain ⟨⟨channel, encoder, ready, state⟩, channels, encoders, lamp⟩ := s
  cases channel with
  | none => exact runs_return ⟨rfl, rfl⟩
  | some channel =>
    refine runs_void hs ⟨rfl, ?_⟩ rfl
    change (⟨_, channels.use (some channel), encoders, lamp⟩ : LedWorld) = _
    rw [h.channel.use_eq]

def LedWorld.withoutEncoder (s : LedWorld) : LedWorld :=
  { s with var := { s.var with encoder := none }, encoders := s.encoders.released s.var.encoder }

def LedWorld.withoutChannel (s : LedWorld) : LedWorld :=
  { s with var := { s.var with channel := none }, channels := s.channels.released s.var.channel }

theorem runs_dropEncoder (h : s.Owned) (hC : ∀ t : LedWorld, t.Safe → C t) :
    Runs ledDriver C dropEncoder (fun r t => r = .ok () ∧ t = s.withoutEncoder) s := by
  have hs := hC s h.safe
  refine runs_load rfl (fun _ => rfl) rfl hs ?_
  obtain ⟨⟨channel, encoder, ready, state⟩, channels, encoders, lamp⟩ := s
  cases encoder with
  | none => exact runs_return ⟨rfl, rfl⟩
  | some encoder =>
    exact runs_then (runs_void hs ⟨rfl, rfl⟩ rfl)
      (runs_plain rfl (hC _ ⟨h.channel.keptBy, h.encoder.handBack.keptBy_of_none⟩) fun _ => ⟨rfl, rfl⟩)

theorem runs_dropChannel (h : s.Owned) (hC : ∀ t : LedWorld, t.Safe → C t) :
    Runs ledDriver C dropChannel (fun r t => r = .ok () ∧ t = s.withoutChannel) s := by
  have hs := hC s h.safe
  refine runs_load rfl (fun _ => rfl) rfl hs ?_
  obtain ⟨⟨channel, encoder, ready, state⟩, channels, encoders, lamp⟩ := s
  cases channel with
  | none => exact runs_return ⟨rfl, rfl⟩
  | some channel =>
    exact runs_then (runs_void hs ⟨rfl, rfl⟩ rfl)
      (runs_plain rfl (hC _ ⟨h.channel.handBack.keptBy_of_none, h.encoder.keptBy⟩) fun _ => ⟨rfl, rfl⟩)

/-- The supply may refuse to go off. -/
theorem runs_ledCleanup (h : s.Owned) (hC : ∀ t : LedWorld, t.Safe → C t) :
    Runs ledDriver C recorderStatusLedCleanup (fun r t => r = .ok () ∧ ∃ lamp, t = s.down lamp) s := by
  have hencoder : s.withoutEncoder.Owned := ⟨h.channel, h.encoder.released⟩
  have hchannel : s.withoutEncoder.withoutChannel.Owned := ⟨h.channel.released, h.encoder.released⟩
  refine runs_then (runs_disableChannel h hC) (runs_then (runs_dropEncoder h hC) (runs_then (runs_dropChannel hencoder hC) ?_))
  have hoff : Runs ledDriver C (ignoring (led (.gpioSetLevel statusLedPowerPin false)))
      (fun r t => r = .ok () ∧ ∃ lamp, t = { s.withoutEncoder.withoutChannel with lamp := lamp }) s.withoutEncoder.withoutChannel :=
    runs_ignoring (runs_ask (hC _ hchannel.safe) (fun _ => ⟨rfl, _, rfl⟩) fun _ _ => ⟨rfl, _, rfl⟩)
  refine runs_bind hoff (fun _ t ht => ?_) fun _ _ ht => by cases ht.1
  obtain ⟨-, lamp, rfl⟩ := ht
  have hsafe : LedWorld.Safe { s.withoutEncoder.withoutChannel with lamp := lamp } := ⟨hchannel.channel.keptBy, hchannel.encoder.keptBy⟩
  exact runs_then (runs_plain rfl (hC _ hsafe) fun _ => ⟨rfl, rfl⟩)
    (runs_plain rfl (hC _ ⟨hsafe.channel, hsafe.encoder⟩) fun _ => ⟨rfl, lamp, rfl⟩)

end Cleanup

section Write

/-- A moment of a write: of the component only the light has changed, and it still shows what it showed before or the frame that
is written. -/
structure LedWorld.Writes (s : LedWorld) (frame : List ℕ) (t : LedWorld) : Prop where
  same : t = { s with lamp := t.lamp }
  lit : ∀ frames, frame ∈ frames → s.lamp.Lit frames → t.lamp.Lit frames

variable {frame : List ℕ} {t : LedWorld}

theorem LedWorld.Writes.lamp (h : s.Writes frame t) {l : Lamp}
    (hlit : ∀ frames, frame ∈ frames → t.lamp.Lit frames → l.Lit frames) : s.Writes frame { t with lamp := l } :=
  ⟨by rw [h.same], fun frames hframe hs => hlit frames hframe (h.lit frames hframe hs)⟩

theorem Lamp.Lit.on {l : Lamp} {frames : List (List ℕ)} (h : l.Lit frames) : (LedWorld.setRail true l).Lit frames :=
  ⟨rfl, h.shown, h.sent⟩

theorem Lamp.Lit.send {l : Lamp} {frames : List (List ℕ)} (h : l.Lit frames) (hframe : frame ∈ frames) :
    ({ l with sent := frame :: l.sent } : Lamp).Lit frames :=
  ⟨h.rail, h.shown, List.forall_mem_cons.mpr ⟨hframe, h.sent⟩⟩

theorem Lamp.Lit.wait {l : Lamp} {frames : List (List ℕ)} (h : l.Lit frames) :
    ({ l with shown := l.sent.head?.or l.shown, sent := [] } : Lamp).Lit frames := by
  obtain ⟨f, hf, hshown⟩ := h.shown
  refine ⟨h.rail, ?_, fun g hg => absurd hg List.not_mem_nil⟩
  cases hsent : l.sent with
  | nil => exact ⟨f, hf, by simpa using hshown⟩
  | cons g rest => exact ⟨g, h.sent g (by simp [hsent]), rfl⟩

/-- A write changes the light alone. Where it keeps the light on it never lets it go dark or show another frame, and its success
leaves the frame on. -/
theorem runs_write (h : s.Owned) (hready : s.var.ready = true) (hchannel : s.var.channel ≠ none) (hencoder : s.var.encoder ≠ none)
    {red green blue : ℕ} {keep : Bool} (hC : ∀ t, s.Writes (grb red green blue) t → C t) :
    Runs ledDriver C (recorderStatusLedWrite red green blue keep) (fun r t => (∃ lamp, t = { s with lamp := lamp }) ∧
      (keep = true → s.Writes (grb red green blue) t ∧ (r = .ok () → t.lamp.Lit [grb red green blue]))) s := by
  set frame := grb red green blue
  have hstart : s.Writes frame s := ⟨rfl, fun _ _ hs => hs⟩
  refine runs_load rfl (fun _ => rfl) rfl (hC _ hstart) ?_
  obtain ⟨channel, hc⟩ := Option.ne_none_iff_exists'.mp hchannel
  obtain ⟨encoder, he⟩ := Option.ne_none_iff_exists'.mp hencoder
  rw [if_neg (by simp [hready, hc, he]), hc, he]
  have huse : s.channels.use (some channel) = s.channels := (hc ▸ h.channel : s.channels.OwnedBy (some channel)).use_eq
  have hencode : s.encoders.use (some encoder) = s.encoders := (he ▸ h.encoder : s.encoders.OwnedBy (some encoder)).use_eq
  have herror : ∀ (e : EspError) (t : LedWorld), s.Writes frame t → (∃ lamp, t = { s with lamp := lamp }) ∧
      (keep = true → s.Writes frame t ∧ ((.error e : Except EspError Unit) = .ok () → t.lamp.Lit [frame])) :=
    fun e t ht => ⟨⟨t.lamp, ht.same⟩, fun _ => ⟨ht, fun hr => by cases hr⟩⟩
  -- the supply goes on
  refine runs_next (I := s.Writes frame) (R := fun t => t.lamp.rail = true) ?_ herror fun _ t ht hrail => ?_
  · exact runs_step (hC _ hstart) (hstart.lamp fun _ _ hl => hl.on) rfl hstart
  refine runs_next (I := s.Writes frame) (R := fun t => t.lamp.rail = true) ?_ herror fun _ t ht hrail => ?_
  · exact runs_step (hC _ ht) ht hrail ht
  -- the frame is sent, and may be on its way although the driver reports a failure
  refine runs_next (I := s.Writes frame) (R := fun t => t.lamp.rail = true ∧ t.lamp.sent.head? = some frame) ?_ herror
    fun _ u hu hsent => ?_
  · have hsend : s.Writes frame (LedWorld.effect (.rmtTransmit (some channel) (some encoder) frame) t) := by
      have := ht.lamp (l := { t.lamp with sent := frame :: t.lamp.sent }) fun _ hframe hl => hl.send hframe
      refine ⟨?_, this.lit⟩
      rw [LedWorld.effect, ht.same]
      simp only [huse, hencode]
    exact runs_step (hC _ ht) hsend ⟨hrail, rfl⟩ hsend
  refine runs_next (I := s.Writes frame) (R := fun t => t.lamp.Lit [frame]) ?_ herror fun _ v hv hlit => ?_
  · have husage : u.channels.use (some channel) = u.channels := by rw [hu.same, huse]
    have hwait : s.Writes frame (LedWorld.effect (.rmtTxWaitAllDone (some channel) 20) u) := by
      have := hu.lamp (l := { u.lamp with shown := u.lamp.sent.head?.or u.lamp.shown, sent := [] }) fun _ _ hl => hl.wait
      refine ⟨?_, this.lit⟩
      rw [LedWorld.effect, husage, hu.same]
    have hfail : LedWorld.failing (.rmtTxWaitAllDone (some channel) 20) u = u := by
      rw [LedWorld.failing, husage]
    refine runs_step (hC _ hu) hwait ⟨hsent.1, ⟨frame, List.mem_singleton_self _, ?_⟩, fun g hg => absurd hg List.not_mem_nil⟩ ?_
    · change u.lamp.sent.head?.or u.lamp.shown = some frame
      rw [hsent.2]
      rfl
    · change s.Writes frame (LedWorld.failing (.rmtTxWaitAllDone (some channel) 20) u)
      rw [hfail]
      exact hu
  refine runs_next (I := s.Writes frame) (R := fun t => t.lamp.Lit [frame]) ?_ herror fun _ w hw hlit => ?_
  · exact runs_step (hC _ hv) hv hlit hv
  cases keep with
  | true => exact runs_return ⟨⟨w.lamp, hw.same⟩, fun _ => ⟨hw, fun _ => hlit⟩⟩
  | false =>
    refine runs_ask (hC _ hw) (fun _ => ⟨⟨LedWorld.setRail false w.lamp, ?_⟩, fun hkeep => by cases hkeep⟩)
      fun _ _ => ⟨⟨w.lamp, hw.same⟩, fun hkeep => by cases hkeep⟩
    change ({ w with lamp := _ } : LedWorld) = _
    rw [hw.same]

theorem runs_writeOff (h : s.Owned) (hready : s.var.ready = true) (hchannel : s.var.channel ≠ none) (hencoder : s.var.encoder ≠ none)
    (hC : ∀ t : LedWorld, t.Safe → C t) :
    Runs ledDriver C (recorderStatusLedWrite 0 0 0 false) (fun _ t => ∃ lamp, t = { s with lamp := lamp }) s := by
  refine (runs_write h hready hchannel hencoder fun t ht => hC t ?_).mono fun _ _ ht => ht.1
  rw [ht.same]
  exact ⟨h.safe.channel, h.safe.encoder⟩

end Write

section Calls

theorem LedKept.ready (h : LedKept hist s) (hsevere : 1 ≤ severity s.var.state) : s.var.ready = true := by
  by_contra hready
  have := (h.down (Bool.eq_false_iff.mpr hready)).2.2
  omega

/-- Only taking the light down revokes an indication. -/
theorem alarm_le {c : LedCall} {v : Except EspError Unit} (hc : c ≠ .deinit) : alarm hist ≤ alarm (⟨c, v⟩ :: hist) := by
  cases c with
  | init => exact le_rfl
  | setState state =>
    cases v with
    | ok _ => exact le_max_right _ _
    | error e => exact le_rfl
  | deinit => exact absurd rfl hc

theorem LedKept.skipped {c : LedCall} {v : Except EspError Unit} (h : LedKept hist s) (hv : v = .ok () → c = .deinit) :
    LedKept (⟨c, v⟩ :: hist) s := by
  refine ⟨h.toOwned, h.up, h.down, h.lit, ?_⟩
  cases c with
  | deinit => exact Nat.zero_le _
  | init => exact h.grave
  | setState state =>
    cases v with
    | ok _ => cases hv rfl
    | error e => exact h.grave

theorem LedKept.shows (h : LedKept hist s) {grave : ℕ} (hpos : 1 ≤ grave) (hle : grave ≤ alarm hist) : s.lamp.Lit (shades grave) :=
  (h.lit (hpos.trans (hle.trans h.grave))).mono (shades_subset hpos (hle.trans h.grave))

theorem LedKept.during (h : LedKept hist s) (c : LedCall) : c.During hist s := ⟨h.safe, fun _ halarm => h.shows halarm le_rfl⟩

/-- Every moment of a write that may stand for an indication as grave as any granted so far. -/
theorem LedKept.writes (h : LedKept hist s) {frame : List ℕ} {t : LedWorld} {c : LedCall}
    (hframe : 1 ≤ alarm hist → frame ∈ shades (alarm hist)) (ht : s.Writes frame t) : c.During hist t := by
  refine ⟨?_, fun _ halarm => ht.lit _ (hframe halarm) ((h.during c).lit ‹_› halarm)⟩
  rw [ht.same]
  exact ⟨h.safe.channel, h.safe.encoder⟩

theorem runs_ledSetState {state : RecorderState} (h : LedKept hist s) :
    Runs ledDriver (LedCall.During (.setState state) hist) (recorderStatusLedSetState state)
      (fun r t => LedKept (⟨.setState state, r⟩ :: hist) t) s := by
  refine runs_load rfl (fun _ => rfl) rfl (h.during _) ?_
  -- a request that gives way grants nothing graver than what is shown
  have hless : severity state ≤ severity s.var.state → LedKept (⟨.setState state, .ok ()⟩ :: hist) s := fun hle =>
    ⟨h.toOwned, h.up, h.down, h.lit, max_le hle h.grave⟩
  split
  case isTrue hstate =>
    refine runs_return (hless ?_)
    rw [hstate.1]
    cases state <;> decide
  split
  case isTrue hstate =>
    refine runs_return (hless ?_)
    rw [hstate.1]
    revert hstate
    cases state <;> simp [severity]
  case isFalse herror hlow =>
  have hgraver : severity s.var.state ≤ severity state := by
    cases hs : s.var.state <;> cases state <;> simp [severity, hs] at herror hlow ⊢
  have hwrite : ∀ {red green blue : ℕ} {keep : Bool},
      (1 ≤ severity state → keep = true ∧ grb red green blue ∈ shades (severity state)) →
      Runs ledDriver (LedCall.During (.setState state) hist) (recorderStatusLedWrite red green blue keep >>= fun _ => led (.setState state))
        (fun r t => LedKept (⟨.setState state, r⟩ :: hist) t) s := by
    intro red green blue keep hkeep
    have hfails : ∀ {t : LedWorld} (e : EspError), LedKept hist t → LedKept (⟨.setState state, .error e⟩ :: hist) t :=
      fun e ht => ht.skipped fun hv => by cases hv
    by_cases hready : s.var.ready = true
    case neg =>
      refine runs_bind (R := fun r t => t = s ∧ r ≠ .ok ()) ?_ (fun _ _ ht => absurd rfl ht.2) fun e t ht => ht.1 ▸ hfails e h
      refine runs_load rfl (fun _ => rfl) rfl (h.during _) ?_
      rw [if_pos (by simp [hready])]
      exact runs_throw ⟨rfl, fun hr => by cases hr⟩
    have hframe : ∀ g, 1 ≤ g → g ≤ severity state → grb red green blue ∈ shades g := fun g hg hle =>
      shades_subset hg hle (hkeep (hg.trans hle)).2
    have hC : ∀ t, s.Writes (grb red green blue) t → LedCall.During (.setState state) hist t := fun t ht =>
      h.writes (fun halarm => hframe _ halarm (h.grave.trans hgraver)) ht
    obtain ⟨hchannel, hencoder⟩ := h.up hready
    refine runs_bind (runs_write h.toOwned hready hchannel hencoder hC) (fun _ t ht => ?_) fun e t ht => hfails e ?_
    all_goals obtain ⟨⟨lamp, rfl⟩, hlit⟩ := ht
    · have hlamp : 1 ≤ severity state → lamp.Lit (shades (severity state)) := fun hsevere =>
        ((hlit (hkeep hsevere).1).2 rfl).mono (by simpa using (hkeep hsevere).2)
      refine runs_plain rfl ⟨⟨h.safe.channel, h.safe.encoder⟩, fun _ halarm => ?_⟩ fun _ => ?_
      · have hle := h.grave.trans hgraver
        exact (hlamp (halarm.trans hle)).mono (shades_subset halarm hle)
      · exact ⟨⟨h.channel, h.encoder⟩, h.up, fun hdown => absurd (hready.symm.trans hdown) (by decide), hlamp,
          max_le le_rfl (h.grave.trans hgraver)⟩
    · refine ⟨⟨h.channel, h.encoder⟩, h.up, h.down, fun hsevere => ?_, h.grave⟩
      have hkept := hkeep (hsevere.trans hgraver)
      exact (hlit hkept.1).1.lit _ (hframe _ hsevere hgraver) (h.lit hsevere)
  cases state with
  | error => exact hwrite fun _ => ⟨rfl, List.mem_singleton_self _⟩
  | lowBatteryStop => exact hwrite fun _ => ⟨rfl, List.mem_cons_self⟩
  | boot | recover | recording | usbPrepare | usbSync | remount => exact hwrite fun hsevere => absurd hsevere (by decide)

/-- The component with nothing set up. -/
structure LedWorld.Down (t : LedWorld) : Prop extends t.Owned where
  var : t.var = ⟨none, none, false, .boot⟩

theorem LedWorld.Owned.isDown (h : s.Owned) (lamp : Lamp) : (s.down lamp).Down := ⟨h.down lamp, rfl⟩

theorem LedWorld.Down.kept {t : LedWorld} (h : t.Down) (halarm : alarm hist = 0) : LedKept hist t := by
  have hvar := h.var
  refine ⟨h.toOwned, fun hready => ?_, fun _ => ?_, fun hsevere => ?_, halarm ▸ Nat.zero_le _⟩
  · rw [hvar] at hready
    cases hready
  · rw [hvar]
    exact ⟨rfl, rfl, rfl⟩
  · rw [hvar] at hsevere
    cases hsevere

theorem runs_ledInit (h : LedKept hist s) :
    Runs ledDriver (LedCall.During .init hist) recorderStatusLedInit (fun r t => LedKept (⟨.init, r⟩ :: hist) t) s := by
  refine runs_load rfl (fun _ => rfl) rfl (h.during _) ?_
  by_cases hready : s.var.ready = true
  · rw [if_pos hready]
    exact runs_return ⟨h.toOwned, h.up, h.down, h.lit, h.grave⟩
  rw [if_neg hready]
  have halarm : alarm hist = 0 := by
    have := h.grave
    have := (h.down (Bool.eq_false_iff.mpr hready)).2.2
    omega
  have hC : ∀ t : LedWorld, t.Safe → LedCall.During .init hist t := fun t ht =>
    ⟨ht, fun _ hpos => absurd hpos (by omega)⟩
  have hfailed : ∀ {t : LedWorld} (r : Except EspError Unit), t.Down → LedKept (⟨.init, r⟩ :: hist) t := fun r ht =>
    ht.kept (by cases r <;> exact halarm)
  have hcleanup : ∀ {t : LedWorld} (e : EspError), t.Owned →
      Runs ledDriver (LedCall.During .init hist) recorderStatusLedCleanup (fun _ u => LedKept (⟨.init, .error e⟩ :: hist) u) t :=
    fun e ht => (runs_ledCleanup ht hC).mono fun _ u hu => by
      obtain ⟨-, lamp, rfl⟩ := hu
      exact hfailed _ (ht.isDown lamp)
  refine runs_bind (runs_ledCleanup h.toOwned hC) (fun _ t ht => ?_) fun e t ht => by cases ht.1
  obtain ⟨-, lamp, rfl⟩ := ht
  have hthen : ∀ {p : LedM Unit} {f : Unit → LedM Unit} {t u w : LedWorld},
      Runs ledDriver (LedCall.During .init hist) p (Ends u w) t → w.Owned →
      Runs ledDriver (LedCall.During .init hist) (f ()) (fun r t => LedKept (⟨.init, r⟩ :: hist) t) u →
      Runs ledDriver (LedCall.During .init hist) (orElse p recorderStatusLedCleanup >>= f)
        (fun r t => LedKept (⟨.init, r⟩ :: hist) t) t := fun {p f t u w} hp hw hf => by
    refine runs_bind (R := fun r v => match r with
      | .ok _ => v = u
      | .error e => LedKept (⟨.init, .error e⟩ :: hist) v) (runs_orElse hp (fun _ hv => hv) fun e v hv => ?_) (fun _ v hv => ?_)
      fun _ _ hv => hv
    · rw [show v = w from hv]
      exact hcleanup e hw
    · rw [show v = u from hv]
      exact hf
  have hdown := h.toOwned.isDown lamp
  have hdark : LedWorld.Down { s.down lamp with lamp := LedWorld.setRail false lamp } := ⟨⟨hdown.channel, hdown.encoder⟩, rfl⟩
  refine runs_cases (runs_ends (hC _ hdown.safe)) (fun e => hfailed _ hdown) fun _ => ?_
  refine runs_cases (runs_ends (hC _ hdown.safe)) (fun e => hfailed _ hdown) fun _ => ?_
  refine hthen (runs_ends (hC _ hdark.safe)) hdark.toOwned ?_
  set channels := (s.down lamp).channels
  set encoders := (s.down lamp).encoders
  have hopen : LedWorld.Owned ⟨⟨some channels.next, none, false, .boot⟩, channels.giveOut, encoders, LedWorld.setRail false lamp⟩ :=
    ⟨hdown.channel.giveOut, hdown.encoder⟩
  refine hthen (runs_ends (hC _ hopen.safe)) hopen ?_
  have hboth : ∀ ready, LedWorld.Owned ⟨⟨some channels.next, some encoders.next, ready, .boot⟩, channels.giveOut, encoders.giveOut,
      LedWorld.setRail false lamp⟩ := fun _ => ⟨hdown.channel.giveOut, hdown.encoder.giveOut⟩
  refine runs_load rfl (fun _ => rfl) rfl (hC _ (hboth false).safe) ?_
  have huse : channels.giveOut.use (some channels.next) = channels.giveOut := hdown.channel.giveOut.use_eq
  have henable : Runs ledDriver (LedCall.During .init hist) (led (.rmtEnable (some channels.next)))
      (Ends ⟨⟨some channels.next, some encoders.next, false, .boot⟩, channels.giveOut, encoders.giveOut, LedWorld.setRail false lamp⟩
        ⟨⟨some channels.next, some encoders.next, false, .boot⟩, channels.giveOut, encoders.giveOut, LedWorld.setRail false lamp⟩)
      ⟨⟨some channels.next, some encoders.next, false, .boot⟩, channels.giveOut, encoders.giveOut, LedWorld.setRail false lamp⟩ := by
    refine runs_ask (hC _ (hboth false).safe) (fun _ => ?_) fun _ _ => ?_
    all_goals
      change (⟨_, channels.giveOut.use (some channels.next), _, _⟩ : LedWorld) = _
      rw [huse]
  refine hthen henable (hboth false) ?_
  refine runs_then (runs_plain rfl (hC _ (hboth false).safe) fun _ => ⟨rfl, rfl⟩) ?_
  refine runs_then (runs_plain rfl (hC _ (hboth true).safe) fun _ => ⟨rfl, rfl⟩) ?_
  refine runs_orElse (runs_writeOff (hboth true) rfl (Option.some_ne_none _) (Option.some_ne_none _) hC) (fun t ht => ?_)
    fun e t ht => ?_
  all_goals obtain ⟨lamp, rfl⟩ := ht
  · exact ⟨⟨(hboth true).channel, (hboth true).encoder⟩, fun _ => ⟨Option.some_ne_none _, Option.some_ne_none _⟩,
      fun hready => absurd hready.symm Bool.false_ne_true, fun hsevere => absurd (show 1 ≤ 0 from hsevere) (by decide),
      halarm ▸ Nat.zero_le _⟩
  · exact hcleanup e ⟨(hboth true).channel, (hboth true).encoder⟩

theorem runs_ledDeinit (h : LedKept hist s) :
    Runs ledDriver (LedCall.During .deinit hist) recorderStatusLedDeinit (fun r t => LedKept (⟨.deinit, r⟩ :: hist) t) s := by
  have hC : ∀ t : LedWorld, t.Safe → LedCall.During .deinit hist t := fun t ht => ⟨ht, fun hne => absurd rfl hne⟩
  have hcleanup : ∀ {t : LedWorld}, t.Owned →
      Runs ledDriver (LedCall.During .deinit hist) recorderStatusLedCleanup (fun r u => LedKept (⟨.deinit, r⟩ :: hist) u) t :=
    fun ht => (runs_ledCleanup ht hC).mono fun _ u hu => by
      obtain ⟨-, lamp, rfl⟩ := hu
      exact (ht.isDown lamp).kept rfl
  refine runs_load rfl (fun _ => rfl) rfl (hC _ h.safe) ?_
  by_cases hready : s.var.ready = true
  · rw [if_pos hready]
    obtain ⟨hchannel, hencoder⟩ := h.up hready
    refine runs_bind (R := fun r t => r = .ok () ∧ ∃ lamp, t = { s with lamp := lamp })
      (runs_ignoring ((runs_writeOff h.toOwned hready hchannel hencoder hC).mono fun _ _ ht => ⟨rfl, ht⟩)) (fun _ t ht => ?_)
      fun _ _ ht => by cases ht.1
    obtain ⟨-, lamp, rfl⟩ := ht
    exact hcleanup ⟨h.channel, h.encoder⟩
  · rw [if_neg hready]
    exact hcleanup h.toOwned

theorem keeps_ledCall (c : LedCall) (h : LedKept hist s) :
    Runs ledDriver (c.During hist) c.body (fun r t => LedKept (⟨c, r⟩ :: hist) t) s :=
  match c with
  | .init => runs_ledInit h
  | .setState _ => runs_ledSetState h
  | .deinit => runs_ledDeinit h

def LedWorld.start : LedWorld := ⟨⟨none, none, false, .boot⟩, .empty, .empty, ⟨false, none, []⟩⟩

variable {ι : Type} [DecidableEq ι] {main : ι}

/-- In whatever order the tasks move and whichever calls to the drivers fail: no pulse handle is used after it has been given
back, and none is lost; between two calls the light is up with both of its handles, or down with neither; and from an
indication that was granted until the light is taken down, its supply stays on and it shows that indication or a graver one. -/
theorem led_indicates {P : Threads.Pool ι (LockOp LedOp LedCall) (LockOp.Ans fun o => Except EspError o.Val) (Mem LedCall LedWorld)
    LedCall (fun _ => Except EspError Unit) Unit LedHistory} (h : Reached (statusLed main) .absent .start P) :
    (∀ c, P.mem.lock = .held c → c.During P.seen P.mem.state) ∧
      ((∀ c, P.mem.lock ≠ .held c) → LedKept P.seen P.mem.state) := by
  refine reached_keeps (M := statusLed main) (J := LedKept) (K := LedCall.During) (fun _ => Lock.absent_ne_held _) (fun _ _ => rfl) ?_ (fun c _ _ hs => keeps_ledCall c hs)
    (fun c v _ _ hv hs => hs.skipped fun hok => ?_) (fun c v hist s hs => ?_) h
  · exact LedWorld.Down.kept ⟨⟨Ledger.ownedBy_empty, Ledger.ownedBy_empty⟩, rfl⟩ rfl
  · rcases hv with hv | hv <;> cases c <;> first | rfl | (rw [hok] at hv; cases hv)
  · exact ⟨hs.safe, fun hc halarm => hs.shows halarm (alarm_le hc)⟩

/-- The main task sets the light up, and another one asks for the error indication. -/
theorem led_indicates_red : ∃ (s : LedWorld) (hist : LedHistory), s.lamp.shown = some frameRed ∧ LedKept hist s := by
  have hstart : Reached (statusLed true) .absent .start (idle .absent .start) := .start
  obtain ⟨seen, hinit⟩ := reached_call hstart true .init [] rfl rfl rfl
  obtain ⟨hist, hred⟩ := reached_call hinit false (.setState .error) [] rfl rfl rfl
  exact ⟨_, hist, rfl, (led_indicates hred).2 fun c => Lock.free_ne_held c⟩

end Calls

end Indication

end M5DayLog.StatusLed
