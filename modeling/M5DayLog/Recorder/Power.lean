import M5DayLog.Config
import M5DayLog.Lib.Drivers
import M5DayLog.Lib.Monitor

/-! Power: the HOLD pin that keeps the board on its battery, the battery monitor, and the shutdown into deep sleep. Every call
to a driver may fail, and a reading may be any number. -/

namespace M5DayLog.Power

open Drivers Monitor

section Board

/-- The errors that the components name, and any other that a driver may give. -/
inductive EspError
  | invalidArg
  | invalidState
  | invalidResponse
  | noMem
  | fail
  | driver (code : ℕ)
  deriving DecidableEq

inductive GpioMode
  | input
  | output
  deriving DecidableEq

structure GpioConfig where
  pin : ℕ
  mode : GpioMode
  pullUp : Bool
  pullDown : Bool
  interrupts : Bool
  deriving DecidableEq

/-- A pin as its driver has set it, and the level at which its pad is held, where it is. -/
structure Pin where
  output : Bool
  level : Bool
  latched : Option Bool
  deriving DecidableEq

/-- The pad drives a high level. -/
def Pin.high (p : Pin) : Bool := p.latched.getD (p.output && p.level)

theorem Pin.high_free {p : Pin} (h : p.latched = none) : p.high = (p.output && p.level) :=
  congrArg (Option.getD · (p.output && p.level)) h

theorem Pin.high_held {p : Pin} {v : Bool} (h : p.latched = some v) : p.high = v :=
  congrArg (Option.getD · (p.output && p.level)) h

def powerHoldPin : ℕ := 46
def wakeButtonPin : ℕ := 42

def outputPin (pin : ℕ) : GpioConfig := ⟨pin, .output, false, false, false⟩

end Board

section Machine

structure AdcConfig where
  unit : ℕ
  channel : ℕ
  attenDb : ℕ
  deriving DecidableEq

/-- The unit, channel and attenuation of the battery. -/
def batteryAdc : AdcConfig := ⟨1, 5, 12⟩

def batteryDividerNum : ℤ := 2

inductive PowerOp
  | load
  | setReady (ready : Bool)
  | clearUnit
  | clearCali
  | gpioConfig (cfg : GpioConfig)
  | gpioSetLevel (pin : ℕ) (level : Bool)
  | gpioGetLevel (pin : ℕ)
  | gpioHoldEn (pin : ℕ)
  | gpioHoldDis (pin : ℕ)
  | deepSleepHoldEn
  | deepSleepHoldDis
  | adcNewUnit (cfg : AdcConfig)
  | adcConfigChannel (unit : Option ℕ) (cfg : AdcConfig)
  | adcDelUnit (unit : Option ℕ)
  | adcRead (unit : Option ℕ) (cfg : AdcConfig)
  | caliCreate (cfg : AdcConfig)
  | caliDelete (cali : Option ℕ)
  | caliRawToVoltage (cali : Option ℕ) (raw : ℤ)
  | disableWakeupSources
  | deepSleepStart
  deriving DecidableEq

/-- The variables of the component. -/
structure PowerStatics where
  adcUnit : Option ℕ
  adcCali : Option ℕ
  powerReady : Bool
  deriving DecidableEq

abbrev PowerOp.Val : PowerOp → Type
  | load => PowerStatics
  | gpioGetLevel _ | adcRead _ _ | caliRawToVoltage _ _ => ℤ
  | _ => Unit

/-- What stands at a moment at which the chip goes to sleep. -/
structure SleepEntry where
  wakeSources : Bool
  hold : Pin
  deepHold : Bool
  handles : List ℕ
  deriving DecidableEq

/-- The variables of the battery monitor and the handles of its drivers. -/
structure Monitoring where
  var : PowerStatics
  units : Ledger
  calis : Ledger

/-- The HOLD pin and what keeps the chip awake; `falls` notes at each fall of the pad whether the chip could still wake, and
`sleeps` every entry into deep sleep. -/
structure Holding where
  pin : Pin
  deepHold : Bool
  wakeSources : Bool
  falls : List Bool
  sleeps : List SleepEntry

structure PowerWorld where
  adc : Monitoring
  hold : Holding

def Holding.setPin (b : Holding) (pin : Pin) : Holding :=
  { b with pin := pin, falls := if b.pin.high && !pin.high then b.wakeSources :: b.falls else b.falls }

namespace PowerWorld

def onAdc (s : PowerWorld) (f : Monitoring → Monitoring) : PowerWorld := { s with adc := f s.adc }

def onHold (s : PowerWorld) (f : Holding → Holding) : PowerWorld := { s with hold := f s.hold }

/-- The pin, where it is HOLD. -/
def onPin (s : PowerWorld) (pin : ℕ) (f : Pin → Pin) : PowerWorld :=
  if pin = powerHoldPin then s.onHold fun b => b.setPin (f b.pin) else s

def setVar (s : PowerWorld) (f : PowerStatics → PowerStatics) : PowerWorld := s.onAdc fun a => { a with var := f a.var }

/-- A call that succeeds. -/
def effect : PowerOp → PowerWorld → PowerWorld
  | .setReady ready, s => s.setVar fun v => { v with powerReady := ready }
  | .clearUnit, s => s.setVar fun v => { v with adcUnit := none }
  | .clearCali, s => s.setVar fun v => { v with adcCali := none }
  | .gpioConfig cfg, s => s.onPin cfg.pin fun p => { p with output := cfg.mode = .output }
  | .gpioSetLevel pin level, s => s.onPin pin fun p => { p with level := level }
  | .gpioHoldEn pin, s => s.onPin pin fun p => { p with latched := some p.high }
  | .gpioHoldDis pin, s => s.onPin pin fun p => { p with latched := none }
  | .deepSleepHoldEn, s => s.onHold fun b => { b with deepHold := true }
  | .deepSleepHoldDis, s => s.onHold fun b => { b with deepHold := false }
  | .adcNewUnit _, s =>
    s.onAdc fun a => { a with units := a.units.giveOut, var := { a.var with adcUnit := some a.units.next } }
  | .adcConfigChannel unit _, s | .adcRead unit _, s => s.onAdc fun a => { a with units := a.units.use unit }
  | .adcDelUnit unit, s => s.onAdc fun a => { a with units := a.units.handBack unit }
  | .caliCreate _, s =>
    s.onAdc fun a => { a with calis := a.calis.giveOut, var := { a.var with adcCali := some a.calis.next } }
  | .caliDelete cali, s => s.onAdc fun a => { a with calis := a.calis.handBack cali }
  | .caliRawToVoltage cali _, s => s.onAdc fun a => { a with calis := a.calis.use cali }
  | .disableWakeupSources, s => s.onHold fun b => { b with wakeSources := false }
  | .deepSleepStart, s => s.onHold fun b =>
    { b with sleeps := ⟨b.wakeSources, b.pin, b.deepHold, s.adc.units.live ++ s.adc.calis.live⟩ :: b.sleeps }
  | .load, s | .gpioGetLevel _, s => s

/-- What a failing call leaves: the handle that it names has been used, and one that is to be deleted is gone all the same. -/
def failing : PowerOp → PowerWorld → PowerWorld
  | .adcConfigChannel unit cfg, s => s.effect (.adcConfigChannel unit cfg)
  | .adcRead unit cfg, s => s.effect (.adcRead unit cfg)
  | .adcDelUnit unit, s => s.effect (.adcDelUnit unit)
  | .caliDelete cali, s => s.effect (.caliDelete cali)
  | .caliRawToVoltage cali raw, s => s.effect (.caliRawToVoltage cali raw)
  | _, s => s

end PowerWorld

/-- Those operations that give no error code. -/
def PowerOp.isPlain : PowerOp → Bool
  | load | setReady _ | clearUnit | clearCali | gpioGetLevel _ | deepSleepHoldEn | deepSleepHoldDis | deepSleepStart => true
  | _ => false

def PowerOp.answer (s : PowerWorld) (n : ℤ) : (o : PowerOp) → o.Val
  | load => s.adc.var
  | gpioGetLevel _ | adcRead _ _ | caliRawToVoltage _ _ => n
  | setReady _ | clearUnit | clearCali | gpioConfig _ | gpioSetLevel _ _ | gpioHoldEn _ | gpioHoldDis _ | deepSleepHoldEn
  | deepSleepHoldDis | adcNewUnit _ | adcConfigChannel _ _ | adcDelUnit _ | caliCreate _ | caliDelete _ | disableWakeupSources
  | deepSleepStart => ()

def powerDriver : Driver PowerOp PowerOp.Val PowerWorld where
  plain := PowerOp.isPlain
  answer o s n := o.answer s n
  effect o s := s.effect o
  failing o s := s.failing o

end Machine

section Programs

abbrev PowerM := DriverM PowerOp PowerOp.Val EspError

abbrev power (o : PowerOp) : PowerM o.Val := ask o

/-- Delete the calibration, where there is one. -/
def dropCali : PowerM Unit := do
  let var ← power .load
  if var.adcCali = none then return ()
  else
    ignoring (power (.caliDelete var.adcCali))
    power .clearCali

/-- Delete the unit, where there is one. -/
def dropUnit : PowerM Unit := do
  let var ← power .load
  if var.adcUnit = none then return ()
  else
    ignoring (power (.adcDelUnit var.adcUnit))
    power .clearUnit

def recorderPowerCleanup : PowerM Unit := do
  dropCali
  dropUnit
  power (.setReady false)

def recorderPowerConfigHoldOutput : PowerM Unit := power (.gpioConfig (outputPin powerHoldPin))

/-- The pad is driven high before its latch is released, so that it shows no other level in between. -/
def recorderPowerEnableHold : PowerM Unit := do
  recorderPowerConfigHoldOutput
  power (.gpioSetLevel powerHoldPin true)
  power .deepSleepHoldDis
  power (.gpioHoldDis powerHoldPin)
  power (.gpioSetLevel powerHoldPin true)

def recorderPowerReleaseHold : PowerM Unit := do
  recorderPowerConfigHoldOutput
  power (.gpioSetLevel powerHoldPin false)
  power (.gpioHoldEn powerHoldPin)
  power .deepSleepHoldEn

/-- The button is active low. -/
def recorderPowerManualWakeAsserted : PowerM Bool := do
  power (.gpioConfig ⟨wakeButtonPin, .input, true, false, false⟩)
  let level ← power (.gpioGetLevel wakeButtonPin)
  return level = 0

def recorderPowerInit : PowerM Unit := do
  recorderPowerEnableHold
  if (← power .load).powerReady then return ()
  else
    recorderPowerCleanup
    orElse (power (.adcNewUnit batteryAdc)) recorderPowerCleanup
    power (.setReady true)
    let var ← power .load
    orElse (power (.adcConfigChannel var.adcUnit batteryAdc)) recorderPowerCleanup
    orElse (power (.caliCreate batteryAdc)) recorderPowerCleanup

def recorderPowerReadBatteryMv : PowerM ℤ := do
  let var ← power .load
  if !var.powerReady ∨ var.adcUnit = none ∨ var.adcCali = none then throw .invalidState
  else
    let raw ← power (.adcRead var.adcUnit batteryAdc)
    let pinMv ← power (.caliRawToVoltage var.adcCali raw)
    if pinMv ≤ 0 ∨ 2500 < pinMv then throw .invalidResponse else return pinMv * batteryDividerNum

def recorderPowerDeinit : PowerM Unit := recorderPowerCleanup

/-- Wake sources first, then HOLD, then sleep: a failure leaves the board awake. -/
def recorderPowerShutdown : PowerM Unit := do
  recorderPowerCleanup
  power .disableWakeupSources
  recorderPowerReleaseHold
  power .deepSleepStart

end Programs

section Safety

/-- No call has named a handle that is not live, and none is live that the variables have lost. -/
structure Monitoring.Sound (a : Monitoring) : Prop where
  unit : a.units.KeptBy a.var.adcUnit
  cali : a.calis.KeptBy a.var.adcCali

/-- The variables hold what is live. -/
structure Monitoring.Owned (a : Monitoring) : Prop where
  unit : a.units.OwnedBy a.var.adcUnit
  cali : a.calis.OwnedBy a.var.adcCali

/-- Between two calls: the monitor is ready only with both of its handles. -/
structure Monitoring.Settled (a : Monitoring) : Prop extends a.Owned where
  ready : a.var.powerReady = true → a.var.adcUnit ≠ none ∧ a.var.adcCali ≠ none

/-- Nothing can wake the chip, the pad is held low, and no handle is left. -/
def SleepEntry.Safe (e : SleepEntry) : Prop :=
  e.wakeSources = false ∧ e.hold.latched = some false ∧ e.deepHold = true ∧ e.handles = []

structure Holding.Safe (b : Holding) : Prop where
  latched : b.pin.latched ≠ some true
  falls : ∀ wakeSources ∈ b.falls, wakeSources = false
  sleeps : ∀ e ∈ b.sleeps, e.Safe

/-- What holds at every moment. -/
structure PowerWorld.Safe (s : PowerWorld) : Prop where
  adc : s.adc.Sound
  hold : s.hold.Safe

/-- A moment of a call that began in `s` and leaves the HOLD pad high. -/
structure PowerWorld.Keeps (s t : PowerWorld) : Prop extends t.Safe where
  high : s.hold.pin.high = true → t.hold.pin.high = true

abbrev PowerRuns {α : Type} (C : PowerWorld → Prop) (p : PowerM α) (Q : Except EspError α → PowerWorld → Prop) (s : PowerWorld) :
    Prop := Runs powerDriver C p Q s

variable {α β : Type} {s : PowerWorld} {a : Monitoring} {b : Holding} {C : PowerWorld → Prop}

theorem Monitoring.Owned.sound (h : a.Owned) : a.Sound := ⟨h.unit.keptBy, h.cali.keptBy⟩

section Cleanup

namespace Monitoring

def withoutCali (a : Monitoring) : Monitoring :=
  { a with var := { a.var with adcCali := none }, calis := a.calis.released a.var.adcCali }

def withoutUnit (a : Monitoring) : Monitoring :=
  { a with var := { a.var with adcUnit := none }, units := a.units.released a.var.adcUnit }

/-- The monitor as the cleanup leaves it. -/
def cleaned (a : Monitoring) : Monitoring :=
  ⟨⟨none, none, false⟩, a.units.released a.var.adcUnit, a.calis.released a.var.adcCali⟩

theorem Owned.withoutCali (h : a.Owned) : a.withoutCali.Owned := ⟨h.unit, h.cali.released⟩

theorem Owned.withoutUnit (h : a.Owned) : a.withoutUnit.Owned := ⟨h.unit.released, h.cali⟩

theorem Owned.cleaned (h : a.Owned) : a.cleaned.Settled :=
  ⟨⟨h.unit.released, h.cali.released⟩, fun hready => absurd hready Bool.false_ne_true⟩

/-- Nothing is left to be given back. -/
theorem Owned.none_live (h : a.Owned) : a.cleaned.units.live ++ a.cleaned.calis.live = [] := by
  rw [h.cleaned.unit.live, h.cleaned.cali.live]
  rfl

end Monitoring

theorem runs_dropCali (h : s.adc.Owned) (hC : ∀ adc : Monitoring, adc.Sound → C ⟨adc, s.hold⟩) :
    PowerRuns C dropCali (fun r t => r = .ok () ∧ t = s.onAdc Monitoring.withoutCali) s := by
  have hs := hC _ h.sound
  refine runs_load rfl (fun _ => rfl) rfl hs ?_
  obtain ⟨⟨⟨unit, cali, ready⟩, units, calis⟩, hold⟩ := s
  cases cali with
  | none => exact runs_return ⟨rfl, rfl⟩
  | some cali =>
    exact runs_then (runs_void hs ⟨rfl, rfl⟩ rfl)
      (runs_plain rfl (hC _ ⟨h.sound.unit, h.cali.handBack.keptBy_of_none⟩) fun _ => ⟨rfl, rfl⟩)

theorem runs_dropUnit (h : s.adc.Owned) (hC : ∀ adc : Monitoring, adc.Sound → C ⟨adc, s.hold⟩) :
    PowerRuns C dropUnit (fun r t => r = .ok () ∧ t = s.onAdc Monitoring.withoutUnit) s := by
  have hs := hC _ h.sound
  refine runs_load rfl (fun _ => rfl) rfl hs ?_
  obtain ⟨⟨⟨unit, cali, ready⟩, units, calis⟩, hold⟩ := s
  cases unit with
  | none => exact runs_return ⟨rfl, rfl⟩
  | some unit =>
    exact runs_then (runs_void hs ⟨rfl, rfl⟩ rfl)
      (runs_plain rfl (hC _ ⟨h.unit.handBack.keptBy_of_none, h.sound.cali⟩) fun _ => ⟨rfl, rfl⟩)

theorem runs_cleanup (h : s.adc.Owned) (hC : ∀ adc : Monitoring, adc.Sound → C ⟨adc, s.hold⟩) :
    PowerRuns C recorderPowerCleanup (fun r t => r = .ok () ∧ t = s.onAdc Monitoring.cleaned) s :=
  runs_then (runs_dropCali h hC) (runs_then (runs_dropUnit h.withoutCali hC)
    (runs_plain rfl (hC _ h.withoutCali.withoutUnit.sound) fun _ => ⟨rfl, rfl⟩))

end Cleanup

section Hold

/-- The pad after a call that sets the pin; it may fall only where nothing can wake the chip. -/
theorem Holding.Safe.setPin (hb : b.Safe) {p : Pin} (hp : p.latched ≠ some true)
    (hfall : b.wakeSources = true → b.pin.high = true → p.high = true) : (b.setPin p).Safe := by
  refine ⟨hp, fun w hw => ?_, hb.sleeps⟩
  change w ∈ if b.pin.high && !p.high then _ else _ at hw
  split at hw
  case isTrue hfalls =>
    rcases List.mem_cons.mp hw with rfl | hw
    · rw [Bool.and_eq_true, Bool.not_eq_true'] at hfalls
      by_contra hwake
      have := hfall (by simpa using hwake) hfalls.1
      rw [hfalls.2] at this
      cases this
    · exact hb.falls w hw
  case isFalse => exact hb.falls w hw

/-- The HOLD pin is set up as an output that is driven high. -/
def Pin.Driven (p : Pin) : Prop := p.output = true ∧ p.level = true

theorem Pin.Driven.high {p : Pin} (h : p.Driven) (hlatched : p.latched = none) : p.high = true := by
  rw [Pin.high_free hlatched, h.1, h.2]
  rfl

/-- A high pad stays high where it becomes an output, or its level is set high. -/
theorem high_output {p : Pin} (h : p.high = true) : { p with output := true : Pin }.high = true := by
  cases hl : p.latched with
  | none =>
    rw [Pin.high_free hl, Bool.and_eq_true] at h
    exact h.2
  | some v => exact (Pin.high_held hl).symm.trans h

theorem high_level {p : Pin} (h : p.high = true) : { p with level := true : Pin }.high = true := by
  cases hl : p.latched with
  | none =>
    rw [Pin.high_free hl, Bool.and_eq_true] at h
    exact (Bool.and_true _).trans h.1
  | some v => exact (Pin.high_held hl).symm.trans h

/-- A pad that is not held high goes low with its level. -/
theorem low_level {p : Pin} (h : p.latched ≠ some true) : { p with level := false : Pin }.high = false := by
  cases hl : p.latched with
  | none => exact Bool.and_false _
  | some v =>
    rw [hl, ne_eq, Option.some.injEq, Bool.not_eq_true] at h
    exact h

/-- A step on the HOLD pin and no more. -/
structure OnHold (s t : PowerWorld) : Prop where
  adc : t.adc = s.adc
  safe : t.hold.Safe
  high : s.hold.pin.high = true → t.hold.pin.high = true

theorem OnHold.keeps {t : PowerWorld} (h : OnHold s t) (hs : s.Safe) : s.Keeps t := ⟨⟨h.adc ▸ hs.adc, h.safe⟩, h.high⟩

theorem OnHold.setPin {t : PowerWorld} (h : OnHold s t) {p : Pin} (hp : p.latched ≠ some true)
    (hhigh : t.hold.pin.high = true → p.high = true) : OnHold s ⟨t.adc, t.hold.setPin p⟩ :=
  ⟨h.adc, h.safe.setPin hp fun _ => hhigh, hhigh ∘ h.high⟩

theorem runs_enableHold (hs : s.Safe) :
    PowerRuns s.Keeps recorderPowerEnableHold (Reaches (OnHold s) fun t => t.hold.pin.high = true) s := by
  refine runs_reaches (R := fun t => t.hold.pin.output = true) ?_ fun _ t ht houtput => ?_
  · have h₀ : OnHold s s := ⟨rfl, hs.hold, id⟩
    exact runs_step (h₀.keeps hs) (h₀.setPin (p := { s.hold.pin with output := true }) hs.hold.latched high_output) rfl h₀
  refine runs_reaches (R := fun t => t.hold.pin.Driven) ?_ fun _ u hu hdriven => ?_
  · exact runs_step (ht.keeps hs) (ht.setPin (p := { t.hold.pin with level := true }) ht.safe.latched high_level)
      ⟨houtput, rfl⟩ ht
  refine runs_reaches (R := fun t => t.hold.pin.Driven) ?_ fun _ v hv hdriven => ?_
  · exact runs_step (hu.keeps hs) ⟨hu.adc, ⟨hu.safe.latched, hu.safe.falls, hu.safe.sleeps⟩, hu.high⟩ hdriven hu
  refine runs_reaches (R := fun t => t.hold.pin.high = true) ?_ fun _ w hw hhigh => ?_
  · have hfree : ({ v.hold.pin with latched := none } : Pin).high = true := Pin.Driven.high hdriven rfl
    exact runs_step (hv.keeps hs) (hv.setPin (Option.some_ne_none _).symm fun _ => hfree) hfree hv
  · exact runs_step (hw.keeps hs) (hw.setPin (p := { w.hold.pin with level := true }) hw.safe.latched high_level)
      (high_level hhigh) hw

/-- The pad may fall: nothing can wake the chip. -/
structure Unwakeable (adc : Monitoring) (t : PowerWorld) : Prop where
  adc : t.adc = adc
  safe : t.hold.Safe
  wake : t.hold.wakeSources = false

theorem Unwakeable.setPin {adc : Monitoring} {t : PowerWorld} (h : Unwakeable adc t) {p : Pin} (hp : p.latched ≠ some true) :
    Unwakeable adc ⟨t.adc, t.hold.setPin p⟩ := by
  refine ⟨h.adc, h.safe.setPin hp fun hwake => ?_, h.wake⟩
  rw [h.wake] at hwake
  cases hwake

theorem runs_releaseHold {adc : Monitoring} (hadc : adc.Sound) (hs : Unwakeable adc s) :
    PowerRuns PowerWorld.Safe recorderPowerReleaseHold
      (Reaches (Unwakeable adc) fun t => t.hold.pin.latched = some false ∧ t.hold.deepHold = true) s := by
  have hsafe : ∀ {t}, Unwakeable adc t → t.Safe := fun h => ⟨h.adc ▸ hadc, h.safe⟩
  refine runs_reaches (R := fun t => t.hold.pin.output = true) ?_ fun _ t ht houtput => ?_
  · exact runs_step (hsafe hs) (hs.setPin (p := { s.hold.pin with output := true }) hs.safe.latched) rfl hs
  refine runs_reaches (R := fun t => t.hold.pin.high = false) ?_ fun _ u hu hlow => ?_
  · exact runs_step (hsafe ht) (ht.setPin (p := { t.hold.pin with level := false }) ht.safe.latched)
      (low_level ht.safe.latched) ht
  refine runs_reaches (R := fun t => t.hold.pin.latched = some false) ?_ fun _ v hv hlatched => ?_
  · refine runs_step (hsafe hu) (hu.setPin (p := { u.hold.pin with latched := some u.hold.pin.high }) ?_) (congrArg some hlow) hu
    rw [hlow]
    exact fun h => by cases h
  · exact runs_step (hsafe hv) ⟨hv.adc, ⟨hv.safe.latched, hv.safe.falls, hv.safe.sleeps⟩, hv.wake⟩ ⟨hlatched, rfl⟩ hv

end Hold

section Calls

inductive PowerCall
  | enableHold
  | manualWakeAsserted
  | init
  | readBatteryMv
  | deinit
  | shutdown

abbrev PowerCall.Ret : PowerCall → Type
  | manualWakeAsserted => Except EspError Bool
  | readBatteryMv => Except EspError ℤ
  | _ => Except EspError Unit

def PowerCall.body : (c : PowerCall) → Prog PowerOp (fun o => Except EspError o.Val) c.Ret
  | enableHold => recorderPowerEnableHold.run
  | manualWakeAsserted => recorderPowerManualWakeAsserted.run
  | init => recorderPowerInit.run
  | readBatteryMv => recorderPowerReadBatteryMv.run
  | deinit => recorderPowerDeinit.run
  | shutdown => recorderPowerShutdown.run

abbrev PowerHistory := List ((c : PowerCall) × c.Ret)

/-- HOLD has been asserted, and no shutdown has been asked for since. -/
def HoldAsserted : PowerHistory → Prop
  | [] => False
  | ⟨.enableHold, .ok _⟩ :: _ | ⟨.init, .ok _⟩ :: _ => True
  | ⟨.shutdown, _⟩ :: _ => False
  | _ :: hist => HoldAsserted hist

theorem HoldAsserted.cons {hist : PowerHistory} {c : PowerCall} {v : c.Ret} (h : HoldAsserted hist) (hc : c ≠ .shutdown) :
    HoldAsserted (⟨c, v⟩ :: hist) := by
  cases c with
  | enableHold | init =>
    cases v with
    | ok _ => trivial
    | error _ => exact h
  | manualWakeAsserted | readBatteryMv | deinit => exact h
  | shutdown => exact absurd rfl hc

/-- The monitor has been brought up, and nothing has taken it down since. -/
def MonitorUp : PowerHistory → Prop
  | [] => False
  | ⟨.init, .ok _⟩ :: _ => True
  | ⟨.deinit, _⟩ :: _ | ⟨.shutdown, _⟩ :: _ => False
  | _ :: hist => MonitorUp hist

/-- A reading was given out while the monitor was up, and it is one that the divider can give. -/
def Readings : PowerHistory → Prop
  | [] => True
  | ⟨.readBatteryMv, .ok mv⟩ :: hist => (0 < mv ∧ mv ≤ 5000 ∧ 2 ∣ mv ∧ MonitorUp hist) ∧ Readings hist
  | _ :: hist => Readings hist

/-- What holds between two calls. -/
structure PowerKept (hist : PowerHistory) (s : PowerWorld) : Prop extends s.adc.Settled where
  hold : s.hold.Safe
  asserted : HoldAsserted hist → s.hold.pin.high = true
  up : s.adc.var.powerReady = true → MonitorUp hist
  readings : Readings hist

theorem PowerKept.safe {hist : PowerHistory} (h : PowerKept hist s) : s.Safe := ⟨h.sound, h.hold⟩

theorem keeps_adc (hs : s.Safe) : ∀ adc : Monitoring, adc.Sound → s.Keeps ⟨adc, s.hold⟩ := fun _ hadc => ⟨⟨hadc, hs.hold⟩, id⟩

/-- The monitor is up only where it has been brought up by this call, or was up before. -/
theorem runs_init (h : s.adc.Settled) (hb : s.hold.Safe) :
    PowerRuns s.Keeps recorderPowerInit (fun r t => t.adc.Settled ∧ OnHold ⟨t.adc, s.hold⟩ t ∧
      (r = .ok () → t.hold.pin.high = true) ∧ (t.adc.var.powerReady = true → r = .ok () ∨ s.adc.var.powerReady = true)) s := by
  have hs : s.Safe := ⟨h.sound, hb⟩
  refine runs_bind (runs_enableHold hs) (fun _ t ht => ?_) fun e t ht => ?_
  swap
  · exact ⟨ht.1.adc ▸ h, ⟨rfl, ht.1.safe, ht.1.high⟩, fun hr => by (cases hr), fun hready => .inr (ht.1.adc ▸ hready)⟩
  obtain ⟨hon, hhigh⟩ := ht
  replace hhigh := hhigh ⟨_, rfl⟩
  have hadc : t.adc.Settled := hon.adc ▸ h
  have hC : ∀ adc : Monitoring, adc.Sound → s.Keeps ⟨adc, t.hold⟩ := fun adc hadc => ⟨⟨hadc, hon.safe⟩, hon.high⟩
  have hdone : ∀ {adc : Monitoring} {r : Except EspError Unit}, adc.Settled → (adc.var.powerReady = true → r = .ok ()) →
      adc.Settled ∧ OnHold ⟨adc, s.hold⟩ ⟨adc, t.hold⟩ ∧ (r = .ok () → t.hold.pin.high = true) ∧
        (adc.var.powerReady = true → r = .ok () ∨ s.adc.var.powerReady = true) :=
    fun hadc hr => ⟨hadc, ⟨rfl, hon.safe, hon.high⟩, fun _ => hhigh, fun hready => .inl (hr hready)⟩
  have hfailed : ∀ {adc : Monitoring} (e : EspError), adc.Owned → adc.cleaned.Settled ∧
      OnHold ⟨adc.cleaned, s.hold⟩ ⟨adc.cleaned, t.hold⟩ ∧ ((.error e : Except EspError Unit) = .ok () → t.hold.pin.high = true) ∧
        (adc.cleaned.var.powerReady = true → (.error e : Except EspError Unit) = .ok () ∨ s.adc.var.powerReady = true) :=
    fun e hadc => hdone hadc.cleaned fun hready => absurd hready Bool.false_ne_true
  have hcleanup : ∀ {adc : Monitoring}, adc.Owned →
      PowerRuns s.Keeps recorderPowerCleanup (fun _ u => u = ⟨adc.cleaned, t.hold⟩) ⟨adc, t.hold⟩ :=
    fun hadc => (runs_cleanup (s := ⟨_, t.hold⟩) hadc hC).mono fun _ _ hu => hu.2
  refine runs_load rfl (fun _ => rfl) rfl (hC _ hadc.sound) ?_
  by_cases hready : t.adc.var.powerReady = true
  · rw [if_pos hready]
    exact runs_return (hdone hadc fun _ => rfl)
  rw [if_neg hready]
  have hclean := hadc.cleaned
  set n := t.adc.cleaned.units.next
  have hopen : Monitoring.Owned ⟨⟨some n, none, false⟩, t.adc.cleaned.units.giveOut, t.adc.cleaned.calis⟩ :=
    ⟨hclean.unit.giveOut, hclean.cali⟩
  have hup : Monitoring.Owned ⟨⟨some n, none, true⟩, t.adc.cleaned.units.giveOut, t.adc.cleaned.calis⟩ := ⟨hopen.unit, hopen.cali⟩
  have hused : Monitoring.Owned ⟨⟨some n, none, true⟩, t.adc.cleaned.units.giveOut.use (some n), t.adc.cleaned.calis⟩ :=
    ⟨hopen.unit.use, hopen.cali⟩
  refine runs_then (runs_cleanup hadc.toOwned hC) ?_
  refine runs_cases (runs_ends_orElse (runs_ends (hC _ hclean.sound)) (hcleanup hclean.toOwned)) (fun e => hfailed e hclean.toOwned)
    fun _ => ?_
  refine runs_then (runs_plain rfl (hC _ hopen.sound) fun _ => ⟨rfl, rfl⟩) (runs_load rfl (fun _ => rfl) rfl (hC _ hup.sound) ?_)
  refine runs_cases (runs_ends_orElse (runs_ends (hC _ hup.sound)) (hcleanup hused)) (fun e => hfailed e hused) fun _ => ?_
  refine runs_orElse (runs_ends (hC _ hused.sound)) (fun u hu => ?_) fun e u hu => ?_
  · rw [show u = _ from hu]
    exact hdone ⟨⟨hused.unit, hclean.cali.giveOut⟩, fun _ => ⟨Option.some_ne_none _, Option.some_ne_none _⟩⟩ fun _ => rfl
  · rw [show u = _ from hu]
    exact (hcleanup hused).mono fun _ v hv => by rw [hv]; exact hfailed e hused

theorem runs_manualWakeAsserted (hs : s.Safe) : PowerRuns s.Keeps recorderPowerManualWakeAsserted (fun _ t => t = s) s := by
  have hC : s.Keeps s := ⟨hs, id⟩
  refine runs_bind (R := fun _ t => t = s) (runs_ask hC (fun _ => rfl) fun _ _ => rfl) (fun _ t ht => ?_) fun _ _ ht => ht
  subst ht
  exact runs_bind (R := fun _ u => u = t) (runs_plain rfl hC fun _ => rfl) (fun _ _ hu => runs_return hu) fun _ _ hu => hu

theorem reading_bounds {pinMv : ℤ} (h : ¬(pinMv ≤ 0 ∨ 2500 < pinMv)) :
    0 < pinMv * batteryDividerNum ∧ pinMv * batteryDividerNum ≤ 5000 ∧ 2 ∣ pinMv * batteryDividerNum := by
  unfold batteryDividerNum
  omega

theorem runs_readBatteryMv (h : s.adc.Settled) (hb : s.hold.Safe) :
    PowerRuns s.Keeps recorderPowerReadBatteryMv (fun r t => t.adc.Settled ∧ t.adc.var = s.adc.var ∧ t.hold = s.hold ∧
      ∀ mv, r = .ok mv → 0 < mv ∧ mv ≤ 5000 ∧ 2 ∣ mv ∧ s.adc.var.powerReady = true) s := by
  have hC := keeps_adc ⟨h.sound, hb⟩
  refine runs_load rfl (fun _ => rfl) rfl (hC _ h.sound) ?_
  have hfailed : ∀ {adc : Monitoring} (e : EspError), adc.Settled → adc.var = s.adc.var →
      adc.Settled ∧ adc.var = s.adc.var ∧ s.hold = s.hold ∧ ∀ mv, (.error e : Except EspError ℤ) = .ok mv →
        0 < mv ∧ mv ≤ 5000 ∧ 2 ∣ mv ∧ s.adc.var.powerReady = true :=
    fun e hadc hvar => ⟨hadc, hvar, rfl, fun mv hmv => by cases hmv⟩
  split
  case isTrue => exact runs_throw (hfailed _ h rfl)
  case isFalse hready =>
    obtain ⟨⟨⟨unit, cali, ready⟩, units, calis⟩, hold⟩ := s
    simp only [Bool.not_eq_true', not_or, Bool.not_eq_false] at hready
    obtain ⟨hready, hunit, hcali⟩ := hready
    obtain ⟨unit, rfl⟩ := Option.ne_none_iff_exists'.mp hunit
    obtain ⟨cali, rfl⟩ := Option.ne_none_iff_exists'.mp hcali
    have hread : Monitoring.Settled ⟨⟨some unit, some cali, ready⟩, units.use (some unit), calis⟩ :=
      ⟨⟨h.unit.use, h.cali⟩, fun _ => ⟨hunit, hcali⟩⟩
    have hscaled : Monitoring.Settled ⟨⟨some unit, some cali, ready⟩, units.use (some unit), calis.use (some cali)⟩ :=
      ⟨⟨h.unit.use, h.cali.use⟩, fun _ => ⟨hunit, hcali⟩⟩
    refine runs_cases (runs_ends (hC _ h.sound)) (fun e => hfailed e hread rfl) fun raw => ?_
    refine runs_cases (runs_ends (hC _ hread.sound)) (fun e => hfailed e hscaled rfl) fun pinMv => ?_
    split
    case isTrue => exact runs_throw (hfailed _ hscaled rfl)
    case isFalse hrange =>
      refine runs_return ⟨hscaled, rfl, rfl, fun mv hmv => ?_⟩
      obtain rfl : pinMv * batteryDividerNum = mv := Except.ok.inj hmv
      obtain ⟨hpos, hmax, heven⟩ := reading_bounds hrange
      exact ⟨hpos, hmax, heven, hready⟩

theorem runs_shutdown (h : s.adc.Settled) (hb : s.hold.Safe) :
    PowerRuns PowerWorld.Safe recorderPowerShutdown (fun _ t => t.adc = s.adc.cleaned ∧ t.hold.Safe) s := by
  have hclean := h.cleaned
  have hC : ∀ adc : Monitoring, adc.Sound → PowerWorld.Safe ⟨adc, s.hold⟩ := fun _ hadc => ⟨hadc, hb⟩
  refine runs_then (runs_cleanup h.toOwned hC) ?_
  refine runs_cases (runs_ends (hC _ hclean.sound)) (fun _ => ⟨rfl, hb⟩) fun _ => ?_
  have ht : Unwakeable s.adc.cleaned (PowerWorld.effect .disableWakeupSources (s.onAdc Monitoring.cleaned)) :=
    ⟨rfl, ⟨hb.latched, hb.falls, hb.sleeps⟩, rfl⟩
  refine runs_bind (runs_releaseHold hclean.sound ht) (fun _ u hu => ?_) fun e u hu => ⟨hu.1.adc, hu.1.safe⟩
  obtain ⟨⟨hadc, hsafe, hwake⟩, hlow⟩ := hu
  obtain ⟨hlatched, hdeep⟩ := hlow ⟨_, rfl⟩
  refine runs_plain rfl ⟨hadc ▸ hclean.sound, hsafe⟩ fun _ => ⟨hadc, hsafe.latched, hsafe.falls, fun e he => ?_⟩
  rcases List.mem_cons.mp he with rfl | he
  · refine ⟨hwake, hlatched, hdeep, ?_⟩
    rw [hadc]
    exact h.none_live
  · exact hsafe.sleeps e he

/-- What a call may show while it runs; only the shutdown takes the pad down. -/
def PowerCall.During (c : PowerCall) (s t : PowerWorld) : Prop := t.Safe ∧ (c ≠ .shutdown → s.hold.pin.high = true → t.hold.pin.high = true)

theorem keeps_call {hist : PowerHistory} (c : PowerCall) (h : PowerKept hist s) :
    powerDriver.device.wp (fun _ => True) (c.During s) c.body (fun v t => PowerKept (⟨c, v⟩ :: hist) t) s := by
  have hkeeps : ∀ c : PowerCall, ∀ t, s.Keeps t → c.During s t := fun c t ht => ⟨ht.toSafe, fun _ => ht.high⟩
  cases c with
  | enableHold =>
    refine ((runs_enableHold h.safe).mono fun r t ht => ?_).during (hkeeps _)
    obtain ⟨⟨hadc, hsafe, hon⟩, hhigh⟩ := ht
    refine ⟨hadc ▸ h.toSettled, hsafe, fun hasserted => ?_, fun hready => h.up (hadc ▸ hready), h.readings⟩
    cases r with
    | ok v => exact hhigh ⟨v, rfl⟩
    | error e => exact hon (h.asserted hasserted)
  | manualWakeAsserted =>
    have hdone : ∀ {v}, PowerKept (⟨.manualWakeAsserted, v⟩ :: hist) s := ⟨h.toSettled, h.hold, h.asserted, h.up, h.readings⟩
    refine (runs_manualWakeAsserted h.safe).mono (fun r t ht => ?_) |>.during (hkeeps _)
    subst ht
    exact hdone
  | init =>
    refine ((runs_init h.toSettled h.hold).mono fun r t ht => ?_).during (hkeeps _)
    obtain ⟨hadc, hon, hhigh, hup⟩ := ht
    refine ⟨hadc, hon.safe, fun hasserted => ?_, fun hready => ?_, h.readings⟩
    · cases r with
      | ok v => exact hhigh rfl
      | error e => exact hon.high (h.asserted hasserted)
    · cases r with
      | ok v => trivial
      | error e => exact h.up ((hup hready).resolve_left fun hr => by cases hr)
  | readBatteryMv =>
    refine ((runs_readBatteryMv h.toSettled h.hold).mono fun r t ht => ?_).during (hkeeps _)
    obtain ⟨hadc, hvar, hhold, hreading⟩ := ht
    refine ⟨hadc, hhold ▸ h.hold, fun hasserted => hhold ▸ h.asserted hasserted, fun hready => h.up (hvar ▸ hready), ?_⟩
    cases r with
    | ok mv =>
      obtain ⟨hpos, hmax, heven, hready⟩ := hreading mv rfl
      exact ⟨⟨hpos, hmax, heven, h.up hready⟩, h.readings⟩
    | error e => exact h.readings
  | deinit =>
    refine ((runs_cleanup h.toOwned (keeps_adc h.safe)).mono fun r t ht => ?_).during (hkeeps _)
    obtain ⟨-, rfl⟩ := ht
    exact ⟨h.cleaned, h.hold, h.asserted, fun hready => absurd hready Bool.false_ne_true, h.readings⟩
  | shutdown =>
    refine ((runs_shutdown h.toSettled h.hold).mono fun r t ht => ?_).during fun t ht => ⟨ht, fun hne => absurd rfl hne⟩
    obtain ⟨hadc, hsafe⟩ := ht
    refine ⟨hadc ▸ h.cleaned, hsafe, False.elim, fun hready => ?_, h.readings⟩
    rw [hadc] at hready
    exact absurd hready Bool.false_ne_true

/-- The board as the chip starts, with its HOLD pin as the last sleep has left it. -/
def PowerWorld.booted (pin : Pin) (deepHold wakeSources : Bool) : PowerWorld :=
  ⟨⟨⟨none, none, false⟩, .empty, .empty⟩, ⟨pin, deepHold, wakeSources, [], []⟩⟩

variable {pin : Pin} {deepHold wakeSources : Bool} {hist : PowerHistory}

theorem power_kept (hpin : pin.latched ≠ some true)
    (h : Serial powerDriver.device PowerCall.body (fun _ _ => False) (.booted pin deepHold wakeSources) hist s) : PowerKept hist s := by
  refine h.keeps ?_ (fun c hist s hs => Device.wp_crash_mono _ (keeps_call c hs) fun _ _ => trivial)
    fun _ _ _ _ hskip => hskip.elim
  refine ⟨⟨⟨Ledger.ownedBy_empty, Ledger.ownedBy_empty⟩, fun hready => absurd hready Bool.false_ne_true⟩, ⟨hpin, ?_, ?_⟩, False.elim,
    fun hready => absurd hready Bool.false_ne_true, trivial⟩
  · exact fun _ hw => absurd hw List.not_mem_nil
  · exact fun _ he => absurd he List.not_mem_nil

/-- At every moment of every sequence of calls, whichever calls to the drivers fail: no driver handle is used after it has been
given back, and none is lost; the HOLD pad falls, and the chip sleeps, only where nothing can wake it, and it sleeps with the pad
held low and no handle left. An asserted HOLD stays high until a shutdown is asked for. -/
theorem power_safe (hpin : pin.latched ≠ some true) {c : PowerCall} {p : Prog PowerOp (fun o => Except EspError o.Val) c.Ret}
    {t : PowerWorld} (h : Serial powerDriver.device PowerCall.body (fun _ _ => False) (.booted pin deepHold wakeSources) hist s)
    (hsteps : Steps powerDriver.device c.body s p t) :
    t.Safe ∧ (c ≠ .shutdown → HoldAsserted hist → t.hold.pin.high = true) ∧ Readings hist := by
  have hkept := power_kept hpin h
  have hrun : powerDriver.device.wp (fun _ => True) (fun t => t.Safe ∧ (c ≠ .shutdown → HoldAsserted hist → t.hold.pin.high = true))
      c.body (fun v t => PowerKept (⟨c, v⟩ :: hist) t) s :=
    Device.wp_crash_mono _ (keeps_call c hkept) fun t ht => ⟨ht.1, fun hne hasserted => ht.2 hne (hkept.asserted hasserted)⟩
  have hnow := wp_now hsteps (fun _ _ => rfl) hrun fun v t ht => ⟨ht.safe, fun hne hasserted => ht.asserted (hasserted.cons hne)⟩
  exact ⟨hnow.1, hnow.2, hkept.readings⟩

/-- HOLD is asserted on a pad that the last sleep has held low, the monitor reads 3800 mV, and the chip goes back to sleep. -/
theorem power_safe_asleep : ∃ t : PowerWorld, t.hold.sleeps.length = 1 ∧ t.hold.falls = [false] ∧ t.Safe ∧
    Readings [⟨.readBatteryMv, .ok 3800⟩, ⟨.init, .ok ()⟩, ⟨.enableHold, .ok ()⟩] := by
  let s₀ : PowerWorld := .booted ⟨true, false, some false⟩ true true
  have henable : Serial powerDriver.device PowerCall.body (fun _ _ => False) s₀ [⟨.enableHold, .ok ()⟩] _ :=
    .ran .start (steps_of_run (PowerCall.body .enableHold) [] s₀ rfl)
  have hinit : Serial powerDriver.device PowerCall.body (fun _ _ => False) s₀ [⟨.init, .ok ()⟩, ⟨.enableHold, .ok ()⟩] _ :=
    .ran henable (steps_of_run (PowerCall.body .init) [] _ rfl)
  have hread : Serial powerDriver.device PowerCall.body (fun _ _ => False) s₀
      [⟨.readBatteryMv, .ok 3800⟩, ⟨.init, .ok ()⟩, ⟨.enableHold, .ok ()⟩] _ :=
    .ran hinit (steps_of_run (PowerCall.body .readBatteryMv) [.act none, .act (some (.reads 2300)), .act (some (.reads 1900))] _ rfl)
  obtain ⟨hsafe, -, hreadings⟩ := power_safe (s := _) (c := .shutdown) (fun h => by cases h) hread
    (steps_of_run (PowerCall.body .shutdown) [] _ rfl)
  exact ⟨_, rfl, rfl, hsafe, hreadings⟩

end Calls

end Safety

end M5DayLog.Power
