import M5DayLog.Device.Footprint

/-! Runs of boots. Each boot begins with fresh memory over what the NVS partition holds, and power may be lost at any step;
an observer may carry its record from boot to boot. -/

namespace M5DayLog

open Threads

section Boots

variable {Seen γ : Type}

abbrev DeviceNote := Note DeviceTask DeviceOp DeviceOp.Ans DeviceCall DeviceCall.Ret

abbrev DevicePool (Seen : Type) := Pool DeviceTask DeviceOp DeviceOp.Ans Capsule DeviceCall DeviceCall.Ret Bool Seen

abbrev DeviceEvent := Event DeviceTask DeviceChoice DeviceCall

variable (note : DeviceNote → Seen → Seen) (start : Nvs → Seen → Seen) (seen₀ : Seen)

def bootPool (nvs : Nvs) (seen : Seen) : DevicePool Seen := ⟨.boot nvs, fun _ => .idle false, start nvs seen⟩

/-- The pools that runs of boots reach. -/
inductive Boots : DevicePool Seen → Prop
  | power (nvs : Nvs) : Boots (bootPool start nvs seen₀)
  | step {P P' : DevicePool Seen} (e : DeviceEvent) (h : Boots P) (hs : Threads.step deviceCode note P e = some P') : Boots P'
  | cut {P : DevicePool Seen} (h : Boots P) : Boots (bootPool start P.mem.nvs P.seen)

section Run

/-- Where a schedule leads whose steps can all be taken; `none` in it is a loss of power. -/
def runBoots : List (Option DeviceEvent) → DevicePool Seen → Option (DevicePool Seen)
  | [], P => some P
  | some e :: es, P => (Threads.step deviceCode note P e).bind (runBoots es)
  | none :: es, P => runBoots es (bootPool start P.mem.nvs P.seen)

variable {note start seen₀} {P P' : DevicePool Seen}

theorem boots_run (es : List (Option DeviceEvent)) (h : Boots note start seen₀ P) (hr : runBoots note start es P = some P') :
    Boots note start seen₀ P' := by
  induction es generalizing P with
  | nil =>
    obtain rfl := Option.some.inj hr
    exact h
  | cons e es ih =>
    cases e with
    | none => exact ih h.cut hr
    | some e =>
      rw [runBoots, Option.bind_eq_some_iff] at hr
      obtain ⟨Q, hs, hr⟩ := hr
      exact ih (h.step e hs) hr

end Run

section Schedule

/-- A card on which everything succeeds and which has no slot to write out. -/
def goodCard : (o : WriterOp) → o.Ans
  | .ensureDeviceId => some []
  | .wallClock => ⟨0, 0, 0, 0, 0, 0, 0⟩
  | .random16 => fun _ => 0
  | .sinkOpen sink _ | .sinkWriteChunk sink _ | .sinkClose sink => (true, sink)
  | .hashWavFile _ | .peekFull => none
  | .upsertFile .. => .ok
  | .tickCount => 0
  | .mountRecordings | .transitionState _ _ | .ensureDeviceJson _ | .ensureManifest _ _ | .ensureQuarantineDir
  | .scanRecordings | .syncWavDir _ _ | .ensureDateDir _ | .canAdmitSegment _ | .sinkFlush _ | .finalizePaths _ _
  | .stopRequested => true
  | .unmount | .setEventsReady _ | .enterError _ | .signalReady | .waitSlotFull | .releaseFull | .noteSdError => ()

/-- Everything succeeds, and the WAKE button is held. -/
def goodChoice : DeviceChoice := ⟨true, true, false, true, ⟨false, false⟩, [], goodCard⟩

def acts (t : DeviceTask) (n : ℕ) : List (Option DeviceEvent) := List.replicate n (some (.act t goodChoice))

/-- A task starts and carries out its first operations. -/
def begins (t : DeviceTask) (n : ℕ) : List (Option DeviceEvent) := some (.call t (.task t) 1) :: acts t n

end Schedule

section Invariant

/-- Every call of the Device keeps an invariant, which may also speak of the memory before the last operation. -/
abbrev KeepsDevice {α : Type} (I : Capsule × Capsule → Seen → (DeviceTask → γ) → Prop) (t : DeviceTask) (p : DeviceProg α)
    (Q : α → γ → Prop) (g : γ) : Prop :=
  Keeps deviceCode.remember note I (fun _ _ _ _ _ => True) (fun _ => True) t p Q g

abbrev GoodDevice (I : Capsule × Capsule → Seen → (DeviceTask → γ) → Prop) (rest : Bool → γ) :
    Pool DeviceTask DeviceOp DeviceOp.Ans (Capsule × Capsule) DeviceCall DeviceCall.Ret Bool Seen → Prop :=
  Good deviceCode.remember note I (fun _ _ _ _ _ => True) (fun _ => True) rest

variable {note start seen₀} {I : Capsule × Capsule → Seen → (DeviceTask → γ) → Prop} {rest : Bool → γ} {P P' : DevicePool Seen}

theorem boots_good (hcalls : KeepsCalls deviceCode.remember note I (fun _ _ _ _ _ => True) (fun _ => True) rest)
    (hpower : ∀ nvs, I (.boot nvs, .boot nvs) (start nvs seen₀) fun _ => rest false)
    (hcut : ∀ s h G, I s h G → I (.boot s.1.nvs, .boot s.1.nvs) (start s.1.nvs h) fun _ => rest false)
    (h : Boots note start seen₀ P) : ∃ before, GoodDevice note I rest (P.remember before) := by
  induction h with
  | power nvs => exact ⟨.boot nvs, good_idle (fun _ => trivial) (hpower nvs)⟩
  | step e _ hs ih =>
    obtain ⟨before, hgood⟩ := ih
    obtain ⟨before', hstep, -⟩ := step_remember before hs
    refine ⟨before', good_step (fun _ => trivial) hcalls hgood e ?_ hstep⟩
    cases e with
    | call => trivial
    | act => exact fun _ _ _ _ _ _ _ _ => trivial
  | @cut P _ ih =>
    obtain ⟨before, G, hI, -⟩ := ih
    exact ⟨.boot P.mem.nvs, good_idle (fun _ => trivial) (hcut _ _ G hI)⟩

/-- The invariant at a step, with the memory before it unless the step has left the memory as it was. -/
theorem boots_step (hcalls : KeepsCalls deviceCode.remember note I (fun _ _ _ _ _ => True) (fun _ => True) rest)
    (hpower : ∀ nvs, I (.boot nvs, .boot nvs) (start nvs seen₀) fun _ => rest false)
    (hcut : ∀ s h G, I s h G → I (.boot s.1.nvs, .boot s.1.nvs) (start s.1.nvs h) fun _ => rest false)
    (h : Boots note start seen₀ P) {e : DeviceEvent} (hs : Threads.step deviceCode note P e = some P') :
    P'.mem = P.mem ∨ ∃ G, I (P'.mem, P.mem) P'.seen G := by
  obtain ⟨before, hgood⟩ := boots_good hcalls hpower hcut h
  obtain ⟨before', hstep, hsame | rfl⟩ := step_remember before hs
  · exact Or.inl hsame
  · have hok : Meets deviceCode.remember (fun _ _ _ _ _ => True) (P.remember before) e := by
      cases e with
      | call => trivial
      | act => exact fun _ _ _ _ _ _ _ _ => trivial
    obtain ⟨G, hI, -⟩ := good_step (fun _ => trivial) hcalls hgood e hok hstep
    exact Or.inr ⟨G, hI⟩

end Invariant

end Boots

end M5DayLog
