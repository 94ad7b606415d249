import M5DayLog.Pc.Release

/-! A gate's session is released at most once, and only when quiesced. Only one run ever finds the gate open to seal it;
that run owns the states from there on, and asks for the release in the one state in which the gate is quiesced. -/

namespace M5DayLog

open Threads

variable {ι : Type} [DecidableEq ι]

section Record

/-- What a run has done so far. `calling` stands from its call of `release_storage` to its next operation. -/
structure RunRecord where
  synced : Bool := false
  locked : Bool := false
  calling : Bool := false
  accepted : Bool := false
  disappeared : Bool := false
  deriving DecidableEq

/-- The runs of the threads, the calls of `release_storage`, and what runs have reported. -/
structure Releases (ι : Type) where
  current : ι → RunRecord
  count : ℕ
  reports : List (ReleaseOutcome × RunRecord)

def RunRecord.after (record : RunRecord) : (o : ReleaseOp) → o.Ans → RunRecord
  | .port .sync, .ok summary => { record with synced := summary.conflicts = 0, calling := false }
  | .port .enter, .ok _ => { record with locked := true, calling := false }
  | .port (.exit _), _ => { record with locked := false, calling := false }
  | .port (.releaseStorage ..), r => { record with accepted := r.isOk, calling := true }
  | .port (.volumeDisappeared _), .ok gone => { record with disappeared := record.accepted && gone, calling := false }
  | _, _ => { record with calling := false }

def ReleaseOp.isRelease : ReleaseOp → Bool
  | .port (.releaseStorage ..) => true
  | _ => false

def Releases.note : Note ι ReleaseOp ReleaseOp.Ans ReleaseCall ReleaseCall.Ret → Releases ι → Releases ι
  | .called t _, h => { h with current := Function.update h.current t {} }
  | .acted t o r, h =>
    { h with current := Function.update h.current t ((h.current t).after o r), count := h.count + o.isRelease.toNat }
  | .returned t (.run _ _) (.ok (some outcome)), h => { h with reports := (outcome, h.current t) :: h.reports }
  | .returned _ _ _, h => h

def Releases.start : Releases ι := ⟨fun _ => {}, 0, []⟩

end Record

section Invariant

/-- Where a thread stands: outside, under a lease, or in the stages of the run that has sealed the gate. -/
inductive ReleasePhase
  | outside
  | leased
  | sealing
  | drained
  | controlled
  | quiesced
  | called
  | accepted
  deriving DecidableEq

namespace ReleasePhase

/-- The run has sealed the gate. -/
def owns : ReleasePhase → Bool
  | outside | leased => false
  | _ => true

/-- The release is still to be asked for. -/
def before : ReleasePhase → Bool
  | sealing | drained | controlled | quiesced => true
  | _ => false

def leases : ReleasePhase → ℕ
  | leased => 1
  | _ => 0

/-- What the stage says of the gate. -/
def Fits (gate : UsbSessionIoGate) : ReleasePhase → Prop
  | outside | leased => True
  | sealing => gate.state = .sealedForRelease
  | drained | controlled => gate.state = .sealedForRelease ∧ gate.drained = true
  | quiesced | called => gate.state = .hostQuiesced ∧ gate.drained = true
  | accepted => gate.state = .releaseAccepted ∨ gate.state = .released

end ReleasePhase

structure ReleaseMark where
  phase : ReleasePhase
  record : Option RunRecord

structure ReleaseInv [Fintype ι] (gate : UsbSessionIoGate) (h : Releases ι) (G : ι → ReleaseMark) : Prop where
  ordinary : gate.ordinary = ∑ t, (G t).phase.leases
  drained : gate.drained = true → gate.ordinary = 0 ∧ gate.state ≠ .opened
  fits : ∀ t, (G t).phase.Fits gate
  owner : ∀ t u, (G t).phase.owns = true → (G u).phase.owns = true → t = u
  fresh : gate.state = .opened ∨ (∃ t, (G t).phase.before = true) → h.count = 0
  once : h.count ≤ 1
  record : ∀ t r, (G t).record = some r → h.current t = r
  calling : ∀ t, (h.current t).calling = true → (G t).phase = .called ∧ (h.current t).synced = true ∧ (h.current t).locked = true
  reports : ∀ outcome record, (outcome, record) ∈ h.reports → outcome.success = true →
    record.accepted = true ∧ record.disappeared = true

abbrev KeepsRelease [Fintype ι] {α : Type} (t : ι) (p : Prog ReleaseOp ReleaseOp.Ans α) (Q : α → ReleaseMark → Prop)
    (m : ReleaseMark) : Prop :=
  Keeps (releaseCode ι) Releases.note (fun gate h G => ReleaseInv gate h G) (fun _ _ _ _ _ => True) (fun _ => True) t p Q m

end Invariant

section Operations

variable [Fintype ι] {gate gate' : UsbSessionIoGate} {h : Releases ι} {G : ι → ReleaseMark} {t : ι} {m : ReleaseMark}

/-- Only the call of `release_storage` is being called. -/
theorem RunRecord.calling_after (record : RunRecord) (o : ReleaseOp) (r : o.Ans) :
    (record.after o r).calling = o.isRelease := by
  cases o with
  | gate o => rfl
  | halt => cases r
  | port o => cases o <;> first | rfl | (cases r <;> rfl)

/-- One thread moves from `m` to `phase`: the gate changes as its stage does, and what the stages of the others say still
stands. -/
theorem ReleaseInv.move (hI : ReleaseInv gate h G) (hG : G t = m) {o : ReleaseOp} {r : o.Ans} {phase : ReleasePhase}
    (hordinary : gate'.ordinary + m.phase.leases = gate.ordinary + phase.leases)
    (hdrained : gate'.drained = true → gate'.ordinary = 0 ∧ gate'.state ≠ .opened) (hfits : phase.Fits gate')
    (hothers : ∀ u, u ≠ t → (G u).phase.Fits gate') (howns : phase.owns = true → ∀ u, u ≠ t → (G u).phase.owns = false)
    (hstate : gate'.state = .opened → gate.state = .opened)
    (hbefore : phase.before = true → o.isRelease = false ∧ (m.phase.before = true ∨ gate.state = .opened))
    (hrelease : o.isRelease = true → gate.state ≠ .opened ∧ m.phase = .quiesced ∧ phase = .called ∧
      ∃ record, m.record = some record ∧ (record.after o r).synced = true ∧ (record.after o r).locked = true) :
    ReleaseInv gate' (Releases.note (.acted t o r) h)
      (Function.update G t ⟨phase, m.record.map fun record => record.after o r⟩) := by
  have hothers' : ∀ {u}, u ≠ t →
      Function.update G t ⟨phase, m.record.map fun record => record.after o r⟩ u = G u := fun hu => Function.update_of_ne hu ..
  have howner : o.isRelease = true → ∀ u, u ≠ t → (G u).phase.owns = false := by
    intro ho u hu
    refine Bool.eq_false_iff.mpr fun hown => hu (hI.owner u t hown ?_)
    rw [hG, (hrelease ho).2.1]
    rfl
  have hfresh : o.isRelease = true → h.count = 0 := by
    intro ho
    refine hI.fresh (Or.inr ⟨t, ?_⟩)
    rw [hG, (hrelease ho).2.1]
    rfl
  refine ⟨?_, hdrained, fun u => ?_, fun u v hu hv => ?_, fun hor => ?_, ?_, fun u record hrecord => ?_, fun u hu => ?_, hI.reports⟩
  · have hsum := sum_update (fun m : ReleaseMark => m.phase.leases) G t ⟨phase, m.record.map fun record => record.after o r⟩
    have hold := hI.ordinary
    rw [hG] at hsum
    dsimp only at hsum
    omega
  · by_cases hut : u = t
    · subst hut
      rwa [Function.update_self]
    · rw [hothers' hut]
      exact hothers u hut
  · by_cases hut : u = t
    · by_cases hvt : v = t
      · rw [hut, hvt]
      · rw [hothers' hvt] at hv
        rw [hut, Function.update_self] at hu
        rw [howns hu v hvt] at hv
        cases hv
    · rw [hothers' hut] at hu
      by_cases hvt : v = t
      · rw [hvt, Function.update_self] at hv
        rw [howns hv u hut] at hu
        cases hu
      · rw [hothers' hvt] at hv
        exact hI.owner u v hu hv
  · have hnot : o.isRelease = false := by
      refine Bool.eq_false_iff.mpr fun ho => ?_
      rcases hor with hopen | ⟨u, hu⟩
      · exact (hrelease ho).1 (hstate hopen)
      · by_cases hut : u = t
        · rw [hut, Function.update_self] at hu
          rw [(hrelease ho).2.2.1] at hu
          cases hu
        · rw [hothers' hut] at hu
          have := howner ho u hut
          cases hp : (G u).phase <;> simp_all [ReleasePhase.owns, ReleasePhase.before]
    have hcount : h.count = 0 := by
      refine hI.fresh ?_
      rcases hor with hopen | ⟨u, hu⟩
      · exact Or.inl (hstate hopen)
      · by_cases hut : u = t
        · rw [hut, Function.update_self] at hu
          exact (hbefore hu).2.symm.imp_right fun hm => ⟨t, by rwa [hG]⟩
        · rw [hothers' hut] at hu
          exact Or.inr ⟨u, hu⟩
    simp [Releases.note, hnot, hcount]
  · have honce := hI.once
    cases ho : o.isRelease with
    | false => simpa [Releases.note, ho] using honce
    | true => simp [Releases.note, ho, hfresh ho]
  · by_cases hut : u = t
    · subst hut
      rw [Function.update_self, Option.map_eq_some_iff] at hrecord
      obtain ⟨record', hrecord, rfl⟩ := hrecord
      simp only [Releases.note, Function.update_self]
      rw [hI.record u record' (by rw [hG]; exact hrecord)]
    · rw [hothers' hut] at hrecord
      simpa [Releases.note, Function.update_of_ne hut] using hI.record u record hrecord
  · by_cases hut : u = t
    · subst hut
      simp only [Releases.note, Function.update_self, RunRecord.calling_after] at hu ⊢
      obtain ⟨_, _, rfl, record, hrecord, hsynced, hlocked⟩ := hrelease hu
      rw [hI.record u record (by rw [hG]; exact hrecord)]
      exact ⟨rfl, hsynced, hlocked⟩
    · simp only [Releases.note, Function.update_of_ne hut] at hu ⊢
      exact hI.calling u hu

/-- A stage that does not own the session says nothing of the gate. -/
theorem ReleasePhase.fits_of_not_owns {phase : ReleasePhase} (h : phase.owns = false) : phase.Fits gate := by
  cases phase <;> simp_all [Fits, owns]

theorem ReleasePhase.not_owns_of_open {phase : ReleasePhase} (h : phase.Fits gate) (hopen : gate.state = .opened) :
    phase.owns = false := by
  cases phase <;> simp_all [Fits, owns]

omit [DecidableEq ι] in
theorem ReleaseInv.others (hI : ReleaseInv gate h G) (hG : G t = m) (hown : m.phase.owns = true) (u : ι) (hu : u ≠ t) :
    (G u).phase.owns = false :=
  Bool.eq_false_iff.mpr fun hou => hu (hI.owner u t hou (by rw [hG]; exact hown))

/-- A thread outside the session, or under a lease, leaves the stages of the others as they are. -/
theorem ReleaseInv.visit (hI : ReleaseInv gate h G) (hG : G t = m) {o : UsbSessionIoGate.Op} {r : UsbSessionIoGate.Ans}
    {p : ReleasePhase} (hphase : p.owns = false)
    (hordinary : gate'.ordinary + m.phase.leases = gate.ordinary + p.leases)
    (hdrained : gate'.drained = true → gate'.ordinary = 0 ∧ gate'.state ≠ .opened)
    (hfits : ∀ phase : ReleasePhase, phase.Fits gate → phase.Fits gate') (hstate : gate'.state = .opened → gate.state = .opened) :
    ReleaseInv gate' (Releases.note (.acted t (.gate o) r) h)
      (Function.update G t ⟨p, m.record.map fun record => record.after (.gate o) r⟩) := by
  refine hI.move hG hordinary hdrained (ReleasePhase.fits_of_not_owns hphase) (fun u _ => hfits _ (hI.fits u)) (fun hown => ?_)
    hstate (fun hbefore => ?_) fun ho => nomatch ho
  · rw [hphase] at hown
    cases hown
  · cases p <;> simp_all [ReleasePhase.owns, ReleasePhase.before]

/-- The owner of the session moves on. -/
theorem ReleaseInv.own (hI : ReleaseInv gate h G) (hG : G t = m) (hown : m.phase.owns = true) {o : UsbSessionIoGate.Op}
    {r : UsbSessionIoGate.Ans} {p : ReleasePhase} (hordinary : gate'.ordinary + m.phase.leases = gate.ordinary + p.leases)
    (hdrained : gate'.drained = true → gate'.ordinary = 0 ∧ gate'.state ≠ .opened) (hfits : p.Fits gate')
    (hstate : gate'.state ≠ .opened) (hbefore : p.before = true → m.phase.before = true) :
    ReleaseInv gate' (Releases.note (.acted t (.gate o) r) h)
      (Function.update G t ⟨p, m.record.map fun record => record.after (.gate o) r⟩) :=
  hI.move hG hordinary hdrained hfits (fun u hu => ReleasePhase.fits_of_not_owns (hI.others hG hown u hu))
    (fun _ => hI.others hG hown) (fun hopen => absurd hopen hstate) (fun hb => ⟨rfl, Or.inl (hbefore hb)⟩) fun ho => nomatch ho

/-- The mark after an operation that leaves the stage alone. -/
def ReleaseMark.after (m : ReleaseMark) (o : ReleaseOp) (r : o.Ans) (phase : ReleasePhase) : ReleaseMark :=
  ⟨phase, m.record.map fun record => record.after o r⟩

theorem keeps_block {o : UsbSessionIoGate.Op} {Q : Except Raised (Option ℚ) → ReleaseMark → Prop} {locals : Locals}
    (hact : ∀ gate h (G : ι → ReleaseMark) start now, ReleaseInv gate h G → G t = m → ∃ phase,
      Q ((gate.act o start now).1.mapError (⟨·, locals⟩)) (m.after (.gate o) (gate.act o start now).1 phase) ∧
        ReleaseInv (gate.act o start now).2 (Releases.note (.acted t (.gate o) (gate.act o start now).1) h)
          (Function.update G t (m.after (.gate o) (gate.act o start now).1 phase))) :
    KeepsRelease t (block locals o).run Q m := by
  refine keeps_then (R := fun (r : UsbSessionIoGate.Ans) m' => Q (r.mapError (⟨·, locals⟩)) m') (keeps_op trivial fun gate h G hI _ hG c r gate' hs _ => ?_)
    fun r m' h => h
  simp only [releaseCode, releaseAct, Option.some.injEq] at hs
  obtain ⟨phase, hQ, hI'⟩ := hact gate h G c.start c.now hI hG
  rw [hs] at hQ hI'
  exact ⟨_, hI', hQ⟩

end Operations

section Walk

variable [Fintype ι] {t : ι} {record : RunRecord} {locals : Locals}

/-- The record once another operation has come. -/
def RunRecord.quiet (record : RunRecord) : RunRecord := { record with calling := false }

theorem RunRecord.after_gate (o : UsbSessionIoGate.Op) (r : UsbSessionIoGate.Ans) : record.after (.gate o) r = record.quiet := rfl

theorem keeps_admission : KeepsRelease t (block locals .admission).run
    (fun r m' => m' = ⟨if r.isOk then .leased else .outside, some record.quiet⟩) ⟨.outside, some record⟩ := by
  refine keeps_block fun gate h G start now hI hG => ?_
  by_cases hopen : gate.state = .opened
  · have hact : gate.act .admission start now = (.ok none, { gate with ordinary := gate.ordinary + 1 }) := if_neg (by simpa using hopen)
    rw [hact]
    refine ⟨.leased, rfl, hI.visit hG rfl rfl (fun hd => absurd hopen (hI.drained hd).2) (fun phase h => ?_) fun h => h⟩
    exact ReleasePhase.fits_of_not_owns (ReleasePhase.not_owns_of_open h hopen)
  · have hact : gate.act .admission start now = (.error .gateClosed, gate) := if_pos hopen
    rw [hact]
    exact ⟨.outside, rfl, hI.visit hG rfl rfl hI.drained (fun _ h => h) fun h => h⟩

/-- A lease that is out is counted. -/
theorem ReleaseInv.leased {gate : UsbSessionIoGate} {h : Releases ι} {G : ι → ReleaseMark} (hI : ReleaseInv gate h G)
    (hG : (G t).phase = .leased) : 0 < gate.ordinary := by
  have hsum := sum_update (fun m : ReleaseMark => m.phase.leases) G t ⟨.outside, none⟩
  have hold := hI.ordinary
  rw [hG] at hsum
  simp only [ReleasePhase.leases] at hsum
  simp only [ReleasePhase.leases] at hold
  omega

theorem keeps_leave : KeepsRelease t (.op (.gate .leave)) (fun _ m' => m' = ⟨.outside, some record.quiet⟩)
    ⟨.leased, some record⟩ := by
  refine keeps_op trivial fun gate h G hI _ hG c r gate' hs _ => ⟨_, ?_, rfl⟩
  have hpos := hI.leased (t := t) (by rw [hG])
  cases hs
  refine hI.visit hG (o := .leave) (r := .ok none) (p := .outside) rfl ?_ (fun hd => ?_) (fun phase h => ?_) fun h => h
  · simp only [ReleasePhase.leases]
    omega
  · exact absurd (hI.drained hd).1 hpos.ne'
  · cases phase <;> exact h

theorem UsbSessionIoGate.drain_cases (gate : UsbSessionIoGate) (deadline now : ℚ) :
    gate.ordinary = 0 ∧ gate.drain deadline now = (.ok none, { gate with drained := true }) ∨
      gate.drain deadline now = (.error .releaseTimeout, gate) ∨ gate.drain deadline now = (.ok (some deadline), gate) := by
  unfold drain
  split
  case isTrue h => exact Or.inl ⟨h, rfl⟩
  case isFalse =>
    split
    · exact Or.inr (Or.inl rfl)
    · exact Or.inr (Or.inr rfl)

/-- Where a seal stands after a block: it has gone through, waits on, or has failed. -/
def Sealed (record : RunRecord) (r : Except Raised (Option ℚ)) (m : ReleaseMark) : Prop :=
  ∃ phase, m = ⟨phase, some record.quiet⟩ ∧ phase.leases = 0 ∧ (r = .ok none → phase = .drained) ∧
    ∀ deadline, r = .ok (some deadline) → phase = .sealing

theorem keeps_sealBlock (timeoutS : ℚ) :
    KeepsRelease t (block locals (.seal timeoutS)).run (Sealed record) ⟨.outside, some record⟩ := by
  refine keeps_block fun gate h G start now hI hG => ?_
  by_cases hopen : gate.state = .opened
  · have hact : gate.act (.seal timeoutS) start now =
        UsbSessionIoGate.drain { gate with state := .sealedForRelease } (start + timeoutS) now := if_neg (by simpa using hopen)
    have hothers : ∀ u, u ≠ t → (G u).phase.owns = false := fun u _ => ReleasePhase.not_owns_of_open (hI.fits u) hopen
    have hmove : ∀ {gate' : UsbSessionIoGate} {r : UsbSessionIoGate.Ans} {phase : ReleasePhase},
        gate'.ordinary + 0 = gate.ordinary + phase.leases → (gate'.drained = true → gate'.ordinary = 0) →
        gate'.state = .sealedForRelease → phase.Fits gate' →
        ReleaseInv gate' (Releases.note (.acted t (.gate (.seal timeoutS)) r) h)
          (Function.update G t ⟨phase, (some record).map fun record => record.after (.gate (.seal timeoutS)) r⟩) := by
      intro gate' r phase hordinary hdrained hstate hfits
      refine hI.move hG hordinary (fun hd => ⟨hdrained hd, by simp [hstate]⟩) hfits
        (fun u hu => ReleasePhase.fits_of_not_owns (hothers u hu)) (fun _ => hothers) (fun h => ?_)
        (fun _ => ⟨rfl, Or.inr hopen⟩) fun ho => nomatch ho
      rw [hstate] at h
      cases h
    rw [hact]
    rcases UsbSessionIoGate.drain_cases { gate with state := .sealedForRelease } (start + timeoutS) now with
      ⟨hzero, hdrain⟩ | hdrain | hdrain <;> rw [hdrain]
    · exact ⟨.drained, ⟨.drained, rfl, rfl, fun _ => rfl, fun _ h => nomatch h⟩, hmove rfl (fun _ => hzero) rfl ⟨rfl, rfl⟩⟩
    · exact ⟨.sealing, ⟨.sealing, rfl, rfl, fun h => (nomatch h), fun _ _ => rfl⟩,
        hmove rfl (fun hd => (hI.drained hd).1) rfl rfl⟩
    · exact ⟨.sealing, ⟨.sealing, rfl, rfl, fun h => (nomatch h), fun _ _ => rfl⟩,
        hmove rfl (fun hd => (hI.drained hd).1) rfl rfl⟩
  · have hact : gate.act (.seal timeoutS) start now = (.error .gateClosed, gate) := if_pos hopen
    rw [hact]
    exact ⟨.outside, ⟨.outside, rfl, rfl, fun h => (nomatch h), fun _ h => nomatch h⟩,
      hI.visit hG rfl rfl hI.drained (fun _ h => h) fun h => h⟩

theorem keeps_sealResume (deadline : ℚ) :
    KeepsRelease t (block locals (.sealResume deadline)).run (Sealed record) ⟨.sealing, some record⟩ := by
  refine keeps_block fun gate h G start now hI hG => ?_
  have hsealed : gate.state = .sealedForRelease := by simpa [hG, ReleasePhase.Fits] using hI.fits t
  have hact : gate.act (.sealResume deadline) start now = gate.drain deadline now := rfl
  rw [hact]
  rcases gate.drain_cases deadline now with ⟨hzero, hdrain⟩ | hdrain | hdrain <;> rw [hdrain]
  · refine ⟨.drained, ⟨.drained, rfl, rfl, fun _ => rfl, fun _ h => nomatch h⟩, hI.own hG rfl rfl ?_ ⟨hsealed, rfl⟩ ?_ fun h => h⟩
    · exact fun _ => ⟨hzero, by simp [hsealed]⟩
    · simp [hsealed]
  · exact ⟨.sealing, ⟨.sealing, rfl, rfl, fun h => (nomatch h), fun _ _ => rfl⟩,
      hI.own hG rfl rfl hI.drained hsealed (by simp [hsealed]) fun h => h⟩
  · exact ⟨.sealing, ⟨.sealing, rfl, rfl, fun h => (nomatch h), fun _ _ => rfl⟩,
      hI.own hG rfl rfl hI.drained hsealed (by simp [hsealed]) fun h => h⟩

/-- A seal that returns has drained the gate. -/
theorem keeps_seal (record : RunRecord) (timeoutS : ℚ) (fuel : ℕ) : KeepsRelease t (UsbSessionIoGate.seal locals timeoutS fuel).run
    (fun r m' => ∃ phase, m' = ⟨phase, some record.quiet⟩ ∧ phase.leases = 0 ∧ (r = .ok () → phase = .drained))
    ⟨.outside, some record.quiet⟩ := by
  have hwait : ∀ (fuel : ℕ) (deadline : ℚ), KeepsRelease t (sealWait locals fuel deadline).run
      (fun r m' => ∃ phase, m' = ⟨phase, some record.quiet⟩ ∧ phase.leases = 0 ∧ (r = .ok () → phase = .drained))
      ⟨.sealing, some record.quiet⟩ := by
    intro fuel
    induction fuel with
    | zero => exact fun _ => ⟨trivial, fun _ _ _ _ _ _ _ r => nomatch r⟩
    | succ fuel ih =>
      intro deadline
      refine keeps_raises (keeps_sealResume deadline) (fun r m' h => ?_) fun e m' h => ?_
      · obtain ⟨phase, rfl, hleases, hdrained, hsealing⟩ := h
        cases r with
        | none => exact ⟨phase, rfl, hleases, fun _ => hdrained rfl⟩
        | some deadline =>
          rw [hsealing deadline rfl]
          exact ih deadline
      · obtain ⟨phase, rfl, hleases, _⟩ := h
        exact ⟨phase, rfl, hleases, fun h => nomatch h⟩
  unfold UsbSessionIoGate.seal
  split
  · exact ⟨.outside, rfl, rfl, fun h => nomatch h⟩
  · refine keeps_raises (keeps_sealBlock timeoutS) (fun r m' h => ?_) fun e m' h => ?_
    · obtain ⟨phase, rfl, hleases, hdrained, hsealing⟩ := h
      cases r with
      | none => exact ⟨phase, rfl, hleases, fun _ => hdrained rfl⟩
      | some deadline =>
        rw [hsealing deadline rfl]
        exact hwait fuel deadline
    · obtain ⟨phase, rfl, hleases, _⟩ := h
      exact ⟨phase, rfl, hleases, fun h => nomatch h⟩

/-- A block of the owner that raises, or takes the session from one stage to the next. -/
theorem keeps_stage {o : UsbSessionIoGate.Op} {phase phase' : ReleasePhase} (hown : phase.owns = true) (hown' : phase'.owns = true)
    (hbefore : phase'.before = true → phase.before = true)
    (hact : ∀ (gate : UsbSessionIoGate) start now, phase.Fits gate → (∃ e, gate.act o start now = (.error e, gate)) ∨
      ∃ gate', gate.act o start now = (.ok none, gate') ∧ gate'.ordinary = gate.ordinary ∧ gate'.drained = gate.drained ∧
        phase'.Fits gate') :
    KeepsRelease t (block locals o).run (fun r m' => m' = ⟨if r.isOk then phase' else phase, some record.quiet⟩)
      ⟨phase, some record⟩ := by
  refine keeps_block fun gate h G start now hI hG => ?_
  have hfits : phase.Fits gate := by simpa [hG] using hI.fits t
  have hnotOpen : ∀ {gate : UsbSessionIoGate} {phase : ReleasePhase}, phase.owns = true → phase.Fits gate → gate.state ≠ .opened := by
    intro gate phase hown hfits hopen
    rw [ReleasePhase.not_owns_of_open hfits hopen] at hown
    cases hown
  have hleases : ∀ {phase : ReleasePhase}, phase.owns = true → phase.leases = 0 := by
    intro phase h
    cases phase <;> first | rfl | cases h
  rcases hact gate start now hfits with ⟨e, hact⟩ | ⟨gate', hact, hordinary, hdrained, hfits'⟩ <;> rw [hact]
  · exact ⟨phase, rfl, hI.own hG hown rfl hI.drained hfits (hnotOpen hown hfits) fun h => h⟩
  · refine ⟨phase', rfl, hI.own hG hown ?_ (fun hd => ?_) hfits' (hnotOpen hown' hfits') hbefore⟩
    · rw [hordinary, hleases hown, hleases hown']
    · rw [hdrained] at hd
      exact ⟨hordinary.trans (hI.drained hd).1, hnotOpen hown' hfits'⟩

theorem keeps_control : KeepsRelease t (block locals .control).run
    (fun r m' => m' = ⟨if r.isOk then .controlled else .drained, some record.quiet⟩) ⟨.drained, some record⟩ := by
  refine keeps_stage rfl rfl (fun h => h) fun gate start now hfits => ?_
  simp only [UsbSessionIoGate.act]
  split
  · exact Or.inl ⟨_, rfl⟩
  · exact Or.inr ⟨_, rfl, rfl, rfl, hfits⟩

theorem keeps_hostQuiesced : KeepsRelease t (block locals .hostQuiesced).run
    (fun r m' => m' = ⟨if r.isOk then .quiesced else .controlled, some record.quiet⟩) ⟨.controlled, some record⟩ := by
  refine keeps_stage rfl rfl (fun h => h) fun gate start now hfits => ?_
  simp only [UsbSessionIoGate.act]
  split
  · exact Or.inl ⟨_, rfl⟩
  · exact Or.inr ⟨_, rfl, rfl, rfl, rfl, hfits.2⟩

theorem keeps_accepted : KeepsRelease t (block locals .accepted).run
    (fun r m' => m' = ⟨if r.isOk then .accepted else .called, some record.quiet⟩) ⟨.called, some record⟩ := by
  refine keeps_stage rfl rfl (fun h => nomatch h) fun gate start now hfits => ?_
  simp only [UsbSessionIoGate.act]
  split
  · exact Or.inl ⟨_, rfl⟩
  · exact Or.inr ⟨_, rfl, rfl, rfl, Or.inl rfl⟩

theorem keeps_released : KeepsRelease t (block locals .released).run
    (fun _ m' => m' = ⟨.accepted, some record.quiet⟩) ⟨.accepted, some record⟩ := by
  have hstage : KeepsRelease t (block locals .released).run
      (fun r m' => m' = ⟨if r.isOk then .accepted else .accepted, some record.quiet⟩) ⟨.accepted, some record⟩ := by
    refine keeps_stage rfl rfl (fun h => nomatch h) fun gate start now hfits => ?_
    simp only [UsbSessionIoGate.act]
    split
    · exact Or.inl ⟨_, rfl⟩
    · exact Or.inr ⟨_, rfl, rfl, rfl, Or.inr rfl⟩
  exact keeps_mono hstage fun r m' h => by simpa using h

theorem keeps_endControl {phase : ReleasePhase} (hown : phase.owns = true) :
    KeepsRelease t (.op (.gate .endControl)) (fun _ m' => m' = ⟨phase, some record.quiet⟩) ⟨phase, some record⟩ := by
  refine keeps_op trivial fun gate h G hI _ hG c r gate' hs _ => ⟨_, ?_, rfl⟩
  have hfits : phase.Fits gate := by simpa [hG] using hI.fits t
  cases hs
  refine hI.own hG hown (o := .endControl) (r := .ok none) (p := phase) rfl hI.drained ?_ (fun hopen => ?_) fun h => h
  · cases phase <;> exact hfits
  · rw [ReleasePhase.not_owns_of_open hfits hopen] at hown
    cases hown

/-- A call of the port that is not the release leaves the stage as it is. -/
theorem keeps_portOp {o : PortOp} (ho : (ReleaseOp.port o).isRelease = false) {m : ReleaseMark} :
    KeepsRelease t (.op (.port o)) (fun r m' => m' = ⟨m.phase, m.record.map fun record => record.after (.port o) r⟩) m := by
  refine keeps_op trivial fun gate h G hI _ hG c r gate' hs _ => ⟨_, ?_, rfl⟩
  simp only [releaseCode, releaseAct, Option.some.injEq, Prod.mk.injEq] at hs
  obtain ⟨rfl, rfl⟩ := hs
  refine hI.move hG rfl hI.drained (by simpa [hG] using hI.fits t) (fun u _ => hI.fits u) (fun hown u hu => ?_) (fun h => h)
    (fun hb => ⟨ho, Or.inl hb⟩) fun h => ?_
  · exact hI.others hG hown u hu
  · rw [ho] at h
    cases h

theorem keeps_port {o : PortOp} (ho : (ReleaseOp.port o).isRelease = false) {phase : ReleasePhase} :
    KeepsRelease t (port locals o).run
      (fun r m' => ∃ a, r = a.mapError (⟨·, locals⟩) ∧ m' = ⟨phase, some (record.after (.port o) a)⟩) ⟨phase, some record⟩ :=
  keeps_then (keeps_portOp ho) fun a _ h => ⟨a, rfl, h⟩

/-- The call of `release_storage`, in the one stage that it may be made in. -/
theorem keeps_releaseStorage (cdcPort attemptId : String) (target : EjectTarget) (hsynced : record.synced = true)
    (hlocked : record.locked = true) : KeepsRelease t (port locals (.releaseStorage cdcPort attemptId target)).run
      (fun r m' => m' = ⟨.called, some { record with calling := true, accepted := r.isOk }⟩) ⟨.quiesced, some record⟩ := by
  refine keeps_then (R := fun (r : Except ReleaseExc Unit) m' => m' = ⟨.called, some { record with calling := true, accepted := r.isOk }⟩)
    (keeps_op trivial fun gate h G hI _ hG c r gate' hs _ => ⟨_, ?_, rfl⟩) fun r m' h => ?_
  · simp only [releaseCode, releaseAct, Option.some.injEq, Prod.mk.injEq] at hs
    obtain ⟨rfl, rfl⟩ := hs
    have hfits : ReleasePhase.quiesced.Fits gate := by simpa [hG] using hI.fits t
    refine hI.move hG (o := .port (.releaseStorage cdcPort attemptId target)) rfl hI.drained hfits (fun u _ => hI.fits u)
      (fun _ => hI.others hG rfl) (fun h => h) (fun hb => nomatch hb) fun _ => ⟨?_, rfl, rfl, record, rfl, hsynced, hlocked⟩
    rw [hfits.1]
    simp
  · cases r <;> exact h

/-- A call whose outcome the record takes no note of. -/
def ReleaseOp.isPlain : ReleaseOp → Bool
  | .port (.sync) | .port (.enter) | .port (.exit _) | .port (.releaseStorage ..) | .port (.volumeDisappeared _) => false
  | .port _ => true
  | _ => false

abbrev PlainPort {α : Type} (p : ReleaseM α) : Prop := Device.Only (fun o => o.isPlain = true) p.run

theorem plain_port {o : PortOp} (ho : (ReleaseOp.port o).isPlain = true) : PlainPort (port locals o) :=
  .call _ _ ho fun _ => .ret _

theorem plain_throw {α : Type} (e : Raised) : PlainPort (throw e : ReleaseM α) := .ret _

theorem keeps_plain {α : Type} {p : ReleaseM α} {phase : ReleasePhase} (hp : PlainPort p) (hrecord : record.quiet = record) :
    KeepsRelease t p.run (fun _ m' => m' = ⟨phase, some record⟩) ⟨phase, some record⟩ := by
  unfold PlainPort at hp
  generalize p.run = p at hp
  induction hp with
  | ret a => rfl
  | call o k ho _ ih =>
    cases o with
    | gate o => cases ho
    | halt => cases ho
    | port o =>
      refine keeps_then (p := .op (ReleaseOp.port o)) (keeps_portOp ?_) fun r m' h => ?_
      · cases o <;> first | rfl | cases ho
      · have hafter : record.after (.port o) r = record := by
          cases o <;> first | exact hrecord | cases ho
        rw [Option.map_some, hafter] at h
        subst h
        exact ih r

/-- A body runs under a lease, or not at all. -/
theorem keeps_ordinary {α : Type} {body : ReleaseM α} {Q : Except Raised α → RunRecord → Prop}
    (hbody : KeepsRelease t body.run (fun r m' => ∃ record', m' = ⟨.leased, some record'⟩ ∧ Q r record'.quiet)
      ⟨.leased, some record.quiet⟩) (hclosed : ∀ e, Q (.error e) record.quiet) :
    KeepsRelease t (ordinary locals body).run (fun r m' => ∃ record', m' = ⟨.outside, some record'⟩ ∧ Q r record')
      ⟨.outside, some record⟩ := by
  refine keeps_raises keeps_admission (fun _ m' h => ?_) fun e m' h => ⟨_, h, hclosed e⟩
  subst h
  refine keeps_then hbody fun r m' h => ?_
  obtain ⟨record', rfl, hQ⟩ := h
  refine keeps_then keeps_leave fun _ m' h => ?_
  exact ⟨_, h, hQ⟩

theorem keeps_exceptException {α : Type} {body : ReleaseM α} {handler : Raised → α} {Q : Except Raised α → ReleaseMark → Prop}
    {m : ReleaseMark} (hbody : KeepsRelease t body.run (fun r m' => match r with
      | .ok a => Q (.ok a) m'
      | .error e => Q (.error e) m' ∧ Q (.ok (handler e)) m') m) :
    KeepsRelease t (exceptException body handler).run Q m := by
  refine keeps_then hbody fun r m' h => ?_
  cases r with
  | ok a => exact h
  | error e =>
    show Q (if e.exc = .baseException then .error e else .ok (handler e)) m'
    split
    · exact h.1
    · exact h.2

/-- A run that goes on has synchronised without conflicts. -/
theorem keeps_syncStage : KeepsRelease t syncStage.run
    (fun r m' => ∃ record, m' = ⟨.outside, some record⟩ ∧ record.calling = false ∧
      (∀ outcome, r = .ok (.inl outcome) → outcome.success = false) ∧ ∀ id, r = .ok (.inr id) → record = { synced := true })
    ⟨.outside, some {}⟩ := by
  have hlease : KeepsRelease t (ordinary {} (do
      let expectedId ← port {} .deviceId
      let summary ← port {} .sync
      return (expectedId, summary))).run
      (fun r m' => ∃ record, m' = ⟨.outside, some record⟩ ∧ record.calling = false ∧
        ∀ id (summary : SyncSummary), r = .ok (id, summary) → summary.conflicts = 0 → record = { synced := true })
      ⟨.outside, some {}⟩ := by
    refine keeps_ordinary (Q := fun (r : Except Raised (String × SyncSummary)) record => record.calling = false ∧ ∀ id summary, r = .ok (id, summary) →
      summary.conflicts = 0 → record = { synced := true }) ?_ fun e => ⟨rfl, (by rintro _ _ ⟨⟩)⟩
    refine keeps_raises (keeps_plain (plain_port rfl) rfl) (fun id m' h => ?_) fun e m' h => ⟨_, h, rfl, (by rintro _ _ ⟨⟩)⟩
    subst h
    refine keeps_raises (keeps_port rfl) (fun summary m' h => ?_) fun e m' h => ?_
    · obtain ⟨a, ha, rfl⟩ := h
      refine ⟨_, rfl, rfl, fun id' summary' h hzero => ?_⟩
      cases h
      cases a with
      | error e => cases ha
      | ok a =>
        cases ha
        simp [RunRecord.after, RunRecord.quiet, hzero]
    · obtain ⟨a, ha, rfl⟩ := h
      exact ⟨_, rfl, rfl, (by rintro _ _ ⟨⟩)⟩
  refine keeps_exceptException (keeps_raises hlease (fun a m' h => ?_) fun e m' h => ?_)
  · obtain ⟨record, rfl, hcalling, hsynced⟩ := h
    obtain ⟨id, summary⟩ := a
    dsimp only
    split
    · exact ⟨record, rfl, hcalling, fun outcome h => by cases h; rfl, (by rintro _ ⟨⟩)⟩
    · rename_i hzero
      exact ⟨record, rfl, hcalling, (by rintro _ ⟨⟩), fun id h => hsynced id summary (by cases h; rfl) (by simpa using hzero)⟩
  · obtain ⟨record, rfl, hcalling, _⟩ := h
    exact ⟨⟨record, rfl, hcalling, (by rintro _ ⟨⟩), (by rintro _ ⟨⟩)⟩,
      ⟨record, rfl, hcalling, fun outcome h => by cases h; rfl, (by rintro _ ⟨⟩)⟩⟩

theorem keeps_lease {α : Type} {body : ReleaseM α} (hp : PlainPort body) (hrecord : record.quiet = record) :
    KeepsRelease t (ordinary locals body).run (fun _ m' => m' = ⟨.outside, some record⟩) ⟨.outside, some record⟩ := by
  refine keeps_mono (keeps_ordinary (Q := fun _ record' => record' = record) ?_ fun _ => hrecord) fun r m' h => ?_
  · rw [hrecord]
    exact keeps_mono (keeps_plain hp hrecord) fun _ m' h => ⟨record, h, hrecord⟩
  · obtain ⟨record', rfl, rfl⟩ := h
    rfl

/-- The release has been accepted, and the volume seen to be gone. -/
def RunRecord.Gone (record : RunRecord) : Prop := record.accepted = true ∧ record.disappeared = true

theorem keeps_pollRemoval (coordinator : SyncReleaseCoordinator) (target : EjectTarget) (deadline : ℚ) (fuel : ℕ)
    (hrecord : record.quiet = record) (haccepted : record.accepted = true) :
    KeepsRelease t (pollRemoval coordinator locals target deadline fuel).run
      (fun r m' => ∃ record', m' = ⟨.accepted, some record'⟩ ∧ ∀ a, r = .ok a → record'.Gone) ⟨.accepted, some record⟩ := by
  induction fuel generalizing record with
  | zero => exact ⟨trivial, (by rintro _ _ _ _ _ _ _ ⟨⟩)⟩
  | succ fuel ih =>
    refine keeps_raises (keeps_port rfl) (fun gone m' h => ?_) fun e m' h => ?_
    · obtain ⟨a, ha, rfl⟩ := h
      cases a with
      | error e => cases ha
      | ok a =>
        cases ha
        split
        case isTrue hgone =>
          subst hgone
          refine keeps_raises keeps_released (fun _ m' h => ?_) fun e m' h => ⟨_, h, (by rintro _ ⟨⟩)⟩
          subst h
          exact ⟨_, rfl, fun _ _ => ⟨haccepted, by simp [RunRecord.quiet, RunRecord.after, haccepted]⟩⟩
        case isFalse =>
          refine keeps_raises (keeps_plain (plain_port rfl) rfl) (fun now m' h => ?_) fun e m' h => ⟨_, h, (by rintro _ ⟨⟩)⟩
          subst h
          split
          · exact ⟨_, rfl, (by rintro _ ⟨⟩)⟩
          · refine keeps_raises (keeps_plain (plain_port rfl) rfl) (fun now m' h => ?_) fun e m' h => ⟨_, h, (by rintro _ ⟨⟩)⟩
            subst h
            refine keeps_raises (keeps_plain (plain_port rfl) rfl) (fun _ m' h => ?_) fun e m' h => ⟨_, h, (by rintro _ ⟨⟩)⟩
            subst h
            exact ih rfl haccepted
    · obtain ⟨a, _, rfl⟩ := h
      exact ⟨_, rfl, (by rintro _ ⟨⟩)⟩

/-- Where a run that owns the session stands. -/
def Owning {α : Type} (r : Except Raised α) (m : ReleaseMark) (done : α → Prop) : Prop :=
  ∃ phase record, m = ⟨phase, some record⟩ ∧ phase.owns = true ∧ ∀ a, r = .ok a → done a → record.Gone

theorem keeps_withVolume {α : Type} (record : RunRecord) (locals : Locals) (target : EjectTarget) (body : ReleaseM α)
    (hrecord : record.quiet = record)
    (hbody : KeepsRelease t body.run (fun r m' => Owning r m' fun _ => True)
      ⟨.controlled, some { record with locked := true, calling := false }⟩) :
    KeepsRelease t (withVolume locals target body).run (fun r m' => Owning r m' fun a => a.isSome = true)
      ⟨.controlled, some record⟩ := by
  refine keeps_raises (keeps_plain (plain_port rfl) hrecord) (fun _ m' h => ?_) fun e m' h => ⟨_, _, h, rfl, fun _ h => nomatch h⟩
  subst h
  refine keeps_raises (keeps_port rfl) (fun _ m' h => ?_) fun e m' h => ?_
  · obtain ⟨a, ha, rfl⟩ := h
    cases a with
    | error e => cases ha
    | ok a =>
      refine keeps_then hbody fun r m' h => ?_
      obtain ⟨phase, record', rfl, hown, hgone⟩ := h
      cases r with
      | ok a =>
        refine keeps_then (keeps_port rfl) fun left m' h => ?_
        obtain ⟨_, _, rfl⟩ := h
        exact ⟨phase, _, rfl, hown, fun _ _ _ => hgone a rfl trivial⟩
      | error e =>
        refine keeps_then (keeps_port rfl) fun left m' h => ?_
        obtain ⟨_, _, rfl⟩ := h
        refine ⟨phase, _, rfl, hown, fun a ha hsome => ?_⟩
        cases left with
        | error e => cases ha
        | ok swallowed =>
          cases swallowed with
          | false => cases ha
          | true =>
            cases ha
            cases hsome
  · obtain ⟨a, _, rfl⟩ := h
    exact ⟨_, _, rfl, rfl, fun _ h => nomatch h⟩

theorem keeps_releaseStage (coordinator : SyncReleaseCoordinator) (args : RunArgs) (target : EjectTarget) (attemptId : String)
    (fuel : ℕ) : KeepsRelease t (releaseStage coordinator args target attemptId fuel).run
      (fun r m' => ∃ phase record, m' = ⟨phase, some record⟩ ∧ phase.leases = 0 ∧ record.calling = false ∧
        ∀ outcome, r = .ok (some outcome) → record.Gone) ⟨.drained, some { synced := true }⟩ := by
  refine keeps_raises keeps_control (fun _ m' h => ?_) fun e m' h => ⟨_, _, h, rfl, rfl, fun _ h => nomatch h⟩
  subst h
  have hbody := keeps_withVolume (t := t) { synced := true } ⟨some attemptId, some target⟩ target (do
      let _ ← block ⟨some attemptId, some target⟩ .hostQuiesced
      port ⟨some attemptId, some target⟩ (.releaseStorage args.cdcPort attemptId target)
      let _ ← block ⟨some attemptId, some target⟩ .accepted
      let now ← port ⟨some attemptId, some target⟩ .clock
      pollRemoval coordinator ⟨some attemptId, some target⟩ target (now + coordinator.timeoutS) fuel) rfl ?_
  · refine keeps_then hbody fun r m' h => ?_
    obtain ⟨phase, record, rfl, hown, hgone⟩ := h
    refine keeps_then (keeps_endControl hown) fun _ m' h => ⟨phase, _, h, ?_, rfl, fun outcome ho => ?_⟩
    · cases phase <;> first | rfl | cases hown
    · exact hgone (some outcome) ho rfl
  · refine keeps_raises keeps_hostQuiesced (fun _ m' h => ?_) fun e m' h => ⟨_, _, h, rfl, fun _ h => nomatch h⟩
    subst h
    refine keeps_raises (keeps_releaseStorage _ _ _ rfl rfl) (fun _ m' h => ?_) fun e m' h => ⟨_, _, h, rfl, fun _ h => nomatch h⟩
    subst h
    refine keeps_raises keeps_accepted (fun _ m' h => ?_) fun e m' h => ⟨_, _, h, rfl, fun _ h => nomatch h⟩
    subst h
    refine keeps_raises (keeps_plain (plain_port rfl) rfl) (fun now m' h => ?_) fun e m' h => ⟨_, _, h, rfl, fun _ h => nomatch h⟩
    subst h
    refine keeps_mono (keeps_pollRemoval coordinator target _ fuel rfl rfl) fun r m' h => ?_
    obtain ⟨record', rfl, hgone⟩ := h
    exact ⟨_, record', rfl, rfl, fun a ha _ => hgone a ha⟩

/-- What a run leaves: no lease and no call, and a success only of a release that has come to its end. -/
def Ended (r : Except Raised (Option ReleaseOutcome)) (m : ReleaseMark) : Prop :=
  ∃ phase record, m = ⟨phase, some record⟩ ∧ phase.leases = 0 ∧ record.calling = false ∧
    ∀ outcome, r = .ok (some outcome) → outcome.success = true → record.Gone

theorem keeps_runStages (coordinator : SyncReleaseCoordinator) (args : RunArgs) (expectedId : String) (fuel : ℕ) :
    KeepsRelease t (runStages coordinator args expectedId fuel).run
      (fun r m' => ∃ phase record, m' = ⟨phase, some record⟩ ∧ phase.leases = 0 ∧ record.calling = false ∧
        ∀ outcome, r = .ok (some outcome) → record.Gone) ⟨.outside, some { synced := true }⟩ := by
  have hack : KeepsRelease t (if args.ackFlush then ackStage else pure () : ReleaseM Unit).run
      (fun _ m' => m' = ⟨.outside, some { synced := true }⟩) ⟨.outside, some { synced := true }⟩ := by
    split
    · refine keeps_lease (Device.Only.bindExcept (plain_port rfl) fun ack => ?_) rfl
      split
      · exact .ret _
      · exact plain_throw _
    · rfl
  have hmutations : KeepsRelease t (if args.cdcMutations then ordinary {} (port {} .cdcMutations) else pure () : ReleaseM Unit).run
      (fun _ m' => m' = ⟨.outside, some { synced := true }⟩) ⟨.outside, some { synced := true }⟩ := by
    split
    · exact keeps_lease (plain_port rfl) rfl
    · rfl
  have htarget : KeepsRelease t (targetStage args expectedId).run
      (fun _ m' => m' = ⟨.outside, some { synced := true }⟩) ⟨.outside, some { synced := true }⟩ := by
    refine keeps_lease (Device.Only.bindExcept (plain_port rfl) fun target => ?_) rfl
    refine Device.Only.bindExcept (plain_port rfl) fun _ => Device.Only.bindExcept (plain_port rfl) fun available => ?_
    split
    · exact .ret _
    · exact plain_throw _
  have hearly : ∀ {e : Raised} {m' : ReleaseMark}, m' = ⟨.outside, some { synced := true }⟩ → ∃ phase record,
      m' = ⟨phase, some record⟩ ∧ phase.leases = 0 ∧ record.calling = false ∧
        ∀ outcome, (.error e : Except Raised (Option ReleaseOutcome)) = .ok (some outcome) → record.Gone :=
    fun h => ⟨_, _, h, rfl, rfl, fun _ h => nomatch h⟩
  refine keeps_raises hack (fun _ m' h => ?_) fun e m' h => hearly h
  subst h
  refine keeps_raises hmutations (fun _ m' h => ?_) fun e m' h => hearly h
  subst h
  refine keeps_raises htarget (fun target m' h => ?_) fun e m' h => hearly h
  subst h
  refine keeps_raises (keeps_seal { synced := true } coordinator.timeoutS fuel) (fun _ m' h => ?_) fun e m' h => ?_
  · obtain ⟨phase, rfl, _, hdrained⟩ := h
    rw [hdrained rfl]
    refine keeps_raises (keeps_plain (plain_port rfl) rfl) (fun attemptId m' h => ?_) fun e m' h => ⟨_, _, h, rfl, rfl, fun _ h => nomatch h⟩
    subst h
    exact keeps_releaseStage coordinator args target attemptId fuel
  · obtain ⟨phase, rfl, hleases, _⟩ := h
    exact ⟨phase, _, rfl, hleases, rfl, fun _ h => nomatch h⟩

theorem keeps_run (coordinator : SyncReleaseCoordinator) (args : RunArgs) (fuel : ℕ) :
    KeepsRelease t (coordinator.run args fuel).run Ended ⟨.outside, some {}⟩ := by
  refine keeps_raises keeps_syncStage (fun early m' h => ?_) fun e m' h => ?_
  · obtain ⟨record, rfl, hcalling, hfailed, hsynced⟩ := h
    cases early with
    | inl outcome =>
      refine ⟨.outside, record, rfl, rfl, hcalling, fun outcome' h hsuccess => ?_⟩
      cases h
      rw [hfailed _ rfl] at hsuccess
      cases hsuccess
    | inr id =>
      rw [hsynced id rfl]
      refine keeps_exceptException (keeps_mono (keeps_runStages coordinator args id fuel) fun r m' h => ?_)
      obtain ⟨phase, record, rfl, hleases, hcalling, hgone⟩ := h
      cases r with
      | ok a => exact ⟨phase, record, rfl, hleases, hcalling, fun outcome h _ => hgone outcome (by cases h; rfl)⟩
      | error e =>
        refine ⟨⟨phase, record, rfl, hleases, hcalling, fun _ h => nomatch h⟩, phase, record, rfl, hleases, hcalling,
          fun outcome h hsuccess => ?_⟩
        cases h
        cases hsuccess
  · obtain ⟨record, rfl, hcalling, _⟩ := h
    exact ⟨.outside, record, rfl, rfl, hcalling, fun _ h => nomatch h⟩

end Walk

section Runs

variable [Fintype ι]

def releaseRest (_ : Unit) : ReleaseMark := ⟨.outside, none⟩

/-- A thread whose call has ended goes back outside. -/
theorem ReleaseInv.rest {gate : UsbSessionIoGate} {h : Releases ι} {G : ι → ReleaseMark} {t : ι} {record : RunRecord}
    {phase : ReleasePhase} (hI : ReleaseInv gate h G) (hG : G t = ⟨phase, some record⟩) (hleases : phase.leases = 0)
    (hcalling : record.calling = false) {reports : List (ReleaseOutcome × RunRecord)}
    (hreports : ∀ outcome record, (outcome, record) ∈ reports → outcome.success = true → record.Gone) :
    ReleaseInv gate { h with reports } (Function.update G t (releaseRest ())) := by
  have hself : Function.update G t (releaseRest ()) t = ⟨.outside, none⟩ := Function.update_self ..
  have hothers : ∀ {u}, u ≠ t → Function.update G t (releaseRest ()) u = G u := fun hu => Function.update_of_ne hu ..
  have howner : ∀ {u}, (Function.update G t (releaseRest ()) u).phase.owns = true → u ≠ t ∧ (G u).phase.owns = true := by
    intro u hu
    by_cases hut : u = t
    · rw [hut, hself] at hu
      cases hu
    · rw [hothers hut] at hu
      exact ⟨hut, hu⟩
  refine ⟨?_, hI.drained, fun u => ?_, fun u v hu hv => hI.owner u v (howner hu).2 (howner hv).2, fun hor => ?_, hI.once,
    fun u record hrecord => ?_, fun u hu => ?_, hreports⟩
  · have hsum := sum_update (fun m : ReleaseMark => m.phase.leases) G t (releaseRest ())
    have hold := hI.ordinary
    have hzero : (releaseRest ()).phase.leases = 0 := rfl
    rw [hG] at hsum
    dsimp only at hsum
    omega
  · by_cases hut : u = t
    · rw [hut, hself]
      trivial
    · rw [hothers hut]
      exact hI.fits u
  · refine hI.fresh (hor.imp_right fun ⟨u, hu⟩ => ?_)
    by_cases hut : u = t
    · rw [hut, hself] at hu
      cases hu
    · rw [hothers hut] at hu
      exact ⟨u, hu⟩
  · by_cases hut : u = t
    · rw [hut, hself] at hrecord
      cases hrecord
    · rw [hothers hut] at hrecord
      exact hI.record u record hrecord
  · by_cases hut : u = t
    · have hrecord := hI.record t record (by rw [hG])
      rw [hut] at hu
      rw [show ({ h with reports } : Releases ι).current t = h.current t from rfl, hrecord, hcalling] at hu
      cases hu
    · rw [hothers hut]
      exact hI.calling u hu

/-- A call begins with a new record. -/
theorem ReleaseInv.begin {gate : UsbSessionIoGate} {h : Releases ι} {G : ι → ReleaseMark} {t : ι} (hI : ReleaseInv gate h G)
    (hG : G t = releaseRest ()) : ReleaseInv gate { h with current := Function.update h.current t {} }
      (Function.update G t ⟨.outside, some {}⟩) := by
  have hphase : ∀ u, (Function.update G t ⟨.outside, some {}⟩ u).phase = (G u).phase := by
    intro u
    by_cases hut : u = t
    · rw [hut, Function.update_self, hG]
      rfl
    · rw [Function.update_of_ne hut]
  refine ⟨?_, hI.drained, fun u => ?_, fun u v hu hv => ?_, fun hor => ?_, hI.once, fun u record hrecord => ?_, fun u hu => ?_,
    hI.reports⟩
  · simp only [hphase]
    exact hI.ordinary
  · rw [hphase]
    exact hI.fits u
  · rw [hphase] at hu hv
    exact hI.owner u v hu hv
  · simp only [hphase] at hor
    exact hI.fresh hor
  · dsimp only
    by_cases hut : u = t
    · subst hut
      rw [Function.update_self] at hrecord ⊢
      exact Option.some.inj hrecord
    · rw [Function.update_of_ne hut] at hrecord ⊢
      exact hI.record u record hrecord
  · dsimp only at hu ⊢
    by_cases hut : u = t
    · rw [hut, Function.update_self] at hu
      cases hu
    · rw [hphase]
      rw [Function.update_of_ne hut] at hu ⊢
      exact hI.calling u hu

theorem keepsCalls_release : KeepsCalls (releaseCode ι) Releases.note (fun gate h G => ReleaseInv gate h G)
    (fun _ _ _ _ _ => True) (fun _ => True) releaseRest := by
  intro t c l gate h G hI _ hG _
  refine ⟨⟨.outside, some {}⟩, hI.begin hG, fun fuel => ?_⟩
  cases c with
  | run coordinator args =>
    refine keeps_mono (keeps_run coordinator args fuel) fun r m' h gate releases G hI hG => ?_
    obtain ⟨phase, record, rfl, hleases, hcalling, hgone⟩ := h
    cases r with
    | error e => exact hI.rest hG hleases hcalling hI.reports
    | ok a =>
      cases a with
      | none => exact hI.rest hG hleases hcalling hI.reports
      | some outcome =>
        refine hI.rest hG hleases hcalling fun outcome' record' hmem => ?_
        rcases List.mem_cons.mp hmem with heq | hmem
        · cases heq
          rw [hI.record t record (by rw [hG])]
          exact hgone outcome rfl
        · exact hI.reports outcome' record' hmem
  | lease transport =>
    refine keeps_mono (keeps_lease (plain_port rfl) rfl) fun r m' h gate releases G hI hG => ?_
    subst h
    exact hI.rest hG rfl rfl hI.reports

abbrev ReleasePool (ι : Type) := Pool ι ReleaseOp ReleaseOp.Ans UsbSessionIoGate ReleaseCall ReleaseCall.Ret Unit (Releases ι)

/-- A new gate, and threads at rest around it. -/
def releasePool (ι : Type) : ReleasePool ι := ⟨.init, fun _ => .idle (), .start⟩

variable {P : ReleasePool ι}

theorem reach_releaseInv (h : Reach (releaseCode ι) Releases.note (fun _ _ _ _ _ => True) (releasePool ι) P) :
    ∃ G, ReleaseInv P.mem P.seen G := by
  have hinit : ReleaseInv UsbSessionIoGate.init (.start : Releases ι) fun _ => releaseRest () := by
    refine ⟨?_, fun h => (nomatch h), fun _ => trivial, fun _ _ h => (nomatch h), fun _ => rfl, Nat.zero_le _, fun _ _ h => (nomatch h),
      fun _ h => (nomatch h), fun _ _ h => nomatch h⟩
    simp [releaseRest, ReleasePhase.leases, UsbSessionIoGate.init]
  obtain ⟨G, hI, _⟩ := good_reach (fun _ => trivial) keepsCalls_release (good_idle (fun _ => trivial) hinit) h
  exact ⟨G, hI⟩

omit [Fintype ι] in
theorem returned_current (t : ι) (c : ReleaseCall) (v : c.Ret) (h : Releases ι) :
    (Releases.note (.returned t c v) h).current = h.current := by
  cases c with
  | lease transport => rfl
  | run coordinator args => rcases v with e | _ | outcome <;> rfl

/-- A thread is about to call `release_storage` only on a quiesced gate, in a run that has synchronised and holds the
volume. -/
theorem quiesced_of_calling (h : Reach (releaseCode ι) Releases.note (fun _ _ _ _ _ => True) (releasePool ι) P) {t : ι} {l : Unit}
    {c : ReleaseCall} {cdcPort attemptId : String} {target : EjectTarget} {k : Except ReleaseExc Unit → Prog ReleaseOp ReleaseOp.Ans c.Ret}
    (ht : P.thread t = .busy l c (.call (.port (.releaseStorage cdcPort attemptId target)) k)) :
    P.mem.ordinary = 0 ∧ P.mem.state = .hostQuiesced ∧ (P.seen.current t).synced = true ∧ (P.seen.current t).locked = true := by
  let answers : Answers := ⟨fun _ => .error .baseException, 0, 0⟩
  let called : Releases ι := Releases.note (.acted t (.port (.releaseStorage cdcPort attemptId target)) (.error .baseException)) P.seen
  have hstep : step (releaseCode ι) Releases.note P (.act t answers) =
      some (resume (releaseCode ι) Releases.note t l c (k (.error .baseException)) { P with seen := called }) := by
    simp only [step, ht]
    rfl
  have hmeets : Meets (releaseCode ι) (fun _ (_ : Releases ι) _ _ _ => True) P (.act t answers) := fun _ _ _ _ _ _ _ _ => trivial
  obtain ⟨G, hI⟩ := reach_releaseInv (.step _ h hmeets hstep)
  rw [resume_mem] at hI
  have hcurrent : (resume (releaseCode ι) Releases.note t l c (k (.error .baseException)) { P with seen := called }).seen.current t =
      { P.seen.current t with calling := true, accepted := false } := by
    cases k (.error .baseException) with
    | ret v =>
      rw [resume, returned_current]
      exact Function.update_self ..
    | call o k => exact Function.update_self ..
  obtain ⟨hcalled, hsynced, hlocked⟩ := hI.calling t (by rw [hcurrent])
  rw [hcurrent] at hsynced hlocked
  have hfits := hI.fits t
  rw [hcalled] at hfits
  exact ⟨(hI.drained hfits.2).1, hfits.1, hsynced, hlocked⟩

/-- No block takes the state back. -/
theorem UsbSessionIoGate.rank_act (gate : UsbSessionIoGate) (o : Op) (start now : ℚ) :
    gate.state.rank ≤ (gate.act o start now).2.state.rank := by
  cases o <;> simp only [act, drain, le_refl] <;> split_ifs <;> simp_all [GateState.rank]

/-- In every run of any coordinators and leases on one gate, however the port answers: the release is called at most once;
whoever is about to call it finds no lease out, has synchronised without conflicts, has quiesced the gate and holds the
volume; a success is reported only after the acceptance and the disappearance; and the state never moves back. -/
theorem release_once (h : Reach (releaseCode ι) Releases.note (fun _ _ _ _ _ => True) (releasePool ι) P) :
    P.seen.count ≤ 1 ∧
    (∀ t l c cdcPort attemptId target k,
      P.thread t = .busy l c (.call (.port (.releaseStorage cdcPort attemptId target)) k) →
        P.mem.ordinary = 0 ∧ P.mem.state = .hostQuiesced ∧ (P.seen.current t).synced = true ∧ (P.seen.current t).locked = true) ∧
    (∀ outcome record, (outcome, record) ∈ P.seen.reports → outcome.success = true →
      record.accepted = true ∧ record.disappeared = true) ∧
    ∀ e P', step (releaseCode ι) Releases.note P e = some P' → P.mem.state.rank ≤ P'.mem.state.rank := by
  obtain ⟨G, hI⟩ := reach_releaseInv h
  refine ⟨hI.once, fun t l c cdcPort attemptId target k ht => quiesced_of_calling h ht, hI.reports, fun e P' hs => ?_⟩
  cases e with
  | call t c fuel =>
    simp only [step] at hs
    split at hs
    · split at hs
      · cases hs
        rw [resume_mem]
      · cases hs
    · cases hs
  | act t choice =>
    simp only [step] at hs
    split at hs
    · rename_i o k hthread
      split at hs
      · rename_i r gate hact
        cases hs
        rw [resume_mem]
        cases o with
        | gate o =>
          simp only [releaseCode, releaseAct, Option.some.injEq] at hact
          have hrank := P.mem.rank_act o choice.start choice.now
          rwa [hact] at hrank
        | port o =>
          cases hact
          exact le_rfl
        | halt => cases hact
      · cases hs
    · cases hs

section Success

def someTarget : EjectTarget := ⟨"device", "E:", "guid", 1, "disk", "eject", "usb"⟩

/-- Every call of the port succeeds. -/
def allGood : Answers where
  port
    | .deviceId | .uuid4 => .ok "id"
    | .sync => .ok ⟨1, 0, 0⟩
    | .ackFlush => .ok (some ⟨true⟩)
    | .resolveTarget _ _ => .ok someTarget
    | .volumeAvailable _ | .volumeDisappeared _ => .ok true
    | .exit _ => .ok false
    | .clock => .ok 0
    | .cdcMutations | .revalidateTarget _ _ | .quiesce _ | .enter | .releaseStorage .. | .sleep _ | .work _ => .ok ()
  start := 0
  now := 0

/-- A run from its synchronisation to the removal of the volume, while another thread has come and gone under a lease. -/
def successEvents : List (Event Bool Answers ReleaseCall) :=
  .call false (.lease .cdc) 1 :: .act false allGood ::
    .call true (.run ⟨20, 1, by decide, by decide⟩ ⟨"E:", "COM3", false, false⟩) 2 ::
      List.replicate 4 (.act true allGood) ++ List.replicate 2 (.act false allGood) ++ List.replicate 18 (.act true allGood)

theorem successEvents_run : (run (releaseCode Bool) Releases.note (fun _ _ _ _ _ => True) successEvents
    (releasePool Bool)).map (·.seen.reports.map fun report => report.1.success) = some [true] := by
  decide +kernel

theorem release_once_success : ∃ P, run (releaseCode Bool) Releases.note (fun _ _ _ _ _ => True) successEvents
    (releasePool Bool) = some P ∧ P.seen.reports.map (fun report => report.1.success) = [true] ∧ P.seen.count ≤ 1 := by
  obtain ⟨P, hP, hreports⟩ := Option.map_eq_some_iff.mp successEvents_run
  exact ⟨P, hP, hreports, (release_once (reach_run successEvents .start hP)).1⟩

end Success

end Runs

end M5DayLog
