import M5DayLog.Pc.Maintenance

/-! A guard directory lets one release through. A run that makes the guard file is the only one that ever does, because
the file is made exclusively and never taken away; and every path to the release leads through the making of it, its
reading back and the checks of the permit and of the readiness. -/

namespace M5DayLog

open Bytes Threads

variable {ι γ : Type} [DecidableEq ι]

section Record

/-- What a run has been given and has done so far. -/
structure Attempt where
  preflights : List Preflight := []
  target : Option EjectTarget := none
  permit : Option GatePermit := none
  readiness : Option ControlledPocReadiness := none
  created : Option (List String) := none
  readBack : Option Bytes := none
  sent : Bool := false
  deriving DecidableEq

def Attempt.after (a : Attempt) : (o : MaintenanceOp γ) → o.Ans → Attempt
  | .host .freshPreflight, .ok preflight => { a with preflights := a.preflights ++ [preflight] }
  | .host (.port (.resolveTarget _ _)), .ok target => { a with target }
  | .host (.qualify _ _), .ok permit => { a with permit }
  | .host (.qualifyPoc _ _ _), .ok readiness => { a with readiness }
  | .host (.create _), .ok dir => { a with created := dir }
  | .host (.readBytes _), .ok data => { a with readBack := data }
  | .host (.port (.releaseStorage ..)), _ => { a with sent := true }
  | _, _ => a

/-- A call of `release_storage`, with what its run had been given and had done. -/
structure Sent where
  attempt : Attempt
  attemptId : String
  target : EjectTarget
  deriving DecidableEq

/-- The runs of the threads, and the calls of `release_storage` so far. -/
structure Attempts (ι : Type) where
  current : ι → Attempt
  sent : List Sent

def Attempts.send (t : ι) (h : Attempts ι) : MaintenanceOp γ → List Sent
  | .host (.port (.releaseStorage _ attemptId target)) => h.sent ++ [⟨h.current t, attemptId, target⟩]
  | _ => h.sent

def Attempts.note : Note ι (MaintenanceOp γ) MaintenanceOp.Ans (MaintenanceArgs γ)
    (fun _ => Except MaintenanceExc (Option MaintenanceOutcome)) → Attempts ι → Attempts ι
  | .called t _, h => { h with current := Function.update h.current t {} }
  | .acted t o r, h => ⟨Function.update h.current t ((h.current t).after o r), h.send t o⟩
  | .returned t _ _, h => { h with current := Function.update h.current t {} }

def Attempts.start : Attempts ι := ⟨fun _ => {}, []⟩

end Record

section Invariant

/-- A release that the guard and both qualifications have let through: two equal preflights, a permit and a readiness for
their receipt and history, this target and this attempt id, and a guard file in the approved directory that the run has made
and read back. -/
structure Sent.Entitled (ns : Namespace) (guards : List String → Option Bytes) (s : Sent) : Prop where
  qualified : ∃ final permit readiness, s.attempt.preflights = [final, final] ∧ s.attempt.permit = some permit ∧
    s.attempt.readiness = some readiness ∧ s.attempt.target = some s.target ∧ permitFits permit final s.target = true ∧
    permit.attemptId = some s.attemptId ∧ readinessFits readiness ⟨s.target, final, permit, s.attemptId⟩ = true ∧
    ∃ dir, ns.resolve permit.authorizedGuardDirectory = some dir ∧ s.attempt.created = some dir ∧
      s.attempt.readBack = some (guardContent permit s.attemptId) ∧ guards dir = some (guardContent permit s.attemptId)

structure OneShotInv (ns : Namespace) (mem : HostMem γ) (h : Attempts ι) (G : ι → Attempt) : Prop where
  current : ∀ t, h.current t = G t
  made : ∀ t dir, (G t).created = some dir → mem.guards dir ≠ none
  owner : ∀ t u dir, (G t).created = some dir → (G u).created = some dir → t = u
  intact : ∀ t dir data, (G t).created = some dir → (G t).readBack = some data → mem.guards dir = some data
  entitled : ∀ s ∈ h.sent, s.Entitled ns mem.guards
  pending : ∀ t dir, (G t).created = some dir → (G t).sent = false → ∀ s ∈ h.sent, s.attempt.created ≠ some dir
  once : (h.sent.map (·.attempt.created)).Nodup

abbrev KeepsOneShot [DecidableEq γ] {α : Type} (ns : Namespace) (t : ι) (p : Prog (MaintenanceOp γ) MaintenanceOp.Ans α)
    (Q : α → Attempt → Prop) (m : Attempt) : Prop :=
  Keeps (maintenanceCode ι γ ns) Attempts.note (fun mem h G => OneShotInv ns mem h G) (fun _ _ _ _ _ => True) (fun _ => True)
    t p Q m

end Invariant

section Operations

variable {ns : Namespace} {mem mem' : HostMem γ} {h : Attempts ι} {G : ι → Attempt} {t : ι} {m : Attempt}

/-- A call that neither touches a guard file nor sends. -/
def HostOp.isPlain : HostOp → Bool
  | create _ | put .. | readBytes _ | port (.releaseStorage ..) => false
  | _ => true

def MaintenanceOp.isPlain : MaintenanceOp γ → Bool
  | .host o => o.isPlain
  | _ => true

/-- A plain call that the record takes no note of. -/
def MaintenanceOp.isSilent : MaintenanceOp γ → Bool
  | .host .freshPreflight | .host (.qualify ..) | .host (.qualifyPoc ..) | .host (.port (.resolveTarget ..)) => false
  | o => o.isPlain

/-- The part of the invariant that speaks of guard files and of what has been sent, carried over to another mark of `t`. -/
theorem OneShotInv.move (hI : OneShotInv ns mem h G) (hG : G t = m) {m' : Attempt} {sent' : List Sent}
    (hkept : ∀ dir, mem.guards dir ≠ none → m.created ≠ some dir → mem'.guards dir = mem.guards dir)
    (hmade : ∀ dir, m'.created = some dir → mem'.guards dir ≠ none)
    (howner : ∀ dir, m'.created = some dir → m.created = some dir ∨ mem.guards dir = none)
    (hintact : ∀ dir data, m'.created = some dir → m'.readBack = some data → mem'.guards dir = some data)
    (hentitled : ∀ s ∈ sent', s.Entitled ns mem'.guards)
    (hpending : ∀ u dir, (Function.update G t m' u).created = some dir → (Function.update G t m' u).sent = false →
      ∀ s ∈ sent', s.attempt.created ≠ some dir)
    (honce : (sent'.map (·.attempt.created)).Nodup) :
    OneShotInv ns mem' ⟨Function.update h.current t m', sent'⟩ (Function.update G t m') := by
  have hothers : ∀ u, u ≠ t → ∀ dir, (G u).created = some dir → mem'.guards dir = mem.guards dir := by
    intro u hu dir hdir
    refine hkept dir (hI.made u dir hdir) fun hm => hu (hI.owner u t dir hdir ?_)
    rwa [hG]
  refine ⟨fun u => ?_, fun u dir hdir => ?_, fun u v dir hu hv => ?_, fun u dir data hdir hdata => ?_, hentitled, hpending, honce⟩
  · show Function.update h.current t m' u = Function.update G t m' u
    by_cases hu : u = t
    · subst hu
      rw [Function.update_self, Function.update_self]
    · rw [Function.update_of_ne hu, Function.update_of_ne hu]
      exact hI.current u
  · by_cases hu : u = t
    · subst hu
      rw [Function.update_self] at hdir
      exact hmade dir hdir
    · rw [Function.update_of_ne hu] at hdir
      rw [hothers u hu dir hdir]
      exact hI.made u dir hdir
  · have hmine : ∀ w, w ≠ t → m'.created = some dir → (G w).created = some dir → False := by
      intro w hw hm hdir
      rcases howner dir hm with hold | hnone
      · exact hw (hI.owner w t dir hdir (by rwa [hG]))
      · exact hI.made w dir hdir hnone
    by_cases hut : u = t
    · by_cases hvt : v = t
      · rw [hut, hvt]
      · subst hut
        rw [Function.update_self] at hu
        rw [Function.update_of_ne hvt] at hv
        exact (hmine v hvt hu hv).elim
    · rw [Function.update_of_ne hut] at hu
      by_cases hvt : v = t
      · subst hvt
        rw [Function.update_self] at hv
        exact (hmine u hut hv hu).elim
      · rw [Function.update_of_ne hvt] at hv
        exact hI.owner u v dir hu hv
  · by_cases hu : u = t
    · subst hu
      rw [Function.update_self] at hdir hdata
      exact hintact dir data hdir hdata
    · rw [Function.update_of_ne hu] at hdir hdata
      rw [hothers u hu dir hdir]
      exact hI.intact u dir data hdir hdata

/-- An entitled release keeps its file as long as nobody writes to it. -/
theorem Sent.Entitled.congr {guards guards' : List String → Option Bytes} {s : Sent} (hs : s.Entitled ns guards)
    (h : ∀ dir, s.attempt.created = some dir → guards dir ≠ none → guards' dir = guards dir) : s.Entitled ns guards' := by
  obtain ⟨final, permit, readiness, h1, h2, h3, h4, h5, h6, h7, dir, h8, h9, h10, h11⟩ := hs.qualified
  refine ⟨final, permit, readiness, h1, h2, h3, h4, h5, h6, h7, dir, h8, h9, h10, ?_⟩
  rw [h dir h9 (by simp [h11]), h11]

theorem Attempt.after_plain {o : MaintenanceOp γ} (ho : o.isPlain = true) (m : Attempt) (r : o.Ans) :
    (m.after o r).created = m.created ∧ (m.after o r).sent = m.sent ∧ (m.after o r).readBack = m.readBack := by
  cases o with
  | gate | halt => exact ⟨rfl, rfl, rfl⟩
  | host o =>
    cases o with
    | port o => cases o <;> first | exact ⟨rfl, rfl, rfl⟩ | (cases r <;> exact ⟨rfl, rfl, rfl⟩) | cases ho
    | create | put | readBytes => cases ho
    | _ => first | exact ⟨rfl, rfl, rfl⟩ | (cases r <;> exact ⟨rfl, rfl, rfl⟩)

theorem Attempt.after_silent {o : MaintenanceOp γ} (ho : o.isSilent = true) (m : Attempt) (r : o.Ans) : m.after o r = m := by
  cases o with
  | gate | halt => rfl
  | host o =>
    cases o with
    | port o => cases o <;> first | rfl | cases ho
    | _ => first | rfl | cases ho

theorem MaintenanceOp.plain_of_silent {o : MaintenanceOp γ} (ho : o.isSilent = true) : o.isPlain = true := by
  cases o with
  | gate | halt => rfl
  | host o =>
    cases o with
    | port o => cases o <;> first | rfl | exact ho
    | _ => first | rfl | exact ho

omit [DecidableEq ι] in
/-- What has been sent stays entitled while a file changes that belongs to a run with its release still to come. -/
theorem OneShotInv.still_entitled (hI : OneShotInv ns mem h G) (hG : G t = m) (hsent : m.sent = false)
    (hkept : ∀ dir, mem.guards dir ≠ none → m.created ≠ some dir → mem'.guards dir = mem.guards dir) :
    ∀ s ∈ h.sent, s.Entitled ns mem'.guards := by
  intro s hs
  refine (hI.entitled s hs).congr fun dir hdir hsome => hkept dir hsome fun hm => ?_
  exact hI.pending t dir (by rwa [hG]) (by rwa [hG]) s hs hdir

/-- Where the run neither makes a file nor sends, what is pending stays so. -/
theorem OneShotInv.still_pending (hI : OneShotInv ns mem h G) (hG : G t = m) {m' : Attempt} (hcreated : m'.created = m.created)
    (hsent : m'.sent = m.sent) : ∀ u dir, (Function.update G t m' u).created = some dir →
      (Function.update G t m' u).sent = false → ∀ s ∈ h.sent, s.attempt.created ≠ some dir := by
  intro u dir hdir hs
  by_cases hu : u = t
  · subst hu
    rw [Function.update_self] at hdir hs
    exact hI.pending u dir (by rw [hG, ← hcreated, hdir]) (by rw [hG, ← hsent, hs])
  · rw [Function.update_of_ne hu] at hdir hs
    exact hI.pending u dir hdir hs

/-- A step that leaves the guard files alone. -/
theorem OneShotInv.quiet (hI : OneShotInv ns mem h G) (hG : G t = m) {m' : Attempt} (hguards : mem'.guards = mem.guards)
    (hcreated : m'.created = m.created) (hsent : m'.sent = m.sent)
    (hread : m'.readBack = m.readBack ∨ ∀ dir data, m'.created = some dir → m'.readBack = some data → mem.guards dir = some data) :
    OneShotInv ns mem' ⟨Function.update h.current t m', h.sent⟩ (Function.update G t m') := by
  refine hI.move hG (fun dir _ _ => by rw [hguards]) (fun dir hdir => ?_) (fun dir hdir => Or.inl (hcreated ▸ hdir))
    (fun dir data hdir hdata => ?_) (by rw [hguards]; exact hI.entitled) (hI.still_pending hG hcreated hsent) hI.once
  · rw [hguards]
    exact hI.made t dir (by rw [hG, ← hcreated, hdir])
  · rw [hguards]
    rcases hread with heq | hread
    · exact hI.intact t dir data (by rw [hG, ← hcreated, hdir]) (by rw [hG, ← heq, hdata])
    · exact hread dir data hdir hdata

/-- An operation that leaves the guard files alone and sends nothing. -/
theorem OneShotInv.note_quiet (hI : OneShotInv ns mem h G) (hG : G t = m) {o : MaintenanceOp γ} {r : o.Ans}
    (hguards : mem'.guards = mem.guards) (hsend : h.send t o = h.sent) (hcreated : (m.after o r).created = m.created)
    (hsent : (m.after o r).sent = m.sent) (hread : (m.after o r).readBack = m.readBack ∨ ∀ dir data,
      (m.after o r).created = some dir → (m.after o r).readBack = some data → mem.guards dir = some data) :
    OneShotInv ns mem' (Attempts.note (.acted t o r) h) (Function.update G t (m.after o r)) := by
  rw [Attempts.note, hsend, hI.current t, hG]
  exact hI.quiet hG hguards hcreated hsent hread

variable [DecidableEq γ]

/-- One operation, by what it does to the invariant under each answer. -/
theorem keeps_maintenanceOp {o : MaintenanceOp γ} {Q : o.Ans → Attempt → Prop}
    (hact : ∀ mem h (G : ι → Attempt) c r mem', OneShotInv ns mem h G → G t = m → maintenanceAct ns o c mem = some (r, mem') →
      OneShotInv ns mem' (Attempts.note (.acted t o r) h) (Function.update G t (m.after o r)) ∧ Q r (m.after o r)) :
    KeepsOneShot ns t (.op o) Q m := by
  refine keeps_op trivial fun mem h G hI _ hG c r mem' hs _ => ?_
  obtain ⟨hI', hQ⟩ := hact mem h G c r mem' hI hG hs
  exact ⟨_, hI', hQ⟩

theorem keeps_plainOp {o : MaintenanceOp γ} (ho : o.isPlain = true) :
    KeepsOneShot ns t (.op o) (fun r m' => m' = m.after o r) m := by
  refine keeps_maintenanceOp fun mem h G c r mem' hI hG hs => ⟨?_, rfl⟩
  obtain ⟨hcreated, hsent, hread⟩ := m.after_plain ho r
  have hguards : mem'.guards = mem.guards := by
    cases o with
    | halt => cases hs
    | gate g o =>
      simp only [maintenanceAct, Option.some.injEq, Prod.mk.injEq] at hs
      rw [← hs.2]
    | host o =>
      simp only [maintenanceAct, Option.some.injEq, Prod.mk.injEq] at hs
      rw [← hs.2]
      cases o <;> first | rfl | cases ho
  have hsend : h.send t o = h.sent := by
    cases o with
    | gate | halt => rfl
    | host o =>
      cases o with
      | port o => cases o <;> first | rfl | cases ho
      | _ => rfl
  exact hI.note_quiet hG hguards hsend hcreated hsent (Or.inl hread)

/-- A program that the record takes no note of. -/
theorem keeps_silent {α : Type} {p : Prog (MaintenanceOp γ) MaintenanceOp.Ans α}
    (hp : Device.Only (fun o => o.isSilent = true) p) : KeepsOneShot ns t p (fun _ m' => m' = m) m := by
  induction hp with
  | ret a => rfl
  | call o k ho _ ih =>
    refine keeps_then (p := .op o) (keeps_plainOp (MaintenanceOp.plain_of_silent ho)) fun r m' h => ?_
    rw [m.after_silent ho] at h
    subst h
    exact ih r

end Operations

section GuardFile

variable [DecidableEq γ] {ns : Namespace} {t : ι} {m : Attempt}

/-- A run that has made no guard file and sent nothing. -/
structure Attempt.Clean (m : Attempt) : Prop where
  created : m.created = none
  readBack : m.readBack = none
  sent : m.sent = false

theorem createGuard_cases {dir : Option (List String)} {answer : Except MaintenanceExc (List String)} {made : Bool}
    {guards guards' : List String → Option Bytes} {r : Except MaintenanceExc (List String)}
    (h : createGuard dir answer made guards = (r, guards')) :
    (∃ d, dir = some d ∧ guards d = none ∧ guards' = Function.update guards d (some []) ∧ (r = .ok d ∨ ∃ e, r = .error e)) ∨
      (guards' = guards ∧ ∃ e, r = .error e) := by
  unfold createGuard at h
  split at h
  · cases h
    exact Or.inr ⟨rfl, _, rfl⟩
  case h_2 d =>
    split at h
    · cases h
      exact Or.inr ⟨rfl, _, rfl⟩
    · cases h
      exact Or.inr ⟨rfl, _, rfl⟩
    case h_3 e hnone =>
      cases h
      cases made
      · exact Or.inr ⟨rfl, e, rfl⟩
      · exact Or.inl ⟨d, rfl, hnone, rfl, Or.inr ⟨e, rfl⟩⟩
    case h_4 x hnone =>
      cases h
      exact Or.inl ⟨d, rfl, hnone, rfl, Or.inl rfl⟩

/-- The exclusive making of the guard file: nobody can have made it before. -/
theorem keeps_create (hm : m.Clean) (directory : String) : KeepsOneShot (γ := γ) ns t (host (.create directory)).run
    (fun r m' => match r with
      | .ok fd => m' = { m with created := some fd } ∧ ns.resolve directory = some fd
      | .error _ => m' = m) m := by
  refine keeps_maintenanceOp fun mem h G c r mem' hI hG hs => ?_
  simp only [maintenanceAct, Option.some.injEq, Prod.mk.injEq] at hs
  obtain ⟨hr, hmem⟩ := hs
  have hguards : mem'.guards = (hostAct ns (.create directory) c mem.guards).2 := by rw [← hmem]
  have hnote : ∀ r, Attempts.note (.acted t (.host (.create directory) : MaintenanceOp γ) r) h =
      ⟨Function.update h.current t (m.after (.host (.create directory) : MaintenanceOp γ) r), h.sent⟩ := by
    intro r
    rw [Attempts.note, hI.current t, hG]
    rfl
  have hkeep : ∀ d, mem.guards d = none → mem'.guards = Function.update mem.guards d (some []) → ∀ dir,
      mem.guards dir ≠ none → mem'.guards dir = mem.guards dir := by
    intro d hnone heq dir hdir
    have hne : dir ≠ d := by
      rintro rfl
      exact hdir hnone
    rw [heq, Function.update_of_ne hne]
  rw [hnote]
  rcases createGuard_cases (Prod.ext hr rfl : createGuard (ns.resolve directory) (c.host (.create directory)) c.made mem.guards =
    (r, (hostAct ns (.create directory) c mem.guards).2)) with ⟨d, hd, hnone, heq, hanswer⟩ | ⟨heq, e, rfl⟩
  · rw [← hguards] at heq
    have hsent := hI.still_entitled hG hm.sent fun dir hdir _ => hkeep d hnone heq dir hdir
    rcases hanswer with rfl | ⟨e, rfl⟩
    · refine ⟨hI.move hG (fun dir hdir _ => hkeep d hnone heq dir hdir) (fun dir hdir => ?_) (fun dir hdir => Or.inr ?_)
        (fun dir data _ hdata => ?_) hsent (fun u dir hdir hs s hmem => ?_) hI.once, rfl, hd⟩
      · obtain rfl := Option.some.inj hdir
        rw [heq, Function.update_self]
        simp
      · obtain rfl := Option.some.inj hdir
        exact hnone
      · exact absurd (hm.readBack.symm.trans hdata) (by simp)
      · by_cases hu : u = t
        · subst hu
          rw [Function.update_self] at hdir
          obtain rfl := Option.some.inj hdir
          intro hmade
          obtain ⟨_, _, _, _, _, _, _, _, _, _, dir', _, hdir', _, hfile⟩ := (hI.entitled s hmem).qualified
          rw [hmade] at hdir'
          obtain rfl := Option.some.inj hdir'
          rw [hnone] at hfile
          cases hfile
        · rw [Function.update_of_ne hu] at hdir hs
          exact hI.pending u dir hdir hs s hmem
    · refine ⟨hI.move hG (fun dir hdir _ => hkeep d hnone heq dir hdir) (fun dir hdir => ?_) (fun dir hdir => ?_)
        (fun dir data hdir _ => ?_) hsent (hI.still_pending hG rfl rfl) hI.once, rfl⟩
      all_goals exact absurd (hm.created.symm.trans hdir) (by simp)
  · rw [← hguards] at heq
    exact ⟨hI.quiet hG heq rfl rfl (Or.inl rfl), rfl⟩

/-- A write to the file that the run has made. -/
theorem keeps_put {fd : List String} (hcreated : m.created = some fd) (hread : m.readBack = none) (hsent : m.sent = false)
    (content : Bytes) (all : Bool) : KeepsOneShot (γ := γ) ns t (host (.put fd content all)).run (fun _ m' => m' = m) m := by
  refine keeps_maintenanceOp fun mem h G c r mem' hI hG hs => ⟨?_, rfl⟩
  simp only [maintenanceAct, Option.some.injEq, Prod.mk.injEq] at hs
  obtain ⟨-, rfl⟩ := hs
  rw [Attempts.note, hI.current t, hG]
  have hkeep : ∀ dir, mem.guards dir ≠ none → m.created ≠ some dir →
      (hostAct ns (.put fd content all) c mem.guards).2 dir = mem.guards dir := by
    intro dir _ hdir
    have hne : dir ≠ fd := fun h => hdir (h ▸ hcreated)
    simp only [hostAct, putGuard]
    rw [Function.update_of_ne hne]
  refine hI.move hG hkeep (fun dir hdir => ?_) (fun dir hdir => Or.inl hdir) (fun dir data _ hdata => ?_)
    (hI.still_entitled hG hsent hkeep) (hI.still_pending hG rfl rfl) hI.once
  · have hmade := hI.made t dir (by rw [hG]; exact hdir)
    obtain rfl := Option.some.inj (hcreated.symm.trans hdir)
    simp only [hostAct, putGuard]
    rw [Function.update_self]
    simpa using hmade
  · exact absurd (hread.symm.trans hdata) (by simp)

/-- What the run reads back is what its file holds. -/
theorem keeps_readBytes {fd : List String} {directory : String} (hcreated : m.created = some fd)
    (hdir : ns.resolve directory = some fd) : KeepsOneShot (γ := γ) ns t (host (.readBytes directory)).run
      (fun r m' => match r with
        | .ok data => m' = { m with readBack := some data }
        | .error _ => m' = m) m := by
  refine keeps_maintenanceOp fun mem h G c r mem' hI hG hs => ?_
  simp only [maintenanceAct, Option.some.injEq, Prod.mk.injEq] at hs
  obtain ⟨hr, rfl⟩ := hs
  cases r with
  | error e => exact ⟨hI.note_quiet hG rfl rfl rfl rfl (Or.inl rfl), rfl⟩
  | ok data =>
    refine ⟨hI.note_quiet hG rfl rfl rfl rfl (Or.inr fun dir data' hmade hdata => ?_), rfl⟩
    obtain rfl := Option.some.inj (hcreated.symm.trans hmade)
    obtain rfl := Option.some.inj hdata
    simp only [hostAct] at hr
    cases hc : c.host (.readBytes directory) with
    | error e =>
      rw [hc] at hr
      cases hr
    | ok x =>
      rw [hc] at hr
      simp only [Except.bind, hdir, Option.bind_some] at hr
      cases hfile : mem.guards fd with
      | none =>
        rw [hfile] at hr
        cases hr
      | some content =>
        rw [hfile] at hr
        cases hr
        rfl

end GuardFile

section Sequencing

variable [DecidableEq γ] {α β : Type} {ns : Namespace} {t : ι} {m : Attempt}

/-- Nothing is claimed of a program that raises: the release lies behind its return. -/
def OnOk (P : α → Attempt → Prop) (r : Except MaintenanceExc α) (m : Attempt) : Prop := ∀ a, r = .ok a → P a m

theorem onOk_error {P : α → Attempt → Prop} {e : MaintenanceExc} : OnOk P (.error e) m := by
  intro a h
  cases h

theorem onOk_ok {P : α → Attempt → Prop} {a : α} (h : P a m) : OnOk P (.ok a) m := by
  intro a' ha
  cases ha
  exact h

theorem keeps_seq {p : MaintenanceM γ α} {f : α → MaintenanceM γ β} {P : α → Attempt → Prop} {P' : β → Attempt → Prop}
    (hp : KeepsOneShot ns t p.run (OnOk P) m) (hf : ∀ a m', P a m' → KeepsOneShot ns t (f a).run (OnOk P') m') :
    KeepsOneShot ns t (p >>= f).run (OnOk P') m :=
  keeps_raises hp (fun a m' h => hf a m' (h a rfl)) fun _ _ _ => onOk_error

theorem keeps_return {P : α → Attempt → Prop} {a : α} (h : P a m) :
    KeepsOneShot ns t (pure a : MaintenanceM γ α).run (OnOk P) m :=
  onOk_ok h

theorem keeps_blocked {P : α → Attempt → Prop} (reason : MaintenanceReason) :
    KeepsOneShot ns t (blocked reason : MaintenanceM γ α).run (OnOk P) m :=
  onOk_error

theorem keeps_handling {p : MaintenanceM γ α} {P : α → Attempt → Prop} (handler : MaintenanceExc → MaintenanceExc)
    (hp : KeepsOneShot ns t p.run (OnOk P) m) : KeepsOneShot ns t (handling handler p).run (OnOk P) m := by
  refine keeps_then hp fun r m' h => ?_
  cases r with
  | error e => exact onOk_error
  | ok a => exact h

theorem keeps_noted {o : HostOp} (ho : o.isPlain = true) : KeepsOneShot ns t (host o : MaintenanceM γ o.Val).run
    (OnOk fun a m' => m' = m.after (γ := γ) (.host o) (.ok a)) m := by
  refine keeps_mono (keeps_plainOp (γ := γ) (o := .host o) ho) fun r m' h => ?_
  subst h
  intro a hr
  rw [hr]

end Sequencing

section Silence

variable {α β : Type} {ns : Namespace}

/-- A program that the record takes no note of. -/
abbrev Silent (p : MaintenanceM γ α) : Prop := Device.Only (fun o => o.isSilent = true) p.run

theorem silent_host {o : HostOp} (ho : (MaintenanceOp.host (γ := γ) o).isSilent = true) :
    Silent (host o : MaintenanceM γ o.Val) :=
  .call _ _ ho fun _ => .ret _

theorem silent_return (a : α) : Silent (pure a : MaintenanceM γ α) := .ret _

theorem silent_blocked (reason : MaintenanceReason) : Silent (blocked reason : MaintenanceM γ α) := .ret _

theorem Silent.seq {p : MaintenanceM γ α} {f : α → MaintenanceM γ β} (hp : Silent p) (hf : ∀ a, Silent (f a)) :
    Silent (p >>= f) :=
  hp.bindExcept hf

theorem Silent.handling {p : MaintenanceM γ α} (handler : MaintenanceExc → MaintenanceExc) (hp : Silent p) :
    Silent (handling handler p) :=
  hp.bind fun _ => .ret _

theorem silent_gateBlock (g : γ) (o : UsbSessionIoGate.Op) : Silent (gateBlock g o) :=
  .call _ _ rfl fun _ => .ret _

theorem silent_safeDirectory (path : String) : Silent (γ := γ) (safeDirectory path) := by
  refine ((silent_host rfl).handling _).seq fun info => ?_
  split
  · exact silent_blocked _
  · exact silent_return _

theorem silent_safeDirectoryChain (path : String) : Silent (γ := γ) (safeDirectoryChain ns path) := by
  unfold safeDirectoryChain
  induction ns.ancestors path with
  | nil => exact silent_return _
  | cons path paths ih => exact (silent_safeDirectory path).seq fun _ => ih

theorem silent_regularGuard (directory : String) : Silent (γ := γ) (regularGuard ns directory) := by
  refine (silent_safeDirectoryChain directory).seq fun _ => ((silent_host rfl).handling _).seq fun info => ?_
  split
  · exact silent_blocked _
  · exact silent_return _

theorem silent_requireUniqueUsbTarget (target : EjectTarget) : Silent (γ := γ) (requireUniqueUsbTarget target) := by
  refine (silent_host rfl).seq fun inventory => ?_
  split
  · exact silent_blocked _
  · split
    · split
      · exact silent_blocked _
      · exact silent_return _
    · exact silent_blocked _
  · exact silent_blocked _
  · exact silent_host rfl

theorem silent_pollVolume (args : MaintenanceArgs γ) (target : EjectTarget) (deadline : ℚ) (fuel : ℕ) :
    Silent (pollVolume args target deadline fuel) := by
  induction fuel with
  | zero => exact .call _ _ rfl (by rintro ⟨⟩)
  | succ fuel ih =>
    refine (silent_host rfl).seq fun disappeared => ?_
    split
    · exact (silent_gateBlock _ _).seq fun _ => silent_return _
    · refine (silent_host rfl).seq fun now => ?_
      split
      · exact silent_blocked _
      · exact (silent_host rfl).seq fun now => (silent_host rfl).seq fun _ => ih

/-- Sealing uses its gate alone. -/
def ReleaseOp.onlyGate : ReleaseOp → Bool
  | .port _ => false
  | _ => true

theorem only_sealWait (deadline : ℚ) (fuel : ℕ) :
    Device.Only (fun o => ReleaseOp.onlyGate o = true) (sealWait {} fuel deadline).run := by
  induction fuel generalizing deadline with
  | zero => exact .call _ _ rfl (by rintro ⟨⟩)
  | succ fuel ih =>
    refine Device.Only.bindExcept (.call _ _ rfl fun _ => .ret _) fun r => ?_
    cases r with
    | none => exact .ret _
    | some deadline => exact ih deadline

theorem silent_gateSeal (g : γ) (timeoutS : ℚ) (fuel : ℕ) : Silent (gateSeal g timeoutS fuel) := by
  have hseal : Device.Only (fun o => ReleaseOp.onlyGate o = true) (UsbSessionIoGate.seal {} timeoutS fuel).run := by
    unfold UsbSessionIoGate.seal
    split
    · exact .ret _
    · refine Device.Only.bindExcept (.call _ _ rfl fun _ => .ret _) fun r => ?_
      cases r with
      | none => exact .ret _
      | some deadline => exact only_sealWait deadline fuel
  refine (hseal.lift fun o ho => ?_).bind fun _ => .ret _
  cases o with
  | port o => cases ho
  | gate | halt => rfl

end Silence

section Walk

variable [DecidableEq γ] {α : Type} {ns : Namespace} {t : ι} {m : Attempt}

theorem Silent.keeps {p : MaintenanceM γ α} (hp : Silent p) : KeepsOneShot ns t p.run (OnOk fun _ m' => m' = m) m :=
  keeps_mono (keeps_silent hp) fun _ _ h _ _ => h

theorem keeps_ordinaryGate {g : γ} {body : MaintenanceM γ α} {P : α → Attempt → Prop}
    (hbody : KeepsOneShot ns t body.run (OnOk P) m) : KeepsOneShot ns t (gateOrdinary g body).run (OnOk P) m := by
  refine keeps_seq (silent_gateBlock g .admission).keeps fun _ m' h => ?_
  subst h
  refine keeps_then hbody fun r m' h => ?_
  refine keeps_then (p := .op (MaintenanceOp.gate g .leave)) (keeps_silent (.call _ _ rfl fun _ => .ret _)) fun _ m'' h' => ?_
  subst h'
  exact h

/-- The directory that a path resolves to, while names keep their meaning. -/
theorem keeps_resolve (path : String) : KeepsOneShot (γ := γ) ns t (host (.resolve path)).run
    (OnOk fun dir m' => m' = m ∧ ns.resolve path = some dir) m := by
  refine keeps_maintenanceOp fun mem h G c r mem' hI hG hs => ?_
  simp only [maintenanceAct, Option.some.injEq, Prod.mk.injEq] at hs
  obtain ⟨hr, rfl⟩ := hs
  refine ⟨hI.note_quiet hG rfl rfl rfl rfl (Or.inl rfl), fun dir hdir => ⟨rfl, ?_⟩⟩
  subst hdir
  simp only [hostAct] at hr
  cases hc : c.host (.resolve path) with
  | error e =>
    rw [hc] at hr
    cases hr
  | ok x =>
    rw [hc] at hr
    cases hres : ns.resolve path with
    | none =>
      simp [Except.bind, hres] at hr
    | some d =>
      simp only [Except.bind, hres, Option.elim_some, Except.ok.injEq] at hr
      rw [hr]

/-- The guard's directory is the one that the permit approves. -/
theorem keeps_authorizeGuard (directory : String) (permit : GatePermit) :
    KeepsOneShot (γ := γ) ns t (authorizeGuard ns directory permit).run
      (OnOk fun _ m' => m' = m ∧ ns.resolve permit.authorizedGuardDirectory = ns.resolve directory) m := by
  refine keeps_seq (P := fun dirs m' => m' = m ∧ ns.resolve permit.authorizedGuardDirectory = some dirs.1 ∧
    ns.resolve directory = some dirs.2) (keeps_handling _ ?_) fun dirs m' h => ?_
  · refine keeps_seq (silent_safeDirectoryChain _).keeps fun _ m' h => ?_
    subst h
    refine keeps_seq (silent_safeDirectoryChain _).keeps fun _ m' h => ?_
    subst h
    refine keeps_seq (keeps_resolve _) fun approved m' h => ?_
    obtain ⟨rfl, happroved⟩ := h
    refine keeps_seq (keeps_resolve _) fun actual m' h => ?_
    obtain ⟨rfl, hactual⟩ := h
    exact keeps_return ⟨rfl, happroved, hactual⟩
  · obtain ⟨rfl, happroved, hactual⟩ := h
    split
    · exact keeps_blocked _
    case isFalse heq =>
      rw [ne_eq, not_not] at heq
      exact keeps_return ⟨rfl, by rw [happroved, hactual, heq]⟩

theorem keeps_writeGuard {fd : List String} (hcreated : m.created = some fd) (hread : m.readBack = none)
    (hsent : m.sent = false) (content : Bytes) :
    KeepsOneShot (γ := γ) ns t (writeGuard fd content).run (OnOk fun _ m' => m' = m) m := by
  have hput : ∀ all, KeepsOneShot (γ := γ) ns t (host (.put fd content all)).run (fun _ m' => m' = m) m :=
    fun all => keeps_put hcreated hread hsent content all
  have hwrite : KeepsOneShot (γ := γ) ns t (do
      host (.put fd content false)
      host (.put fd content true)
      host (.fsync fd) : MaintenanceM γ Unit).run (fun _ m' => m' = m) m := by
    refine keeps_raises (hput false) (fun _ m' h => ?_) fun _ _ h => h
    subst h
    refine keeps_raises (hput true) (fun _ m' h => ?_) fun _ _ h => h
    subst h
    exact keeps_silent (silent_host rfl)
  refine keeps_then hwrite fun r m' h => ?_
  subst h
  refine keeps_then (hput r.isOk) fun left m'' h => ?_
  subst h
  exact fun _ _ => rfl

theorem keeps_readPinned {fd : List String} {directory : String} (hcreated : m.created = some fd)
    (hdir : ns.resolve directory = some fd) (digest : Bytes) :
    KeepsOneShot (γ := γ) ns t (readPinned ns directory digest).run (OnOk fun raw m' => m' = { m with readBack := some raw }) m := by
  unfold readPinned
  split
  · exact keeps_blocked _
  · refine keeps_seq (silent_regularGuard directory).keeps fun first m' h => ?_
    subst h
    split
    · exact keeps_blocked _
    · refine keeps_seq (P := fun raw m'' => m'' = { m' with readBack := some raw }) (keeps_handling _ ?_) fun raw m'' h => ?_
      · refine keeps_mono (keeps_readBytes hcreated hdir) fun r m' h => ?_
        cases r with
        | error e => exact onOk_error
        | ok data => exact onOk_ok h
      · refine keeps_seq (silent_regularGuard directory).keeps fun last m3 h3 => ?_
        subst h3
        split
        · exact keeps_blocked _
        · exact keeps_return h

/-- A guard that has been recorded is made by the run and read back as it was written. -/
theorem keeps_recordGuard (hm : m.Clean) (directory : String) (content : Bytes) :
    KeepsOneShot (γ := γ) ns t (recordGuard ns directory content).run
      (OnOk fun _ m' => ∃ fd, ns.resolve directory = some fd ∧
        m' = { m with created := some fd, readBack := some content }) m := by
  refine keeps_then (keeps_create hm directory) fun r m' h => ?_
  cases r with
  | error e => exact onOk_error
  | ok fd =>
    obtain ⟨rfl, hdir⟩ := h
    refine keeps_then (keeps_silent (silent_host (o := .fdopen fd) rfl)) fun r m' h => ?_
    subst h
    cases r with
    | error e =>
      refine keeps_then (keeps_silent (silent_host (o := .closeFd fd) rfl)) fun left _ _ => ?_
      cases left <;> exact onOk_error
    | ok _ =>
      refine keeps_handling _ (keeps_seq
        (keeps_writeGuard (m := { m with created := some fd }) rfl hm.readBack hm.sent content) fun _ m' h => ?_)
      subst h
      refine keeps_handling _ (keeps_seq (keeps_readPinned rfl hdir (sha256Hex content)) fun raw m' h => ?_)
      subst h
      split
      · exact keeps_blocked _
      case isFalse heq =>
        rw [ne_eq, not_not] at heq
        exact keeps_return ⟨fd, hdir, by rw [heq]⟩

/-- The permit is for what the run has qualified, under its attempt id. -/
structure Qualified.Fits (q : Qualified) : Prop where
  permit : permitFits q.permit q.final q.target = true
  attemptId : q.permit.attemptId = some q.attemptId

/-- What the record holds once a run has qualified. -/
def Qualified.record (q : Qualified) : Attempt :=
  { preflights := [q.final, q.final], target := some q.target, permit := some q.permit }

theorem keeps_qualifyAttempt (final : Preflight) (target : EjectTarget) :
    KeepsOneShot (γ := γ) ns t (qualifyAttempt final target).run (OnOk fun q m' => m' = q.record ∧ q.Fits)
      { preflights := [final, final], target := some target } := by
  refine keeps_seq (keeps_noted rfl) fun permit m' h => ?_
  subst h
  cases permit with
  | none => exact keeps_blocked _
  | some permit =>
    dsimp only
    split
    · exact keeps_blocked _
    case isFalse hfits =>
      cases hid : permit.attemptId with
      | none => exact keeps_blocked _
      | some attemptId =>
        refine keeps_seq (silent_host rfl).keeps fun canonical m' h => ?_
        subst h
        split
        · exact keeps_blocked _
        · exact keeps_return ⟨rfl, by simpa using hfits, hid⟩

theorem keeps_qualification (args : MaintenanceArgs γ) :
    KeepsOneShot ns t (qualification args).run (OnOk fun q m' => m' = q.record ∧ q.Fits) {} := by
  refine keeps_seq (keeps_noted rfl) fun initial m' h => ?_
  subst h
  refine keeps_seq (keeps_noted rfl) fun target m' h => ?_
  subst h
  refine keeps_seq (silent_host rfl).keeps fun _ m' h => ?_
  subst h
  refine keeps_seq (silent_requireUniqueUsbTarget target).keeps fun _ m' h => ?_
  subst h
  refine keeps_seq (silent_host rfl).keeps fun available m' h => ?_
  subst h
  split
  · exact keeps_blocked _
  · refine keeps_seq (keeps_noted rfl) fun final m' h => ?_
    subst h
    split
    · exact keeps_blocked _
    case isFalse heq =>
      rw [ne_eq, not_not] at heq
      subst heq
      refine keeps_seq (silent_host rfl).keeps fun _ m' h => ?_
      subst h
      refine keeps_seq (silent_requireUniqueUsbTarget target).keeps fun _ m' h => ?_
      subst h
      split
      · exact keeps_blocked _
      · exact keeps_qualifyAttempt final target

/-- The one call that sends, behind the guard and both qualifications. -/
theorem keeps_releaseStorageOnce {q : Qualified} (hq : q.Fits) {readiness : ControlledPocReadiness}
    (hready : readinessFits readiness q = true) {dir : List String}
    (hdir : ns.resolve q.permit.authorizedGuardDirectory = some dir) (cdcPort : String) :
    KeepsOneShot (γ := γ) ns t (host (.port (.releaseStorage cdcPort q.attemptId q.target))).run (fun _ _ => True)
      { q.record with
        readiness := some readiness
        created := some dir
        readBack := some (guardContent q.permit q.attemptId) } := by
  refine keeps_maintenanceOp fun mem h G c r mem' hI hG hs => ⟨?_, trivial⟩
  simp only [maintenanceAct, Option.some.injEq, Prod.mk.injEq] at hs
  obtain ⟨-, rfl⟩ := hs
  have hfile := hI.intact t dir (guardContent q.permit q.attemptId) (by rw [hG]) (by rw [hG])
  have hpending := hI.pending t dir (by rw [hG]) (by rw [hG]; rfl)
  rw [Attempts.note, hI.current t, hG]
  have hsend : h.send t (.host (.port (.releaseStorage cdcPort q.attemptId q.target)) : MaintenanceOp γ) =
      h.sent ++ [⟨h.current t, q.attemptId, q.target⟩] := rfl
  rw [hsend, hI.current t, hG]
  refine hI.move hG (fun _ _ _ => rfl) (fun d hd => ?_) (fun d hd => Or.inl hd) (fun d data hd hdata => ?_) (fun s hs => ?_)
    (fun u d hd hu s hs => ?_) ?_
  · exact hI.made t d (by rw [hG]; exact hd)
  · exact hI.intact t d data (by rw [hG]; exact hd) (by rw [hG]; exact hdata)
  · rcases List.mem_append.mp hs with hs | hs
    · exact hI.entitled s hs
    · obtain rfl := List.mem_singleton.mp hs
      exact ⟨q.final, q.permit, readiness, rfl, rfl, rfl, rfl, hq.permit, hq.attemptId, hready, dir, hdir, rfl, rfl, hfile⟩
  · by_cases hut : u = t
    · subst hut
      rw [Function.update_self] at hu
      cases hu
    · rw [Function.update_of_ne hut] at hd hu
      rcases List.mem_append.mp hs with hs | hs
      · exact hI.pending u d hd hu s hs
      · obtain rfl := List.mem_singleton.mp hs
        intro heq
        obtain rfl := Option.some.inj heq
        exact hut (hI.owner u t dir hd (by rw [hG]))
  · rw [List.map_append, List.nodup_append]
    refine ⟨hI.once, by simp, ?_⟩
    intro d hd d' hd'
    obtain ⟨s, hs, rfl⟩ := List.mem_map.mp hd
    obtain rfl := List.mem_singleton.mp hd'
    exact hpending s hs

theorem keeps_releaseOnce (args : MaintenanceArgs γ) {q : Qualified} (hq : q.Fits) (fuel : ℕ) :
    KeepsOneShot ns t (releaseOnce ns args q fuel).run (OnOk fun _ _ => True) q.record := by
  refine keeps_seq (silent_gateBlock _ _).keeps fun _ m' h => ?_
  subst h
  split
  · exact keeps_blocked _
  · refine keeps_seq (keeps_noted rfl) fun readiness m' h => ?_
    subst h
    cases readiness with
    | none => exact keeps_blocked _
    | some readiness =>
      dsimp only
      split
      · exact keeps_blocked _
      case isFalse hready =>
        have hclean : (q.record.after (.host (.qualifyPoc q.permit q.final q.target) : MaintenanceOp γ)
            (.ok (some readiness))).Clean := ⟨rfl, rfl, rfl⟩
        refine keeps_seq (P := fun _ m' => ∃ dir, ns.resolve q.permit.authorizedGuardDirectory = some dir ∧
          m' = { q.record with
            readiness := some readiness
            created := some dir
            readBack := some (guardContent q.permit q.attemptId) }) ?_ fun _ m' h => ?_
        · refine keeps_seq (keeps_authorizeGuard args.guardDirectory q.permit) fun _ m' h => ?_
          obtain ⟨rfl, hauth⟩ := h
          refine keeps_mono (keeps_recordGuard hclean args.guardDirectory _) fun r m' h a ha => ?_
          obtain ⟨dir, hdir, rfl⟩ := h a ha
          exact ⟨dir, hauth.trans hdir, rfl⟩
        · obtain ⟨dir, hdir, rfl⟩ := h
          refine keeps_seq (P := fun _ _ => True) (keeps_mono
            (keeps_releaseStorageOnce hq (by simpa using hready) hdir args.cdcPort) fun _ _ _ _ _ => trivial) fun _ m' _ => ?_
          refine keeps_seq (P := fun _ _ => True) (keeps_mono (silent_gateBlock _ _).keeps fun _ _ _ _ _ => trivial) fun _ m' _ => ?_
          refine keeps_seq (P := fun _ _ => True) (keeps_mono (silent_host rfl).keeps fun _ _ _ _ _ => trivial) fun now m' _ => ?_
          exact keeps_mono (silent_pollVolume args q.target _ fuel).keeps fun _ _ _ _ _ => trivial

omit [DecidableEq γ] in
theorem silent_guardOffDevice (args : MaintenanceArgs γ) : Silent (guardOffDevice ns args) := by
  refine (silent_safeDirectoryChain _).seq fun _ => (silent_safeDirectoryChain _).seq fun _ => ?_
  refine (silent_host rfl).seq fun root => (silent_host rfl).seq fun guardParent => ?_
  split
  · exact silent_blocked _
  · exact silent_return _

/-- Whatever the body leaves, the exits take no part in it. -/
theorem keeps_controlGate {g : γ} {body : MaintenanceM γ α}
    (hbody : KeepsOneShot ns t body.run (fun _ _ => True) m) : KeepsOneShot ns t (gateControl g body).run (fun _ _ => True) m := by
  refine keeps_raises (silent_gateBlock g .control).keeps (fun _ m' h => ?_) fun _ _ _ => trivial
  obtain rfl := h _ rfl
  refine keeps_then hbody fun r m' _ => ?_
  refine keeps_then (p := .op (MaintenanceOp.gate g .endControl)) (keeps_silent (.call _ _ rfl fun _ => .ret _)) fun _ m'' _ => ?_
  trivial

theorem keeps_quiescing {target : EjectTarget} {body : MaintenanceM γ α}
    (hbody : KeepsOneShot ns t body.run (fun _ _ => True) m) : KeepsOneShot ns t (quiescing target body).run (fun _ _ => True) m := by
  refine keeps_raises (silent_host rfl).keeps (fun _ m' h => ?_) fun _ _ _ => trivial
  obtain rfl := h _ rfl
  refine keeps_raises (silent_host rfl).keeps (fun _ m' h => ?_) fun _ _ _ => trivial
  obtain rfl := h _ rfl
  refine keeps_then hbody fun r m' _ => ?_
  cases r with
  | ok a => exact keeps_then (keeps_silent (silent_host rfl)) fun _ _ _ => trivial
  | error e => exact keeps_then (keeps_silent (silent_host rfl)) fun _ _ _ => trivial

theorem keeps_maintenanceStages (args : MaintenanceArgs γ) (fuel : ℕ) :
    KeepsOneShot ns t (maintenanceStages ns args fuel).run (fun _ _ => True) {} := by
  refine keeps_raises (silent_guardOffDevice args).keeps (fun _ m' h => ?_) fun _ _ _ => trivial
  obtain rfl := h _ rfl
  refine keeps_raises (keeps_ordinaryGate (keeps_qualification args)) (fun q m' h => ?_) fun _ _ _ => trivial
  obtain ⟨rfl, hq⟩ := h _ rfl
  refine keeps_raises (silent_gateSeal args.gate args.timeoutS fuel).keeps (fun _ m' h => ?_) fun _ _ _ => trivial
  obtain rfl := h _ rfl
  exact keeps_controlGate (keeps_quiescing (keeps_mono (keeps_releaseOnce args hq fuel) fun _ _ _ => trivial))

theorem keeps_maintenanceRun (args : MaintenanceArgs γ) (fuel : ℕ) :
    KeepsOneShot ns t (MaintenanceReleaseCoordinator.run ns args fuel).run (fun _ _ => True) {} := by
  refine keeps_then (keeps_maintenanceStages args fuel) fun r m' _ => ?_
  split <;> trivial

end Walk

section Runs

variable {ns : Namespace} {mem : HostMem γ} {h : Attempts ι} {G : ι → Attempt} {t : ι}

/-- A run that begins or ends leaves its record behind. What it has sent stays sent. -/
theorem OneShotInv.clear (hI : OneShotInv ns mem h G) :
    OneShotInv ns mem ⟨Function.update h.current t {}, h.sent⟩ (Function.update G t {}) := by
  refine hI.move rfl (fun _ _ _ => rfl) (by rintro _ ⟨⟩) (by rintro _ ⟨⟩) (by rintro _ _ ⟨⟩) hI.entitled (fun u dir hdir hs => ?_)
    hI.once
  by_cases hu : u = t
  · subst hu
    rw [Function.update_self] at hdir
    cases hdir
  · rw [Function.update_of_ne hu] at hdir hs
    exact hI.pending u dir hdir hs

variable [DecidableEq γ]

theorem keepsCalls_maintenance : KeepsCalls (maintenanceCode ι γ ns) Attempts.note (fun mem h G => OneShotInv ns mem h G)
    (fun _ _ _ _ _ => True) (fun _ => True) (fun _ => {}) := by
  intro t args l mem h G hI _ hG _
  refine ⟨{}, hI.clear, fun fuel => keeps_mono (keeps_maintenanceRun args fuel) fun r m' _ mem h G hI _ => ?_⟩
  exact hI.clear

abbrev MaintenancePool (ι γ : Type) [DecidableEq γ] := Pool ι (MaintenanceOp γ) MaintenanceOp.Ans (HostMem γ) (MaintenanceArgs γ)
  (fun _ => Except MaintenanceExc (Option MaintenanceOutcome)) Unit (Attempts ι)

/-- Threads at rest over a host with any gates and any guard files. -/
def maintenancePool (mem : HostMem γ) : MaintenancePool ι γ := ⟨mem, fun _ => .idle (), .start⟩

theorem reach_oneShotInv {P : MaintenancePool ι γ}
    (hr : Reach (maintenanceCode ι γ ns) Attempts.note (fun _ _ _ _ _ => True) (maintenancePool mem) P) :
    ∃ G, OneShotInv ns P.mem P.seen G := by
  have hinit : OneShotInv ns mem (.start : Attempts ι) fun _ => {} := by
    refine ⟨fun _ => rfl, ?_, ?_, ?_, ?_, ?_, List.nodup_nil⟩
    · rintro _ _ ⟨⟩
    · rintro _ _ _ ⟨⟩
    · rintro _ _ _ ⟨⟩
    · rintro _ ⟨⟩
    · rintro _ _ ⟨⟩
  obtain ⟨G, hI, _⟩ := good_reach (fun _ => trivial) keepsCalls_maintenance (good_idle (fun _ => trivial) hinit) hr
  exact ⟨G, hI⟩

/-- The directory in which a run with this permit must make its guard file. -/
def Sent.approved (ns : Namespace) (s : Sent) : Option (List String) :=
  s.attempt.permit.bind fun permit => ns.resolve permit.authorizedGuardDirectory

theorem Sent.Entitled.approved_eq {guards : List String → Option Bytes} {s : Sent} (hs : s.Entitled ns guards) :
    s.approved ns = s.attempt.created := by
  obtain ⟨_, permit, _, _, hpermit, _, _, _, _, _, dir, hdir, hcreated, _, _⟩ := hs.qualified
  rw [Sent.approved, hpermit, Option.bind_some, hdir, hcreated]

/-- In every run of any coordinators in any processes, from any gates and any guard files, however the host and the port
answer, wherever a process stops for good: of the calls of `release_storage` at most one has a permit that approves a given
directory, and each comes from a run that has made the guard file there, read it back as it wrote it and holds a permit and
a readiness for its two equal preflights. -/
theorem maintenanceRelease_once {P : MaintenancePool ι γ}
    (hr : Reach (maintenanceCode ι γ ns) Attempts.note (fun _ _ _ _ _ => True) (maintenancePool mem) P) (dir : List String) :
    (P.seen.sent.filter fun s => s.approved ns = some dir).length ≤ 1 ∧ ∀ s ∈ P.seen.sent, s.Entitled ns P.mem.guards := by
  obtain ⟨G, hI⟩ := reach_oneShotInv hr
  refine ⟨?_, hI.entitled⟩
  have hsame : ∀ s ∈ P.seen.sent, (s.approved ns = some dir) = (s.attempt.created = some dir) := by
    intro s hs
    rw [(hI.entitled s hs).approved_eq]
  have hfilter : (P.seen.sent.filter fun s => s.approved ns = some dir) =
      P.seen.sent.filter ((fun d => d == some dir) ∘ fun s => s.attempt.created) := by
    refine List.filter_congr fun s hs => ?_
    simp only [hsame s hs, Function.comp, beq_eq_decide]
  have hcount : ((P.seen.sent.map (·.attempt.created)).filter fun d => d == some dir).length ≤ 1 := by
    rw [← List.countP_eq_length_filter]
    exact List.nodup_iff_count_le_one.mp hI.once (some dir)
  rw [List.filter_map, List.length_map] at hcount
  rw [hfilter]
  exact hcount

section TwoProcesses

def releaseNames : Namespace where
  resolve path := some [path]
  ancestors path := [path]

def releaseTarget : EjectTarget := ⟨"device", "E:", "guid", 1, "disk", "eject", "usb"⟩

def zeroPin : String := String.ofList (List.replicate 64 '0')

def releasePermit : GatePermit := ⟨119, zeroPin, releaseTarget, some "attempt", true, "guards", zeroPin⟩

/-- Every call goes well. -/
def hostGood : HostAnswers where
  host
    | .port (.resolveTarget _ _) => .ok releaseTarget
    | .port (.volumeAvailable _) | .port (.volumeDisappeared _) => .ok true
    | .port (.exit _) => .ok false
    | .port .clock => .ok 0
    | .port (.revalidateTarget _ _) | .port (.quiesce _) | .port .enter | .port (.releaseStorage ..) | .port (.sleep _) => .ok ()
    | .port _ => .error .osError
    | .usbInventory => .ok (.disks [⟨"usb", "usb", 1, "disk"⟩])
    | .freshPreflight => .ok ⟨zeroPin, "device", 1, 1, zeroPin⟩
    | .qualify _ _ => .ok (some releasePermit)
    | .qualifyPoc _ _ _ =>
      .ok (some ⟨maintenanceScope, releaseTarget, zeroPin, zeroPin, "attempt", true, true, true⟩)
    | .uuid text => .ok text
    | .lstat path => .ok ⟨false, path = "E:" ∨ path = "guards", path ≠ "E:" ∧ path ≠ "guards", 1, 0, 0, 0, 0, 0⟩
    | .resolve path => .ok [path]
    | .create directory => .ok [directory]
    | .readBytes _ => .ok []
    | .assertSingleUsbTarget _ | .fdopen _ | .put .. | .fsync _ | .closeFd _ => .ok ()
  made := true
  written := 0
  start := 0
  now := 0

def releaseArgs (gate : Bool) : MaintenanceArgs Bool := ⟨20, "E:", "COM3", gate, "guards", true⟩

def hostStart : HostMem Bool := ⟨fun _ => .init, fun _ => none⟩

/-- Two runs on gates of their own under one permit; the first has made the guard file when the second comes to it. -/
def releaseEvents : List (Event Bool HostAnswers (MaintenanceArgs Bool)) :=
  .call false (releaseArgs false) 2 :: .call true (releaseArgs true) 2 ::
    List.replicate 30 (.act false hostGood) ++ List.replicate 29 (.act true hostGood) ++ List.replicate 14 (.act false hostGood)

/-- A record that is read back under its own hash: the hash is a valid pin, and the record itself meets it. -/
theorem readPinned_own {γ : Type} (ns : Namespace) (directory : String) (content : Bytes) :
    (readPinned ns directory (sha256Hex content) : MaintenanceM γ Bytes) = do
      let first ← regularGuard ns directory
      if first.size > 1024 * 1024 then blocked .historicalEvidenceTooLarge
      else
        let raw ← handling (.osAs .historicalEvidenceUnreadable) (host (.readBytes directory))
        let last ← regularGuard ns directory
        if (first.size, first.mtimeNs, first.ino) ≠ (last.size, last.mtimeNs, last.ino) ∨
            (raw ≠ content ∧ sha256Hex raw ≠ sha256Hex content) then
          blocked .historicalEvidenceMismatch
        else return raw := by
  have hmismatch : ∀ raw : Bytes, sha256Hex raw ≠ sha256Hex content ↔ raw ≠ content ∧ sha256Hex raw ≠ sha256Hex content :=
    fun raw => ⟨fun h => ⟨fun heq => h (heq ▸ rfl), h⟩, fun h => h.2⟩
  rw [readPinned, sha256Hex_valid]
  simp only [Bool.not_true, Bool.false_eq_true, if_false, ← hmismatch]

theorem releaseEvents_run : (run (maintenanceCode Bool Bool releaseNames) Attempts.note (fun _ _ _ _ _ => True) releaseEvents
    (maintenancePool hostStart)).map (·.seen.sent.map (·.approved releaseNames)) = some [some ["guards"]] := by
  simp only [maintenanceCode, MaintenanceReleaseCoordinator.run, maintenanceStages, releaseOnce, OneShotGuard.consume, recordGuard,
    readBackGuard, readPinned_own]
  decide +kernel

theorem maintenanceRelease_once_approved : ∃ P, run (maintenanceCode Bool Bool releaseNames) Attempts.note
    (fun _ _ _ _ _ => True) releaseEvents (maintenancePool hostStart) = some P ∧ P.seen.sent.length = 1 ∧
      ∀ s ∈ P.seen.sent, s.Entitled releaseNames P.mem.guards := by
  obtain ⟨P, hP, hsent⟩ := Option.map_eq_some_iff.mp releaseEvents_run
  have hlength := congrArg List.length hsent
  rw [List.length_map] at hlength
  exact ⟨P, hP, hlength, (maintenanceRelease_once (reach_run releaseEvents .start hP) ["guards"]).2⟩

end TwoProcesses

end Runs

end M5DayLog
