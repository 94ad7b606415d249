import M5DayLog.Pc.Sync

/-! Runs of the synchronisation into one library, and what they make of the final files of a recording. -/

namespace M5DayLog.PcSync

open Bytes

section Quiet

variable {α β : Type} {s t u : SyncWorld}

/-- A call that changes no final file and no row of a recording. -/
def SyncOp.Quiet : SyncOp → Prop
  | .upsertRecording _ | .setConflict _ | .unlink (.final _) | .link _ | .rename _ => False
  | _ => True

/-- The same final files and rows. -/
structure SyncWorld.Same (s t : SyncWorld) : Prop where
  finals : t.finals = s.finals
  rows : t.rows = s.rows

theorem SyncWorld.Same.refl (s : SyncWorld) : s.Same s := ⟨rfl, rfl⟩

theorem SyncWorld.Same.trans (h : s.Same t) (h' : t.Same u) : s.Same u := ⟨h'.finals.trans h.finals, h'.rows.trans h.rows⟩

theorem SyncOp.Quiet.effect {o : SyncOp} (h : o.Quiet) (s : SyncWorld) : s.Same (s.effect o).2 := by
  cases o with
  | unlink file =>
    cases file with
    | final p => exact h.elim
    | partialOf p =>
      simp only [SyncWorld.effect]
      split <;> exact ⟨rfl, rfl⟩
  | createPartial p =>
    simp only [SyncWorld.effect]
    split <;> exact ⟨rfl, rfl⟩
  | upsertRecording row => exact h.elim
  | setConflict id => exact h.elim
  | link p => exact h.elim
  | rename p => exact h.elim
  | _ => exact ⟨rfl, rfl⟩

/-- Under a fault a call takes its effect or none. -/
theorem act_state (o : SyncOp) (f : Option SyncFault) (s : SyncWorld) :
    (syncHost.act o f s).2 = s ∨ (syncHost.act o f s).2 = (s.effect o).2 := by
  rcases f with _ | e | e | b | _
  · exact Or.inr rfl
  · exact Or.inl rfl
  all_goals exact Or.inr rfl

theorem SyncOp.Quiet.act {o : SyncOp} (h : o.Quiet) (f : Option SyncFault) (s : SyncWorld) : s.Same (syncHost.act o f s).2 := by
  rcases act_state o f s with heq | heq <;> rw [heq]
  · exact .refl s
  · exact h.effect s

theorem SyncOp.Quiet.cut {o : SyncOp} (h : o.Quiet) (n : ℕ) (s : SyncWorld) : s.Same (syncHost.cut o n s) := by
  simp only [syncHost]
  split
  · exact ⟨rfl, rfl⟩
  · split
    · exact .refl s
    · exact h.effect s

/-- A program of quiet calls. -/
abbrev SyncM.Quiet (p : SyncM α) : Prop := Device.Only SyncOp.Quiet p.run

theorem quiet_op {o : SyncOp} (h : o.Quiet) : (sync o).Quiet := .call o _ h fun r => .ret r

theorem quiet_throw (e : SyncExc) : SyncM.Quiet (throw e : SyncM α) := .ret _

theorem quiet_bind {p : SyncM α} {f : α → SyncM β} (hp : p.Quiet) (hf : ∀ a, (f a).Quiet) : (p >>= f).Quiet :=
  Device.Only.bindExcept hp hf

/-- `try` and its handler. -/
theorem quiet_try {p : SyncM α} {g : Except SyncExc α → Prog SyncOp SyncOp.Ans (Except SyncExc β)} (hp : p.Quiet)
    (hg : ∀ r, Device.Only SyncOp.Quiet (g r)) : SyncM.Quiet (ExceptT.mk (p.run >>= g) : SyncM β) := hp.bind hg

theorem quiet_osErrorAs (reason : SyncReason) (skip : Option SyncExc) {body : SyncM Unit} (h : body.Quiet) :
    (osErrorAs reason skip body).Quiet := by
  refine quiet_try h fun r => ?_
  cases r <;> exact .ret _

theorem quiet_fileMatches (final : FinalPath) (size : ℕ) (sha : Bytes) : (fileMatches final size sha).Quiet := by
  refine quiet_try (quiet_op (o := .readFinal final) trivial) fun r => ?_
  cases r <;> exact .ret _

theorem quiet_dropPartial (final : FinalPath) : (dropPartial final).Quiet := by
  refine quiet_bind (quiet_op trivial) fun present => ?_
  cases present
  · exact .ret _
  · exact quiet_op trivial

theorem quiet_copyChunks (final : FinalPath) (source : Bytes) (chunkSize fuel : ℕ) (copied : Bytes) :
    (copyChunks final source chunkSize fuel copied).Quiet := by
  induction fuel generalizing copied with
  | zero => exact quiet_throw _
  | succ fuel ih =>
    refine quiet_bind (quiet_op trivial) fun chunk => ?_
    split
    · exact .ret _
    · exact quiet_bind (quiet_op trivial) fun _ => ih _

theorem quiet_copyVerifiedStream (final : FinalPath) (source : Bytes) (size : ℕ) (sha : Bytes) (chunkSize left : ℕ) :
    (copyVerifiedStream final source size sha chunkSize left).Quiet := by
  refine quiet_bind (quiet_op trivial) fun _ => quiet_bind ?_ fun _ => quiet_bind ?_ fun copied => ?_
  · exact quiet_bind (quiet_osErrorAs _ _ (quiet_op trivial)) fun _ => quiet_osErrorAs _ _ (quiet_op trivial)
  · refine quiet_try ?_ fun r => quiet_try (quiet_op (o := .closePartial final) trivial) fun closed => .ret _
    exact quiet_bind (quiet_copyChunks _ _ _ _ _) fun _ => quiet_bind (quiet_op trivial) fun _ => .ret _
  · split
    · exact quiet_throw _
    · exact .ret _

theorem quiet_copySource (recording : Recording) (source : Bytes) (final : FinalPath) : (copySource recording source final).Quiet :=
  quiet_bind (quiet_op trivial) fun _ => quiet_bind (quiet_op trivial) fun _ => quiet_bind (quiet_op trivial) fun _ =>
    quiet_bind (quiet_copyVerifiedStream _ _ _ _ _ _) fun _ => quiet_op trivial

theorem quiet_rejectDerivedTargets (prepared : List (Recording × Bytes)) : (rejectDerivedTargets prepared).Quiet := by
  induction prepared with
  | nil => exact .ret _
  | cons entry prepared ih =>
    refine quiet_bind ?_ fun _ => quiet_bind (quiet_op trivial) fun _ => ih
    exact .ret _

theorem quiet_resolvedSource (filename : Bytes) : (resolvedSource filename).Quiet := by
  rw [resolvedSource]
  split
  · exact quiet_throw _
  · exact quiet_op trivial

theorem quiet_prepare (seen : List Bytes) (recordings : List Recording) : (prepare seen recordings).Quiet := by
  induction recordings generalizing seen with
  | nil => exact .ret _
  | cons recording recordings ih =>
    rw [prepare]
    split
    · exact quiet_throw _
    · exact quiet_bind (quiet_resolvedSource _) fun _ => quiet_bind (ih _) fun _ => .ret _

end Quiet

section Invariant

/-- Each recording has at most one final file, and a row that is `SYNCED` names it. -/
structure SyncWorld.OneFinal (s : SyncWorld) : Prop where
  unique : ∀ p q, s.finals p ≠ none → s.finals q ≠ none → p.recordingId = q.recordingId → p = q
  synced : ∀ id row, s.rows id = some row → row.syncStatus = .synced →
    row.localPath.recordingId = id ∧ s.finals row.localPath ≠ none

/-- What work on one recording may make of a state. -/
structure Touches (id : Bytes) (s t : SyncWorld) : Prop where
  oneFinal : t.OneFinal
  rows : ∀ i ≠ id, t.rows i = s.rows i
  finals : ∀ q : FinalPath, q.recordingId ≠ id → t.finals q = s.finals q

variable {α β : Type} {id : Bytes} {s t u : SyncWorld}

theorem SyncWorld.OneFinal.same (h : s.OneFinal) (hst : s.Same t) : t.OneFinal :=
  ⟨by rw [hst.finals]; exact h.unique, by rw [hst.finals, hst.rows]; exact h.synced⟩

theorem Touches.same (h : Touches id s t) (htu : t.Same u) : Touches id s u :=
  ⟨h.oneFinal.same htu, by rw [htu.rows]; exact h.rows, by rw [htu.finals]; exact h.finals⟩

theorem SyncWorld.OneFinal.touches (h : s.OneFinal) : Touches id s s := ⟨h, fun _ _ => rfl, fun _ _ => rfl⟩

/-- A new row of the recording: where it is `SYNCED`, its file is there. -/
theorem Touches.setRow (h : Touches id s t) {row : Option Row} (hrow : ∀ r ∈ row, r.syncStatus = .synced →
    r.localPath.recordingId = id ∧ t.finals r.localPath ≠ none) : Touches id s (t.setRow id row) := by
  refine ⟨⟨h.oneFinal.unique, fun i r hr => ?_⟩, fun i hi => ?_, h.finals⟩
  · rcases eq_or_ne i id with rfl | hi
    · exact hrow r (by simpa [SyncWorld.setRow] using hr)
    · exact h.oneFinal.synced i r (by simpa [SyncWorld.setRow, hi] using hr)
  · simpa [SyncWorld.setRow, hi] using h.rows i hi

theorem Touches.setFinal (h : Touches id s t) {p : FinalPath} (hp : p.recordingId = id) {b : Option Bytes}
    (hunique : ∀ c ∈ b, ∀ q, t.finals q ≠ none → q.recordingId = id → q = p)
    (hsynced : b = none → ∀ i row, t.rows i = some row → row.syncStatus = .synced → row.localPath ≠ p) :
    Touches id s (t.setFinal p b) := by
  have hother : ∀ {q}, q ≠ p → (t.setFinal p b).finals q = t.finals q := fun hq => by simp [SyncWorld.setFinal, hq]
  have hself : (t.setFinal p b).finals p = b := by simp [SyncWorld.setFinal]
  refine ⟨⟨fun q r hq hr hqr => ?_, fun i row hrow hstatus => ?_⟩, h.rows, fun q hq => ?_⟩
  · have hold : ∀ {q : FinalPath}, (t.setFinal p b).finals q ≠ none → q.recordingId = id → (t.setFinal p b).finals p ≠ none → q = p :=
      fun {q} hq hid hpb => by
        by_contra hne
        rw [hself] at hpb
        obtain ⟨c, hc⟩ := Option.ne_none_iff_exists'.mp hpb
        exact hne (hunique c hc q (by rwa [hother hne] at hq) hid)
    rcases eq_or_ne q p with rfl | hqp
    · exact (hold hr (hqr ▸ hp) hq).symm
    · rcases eq_or_ne r p with rfl | hrp
      · exact hold hq (hqr.trans hp) hr
      · rw [hother hqp] at hq
        rw [hother hrp] at hr
        exact h.oneFinal.unique q r hq hr hqr
  · obtain ⟨hid, hfile⟩ := h.oneFinal.synced i row hrow hstatus
    refine ⟨hid, ?_⟩
    rcases eq_or_ne row.localPath p with heq | hne
    · rw [heq, hself]
      exact fun hb => hsynced hb i row hrow hstatus heq
    · rwa [hother hne]
  · rw [hother (q := q) (by rintro rfl; exact hq hp)]
    exact h.finals q hq

end Invariant

section Walk

variable {α β : Type} {I : SyncWorld → Prop} {s : SyncWorld}

/-- A program keeps `I` at each of its calls, and ends as `Q` says. -/
def Keeps (I : SyncWorld → Prop) (p : SyncM α) (Q : Except SyncExc α → SyncWorld → Prop) (s : SyncWorld) : Prop :=
  syncHost.wp (fun _ => True) I p.run (fun r t => I t ∧ Q r t) s

theorem keeps_bind {p : SyncM α} {f : α → SyncM β} {Q : Except SyncExc α → SyncWorld → Prop}
    {R : Except SyncExc β → SyncWorld → Prop} (hp : Keeps I p Q s) (hok : ∀ a t, I t → Q (.ok a) t → Keeps I (f a) R t)
    (herr : ∀ e t, Q (.error e) t → R (.error e) t) : Keeps I (p >>= f) R s := by
  refine (Device.wp_bind _ _ _ _).mpr (Device.wp_mono _ hp fun r t h => ?_)
  cases r with
  | ok a => exact hok a t h.1 h.2
  | error e => exact ⟨h.1, herr e t h.2⟩

theorem keeps_try {p : SyncM α} {g : Except SyncExc α → Prog SyncOp SyncOp.Ans (Except SyncExc β)}
    {Q : Except SyncExc α → SyncWorld → Prop} {R : Except SyncExc β → SyncWorld → Prop} (hp : Keeps I p Q s)
    (hg : ∀ r t, I t → Q r t → Keeps I (ExceptT.mk (g r)) R t) : Keeps I (ExceptT.mk (p.run >>= g)) R s :=
  (Device.wp_bind _ _ _ _).mpr (Device.wp_mono _ hp fun r t h => hg r t h.1 h.2)

/-- A call that is no write takes its effect or none. -/
theorem keeps_op {o : SyncOp} {Q : Except SyncExc o.Val → SyncWorld → Prop} (hwrite : ∀ p chunk, o ≠ .writePartial p chunk)
    (hs : I s) (heffect : I (s.effect o).2) (hQ : ∀ f, Q (syncHost.act o f s).1 (syncHost.act o f s).2) : Keeps I (sync o) Q s := by
  refine ⟨fun n => ?_, fun f _ => ⟨?_, hQ f⟩⟩
  · simp only [syncHost]
    split
    exacts [hs, heffect]
  · rcases act_state o f s with heq | heq <;> rw [heq]
    exacts [hs, heffect]

theorem keeps_quiet {p : SyncM α} (hI : ∀ {s t : SyncWorld}, s.Same t → I s → I t) (hp : p.Quiet) (hs : I s) :
    Keeps I p (fun _ t => s.Same t) s := by
  have h := Device.wp_of_only (D := syncHost) (A := fun _ => True) (I := fun t => I t ∧ s.Same t) hp
    (fun o f t ho ht => ⟨hI (ho.act f t) ht.1, ht.2.trans (ho.act f t)⟩)
    (fun o n t ho ht => ⟨hI (ho.cut n t) ht.1, ht.2.trans (ho.cut n t)⟩) ⟨hs, .refl s⟩
  exact Device.wp_crash_mono _ h fun _ ht => ht.1

end Walk

section Recording

variable {id : Bytes} {s t : SyncWorld} {p : FinalPath}

theorem keeps_touches_quiet {α : Type} {q : SyncM α} (hq : q.Quiet) (h : Touches id s t) :
    Keeps (Touches id s) q (fun _ u => t.Same u) t := keeps_quiet (fun hsame h => h.same hsame) hq h

theorem readFinal_ok {f : Option SyncFault} {b : Bytes} (h : (syncHost.act (.readFinal p) f s).1 = .ok b) : s.finals p ≠ none := by
  intro hnone
  rcases f with _ | e | e | c | _ <;> simp [syncHost, SyncWorld.effect, misreadAnswer, missingAnswer, hnone, Except.map] at h

theorem keeps_fileMatches (h : Touches id s t) (size : ℕ) (sha : Bytes) :
    Keeps (Touches id s) (fileMatches p size sha) (fun r u => t.Same u ∧ (r = .ok true → t.finals p ≠ none)) t := by
  have hread : Keeps (Touches id s) (sync (.readFinal p)) (fun r u => t.Same u ∧ ∀ b, r = .ok b → t.finals p ≠ none) t :=
    keeps_op (by rintro _ _ ⟨⟩) h h fun f => ⟨SyncOp.Quiet.act (o := .readFinal p) trivial f t, fun b hb => readFinal_ok hb⟩
  refine keeps_try hread fun r u hu hQ => ?_
  cases r with
  | ok content => exact ⟨hu, hQ.1, fun _ => hQ.2 content rfl⟩
  | error e =>
    dsimp only
    split <;> exact ⟨hu, hQ.1, by rintro ⟨⟩⟩

theorem keeps_writeRecording {deviceId : Bytes} {recording : Recording} {status : SyncStatus} (h : Touches recording.recordingId s t)
    (hp : p.recordingId = recording.recordingId) (hfile : status = .synced → t.finals p ≠ none) :
    Keeps (Touches recording.recordingId s) (writeRecording deviceId recording p status) (fun _ u => u.finals = t.finals) t := by
  refine keeps_op (by rintro _ _ ⟨⟩) h (h.setRow ?_) fun f => ?_
  · rintro _ ⟨⟩ hstatus
    exact ⟨hp, hfile hstatus⟩
  · rcases act_state (.upsertRecording (recordingRow deviceId recording p status)) f t with heq | heq
    · rw [heq]
    · rw [heq]
      rfl

theorem keeps_markConflict {deviceId : Bytes} {recording : Recording} (h : Touches recording.recordingId s t)
    (hp : p.recordingId = recording.recordingId) (existing : Option Row) :
    Keeps (Touches recording.recordingId s) (markConflict deviceId recording p existing) (fun _ _ => True) t := by
  cases existing with
  | none => exact Device.wp_mono _ (keeps_writeRecording h hp (by rintro ⟨⟩)) fun _ _ hw => ⟨hw.1, trivial⟩
  | some row =>
    refine keeps_op (by rintro _ _ ⟨⟩) h (h.setRow fun r hr hstatus => ?_) fun _ => trivial
    obtain ⟨old, -, rfl⟩ := Option.map_eq_some_iff.mp hr
    cases hstatus

theorem keeps_return {α : Type} {I : SyncWorld → Prop} (a : α) (h : I t) : Keeps I (return a) (fun _ _ => True) t := ⟨h, trivial⟩

theorem keeps_reuseFinal {deviceId : Bytes} {recording : Recording} (h : Touches recording.recordingId s t)
    (hp : p.recordingId = recording.recordingId) (existing : Option Row) :
    Keeps (Touches recording.recordingId s) (reuseFinal deviceId recording p existing) (fun _ _ => True) t := by
  refine keeps_bind (keeps_fileMatches h _ _) (fun found u hu hQ => ?_) fun _ _ _ => trivial
  cases found with
  | true =>
    refine keeps_bind (keeps_writeRecording hu hp fun _ => ?_) (fun _ v hv _ => ?_) fun _ _ _ => trivial
    · rw [hQ.1.finals]
      exact hQ.2 rfl
    · exact keeps_bind (keeps_touches_quiet (quiet_dropPartial p) hv) (fun _ w hw _ => keeps_return _ hw) fun _ _ _ => trivial
  | false => exact keeps_bind (keeps_markConflict hu hp existing) (fun _ v hv _ => keeps_return _ hv) fun _ _ _ => trivial

theorem keeps_lostPublication {deviceId : Bytes} {recording : Recording} (h : Touches recording.recordingId s t)
    (hp : p.recordingId = recording.recordingId) (existing : Option Row) :
    Keeps (Touches recording.recordingId s) (lostPublication deviceId recording p existing) (fun _ _ => True) t := by
  refine keeps_bind (keeps_touches_quiet (quiet_op trivial) h) (fun _ u hu _ => ?_) fun _ _ _ => trivial
  refine keeps_bind (keeps_fileMatches hu _ _) (fun found v hv hQ => ?_) fun _ _ _ => trivial
  cases found with
  | true =>
    refine keeps_bind (keeps_touches_quiet (quiet_dropPartial p) hv) (fun _ w hw hsame => ?_) fun _ _ _ => trivial
    refine keeps_bind (keeps_writeRecording hw hp fun _ => ?_) (fun _ x hx _ => keeps_return _ hx) fun _ _ _ => trivial
    rw [hsame.finals, hQ.1.finals]
    exact hQ.2 rfl
  | false =>
    refine keeps_bind (keeps_touches_quiet (quiet_dropPartial p) hv) (fun _ w hw _ => ?_) fun _ _ _ => trivial
    exact keeps_bind (keeps_markConflict hw hp existing) (fun _ x hx _ => keeps_return _ hx) fun _ _ _ => trivial

theorem keeps_verifyPublished {deviceId : Bytes} {recording : Recording} (h : Touches recording.recordingId s t)
    (hp : p.recordingId = recording.recordingId) :
    Keeps (Touches recording.recordingId s) (verifyPublished deviceId recording p) (fun _ _ => True) t := by
  refine keeps_bind (keeps_fileMatches h _ _) (fun found u hu hQ => ?_) fun _ _ _ => trivial
  cases found with
  | true =>
    refine keeps_bind (keeps_writeRecording hu hp fun _ => ?_) (fun _ v hv _ => keeps_return _ hv) fun _ _ _ => trivial
    rw [hQ.1.finals]
    exact hQ.2 rfl
  | false => exact ⟨hu, trivial⟩

/-- A final file comes only where there is none, from a partial that stays or goes. -/
theorem publish_cases (s : SyncWorld) (p : FinalPath) (keep : Bool) :
    (s.publish p keep).2 = s ∧ (s.publish p keep).1 ≠ .ok () ∨ s.finals p = none ∧
      ∃ b, ((s.setFinal p (some b)).Same (s.publish p keep).2) := by
  rw [SyncWorld.publish]
  split
  · exact Or.inl ⟨rfl, by rintro ⟨⟩⟩
  · exact Or.inl ⟨rfl, by rintro ⟨⟩⟩
  case h_3 b _ hfinal => exact Or.inr ⟨hfinal, b, ⟨rfl, rfl⟩⟩

theorem touches_publish (h : Touches id s t) (hp : p.recordingId = id) (hfit : ∀ q, t.finals q ≠ none → q.recordingId = id → q = p)
    (keep : Bool) : Touches id s (t.publish p keep).2 := by
  rcases publish_cases t p keep with ⟨heq, -⟩ | ⟨-, b, hsame⟩
  · rwa [heq]
  · exact (h.setFinal hp (fun _ _ => hfit) (by rintro ⟨⟩)).same hsame

/-- No row that is `SYNCED` names the file. -/
def Unnamed (p : FinalPath) (t : SyncWorld) : Prop := ∀ i row, t.rows i = some row → row.syncStatus = .synced → row.localPath ≠ p

/-- No row can have named a file that was not there. -/
theorem unnamed_publish (h : t.OneFinal) {keep : Bool} (hok : (t.publish p keep).1 = .ok ()) : Unnamed p (t.publish p keep).2 := by
  rcases publish_cases t p keep with ⟨-, herr⟩ | ⟨hnone, b, hsame⟩
  · exact absurd hok herr
  · intro i row hrow hstatus heq
    rw [hsame.rows] at hrow
    exact (h.synced i row hrow hstatus).2 (heq ▸ hnone)

theorem act_link (f : Option SyncFault) : syncHost.act (.link p) f t = t.publish p true ∨ (syncHost.act (.link p) f t).1 ≠ .ok () := by
  rcases f with _ | e | e | b | _
  · exact Or.inl rfl
  · exact Or.inr (by rintro ⟨⟩)
  · exact Or.inr (by rintro ⟨⟩)
  · exact Or.inl rfl
  · exact Or.inl rfl

theorem keeps_unlinkFinal (h : Touches id s t) (hp : p.recordingId = id) (hrows : Unnamed p t) :
    Keeps (Touches id s) (sync (.unlink (.final p))) (fun _ _ => True) t := by
  refine keeps_op (by rintro _ _ ⟨⟩) h ?_ fun _ => trivial
  simp only [SyncWorld.effect]
  split
  · exact h.setFinal hp (by rintro _ ⟨⟩) fun _ => hrows
  · exact h

theorem keeps_publishNoClobber (posix : Bool) (h : Touches id s t) (hp : p.recordingId = id)
    (hfit : ∀ q, t.finals q ≠ none → q.recordingId = id → q = p) :
    Keeps (Touches id s) (publishNoClobber posix p) (fun _ _ => True) t := by
  rw [publishNoClobber]
  cases posix with
  | false => exact keeps_op (by rintro _ _ ⟨⟩) h (touches_publish h hp hfit false) fun _ => trivial
  | true =>
    have hlink : Keeps (Touches id s) (sync (.link p)) (fun r u => r = .ok () → Unnamed p u) t := by
      refine keeps_op (by rintro _ _ ⟨⟩) h (touches_publish h hp hfit true) fun f hok => ?_
      rcases act_link f with heq | herr
      · rw [heq] at hok ⊢
        exact unnamed_publish h.oneFinal hok
      · exact absurd hok herr
    refine keeps_bind hlink (fun _ u hu hrows => ?_) fun _ _ _ => trivial
    refine keeps_try (keeps_touches_quiet (quiet_op (o := .unlink (.partialOf p)) trivial) hu) fun r v hv hsame => ?_
    cases r with
    | ok _ => exact ⟨hv, trivial⟩
    | error e =>
      have hunnamed : Unnamed p v := by
        rw [Unnamed, hsame.rows]
        exact hrows rfl
      exact keeps_try (keeps_unlinkFinal hv hp hunnamed) fun _ w hw _ => ⟨hw, trivial⟩

theorem keeps_publishRecording (posix : Bool) {deviceId : Bytes} {recording : Recording} (h : Touches recording.recordingId s t)
    (hp : p.recordingId = recording.recordingId) (hfit : ∀ q, t.finals q ≠ none → q.recordingId = recording.recordingId → q = p)
    (existing : Option Row) :
    Keeps (Touches recording.recordingId s) (publishRecording posix deviceId recording p existing) (fun _ _ => True) t := by
  refine keeps_try (keeps_publishNoClobber posix h hp hfit) fun r u hu _ => ?_
  split
  · exact keeps_verifyPublished hu hp
  · exact keeps_lostPublication hu hp existing
  · exact ⟨hu, trivial⟩

/-- The library has no final file of the recording but the one that this entry would have, unless the entry is refused as
another recording. -/
def SyncWorld.DateStands (s : SyncWorld) (deviceId : Bytes) (recording : Recording) : Prop :=
  sameIdentity deviceId recording (s.rows recording.recordingId) = true → ∀ p, targetPath recording = .ok p →
    ∀ q, s.finals q ≠ none → q.recordingId = recording.recordingId → q = p

theorem keeps_selectRecording (h : Touches id s t) (i : Bytes) :
    Keeps (Touches id s) (sync (.selectRecording i)) (fun r u => t.Same u ∧ ∀ row, r = .ok row → row = t.rows i) t := by
  refine keeps_op (by rintro _ _ ⟨⟩) h h fun f => ⟨SyncOp.Quiet.act (o := .selectRecording i) trivial f t, fun row hrow => ?_⟩
  rcases f with _ | e | e | b | _ <;> cases hrow <;> rfl

theorem keeps_syncRecording (posix : Bool) {deviceId : Bytes} {recording : Recording} (source : Bytes)
    (h : Touches recording.recordingId s t) (hdate : t.DateStands deviceId recording) :
    Keeps (Touches recording.recordingId s) (syncRecording posix deviceId recording source) (fun _ _ => True) t := by
  have htarget : Keeps (Touches recording.recordingId s) (ExceptT.mk (return targetPath recording))
      (fun r u => t = u ∧ r = targetPath recording) t := ⟨h, rfl, rfl⟩
  refine keeps_bind htarget (fun p _ _ heq => ?_) fun _ _ _ => trivial
  obtain ⟨rfl, hp⟩ := heq
  have hid := targetPath_id hp.symm
  refine keeps_bind (keeps_touches_quiet (quiet_op trivial) h) (fun _ u hu hsame => ?_) fun _ _ _ => trivial
  refine keeps_bind (keeps_selectRecording hu _) (fun existing v hv hrow => ?_) fun _ _ _ => trivial
  obtain rfl := hrow.2 existing rfl
  split
  · exact keeps_bind (keeps_markConflict hv hid _) (fun _ w hw _ => keeps_return _ hw) fun _ _ _ => trivial
  case isFalse hsameId =>
    refine keeps_bind (keeps_touches_quiet (quiet_op trivial) hv) (fun present w hw hsame' => ?_) fun _ _ _ => trivial
    split
    · exact keeps_reuseFinal hw hid _
    · refine keeps_bind (keeps_touches_quiet (quiet_copySource _ _ _) hw) (fun _ x hx hsame'' => ?_) fun _ _ _ => trivial
      refine keeps_publishRecording posix hx hid (fun q hq hqid => ?_) _
      rw [hsame.rows] at hsameId
      rw [hsame''.finals, hsame'.finals, hrow.1.finals, hsame.finals] at hq
      exact hdate (by simpa using hsameId) p hp.symm q hq hqid

end Recording

section Runs

variable {s t : SyncWorld}

theorem SyncWorld.DateStands.same {deviceId : Bytes} {recording : Recording} (h : s.DateStands deviceId recording) (hst : s.Same t) :
    t.DateStands deviceId recording := by
  rw [SyncWorld.DateStands, hst.rows, hst.finals]
  exact h

/-- Work on another recording leaves an entry as it was. -/
theorem Touches.dateStands {id : Bytes} {deviceId : Bytes} {recording : Recording} (h : Touches id s t) (hid : recording.recordingId ≠ id)
    (hdate : s.DateStands deviceId recording) : t.DateStands deviceId recording := by
  rw [SyncWorld.DateStands, h.rows _ hid]
  intro hsame p hp q hq hqid
  rw [h.finals q (by rwa [hqid])] at hq
  exact hdate hsame p hp q hq hqid

theorem keeps_syncRecordings (posix : Bool) {deviceId : Bytes} (summary : SyncSummary) {prepared : List (Recording × Bytes)}
    (hs : s.OneFinal) (hids : (prepared.map fun entry => entry.1.recordingId).Nodup)
    (hdates : ∀ entry ∈ prepared, s.DateStands deviceId entry.1) :
    Keeps SyncWorld.OneFinal (syncRecordings posix deviceId summary prepared) (fun _ _ => True) s := by
  induction prepared generalizing s summary with
  | nil => exact keeps_return _ hs
  | cons entry prepared ih =>
    obtain ⟨hnot, hids⟩ := List.nodup_cons.mp hids
    have hone := keeps_syncRecording posix entry.2 hs.touches (hdates entry List.mem_cons_self)
    have hwork : Keeps SyncWorld.OneFinal (syncRecording posix deviceId entry.1 entry.2)
        (fun _ t => Touches entry.1.recordingId s t) s :=
      Device.wp_crash_mono _ (Device.wp_mono _ hone fun _ _ ht => ⟨ht.1.oneFinal, ht.1⟩) fun _ ht => ht.oneFinal
    refine keeps_bind hwork (fun result t ht htouch => ?_) fun _ _ _ => trivial
    refine ih _ ht hids fun later hlater => htouch.dateStands (fun heq => hnot ?_) (hdates later (List.mem_cons_of_mem _ hlater))
    exact List.mem_map.mpr ⟨later, hlater, heq⟩

/-- What the preflight has of the entries: each once, in their order. -/
theorem keeps_prepare (seen : List Bytes) (recordings : List Recording) (hs : s.OneFinal) :
    Keeps SyncWorld.OneFinal (prepare seen recordings) (fun r t => s.Same t ∧ ∀ prepared, r = .ok prepared →
      prepared.map Prod.fst = recordings ∧ (recordings.map Recording.recordingId).Nodup ∧
        ∀ recording ∈ recordings, recording.recordingId ∉ seen) s := by
  induction recordings generalizing seen s with
  | nil =>
    refine ⟨hs, .refl s, ?_⟩
    rintro _ ⟨⟩
    exact ⟨rfl, List.nodup_nil, by simp⟩
  | cons recording recordings ih =>
    rw [prepare]
    split
    · exact ⟨hs, .refl s, by rintro _ ⟨⟩⟩
    case isFalse hseen =>
      refine keeps_bind (keeps_quiet (fun h h' => h'.same h) (quiet_resolvedSource _) hs) (fun source t ht hsame => ?_)
        fun _ _ hsame => ⟨hsame, by rintro _ ⟨⟩⟩
      refine keeps_bind (ih (recording.recordingId :: seen) ht) (fun prepared u hu hrest => ?_)
        fun _ _ hrest => ⟨hsame.trans hrest.1, by rintro _ ⟨⟩⟩
      obtain ⟨hmap, hnodup, hfresh⟩ := hrest.2 prepared rfl
      refine ⟨hu, hsame.trans hrest.1, ?_⟩
      rintro _ ⟨⟩
      refine ⟨by rw [List.map_cons, hmap], List.nodup_cons.mpr ⟨fun hmem => ?_, hnodup⟩, fun later hlater => ?_⟩
      · obtain ⟨later, hlater, heq⟩ := List.mem_map.mp hmem
        exact hfresh later hlater (heq ▸ List.mem_cons_self)
      · rcases List.mem_cons.mp hlater with rfl | hlater
        · exact hseen
        · exact fun hmem => hfresh later hlater (List.mem_cons_of_mem _ hmem)

/-- The dates stand for every entry of the mounted Device. -/
def SyncWorld.DatesStand (s : SyncWorld) : Prop :=
  ∀ recording ∈ s.mount.manifest.recordings, s.DateStands s.mount.device.deviceId recording

theorem keeps_inspectDevice (hs : s.OneFinal) :
    Keeps SyncWorld.OneFinal (sync .inspectDevice) (fun r t => t = s ∧ ∀ device, r = .ok device → device = s.mount.device) s := by
  refine keeps_op (by rintro _ _ ⟨⟩) hs hs fun f => ?_
  rcases f with _ | e | e | b | _ <;> refine ⟨rfl, ?_⟩ <;> rintro _ ⟨⟩ <;> rfl

theorem keeps_loadManifest (hs : s.OneFinal) :
    Keeps SyncWorld.OneFinal (sync .loadManifest) (fun r t => t = s ∧ ∀ manifest, r = .ok manifest → manifest = s.mount.manifest) s := by
  refine keeps_op (by rintro _ _ ⟨⟩) hs hs fun f => ?_
  rcases f with _ | e | e | b | _ <;> refine ⟨rfl, ?_⟩ <;> rintro _ ⟨⟩ <;> rfl

theorem keeps_oneFinal_quiet {α : Type} {q : SyncM α} (hq : q.Quiet) (hs : s.OneFinal) :
    Keeps SyncWorld.OneFinal q (fun _ t => s.Same t) s := keeps_quiet (fun hsame h => h.same hsame) hq hs

/-- The entries that the preflight lets through are entries of the manifest, and no two of them share their id. -/
theorem keeps_preflight (hs : s.OneFinal) (device : DeviceDocument) (manifest : ManifestDocument) :
    Keeps SyncWorld.OneFinal (preflight device manifest) (fun r t => s.Same t ∧ ∀ prepared, r = .ok prepared →
      (∀ entry ∈ prepared, entry.1 ∈ manifest.recordings) ∧ (prepared.map fun entry => entry.1.recordingId).Nodup) s := by
  rw [preflight]
  split
  · exact ⟨hs, .refl s, by rintro _ ⟨⟩⟩
  · refine Device.wp_mono _ (keeps_prepare [] _ hs) fun r t h => ⟨h.1, h.2.1, fun prepared hr => ?_⟩
    obtain ⟨hmap, hnodup, -⟩ := h.2.2 prepared hr
    rw [← hmap, List.map_map] at hnodup
    exact ⟨fun entry hentry => hmap ▸ List.mem_map_of_mem hentry, hnodup⟩

theorem keeps_syncDevice (posix : Bool) (hs : s.OneFinal) (hdates : s.DatesStand) :
    Keeps SyncWorld.OneFinal (syncDevice posix) (fun _ _ => True) s := by
  refine keeps_bind (keeps_inspectDevice hs) (fun device t _ hdevice => ?_) fun _ _ _ => trivial
  obtain ⟨rfl, hdevice⟩ := hdevice
  obtain rfl := hdevice device rfl
  refine keeps_bind (keeps_loadManifest hs) (fun manifest u _ hmanifest => ?_) fun _ _ _ => trivial
  obtain ⟨rfl, hmanifest⟩ := hmanifest
  obtain rfl := hmanifest manifest rfl
  refine keeps_bind (keeps_preflight hs _ _) (fun prepared v hv hprepared => ?_) fun _ _ _ => trivial
  obtain ⟨hmem, hids⟩ := hprepared.2 prepared rfl
  refine keeps_bind (keeps_oneFinal_quiet (quiet_op trivial) hv) (fun _ w hw hroots => ?_) fun _ _ _ => trivial
  refine keeps_bind (keeps_oneFinal_quiet (quiet_rejectDerivedTargets prepared) hw) (fun _ x hx htargets => ?_) fun _ _ _ => trivial
  refine keeps_bind (keeps_oneFinal_quiet (quiet_op trivial) hx) (fun _ y hy hinit => ?_) fun _ _ _ => trivial
  refine keeps_bind (keeps_oneFinal_quiet (quiet_op trivial) hy) (fun _ z hz hconnect => ?_) fun _ _ _ => trivial
  have hopened := (hprepared.1.trans (hroots.trans htargets)).trans (hinit.trans hconnect)
  have hbody : Keeps SyncWorld.OneFinal (do
      sync (.upsertDevice u.mount.device.deviceId ⟨u.mount.device.model, u.mount.device.firmwareVersion, u.mount.manifest.updatedAt⟩)
      syncRecordings posix u.mount.device.deviceId ⟨0, 0, 0⟩ prepared) (fun _ _ => True) z := by
    refine keeps_bind (keeps_oneFinal_quiet (quiet_op trivial) hz) (fun _ _ h hdevices => ?_) fun _ _ _ => trivial
    exact keeps_syncRecordings posix _ h hids fun entry hentry => (hdates _ (hmem entry hentry)).same (hopened.trans hdevices)
  refine keeps_try hbody fun r _ h _ => ?_
  exact keeps_try (keeps_oneFinal_quiet (quiet_op (o := .closeDb) trivial) h) fun _ _ h _ => ⟨h, trivial⟩

/-- One run: the Device that is mounted, the system it runs on, and what befalls its calls; the process may end at any of them. -/
structure SyncRun where
  mount : Mount
  posix : Bool
  events : List (Event SyncFault)

namespace SyncWorld

def step (s : SyncWorld) (r : SyncRun) : SyncWorld :=
  (syncHost.run (syncDevice r.posix).run r.events { s with mount := r.mount }).state

def run (s : SyncWorld) (runs : List SyncRun) : SyncWorld := runs.foldl step s

/-- No run meets an entry whose recording has a final file under another date, but for those that it refuses. -/
def DatesStandIn (s : SyncWorld) : List SyncRun → Prop
  | [] => True
  | r :: runs => { s with mount := r.mount : SyncWorld }.DatesStand ∧ (s.step r).DatesStandIn runs

theorem OneFinal.step (hs : s.OneFinal) (r : SyncRun) (hdates : { s with mount := r.mount : SyncWorld }.DatesStand) :
    (s.step r).OneFinal := by
  have hmounted : { s with mount := r.mount : SyncWorld }.OneFinal := hs.same ⟨rfl, rfl⟩
  have hsat := Device.run_sat _ r.events (keeps_syncDevice r.posix hmounted hdates) fun _ _ _ _ => trivial
  rw [SyncWorld.step]
  revert hsat
  cases syncHost.run (syncDevice r.posix).run r.events { s with mount := r.mount } with
  | done a t => exact fun hsat => hsat.1
  | cut t => exact fun hsat => hsat

end SyncWorld

/-- In every sequence of runs that meet no entry of a recording under another date than its final file has, broken off and
faulty runs among them, the library never has two final files of one recording, and a `SYNCED` row names the one that it has. -/
theorem syncDevice_one_final (hs : s.OneFinal) (runs : List SyncRun) (hdates : s.DatesStandIn runs) : (s.run runs).OneFinal := by
  induction runs generalizing s with
  | nil => exact hs
  | cons r runs ih => exact ih (hs.step r hdates.1) hdates.2

/-- An empty library and an empty database. -/
def newLibrary (mount : Mount) : SyncWorld := ⟨fun _ => none, fun _ => none, fun _ => none, fun _ => none, mount⟩

def sampleId : Bytes := lit "3f2c0a1e-0000-4000-8000-000000000001"

def sampleContent : Bytes := lit "RIFF"

/-- A Device with one recording, and the start that its manifest gives for it. -/
def sampleMount (startedAt : Bytes) : Mount where
  device := ⟨lit "3f2c0a1e-0000-4000-8000-0000000000d1", lit "StickS3", lit "1.0.0"⟩
  manifest := ⟨lit "3f2c0a1e-0000-4000-8000-0000000000d1", lit "2026-03-02T00:00:00Z",
    [⟨sampleId, lit "recordings/2026-03-01/rec.wav", startedAt, 1000, 4, sha256Hex sampleContent⟩]⟩
  sources := fun name => if name = lit "recordings/2026-03-01/rec.wav" then some sampleContent else none
  layout := ⟨false, false, fun _ => false, fun _ => true⟩

def sampleRun (startedAt : Bytes) : SyncRun := ⟨sampleMount startedAt, true, []⟩

theorem newLibrary_oneFinal (mount : Mount) : (newLibrary mount).OneFinal :=
  ⟨fun _ _ h => absurd rfl h, by rintro _ _ ⟨⟩⟩

theorem syncDevice_one_final_sample :
    ((newLibrary (sampleMount [])).run [sampleRun (lit "2026-03-01T23:30:00Z")]).OneFinal :=
  syncDevice_one_final (newLibrary_oneFinal _) _ ⟨fun _ _ _ _ _ _ h => absurd rfl h, trivial⟩

/-- The same recording again, with a start that has been corrected by an hour: the library has it twice. -/
theorem syncDevice_two_finals : ¬ ((newLibrary (sampleMount [])).run
    [sampleRun (lit "2026-03-01T23:30:00Z"), sampleRun (lit "2026-03-02T00:30:00Z")]).OneFinal := by
  intro h
  have hfinals : ∀ p ∈ [(⟨2026, 3, 1, sampleId⟩ : FinalPath), ⟨2026, 3, 2, sampleId⟩], ((newLibrary (sampleMount [])).run
      [sampleRun (lit "2026-03-01T23:30:00Z"), sampleRun (lit "2026-03-02T00:30:00Z")]).finals p ≠ none := by decide +kernel
  have := h.unique _ _ (hfinals _ List.mem_cons_self) (hfinals _ (List.mem_cons_of_mem _ List.mem_cons_self)) rfl
  exact absurd this (by simp)

end Runs

end M5DayLog.PcSync
