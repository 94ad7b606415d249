import M5DayLog.Manifest.Journal
import M5DayLog.Recorder.Writer

/-! Entries name their own recordings. The writer task keeps the identity of its segment in several variables and
replaces them one by one; here it runs against components that may answer anything, and the entries that it commits
are compared with the names of their files. -/

namespace M5DayLog

open Bytes Fat Device Writer

/-- The entry's file lies in a date directory, and the id and stamp read off its name are those of the entry. -/
def Entry.NamesItself (e : Entry) : Prop :=
  ∃ date name, e.filename = relativeName date name ∧ wavIdentity (some date) name = some (e.recordingId, e.startedAt)

theorem wavIdentity_date_length {date name id started : Bytes} (h : wavIdentity (some date) name = some (id, started)) :
    date.length = 10 := by
  simp only [wavIdentity, Option.bind_eq_bind, Option.bind_some, Option.bind_eq_some_iff,
    Option.ite_none_right_eq_some] at h
  obtain ⟨x, hx, t, ht, hok, heq⟩ := h
  have hdir := hok.2.1
  simp only [validDateDir, dateDirHasShape, Bool.and_eq_true, decide_eq_true_eq] at hdir
  exact hdir.1.1.1.1

/-- Every entry names itself, and no two name the same file. -/
structure Agree (es : List Entry) : Prop where
  names : ∀ e ∈ es, e.NamesItself
  files : (es.map (·.filename)).Nodup

/-- A date and a name are separated by their lengths, so that one file name has one identity. -/
theorem namesItself_id {e e' : Entry} (h : e.NamesItself) (h' : e'.NamesItself) (hf : e.filename = e'.filename) :
    e.recordingId = e'.recordingId := by
  obtain ⟨date, name, hname, hid⟩ := h
  obtain ⟨date', name', hname', hid'⟩ := h'
  have hlen := wavIdentity_date_length hid
  have hlen' := wavIdentity_date_length hid'
  rw [hname, hname', relativeName, relativeName, List.append_assoc, List.append_assoc, List.append_cancel_left_eq] at hf
  obtain ⟨rfl, hrest⟩ := List.append_inj hf (hlen.trans hlen'.symm)
  obtain rfl := (List.cons.inj hrest).2
  rw [hid] at hid'
  exact (Prod.mk.inj (Option.some.inj hid')).1

section Session

/-- A step of opening a segment that has failed. -/
def WriterOp.refused : (o : WriterOp) → o.Ans → Bool
  | .ensureDateDir _, ok => !ok
  | .canAdmitSegment _, ok => !ok
  | .sinkOpen _ _, r => !r.1
  | _, _ => false

/-- What the other components and tasks answer at one call, and whether an upsert that fails has stored its entry. -/
structure Choice where
  ans : (o : WriterOp) → o.Ans
  stored : Bool

/-- A run of the task as the manifest sees it: the entries that were there before, those committed since, the sticky
stop bit, whether recording has begun, and whether a rotation has failed after it had replaced the identity. -/
structure Session where
  prior : List Entry
  committed : List Entry
  stop : Bool
  recording : Bool
  torn : Bool

namespace Session

def boot (prior : List Entry) : Session := ⟨prior, [], false, false, false⟩

variable (s : Session)

/-- The manifest adds a well-formed entry of a new id, unless the upsert fails before it is stored. -/
def upsert (entry : Bytes) (r : ManifestResult) (stored : Bool) : ManifestResult × Session :=
  match manifestEntry entry with
  | some (e, []) =>
    if (s.prior ++ s.committed).any (·.recordingId = e.recordingId) then (r, s)
    else if r = .ok ∨ r = .error ∧ stored then (r, { s with committed := s.committed ++ [e] })
    else (.error, s)
  | _ => (.error, s)

def act (ch : Choice) : (o : WriterOp) → o.Ans × Session
  | .upsertFile d n e => s.upsert e (ch.ans (.upsertFile d n e)) ch.stored
  | .stopRequested => (s.stop || ch.ans .stopRequested, { s with stop := s.stop || ch.ans .stopRequested })
  | .enterError r => (ch.ans (.enterError r), { s with stop := true })
  | .signalReady => (ch.ans .signalReady, { s with recording := true })
  | o => (ch.ans o, { s with torn := s.torn || s.recording && o.refused (ch.ans o) })

end Session

end Session

section Sample

def sampleClock : WallClock := ⟨1784000000, 2026, 7, 14, 3, 33, 20⟩

/-- Every call succeeds, no slot is full, and no stop is requested. -/
def Choice.calm : Choice where
  ans
    | .mountRecordings | .transitionState _ _ | .ensureDeviceJson _ | .ensureManifest _ _ | .ensureQuarantineDir
    | .scanRecordings | .syncWavDir _ _ | .ensureDateDir _ | .canAdmitSegment _ | .sinkFlush _ | .finalizePaths _ _ => true
    | .stopRequested => false
    | .unmount | .setEventsReady _ | .enterError _ | .signalReady | .waitSlotFull | .releaseFull | .noteSdError => ()
    | .ensureDeviceId => deviceIdentityFormatUuidV4 fun _ => 0
    | .wallClock => sampleClock
    | .random16 => fun _ => 1
    | .sinkOpen sink _ | .sinkWriteChunk sink _ | .sinkClose sink => (true, sink)
    | .hashWavFile _ => some (List.replicate 64 0x30, wavHeaderSize)
    | .upsertFile _ _ _ => .ok
    | .peekFull => none
    | .tickCount => 0
  stored := true

end Sample

def session : Device WriterOp WriterOp.Ans Session Choice where
  act o f s := s.act (f.getD .calm) o
  cut _ _ s := s

namespace Session

/-- What no call of the task undoes. -/
structure Leads (s s' : Session) : Prop where
  torn : s.torn = true → s'.torn = true
  recording : s.recording = true → s'.recording = true

/-- Unless a rotation was left half done, the committed entries agree with their files. -/
def Inv (s : Session) : Prop := s.torn = false → Agree s.committed

variable {s s' s'' : Session}

theorem Leads.refl (s : Session) : s.Leads s := ⟨id, id⟩

theorem Leads.trans (h : s.Leads s') (h' : s'.Leads s'') : s.Leads s'' :=
  ⟨h'.torn ∘ h.torn, h'.recording ∘ h.recording⟩

end Session

section Rules

open Session

variable {A : Choice → Prop} {s : Session}

/-- A call other than an upsert may answer anything. A refused step of opening a segment leaves a running rotation
half done. -/
theorem wp_ask {o : WriterOp} {Q : o.Ans → Session → Prop} (ho : ∀ d n e, o ≠ .upsertFile d n e) (hs : s.Inv)
    (h : ∀ a s', s.Leads s' → s'.Inv → (o.refused a = true → s.recording = true → s'.torn = true) → Q a s') :
    session.wp A Inv (op o) Q s := by
  refine ⟨fun _ => hs, fun f _ => ?_⟩
  have hq : ∀ a, Q a { s with torn := s.torn || s.recording && o.refused a } := by
    intro a
    refine h _ _ ⟨fun ht => by simp [ht], id⟩ (fun ht => ?_) fun hr hrec => by simp [hr, hrec]
    simp only [Bool.or_eq_false_iff] at ht
    exact hs ht.1
  cases o
  case upsertFile d n e => exact absurd rfl (ho d n e)
  case stopRequested => exact h _ _ ⟨id, id⟩ hs (by simp [WriterOp.refused])
  case enterError => exact h _ _ ⟨id, id⟩ hs (by simp [WriterOp.refused])
  case signalReady => exact h _ _ ⟨id, fun _ => rfl⟩ hs (by simp [WriterOp.refused])
  all_goals exact hq _

theorem wp_quiet {o : WriterOp} {Q : o.Ans → Session → Prop} (ho : ∀ d n e, o ≠ .upsertFile d n e) (hs : s.Inv)
    (h : ∀ a s', s'.Inv → Q a s') : session.wp A Inv (op o) Q s :=
  wp_ask ho hs fun a s' _ hs' _ => h a s' hs'

theorem wp_signalReady {Q : Unit → Session → Prop} (hs : s.Inv) (h : ∀ s', s'.Inv → s'.recording = true → Q () s') :
    session.wp A Inv (op .signalReady) Q s :=
  ⟨fun _ => hs, fun _ _ => h _ hs rfl⟩

theorem Agree.add {es : List Entry} {e : Entry} (h : Agree es) (he : e.NamesItself)
    (hnew : ∀ e' ∈ es, e'.recordingId ≠ e.recordingId) : Agree (es ++ [e]) := by
  refine ⟨?_, ?_⟩
  · intro e' he'
    rcases List.mem_append.mp he' with he' | he'
    · exact h.names e' he'
    · rwa [List.mem_singleton.mp he']
  · rw [List.map_append, List.nodup_append]
    refine ⟨h.files, by simp, ?_⟩
    simp only [List.map_cons, List.map_nil, List.mem_singleton, forall_eq, List.mem_map]
    rintro _ ⟨e', he', rfl⟩ hname
    exact hnew e' he' (namesItself_id (h.names e' he') he hname)

theorem wp_upsertFile {deviceId now entry : Bytes} {Q : ManifestResult → Session → Prop} (hs : s.Inv)
    (he : ∀ e, manifestEntry entry = some (e, []) → s.torn = false → e.NamesItself)
    (h : ∀ r s', s.Leads s' → s'.Inv → Q r s') : session.wp A Inv (op (.upsertFile deviceId now entry)) Q s := by
  refine ⟨fun _ => hs, fun f _ => ?_⟩
  simp only [session, Session.act, Session.upsert]
  split
  case h_1 e hparse =>
    split_ifs with hdup hstored
    · exact h _ _ (.refl s) hs
    · refine h _ _ ⟨id, id⟩ fun ht => (hs ht).add (he e hparse ht) fun e' he' hid => hdup ?_
      exact List.any_eq_true.mpr ⟨e', List.mem_append_right _ he', by simpa using hid⟩
    · exact h _ _ (.refl s) hs
  case h_2 => exact h _ _ (.refl s) hs

end Rules

section Segments

/-- The identity of the segment is the one that its file name carries. -/
structure Segment.Named (seg : Segment) : Prop where
  uuid : isValidUuid seg.recId = true
  path : ∃ date time, validDate date = true ∧ validTime6 time = true ∧
    recorderIso8601FromParts date time = some seg.started ∧
    seg.wav = join (join recordingsDir date) (segmentName time seg.recId wavSuffix)

variable {seg seg' : Segment}

/-- The prefix that the record step strips leaves the name relative to the manifest. -/
theorem wav_relative (date name : Bytes) :
    join (join recordingsDir date) name = m5daylogPrefix ++ relativeName date name := by
  have hlit : recordingsDir ++ [slash] = m5daylogPrefix ++ lit "recordings/" := by with_unfolding_all decide
  calc join (join recordingsDir date) name = (recordingsDir ++ [slash]) ++ (date ++ slash :: name) := by simp [join]
    _ = m5daylogPrefix ++ relativeName date name := by simp [hlit, relativeName]

/-- The entry built for a named segment names itself. -/
theorem Segment.Named.entry (h : seg.Named) {e : Entry} (hid : e.recordingId = seg.recId)
    (hstart : e.startedAt = seg.started) (hfile : e.filename = seg.wav.drop m5daylogPrefix.length) : e.NamesItself := by
  obtain ⟨date, time, hdate, htime, hiso, hwav⟩ := h.path
  obtain ⟨hstarted, hvalid⟩ := recorderIso8601FromParts_eq_some hiso
  refine ⟨date, segmentName time seg.recId wavSuffix, ?_, ?_⟩
  · rw [hfile, hwav, wav_relative, List.drop_left]
  · rw [wavIdentity_segmentName hdate htime h.uuid (hstarted ▸ hvalid), hid, hstart, hstarted]

end Segments

section Programs

open Session

variable {A : Choice → Prop} {s : Session} {seg : Segment} {deviceId : Bytes}

/-- What the record step needs of the segment: nothing is committed under an empty stamp, and after a torn rotation
nothing is promised. -/
def Segment.Safe (seg : Segment) (s : Session) : Prop := s.torn = true ∨ seg.started = [] ∨ seg.Named

theorem Segment.Safe.mono {s' : Session} (h : seg.Safe s) (hl : s.Leads s') : seg.Safe s' := h.imp_left hl.torn

/-- Two texts of built entries that agree carry the same key fields. -/
theorem key_of_render {e e' : Entry} (he : e.Built) (he' : e'.Valid) (h : e.render = e'.render) : e.key = e'.key := by
  have hkey := entryKey_render he
  rw [h, entryKey_render he'.toBuilt, if_pos he'.consistent] at hkey
  split at hkey
  · exact (Option.some.inj hkey).symm
  · simp at hkey

theorem wp_recorderManifestRecordWav {Q : Bool → Session → Prop} (hs : s.Inv) (hseg : seg.Safe s)
    (h : ∀ b s', s.Leads s' → s'.Inv → Q b s') :
    session.wp A Inv (recorderManifestRecordWav deviceId seg.wav seg.recId seg.started stateFinalized) Q s := by
  unfold recorderManifestRecordWav
  split
  · exact h _ _ (.refl s) hs
  · rw [wp_bind]
    refine wp_ask (by simp) hs fun w s1 hl1 hs1 _ => ?_
    split
    · exact h _ _ hl1 hs1
    · rw [wp_bind]
      refine wp_ask (by simp) hs1 fun r s2 hl2 hs2 _ => ?_
      have hl2 := hl1.trans hl2
      rcases r with _ | ⟨sha, sizeBytes⟩
      · exact h _ _ hl2 hs2
      · simp only
        split
        · exact h _ _ hl2 hs2
        · split
          · exact h _ _ hl2 hs2
          case h_2 entry hentry =>
            rw [wp_bind]
            refine wp_upsertFile hs2 (fun e hparse ht => ?_) fun r s3 hl3 hs3 => h _ _ (hl2.trans hl3) hs3
            obtain ⟨e0, he0, hbuilt, hout, -⟩ := deviceManifestBuildEntry_eq_some hentry
            obtain ⟨hrender, hvalid⟩ := manifestEntry_eq_some.mp hparse
            rw [hout, List.append_nil] at hrender
            have hkey := key_of_render hbuilt hvalid hrender
            have hstart : e.startedAt = seg.started := by
              have := congrArg EntryKey.startedAt hkey
              simpa [Entry.key, he0] using this.symm
            rcases hseg.mono hl2 with htorn | hempty | hnamed
            · simp [ht] at htorn
            · have hlen := iso8601_length hvalid.startedAt
              simp [hstart, hempty] at hlen
            · have hid := congrArg EntryKey.recordingId hkey
              have hfile := congrArg EntryKey.filename hkey
              simp only [Entry.key, he0] at hid hfile
              exact hnamed.entry hid.symm hstart hfile.symm

theorem Segment.Safe.congr {seg' : Segment} (h : seg.Safe s) (hid : seg'.recId = seg.recId)
    (hstart : seg'.started = seg.started) (hwav : seg'.wav = seg.wav) : seg'.Safe s := by
  refine h.imp_right (Or.imp (fun h => hstart.trans h) fun h => ⟨hid ▸ h.uuid, ?_⟩)
  rw [hid, hstart, hwav]
  exact h.path

theorem wp_finalizeSegment {Q : Bool × Segment → Session → Prop} (hs : s.Inv) (hseg : seg.Safe s)
    (h : ∀ b seg' s', s.Leads s' → s'.Inv → seg'.Safe s' → Q (b, seg') s') :
    session.wp A Inv (finalizeSegment seg) Q s := by
  have hret : ∀ b state sink s', s.Leads s' → s'.Inv → Q (b, { seg with state := state, sink := sink }) s' :=
    fun b state sink s' hl hs' => h b _ s' hl hs' ((hseg.mono hl).congr rfl rfl rfl)
  unfold finalizeSegment finalizeOnce
  rw [wp_bind]
  split
  · exact hret _ _ _ _ (.refl s) hs
  · dsimp only
    split
    · exact hret _ _ _ _ (.refl s) hs
    · rw [wp_bind]
      refine wp_ask (by simp) hs fun closed s1 hl1 hs1 _ => ?_
      split
      · exact hret _ _ _ _ hl1 hs1
      · rw [wp_bind]
        refine wp_ask (by simp) hs1 fun renamed s2 hl2 hs2 _ => ?_
        exact hret _ _ _ _ (hl1.trans hl2) hs2

/-- A new segment is named. Where one is refused while recording, either the old identity is still in place, or its
stamp is gone, or the rotation is torn. -/
theorem wp_nextSegment {Q : Except RecorderReason Unit × Segment → Session → Prop} (hs : s.Inv) (hseg : seg.Safe s)
    (hok : ∀ seg' s', s.Leads s' → s'.Inv → seg'.Named → Q (.ok (), seg') s')
    (herr : ∀ reason seg' s', s.Leads s' → s'.Inv → (s.recording = true → seg'.Safe s') → Q (.error reason, seg') s') :
    session.wp A Inv (nextSegment deviceId seg) Q s := by
  unfold nextSegment
  rw [wp_bind]
  refine wp_ask (by simp) hs fun w s1 hl1 hs1 _ => ?_
  obtain ⟨hdate, htime⟩ := recorderCurrentDateTime_shape w
  generalize recorderCurrentDateTime w = dt at hdate htime ⊢
  obtain ⟨date, time⟩ := dt
  dsimp only at hdate htime ⊢
  rw [wp_bind]
  refine wp_ask (by simp) hs1 fun rand16 s2 hl2 hs2 _ => ?_
  have hl2 := hl1.trans hl2
  cases hfmt : deviceIdentityFormatUuidV4 rand16 with
  | none => exact herr _ _ _ hl2 hs2 fun _ => hseg.mono hl2
  | some recId =>
    have huuid := formatUuidV4_valid hfmt
    dsimp only
    cases hiso : recorderIso8601FromParts date time with
    | none => exact herr _ _ _ hl2 hs2 fun _ => Or.inr (Or.inl rfl)
    | some started =>
      dsimp only
      rw [wavRotationBuildPartPath, wavRotationBuildWavPath,
        buildSegmentPath_eq partSuffix hdate htime huuid (by with_unfolding_all decide),
        buildSegmentPath_eq wavSuffix hdate htime huuid (by with_unfolding_all decide)]
      dsimp only
      rw [wp_bind]
      refine wp_ask (by simp) hs2 fun made s3 hl3 hs3 hr3 => ?_
      have hl3' := hl2.trans hl3
      split
      case isTrue hmade =>
        refine herr _ _ _ hl3' hs3 fun hrec => Or.inl (hr3 ?_ (hl2.recording hrec))
        simpa [WriterOp.refused] using hmade
      case isFalse =>
        rw [wp_bind]
        refine wp_ask (by simp) hs3 fun admitted s4 hl4 hs4 hr4 => ?_
        have hl4' := hl3'.trans hl4
        split
        case isTrue hadmitted =>
          refine herr _ _ _ hl4' hs4 fun hrec => Or.inl (hr4 ?_ (hl3'.recording hrec))
          simpa [WriterOp.refused] using hadmitted
        case isFalse =>
          rw [wp_bind]
          refine wp_ask (by simp) hs4 ?_
          rintro ⟨opened, sink⟩ s5 hl5 hs5 hr5
          have hl5' := hl4'.trans hl5
          dsimp only
          split
          case isTrue hopened =>
            refine herr _ _ _ hl5' hs5 fun hrec => Or.inl (hr5 ?_ (hl4'.recording hrec))
            simpa [WriterOp.refused] using hopened
          case isFalse =>
            rw [wp_bind]
            refine wp_ask (by simp) hs5 fun tick s6 hl6 hs6 _ => ?_
            exact hok _ _ (hl5'.trans hl6) hs6 ⟨huuid, date, time, hdate, htime, hiso, rfl⟩

/-- The error that ends a run commits nothing. -/
theorem wp_noteAndEnterError {α : Type} {reason : RecorderReason} {a : α} {Q : α → Session → Prop} (hs : s.Inv)
    (h : ∀ s', s.Leads s' → s'.Inv → Q a s') : session.wp A Inv (do
      op .noteSdError
      op (.enterError reason)
      return a) Q s := by
  rw [wp_bind]
  refine wp_ask (by simp) hs fun _ s1 hl1 hs1 _ => ?_
  rw [wp_bind]
  exact wp_ask (by simp) hs1 fun _ s2 hl2 hs2 _ => h s2 (hl1.trans hl2) hs2

theorem wp_rotateSegment {Q : Bool × Segment → Session → Prop} (hs : s.Inv) (hrec : s.recording = true)
    (hseg : seg.Safe s) (h : ∀ b seg' s', s.Leads s' → s'.Inv → seg'.Safe s' → Q (b, seg') s') :
    session.wp A Inv (rotateSegment deviceId seg) Q s := by
  unfold rotateSegment
  rw [wp_bind]
  refine wp_finalizeSegment hs hseg fun finalized seg1 s1 hl1 hs1 hseg1 => ?_
  dsimp only
  split
  · exact wp_noteAndEnterError hs1 fun s2 hl2 hs2 => h _ _ _ (hl1.trans hl2) hs2 (hseg1.mono hl2)
  · rw [wp_bind]
    refine wp_recorderManifestRecordWav hs1 hseg1 fun recorded s2 hl2 hs2 => ?_
    have hl2' := hl1.trans hl2
    have hseg2 := hseg1.mono hl2
    split
    · exact wp_noteAndEnterError hs2 fun s3 hl3 hs3 => h _ _ _ (hl2'.trans hl3) hs3 (hseg2.mono hl3)
    · rw [wp_bind]
      refine wp_nextSegment hs2 hseg2 (fun seg3 s3 hl3 hs3 hnamed => ?_) fun reason seg3 s3 hl3 hs3 hsafe => ?_
      · exact h _ _ _ (hl2'.trans hl3) hs3 (Or.inr (Or.inr hnamed))
      · dsimp only
        rw [wp_bind]
        refine wp_ask (by simp) hs3 fun _ s4 hl4 hs4 _ => ?_
        exact h _ _ _ (hl2'.trans (hl3.trans hl4)) hs4 ((hsafe (hl2'.recording hrec)).mono hl4)

/-- Draining leaves the identity alone. -/
theorem wp_drainSlots {Q : Option (Bool × Segment) → Session → Prop} (fuel : ℕ) (hs : s.Inv) (hseg : seg.Safe s)
    (hnone : ∀ s', s.Leads s' → s'.Inv → Q none s')
    (h : ∀ b seg' s', s.Leads s' → s'.Inv → seg'.Safe s' → Q (some (b, seg')) s') :
    session.wp A Inv (drainSlots fuel seg) Q s := by
  induction fuel generalizing seg s with
  | zero => exact hnone _ (.refl s) hs
  | succ fuel ih =>
    unfold drainSlots
    rw [wp_bind]
    refine wp_ask (by simp) hs fun full s1 hl1 hs1 _ => ?_
    have hseg1 := hseg.mono hl1
    rcases full with _ | full
    · exact h _ _ _ hl1 hs1 hseg1
    · dsimp only
      rw [wp_bind]
      refine wp_ask (by simp) hs1 ?_
      rintro ⟨wrote, sink⟩ s2 hl2 hs2 -
      have hl2' := hl1.trans hl2
      dsimp only
      split
      · exact wp_noteAndEnterError hs2 fun s3 hl3 hs3 =>
          h _ _ _ (hl2'.trans hl3) hs3 ((hseg1.mono (hl2.trans hl3)).congr rfl rfl rfl)
      · rw [wp_bind]
        refine wp_ask (by simp) hs2 fun _ s3 hl3 hs3 _ => ?_
        have hl3' := hl2'.trans hl3
        have hseg3 := hseg.mono hl3'
        split
        · exact ih hs3 (hseg3.congr rfl rfl rfl) (fun s' hl => hnone s' (hl3'.trans hl))
            fun b seg' s' hl => h b seg' s' (hl3'.trans hl)
        · rw [wp_bind]
          refine wp_ask (by simp) hs3 fun flushed s4 hl4 hs4 _ => ?_
          have hl4' := hl3'.trans hl4
          have hseg4 := hseg.mono hl4'
          split
          · exact wp_noteAndEnterError hs4 fun s5 hl5 hs5 =>
              h _ _ _ (hl4'.trans hl5) hs5 ((hseg4.mono hl5).congr rfl rfl rfl)
          · exact ih hs4 (hseg4.congr rfl rfl rfl) (fun s' hl => hnone s' (hl4'.trans hl))
              fun b seg' s' hl => h b seg' s' (hl4'.trans hl)

theorem wp_checkRotation {Q : Bool × Segment → Session → Prop} (hs : s.Inv) (hrec : s.recording = true)
    (hseg : seg.Safe s) (h : ∀ b seg' s', s.Leads s' → s'.Inv → seg'.Safe s' → Q (b, seg') s') :
    session.wp A Inv (checkRotation deviceId seg) Q s := by
  unfold checkRotation
  rw [wp_bind]
  refine wp_ask (by simp) hs fun w s1 hl1 hs1 _ => ?_
  rw [wp_bind]
  refine wp_ask (by simp) hs1 fun tick s2 hl2 hs2 _ => ?_
  have hl2' := hl1.trans hl2
  have hseg2 := hseg.mono hl2'
  have hrotate : session.wp A Inv (rotateSegment deviceId seg) Q s2 := wp_rotateSegment hs2 (hl2'.recording hrec) hseg2
    fun b seg' s' hl => h b seg' s' (hl2'.trans hl)
  dsimp only
  split
  · exact h _ _ _ hl2' hs2 hseg2
  · exact h _ _ _ hl2' hs2 hseg2
  · exact h _ _ _ hl2' hs2 hseg2
  · exact hrotate
  · exact hrotate
  · exact h _ _ _ hl2' hs2 hseg2

theorem wp_writerLoop {Q : Option Segment → Session → Prop} (fuel : ℕ) (hs : s.Inv) (hrec : s.recording = true)
    (hseg : seg.Safe s) (hnone : ∀ s', s'.Inv → Q none s')
    (h : ∀ seg' s', s'.Inv → seg'.Safe s' → Q (some seg') s') :
    session.wp A Inv (writerLoop deviceId fuel seg) Q s := by
  induction fuel generalizing seg s with
  | zero => exact hnone _ hs
  | succ fuel ih =>
    unfold writerLoop
    rw [wp_bind]
    refine wp_ask (by simp) hs fun _ s1 hl1 hs1 _ => ?_
    rw [wp_bind]
    refine wp_drainSlots _ hs1 (hseg.mono hl1) (fun s2 _ hs2 => hnone s2 hs2) fun drained seg2 s2 hl2 hs2 hseg2 => ?_
    dsimp only
    rw [wp_bind]
    refine wp_ask (by simp) hs2 fun stop s3 hl3 hs3 _ => ?_
    have hseg3 := hseg2.mono hl3
    have hrec3 := (hl1.trans (hl2.trans hl3)).recording hrec
    split
    · exact h _ _ hs3 hseg3
    · rw [wp_bind]
      refine wp_checkRotation hs3 hrec3 hseg3 fun goOn seg4 s4 hl4 hs4 hseg4 => ?_
      dsimp only
      split
      · exact h _ _ hs4 hseg4
      · rw [wp_bind]
        refine wp_ask (by simp) hs4 fun stop s5 hl5 hs5 _ => ?_
        have hseg5 := hseg4.mono hl5
        split
        · exact h _ _ hs5 hseg5
        · exact ih hs5 ((hl4.trans hl5).recording hrec3) hseg5

theorem wp_finishSegment {Q : Unit → Session → Prop} (hs : s.Inv) (hseg : seg.Safe s) (h : ∀ s', s'.Inv → Q () s') :
    session.wp A Inv (finishSegment deviceId seg) Q s := by
  unfold finishSegment
  rw [wp_bind]
  refine wp_finalizeSegment hs hseg fun finalized seg1 s1 _ hs1 hseg1 => ?_
  dsimp only
  split
  · rw [wp_bind]
    refine wp_ask (by simp) hs1 fun _ s2 _ hs2 _ => ?_
    exact wp_ask (by simp) hs2 fun _ s3 _ hs3 _ => h s3 hs3
  · rw [wp_bind]
    refine wp_recorderManifestRecordWav hs1 hseg1 fun recorded s2 _ hs2 => ?_
    split
    · rw [wp_bind]
      refine wp_ask (by simp) hs2 fun _ s3 _ hs3 _ => ?_
      exact wp_ask (by simp) hs3 fun _ s4 _ hs4 _ => h s4 hs4
    · exact h s2 hs2

/-- Preparation commits nothing; where it succeeds the first segment is named. -/
theorem wp_require {α : Type} {step : Writer Bool} {reason : RecorderReason} {rest : Writer (Except RecorderReason α)}
    {Q : Except RecorderReason α → Session → Prop} (hstep : ∀ R : Bool → Session → Prop,
      (∀ b s', s'.Inv → R b s') → session.wp A Inv step R s)
    (hfail : ∀ s', s'.Inv → Q (.error reason) s') (hrest : ∀ s', s'.Inv → session.wp A Inv rest Q s') :
    session.wp A Inv (require step reason rest) Q s := by
  unfold require
  rw [wp_bind]
  refine hstep _ fun b s' hs' => ?_
  split
  · exact hfail s' hs'
  · exact hrest s' hs'

theorem wp_writerPrepare {Q : Except RecorderReason (Bytes × Segment) → Session → Prop} (hs : s.Inv)
    (hfail : ∀ reason s', s'.Inv → Q (.error reason) s')
    (hok : ∀ id seg s', s'.Inv → seg.Named → Q (.ok (id, seg)) s') : session.wp A Inv writerPrepare Q s := by
  unfold writerPrepare
  refine wp_require (fun R hR => wp_quiet (by simp) hs hR) (hfail _) fun s hs => ?_
  rw [wp_bind]
  refine wp_quiet (by simp) hs fun id s hs => ?_
  rcases id with _ | id
  · exact hfail _ s hs
  · refine wp_require (fun R hR => wp_quiet (by simp) hs hR) (hfail _) fun s hs => ?_
    refine wp_require (fun R hR => ?_) (hfail _) fun s hs => ?_
    · unfold recorderEnsureManifestExists
      rw [wp_bind]
      refine wp_quiet (by simp) hs fun w s hs => ?_
      split
      · exact hR _ s hs
      · exact wp_quiet (by simp) hs hR
    refine wp_require (fun R hR => wp_quiet (by simp) hs hR) (hfail _) fun s hs => ?_
    refine wp_require (fun R hR => wp_quiet (by simp) hs hR) (hfail _) fun s hs => ?_
    refine wp_require (fun R hR => ?_) (hfail _) fun s hs => ?_
    · unfold recorderSyncManifest
      rw [wp_bind]
      refine wp_quiet (by simp) hs fun w s hs => ?_
      split
      · exact hR _ s hs
      · exact wp_quiet (by simp) hs hR
    rw [wp_bind]
    exact wp_nextSegment hs (Or.inr (Or.inl rfl)) (fun seg s _ hs hnamed => hok _ seg s hs hnamed)
      fun reason seg s _ hs _ => hfail reason s hs

theorem wp_recorderWriterTask (fuel : ℕ) (hs : s.Inv) :
    session.wp A Inv (recorderWriterTask fuel) (fun _ s' => s'.Inv) s := by
  unfold recorderWriterTask
  rw [wp_bind]
  refine wp_ask (by simp) hs fun mounted s hl hs _ => ?_
  split
  · rw [wp_bind]
    exact wp_ask (by simp) hs fun _ s _ hs _ => hs
  · rw [wp_bind]
    refine wp_ask (by simp) hs fun _ s _ hs _ => ?_
    rw [wp_bind]
    refine wp_writerPrepare hs (fun reason s hs => ?_) fun id seg s hs hnamed => ?_
    · dsimp only
      rw [wp_bind]
      refine wp_ask (by simp) hs fun _ s _ hs _ => ?_
      rw [wp_bind]
      refine wp_ask (by simp) hs fun _ s _ hs _ => ?_
      rw [wp_bind]
      exact wp_ask (by simp) hs fun _ s _ hs _ => hs
    · dsimp only
      rw [wp_bind]
      refine wp_signalReady hs fun s hs hrec => ?_
      rw [wp_bind]
      refine wp_writerLoop fuel hs hrec (Or.inr (Or.inr hnamed)) (fun s hs => hs) fun seg s hs hseg => ?_
      dsimp only
      rw [wp_bind]
      refine wp_finishSegment hs hseg fun s hs => ?_
      rw [wp_bind]
      refine wp_ask (by simp) hs fun _ s _ hs _ => ?_
      rw [wp_bind]
      exact wp_ask (by simp) hs fun _ s _ hs _ => hs

end Programs

section Card

variable {A : Fault → Prop} {c0 c : Card} {j : ManifestPaths} {tidy : Prop} {m : Manifest} {e : Entry}
variable {deviceId updatedAt : Bytes} {s : Session}

theorem upsert_added {m' : Manifest} {r : ManifestResult} (hm : m.entries = s.prior ++ s.committed) (hadd : m.Adds e m')
    (hr : r = .ok ∨ r = .error) : s.upsert e.render r true = (r, { s with committed := s.committed ++ [e] }) := by
  have hvalid : e.Valid := m'.entries_valid e (by simp [hadd.entries])
  have hnew : (s.prior ++ s.committed).any (·.recordingId = e.recordingId) = false := by
    have hids := m'.ids_nodup
    rw [hadd.entries, List.map_append, List.nodup_append] at hids
    rw [← hm, List.any_eq_false]
    intro e' he' heq
    exact hids.2.2 e'.recordingId (List.mem_map_of_mem he') e.recordingId (by simp) (by simpa using heq)
  have hparse := manifestEntry_render hvalid []
  rw [List.append_nil] at hparse
  unfold Session.upsert
  rw [hparse]
  simp only [hnew, Bool.false_eq_true, if_false]
  rw [if_pos]
  rcases hr with rfl | rfl <;> simp

/-- The session's upsert covers the card's: whatever faults the card has, the result and the entries that the journal
then keeps are among those of the session. -/
theorem wp_upsert_session (he : e.Built) (hc : j.Keeps tidy c0 m c) (hm : m.entries = s.prior ++ s.committed) :
    device.wp A (fun _ => True) (deviceManifestUpsertFile j.manifest j.tmp deviceId updatedAt e.render)
      (fun r c' => ∃ stored m', j.Keeps tidy c0 m' c' ∧ (s.upsert e.render r stored).1 = r ∧
        m'.entries = (s.upsert e.render r stored).2.prior ++ (s.upsert e.render r stored).2.committed) c := by
  have hadded : ∀ m' r, m.Adds e m' → r = .ok ∨ r = .error → (s.upsert e.render r true).1 = r ∧
      m'.entries = (s.upsert e.render r true).2.prior ++ (s.upsert e.render r true).2.committed := by
    intro m' r hadd hr
    rw [upsert_added hm hadd hr]
    exact ⟨rfl, by simp [hadd.entries, hm]⟩
  have hrefused : (s.upsert e.render .error false).1 = .error ∧
      m.entries = (s.upsert e.render .error false).2.prior ++ (s.upsert e.render .error false).2.committed := by
    unfold Session.upsert
    split
    · split_ifs <;> simp_all
    · exact ⟨rfl, hm⟩
  by_cases hcons : e.Consistent
  · have hparse := manifestEntry_render ⟨he, hcons⟩ []
    rw [List.append_nil] at hparse
    refine wp_deviceManifestUpsertFile he hc (fun _ _ _ _ => trivial) (fun m' c' hadd _ hk => ?_) (fun e0 he0 hid _ => ?_)
      fun _ m' c' hstep hk => ?_
    · obtain ⟨h1, h2⟩ := hadded m' .ok hadd (Or.inl rfl)
      exact ⟨true, m', hk.keeps, h1, h2⟩
    · have hdup : (s.prior ++ s.committed).any (·.recordingId = e.recordingId) = true :=
        List.any_eq_true.mpr ⟨e0, hm ▸ he0, by simpa using hid⟩
      refine ⟨true, m, hc, ?_, ?_⟩ <;> simp [Session.upsert, hparse, hdup, hm]
    · rcases hstep with rfl | hadd
      · exact ⟨false, m', hk, hrefused.1, hrefused.2⟩
      · obtain ⟨h1, h2⟩ := hadded m' .error hadd (Or.inr rfl)
        exact ⟨true, m', hk, h1, h2⟩
  · unfold deviceManifestUpsertFile
    rw [entryKey_render he, if_neg hcons]
    split
    · exact ⟨false, m, hc, hrefused.1, hrefused.2⟩
    · exact ⟨false, m, hc, hrefused.1, hrefused.2⟩

end Card

section Runs

/-- In every state that a run reaches, whatever the other components answer, the committed entries agree with the names
of their files, unless a rotation failed after it had replaced the identity of the finalized segment. -/
theorem recorderWriterTask_agree (fuel : ℕ) (es : List (Event Choice)) (prior : List Entry)
    (h : (session.run (recorderWriterTask fuel) es (.boot prior)).state.torn = false) :
    Agree (session.run (recorderWriterTask fuel) es (.boot prior)).state.committed := by
  have hboot : (Session.boot prior).Inv := fun _ => ⟨by simp [Session.boot], by simp [Session.boot]⟩
  have hrun := run_sat (A := fun _ => True) (recorderWriterTask fuel) es (wp_recorderWriterTask fuel hboot) fun _ _ _ _ => trivial
  exact (Outcome.sat_state _ _).mp hrun h

/-- A stop is requested in the first round. -/
def Choice.stopping : Choice where
  ans
    | .stopRequested => true
    | o => Choice.calm.ans o
  stored := true

def stopRun : List (Event Choice) := List.replicate 20 (.act none) ++ [.act (some .stopping)]

theorem recorderWriterTask_agree_stop :
    (session.run (recorderWriterTask 2) stopRun (.boot [])).state.committed.length = 1 ∧
      Agree (session.run (recorderWriterTask 2) stopRun (.boot [])).state.committed := by
  have h : (session.run (recorderWriterTask 2) stopRun (.boot [])).state.torn = false ∧
      (session.run (recorderWriterTask 2) stopRun (.boot [])).state.committed.length = 1 := by decide +kernel
  exact ⟨h.2, recorderWriterTask_agree 2 stopRun [] h.1⟩

/-- Half an hour has passed, and the card has no room for another segment. -/
def Choice.full : Choice where
  ans
    | .random16 => fun _ => 2
    | .tickCount => 180000
    | .canAdmitSegment _ => false
    | o => Choice.calm.ans o
  stored := true

def fullRun : List (Event Choice) := List.replicate 22 (.act none) ++ List.replicate 20 (.act (some .full))

/-- A card that fills up at a rotation has its last file committed a second time, under an id that is not in its
name. -/
theorem recorderWriterTask_disagree : ¬ Agree (session.run (recorderWriterTask 2) fullRun (.boot [])).state.committed := by
  intro h
  have hfiles : ¬ ((session.run (recorderWriterTask 2) fullRun (.boot [])).state.committed.map (·.filename)).Nodup := by
    decide +kernel
  exact hfiles h.files

end Runs

end M5DayLog
