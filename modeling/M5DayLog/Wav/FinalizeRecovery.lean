import M5DayLog.Wav.CutRecovery

/-! Finalizing a segment and recovering it after a loss of power make the same recording: the one patches the header from the
counter, the other from the length of the file, and the two agree on every segment that was written without a failure. -/

namespace M5DayLog

open Bytes Fat Device

section Segment

variable {part wav : Path} {calls : List SinkCall} {sink : Sink} {c c₁ : Card} {A : Fault → Prop}

/-- A segment of whole chunks, opened on the card `c` and written without a failure. -/
structure WrittenSegment (part : Path) (calls : List SinkCall) (c : Card) (sink : Sink) (c₁ : Card) : Prop where
  chunks : ∀ data, .write data ∈ calls → data.length = bufferBytes
  written : ∃ sink₀ c₀, device.eval (sdPcmSinkOpen .closed part) c = ((true, sink₀), c₀) ∧
    device.eval (sinkCalls calls sink₀) c₀ = (sink, c₁)

/-- What the calls leave: an open part that holds the payload, alone changed on the card. -/
structure Complete (part : Path) (payload : Bytes) (c : Card) (sink : Sink) (c₁ : Card) : Prop where
  opened : sink.opened = true
  wavOpened : sink.wav.opened = true
  path : sink.wav.path = part
  alone : Alone part c c₁
  held : ∃ h, FixedHeader h ∧ c₁.file? part = some (h ++ payload)
  count : sink.wav.pcmBytes.toNat = payload.length

/-- A sink that is given whole chunks passes them on to its part. -/
theorem sinkCalls_eq (calls : List SinkCall) (hopen : sink.opened = true)
    (hchunks : ∀ data, .write data ∈ calls → data.length = bufferBytes) :
    sinkCalls calls sink = partCalls calls sink.wav >>= fun part => .ret { sink with wav := part } := by
  induction calls generalizing sink with
  | nil => rfl
  | cons call calls ih =>
    have hrest : ∀ data, .write data ∈ calls → data.length = bufferBytes := fun data h =>
      hchunks data (List.mem_cons_of_mem _ h)
    cases call with
    | write pcm =>
      have hlen : pcm.length = bufferBytes := hchunks pcm List.mem_cons_self
      unfold sinkCalls partCalls sdPcmSinkWriteChunk
      rw [if_neg (by simp [hopen, hlen]), Prog.bind_assoc, Prog.bind_assoc]
      congr 1
      funext r
      simp only [Prog.pure_eq, Prog.bind_ret]
      split
      · rfl
      · exact ih hopen hrest
    | flush =>
      unfold sinkCalls partCalls sdPcmSinkFlush
      rw [if_neg (by simp [hopen]), Prog.bind_assoc]
      congr 1
      funext flushed
      split
      · rfl
      · exact ih hopen hrest

theorem WrittenSegment.complete (h : WrittenSegment part calls c sink c₁)
    (hfit : wavHeaderSize + (recordedPayload calls).length < 2 ^ 32) :
    Complete part (recordedPayload calls) c sink c₁ := by
  obtain ⟨hchunks, sink₀, c₀, hopen, hcalls⟩ := h
  have hfirst : sink₀ = ⟨⟨part, 0, true⟩, true⟩ ∧ c₀ = freshPart part wavHeaderSize c := by
    have hwp : device.wp (fun _ => False) (fun _ => True) (sdPcmSinkOpen .closed part) (fun r c' => r.1 = true →
        r.2 = ⟨⟨part, 0, true⟩, true⟩ ∧ c' = freshPart part wavHeaderSize c) c := by
      unfold sdPcmSinkOpen
      rw [wp_bind]
      exact wp_wavPartOpen trivial (fun _ => trivial) (fun _ _ _ => ⟨rfl, rfl⟩) fun _ => ⟨by simp, by simp⟩
    have hsat := eval_sat _ hwp
    rw [hopen] at hsat
    exact hsat rfl
  obtain ⟨rfl, rfl⟩ := hfirst
  have hfile : (freshPart part wavHeaderSize c).file? part = some (wavPartBuildHeader 0) := by
    rw [freshPart, Card.file?_put, ← wavPartBuildHeader_length 0, List.take_length]
  have halone : Alone part c (freshPart part wavHeaderSize c) := by
    intro q hq
    rw [freshPart, Card.lookup_put, if_neg hq]
  have hwp : device.wp (fun _ => False) (fun _ => True) (sinkCalls calls ⟨⟨part, 0, true⟩, true⟩)
      (fun sink c' => Complete part (recordedPayload calls) c sink c') (freshPart part wavHeaderSize c) := by
    rw [sinkCalls_eq calls rfl hchunks, wp_bind]
    apply wp_partCalls calls rfl (Recording.start part calls) hfile halone (fun _ _ => trivial)
    · intro part' data' c' hpath hopen' hfile' halone' h'
      obtain ⟨hd, pcm, hfixed, rfl, hpcm, hcount⟩ := h'.given (Or.inr hfit)
      rw [List.append_nil] at hpcm
      subst hpcm
      exact ⟨rfl, hopen', hpath, halone', ⟨hd, hfixed, hfile'⟩, hcount.symm⟩
    · exact fun hA => absurd hA not_ioFault_false
  have hsat := eval_sat _ hwp
  rwa [hcalls] at hsat

/-- The payload of whole chunks is whole samples. -/
theorem recordedPayload_whole (calls : List SinkCall) : (recordedPayload calls).length % bytesPerSample = 0 := by
  induction calls with
  | nil => rfl
  | cons call calls ih =>
    cases call with
    | write pcm =>
      rw [recordedPayload, List.length_append, wholeSamples_length]
      simp only [bytesPerSample] at ih ⊢
      omega
    | flush => exact ih

end Segment

section Finalize

/-- Repeated calls of `wavRotationFinalizeOnce`, with the result of the last. -/
def finalizeTimes : ℕ → RotationState → Sink → Sys Bool
  | 0, state, _ => return state.finalizedOk
  | n + 1, state, sink => do
    let r ← wavRotationFinalizeOnce state sink
    finalizeTimes n r.2.1 r.2.2

variable {part wav : Path} {payload : Bytes} {sink : Sink} {state : RotationState} {c c₁ c' : Card} {A : Fault → Prop}

theorem finalizeTimes_called (n : ℕ) (hcalled : state.finalizeCalled = true) :
    finalizeTimes n state sink = .ret state.finalizedOk := by
  induction n with
  | zero => rfl
  | succ n ih =>
    rw [finalizeTimes, wavRotationFinalizeOnce, finalizeOnce, if_pos hcalled]
    exact ih

/-- Every call after the first gives the first result again, and does nothing. -/
theorem finalizeTimes_succ (n : ℕ) (state : RotationState) (sink : Sink) :
    finalizeTimes (n + 1) state sink = wavRotationFinalizeOnce state sink >>= fun r => .ret r.1 := by
  rw [finalizeTimes]
  unfold wavRotationFinalizeOnce finalizeOnce
  split
  case isTrue hcalled => exact finalizeTimes_called n hcalled
  case isFalse =>
    dsimp only
    split
    · exact finalizeTimes_called n rfl
    · rw [Prog.bind_assoc, Prog.bind_assoc]
      congr 1
      funext closed
      split
      · exact finalizeTimes_called n rfl
      · rw [Prog.bind_assoc, Prog.bind_assoc]
        congr 1
        funext renamed
        exact finalizeTimes_called n rfl

/-- The recording of a payload. -/
def recording (payload : Bytes) : Bytes := wavPartBuildHeader payload.length ++ payload

/-- The segment's file is still its part, with a header of the format, or is finalized; the card is else as it was. -/
def PartOrWav (part wav : Path) (payload : Bytes) (c c' : Card) : Prop :=
  (∃ h, FixedHeader h ∧ Moved c c' part part (h ++ payload)) ∨ Moved c c' part wav (recording payload)

theorem wavRotationStateInit_eq (hname : wavRotationPartToWav part maxPathLen = some wav) (hlen : part.length < maxPathLen) :
    wavRotationStateInit part wav = ⟨part, wav, false, false⟩ := by
  have hwav : wav.length ≤ part.length := by
    simp only [wavRotationPartToWav, Option.ite_none_left_eq_some, Option.some.injEq] at hname
    rw [← hname.2.2, List.length_take]
    omega
  rw [wavRotationStateInit, if_neg]
  simp [hasPartSuffix_of_partToWav hname, hasWavSuffix_of_partToWav hname]
  omega

/-- Wherever power goes, the first call leaves the part or the recording; without a fault it ends with the recording. -/
theorem wp_wavRotationFinalizeOnce (h : Complete part payload c sink c₁)
    (hname : wavRotationPartToWav part maxPathLen = some wav) (hlen : part.length < maxPathLen)
    (hfree : c.vol.lookup wav = none) :
    device.wp (fun _ => False) (PartOrWav part wav payload c₁) (wavRotationFinalizeOnce (wavRotationStateInit part wav) sink)
      (fun r c' => r.1 = true ∧ Moved c₁ c' part wav (recording payload)) c₁ := by
  obtain ⟨hopen, hwavOpen, rfl, halone, ⟨hd, hfixed, hfile⟩, hcount⟩ := h
  have hne : wav ≠ sink.wav.path := by
    rintro rfl
    exact partToWav_ne hname
  have hpatch : ∀ n, sink.wav.patch n c₁ =
      c₁.put sink.wav.path (.file ((sink.wav.header.take n ++ hd.drop n) ++ payload)) := by
    intro n
    rw [WavPart.patch, Card.writeAt, hfile]
    simp only [overwrite_mix (sink.wav.header_length.trans hfixed.length.symm)]
  have hpart : ∀ n, PartOrWav sink.wav.path wav payload c₁ (sink.wav.patch n c₁) := by
    intro n
    rw [hpatch]
    exact Or.inl ⟨_, (wavPartBuildHeader_fixed sink.wav.pcmBytes.toNat).mix hfixed n, moved_put⟩
  have hbefore : PartOrWav sink.wav.path wav payload c₁ c₁ := Or.inl ⟨hd, hfixed, moved_self hfile⟩
  have hdone : sink.wav.patch wavHeaderSize c₁ = c₁.put sink.wav.path (.file (recording payload)) := by
    rw [hpatch, List.take_of_length_le sink.wav.header_length.le, List.drop_of_length_le hfixed.length.le, List.append_nil,
      WavPart.header, hcount]
    rfl
  have hfree₁ : (c₁.put sink.wav.path (.file (recording payload))).vol.lookup wav = none := by
    rw [Card.lookup_put, if_neg hne, halone wav hne, hfree]
  have hwavne : wav ≠ [] := by
    rintro rfl
    exact absurd (hasWavSuffix_of_partToWav hname) (by with_unfolding_all decide)
  have hpartne : sink.wav.path ≠ [] := by
    intro hnil
    rw [hnil] at hname
    exact absurd (hasPartSuffix_of_partToWav hname) (by with_unfolding_all decide)
  have hclose : ∀ Q : Bool × Sink → Card → Prop, Q (true, ⟨{ sink.wav with opened := false }, false⟩)
      (c₁.put sink.wav.path (.file (recording payload))) →
      device.wp (fun _ => False) (PartOrWav sink.wav.path wav payload c₁) (sdPcmSinkClose sink) Q c₁ := by
    intro Q hQ
    unfold sdPcmSinkClose
    rw [if_neg (by simp [hopen]), wp_bind]
    exact wp_wavPartClose hwavOpen hbefore hpart (hdone ▸ hQ) fun hA => absurd hA not_ioFault_false
  rw [wavRotationStateInit_eq hname hlen]
  unfold wavRotationFinalizeOnce finalizeOnce
  simp only [Bool.false_eq_true, if_false, hwavne, hpartne, or_self]
  rw [wp_bind]
  apply hclose
  simp only [Bool.not_true, Bool.false_eq_true, if_false]
  rw [wp_bind]
  apply wp_wavRotationFinalizePaths hfree₁ (hdone ▸ hpart wavHeaderSize)
  · intro data hdata _
    rw [Card.lookup_put, if_pos rfl] at hdata
    obtain rfl : recording payload = data := by simpa using hdata
    exact ⟨rfl, moved_put.trans moved_move⟩
  · rintro (hA | hgone | hbad)
    · exact absurd hA not_ioFault_false
    · rw [Card.file?_put] at hgone
      cases hgone
    · exact absurd hname hbad

end Finalize

section Recover

variable {part wav quarantineDir : Path} {payload : Bytes} {c c' : Card}

/-- The card after a number of fault-free recoveries. -/
def recoverTimes (part wav quarantineDir : Path) : ℕ → Card → Card
  | 0, c => c
  | n + 1, c => recoverTimes part wav quarantineDir n (device.eval (wavRecoveryRecoverFile part wav quarantineDir) c).2

theorem LongestSamples.eq_of_whole {left pcm : Bytes} (h : LongestSamples left pcm) (hwhole : left.length % bytesPerSample = 0) :
    pcm = left := by
  apply h.isPrefix.eq_of_length
  have hle := h.isPrefix.length_le
  have hpcm := h.whole
  have hlt := h.longest
  simp only [bytesPerSample] at *
  omega

theorem eval_pathExistsLocal (p : Path) (c : Card) : device.eval (pathExistsLocal p) c = ((c.vol.lookup p).isSome, c) := by
  have hstat : device.eval (stat p) c = (c.statAns p, c) := rfl
  rw [pathExistsLocal, eval_bind, hstat]
  cases hl : c.vol.lookup p with
  | none => simp [Card.statAns, hl, eval]
  | some n => cases n <;> simp [Card.statAns, hl, eval]

/-- A part that power has left behind is recovered as the recording of its whole payload. -/
theorem recover_part {h : Bytes} (hfixed : FixedHeader h) (hmoved : Moved c c' part part (h ++ payload))
    (hwhole : payload.length % bytesPerSample = 0) (hsize : wavHeaderSize + payload.length < 2 ^ 31)
    (hname : wavRotationPartToWav part maxPathLen = some wav) (hne : quarantineDir ≠ []) (hfree : c.vol.lookup wav = none) :
    Moved c (device.eval (wavRecoveryRecoverFile part wav quarantineDir) c').2 part wav (recording payload) := by
  have hwav : wav ≠ part := by
    rintro rfl
    exact partToWav_ne hname
  have hlt : (h ++ payload).length < 2 ^ 31 := by
    rw [List.length_append, hfixed.length]
    exact hsize
  have hfree' : c'.vol.lookup wav = none := by rw [hmoved, if_neg hwav, if_neg hwav, hfree]
  obtain ⟨pcm, hlongest, -, -, hrecovered⟩ := eval_recoverFile_recorded hfixed hmoved.file? hlt hname hne hfree'
  obtain rfl := hlongest.eq_of_whole hwhole
  exact hmoved.trans hrecovered

/-- A finalized segment is left as it is. -/
theorem recover_wav {data : Bytes} (hmoved : Moved c c' part wav data)
    (hname : wavRotationPartToWav part maxPathLen = some wav) (hne : quarantineDir ≠ []) :
    (device.eval (wavRecoveryRecoverFile part wav quarantineDir) c').2 = c' := by
  have hwav : part ≠ wav := by
    rintro rfl
    exact partToWav_ne hname
  have hwavne : wav ≠ [] := by
    rintro rfl
    exact absurd (hasWavSuffix_of_partToWav hname) (by with_unfolding_all decide)
  have hgone : c'.vol.lookup part = none := by rw [hmoved, if_neg hwav, if_pos rfl]
  rw [wavRecoveryRecoverFile, if_neg (by simp [hasPartSuffix_of_partToWav hname, hwavne, hne, hname]), eval_bind,
    eval_pathExistsLocal, hgone]
  simp only [Option.isSome_none, Bool.not_false, if_true]
  rw [eval_bind, eval_pathExistsLocal]
  rfl

theorem recoverTimes_wav {data : Bytes} (n : ℕ) (hmoved : Moved c c' part wav data)
    (hname : wavRotationPartToWav part maxPathLen = some wav) (hne : quarantineDir ≠ []) :
    recoverTimes part wav quarantineDir n c' = c' := by
  induction n with
  | zero => rfl
  | succ n ih => rw [recoverTimes, recover_wav hmoved hname hne, ih]

/-- One recovery or more end with the recording. -/
theorem recoverTimes_partOrWav (n : ℕ) (h : PartOrWav part wav payload c c')
    (hwhole : payload.length % bytesPerSample = 0) (hsize : wavHeaderSize + payload.length < 2 ^ 31)
    (hname : wavRotationPartToWav part maxPathLen = some wav) (hne : quarantineDir ≠ []) (hfree : c.vol.lookup wav = none) :
    Moved c (recoverTimes part wav quarantineDir (n + 1) c') part wav (recording payload) := by
  rw [recoverTimes]
  rcases h with ⟨hd, hfixed, hmoved⟩ | hmoved
  · have hrecovered := recover_part hfixed hmoved hwhole hsize hname hne hfree
    rw [recoverTimes_wav n hrecovered hname hne]
    exact hrecovered
  · rw [recover_wav hmoved hname hne, recoverTimes_wav n hmoved hname hne]
    exact hmoved

end Recover

section Spares

/-- No call of a program edits what is at `q`. -/
abbrev Spares {α : Type} (q : Path) (p : Sys α) : Prop := Only (fun o => o.edits q = false) p

variable {part wav quarantineDir q : Path} {state : RotationState} {sink : Sink}

theorem spares_op {o : Call} (h : o.edits q = false) : Spares q (.op o : Sys o.Ans) := .call o _ h fun r => .ret r

/-- The calls on a part's own file edit nothing else. -/
theorem HeaderCalls.spares {α : Type} {p : Sys α} (h : HeaderCalls part p) (hq : q ≠ part) : Spares q p := by
  refine h.mono fun o ho => ?_
  have hpart := ho.1
  cases o with
  | fopen p m =>
    obtain rfl : p = part := by simpa [partCall] using hpart
    cases m <;> simp [Call.edits, hq.symm]
  | fwrite p pos d =>
    obtain rfl : p = part := by simpa [partCall] using hpart
    simp [Call.edits, hq.symm]
  | _ => first | rfl | simp [partCall] at hpart

theorem spares_pathExists (path : Path) : Spares q (pathExists path) := by
  refine Only.bind (spares_op rfl) fun fp => ?_
  split
  · exact .ret _
  · exact Only.bind (spares_op rfl) fun _ => .ret _

theorem spares_rename (hq : q ≠ part) (dest : Path) : Spares q (rename part dest) :=
  spares_op (by simp [Call.edits, hq.symm])

theorem spares_finalizePaths (hq : q ≠ part) (wav : Path) : Spares q (wavRotationFinalizePaths part wav) := by
  unfold wavRotationFinalizePaths
  split
  · exact .ret _
  · refine Only.bind (spares_pathExists _) fun partPresent => ?_
    refine Only.bind (spares_pathExists _) fun wavPresent => ?_
    split
    · split
      · exact .ret _
      · refine Only.bind (spares_rename hq _) fun r => ?_
        cases r <;> exact .ret _
    · exact .ret _

/-- Finalizing a segment, any number of times, edits its part only. -/
theorem spares_finalizeTimes (n : ℕ) (hstate : state.partPath = part) (hpath : sink.wav.path = part) (hq : q ≠ part) :
    Spares q (finalizeTimes n state sink) := by
  cases n with
  | zero => exact .ret _
  | succ n =>
    rw [finalizeTimes_succ]
    refine Only.bind ?_ fun r => .ret _
    unfold wavRotationFinalizeOnce finalizeOnce
    split
    · exact .ret _
    · dsimp only
      split
      · exact .ret _
      · refine Only.bind ?_ fun closed => ?_
        · unfold sdPcmSinkClose
          split
          · exact .ret _
          · exact Only.bind (HeaderCalls.spares (headerCalls_close sink.wav) (hpath ▸ hq)) fun r => .ret _
        · split
          · exact .ret _
          · exact Only.bind (hstate ▸ spares_finalizePaths hq _) fun renamed => .ret _

theorem spares_pathExistsLocal (path : Path) : Spares q (pathExistsLocal path) := by
  refine Only.bind (spares_op rfl) fun r => ?_
  cases r <;> exact .ret _

theorem spares_fileSizeLocal (path : Path) : Spares q (fileSizeLocal path) := by
  refine Only.bind (spares_op rfl) fun r => ?_
  cases r with
  | error e => exact .ret _
  | ok st =>
    dsimp only
    split <;> exact .ret _

theorem spares_renameOk (hq : q ≠ part) (dest : Path) : Spares q (renameOk part dest) := by
  refine Only.bind (spares_rename hq dest) fun r => ?_
  cases r <;> exact .ret _

theorem spares_ensureDir (dir : Path) : Spares q (wavRecoveryEnsureDir dir) := by
  unfold wavRecoveryEnsureDir
  split
  · exact .ret _
  · refine Only.bind (spares_op rfl) fun r => ?_
    split
    · exact .ret _
    · refine Only.bind (spares_op rfl) fun r => ?_
      cases r <;> exact .ret _
    · exact .ret _

theorem spares_numberedMove (hq : q ≠ part) (n i : ℕ) : Spares q (quarantineNumberedMove part quarantineDir n i) := by
  induction n generalizing i with
  | zero => exact .ret _
  | succ n ih =>
    unfold quarantineNumberedMove
    split
    · exact .ret _
    · refine Only.bind (spares_pathExistsLocal _) fun taken => ?_
      split
      · exact spares_renameOk hq _
      · exact ih _

theorem spares_quarantineOutcome (hq : q ≠ part) : Spares q (quarantineOutcome part quarantineDir) := by
  refine Only.bind ?_ fun moved => .ret _
  unfold quarantineMove
  split
  · exact .ret _
  · refine Only.bind (spares_ensureDir _) fun ready => ?_
    split
    · exact .ret _
    · split
      · exact .ret _
      · refine Only.bind (spares_pathExistsLocal _) fun taken => ?_
        split
        · exact spares_renameOk hq _
        · exact spares_numberedMove hq _ _

theorem spares_rewriteHeader (hq : q ≠ part) (pcm : ℕ) : Spares q (rewriteHeaderWithSync part pcm) := by
  have hclose : Spares q (closeFailed part) := Only.bind (spares_op rfl) fun _ => .ret _
  refine Only.bind (spares_op rfl) fun fp => ?_
  split
  · exact .ret _
  · refine Only.bind (spares_op rfl) fun rewound => ?_
    split
    · exact hclose
    · refine Only.bind (spares_op (by simp [Call.edits, hq.symm])) fun wrote => ?_
      split
      · exact hclose
      · refine Only.bind (spares_op rfl) fun flushed => ?_
        split
        · exact hclose
        · refine Only.bind (spares_op rfl) fun synced => ?_
          split
          · exact hclose
          · refine Only.bind (spares_op rfl) fun closed => ?_
            split
            · exact .ret _
            · refine Only.bind ?_ fun _ => .ret _
              refine Only.bind (spares_fileSizeLocal part) fun size => ?_
              cases size with
              | none => exact .ret _
              | some size =>
                dsimp only
                split
                · exact Only.bind (spares_op (by simp [Call.edits, hq.symm])) fun _ => .ret _
                · exact .ret _

/-- Recovering a part edits that part only. -/
theorem spares_recoverFile (hq : q ≠ part) : Spares q (wavRecoveryRecoverFile part wav quarantineDir) := by
  have hquarantine : Spares q (quarantineOutcome part quarantineDir) := spares_quarantineOutcome hq
  have hheader : Spares q (readPartHeader part) := by
    refine Only.bind (spares_op rfl) fun probe => ?_
    split
    · exact .ret _
    · refine Only.bind (spares_op rfl) fun got => ?_
      exact Only.bind (spares_op rfl) fun _ => .ret _
  have hrecover : Spares q (recoverPart part wav quarantineDir) := by
    refine Only.bind (spares_fileSizeLocal part) fun size => ?_
    cases size with
    | none => exact hquarantine
    | some size =>
      dsimp only
      split
      · exact hquarantine
      · refine Only.bind hheader fun header => ?_
        cases header with
        | none => exact .ret _
        | some header =>
          dsimp only
          split
          · exact hquarantine
          · refine Only.bind (spares_rewriteHeader hq _) fun rewritten => ?_
            split
            · exact .ret _
            · refine Only.bind (spares_rename hq _) fun r => ?_
              split
              · exact .ret _
              · exact hquarantine
              · exact .ret _
  unfold wavRecoveryRecoverFile
  split
  · exact .ret _
  · refine Only.bind (spares_pathExistsLocal _) fun partPresent => ?_
    split
    · exact Only.bind (spares_pathExistsLocal _) fun _ => .ret _
    · refine Only.bind (spares_pathExistsLocal _) fun wavPresent => ?_
      split
      · exact hquarantine
      · exact hrecover

/-- What a program spares is there after any run of it, however it ends. -/
theorem Spares.run {α : Type} {p : Sys α} (h : Spares q p) (es : List (Event Fault)) {c : Card} {n : Node}
    (hn : c.vol.lookup q = some n) : (device.run p es c).state.vol.lookup q = some n :=
  (Outcome.sat_state (fun c' : Card => c'.vol.lookup q = some n) _).mp
    (run_sat (A := fun _ => True) p es (wp_keeps h hn) fun _ _ _ _ => trivial)

end Spares

section Crash

variable {part wav quarantineDir : Path} {calls : List SinkCall} {sink : Sink} {c c₁ : Card}

/-- A segment of less than 2 GiB whose finalized name is free: the uninterrupted finalize makes the recording of its payload,
and so does any number of calls in which power is lost at any byte, followed by one recovery or more. On any card, and under
any faults, neither of them changes, moves or replaces anything but the part. -/
theorem wavRotationFinalizeOnce_crashRecovery (hsegment : WrittenSegment part calls c sink c₁)
    (hsize : wavHeaderSize + (recordedPayload calls).length < 2 ^ 31)
    (hname : wavRotationPartToWav part maxPathLen = some wav) (hlen : part.length < maxPathLen)
    (hne : quarantineDir ≠ []) (hfree : c.vol.lookup wav = none) :
    ((device.eval (wavRotationFinalizeOnce (wavRotationStateInit part wav) sink) c₁).1.1 = true ∧
      Moved c₁ (device.eval (wavRotationFinalizeOnce (wavRotationStateInit part wav) sink) c₁).2 part wav
        (recording (recordedPayload calls))) ∧
    (∀ (n k : ℕ) (es : List (Event Fault)), Admits (fun _ => False) es →
      Moved c₁ (recoverTimes part wav quarantineDir (k + 1)
        (device.run (finalizeTimes n (wavRotationStateInit part wav) sink) es c₁).state) part wav
        (recording (recordedPayload calls))) ∧
    ∀ (n : ℕ) (es : List (Event Fault)) (x : Card) (q : Path) (node : Node), q ≠ part → x.vol.lookup q = some node →
      (device.run (finalizeTimes n (wavRotationStateInit part wav) sink) es x).state.vol.lookup q = some node ∧
      (device.run (wavRecoveryRecoverFile part wav quarantineDir) es x).state.vol.lookup q = some node := by
  have hcomplete := hsegment.complete (by omega)
  have hwav : wav ≠ part := by
    rintro rfl
    exact partToWav_ne hname
  have honce := wp_wavRotationFinalizeOnce hcomplete hname hlen hfree
  refine ⟨eval_sat _ honce, fun n k es hes => ?_, fun n es x q node hq hn => ⟨?_, ?_⟩⟩
  · have htimes : device.wp (fun _ => False) (PartOrWav part wav (recordedPayload calls) c₁)
        (finalizeTimes n (wavRotationStateInit part wav) sink)
        (fun _ => PartOrWav part wav (recordedPayload calls) c₁) c₁ := by
      cases n with
      | zero =>
        obtain ⟨hd, hfixed, hfile⟩ := hcomplete.held
        exact Or.inl ⟨hd, hfixed, moved_self hfile⟩
      | succ n =>
        rw [finalizeTimes_succ, wp_bind]
        exact wp_mono _ honce fun _ _ h => Or.inr h.2
    have hstate := (Outcome.sat_state _ _).mp (run_sat _ es htimes hes)
    refine recoverTimes_partOrWav k hstate (recordedPayload_whole calls) hsize hname hne ?_
    rw [hcomplete.alone wav hwav, hfree]
  · refine (spares_finalizeTimes n ?_ hcomplete.path hq).run es hn
    rw [wavRotationStateInit_eq hname hlen]
  · exact (spares_recoverFile hq).run es hn

section Limits

/-- Calls on whole chunks are a written segment where the part can be opened. -/
theorem writtenSegment_eval (part : Path) (c : Card) (hchunks : ∀ data, .write data ∈ calls → data.length = bufferBytes)
    (hopen : (device.eval (sdPcmSinkOpen .closed part) c).1.1 = true) :
    ∃ sink c₁, WrittenSegment part calls c sink c₁ := by
  rcases hr : device.eval (sdPcmSinkOpen .closed part) c with ⟨⟨ok, sink₀⟩, c₀⟩
  rw [hr] at hopen
  obtain rfl : ok = true := hopen
  exact ⟨_, _, hchunks, sink₀, c₀, hr, rfl⟩

/-- A segment of 2 GiB that loses power before its header is patched. -/
theorem crashRecovery_huge (hsegment : WrittenSegment part calls c sink c₁)
    (hhuge : wavHeaderSize + (recordedPayload calls).length = 2 ^ 31 + 44)
    (hname : wavRotationPartToWav part maxPathLen = some wav) (hlen : part.length < maxPathLen) (hne : quarantineDir ≠ [])
    (hfree : c.vol.lookup wav = none) (hout : ∀ n, wav ≠ join quarantineDir n) (hdir : wav ≠ quarantineDir) :
    (device.eval (wavRotationFinalizeOnce (wavRotationStateInit part wav) sink) c₁).2.file? wav =
      some (recording (recordedPayload calls)) ∧
    (recoverTimes part wav quarantineDir 1
      (device.run (finalizeTimes 1 (wavRotationStateInit part wav) sink) [.cut 0] c₁).state).vol.lookup wav = none := by
  have hwav : wav ≠ part := by
    rintro rfl
    exact partToWav_ne hname
  have hcomplete := hsegment.complete (by omega)
  have hfinal := (eval_sat _ (wp_wavRotationFinalizeOnce hcomplete hname hlen hfree)).2
  obtain ⟨hopen, hwavOpen, rfl, halone, ⟨hd, hfixed, hfile⟩, -⟩ := hcomplete
  have hcut : (device.run (finalizeTimes 1 (wavRotationStateInit sink.wav.path wav) sink) [.cut 0] c₁).state = c₁ := by
    have hwavne : wav ≠ [] := by
      rintro rfl
      exact absurd (hasWavSuffix_of_partToWav hname) (by with_unfolding_all decide)
    have hpartne : sink.wav.path ≠ [] := by
      intro hnil
      rw [hnil] at hname
      exact absurd (hasPartSuffix_of_partToWav hname) (by with_unfolding_all decide)
    rw [finalizeTimes_succ, wavRotationFinalizeOnce, finalizeOnce, wavRotationStateInit_eq hname hlen, sdPcmSinkClose,
      wavPartClose]
    simp only [hopen, hwavOpen, hwavne, hpartne, Bool.not_true, Bool.false_eq_true, if_false, or_self]
    rfl
  refine ⟨hfinal.file?, ?_⟩
  rw [hcut]
  refine eval_recoverFile_huge hfile ?_ hname hne ?_ hout hdir
  · rw [List.length_append, hfixed.length]
    omega
  · rw [halone wav hwav, hfree]

/-- A finalized file of the segment's name, and a file where the quarantine directory should be. -/
def takenCard : Card := ⟨List.toAList [⟨lit "/r", .dir⟩, ⟨strayWav, .file []⟩, ⟨lit "/q", .file []⟩], false⟩

/-- A part whose name fits the path buffer only without its suffix. -/
def tightPart : Path := lit "/r/" ++ List.replicate 246 0x61 ++ partSuffix

def tightWav : Path := lit "/r/" ++ List.replicate 246 0x61 ++ wavSuffix

/-- The card after an open part has been finalized, and after it has lost power before that and been recovered. -/
def finalizedAndRecovered (part wav : Path) (c : Card) : Card × Card :=
  let r := device.eval (sdPcmSinkOpen .closed part) c
  ((device.eval (wavRotationFinalizeOnce (wavRotationStateInit part wav) r.1.2) r.2).2,
    recoverTimes part wav (lit "/q") 1
      (device.run (finalizeTimes 1 (wavRotationStateInit part wav) r.1.2) [.cut 0] r.2).state)

/-- A segment of 2 GiB has no recording when power is lost before its header is patched. Where the finalized name is taken
and quarantine cannot be made, the part stays. A part whose name is too long for the rotation is finalized by recovery only. -/
theorem wavRotationFinalizeOnce_crashRecovery_limits :
    (∃ sink c₁, WrittenSegment strayPart hugeCalls strayCard sink c₁ ∧
      (device.eval (wavRotationFinalizeOnce (wavRotationStateInit strayPart strayWav) sink) c₁).2.file? strayWav ≠ none ∧
      (recoverTimes strayPart strayWav (lit "/q") 1
        (device.run (finalizeTimes 1 (wavRotationStateInit strayPart strayWav) sink) [.cut 0] c₁).state).vol.lookup
          strayWav = none) ∧
    (finalizedAndRecovered strayPart strayWav takenCard).2.vol.lookup strayPart ≠ none ∧
    ((finalizedAndRecovered tightPart tightWav strayCard).1.vol.lookup tightWav = none ∧
      (finalizedAndRecovered tightPart tightWav strayCard).2.vol.lookup tightWav ≠ none) := by
  refine ⟨?_, by decide +kernel, by decide +kernel, by decide +kernel⟩
  have hchunks : ∀ data, .write data ∈ hugeCalls → data.length = bufferBytes := by
    intro data hdata
    have heq := List.eq_of_mem_replicate hdata
    rw [(SinkCall.write.injEq ..).mp heq, List.length_replicate]
  obtain ⟨sink, c₁, hsegment⟩ := writtenSegment_eval strayPart strayCard hchunks (by decide +kernel)
  have hboth := crashRecovery_huge hsegment hugeCalls_length (by decide +kernel) (by decide +kernel)
    (by with_unfolding_all decide) strayWav_free strayWav_ne_join (by with_unfolding_all decide)
  refine ⟨sink, c₁, hsegment, ?_, hboth.2⟩
  rw [hboth.1]
  simp

end Limits

section CutPatch

/-- One chunk and a flush. -/
def chunkCalls : List SinkCall := [.write (List.replicate bufferBytes 1), .flush]

/-- Power is lost when six bytes of the header have been patched. -/
def patchEvents : List (Event Fault) := [.act none, .cut 6]

theorem chunkCalls_segment : ∃ sink c₁, WrittenSegment strayPart chunkCalls strayCard sink c₁ := by
  refine writtenSegment_eval strayPart strayCard (fun data hdata => ?_) (by decide +kernel)
  simp only [chunkCalls, List.mem_cons, SinkCall.write.injEq, reduceCtorEq, List.not_mem_nil, or_false] at hdata
  rw [hdata, List.length_replicate]

/-- Three calls, cut in the first, and two recoveries. -/
theorem wavRotationFinalizeOnce_crashRecovery_cut : ∃ sink c₁, WrittenSegment strayPart chunkCalls strayCard sink c₁ ∧
    Moved c₁ (recoverTimes strayPart strayWav (lit "/q") 2
      (device.run (finalizeTimes 3 (wavRotationStateInit strayPart strayWav) sink) patchEvents c₁).state) strayPart strayWav
      (recording (recordedPayload chunkCalls)) := by
  obtain ⟨sink, c₁, hsegment⟩ := chunkCalls_segment
  have hlen : (recordedPayload chunkCalls).length ≤ bufferBytes := by
    simp only [chunkCalls, recordedPayload, List.append_nil, wholeSamples_length, List.length_replicate]
    omega
  have hb : bufferBytes = 32768 := rfl
  have hwav : wavHeaderSize = 44 := rfl
  refine ⟨sink, c₁, hsegment, (wavRotationFinalizeOnce_crashRecovery hsegment (by omega) (by decide +kernel) (by decide +kernel)
    (by with_unfolding_all decide) strayWav_free).2.1 3 1 patchEvents ?_⟩
  intro f hf x hx
  simp only [patchEvents, List.mem_cons, Event.act.injEq, reduceCtorEq, List.not_mem_nil, or_false] at hf
  rw [hf] at hx
  cases hx

end CutPatch

end Crash

end M5DayLog
