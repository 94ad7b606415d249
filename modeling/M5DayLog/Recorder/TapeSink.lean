import M5DayLog.Recorder.Tape

/-! The open segment on the card, from the creation of its part to the rename: what each call on the sink makes of it, whatever
fails, wherever power is lost, and whatever the capture and the other tasks do meanwhile. -/

namespace M5DayLog

open Bytes Fat Device

namespace Audio

section Steps

variable {s : Tape} {part : Path} {sink : Sink} {whole : Bool} {more data pcm header : Bytes} {n : ℕ}

/-- A header goes over a header, and the payload stays. -/
theorem overwrite_header {patch : Bytes} (pcm : Bytes) (hlen : header.length = wavHeaderSize) (hpatch : patch.length ≤ wavHeaderSize) :
    ∃ header', header'.length = wavHeaderSize ∧ Card.overwrite 0 patch (header ++ pcm) = header' ++ pcm ∧
      (patch.length = wavHeaderSize → header' = patch) := by
  refine ⟨patch ++ header.drop patch.length, ?_, ?_, ?_⟩
  · rw [List.length_append, List.length_drop, hlen]
    omega
  · have hdrop : (header ++ pcm).drop patch.length = header.drop patch.length ++ pcm := by
      rw [List.drop_append_of_le_length (by omega)]
    simp [Card.overwrite, hdrop]
  · intro h
    rw [h, ← hlen, List.drop_length, List.append_nil]

/-- The segment keeps its payload, and is as sound as it was. -/
theorem Taping.reheaded (h : Taping whole part sink more s) {c : Card} {header' : Bytes}
    (hc : ∀ q, q ≠ part → c.vol.lookup q = s.card.vol.lookup q) (hfree : c.vol.lookup (wavName part) = none)
    (hold : s.card.vol.lookup part = some (.file (header ++ pcm))) (hlen : header.length = wavHeaderSize)
    (hfile : c.vol.lookup part = some (.file (header' ++ pcm))) (hlen' : header'.length = wavHeaderSize)
    (hcounts : whole = true → Counts sink.wav pcm) : Taping whole part sink more { s with card := c } := by
  obtain ⟨older, hparts⟩ := h.last
  have hpay : Tape.payload c part = Tape.payload s.card part := by
    rw [payload_part hfree hfile, payload_part h.free hold, ← hlen', List.drop_left, hlen', ← hlen, List.drop_left]
  have hkept := kept_append hparts
  have hsound : Tape.Sound { s with card := c } := by
    apply h.sound.edit hparts
    · exact fun q hq _ => hc q hq
    · rw [hpay, ← hkept]
      exact h.sound.released
    · rw [hpay, ← hkept]
      exact h.sound.accepted
  have hsame : Tape.kept { s with card := c } = s.kept := by
    rw [h.sound.kept_edit hparts fun q hq _ => hc q hq, hkept, hpay]
  refine ⟨hsound, ⟨older, hparts⟩, hfree, ⟨header', pcm, hlen', hfile, hcounts⟩, h.opened, ?_⟩
  rw [hsame]
  exact h.level

theorem Taping.name_ne (h : Taping whole part sink more s) : wavName part ≠ part := by
  obtain ⟨header, pcm, -, hfile, -⟩ := h.file
  intro heq
  rw [← heq, h.free] at hfile
  cases hfile

/-- Patching the header, to the end or not. -/
theorem Taping.patch (h : Taping whole part sink more s) (n : ℕ) :
    Taping whole part sink more { s with card := s.card.writeAt part 0 sink.wav.header n } ∧
      (n = wavHeaderSize → Patched part sink { s with card := s.card.writeAt part 0 sink.wav.header n }) := by
  obtain ⟨header, pcm, hlen, hfile, hcounts⟩ := h.file
  have hhdr := sink.wav.header_length
  have hpatch : (sink.wav.header.take n).length ≤ wavHeaderSize := by
    rw [List.length_take, hhdr]
    exact Nat.min_le_right _ _
  obtain ⟨header', hlen', hover, hwhole⟩ := overwrite_header pcm hlen hpatch
  have hnew := Card.file?_writeAt (d := sink.wav.header) (i := 0) (k := n) (Card.file?_eq_some.mpr hfile)
  rw [hover, Card.file?_eq_some] at hnew
  constructor
  · apply h.reheaded _ _ hfile hlen hnew hlen' hcounts
    · exact fun q hq => Card.lookup_writeAt hq
    · rw [Card.lookup_writeAt h.name_ne]
      exact h.free
  · rintro rfl
    refine ⟨pcm, hnew.trans ?_⟩
    rw [hwhole (by rw [List.length_take, hhdr, Nat.min_self]), ← hhdr, List.take_length]

theorem Taping.failed (h : Taping whole part sink more s) : Taping false part sink [] s where
  sound := h.sound
  last := h.last
  free := h.free
  file := by
    obtain ⟨header, pcm, hlen, hfile, -⟩ := h.file
    exact ⟨header, pcm, hlen, hfile, by simp⟩
  opened := h.opened
  level := by simp

/-- A write at the tail puts down the first bytes of the slot. -/
theorem Taping.append (h : Taping true part sink [] s) (hshown : Shown data s) (n : ℕ) :
    Taping false part sink [] { s with card := s.card.writeAt part sink.wav.tail data n } ∧
      ∃ header pcm, header.length = wavHeaderSize ∧ Counts sink.wav pcm ∧
        (s.card.writeAt part sink.wav.tail data n).vol.lookup part = some (.file (header ++ (pcm ++ data.take n))) ∧
        Tape.kept { s with card := s.card.writeAt part sink.wav.tail data n } = s.pcm.released ++ data.take n := by
  obtain ⟨older, hparts⟩ := h.last
  obtain ⟨header, pcm, hlen, hfile, hcounts⟩ := h.file
  have hcounts := hcounts rfl
  have htail : sink.wav.tail = (header ++ pcm).length := by
    rw [WavPart.tail, List.length_append, hlen, hcounts.length]
  have hnew := Card.file?_writeAt (d := data) (i := sink.wav.tail) (k := n) (Card.file?_eq_some.mpr hfile)
  have hover : Card.overwrite sink.wav.tail (data.take n) (header ++ pcm) = header ++ (pcm ++ data.take n) := by
    rw [htail, Card.overwrite, List.take_length, List.drop_eq_nil_of_le (by omega)]
    simp
  rw [hover, Card.file?_eq_some] at hnew
  have hframe : ∀ q, q ≠ part → (s.card.writeAt part sink.wav.tail data n).vol.lookup q = s.card.vol.lookup q :=
    fun q hq => Card.lookup_writeAt hq
  have hfree : (s.card.writeAt part sink.wav.tail data n).vol.lookup (wavName part) = none :=
    (hframe _ h.name_ne).trans h.free
  have hpay : Tape.payload (s.card.writeAt part sink.wav.tail data n) part = Tape.payload s.card part ++ data.take n := by
    rw [payload_part hfree hnew, payload_part h.free hfile, ← hlen, List.drop_left, List.drop_left]
  have hlevel : Tape.payloads s.card older ++ Tape.payload s.card part = s.pcm.released := by
    rw [← kept_append hparts, h.level rfl, List.append_nil]
  have hafter : Tape.payloads s.card older ++ Tape.payload (s.card.writeAt part sink.wav.tail data n) part =
      s.pcm.released ++ data.take n := by
    rw [hpay, ← List.append_assoc, hlevel]
  have hkept : Tape.kept { s with card := s.card.writeAt part sink.wav.tail data n } = s.pcm.released ++ data.take n :=
    (h.sound.kept_edit hparts fun q hq _ => hframe q hq).trans hafter
  have hsound : Tape.Sound { s with card := s.card.writeAt part sink.wav.tail data n } := by
    apply h.sound.edit hparts
    · exact fun q hq _ => hframe q hq
    · rw [hafter]
      exact List.prefix_append _ _
    · rw [hafter]
      apply List.IsPrefix.trans _ (hshown.accepted h.sound.conserves)
      exact (List.prefix_append_right_inj _).mpr (List.take_prefix n data)
  refine ⟨⟨hsound, ⟨older, hparts⟩, hfree, ⟨header, _, hlen, hnew, by simp⟩, h.opened, by simp⟩, header, pcm, hlen, hcounts, hnew, hkept⟩

/-- The whole slot is in, and the part counts it, unless the file has no room for it. -/
theorem Taping.appended (h : Taping true part sink [] s) (hshown : Shown data s) (hfits : sink.wav.tail + data.length < 2 ^ 32) :
    Taping true part { sink with wav := { sink.wav with pcmBytes := sink.wav.pcmBytes + bufferBytes.toUInt32 } } data
      { s with card := s.card.writeAt part sink.wav.tail data data.length } := by
  obtain ⟨ht, header, pcm, hlen, hcounts, hfile, hkept⟩ := h.append hshown data.length
  rw [List.take_length] at hfile hkept
  have hdata := hshown.length
  have hsize : bufferBytes = 32768 := rfl
  have hcount := hcounts.length
  simp only [WavPart.tail] at hfits
  refine ⟨ht.sound, ht.last, ht.free, ⟨header, pcm ++ data, hlen, hfile, fun _ => ⟨?_, ?_, ?_⟩⟩, h.opened, fun _ => hkept⟩
  · simp only [List.length_append, UInt32.toNat_add, Nat.toUInt32, UInt32.toNat_ofNat']
    omega
  · have heven := hcounts.even
    simp only [blockAlign, channelCount, bytesPerSample] at heven ⊢
    rw [List.length_append]
    omega
  · rw [List.length_append]
    omega

/-- The slot is given back. -/
theorem Taping.released (h : Taping true part sink data s) (hshown : Shown data s) :
    Taping true part sink [] { s with pcm := s.pcm.step .releaseFull } := by
  obtain ⟨i, hpeek, hslot⟩ := hshown
  have hrel : (s.pcm.step .releaseFull).released = s.pcm.released ++ data := by
    simp only [PcmRun.step, hpeek, Option.elim_some, hslot]
  have hkept := h.level rfl
  refine ⟨⟨PcmRun.conserves_step h.sound.conserves .releaseFull, h.sound.names, ?_, h.sound.accepted, h.sound.filed⟩, h.last, h.free, h.file,
    h.opened, ?_⟩
  · show (s.pcm.step .releaseFull).released <+: s.kept
    rw [hrel, hkept]
  · intro _
    show s.kept = (s.pcm.step .releaseFull).released ++ []
    rw [hrel, hkept, List.append_nil]

/-- The closed part, whose header counts its payload. -/
theorem Taping.closed (h : Taping whole part sink [] s) (hpatched : Patched part sink s) : Closed whole part s := by
  obtain ⟨pcm, hfile⟩ := hpatched
  refine ⟨h.sound, h.last, h.free, ⟨_, hfile, fun hwhole => ?_⟩, fun hwhole => by rw [h.level hwhole, List.append_nil]⟩
  obtain ⟨header, pcm', hlen, hfile', hcounts⟩ := h.file
  obtain ⟨hlength, heven, hfits⟩ := hcounts hwhole
  rw [hfile] at hfile'
  obtain ⟨-, rfl⟩ := List.append_inj (Node.file.inj (Option.some.inj hfile')) (sink.wav.header_length.trans hlen.symm)
  rw [WavPart.header, finalizedWav_patched pcm sink.wav.pcmBytes.toNat_lt (hlength ▸ heven) hfits]
  exact hlength

/-- The rename moves the segment to its finalized name. -/
theorem Closed.moved (h : Closed whole part s) (hfile : s.card.vol.lookup part = some (.file data)) :
    Tape.Sound { s with card := s.card.move part (wavName part) (.file data) } ∧
      (whole = true → Shelved { s with card := s.card.move part (wavName part) (.file data) }) := by
  obtain ⟨older, hparts⟩ := h.last
  obtain ⟨data', hfile', hwav⟩ := h.file
  obtain rfl : data = data' := by simpa [hfile] using hfile'
  set c := s.card.move part (wavName part) (.file data) with hc
  have hnew : c.file? (wavName part) = some data := Card.file?_eq_some.mpr (by simp [hc])
  have hframe : ∀ q, q ≠ part → q ≠ wavName part → c.vol.lookup q = s.card.vol.lookup q := by
    intro q hq hw
    simp [hc, hq, hw]
  have hpay : Tape.payload c part = Tape.payload s.card part := by
    rw [payload_wav hnew, payload_part h.free hfile]
  have hkept := kept_append hparts
  have hsame : Tape.kept { s with card := c } = s.kept := by
    rw [h.sound.kept_edit hparts hframe, hkept, hpay]
  have hsound : Tape.Sound { s with card := c } := by
    apply h.sound.edit hparts hframe
    · rw [hpay, ← hkept]
      exact h.sound.released
    · rw [hpay, ← hkept]
      exact h.sound.accepted
  refine ⟨hsound, fun hwhole => ⟨hsound, ?_, hsame.trans (h.level hwhole)⟩⟩
  intro q hq
  rw [show (Tape.parts { s with card := c }) = older ++ [part] from hparts, List.mem_append, List.mem_singleton] at hq
  rcases hq with hq | rfl
  · apply filed_congr (h.sound.frame hparts hframe) hq (h.sound.filed q _)
    rwa [hparts, List.dropLast_concat]
  · exact ⟨data, hnew, hwav hwhole⟩

end Steps

section Calls

theorem clash_act (o : TapeOp) (m : Moment) (s : Tape) (h : s.clash = true) : (s.act m o).2.clash = true := by
  cases o with
  | card o =>
    simp only [Tape.act, Tape.actCard, Tape.note]
    split
    · simp [Tape.meanwhile, h]
    · exact h
  | writer o => cases o <;> exact h

theorem clash_tapeAct (o : TapeOp) (f : Option Moment) (s : Tape) (h : s.clash = true) : (tape.act o f s).2.clash = true :=
  clash_act o _ s h

theorem clash_cut (o : TapeOp) (n : ℕ) (s : Tape) (h : s.clash = true) : (s.cut o n).clash = true := by
  cases o <;> exact h

/-- The programs over the calls on the card. Under a name that was taken already nothing is promised. -/
def cardLayer : Layer Call Call.Ans TapeOp TapeOp.Ans Tape Moment where
  device := tape
  carry := onCard
  crash := Tape.Sound
  excused s := s.clash = true
  excused_act := clash_tapeAct
  excused_cut := clash_cut

/-- What the other tasks do not break. -/
structure Stable (P : Tape → Prop) : Prop where
  sound : ∀ s, P s → s.Sound
  later : ∀ s s', P s → Later s s' → P s'

variable {P : Tape → Prop} {α : Type} {s : Tape} {part path : Path} {sink : Sink} {whole : Bool} {more data : Bytes}

theorem stable_sound : Stable Tape.Sound := ⟨fun _ h => h, fun _ _ h hl => h.later hl⟩

theorem stable_taping : Stable (Taping whole part sink more) := ⟨fun _ h => h.sound, fun _ _ h hl => h.later hl⟩

theorem stable_shown : Stable (fun s => Taping whole part sink more s ∧ Shown data s) :=
  ⟨fun _ h => h.1.sound, fun _ _ h hl => ⟨h.1.later hl, h.2.later h.1.sound hl⟩⟩

theorem stable_patched : Stable (fun s => Taping whole part sink more s ∧ Patched part sink s) :=
  ⟨fun _ h => h.1.sound, fun _ _ h hl => ⟨h.1.later hl, h.2.later h.1.last hl⟩⟩

theorem stable_closed : Stable (Closed whole part) := ⟨fun _ h => h.sound, fun _ _ h hl => h.later hl⟩

theorem stable_shelved : Stable Shelved := ⟨fun _ h => h.sound, fun _ _ h hl => h.later hl⟩

theorem Stable.and (hP : Stable P) (φ : Prop) : Stable (fun s => φ ∧ P s) :=
  ⟨fun _ h => hP.sound _ h.2, fun _ _ h hl => ⟨h.1, hP.later _ _ h.2 hl⟩⟩

theorem ensures_call {o : Call} {Q : o.Ans → Tape → Prop} (hP : Stable P)
    (hcut : ∀ s n, P s → Tape.Sound { s with card := device.cut o n s.card })
    (hact : ∀ s f, P s → (Tape.beyond o = true → ∃ code n, f = some (.io code n)) →
      (s.note o).clash = true ∨ Q (device.act o f s.card).1 { s.note o with card := (device.act o f s.card).2 }) :
    cardLayer.Ensures (.op o) P Q := by
  apply Layer.ensures_op
  intro s hs
  refine ⟨fun n => .inr (hcut s n hs), fun m _ => ?_⟩
  apply hact _ _ (hP.later _ _ hs (later_meanwhile _ s))
  intro hbeyond
  rw [if_pos hbeyond]
  exact ⟨28, _, rfl⟩

/-- A call that leaves the card as it is. -/
theorem ensures_idle {o : Call} (hP : Stable P) (hact : ∀ f c, (device.act o f c).2 = c) (hcut : ∀ n c, device.cut o n c = c)
    (hnote : ∀ s, Tape.note s o = s) : cardLayer.Ensures (.op o) P fun _ => P := by
  apply ensures_call hP
  · intro s n hs
    rw [hcut]
    exact hP.sound s hs
  · intro s f hs _
    rw [hact, hnote]
    exact .inr hs

theorem act_same {o : Call} (hcalm : ∀ c : Card, (c.calm o).2 = c) (hbroken : ∀ (c : Card) code n, (c.broken code n o).2 = c)
    (horder : ∀ c names error, (Card.act o (some (.order names error)) c).2 = c) (f : Option Fault) (c : Card) :
    (device.act o f c).2 = c := by
  rcases f with _ | ⟨code, n⟩ | ⟨names, error⟩
  · cases o <;> exact hcalm c
  · cases o <;> exact hbroken c code n
  · exact horder c names error

theorem ensures_fseek (hP : Stable P) (pos : ℕ) : cardLayer.Ensures (fseek path pos) P fun _ => P :=
  ensures_idle hP (act_same (fun _ => rfl) (fun _ _ _ => rfl) fun _ _ _ => rfl) (fun _ _ => rfl) fun _ => rfl

theorem ensures_fclose (hP : Stable P) : cardLayer.Ensures (fclose path) P fun _ => P :=
  ensures_idle hP (act_same (fun _ => rfl) (fun _ _ _ => rfl) fun _ _ _ => rfl) (fun _ _ => rfl) fun _ => rfl

theorem ensures_syncMedia (hP : Stable P) : cardLayer.Ensures (wavPartSyncMedia path) P fun _ => P := by
  apply Layer.ensures_bind (Q := fun _ => P)
  · exact ensures_idle hP (act_same (fun _ => rfl) (fun _ _ _ => rfl) fun _ _ _ => rfl) (fun _ _ => rfl) fun _ => rfl
  · intro flushed
    split
    · exact Layer.ensures_ret fun s hs => hs
    · exact ensures_idle hP (act_same (fun _ => rfl) (fun _ _ _ => rfl) fun _ _ _ => rfl) (fun _ _ => rfl) fun _ => rfl

/-- A write is whole or short, and never whole beyond the largest file. -/
theorem ensures_fwrite {pos : ℕ} {Q : ℕ → Tape → Prop} (hP : Stable P) (hdata : 0 < data.length)
    (hcut : ∀ s n, P s → Tape.Sound { s with card := s.card.writeAt path pos data n })
    (hact : ∀ s n, P s → n ≤ data.length → (n = data.length → pos + data.length < 2 ^ 32) →
      Q n { s with card := s.card.writeAt path pos data n }) : cardLayer.Ensures (fwrite path pos data) P Q := by
  apply ensures_call (o := .fwrite path pos data) hP hcut
  intro s f hs hbeyond
  right
  have hcalm (hf : f = none ∨ ∃ names error, f = some (.order names error)) : pos + data.length < 2 ^ 32 := by
    by_contra hlarge
    obtain ⟨code, n, hio⟩ := hbeyond (by simpa [Tape.beyond] using hlarge)
    rcases hf with rfl | ⟨names, error, rfl⟩ <;> cases hio
  rcases f with _ | ⟨code, n⟩ | ⟨names, error⟩
  · exact hact s data.length hs (le_refl _) fun _ => hcalm (.inl rfl)
  · exact hact s (min n (data.length - 1)) hs (by omega) (by omega)
  · exact hact s data.length hs (le_refl _) fun _ => hcalm (.inr ⟨names, error, rfl⟩)

theorem ensures_rewriteHeader : cardLayer.Ensures (wavPartRewriteHeader sink.wav) (Taping whole sink.wav.path sink more)
    fun b s => Taping whole sink.wav.path sink more s ∧ (b = true → Patched sink.wav.path sink s) := by
  have hhdr := sink.wav.header_length
  have hno (s : Tape) (hs : Taping whole sink.wav.path sink more s) :
      Taping whole sink.wav.path sink more s ∧ (false = true → Patched sink.wav.path sink s) := ⟨hs, by simp⟩
  unfold wavPartRewriteHeader
  apply Layer.ensures_bind (ensures_fseek stable_taping 0)
  intro rewound
  split
  · exact Layer.ensures_ret hno
  · apply Layer.ensures_bind
      (Q := fun n s => Taping whole sink.wav.path sink more s ∧ (n = wavHeaderSize → Patched sink.wav.path sink s))
    · apply ensures_fwrite stable_taping (by rw [hhdr]; decide)
      · exact fun s n hs => (hs.patch n).1.sound
      · exact fun s n hs _ _ => hs.patch n
    · intro wrote
      split
      · exact Layer.ensures_ret fun s hs => hno s hs.1
      case isFalse hwrote =>
        rw [not_not] at hwrote
        apply Layer.ensures_mono (R := fun s => Taping whole sink.wav.path sink more s ∧ Patched sink.wav.path sink s)
          (T := fun b s => Taping whole sink.wav.path sink more s ∧ (b = true → Patched sink.wav.path sink s))
        · apply Layer.ensures_bind (ensures_syncMedia stable_patched)
          intro synced
          split
          · exact Layer.ensures_ret fun s hs => hno s hs.1
          · exact Layer.ensures_mono (ensures_fseek stable_patched _) (fun s hs => hs) fun b s hs => ⟨hs.1, fun _ => hs.2⟩
        · exact fun s hs => ⟨hs.1, hs.2 hwrote⟩
        · exact fun b s hs => hs

theorem ensures_sinkFlush : cardLayer.Ensures (sdPcmSinkFlush sink) (Taping whole part sink more)
    fun _ => Taping whole part sink more := by
  intro s hs
  obtain ⟨hsink, hwav, rfl⟩ := hs.opened
  have hrun : cardLayer.Ensures (wavPartRewriteHeader sink.wav) (Taping whole sink.wav.path sink more)
      fun _ => Taping whole sink.wav.path sink more :=
    Layer.ensures_mono ensures_rewriteHeader (fun s hs => hs) fun b s hs => hs.1
  rw [sdPcmSinkFlush, hsink, wavPartFlush, hwav]
  exact hrun s hs

theorem ensures_sinkClose : cardLayer.Ensures (sdPcmSinkClose sink) (Taping whole part sink [])
    fun r s => s.Sound ∧ (r.1 = true → Closed whole part s) := by
  intro s hs
  obtain ⟨hsink, hwav, rfl⟩ := hs.opened
  have hrun : cardLayer.Ensures (do
      let r ← wavPartClose sink.wav
      return (r.1, (⟨r.2, false⟩ : Sink))) (Taping whole sink.wav.path sink [])
      fun r s => s.Sound ∧ (r.1 = true → Closed whole sink.wav.path s) := by
    apply Layer.ensures_bind (Q := fun r s => s.Sound ∧ (r.1 = true → Closed whole sink.wav.path s))
    · rw [wavPartClose, hwav]
      apply Layer.ensures_bind ensures_rewriteHeader
      intro patched
      apply Layer.ensures_bind (Q := fun _ s => s.Sound ∧ (patched = true → Closed whole sink.wav.path s))
      · apply Layer.ensures_mono (R := fun s => s.Sound ∧ (patched = true → Closed whole sink.wav.path s))
          (ensures_fclose ⟨fun s hs => hs.1, fun s s' hs hl => ⟨hs.1.later hl, fun hp => (hs.2 hp).later hl⟩⟩)
        · exact fun s hs => ⟨hs.1.sound, fun hp => hs.1.closed (hs.2 hp)⟩
        · exact fun _ s hs => hs
      · intro closed
        apply Layer.ensures_ret
        intro s hs
        refine ⟨hs.1, fun hboth => hs.2 ?_⟩
        rw [Bool.and_eq_true] at hboth
        exact hboth.1
    · intro r
      exact Layer.ensures_ret fun s hs => hs
  rw [sdPcmSinkClose, hsink]
  exact hrun s hs

theorem ensures_sinkWriteChunk : cardLayer.Ensures (sdPcmSinkWriteChunk sink data)
    (fun s => Taping true part sink [] s ∧ Shown data s)
    fun r s => if r.1 then Taping true part r.2 data s ∧ Shown data s else Taping false part r.2 [] s := by
  intro s hs
  obtain ⟨hsink, hwav, rfl⟩ := hs.1.opened
  have hlen := hs.2.length
  have husable : data.length - data.length % bytesPerSample = bufferBytes := by
    rw [hlen]
    decide
  have htake : data.take bufferBytes = data := by
    rw [← hlen, List.take_length]
  have hrun : cardLayer.Ensures (do
      let wrote ← fwrite sink.wav.path sink.wav.tail data
      if wrote ≠ bufferBytes then return (false, sink.wav)
      else return (true, { sink.wav with pcmBytes := sink.wav.pcmBytes + bufferBytes.toUInt32 }))
      (fun s => Taping true sink.wav.path sink [] s ∧ Shown data s)
      fun r s => if r.1 then Taping true sink.wav.path { sink with wav := r.2 } data s ∧ Shown data s
        else Taping false sink.wav.path { sink with wav := r.2 } [] s := by
    apply Layer.ensures_bind (Q := fun n s => if n = bufferBytes
      then Taping true sink.wav.path { sink with wav := { sink.wav with pcmBytes := sink.wav.pcmBytes + bufferBytes.toUInt32 } } data s ∧
        Shown data s
      else Taping false sink.wav.path sink [] s)
    · apply ensures_fwrite stable_shown (by rw [hlen]; decide)
      · exact fun s n hs => (hs.1.append hs.2 n).1.sound
      · intro s n hs _ hfits
        by_cases hn : n = data.length
        · rw [if_pos (hn.trans hlen), hn]
          exact ⟨hs.1.appended hs.2 (hfits hn), hs.2⟩
        · rw [if_neg (hlen ▸ hn)]
          exact (hs.1.append hs.2 n).1
    · intro n
      by_cases hn : n = bufferBytes
      · rw [if_neg (not_not.mpr hn)]
        apply Layer.ensures_ret
        intro s hs
        rwa [if_pos hn] at hs
      · rw [if_pos hn]
        apply Layer.ensures_ret
        intro s hs
        rwa [if_neg hn] at hs
  rw [sdPcmSinkWriteChunk, if_neg (by simp [hsink, hlen]), wavPartWrite, if_neg (by simp [hwav])]
  simp only [husable, htake]
  rw [if_neg (by decide)]
  apply Layer.ensures_bind hrun _ s hs
  intro r
  exact Layer.ensures_ret fun s hs => hs

end Calls

section Ends

variable {s : Tape} {part path wav : Path} {sink : Sink} {whole : Bool} {k : ℕ} {P : Tape → Prop}

/-- A new part with the first bytes of its header. -/
structure Blank (part : Path) (k : ℕ) (s : Tape) : Prop where
  sound : s.Sound
  last : ∃ older, s.parts = older ++ [part]
  free : s.card.vol.lookup (wavName part) = none
  file : s.card.vol.lookup part = some (.file ((wavPartBuildHeader 0).take k))
  level : s.kept = s.pcm.released

theorem stable_blank : Stable (Blank part k) where
  sound _ h := h.sound
  later s s' h hl := by
    obtain ⟨hpart, hwav⟩ := hl.lookup h.last
    refine ⟨h.sound.later hl, ?_, hwav.trans h.free, hpart.trans h.file, ?_⟩
    · rw [hl.parts]
      exact h.last
    · rw [hl.kept, hl.released]
      exact h.level

theorem wavName_ne (h : hasPartSuffix path = true) : wavName path ≠ path := by
  have hlen : partSuffix.length ≤ path.length := (of_decide_eq_true h).length_le
  have hpart : partSuffix.length = 9 := by with_unfolding_all decide
  have hsuffix : (lit ".part").length = 5 := by with_unfolding_all decide
  intro heq
  have := congrArg List.length heq
  rw [wavName, List.length_take, hsuffix] at this
  omega

theorem drop_header (k : ℕ) : ((wavPartBuildHeader 0).take k).drop wavHeaderSize = [] := by
  apply List.drop_eq_nil_of_le
  rw [List.length_take, wavPartBuildHeader_length]
  exact Nat.min_le_right _ _

theorem not_taken (h : s.taken path = false) {q : Path} (hq : q = path ∨ q = wavName path) :
    s.card.vol.lookup q = none ∧ q ∉ segmentNames s.parts := by
  have hq : q ∈ [path, wavName path] := by simpa using hq
  have hno := List.any_eq_false.mp h q hq
  simp only [Bool.or_eq_true, not_or, Bool.not_eq_true, Option.isSome_eq_false_iff, Option.isNone_iff_eq_none] at hno
  refine ⟨hno.1, fun hmem => ?_⟩
  have := List.any_eq_false.mp hno.2 q hmem
  simp at this

/-- The part is created under a name that is free, or it is not created. -/
theorem Shelved.create (h : Shelved s) (hsuffix : hasPartSuffix path = true) (hnew : s.taken path = false) {c : Card} (b : Bool)
    (hc : ∀ q, q ≠ path → c.vol.lookup q = s.card.vol.lookup q) :
    let s' : Tape := ⟨c, s.pcm, s.parts ++ [path], b, s.failed⟩
    (c.vol.lookup path = none → s'.Sound) ∧ (c.vol.lookup path = some (.file []) → Blank path 0 s') := by
  intro s'
  obtain ⟨hpart, hpartNew⟩ := not_taken hnew (.inl rfl)
  obtain ⟨hwav, hwavNew⟩ := not_taken hnew (.inr rfl)
  have hne := wavName_ne hsuffix
  have hfree : c.vol.lookup (wavName path) = none := (hc _ hne).trans hwav
  have hold : ∀ q ∈ segmentNames s.parts, c.vol.lookup q = s.card.vol.lookup q := by
    intro q hq
    apply hc
    rintro rfl
    exact hpartNew hq
  have hsound (hpay : Tape.payload c path = []) : s'.Sound ∧ s'.kept = s.pcm.released := by
    have hkept : s'.kept = s.pcm.released := by
      rw [kept_append (s := s') rfl, hpay, List.append_nil, payloads_congr hold]
      exact h.level
    refine ⟨⟨h.sound.conserves, ?_, ?_, ?_, ?_⟩, hkept⟩
    · rw [show s'.parts = s.parts ++ [path] from rfl, segmentNames_append, List.nodup_append]
      refine ⟨h.sound.names, by simpa using hne.symm, ?_⟩
      intro q hq q' hq' heq
      subst heq
      rcases List.mem_pair.mp hq' with rfl | rfl
      · exact hpartNew hq
      · exact hwavNew hq
    · rw [hkept]
    · rw [hkept]
      exact ⟨_, h.sound.conserves.bytes⟩
    · intro q hq
      rw [show s'.parts = s.parts ++ [path] from rfl, List.dropLast_concat] at hq
      exact filed_congr hold hq (h.filed q hq)
  constructor
  · intro hnone
    apply (hsound _).1
    simp [Tape.payload, Card.file?, hfree, hnone]
  · intro hfile
    have hpay : Tape.payload c path = [] := by
      rw [payload_part hfree hfile, List.drop_nil]
    exact ⟨(hsound hpay).1, ⟨_, rfl⟩, hfree, hfile, (hsound hpay).2⟩

theorem ensures_create (hsuffix : hasPartSuffix path = true) : cardLayer.Ensures (fopen path .write) Shelved
    fun b s => s.Sound ∧ (b = true → Blank path 0 s) := by
  apply ensures_call (o := .fopen path .write) stable_shelved
  · exact fun s n hs => hs.sound
  · intro s f hs _
    cases hnew : s.taken path with
    | true => exact .inl (by simp [Tape.note, hnew])
    | false =>
      right
      have hno : Tape.Sound ⟨s.card, s.pcm, s.parts ++ [path], s.clash || s.taken path, s.failed⟩ ∧
          (false = true → Blank path 0 ⟨s.card, s.pcm, s.parts ++ [path], s.clash || s.taken path, s.failed⟩) :=
        ⟨(hs.create hsuffix hnew _ fun _ _ => rfl).1 (not_taken hnew (.inl rfl)).1, by simp⟩
      have hcalm : Tape.Sound ⟨(s.card.openAns path .write).2, s.pcm, s.parts ++ [path], s.clash || s.taken path, s.failed⟩ ∧
          ((s.card.openAns path .write).1 = true →
            Blank path 0 ⟨(s.card.openAns path .write).2, s.pcm, s.parts ++ [path], s.clash || s.taken path, s.failed⟩) := by
        rw [Card.openAns]
        split
        · exact hno
        · have hblank := (hs.create hsuffix hnew (c := s.card.put path (.file [])) (s.clash || s.taken path)
            (fun q hq => by simp [hq])).2 (by simp)
          exact ⟨hblank.sound, fun _ => hblank⟩
      rcases f with _ | ⟨code, n⟩ | ⟨names, error⟩
      · exact hcalm
      · exact hno
      · exact hcalm

/-- A write of the header into the new part. -/
theorem Blank.write (h : Blank part 0 s) (n : ℕ) :
    Blank part n { s with card := s.card.writeAt part 0 (wavPartBuildHeader 0) n } := by
  obtain ⟨older, hparts⟩ := h.last
  have hfile := h.file
  rw [List.take_zero] at hfile
  rw [Card.writeAt_new hfile]
  have hne : wavName part ≠ part := by
    intro heq
    have hfree := h.free
    rw [heq, hfile] at hfree
    cases hfree
  set c := s.card.put part (.file ((wavPartBuildHeader 0).take n)) with hc
  have hframe : ∀ q, q ≠ part → c.vol.lookup q = s.card.vol.lookup q := by
    intro q hq
    simp [hc, hq]
  have hfree : c.vol.lookup (wavName part) = none := (hframe _ hne).trans h.free
  have hnew : c.vol.lookup part = some (.file ((wavPartBuildHeader 0).take n)) := by simp [hc]
  have hpay : Tape.payload c part = Tape.payload s.card part := by
    rw [payload_part hfree hnew, payload_part h.free hfile, drop_header, List.drop_nil]
  have hkept : Tape.kept { s with card := c } = s.kept := by
    rw [h.sound.kept_edit hparts fun q hq _ => hframe q hq, kept_append hparts, hpay]
  refine ⟨h.sound.edit hparts (fun q hq _ => hframe q hq) ?_ ?_, ⟨older, hparts⟩, hfree, hnew, hkept.trans h.level⟩
  · rw [hpay, ← kept_append hparts]
    exact h.sound.released
  · rw [hpay, ← kept_append hparts]
    exact h.sound.accepted

theorem Blank.taping (h : Blank part wavHeaderSize s) : Taping true part ⟨⟨part, 0, true⟩, true⟩ [] s := by
  have hhdr := wavPartBuildHeader_length 0
  have hfile := h.file
  rw [← hhdr, List.take_length] at hfile
  refine ⟨h.sound, h.last, h.free, ⟨wavPartBuildHeader 0, [], hhdr, ?_, fun _ => ⟨rfl, rfl, by decide⟩⟩, ⟨rfl, rfl, rfl⟩, fun _ => ?_⟩
  · rw [List.append_nil]
    exact hfile
  · rw [List.append_nil]
    exact h.level

theorem ensures_sinkOpen : cardLayer.Ensures (sdPcmSinkOpen sink path) Shelved
    fun r s => s.Sound ∧ (r.1 = true → Taping true path r.2 [] s) := by
  have hhdr := wavPartBuildHeader_length 0
  have hfail (r : WavPart) : cardLayer.Ensures (do
      let _ ← fclose path
      return (false, r)) Tape.Sound fun r s => s.Sound ∧ (r.1 = true → r.2 = ⟨path, 0, true⟩ ∧ Taping true path ⟨r.2, true⟩ [] s) := by
    apply Layer.ensures_bind (ensures_fclose stable_sound)
    exact fun _ => Layer.ensures_ret fun s hs => ⟨hs, by simp⟩
  apply Layer.ensures_bind (Q := fun r s => s.Sound ∧ (r.1 = true → r.2 = ⟨path, 0, true⟩ ∧ Taping true path ⟨r.2, true⟩ [] s))
  · unfold wavPartOpen
    split
    · exact Layer.ensures_ret fun s hs => ⟨hs.sound, by simp⟩
    case isFalse hsuffix =>
      apply Layer.ensures_bind (ensures_create (by simpa using hsuffix))
      intro fp
      cases fp with
      | false => exact Layer.ensures_ret fun s hs => ⟨hs.1, by simp⟩
      | true =>
        apply Layer.ensures_mono (R := Blank path 0) _ (fun s hs => hs.2 rfl) fun r s hs => hs
        apply Layer.ensures_bind (Q := fun n => Blank path n)
        · apply ensures_fwrite stable_blank (by rw [hhdr]; decide)
          · exact fun s n hs => (hs.write n).sound
          · exact fun s n hs _ _ => hs.write n
        · intro wrote
          split
          · exact Layer.ensures_mono (hfail _) (fun s hs => hs.sound) fun r s hs => hs
          case isFalse hwrote =>
            obtain rfl := not_not.mp hwrote
            apply Layer.ensures_bind (ensures_syncMedia stable_blank)
            intro synced
            split
            · exact Layer.ensures_mono (hfail _) (fun s hs => hs.sound) fun r s hs => hs
            · exact Layer.ensures_ret fun s hs => ⟨hs.sound, fun _ => ⟨rfl, hs.taping⟩⟩
  · intro r
    apply Layer.ensures_ret
    intro s hs
    refine ⟨hs.1, fun hr => ?_⟩
    rw [hr]
    exact (hs.2 hr).2

/-- A file is found only where there is one. -/
theorem ensures_pathExists {K : Prop} (hP : Stable P) (hK : ∀ s, P s → (s.card.file? path).isSome = true → K) :
    cardLayer.Ensures (pathExists path) P fun b s => (b = true → K) ∧ P s := by
  unfold pathExists
  apply Layer.ensures_bind (Q := fun b s => (b = true → K) ∧ P s)
  · apply ensures_call (o := .fopen path .read) hP
    · exact fun s n hs => hP.sound s hs
    · intro s f hs _
      right
      rcases f with _ | ⟨code, n⟩ | ⟨names, error⟩
      · exact ⟨hK s hs, hs⟩
      · exact ⟨by simp [device, Card.act, Card.broken], hs⟩
      · exact ⟨hK s hs, hs⟩
  · intro fp
    split
    · exact Layer.ensures_ret fun s hs => ⟨by simp, hs.2⟩
    case isFalse hfp =>
      apply Layer.ensures_bind (ensures_fclose (hP.and _))
      exact fun _ => Layer.ensures_ret fun s hs => ⟨fun _ => hs.1 (by simpa using hfp), hs.2⟩

theorem ensures_rename : cardLayer.Ensures (rename part (wavName part)) (Closed whole part)
    fun r s => s.Sound ∧ (∀ u, r = .ok u → whole = true → Shelved s) := by
  apply ensures_call (o := .rename part (wavName part)) stable_closed
  · exact fun s n hs => hs.sound
  · intro s f hs _
    right
    obtain ⟨data, hfile, -⟩ := hs.file
    obtain ⟨hsound, hshelved⟩ := hs.moved hfile
    have hcalm : s.card.renameAns part (wavName part) = (.ok (), s.card.move part (wavName part) (.file data)) := by
      rw [Card.renameAns, hfile]
      exact if_neg (by simp [hs.free])
    have hdone : Tape.Sound { s with card := (s.card.renameAns part (wavName part)).2 } ∧
        (∀ u, (s.card.renameAns part (wavName part)).1 = .ok u → whole = true →
          Shelved { s with card := (s.card.renameAns part (wavName part)).2 }) := by
      rw [hcalm]
      exact ⟨hsound, fun _ _ => hshelved⟩
    rcases f with _ | ⟨code, n⟩ | ⟨names, error⟩
    · exact hdone
    · exact ⟨hs.sound, by simp [device, Card.act, Card.broken]⟩
    · exact hdone

theorem ensures_finalizePaths : cardLayer.Ensures (wavRotationFinalizePaths part wav) (Closed whole part)
    fun ok s => s.Sound ∧ (ok = true → whole = true → Shelved s) := by
  unfold wavRotationFinalizePaths
  split
  · exact Layer.ensures_ret fun s hs => ⟨hs.sound, by simp⟩
  case isFalse hnames =>
    simp only [not_or, not_not] at hnames
    obtain rfl : wavName part = wav := by
      have hbase := hnames.2.2
      simp only [wavRotationPartToWav, Option.ite_none_left_eq_some, Option.some.injEq] at hbase
      exact hbase.2.2
    apply Layer.ensures_bind (ensures_pathExists (K := True) stable_closed fun _ _ _ => trivial)
    intro partPresent
    have hfree (s : Tape) (hs : (partPresent = true → True) ∧ Closed whole part s)
        (hsome : (s.card.file? (wavName part)).isSome = true) : False := by
      simp [Card.file?, hs.2.free] at hsome
    apply Layer.ensures_bind (ensures_pathExists (stable_closed.and _) hfree)
    intro wavPresent
    split
    · split
      · exact Layer.ensures_ret fun s hs => ⟨hs.2.2.sound, by simp⟩
      · apply Layer.ensures_bind (Layer.ensures_mono ensures_rename (fun s hs => hs.2.2) fun r s hs => hs)
        intro r
        cases r with
        | ok u => exact Layer.ensures_ret fun s hs => ⟨hs.1, fun _ => hs.2 u rfl⟩
        | error e => exact Layer.ensures_ret fun s hs => ⟨hs.1, by simp⟩
    · exact Layer.ensures_ret fun s hs => ⟨hs.2.2.sound, fun hpresent => absurd hpresent fun h => hs.1 h⟩

end Ends

end Audio

end M5DayLog
