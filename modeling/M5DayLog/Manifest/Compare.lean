import M5DayLog.Manifest.Fields

/-! Questions asked of a whole document: which entry carries an id, whether one document extends another, and
how many entries it has. On canonical text each has its plain answer in the list of entries. -/

namespace M5DayLog

open Bytes

/-- From the entry that carries an id up to the next entry. -/
def storedScope (hit : Bytes) : Bytes :=
  let next := (memfind (lit "\"recordingId\"") hit.tail).getD []
  hit.take (hit.length - next.length)

/-- The byte-exact entry prefix test: `newDoc` may only add entries behind those of `oldDoc`. -/
def manifestDocExtends (newDoc oldDoc : Bytes) : Bool :=
  match (memfind (lit "\"recordings\":[") oldDoc).bind (strchr 0x5b),
    (memfind (lit "\"recordings\":[") newDoc).bind (strchr 0x5b) with
  | some a, some b =>
    let old := a.tail.take (a.tail.length - 2)
    let new := b.tail.take (b.tail.length - 2)
    2 ≤ a.tail.length ∧ 2 ≤ b.tail.length ∧ old <+: new ∧
      (old = [] ∨ old.length = new.length ∨ (new.drop old.length).head? = some 0x2c)
  | _, _ => false

/-- Count the keys `recordingId` of a text. -/
def countRecordingIds : ℕ → Bytes → ℕ
  | 0, _ => 0
  | fuel + 1, text =>
    match memfind (lit "\"recordingId\":") text with
    | none => 0
    | some p => countRecordingIds fuel (p.drop (lit "\"recordingId\":").length) + 1

variable {dev upd : Bytes} {es : List Entry}

section Probe

theorem header_ne_recordingId (hd : isValidUuid dev = true) (hu : isValidIso8601Offset upd = true) :
    ∀ t ∈ headerWords dev upd, t.2 ≠ lit "recordingId" := by
  have hlits : lit "schemaVersion" ≠ lit "recordingId" ∧ lit "deviceId" ≠ lit "recordingId" ∧
      lit "updatedAt" ≠ lit "recordingId" ∧ lit "recordings" ≠ lit "recordingId" := by with_unfolding_all decide
  have hdev : dev ≠ lit "recordingId" := ne_of_check hd (by with_unfolding_all decide)
  have hupd : upd ≠ lit "recordingId" := ne_of_check hu (by with_unfolding_all decide)
  simp [headerWords, hlits, hdev, hupd]

/-- The first entry with an id, as the text from its key on. -/
theorem memfind_id (hd : isValidUuid dev = true) (hu : isValidIso8601Offset upd = true)
    (hes : ∀ e ∈ es, e.Valid) {id : Bytes} (hid : isValidUuid id = true) :
    memfind (duplicateNeedle id) (document dev upd es) =
      match es.dropWhile (fun e => e.recordingId ≠ id) with
      | [] => none
      | e :: rest => some (fromId e (bodyWords (lit "\x7d,") rest) (lit "\x7d" ++ lit "]\x7d")) := by
  have hw : isKey (lit "recordingId") = true := by with_unfolding_all decide
  rw [duplicateNeedle_eq, document_words, memfind_spell _ (key_quiet hw) (document_plain hd hu hes hw), docWords,
    findWord_append (header_ne_recordingId hd hu)]
  cases es with
  | nil => rfl
  | cons e es => exact findWord_id (plain_quiet (uuid_plain hid)) _ _ hes

theorem spell_tail_append (ts : List (Bytes × Bytes)) (a b : Bytes) : spell ts (a ++ b) = spell ts a ++ b := by
  induction ts with
  | nil => rfl
  | cons t ts ih => simp only [spell, ih, List.append_assoc, List.cons_append]

theorem take_of_append {a b l : Bytes} (h : l = a ++ b) : l.take (l.length - b.length) = a := by
  rw [h, List.length_append, Nat.add_sub_cancel, List.take_left]

/-- Between its id and its last word an entry has no word `recordingId`. -/
theorem inner_ne {e : Entry} (he : e.Valid) :
    ∀ t ∈ (e.coreWords []).tail ++ e.restWords.take 6, t.2 ≠ lit "recordingId" := by
  have hlits : ∀ s ∈ ["filename", "startedAt", "durationMs", "sizeBytes", "sha256", "sampleRate", "bitDepth", "channels",
      "state", "firmwareVersion"], lit s ≠ lit "recordingId" := by with_unfolding_all decide
  have hid : e.recordingId ≠ lit "recordingId" := ne_of_check he.recordingId (by with_unfolding_all decide)
  have hname : e.filename ≠ lit "recordingId" := ne_of_check he.filename (by with_unfolding_all decide)
  have hstart : e.startedAt ≠ lit "recordingId" := ne_of_check he.startedAt (by with_unfolding_all decide)
  have hsha : e.sha256 ≠ lit "recordingId" := ne_of_check he.sha256 (by with_unfolding_all decide)
  have hstates : stateFinalized ≠ lit "recordingId" ∧ stateRecovered ≠ lit "recordingId" := by with_unfolding_all decide
  have hstate : e.state ≠ lit "recordingId" := by
    rcases he.state with h | h
    · exact h ▸ hstates.1
    · exact h ▸ hstates.2
  simp only [List.forall_mem_cons] at hlits
  simp [Entry.coreWords, Entry.restWords, hid, hname, hstart, hsha, hstate, hlits]

/-- Where the next key `recordingId` is sought: behind this entry's own, up to its last word and beyond. -/
theorem next_fromId {e : Entry} (he : e.Valid) (hes : ∀ e ∈ es, e.Valid) :
    memfind (lit "\"recordingId\"") (fromId e (bodyWords (lit "\x7d,") es) (lit "\x7d" ++ lit "]\x7d")).tail =
      findWord (lit "recordingId") [] ((lit ":", e.firmwareVersion) :: bodyWords (lit "\x7d,") es)
        (lit "\x7d" ++ lit "]\x7d") := by
  have hkey : lit "\"recordingId\"" = wordNeedle (lit "recordingId") [] := by with_unfolding_all decide
  have hw : isKey (lit "recordingId") = true := by with_unfolding_all decide
  have hall : ∀ t ∈ e.words [] ++ bodyWords (lit "\x7d,") es, isGap t.1 = true ∧ Quiet t.2 := by
    intro t ht
    rcases List.mem_append.mp ht with h | h
    · exact words_plain (by decide) he.toBuilt t h
    · exact bodyWords_plain (by with_unfolding_all decide) hes t h
  set ts := (e.words [] ++ bodyWords (lit "\x7d,") es).tail with hts
  have hplain : Plain (lit "recordingId") ts (lit "\x7d" ++ lit "]\x7d") :=
    plain_of hw (fun t ht => hall t (List.mem_of_mem_tail ht)) (by with_unfolding_all decide)
  have htl : (fromId e (bodyWords (lit "\x7d,") es) (lit "\x7d" ++ lit "]\x7d")).tail =
      lit "recordingId" ++ quote :: spell ts (lit "\x7d" ++ lit "]\x7d") := rfl
  have hsplit : ts = ((e.coreWords []).tail ++ e.restWords.take 6) ++
      (lit ":", e.firmwareVersion) :: bodyWords (lit "\x7d,") es := rfl
  rw [htl, hkey, wordNeedle, memfind_quiet_append _ _ (key_quiet hw), memfind, if_neg]
  · rw [← wordNeedle, memfind_spell _ (key_quiet hw) hplain, hsplit, findWord_append (inner_ne he)]
  · rintro ⟨-, h⟩
    exact not_prefix_spell (key_quiet hw) hplain (List.cons_prefix_cons.mp h).2

/-- The scope of a stored entry holds its core fields, and nothing in it hides them. -/
theorem storedScope_fromId {e : Entry} (he : e.Valid) (hes : ∀ e ∈ es, e.Valid) :
    ∃ more tail, Trailing more tail ∧
      storedScope (fromId e (bodyWords (lit "\x7d,") es) (lit "\x7d" ++ lit "]\x7d")) =
        spell (e.coreWords [] ++ more) tail := by
  have hrest : ∀ t ∈ e.restWords, isGap t.1 = true ∧ Quiet t.2 := fun t ht =>
    words_plain (by decide : isGap [] = true) he.toBuilt t (List.mem_append_right _ ht)
  rw [storedScope, next_fromId he hes]
  by_cases hfw : e.firmwareVersion = lit "recordingId"
  · -- the last word of this entry reads like the key: the scope ends before it
    refine ⟨e.restWords.take 6, lit ":", ⟨fun t ht => hrest t (List.mem_of_mem_take ht), by with_unfolding_all decide⟩, ?_⟩
    rw [hfw, findWord_hit List.nil_prefix, Option.getD_some]
    apply take_of_append
    rw [← spell_tail_append, fromId, spell_append, ← hfw]
    rfl
  · rw [findWord_skip fun h => hfw h.1]
    cases es with
    | nil =>
      refine ⟨e.restWords, lit "\x7d" ++ lit "]\x7d", ⟨hrest, by with_unfolding_all decide⟩, ?_⟩
      apply take_of_append
      simp [findWord, bodyWords, fromId, Entry.words]
    | cons e' es =>
      refine ⟨e.restWords, lit "\x7d," ++ lit "\x7b", ⟨hrest, by with_unfolding_all decide⟩, ?_⟩
      have hwords : bodyWords (lit "\x7d,") (e' :: es) = (lit "\x7d," ++ lit "\x7b", lit "recordingId") ::
          ((e'.words []).tail ++ bodyWords (lit "\x7d,") es) := rfl
      rw [hwords, findWord_hit List.nil_prefix, Option.getD_some]
      apply take_of_append
      rw [← spell_tail_append, fromId, spell_append]
      rfl

end Probe

section Extends

/-- Where the recordings array begins. A device id may read like the key, but no colon follows it. -/
theorem recordings_inner (hd : dev.all plainChar = true) (hu : isValidIso8601Offset upd = true)
    (hes : ∀ e ∈ es, e.Valid) : (memfind (lit "\"recordings\":[") (document dev upd es)).bind (strchr 0x5b) =
      some (0x5b :: (body es ++ lit "]\x7d")) := by
  have hkey : lit "\"recordings\":[" = wordNeedle (lit "recordings") (lit ":[") := by with_unfolding_all decide
  obtain ⟨hw, -⟩ := headerKeys "recordings" (by simp)
  have hupd : upd ≠ lit "recordings" := ne_of_check hu (by with_unfolding_all decide)
  have hlits : lit "schemaVersion" ≠ lit "recordings" ∧ lit "deviceId" ≠ lit "recordings" ∧
      lit "updatedAt" ≠ lit "recordings" := by with_unfolding_all decide
  have hopen : lit ":[" = lit ":" ++ lit "[" := by with_unfolding_all decide
  have hr : lit ":[" <+: spell (bodyWords (lit ":[") es) (docTail es) := by
    rw [recordings_words, recordingsText, hopen, ← List.append_assoc]
    exact List.prefix_append ..
  have hfind : findWord (lit "recordings") (lit ":[") (docWords dev upd es) (docTail es) =
      some (quote :: (lit "recordings" ++ quote :: recordingsText es)) := by
    simp only [docWords, headerWords, List.cons_append, List.nil_append]
    rw [findWord_skip fun h => hlits.1 h.1, findWord_skip fun h => hlits.2.1 h.1,
      findWord_skip fun h => not_colon_comma (hopen ▸ h.2), findWord_skip fun h => hlits.2.2 h.1,
      findWord_skip fun h => hupd h.1, findWord_hit hr, recordings_words]
  have hplain := docWords_plain hd (iso8601_plain hu) hes hw
  rw [hkey, document_words, memfind_spell _ (key_quiet hw) hplain, hfind, Option.bind_some, strchr_recordings]

theorem moreEntries_prefix {es es' : List Entry} (hes : ∀ e ∈ es, e.Valid) (hes' : ∀ e ∈ es', e.Valid)
    (h : moreEntries es <+: moreEntries es') : es <+: es' := by
  induction es generalizing es' with
  | nil => exact List.nil_prefix
  | cons e es ih =>
    obtain ⟨z, hz⟩ := h
    cases es' with
    | nil => simp [moreEntries, lit_comma] at hz
    | cons e' es' =>
      simp only [moreEntries, List.append_assoc] at hz
      have hz' := List.append_cancel_left hz
      have hparse := manifestEntry_render (hes e (by simp)) (moreEntries es ++ z)
      rw [hz', manifestEntry_render (hes' e' (by simp))] at hparse
      obtain ⟨rfl, hrest⟩ := Prod.mk.inj (Option.some.inj hparse)
      rw [List.cons_prefix_cons]
      exact ⟨rfl, ih (fun x hx => hes x (by simp [hx])) (fun x hx => hes' x (by simp [hx])) ⟨z, hrest.symm⟩⟩

theorem moreEntries_split (es rest : List Entry) : moreEntries (es ++ rest) = moreEntries es ++ moreEntries rest := by
  induction es with
  | nil => rfl
  | cons e es ih => simp only [List.cons_append, moreEntries, ih, List.append_assoc]

theorem body_eq_nil {es : List Entry} : body es = [] ↔ es = [] := by
  constructor
  · intro h
    by_contra hne
    exact (body_ne_nil hne []).1 (by simpa using h)
  · rintro rfl
    rfl

theorem body_prefix {es es' : List Entry} (hes : ∀ e ∈ es, e.Valid) (hes' : ∀ e ∈ es', e.Valid)
    (h : body es <+: body es') : es <+: es' := by
  cases es with
  | nil => exact List.nil_prefix
  | cons e es =>
    cases es' with
    | nil => exact absurd (body_eq_nil.mp (List.prefix_nil.mp h)) (by simp)
    | cons e' es' =>
      refine moreEntries_prefix hes hes' ?_
      obtain ⟨z, hz⟩ := h
      refine ⟨z, ?_⟩
      simp only [body_cons] at hz
      simp only [moreEntries, ← hz, List.append_assoc]

/-- The byte test on two snapshot texts is the prefix test on their entries. -/
theorem manifestDocExtends_document {dev' upd' : Bytes} {es' : List Entry} (hd : dev.all plainChar = true)
    (hu : isValidIso8601Offset upd = true) (hes : ∀ e ∈ es, e.Valid) (hd' : dev'.all plainChar = true)
    (hu' : isValidIso8601Offset upd' = true) (hes' : ∀ e ∈ es', e.Valid) :
    manifestDocExtends (document dev' upd' es') (document dev upd es) = true ↔ es <+: es' := by
  have hlen : (lit "]\x7d").length = 2 := by with_unfolding_all decide
  have htake : ∀ l : Bytes, (l ++ lit "]\x7d").take ((l ++ lit "]\x7d").length - 2) = l := fun l => by
    rw [← hlen]
    exact take_of_append rfl
  have hle : ∀ l : Bytes, 2 ≤ (l ++ lit "]\x7d").length := fun l => by
    rw [List.length_append, hlen]
    omega
  simp only [manifestDocExtends, recordings_inner hd hu hes, recordings_inner hd' hu' hes', List.tail_cons, htake, hle,
    true_and, decide_eq_true_eq]
  constructor
  · exact fun h => body_prefix hes hes' h.1
  · rintro ⟨rest, rfl⟩
    cases es with
    | nil => exact ⟨List.nil_prefix, .inl rfl⟩
    | cons e es =>
      have hbody : body (e :: es ++ rest) = body (e :: es) ++ moreEntries rest := by
        simp only [List.cons_append, body_cons, moreEntries_split, List.append_assoc]
      rw [hbody]
      refine ⟨List.prefix_append .., .inr ?_⟩
      cases rest with
      | nil => exact .inl (by simp [moreEntries])
      | cons e' rest => exact .inr (by simp [moreEntries, lit_comma])

end Extends

section Count

theorem countRecordingIds_words {ws : List (Bytes × Bytes)} {x lead : Bytes} {fuel : ℕ} (hes : ∀ e ∈ es, e.Valid)
    (hplain : Plain (lit "recordingId") ws (lit "\x7d" ++ x))
    (hws : findWord (lit "recordingId") (lit ":") ws (lit "\x7d" ++ x) =
      findWord (lit "recordingId") (lit ":") (bodyWords lead es) (lit "\x7d" ++ x)) (hf : es.length < fuel) :
    countRecordingIds fuel (spell ws (lit "\x7d" ++ x)) = es.length := by
  have hkey : lit "\"recordingId\":" = wordNeedle (lit "recordingId") (lit ":") := by with_unfolding_all decide
  have hw : isKey (lit "recordingId") = true := by with_unfolding_all decide
  induction es generalizing ws lead fuel with
  | nil =>
    obtain ⟨n, rfl⟩ := Nat.exists_eq_succ_of_ne_zero (by omega : fuel ≠ 0)
    rw [countRecordingIds, hkey, memfind_spell _ (key_quiet hw) hplain, hws]
    rfl
  | cons e es ih =>
    obtain ⟨n, rfl⟩ := Nat.exists_eq_succ_of_ne_zero (by omega : fuel ≠ 0)
    have he := hes e (by simp)
    have hrest : ∀ e' ∈ es, e'.Valid := fun e' h' => hes e' (by simp [h'])
    obtain ⟨y, hy⟩ := spell_bodyWords_brace es x
    -- behind the key and its colon the text goes on with the id, as a word without a gap
    set after := ([], e.recordingId) :: ((e.words []).tail.tail ++ bodyWords (lit "\x7d,") es) with hafter
    have hhit : findWord (lit "recordingId") (lit ":") (bodyWords lead (e :: es)) (lit "\x7d" ++ x) =
        some (wordNeedle (lit "recordingId") (lit ":") ++ spell after (lit "\x7d" ++ x)) := by
      have hwords : bodyWords lead (e :: es) =
          (lead ++ lit "\x7b", lit "recordingId") :: ((e.words []).tail ++ bodyWords (lit "\x7d,") es) := rfl
      have hspell : spell ((e.words []).tail ++ bodyWords (lit "\x7d,") es) (lit "\x7d" ++ x) =
          lit ":" ++ spell after (lit "\x7d" ++ x) := rfl
      rw [hwords, findWord_hit (by rw [hspell]; exact List.prefix_append ..), hspell, wordNeedle]
      simp only [List.cons_append, List.append_assoc]
    have hnext : findWord (lit "recordingId") (lit ":") after (lit "\x7d" ++ x) =
        findWord (lit "recordingId") (lit ":") (bodyWords (lit "\x7d,") es) (lit "\x7d" ++ x) := by
      have := findWord_id_tail [] [] e hy
      rw [List.append_nil] at this
      rw [← this]
      rfl
    have hall : ∀ t ∈ after, isGap t.1 = true ∧ Quiet t.2 := by
      intro t ht
      rw [hafter, List.mem_cons, List.mem_append] at ht
      rcases ht with rfl | h | h
      · exact ⟨(by decide : isGap [] = true), plain_quiet (uuid_plain he.recordingId)⟩
      · exact words_plain (by decide : isGap [] = true) he.toBuilt t (List.mem_of_mem_tail (List.mem_of_mem_tail h))
      · exact bodyWords_plain (by with_unfolding_all decide) hrest t h
    rw [countRecordingIds, hkey, memfind_spell _ (key_quiet hw) hplain, hws, hhit]
    dsimp only
    rw [List.drop_left, ih hrest (plain_of hw hall hplain.tail) hnext (by simpa using hf), List.length_cons]

/-- A document has one key `recordingId` for each entry. -/
theorem countRecordingIds_document (hd : isValidUuid dev = true) (hu : isValidIso8601Offset upd = true)
    (hes : ∀ e ∈ es, e.Valid) : countRecordingIds ((document dev upd es).length + 1) (document dev upd es) = es.length := by
  have hkey : lit "\"recordingId\":" = wordNeedle (lit "recordingId") (lit ":") := by with_unfolding_all decide
  have hw : isKey (lit "recordingId") = true := by with_unfolding_all decide
  have hplain := document_plain hd hu hes hw
  have hpre := header_ne_recordingId hd hu
  cases es with
  | nil =>
    rw [countRecordingIds, hkey, document_words, memfind_spell _ (key_quiet hw) hplain, docWords, findWord_append hpre]
    rfl
  | cons e es =>
    have hlen : (e :: es).length < (document dev upd (e :: es)).length + 1 := by
      have := length_le_body (e :: es)
      rw [document_split]
      simp only [List.length_append, List.length_cons] at this ⊢
      omega
    have hws : findWord (lit "recordingId") (lit ":") (docWords dev upd (e :: es)) (docTail (e :: es)) =
        findWord (lit "recordingId") (lit ":") (bodyWords (lit ":[") (e :: es)) (docTail (e :: es)) :=
      findWord_append hpre
    rw [document_words] at hlen ⊢
    exact countRecordingIds_words hes hplain hws hlen

end Count

end M5DayLog
