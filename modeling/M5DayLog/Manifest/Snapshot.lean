import Mathlib.Data.List.TakeWhile
import M5DayLog.Manifest.Entry

/-! The manifest document. A snapshot is a device id, a timestamp and a list of valid entries with distinct
ids. `manifestSnapshot_eq_some` says that the canonical parser accepts exactly the texts of snapshots, so a
torn or altered document is never taken for a healthy one. -/

namespace M5DayLog

open Bytes

/-- Entries after the first, each behind its comma. -/
def moreEntries : List Entry → Bytes
  | [] => []
  | e :: es => lit "," ++ (e.render ++ moreEntries es)

/-- The entries of the recordings array, as written between its brackets. -/
def body : List Entry → Bytes
  | [] => []
  | e :: es => e.render ++ moreEntries es

structure Snapshot where
  deviceId : Bytes
  updatedAt : Bytes
  entries : List Entry
  deviceId_plain : deviceId.all plainChar = true
  updatedAt_valid : isValidIso8601Offset updatedAt = true
  entries_valid : ∀ e ∈ entries, e.Valid
  ids_nodup : (entries.map Entry.recordingId).Nodup

/-- The document up to the bracket that opens the recordings array. -/
def header (deviceId updatedAt : Bytes) : Bytes :=
  lit "\x7b\"schemaVersion\":" ++ dec metadataSchemaVersion ++ lit ",\"deviceId\":" ++ quoted deviceId ++
  lit ",\"updatedAt\":" ++ quoted updatedAt ++ lit ",\"recordings\":["

def document (deviceId updatedAt : Bytes) (es : List Entry) : Bytes :=
  header deviceId updatedAt ++ (body es ++ lit "]\x7d")

def Snapshot.render (s : Snapshot) : Bytes := document s.deviceId s.updatedAt s.entries

/-- The search string for an entry with a given id. -/
def duplicateNeedle (id : Bytes) : Bytes := lit "\"recordingId\":" ++ quoted id

/-- The cursor after an entry: at the next entry, at the closing bracket, or at the end. -/
def manifestSeparator : Bytes → Option Bytes
  | [] => some []
  | c :: t =>
    if c = 0x2c then if t.head? = some 0x7b then some t else none
    else if c = 0x5d then some (c :: t) else none

/-- The entries up to the closing bracket. An id that occurs again further on is refused. -/
def manifestEntries : ℕ → Bytes → Option (List Entry × Bytes)
  | 0, _ => none
  | fuel + 1, p =>
    if p = [] ∨ p.head? = some 0x5d then some ([], p)
    else do
      let e ← manifestEntry p
      if memfind (duplicateNeedle e.1.recordingId) e.2 ≠ none then none
      else do
        let p ← manifestSeparator e.2
        let es ← manifestEntries fuel p
        some (e.1 :: es.1, es.2)

/-- The complete canonical document of a device: its timestamp and entries. -/
def manifestSnapshot (doc deviceId : Bytes) : Option (Bytes × List Entry) :=
  if doc = [] ∨ 0 ∈ doc then none
  else do
    let version ← manifestUint32Field doc (lit "\x7b\"schemaVersion\":")
    let device ← manifestStringField version.2 (lit ",\"deviceId\":")
    let updated ← manifestStringField device.2 (lit ",\"updatedAt\":")
    let p ← manifestExpect updated.2 (lit ",\"recordings\":[")
    let es ← manifestEntries (p.length + 1) p
    if version.1 = metadataSchemaVersion ∧ device.1 = deviceId ∧ manifestIso8601 updated.1 = true ∧
      es.2 = lit "]\x7d" then some (updated.1, es.1) else none

def manifestSnapshotValid (doc deviceId : Bytes) : Bool := (manifestSnapshot doc deviceId).isSome

section Words

def isLower (c : UInt8) : Bool := 0x61 ≤ c && c ≤ 0x7a

/-- A word that can be sought as a key: it starts with a lower-case letter and holds no quote. -/
def isKey (w : Bytes) : Bool := w.head?.any isLower && w.all (· ≠ quote)

/-- A gap between words of the manifest: it holds no quote and does not start like a key. -/
def isGap (g : Bytes) : Bool := !g.head?.any isLower && g.all (· ≠ quote)

theorem quiet_iff {l : Bytes} : Quiet l ↔ l.all (· ≠ quote) = true := by
  simp [Quiet, List.all_eq_true, List.forall_mem_ne']

theorem plain_quiet {v : Bytes} (h : v.all plainChar = true) : Quiet v := by
  intro hq
  have := List.all_eq_true.mp h _ hq
  revert this
  decide

theorem plain_text {v : Bytes} (h : v.all plainChar = true) : Skips quote v := by
  intro d hd
  have hplain := List.all_eq_true.mp h d hd
  constructor
  · rintro rfl
    exact absurd hplain (by decide)
  · rintro rfl
    exact absurd hplain (by decide)

/-- The words of an entry up to its hash, the first after `gap`. -/
def Entry.coreWords (gap : Bytes) (e : Entry) : List (Bytes × Bytes) :=
  [(gap, lit "recordingId"), (lit ":", e.recordingId),
    (lit ",", lit "filename"), (lit ":", e.filename),
    (lit ",", lit "startedAt"), (lit ":", e.startedAt),
    (lit ",", lit "durationMs"), (lit ":" ++ (dec e.durationMs ++ lit ","), lit "sizeBytes"),
    (lit ":" ++ (dec e.sizeBytes ++ lit ","), lit "sha256"), (lit ":", e.sha256)]

def Entry.restWords (e : Entry) : List (Bytes × Bytes) :=
  [(lit ",", lit "sampleRate"), (lit ":" ++ (dec sampleRateHz ++ lit ","), lit "bitDepth"),
    (lit ":" ++ (dec bitsPerSample ++ lit ","), lit "channels"),
    (lit ":" ++ (dec channelCount ++ lit ","), lit "state"), (lit ":", e.state),
    (lit ",", lit "firmwareVersion"), (lit ":", e.firmwareVersion)]

def Entry.words (gap : Bytes) (e : Entry) : List (Bytes × Bytes) := e.coreWords gap ++ e.restWords

theorem spell_append (ts us : List (Bytes × Bytes)) (tail : Bytes) :
    spell (ts ++ us) tail = spell ts (spell us tail) := by
  induction ts with
  | nil => rfl
  | cons t ts ih => simp only [List.cons_append, spell, ih]

theorem Entry.spell_words (lead : Bytes) (e : Entry) (x : Bytes) :
    spell (e.words (lead ++ lit "\x7b")) (lit "\x7d" ++ x) = lead ++ (e.render ++ x) := by
  have h1 : lit "\x7b\"recordingId\":" = lit "\x7b" ++ quote :: (lit "recordingId" ++ quote :: lit ":") := by with_unfolding_all decide
  have h2 : lit ",\"filename\":" = lit "," ++ quote :: (lit "filename" ++ quote :: lit ":") := by with_unfolding_all decide
  have h3 : lit ",\"startedAt\":" = lit "," ++ quote :: (lit "startedAt" ++ quote :: lit ":") := by with_unfolding_all decide
  have h4 : lit ",\"durationMs\":" = lit "," ++ quote :: (lit "durationMs" ++ quote :: lit ":") := by with_unfolding_all decide
  have h5 : lit ",\"sizeBytes\":" = lit "," ++ quote :: (lit "sizeBytes" ++ quote :: lit ":") := by with_unfolding_all decide
  have h6 : lit ",\"sha256\":" = lit "," ++ quote :: (lit "sha256" ++ quote :: lit ":") := by with_unfolding_all decide
  have h7 : lit ",\"sampleRate\":" = lit "," ++ quote :: (lit "sampleRate" ++ quote :: lit ":") := by with_unfolding_all decide
  have h8 : lit ",\"bitDepth\":" = lit "," ++ quote :: (lit "bitDepth" ++ quote :: lit ":") := by with_unfolding_all decide
  have h9 : lit ",\"channels\":" = lit "," ++ quote :: (lit "channels" ++ quote :: lit ":") := by with_unfolding_all decide
  have h10 : lit ",\"state\":" = lit "," ++ quote :: (lit "state" ++ quote :: lit ":") := by with_unfolding_all decide
  have h11 : lit ",\"firmwareVersion\":" = lit "," ++ quote :: (lit "firmwareVersion" ++ quote :: lit ":") := by with_unfolding_all decide
  unfold Entry.render
  rw [h1, h2, h3, h4, h5, h6, h7, h8, h9, h10, h11]
  conv_rhs => simp only [quoted, List.append_assoc, List.cons_append, List.nil_append]
  conv_lhs => simp only [words, coreWords, restWords, List.cons_append, List.nil_append, spell, List.append_assoc]

/-- The words of the recordings array, the first after `lead`. -/
def bodyWords (lead : Bytes) : List Entry → List (Bytes × Bytes)
  | [] => []
  | e :: es => e.words (lead ++ lit "\x7b") ++ bodyWords (lit "\x7d,") es

theorem spell_bodyWords (lead : Bytes) (e : Entry) (es : List Entry) (x : Bytes) :
    spell (bodyWords lead (e :: es)) (lit "\x7d" ++ x) = lead ++ (body (e :: es) ++ x) := by
  induction es generalizing lead e with
  | nil => simp only [bodyWords, List.append_nil, body, moreEntries, e.spell_words]
  | cons e' es ih =>
    have hsep : lit "\x7d," = lit "\x7d" ++ lit "," := by with_unfolding_all decide
    rw [bodyWords, spell_append, ih, hsep, List.append_assoc, e.spell_words]
    simp only [body, moreEntries, List.append_assoc]

theorem gap_ne {g w : Bytes} (hg : isGap g = true) (hw : isKey w = true) : g ≠ w := by
  rintro rfl
  simp only [isGap, isKey, Bool.and_eq_true, Bool.not_eq_true'] at hg hw
  rw [hg.1] at hw
  exact absurd hw.1 (by with_unfolding_all decide)

theorem gap_quiet {g : Bytes} (hg : isGap g = true) : Quiet g := by
  simp only [isGap, Bool.and_eq_true] at hg
  exact quiet_iff.mpr hg.2

theorem key_quiet {w : Bytes} (hw : isKey w = true) : Quiet w := by
  simp only [isKey, Bool.and_eq_true] at hw
  exact quiet_iff.mpr hw.2

theorem isGap_number (n : ℕ) : isGap (lit ":" ++ (dec n ++ lit ",")) = true := by
  have hdec : (dec n).all (· ≠ quote) = true := by
    rw [List.all_eq_true]
    intro c hc
    have := (isDigit_iff c).mp (dec_digits c hc)
    simp only [quote, ne_eq, decide_not, Bool.not_eq_true', decide_eq_false_iff_not, ← UInt8.toNat_inj,
      UInt8.reduceToNat]
    omega
  have hcolon : lit ":" = [0x3a] := by with_unfolding_all decide
  have hcomma : (lit ",").all (· ≠ quote) = true := by with_unfolding_all decide
  simp only [isGap, hcolon, List.cons_append, List.nil_append, List.head?_cons, Option.any_some, List.all_cons,
    List.all_append, hdec, hcomma]
  decide

/-- The gaps and words of valid entries never hide a key. -/
theorem words_plain {gap : Bytes} {e : Entry} (hl : isGap gap = true) (he : e.Built) :
    ∀ t ∈ e.words gap, isGap t.1 = true ∧ Quiet t.2 := by
  have hid := plain_quiet (uuid_plain he.recordingId)
  have hname := plain_quiet (filename_plain he.filename)
  have hstart := plain_quiet (iso8601_plain he.startedAt)
  have hsha := plain_quiet (sha256Hex_plain he.sha256)
  have hstate := plain_quiet (state_plain he.state)
  have hfw := plain_quiet he.firmwareVersion.2.2
  have hcolon : isGap (lit ":") = true := by with_unfolding_all decide
  have hcomma : isGap (lit ",") = true := by with_unfolding_all decide
  have hnum := isGap_number
  simp only [Entry.words, Entry.coreWords, Entry.restWords, List.cons_append, List.nil_append, List.forall_mem_cons,
    hl, hcolon, hcomma, hnum, hid, hname, hstart, hsha, hstate, hfw, true_and, and_true]
  refine ⟨?_, ?_, ?_, ?_, ?_, ?_, ?_, ?_, ?_, ?_, ?_⟩
  all_goals with_unfolding_all decide

theorem bodyWords_plain {lead : Bytes} {es : List Entry} (hl : isGap (lead ++ lit "\x7b") = true)
    (he : ∀ e ∈ es, e.Valid) : ∀ t ∈ bodyWords lead es, isGap t.1 = true ∧ Quiet t.2 := by
  induction es generalizing lead with
  | nil => simp [bodyWords]
  | cons e es ih =>
    intro t ht
    rcases List.mem_append.mp ht with h | h
    · exact words_plain hl (he e (by simp)).toBuilt t h
    · exact ih (by with_unfolding_all decide) (fun e' h' => he e' (by simp [h'])) t h

theorem plain_of {w : Bytes} (hw : isKey w = true) {ts : List (Bytes × Bytes)} {tail : Bytes}
    (h : ∀ t ∈ ts, isGap t.1 = true ∧ Quiet t.2) (ht : Quiet tail) : Plain w ts tail :=
  ⟨fun t hm => ⟨gap_quiet (h t hm).1, gap_ne (h t hm).1 hw⟩, fun t hm => (h t hm).2, ht⟩

theorem findWord_skip {w r : Bytes} {t : Bytes × Bytes} {ts : List (Bytes × Bytes)} {tail : Bytes}
    (h : ¬ (t.2 = w ∧ r <+: spell ts tail)) : findWord w r (t :: ts) tail = findWord w r ts tail := by
  rw [findWord, if_neg h]

/-- Words other than the one sought are passed over. -/
theorem findWord_append {w r : Bytes} {pre ts : List (Bytes × Bytes)} {tail : Bytes} (hpre : ∀ t ∈ pre, t.2 ≠ w) :
    findWord w r (pre ++ ts) tail = findWord w r ts tail := by
  induction pre with
  | nil => rfl
  | cons t pre ih =>
    rw [List.cons_append, findWord_skip fun h => hpre t (by simp) h.1]
    exact ih fun t' h' => hpre t' (by simp [h'])

theorem findWord_hit {g w r : Bytes} {ts : List (Bytes × Bytes)} {tail : Bytes} (h : r <+: spell ts tail) :
    findWord w r ((g, w) :: ts) tail = some (quote :: (w ++ quote :: spell ts tail)) := by
  rw [findWord, if_pos ⟨rfl, h⟩]

theorem lit_colon : lit ":" = [0x3a] := by with_unfolding_all decide

theorem lit_comma : lit "," = [0x2c] := by with_unfolding_all decide

theorem lit_brace : lit "\x7d" = [0x7d] := by with_unfolding_all decide

theorem lit_close : lit "]\x7d" = [0x5d, 0x7d] := by with_unfolding_all decide

theorem not_colon_comma {r w : Bytes} {ts : List (Bytes × Bytes)} {tail : Bytes} :
    ¬ lit ":" ++ r <+: spell ((lit ",", w) :: ts) tail := by
  intro h
  rw [spell, lit_colon, lit_comma] at h
  exact absurd (List.cons_prefix_cons.mp h).1 (by decide)

theorem not_colon_brace {r x : Bytes} : ¬ lit ":" ++ r <+: lit "\x7d" ++ x := by
  intro h
  rw [lit_colon, lit_brace] at h
  exact absurd (List.cons_prefix_cons.mp h).1 (by decide)

/-- Behind its id an entry holds no further key `recordingId`. -/
theorem findWord_id_tail (r gap : Bytes) (e : Entry) {us : List (Bytes × Bytes)} {tail y : Bytes}
    (hnext : spell us tail = lit "\x7d" ++ y) :
    findWord (lit "recordingId") (lit ":" ++ r) ((e.words gap).tail ++ us) tail =
      findWord (lit "recordingId") (lit ":" ++ r) us tail := by
  simp only [Entry.words, Entry.coreWords, Entry.restWords, List.cons_append, List.nil_append, List.tail_cons]
  iterate 16 rw [findWord_skip]
  · rintro ⟨-, h⟩
    rw [hnext] at h
    exact not_colon_brace h
  all_goals first
    | exact fun h => not_colon_comma h.2
    | exact fun h => absurd (show lit _ = lit _ from h.1) (by with_unfolding_all decide)

theorem colon_quoted_iff {a b x : Bytes} (ha : Quiet a) (hb : Quiet b) :
    lit ":" ++ quoted a <+: lit ":" ++ (quote :: (b ++ quote :: x)) ↔ a = b := by
  rw [List.prefix_append_right_inj, quoted, List.cons_prefix_cons]
  constructor
  · exact fun h => (quiet_append_quote ha hb h.2).1
  · rintro rfl
    simp

/-- The text from an entry's key `recordingId` on, with what follows the entry. -/
def fromId (e : Entry) (us : List (Bytes × Bytes)) (tail : Bytes) : Bytes := spell (e.words [] ++ us) tail

theorem spell_bodyWords_brace (es : List Entry) (x : Bytes) :
    ∃ y, spell (bodyWords (lit "\x7d,") es) (lit "\x7d" ++ x) = lit "\x7d" ++ y := by
  cases es with
  | nil => exact ⟨x, rfl⟩
  | cons e es =>
    refine ⟨lit "," ++ (body (e :: es) ++ x), ?_⟩
    have hsep : lit "\x7d," = lit "\x7d" ++ lit "," := by with_unfolding_all decide
    rw [spell_bodyWords, hsep, List.append_assoc]

/-- Among the entries, a search for an id stops at the first entry that has it. -/
theorem findWord_id {id : Bytes} (hid : Quiet id) (lead x : Bytes) {es : List Entry} (hes : ∀ e ∈ es, e.Valid) :
    findWord (lit "recordingId") (lit ":" ++ quoted id) (bodyWords lead es) (lit "\x7d" ++ x) =
      match es.dropWhile (fun e => e.recordingId ≠ id) with
      | [] => none
      | e :: rest => some (fromId e (bodyWords (lit "\x7d,") rest) (lit "\x7d" ++ x)) := by
  induction es generalizing lead with
  | nil => rfl
  | cons e es ih =>
    obtain ⟨y, hy⟩ := spell_bodyWords_brace es x
    have hquiet := plain_quiet (uuid_plain (hes e (by simp)).recordingId)
    have hwords : bodyWords lead (e :: es) =
        (lead ++ lit "\x7b", lit "recordingId") :: ((e.words []).tail ++ bodyWords (lit "\x7d,") es) := rfl
    rw [hwords, findWord]
    by_cases he : e.recordingId = id
    · rw [if_pos, List.dropWhile_cons_of_neg (by simp [he])]
      · rfl
      · exact ⟨rfl, (colon_quoted_iff hid hquiet).mpr he.symm⟩
    · rw [if_neg, List.dropWhile_cons_of_pos (by simp [he]), findWord_id_tail _ _ _ hy]
      · exact ih _ fun e' h' => hes e' (by simp [h'])
      · exact fun h => he ((colon_quoted_iff hid hquiet).mp h.2).symm

theorem duplicateNeedle_eq (id : Bytes) :
    duplicateNeedle id = wordNeedle (lit "recordingId") (lit ":" ++ quoted id) := by
  have h : lit "\"recordingId\":" = quote :: (lit "recordingId" ++ quote :: lit ":") := by with_unfolding_all decide
  rw [duplicateNeedle, h, wordNeedle]
  simp only [List.cons_append, List.append_assoc]

/-- The rest of the array after an entry holds an id exactly when a later entry has it. -/
theorem memfind_duplicate {id : Bytes} (hid : Quiet id) {es : List Entry} (hes : ∀ e ∈ es, e.Valid) :
    memfind (duplicateNeedle id) (moreEntries es ++ lit "]\x7d") = none ↔ ∀ e ∈ es, e.recordingId ≠ id := by
  rw [duplicateNeedle_eq]
  cases es with
  | nil =>
    simp only [moreEntries, List.nil_append, List.not_mem_nil, false_implies, implies_true, iff_true]
    have hplain : Plain (lit "recordingId") [] (lit "]\x7d") :=
      plain_of (by with_unfolding_all decide) (by simp) (by with_unfolding_all decide)
    exact memfind_spell _ (by with_unfolding_all decide) hplain
  | cons e es =>
    have hspell : moreEntries (e :: es) ++ lit "]\x7d" = spell (bodyWords (lit ",") (e :: es)) (lit "\x7d" ++ lit "]\x7d") := by
      rw [spell_bodyWords]
      simp only [moreEntries, body, List.append_assoc]
    rw [hspell, memfind_spell _ (by with_unfolding_all decide) (plain_of (by with_unfolding_all decide) (bodyWords_plain (by with_unfolding_all decide) hes) (by with_unfolding_all decide)),
      findWord_id hid _ _ hes]
    have hall : (∀ e' ∈ e :: es, e'.recordingId ≠ id) ↔
        (e :: es).dropWhile (fun e => decide (e.recordingId ≠ id)) = [] := by
      simp only [List.dropWhile_eq_nil_iff, decide_eq_true_eq]
    rw [hall]
    split <;> simp_all only [reduceCtorEq]

end Words

section Parse

theorem render_head (e : Entry) : ∃ t, e.render = 0x7b :: t := by
  have h : lit "\x7b\"recordingId\":" = 0x7b :: lit "\"recordingId\":" := by with_unfolding_all decide
  unfold Entry.render
  simp only [List.append_assoc, h]
  exact ⟨_, rfl⟩

theorem body_cons (e : Entry) (es : List Entry) : body (e :: es) = e.render ++ moreEntries es := rfl

theorem body_ne_nil {es : List Entry} (h : es ≠ []) (x : Bytes) :
    body es ++ x ≠ [] ∧ (body es ++ x).head? = some 0x7b := by
  obtain ⟨e, es, rfl⟩ := List.exists_cons_of_ne_nil h
  obtain ⟨t, ht⟩ := render_head e
  simp [body_cons, ht]

theorem separator_moreEntries (es : List Entry) :
    manifestSeparator (moreEntries es ++ lit "]\x7d") = some (body es ++ lit "]\x7d") := by
  cases es with
  | nil => simp [moreEntries, body, lit_close, manifestSeparator]
  | cons e es =>
    obtain ⟨t, ht⟩ := render_head e
    simp [moreEntries, body_cons, lit_comma, manifestSeparator, ht]

theorem moreEntries_of_separator {p : Bytes} {es : List Entry}
    (h : manifestSeparator p = some (body es ++ lit "]\x7d")) : p = moreEntries es ++ lit "]\x7d" := by
  cases p with
  | nil => cases es <;> simp [manifestSeparator, body_cons, lit_close] at h
  | cons c t =>
    rw [manifestSeparator] at h
    split_ifs at h with hc ht hb
    · obtain rfl := Option.some.inj h
      cases es with
      | nil => exact absurd ht (by with_unfolding_all decide)
      | cons e es =>
        simp only [hc, moreEntries, lit_comma, body_cons, List.cons_append, List.nil_append, List.append_assoc]
    · cases es with
      | nil => exact Option.some.inj h
      | cons e es =>
        obtain ⟨t', ht'⟩ := render_head e
        have h' := Option.some.inj h
        rw [body_cons, ht'] at h'
        have := (List.cons.inj h').1
        subst this
        simp at hb

theorem manifestEntries_body {es : List Entry} (hes : ∀ e ∈ es, e.Valid)
    (hid : (es.map Entry.recordingId).Nodup) {fuel : ℕ} (hf : es.length < fuel) :
    manifestEntries fuel (body es ++ lit "]\x7d") = some (es, lit "]\x7d") := by
  induction es generalizing fuel with
  | nil =>
    obtain ⟨n, rfl⟩ := Nat.exists_eq_succ_of_ne_zero (by omega : fuel ≠ 0)
    simp [manifestEntries, body, lit_close]
  | cons e es ih =>
    obtain ⟨n, rfl⟩ := Nat.exists_eq_succ_of_ne_zero (by omega : fuel ≠ 0)
    have he := hes e (by simp)
    have hrest : ∀ e' ∈ es, e'.Valid := fun e' h' => hes e' (by simp [h'])
    simp only [List.map_cons, List.nodup_cons, List.mem_map, not_exists, not_and] at hid
    have hdup := (memfind_duplicate (plain_quiet (uuid_plain he.recordingId)) hrest).mpr hid.1
    obtain ⟨hne, hhead⟩ := body_ne_nil (List.cons_ne_nil e es) (lit "]\x7d")
    rw [manifestEntries, if_neg (by simp [hne, hhead]), body_cons, List.append_assoc,
      manifestEntry_render he]
    simp only [Option.bind_eq_bind, Option.bind_some, hdup, separator_moreEntries, ne_eq, not_true_eq_false,
      if_false, ih hrest hid.2 (by simpa using hf)]

theorem body_of_manifestEntries {fuel : ℕ} {p : Bytes} {es : List Entry}
    (h : manifestEntries fuel p = some (es, lit "]\x7d")) :
    p = body es ++ lit "]\x7d" ∧ (∀ e ∈ es, e.Valid) ∧ (es.map Entry.recordingId).Nodup := by
  induction fuel generalizing p es with
  | zero => simp [manifestEntries] at h
  | succ n ih =>
    rw [manifestEntries] at h
    split at h
    case isTrue =>
      obtain ⟨rfl, rfl⟩ := Prod.mk.inj (Option.some.inj h)
      exact ⟨rfl, by simp, by simp⟩
    case isFalse =>
      obtain ⟨⟨e, q⟩, he, h1⟩ := Option.bind_eq_some_iff.mp h
      obtain ⟨hp, hvalid⟩ := manifestEntry_eq_some.mp he
      dsimp only at h1
      split at h1
      case isTrue => simp at h1
      case isFalse hdup =>
        obtain ⟨r, hr, h2⟩ := Option.bind_eq_some_iff.mp h1
        obtain ⟨⟨es', q'⟩, hes, h3⟩ := Option.bind_eq_some_iff.mp h2
        simp only [Option.some.injEq, Prod.mk.injEq] at h3
        obtain ⟨rfl, rfl⟩ := h3
        obtain ⟨hr', hv, hn⟩ := ih hes
        have hq := moreEntries_of_separator (hr' ▸ hr)
        rw [hq] at hdup hp
        have hnew := (memfind_duplicate (plain_quiet (uuid_plain hvalid.recordingId)) hv).mp (not_not.mp hdup)
        refine ⟨by rw [hp, body_cons, List.append_assoc], by simpa using ⟨hvalid, hv⟩, ?_⟩
        simp only [List.map_cons, List.nodup_cons, List.mem_map, not_exists, not_and]
        exact ⟨hnew, hn⟩

theorem plain_noNul {v : Bytes} (h : v.all plainChar = true) : (0 : UInt8) ∉ v := by
  intro h0
  exact absurd (List.all_eq_true.mp h _ h0) (by decide)

theorem dec_noNul (n : ℕ) : (0 : UInt8) ∉ dec n := by
  intro h0
  exact absurd (dec_digits _ h0) (by decide)

theorem quoted_noNul {v : Bytes} (h : v.all plainChar = true) : (0 : UInt8) ∉ quoted v := by
  simp only [quoted, List.mem_cons, List.mem_append, List.not_mem_nil, or_false, not_or]
  exact ⟨by decide, plain_noNul h, by decide⟩

theorem lit_noNul : ∀ s ∈ ["\x7b\"recordingId\":", ",\"filename\":", ",\"startedAt\":", ",\"durationMs\":",
    ",\"sizeBytes\":", ",\"sha256\":", ",\"sampleRate\":", ",\"bitDepth\":", ",\"channels\":", ",\"state\":",
    ",\"firmwareVersion\":", "\x7d", ",", "]\x7d", "\x7b\"schemaVersion\":", ",\"deviceId\":", ",\"updatedAt\":",
    ",\"recordings\":["], (0 : UInt8) ∉ lit s := by with_unfolding_all decide

theorem render_noNul {e : Entry} (h : e.Built) : (0 : UInt8) ∉ e.render := by
  have hl := lit_noNul
  simp only [List.forall_mem_cons] at hl
  unfold Entry.render
  simp only [List.mem_append, not_or, dec_noNul, quoted_noNul (uuid_plain h.recordingId),
    quoted_noNul (filename_plain h.filename), quoted_noNul (iso8601_plain h.startedAt),
    quoted_noNul (sha256Hex_plain h.sha256), quoted_noNul (state_plain h.state),
    quoted_noNul h.firmwareVersion.2.2, hl, not_false_eq_true, and_self]

theorem moreEntries_noNul {es : List Entry} (h : ∀ e ∈ es, e.Valid) : (0 : UInt8) ∉ moreEntries es := by
  have hl := lit_noNul
  simp only [List.forall_mem_cons] at hl
  induction es with
  | nil => simp [moreEntries]
  | cons e es ih =>
    have hes := ih fun e' h' => h e' (by simp [h'])
    simp only [moreEntries, List.mem_append, not_or, hl, render_noNul (h e (by simp)).toBuilt, hes, not_false_eq_true,
      and_self]

theorem body_noNul {es : List Entry} (h : ∀ e ∈ es, e.Valid) : (0 : UInt8) ∉ body es := by
  cases es with
  | nil => simp [body]
  | cons e es =>
    rw [body_cons, List.mem_append, not_or]
    exact ⟨render_noNul (h e (by simp)).toBuilt, moreEntries_noNul fun e' h' => h e' (by simp [h'])⟩

theorem Snapshot.render_noNul (s : Snapshot) : (0 : UInt8) ∉ s.render := by
  have hl := lit_noNul
  simp only [List.forall_mem_cons] at hl
  simp only [render, document, header, List.mem_append, not_or, dec_noNul, quoted_noNul s.deviceId_plain,
    quoted_noNul (iso8601_plain s.updatedAt_valid), body_noNul s.entries_valid, hl, not_false_eq_true, and_self]

theorem length_le_body (es : List Entry) : es.length ≤ (body es).length := by
  have hmore : ∀ es, es.length ≤ (moreEntries es).length := by
    intro es
    induction es with
    | nil => simp
    | cons e es ih =>
      simp only [moreEntries, lit_comma, List.length_cons, List.length_append]
      omega
  cases es with
  | nil => simp
  | cons e es =>
    obtain ⟨t, ht⟩ := render_head e
    have := hmore es
    simp only [body_cons, ht, List.length_cons, List.length_append]
    omega

theorem moreEntries_length {es : List Entry} (h : ∀ e ∈ es, e.Built) : (moreEntries es).length ≤ 641 * es.length := by
  induction es with
  | nil => simp [moreEntries]
  | cons e es ih =>
    have he := Entry.render_length (h e (by simp))
    have hes := ih fun e' h' => h e' (by simp [h'])
    simp only [moreEntries, lit_comma, List.length_append, List.length_cons, List.length_nil]
    omega

theorem header_length {dev upd : Bytes} (hd : isValidUuid dev = true) (hu : isValidIso8601Offset upd = true) :
    (header dev upd).length = 123 := by
  have hdec : (dec metadataSchemaVersion).length = 1 := by decide
  have hlits : (lit "\x7b\"schemaVersion\":").length = 17 ∧ (lit ",\"deviceId\":").length = 12 ∧
      (lit ",\"updatedAt\":").length = 13 ∧ (lit ",\"recordings\":[").length = 15 := by with_unfolding_all decide
  unfold header
  simp only [List.length_append, quoted_length, uuid_length hd, iso8601_length hu, hdec, hlits]

/-- A document grows by at most 641 bytes with each entry. -/
theorem document_length {dev upd : Bytes} {es : List Entry} (hd : isValidUuid dev = true)
    (hu : isValidIso8601Offset upd = true) (h : ∀ e ∈ es, e.Built) :
    (document dev upd es).length ≤ 125 + 641 * es.length := by
  have hbody : (body es).length ≤ 641 * es.length := by
    cases es with
    | nil => simp [body]
    | cons e es =>
      have he := Entry.render_length (h e (by simp))
      have hes := moreEntries_length fun e' h' => h e' (List.mem_cons_of_mem _ h')
      simp only [body_cons, List.length_append, List.length_cons]
      omega
  simp only [document, List.length_append, header_length hd hu, lit_close, List.length_cons, List.length_nil]
  omega

theorem lit_deviceId : startsDigit (lit ",\"deviceId\":") = false := by with_unfolding_all decide

/-- The parser accepts the text of every snapshot, and reads back its timestamp and entries. -/
theorem manifestSnapshot_render (s : Snapshot) :
    manifestSnapshot s.render s.deviceId = some (s.updatedAt, s.entries) := by
  have hne : s.render ≠ [] := by
    have h : lit "\x7b\"schemaVersion\":" ≠ [] := by with_unfolding_all decide
    simp [Snapshot.render, document, header, h]
  have hlen := length_le_body s.entries
  unfold manifestSnapshot
  rw [if_neg (by simp [hne, s.render_noNul])]
  unfold Snapshot.render document header
  simp only [List.append_assoc]
  rw [uint32Field_bind _ _ _ (by decide) ⟨by with_unfolding_all decide, lit_deviceId⟩, stringField_bind _ _ _ s.deviceId_plain,
    stringField_bind _ _ _ (iso8601_plain s.updatedAt_valid), expect_bind,
    manifestEntries_body s.entries_valid s.ids_nodup (by rw [List.length_append]; omega)]
  refine if_pos ⟨rfl, rfl, ?_, rfl⟩
  simp [manifestIso8601, iso8601_length s.updatedAt_valid, s.updatedAt_valid]

/-- A document the parser accepts is the text of a snapshot. -/
theorem render_of_manifestSnapshot {doc deviceId updatedAt : Bytes} {es : List Entry}
    (h : manifestSnapshot doc deviceId = some (updatedAt, es)) :
    ∃ s : Snapshot, s.deviceId = deviceId ∧ s.updatedAt = updatedAt ∧ s.entries = es ∧ doc = s.render := by
  unfold manifestSnapshot at h
  split at h
  case isTrue => simp at h
  case isFalse hnul =>
    obtain ⟨version, p1, hp1, -, h1⟩ := uint32Field_bind_some h
    obtain ⟨device, p2, hp2, hdev, h2⟩ := stringField_bind_some h1
    obtain ⟨updated, p3, hp3, -, h3⟩ := stringField_bind_some h2
    obtain ⟨p4, hp4, h4⟩ := expect_bind_some h3
    obtain ⟨⟨es', q⟩, hes, h5⟩ := Option.bind_eq_some_iff.mp h4
    dsimp only at h5
    rw [Option.ite_none_right_eq_some] at h5
    obtain ⟨⟨rfl, rfl, hiso, rfl⟩, hs⟩ := h5
    obtain ⟨rfl, rfl⟩ := Prod.mk.inj (Option.some.inj hs)
    obtain ⟨hbody, hvalid, hnodup⟩ := body_of_manifestEntries hes
    simp only [manifestIso8601, Bool.and_eq_true] at hiso
    refine ⟨⟨device, updated, es', hdev, hiso.2, hvalid, hnodup⟩, rfl, rfl, rfl, ?_⟩
    dsimp only at hp2 hp3 hp4
    rw [hp1, hp2, hp3, hp4, hbody]
    unfold Snapshot.render document header
    conv_rhs => simp only [List.append_assoc]

theorem manifestSnapshot_eq_some {doc deviceId updatedAt : Bytes} {es : List Entry} :
    manifestSnapshot doc deviceId = some (updatedAt, es) ↔
      ∃ s : Snapshot, s.deviceId = deviceId ∧ s.updatedAt = updatedAt ∧ s.entries = es ∧ doc = s.render := by
  refine ⟨render_of_manifestSnapshot, ?_⟩
  rintro ⟨s, rfl, rfl, rfl, rfl⟩
  exact manifestSnapshot_render s

theorem manifestSnapshotValid_iff {doc deviceId : Bytes} :
    manifestSnapshotValid doc deviceId = true ↔ ∃ s : Snapshot, s.deviceId = deviceId ∧ doc = s.render := by
  rw [manifestSnapshotValid, Option.isSome_iff_exists]
  constructor
  · rintro ⟨⟨updatedAt, es⟩, h⟩
    obtain ⟨s, hd, -, -, hr⟩ := manifestSnapshot_eq_some.mp h
    exact ⟨s, hd, hr⟩
  · rintro ⟨s, rfl, rfl⟩
    exact ⟨_, manifestSnapshot_render s⟩

end Parse

end M5DayLog
