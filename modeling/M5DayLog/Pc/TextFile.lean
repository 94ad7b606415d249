import M5DayLog.Pc.JsonLoads

/-! The text of a file. It is decoded as UTF-8, and every end of a line is read as a newline; `json.loads` gives the same for the
text so read as for the text that the bytes encode. -/

namespace M5DayLog.Contract

section Decoding

/-- `decode("utf-8")`. -/
def decodeUtf8 (content : Bytes) : Option PyStr := content.toByteArray.utf8Decode?.map fun chars => chars.toList.map Char.toNat

/-- The bytes are the UTF-8 encoding of the text. -/
def Encodes (content : Bytes) (s : PyStr) : Prop :=
  ∃ chars : List Char, content = chars.flatMap String.utf8EncodeChar ∧ s = chars.map Char.toNat

/-- What a file opened in text mode makes of the ends of its lines. -/
def universalNewlines : PyStr → PyStr
  | [] => []
  | c :: s =>
    if c = 0x0d then
      match s with
      | 0x0a :: t => 0x0a :: universalNewlines t
      | s => 0x0a :: universalNewlines s
    else c :: universalNewlines s

theorem decodeUtf8_iff {content : Bytes} {s : PyStr} : decodeUtf8 content = some s ↔ Encodes content s := by
  constructor
  · intro h
    obtain ⟨chars, hchars, rfl⟩ := Option.map_eq_some_iff.mp h
    have hsome : content.toByteArray.utf8Decode?.isSome := by rw [hchars, Option.isSome_some]
    have hencode := ByteArray.utf8Encode_get_utf8Decode? (h := hsome)
    simp only [hchars, Option.get_some] at hencode
    exact ⟨chars.toList, List.toByteArray_inj.mp hencode.symm, rfl⟩
  · rintro ⟨chars, rfl, rfl⟩
    have hdecode := List.utf8Decode?_utf8Encode (l := chars)
    rw [List.utf8Encode] at hdecode
    rw [decodeUtf8, hdecode, Option.map_some]

end Decoding

section Newlines

def isNewline (c : ℕ) : Bool := c = 0x0a || c = 0x0d

/-- The texts are the same up to what ends their lines. -/
inductive SameLines : PyStr → PyStr → Prop
  | nil : SameLines [] []
  | same {c s t} (hc : ¬ isNewline c) (h : SameLines s t) : SameLines (c :: s) (c :: t)
  | breaks {w w' s t} (hne : w ≠ []) (hne' : w' ≠ []) (hw : ∀ c ∈ w, isNewline c) (hw' : ∀ c ∈ w', isNewline c)
    (h : SameLines s t) : SameLines (w ++ s) (w' ++ t)

/-- What a grammar derives of a text it derives of every text of the same lines. -/
def Carries {α : Type} (G : PyStr → α → PyStr → Prop) : Prop :=
  ∀ ⦃s t rest x⦄, SameLines s t → G s x rest → ∃ rest', SameLines rest rest' ∧ G t x rest'

variable {s t a rest : PyStr} {c : ℕ}

theorem sameLines_universalNewlines (s : PyStr) : SameLines s (universalNewlines s) := by
  have newline : ∀ {w s t}, w ≠ [] → (∀ c ∈ w, isNewline c) → SameLines s t → SameLines (w ++ s) ([0x0a] ++ t) :=
    fun hne hw h => .breaks hne (by simp) hw (by decide) h
  fun_induction universalNewlines s with
  | case1 => exact .nil
  | case2 t ih =>
    have hw : ∀ c ∈ [0x0d, 0x0a], isNewline c := by decide
    exact newline (by simp) hw ih
  | case3 s hs ih =>
    have hw : ∀ c ∈ [0x0d], isNewline c := by decide
    exact newline (by simp) hw ih
  | case4 c s hc ih =>
    by_cases hn : isNewline c
    · obtain rfl : c = 0x0a := by simpa [isNewline, hc] using hn
      have hw : ∀ c ∈ [0x0a], isNewline c := by decide
      exact newline (by simp) hw ih
    · exact .same hn ih

theorem SameLines.symm (h : SameLines s t) : SameLines t s := by
  induction h with
  | nil => exact .nil
  | same hc _ ih => exact .same hc ih
  | breaks hne hne' hw hw' _ ih => exact .breaks hne' hne hw' hw ih

theorem SameLines.of_cons (h : SameLines (c :: s) t) (hc : ¬ isNewline c) : ∃ t', t = c :: t' ∧ SameLines s t' := by
  generalize hs : c :: s = s' at h
  cases h with
  | nil => cases hs
  | same _ h =>
    obtain ⟨rfl, rfl⟩ := List.cons.inj hs
    exact ⟨_, rfl, h⟩
  | breaks hne _ hw =>
    obtain ⟨b, w, rfl⟩ := List.exists_cons_of_ne_nil hne
    obtain ⟨rfl, -⟩ := List.cons.inj hs
    exact absurd (hw c List.mem_cons_self) hc

theorem SameLines.of_append (h : SameLines (a ++ s) t) (ha : ∀ c ∈ a, ¬ isNewline c) : ∃ t', t = a ++ t' ∧ SameLines s t' := by
  induction a generalizing t with
  | nil => exact ⟨t, rfl, h⟩
  | cons c a ih =>
    obtain ⟨u, rfl, hu⟩ := h.of_cons (ha c List.mem_cons_self)
    obtain ⟨v, rfl, hv⟩ := ih hu fun c hc => ha c (List.mem_cons_of_mem _ hc)
    exact ⟨v, rfl, hv⟩

theorem SameLines.of_nil (h : SameLines [] t) : t = [] := by
  generalize hs : [] = s at h
  cases h with
  | nil => rfl
  | same => cases hs
  | breaks hne => exact absurd (List.append_eq_nil_iff.mp hs.symm).1 hne

theorem isWs_of_isNewline (h : isNewline c) : isWs c := by
  simp only [isNewline, isWs, Bool.or_eq_true, decide_eq_true_eq] at *
  tauto

/-- White space may be split within the end of a line; what is left then starts before the whole end of the line. -/
theorem SameLines.ws (h : SameLines s t) (hws : Ws s rest) : ∃ rest', SameLines rest rest' ∧ Ws t rest' := by
  obtain ⟨w, hw, rfl⟩ := hws
  generalize hs : w ++ rest = s at h
  induction h generalizing w with
  | nil =>
    obtain ⟨rfl, rfl⟩ := List.append_eq_nil_iff.mp hs
    exact ⟨[], .nil, .refl _⟩
  | @same c s t hc h ih =>
    cases w with
    | nil =>
      rw [List.nil_append] at hs
      exact ⟨c :: t, hs ▸ .same hc h, .refl _⟩
    | cons b w =>
      obtain ⟨rfl, htail⟩ := List.cons.inj hs
      obtain ⟨rest', hrest, v, hv, rfl⟩ := ih w (fun c hc => hw c (List.mem_cons_of_mem _ hc)) htail
      refine ⟨rest', hrest, b :: v, fun c hc => ?_, rfl⟩
      exact (List.mem_cons.mp hc).elim (fun h => h ▸ hw b List.mem_cons_self) (hv c)
  | @breaks b b' s t hne hne' hb hb' h ih =>
    rcases List.append_eq_append_iff.mp hs with ⟨a, hsplit, hrest⟩ | ⟨w', hsplit, hs⟩
    · by_cases ha : a = []
      · subst ha
        rw [List.nil_append] at hrest
        exact ⟨t, hrest ▸ h, b', fun c hc => isWs_of_isNewline (hb' c hc), rfl⟩
      · refine ⟨b' ++ t, ?_, .refl _⟩
        rw [hrest]
        exact .breaks ha hne' (fun c hc => hb c (hsplit ▸ List.mem_append_right _ hc)) hb' h
    · obtain ⟨rest', hrest, v, hv, rfl⟩ := ih w' (fun c hc => hw c (hsplit ▸ List.mem_append_right _ hc)) hs.symm
      refine ⟨rest', hrest, b' ++ v, fun c hc => ?_, by rw [List.append_assoc]⟩
      exact (List.mem_append.mp hc).elim (fun h => isWs_of_isNewline (hb' c h)) (hv c)

/-- White space up to a character that does not end a line. -/
theorem SameLines.ws_cons (h : SameLines s t) (hws : Ws s (c :: rest)) (hc : ¬ isNewline c) :
    ∃ rest', SameLines rest rest' ∧ Ws t (c :: rest') := by
  obtain ⟨u, hu, hws⟩ := h.ws hws
  obtain ⟨rest', rfl, hrest⟩ := hu.of_cons hc
  exact ⟨rest', hrest, hws⟩

end Newlines

section Carrying

theorem not_isNewline_of_isDec {c : ℕ} (h : isDec c) : ¬ isNewline c := by
  simp only [isDec, isNewline, Bool.and_eq_true, Bool.or_eq_true, decide_eq_true_eq] at *
  omega

theorem not_isNewline_of_hexDigit {c k : ℕ} (h : hexDigit c = some k) : ¬ isNewline c := by
  intro hc
  have : c = 0x0a ∨ c = 0x0d := by simpa [isNewline] using hc
  rcases this with rfl | rfl <;> cases h

theorem not_isNewline_minus (negative : Bool) : ∀ c ∈ minus negative, ¬ isNewline c := by
  cases negative <;> decide

theorem IntText.not_isNewline {int : PyStr} (h : IntText int) : ∀ c ∈ int, ¬ isNewline c := by
  cases h with
  | zero => decide
  | digits hc _ hs => exact List.forall_mem_cons.mpr ⟨not_isNewline_of_isDec hc, fun c h => not_isNewline_of_isDec (hs c h)⟩

theorem FracText.not_isNewline {text frac : PyStr} (h : FracText text frac) : ∀ c ∈ text, ¬ isNewline c := by
  cases h with
  | absent => exact fun c hc => absurd hc List.not_mem_nil
  | digits h => exact List.forall_mem_cons.mpr ⟨by decide, fun c hc => not_isNewline_of_isDec (h.2 c hc)⟩

theorem ExpText.not_isNewline {text : PyStr} {exp : Option (Bool × PyStr)} (h : ExpText text exp) : ∀ c ∈ text, ¬ isNewline c := by
  cases h with
  | absent => exact fun c hc => absurd hc List.not_mem_nil
  | digits he hsign h =>
    have hsigns : ∀ {sign negative}, SignText sign negative → ∀ c ∈ sign, ¬ isNewline c := by
      rintro sign negative ⟨⟩ <;> decide
    refine List.forall_mem_cons.mpr ⟨by rcases he with rfl | rfl <;> decide, fun c hc => ?_⟩
    exact (List.mem_append.mp hc).elim (hsigns hsign c) fun hc => not_isNewline_of_isDec (h.2 c hc)

theorem NumberText.not_isNewline {text : PyStr} {lit : NumberLit} (h : NumberText text lit) : ∀ c ∈ text, ¬ isNewline c := by
  obtain ⟨hint, hfrac, hexp⟩ := h
  simp only [List.forall_mem_append]
  exact ⟨not_isNewline_minus _, hint.not_isNewline, hfrac.not_isNewline, hexp.not_isNewline⟩

theorem carries_hex4 : Carries fun s u rest => hex4 s = some (u, rest) := by
  intro s t rest u hst h
  match s, h with
  | a :: b :: c :: d :: s, h =>
    simp only [hex4, Option.bind_eq_bind, Option.bind_eq_some_iff, Option.pure_def, Option.some.injEq, Prod.mk.injEq] at h
    obtain ⟨a', ha, b', hb, c', hc, d', hd, rfl, rfl⟩ := h
    obtain ⟨t', rfl, ht⟩ := hst.of_append (a := [a, b, c, d]) (by
      simp only [List.forall_mem_cons]
      exact ⟨not_isNewline_of_hexDigit ha, not_isNewline_of_hexDigit hb, not_isNewline_of_hexDigit hc,
        not_isNewline_of_hexDigit hd, List.forall_mem_nil _⟩)
    refine ⟨t', ht, ?_⟩
    simp [hex4, ha, hb, hc, hd]

theorem carries_lowEscape : Carries LowEscape := by
  rintro s t rest u hst ⟨hex, hlow⟩
  obtain ⟨t', rfl, ht⟩ := hst.of_append (a := [0x5c, 0x75]) (by decide)
  obtain ⟨rest', hrest, hex⟩ := carries_hex4 ht hex
  exact ⟨rest', hrest, .mk hex hlow⟩

theorem carries_escape : Carries Escape := by
  intro s t rest c hst h
  cases h with
  | @simple e _ _ h =>
    have he : ¬ isNewline e := by
      intro he
      have : e = 0x0a ∨ e = 0x0d := by simpa [isNewline] using he
      rcases this with rfl | rfl <;> cases h
    obtain ⟨t', rfl, ht⟩ := hst.of_cons he
    exact ⟨t', ht, .simple h⟩
  | pair hex hhigh hlow =>
    obtain ⟨t', rfl, ht⟩ := hst.of_cons (by decide)
    obtain ⟨u, hu, hex⟩ := carries_hex4 ht hex
    obtain ⟨rest', hrest, hlow⟩ := carries_lowEscape hu hlow
    exact ⟨rest', hrest, .pair hex hhigh hlow⟩
  | unit hex halone =>
    obtain ⟨t', rfl, ht⟩ := hst.of_cons (by decide)
    obtain ⟨rest', hrest, hex⟩ := carries_hex4 ht hex
    refine ⟨rest', hrest, .unit hex fun hhigh low t' hlow => ?_⟩
    obtain ⟨_, -, hlow⟩ := carries_lowEscape hrest.symm hlow
    exact halone hhigh _ _ hlow

theorem carries_chars : Carries Chars := by
  intro s t rest str hst h
  induction h generalizing t with
  | quote =>
    obtain ⟨t', rfl, ht⟩ := hst.of_cons (by decide)
    exact ⟨t', ht, .quote⟩
  | plain hc hquote hslash _ ih =>
    obtain ⟨t', rfl, ht⟩ := hst.of_cons (by
      simp only [isNewline, Bool.or_eq_true, decide_eq_true_eq]
      omega)
    obtain ⟨rest', hrest, h⟩ := ih ht
    exact ⟨rest', hrest, .plain hc hquote hslash h⟩
  | escape h _ ih =>
    obtain ⟨t', rfl, ht⟩ := hst.of_cons (by decide)
    obtain ⟨u, hu, h⟩ := carries_escape ht h
    obtain ⟨rest', hrest, hchars⟩ := ih hu
    exact ⟨rest', hrest, .escape h hchars⟩

theorem carries_scalar (limit : ℕ) : Carries (Scalar limit) := by
  intro s t rest v hst h
  cases h with
  | string h =>
    obtain ⟨t', rfl, ht⟩ := hst.of_cons (by decide)
    obtain ⟨rest', hrest, h⟩ := carries_chars ht h
    exact ⟨rest', hrest, .string h⟩
  | constant h =>
    have hname : ∀ p ∈ constants, ∀ c ∈ p.1, ¬ isNewline c := by
      simp only [constants, List.forall_mem_cons]
      exact ⟨by decide, by decide, by decide, by decide, by decide, by decide, List.forall_mem_nil _⟩
    obtain ⟨rest', rfl, hrest⟩ := hst.of_append (hname _ h)
    exact ⟨rest', hrest, .constant h⟩
  | number h hlimit =>
    obtain ⟨rest', rfl, hrest⟩ := hst.of_append h.not_isNewline
    exact ⟨rest', hrest, .number h hlimit⟩

theorem longInt_of_sameLines {limit : ℕ} {s t : PyStr} (hst : SameLines s t) (h : LongInt limit s) : LongInt limit t := by
  obtain ⟨hint, hlong, hdigit, hfrac, hexp⟩ := h
  obtain ⟨u, rfl, hu⟩ := hst.of_append (not_isNewline_minus _)
  obtain ⟨rest', rfl, hrest⟩ := hu.of_append hint.not_isNewline
  refine .mk hint hlong (fun c hc hdec => ?_) (fun text frac t ht h => ?_) (fun text exp t ht h => ?_)
  · obtain ⟨t, rfl⟩ := List.head?_eq_some_iff.mp hc
    obtain ⟨_, rfl, -⟩ := hrest.symm.of_cons (not_isNewline_of_isDec hdec)
    exact hdigit c rfl hdec
  · rw [ht] at hrest
    obtain ⟨t', ht', -⟩ := hrest.symm.of_append h.not_isNewline
    exact hfrac text frac t' ht' h
  · rw [ht] at hrest
    obtain ⟨t', ht', -⟩ := hrest.symm.of_append h.not_isNewline
    exact hexp text exp t' ht' h

variable {α : Type} {E : PyStr → α → PyStr → Prop} {O : PyStr → Prop} {close : ℕ}

theorem carries_elements (hE : Carries E) (hclose : ¬ isNewline close) : Carries (Elements E close) := by
  intro s t rest xs hst h
  induction h generalizing t with
  | last hx hend =>
    obtain ⟨u, hu, hx⟩ := hE hst hx
    obtain ⟨rest', hrest, hend⟩ := hu.ws_cons hend hclose
    exact ⟨rest', hrest, .last hx hend⟩
  | more hx hcomma hws _ ih =>
    obtain ⟨u, hu, hx⟩ := hE hst hx
    obtain ⟨v, hv, hcomma⟩ := hu.ws_cons hcomma (by decide)
    obtain ⟨w, hw, hws⟩ := hv.ws hws
    obtain ⟨rest', hrest, hxs⟩ := ih hw
    exact ⟨rest', hrest, .more hx hcomma hws hxs⟩

theorem carries_bracketed (hE : Carries E) (hclose : ¬ isNewline close) : Carries (Bracketed E close) := by
  intro s t rest xs hst h
  cases h with
  | empty h =>
    obtain ⟨rest', hrest, h⟩ := hst.ws_cons h hclose
    exact ⟨rest', hrest, .empty h⟩
  | elements hws h =>
    obtain ⟨u, hu, hws⟩ := hst.ws hws
    obtain ⟨rest', hrest, h⟩ := carries_elements hE hclose hu h
    exact ⟨rest', hrest, .elements hws h⟩

theorem elementsOverrun_of_sameLines (hE : Carries E) (hO : ∀ ⦃s t⦄, SameLines s t → O s → O t) {s t : PyStr} (hst : SameLines s t)
    (h : ElementsOverrun E O s) : ElementsOverrun E O t := by
  induction h generalizing t with
  | here h => exact .here (hO hst h)
  | later hx hcomma hws _ ih =>
    obtain ⟨v, hv, hx⟩ := hE hst hx
    obtain ⟨w, hw, hcomma⟩ := hv.ws_cons hcomma (by decide)
    obtain ⟨z, hz, hws⟩ := hw.ws hws
    exact .later hx hcomma hws (ih hz)

theorem bracketedOverrun_of_sameLines (hE : Carries E) (hO : ∀ ⦃s t⦄, SameLines s t → O s → O t) {s t : PyStr} (hst : SameLines s t)
    (h : BracketedOverrun E O s) : BracketedOverrun E O t := by
  obtain ⟨hws, h⟩ := h
  obtain ⟨u, hu, hws⟩ := hst.ws hws
  exact .mk hws (elementsOverrun_of_sameLines hE hO hu h)

theorem carries_key : Carries Key := by
  rintro s t rest key hst ⟨hkey, hcolon⟩
  obtain ⟨t', rfl, ht⟩ := hst.of_cons (by decide)
  obtain ⟨u, hu, hkey⟩ := carries_chars ht hkey
  obtain ⟨rest', hrest, hcolon⟩ := hu.ws_cons hcolon (by decide)
  exact ⟨rest', hrest, .mk hkey hcolon⟩

theorem carries_member {V : PyStr → Json → PyStr → Prop} (hV : Carries V) : Carries (Member V) := by
  rintro s t rest p hst ⟨hkey, hws, hv⟩
  obtain ⟨u, hu, hkey⟩ := carries_key hst hkey
  obtain ⟨w, hw, hws⟩ := hu.ws hws
  obtain ⟨rest', hrest, hv⟩ := hV hw hv
  exact ⟨rest', hrest, .mk hkey hws hv⟩

theorem memberOverrun_of_sameLines (hO : ∀ ⦃s t⦄, SameLines s t → O s → O t) {s t : PyStr} (hst : SameLines s t)
    (h : MemberOverrun O s) : MemberOverrun O t := by
  obtain ⟨hkey, hws, h⟩ := h
  obtain ⟨u, hu, hkey⟩ := carries_key hst hkey
  obtain ⟨w, hw, hws⟩ := hu.ws hws
  exact .mk hkey hws (hO hw h)

theorem carries_value (limit depth : ℕ) : Carries (Value limit depth) := by
  induction depth with
  | zero => exact carries_scalar limit
  | succ depth ih =>
    intro s t rest v hst h
    rcases h with h | h | h
    · obtain ⟨rest', hrest, h⟩ := carries_scalar limit hst h
      exact ⟨rest', hrest, .inl h⟩
    · obtain ⟨t', rfl, ht⟩ := hst.of_cons (by decide)
      obtain ⟨rest', hrest, h⟩ := carries_bracketed ih (by decide) ht h
      exact ⟨rest', hrest, .inr (.array h)⟩
    · obtain ⟨t', rfl, ht⟩ := hst.of_cons (by decide)
      obtain ⟨rest', hrest, h⟩ := carries_bracketed (carries_member ih) (by decide) ht h
      exact ⟨rest', hrest, .inr (.object h)⟩

theorem opens_of_sameLines {s t : PyStr} (hst : SameLines s t) (h : opens s) : opens t := by
  rcases h with h | h
  · obtain ⟨s, rfl⟩ := List.head?_eq_some_iff.mp h
    obtain ⟨t, rfl, -⟩ := hst.of_cons (by decide)
    exact .inl rfl
  · obtain ⟨s, rfl⟩ := List.head?_eq_some_iff.mp h
    obtain ⟨t, rfl, -⟩ := hst.of_cons (by decide)
    exact .inr rfl

theorem overrun_of_sameLines (limit depth : ℕ) {s t : PyStr} (hst : SameLines s t) (h : Overrun limit depth s) :
    Overrun limit depth t := by
  induction depth generalizing s t with
  | zero => exact h.imp (longInt_of_sameLines hst) (opens_of_sameLines hst)
  | succ depth ih =>
    rcases h with h | h | h
    · exact .inl (longInt_of_sameLines hst h)
    · obtain ⟨t', rfl, ht⟩ := hst.of_cons (by decide)
      exact .inr (.array (bracketedOverrun_of_sameLines (carries_value limit depth) (fun _ _ => ih) ht h))
    · obtain ⟨t', rfl, ht⟩ := hst.of_cons (by decide)
      exact .inr (.object (bracketedOverrun_of_sameLines (carries_member (carries_value limit depth))
        (fun _ _ => memberOverrun_of_sameLines fun _ _ => ih) ht h))

theorem jsonText_of_sameLines {limits : Limits} {s t : PyStr} {v : Json} (hst : SameLines s t) (h : JsonText limits s v) :
    JsonText limits t v := by
  obtain ⟨hws, h, hend⟩ := h
  obtain ⟨u, hu, hws⟩ := hst.ws hws
  obtain ⟨rest', hrest, h⟩ := carries_value _ _ hu h
  obtain ⟨e, he, hend⟩ := hrest.ws hend
  rw [he.of_nil] at hend
  exact .mk hws h hend

theorem overruns_of_sameLines {limits : Limits} {s t : PyStr} (hst : SameLines s t) (h : Overruns limits s) : Overruns limits t := by
  obtain ⟨hws, h⟩ := h
  obtain ⟨u, hu, hws⟩ := hst.ws hws
  exact .mk hws (overrun_of_sameLines _ _ hu h)

/-- Reading the ends of lines as newlines changes no value. -/
theorem loads_universalNewlines_ok_iff {limits : Limits} {s : PyStr} {v : Json} :
    loads limits (universalNewlines s) = .ok v ↔ JsonText limits s v := by
  have hsame := sameLines_universalNewlines s
  rw [loads_ok_iff]
  exact ⟨jsonText_of_sameLines hsame.symm, jsonText_of_sameLines hsame⟩

theorem loads_universalNewlines_error_iff {limits : Limits} {s : PyStr} :
    Overruns limits s ↔ ∃ e, loads limits (universalNewlines s) = .error e ∧ e ≠ .decode := by
  have hsame := sameLines_universalNewlines s
  rw [← loads_error_iff]
  exact ⟨overruns_of_sameLines hsame, overruns_of_sameLines hsame.symm⟩

end Carrying

end M5DayLog.Contract
