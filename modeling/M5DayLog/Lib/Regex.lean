import Mathlib.Data.List.Infix
import Mathlib.Logic.Relation

/-! Regular expressions with anchors. A match relates what is left of the text before it to what is left after it; a search
lists all that a match can leave. Dialects differ in what the dot takes and in where `$` stands. -/

namespace Regex

variable {α : Type*}

inductive Pattern (α : Type*)
  | empty
  | any
  | one (p : α → Bool)
  | seq (p q : Pattern α)
  | alt (p q : Pattern α)
  | plus (p : Pattern α)
  | start
  | finish

/-- `p{n}`. -/
def Pattern.times (p : Pattern α) : ℕ → Pattern α
  | 0 => .empty
  | n + 1 => .seq p (p.times n)

structure Dialect (α : Type*) where
  any : α → Bool
  /-- Whether `$` matches before this rest of the text. -/
  atEnd : List α → Bool

inductive Matches (d : Dialect α) (whole : List α) : Pattern α → List α → List α → Prop
  | empty {s} : Matches d whole .empty s s
  | any {c s} (h : d.any c) : Matches d whole .any (c :: s) s
  | one {p c s} (h : p c) : Matches d whole (.one p) (c :: s) s
  | seq {p q s t u} (hp : Matches d whole p s t) (hq : Matches d whole q t u) : Matches d whole (.seq p q) s u
  | left {p q s t} (h : Matches d whole p s t) : Matches d whole (.alt p q) s t
  | right {p q s t} (h : Matches d whole q s t) : Matches d whole (.alt p q) s t
  | once {p s t} (h : Matches d whole p s t) : Matches d whole (.plus p) s t
  | again {p s t u} (h : Matches d whole p s t) (hplus : Matches d whole (.plus p) t u) : Matches d whole (.plus p) s u
  | start : Matches d whole .start whole whole
  | finish {s} (h : d.atEnd s) : Matches d whole .finish s s

/-- Some part of the text matches. -/
def Finds (d : Dialect α) (p : Pattern α) (text : List α) : Prop := ∃ s t, s <:+ text ∧ Matches d text p s t

/-- What is left after one or more rounds of `f`. A round that takes nothing is not followed by another. -/
def closure (f : List α → List (List α)) : ℕ → List α → List (List α)
  | 0, _ => []
  | n + 1, s => (f s).flatMap fun t => t :: if t.length < s.length then closure f n t else []

def taken (p : α → Bool) : List α → List (List α)
  | c :: s => if p c then [s] else []
  | [] => []

variable [DecidableEq α]

/-- All that a match from `s` can leave. -/
def rests (d : Dialect α) (whole : List α) : Pattern α → List α → List (List α)
  | .empty, s => [s]
  | .any, s => taken d.any s
  | .one p, s => taken p s
  | .seq p q, s => (rests d whole p s).flatMap (rests d whole q)
  | .alt p q, s => rests d whole p s ++ rests d whole q s
  | .plus p, s => closure (rests d whole p) (s.length + 1) s
  | .start, s => if s = whole then [s] else []
  | .finish, s => if d.atEnd s then [s] else []

def search (d : Dialect α) (p : Pattern α) (text : List α) : Bool := text.tails.any fun s => !(rests d text p s).isEmpty

omit [DecidableEq α] in
theorem Matches.isSuffix {d : Dialect α} {whole : List α} {p : Pattern α} {s t : List α} (h : Matches d whole p s t) : t <:+ s := by
  induction h with
  | empty | start | finish => exact List.suffix_rfl
  | any | one => exact List.suffix_cons _ _
  | seq _ _ ihp ihq => exact ihq.trans ihp
  | left _ ih | right _ ih | once _ ih => exact ih
  | again _ _ ih ihplus => exact ihplus.trans ih

omit [DecidableEq α] in
/-- Dialects that agree on the text match alike. -/
theorem Matches.congr {d d' : Dialect α} {whole : List α} {p : Pattern α} {s t : List α} (hany : ∀ c ∈ whole, d.any c = d'.any c)
    (hend : ∀ r, r <:+ whole → d.atEnd r = d'.atEnd r) (hs : s <:+ whole) (h : Matches d whole p s t) : Matches d' whole p s t := by
  induction h with
  | empty => exact .empty
  | any h => exact .any (hany _ (hs.subset List.mem_cons_self) ▸ h)
  | one h => exact .one h
  | seq hp _ ihp ihq => exact .seq (ihp hs) (ihq (hp.isSuffix.trans hs))
  | left _ ih => exact .left (ih hs)
  | right _ ih => exact .right (ih hs)
  | once _ ih => exact .once (ih hs)
  | again hp _ ih ihplus => exact .again (ih hs) (ihplus (hp.isSuffix.trans hs))
  | start => exact .start
  | finish h => exact .finish (hend _ hs ▸ h)

omit [DecidableEq α] in
theorem finds_congr {d d' : Dialect α} {p : Pattern α} {text : List α} (hany : ∀ c ∈ text, d.any c = d'.any c)
    (hend : ∀ r, r <:+ text → d.atEnd r = d'.atEnd r) : Finds d p text ↔ Finds d' p text := by
  constructor
  · rintro ⟨s, t, hs, h⟩
    exact ⟨s, t, hs, h.congr hany hend hs⟩
  · rintro ⟨s, t, hs, h⟩
    exact ⟨s, t, hs, h.congr (fun c hc => (hany c hc).symm) (fun r hr => (hend r hr).symm) hs⟩

omit [DecidableEq α] in
theorem mem_taken {p : α → Bool} {s t : List α} : t ∈ taken p s ↔ ∃ c, p c ∧ s = c :: t := by
  cases s with
  | nil => simp [taken]
  | cons c s =>
    rw [taken]
    constructor
    · intro h
      split at h
      · next hc => exact ⟨c, hc, by rw [List.mem_singleton.mp h]⟩
      · cases h
    · rintro ⟨c', hc, heq⟩
      obtain ⟨rfl, rfl⟩ := List.cons.inj heq
      rw [if_pos hc, List.mem_singleton]

omit [DecidableEq α] in
/-- The rounds of `f` are those of its closure, whatever the fuel above the length of the text. -/
theorem mem_closure {f : List α → List (List α)} (hf : ∀ s, ∀ t ∈ f s, t <:+ s) {n : ℕ} {s u : List α} (hn : s.length < n) :
    u ∈ closure f n s ↔ Relation.TransGen (fun s t => t ∈ f s) s u := by
  constructor
  · clear hn
    induction n generalizing s with
    | zero => exact fun h => absurd h List.not_mem_nil
    | succ n ih =>
      intro h
      obtain ⟨t, ht, hu⟩ := List.mem_flatMap.mp h
      rcases List.mem_cons.mp hu with rfl | hu
      · exact .single ht
      · split at hu
        · exact .head ht (ih hu)
        · cases hu
  · intro h
    induction h using Relation.TransGen.head_induction_on generalizing n with
    | single h =>
      obtain ⟨n, rfl⟩ := Nat.exists_eq_succ_of_ne_zero (Nat.ne_zero_of_lt hn)
      exact List.mem_flatMap.mpr ⟨u, h, List.mem_cons_self⟩
    | @head s t h _ ih =>
      obtain ⟨n, rfl⟩ := Nat.exists_eq_succ_of_ne_zero (Nat.ne_zero_of_lt hn)
      rcases Nat.lt_or_ge t.length s.length with hlt | hge
      · refine List.mem_flatMap.mpr ⟨t, h, List.mem_cons_of_mem _ ?_⟩
        rw [if_pos hlt]
        exact ih (by omega)
      -- a round that takes nothing stays where it is
      · rw [← (hf s t h).eq_of_length_le hge]
        exact ih (by have := (hf s t h).length_le; omega)

omit [DecidableEq α] in
theorem matches_plus {d : Dialect α} {whole : List α} {p : Pattern α} {s u : List α} :
    Matches d whole (.plus p) s u ↔ Relation.TransGen (Matches d whole p) s u := by
  constructor
  · intro h
    generalize hq : Pattern.plus p = q at h
    induction h with
    | once h =>
      cases hq
      exact .single h
    | again h _ _ ih =>
      cases hq
      exact .head h (ih rfl)
    | _ => cases hq
  · intro h
    induction h using Relation.TransGen.head_induction_on with
    | single h => exact .once h
    | head h _ ih => exact .again h ih

theorem mem_rests {d : Dialect α} {whole : List α} {p : Pattern α} {s t : List α} :
    t ∈ rests d whole p s ↔ Matches d whole p s t := by
  induction p generalizing s t with
  | empty =>
    rw [rests, List.mem_singleton]
    exact ⟨fun h => h ▸ .empty, fun h => by cases h; rfl⟩
  | any =>
    rw [rests, mem_taken]
    exact ⟨fun ⟨c, hc, h⟩ => h ▸ .any hc, fun h => by cases h with | any hc => exact ⟨_, hc, rfl⟩⟩
  | one p =>
    rw [rests, mem_taken]
    exact ⟨fun ⟨c, hc, h⟩ => h ▸ .one hc, fun h => by cases h with | one hc => exact ⟨_, hc, rfl⟩⟩
  | seq p q ihp ihq =>
    rw [rests, List.mem_flatMap]
    constructor
    · rintro ⟨u, hp, hq⟩
      exact .seq (ihp.mp hp) (ihq.mp hq)
    · intro h
      cases h with
      | seq hp hq => exact ⟨_, ihp.mpr hp, ihq.mpr hq⟩
  | alt p q ihp ihq =>
    rw [rests, List.mem_append, ihp, ihq]
    constructor
    · rintro (h | h)
      · exact .left h
      · exact .right h
    · intro h
      cases h with
      | left h => exact .inl h
      | right h => exact .inr h
  | plus p ih =>
    rw [rests, mem_closure (fun s t ht => (ih.mp ht).isSuffix) (Nat.lt_succ_self _), matches_plus]
    simp only [ih]
  | start =>
    rw [rests]
    split
    · next h =>
      rw [List.mem_singleton, h]
      exact ⟨fun ht => ht ▸ .start, fun ht => by cases ht; rfl⟩
    · next h => exact ⟨fun ht => absurd ht List.not_mem_nil, fun ht => by cases ht; exact absurd rfl h⟩
  | finish =>
    rw [rests]
    split
    · next h =>
      rw [List.mem_singleton]
      exact ⟨fun ht => by subst ht; exact .finish h, fun ht => by cases ht; rfl⟩
    · next h => exact ⟨fun ht => absurd ht List.not_mem_nil, fun ht => by cases ht with | finish ht => exact absurd ht h⟩

/-- The search finds a match whenever there is one. -/
theorem search_iff {d : Dialect α} {p : Pattern α} {text : List α} : search d p text = true ↔ Finds d p text := by
  simp only [search, List.any_eq_true, List.mem_tails, Bool.not_eq_true', List.isEmpty_eq_false_iff_exists_mem, mem_rests]
  exact ⟨fun ⟨s, hs, t, h⟩ => ⟨s, t, hs, h⟩, fun ⟨s, t, hs, h⟩ => ⟨s, hs, t, h⟩⟩

end Regex
