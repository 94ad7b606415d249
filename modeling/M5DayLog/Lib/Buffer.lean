import Mathlib.Data.List.Basic

/-! Reads of a buffer, by index. A function goes wrong where it reads outside the buffer, and where one of its loops is not over in
the rounds that it is given; where it has a result, neither has happened. -/

namespace Buffer

/-- How a function goes wrong: by a read at an index outside the buffer, or by a loop that is not over. -/
inductive Fault
  | outside (i : ℕ)
  | endless
  deriving DecidableEq

variable {α β σ : Type}

@[simp] theorem ok_bind (a : α) (f : α → Except Fault β) : Except.ok a >>= f = f a := rfl

@[simp] theorem error_bind (fault : Fault) (f : α → Except Fault β) : Except.error fault >>= f = Except.error fault := rfl

@[simp] theorem pure_eq_ok (a : α) : (pure a : Except Fault α) = Except.ok a := rfl

def readAt (buf : List α) (i : ℕ) : Except Fault α :=
  match buf[i]? with
  | some c => .ok c
  | none => .error (.outside i)

theorem readAt_lt {buf : List α} {i : ℕ} (h : i < buf.length) : readAt buf i = .ok buf[i] := by
  rw [readAt, List.getElem?_eq_getElem h]

/-- The `n` elements from `i` on. All of them are read. -/
def readBlock (buf : List α) : (i n : ℕ) → Except Fault (List α)
  | _, 0 => .ok []
  | i, n + 1 => do
    let c ← readAt buf i
    let cs ← readBlock buf (i + 1) n
    return c :: cs

/-- One round of a loop: it is over with a result, or it goes on in another state. -/
inductive Round (σ β : Type)
  | done (result : β)
  | next (s : σ)

def loop (round : σ → Except Fault (Round σ β)) : ℕ → σ → Except Fault β
  | 0, _ => .error .endless
  | rounds + 1, s => do
    match ← round s with
    | .done result => return result
    | .next s => loop round rounds s

section Loops

variable {round : σ → Except Fault (Round σ β)} {rounds : ℕ} {s t : σ} {result : β}

theorem loop_succ : loop round (rounds + 1) s = (round s >>= fun r => match r with
    | .done result => .ok result
    | .next s => loop round rounds s) := rfl

theorem loop_done (h : round s = .ok (.done result)) : loop round (rounds + 1) s = .ok result := by
  rw [loop_succ, h]
  rfl

theorem loop_next (h : round s = .ok (.next t)) : loop round (rounds + 1) s = loop round rounds t := by
  rw [loop_succ, h, ok_bind]

theorem loop_fault {fault : Fault} (h : round s = .error fault) : loop round (rounds + 1) s = .error fault := by
  rw [loop_succ, h, error_bind]

/-- A loop whose rounds keep an invariant and use up a potential is over in time, with a result that the last round gives. -/
theorem loop_potential (inv : σ → Prop) (potential : σ → ℕ) {post : β → Prop}
    (hround : ∀ s, inv s → (∃ result, round s = .ok (.done result) ∧ post result) ∨
      ∃ t, round s = .ok (.next t) ∧ inv t ∧ potential t < potential s)
    (hs : inv s) (hrounds : potential s < rounds) : ∃ result, loop round rounds s = .ok result ∧ post result := by
  induction rounds generalizing s with
  | zero => exact absurd hrounds (Nat.not_lt_zero _)
  | succ rounds ih =>
    rcases hround s hs with ⟨result, hdone, hpost⟩ | ⟨t, hnext, ht, hless⟩
    · exact ⟨result, loop_done hdone, hpost⟩
    · rw [loop_next hnext]
      exact ih ht (by omega)

end Loops

/-- A result of the first is one of the second. -/
def Extends (x y : Except Fault α) : Prop := ∀ a, x = .ok a → y = .ok a

namespace Extends

variable {x y : Except Fault α}

theorem refl (x : Except Fault α) : Extends x x := fun _ h => h

theorem bind {f g : α → Except Fault β} (h : Extends x y) (hf : ∀ a, Extends (f a) (g a)) : Extends (x >>= f) (y >>= g) := by
  intro b hb
  cases hx : x with
  | error fault =>
    rw [hx] at hb
    cases hb
  | ok a =>
    rw [hx, ok_bind] at hb
    rw [h a hx, ok_bind]
    exact hf a b hb

theorem loop {f g : σ → Except Fault (Round σ β)} (h : ∀ s, Extends (f s) (g s)) (rounds : ℕ) (s : σ) :
    Extends (loop f rounds s) (loop g rounds s) := by
  induction rounds generalizing s with
  | zero => exact refl _
  | succ rounds ih =>
    refine (h s).bind fun r => ?_
    cases r with
    | done result => exact refl _
    | next t => exact ih t

/-- What is read of a buffer is read where more follows it. -/
theorem readAt (buf more : List α) (i : ℕ) : Extends (readAt buf i) (readAt (buf ++ more) i) := by
  intro c hc
  rw [Buffer.readAt] at hc ⊢
  by_cases hi : i < buf.length
  · rwa [List.getElem?_append_left hi]
  · rw [List.getElem?_eq_none (Nat.not_lt.mp hi)] at hc
    cases hc

end Extends

/-- The elements of the buffer from `i` on. -/
structure At (buf : List α) (i : ℕ) (rest : List α) : Prop where
  length : i + rest.length = buf.length
  drop : buf.drop i = rest

namespace At

variable {buf rest : List α} {i n : ℕ} {c : α}

theorem start (buf : List α) : At buf 0 buf := ⟨Nat.zero_add _, rfl⟩

theorem append (pre rest : List α) : At (pre ++ rest) pre.length rest := ⟨List.length_append.symm, List.drop_left⟩

theorem lt_iff (h : At buf i rest) : i < buf.length ↔ rest ≠ [] := by
  rw [← List.length_pos_iff, ← h.length]
  omega

theorem skip (h : At buf i rest) (hn : n ≤ rest.length) : At buf (i + n) (rest.drop n) := by
  have hlength := h.length
  refine ⟨?_, ?_⟩
  · rw [List.length_drop]
    omega
  · rw [← List.drop_drop, h.drop]

theorem tail (h : At buf i (c :: rest)) : At buf (i + 1) rest := h.skip (Nat.succ_le_succ (Nat.zero_le _))

theorem readAt (h : At buf i (c :: rest)) : readAt buf i = .ok c := by
  have hc : buf[i]? = some c := by
    rw [← Nat.add_zero i, ← List.getElem?_drop, h.drop]
    rfl
  rw [Buffer.readAt, hc]

theorem readAt_end (h : At buf i []) : Buffer.readAt buf i = .error (.outside buf.length) := by
  obtain rfl : i = buf.length := h.length
  rw [Buffer.readAt, List.getElem?_eq_none (Nat.le_refl _)]

theorem readBlock (h : At buf i rest) (hn : n ≤ rest.length) : readBlock buf i n = .ok (rest.take n) := by
  induction n generalizing i rest with
  | zero => rw [Buffer.readBlock, List.take_zero]
  | succ n ih =>
    cases rest with
    | nil => exact absurd hn (Nat.not_succ_le_zero n)
    | cons c rest =>
      rw [Buffer.readBlock, h.readAt, ok_bind, ih h.tail (Nat.le_of_succ_le_succ hn)]
      rfl

end At

section Scans

variable {buf l rest : List α} {i : ℕ} {c : α} {p : α → Bool}

def scanRound (p : α → Bool) (buf : List α) (i : ℕ) : Except Fault (Round ℕ ℕ) := do
  let c ← readAt buf i
  if p c then return .done i else return .next (i + 1)

/-- A scan that knows no length: it goes on until it finds what it looks for. -/
def scan (p : α → Bool) (buf : List α) (i : ℕ) : Except Fault ℕ := loop (scanRound p buf) (buf.length + 1) i

def skipRound (p : α → Bool) (buf : List α) (i : ℕ) : Except Fault (Round ℕ ℕ) := do
  if i < buf.length then
    let c ← readAt buf i
    if p c then return .next (i + 1) else return .done i
  else return .done i

/-- A scan that stops at the end of the buffer. -/
def skip (p : α → Bool) (buf : List α) (i : ℕ) : Except Fault ℕ := loop (skipRound p buf) (buf.length + 1) i

theorem scan_found (h : At buf i (l ++ c :: rest)) (hl : ∀ d ∈ l, p d = false) (hc : p c = true) :
    scan p buf i = .ok (i + l.length) := by
  have hloop : ∀ rounds, l.length < rounds → loop (scanRound p buf) rounds i = .ok (i + l.length) := by
    intro rounds
    induction rounds generalizing i l with
    | zero => exact fun hrounds => absurd hrounds (Nat.not_lt_zero _)
    | succ rounds ih =>
      intro hrounds
      cases l with
      | nil =>
        apply loop_done
        rw [scanRound, At.readAt h, ok_bind, if_pos hc]
        rfl
      | cons d l =>
        obtain ⟨hd, hl⟩ := List.forall_mem_cons.mp hl
        have hnext : scanRound p buf i = .ok (.next (i + 1)) := by
          rw [scanRound, At.readAt h, ok_bind, hd]
          rfl
        rw [loop_next hnext, ih h.tail hl (Nat.lt_of_succ_lt_succ hrounds), List.length_cons, Nat.add_assoc, Nat.add_comm 1]
  have hlength := h.length
  rw [List.length_append] at hlength
  exact hloop _ (by omega)

/-- A scan that does not find what it looks for reads behind the buffer. -/
theorem scan_outside (h : At buf i rest) (hrest : ∀ d ∈ rest, p d = false) : scan p buf i = .error (.outside buf.length) := by
  have hloop : ∀ rounds, rest.length < rounds → loop (scanRound p buf) rounds i = .error (.outside buf.length) := by
    intro rounds
    induction rounds generalizing i rest with
    | zero => exact fun hrounds => absurd hrounds (Nat.not_lt_zero _)
    | succ rounds ih =>
      intro hrounds
      cases rest with
      | nil =>
        apply loop_fault
        rw [scanRound, h.readAt_end]
        rfl
      | cons d rest =>
        obtain ⟨hd, hrest⟩ := List.forall_mem_cons.mp hrest
        have hnext : scanRound p buf i = .ok (.next (i + 1)) := by
          rw [scanRound, At.readAt h, ok_bind, hd]
          rfl
        rw [loop_next hnext]
        exact ih h.tail hrest (Nat.lt_of_succ_lt_succ hrounds)
  have hlength := h.length
  exact hloop _ (by omega)

theorem skip_run (h : At buf i rest) : ∃ j, skip p buf i = .ok j ∧ At buf j (rest.dropWhile p) := by
  refine loop_potential (fun j => ∃ more, At buf j more ∧ more.dropWhile p = rest.dropWhile p) (buf.length - ·) (fun j hj => ?_)
    ⟨rest, h, rfl⟩ (by omega)
  obtain ⟨more, hmore, hsame⟩ := hj
  have hlength := hmore.length
  cases more with
  | nil =>
    refine Or.inl ⟨j, ?_, hsame ▸ hmore⟩
    rw [skipRound, if_neg (by simp at hlength; omega)]
    rfl
  | cons c more =>
    rw [List.length_cons] at hlength
    rw [skipRound, if_pos (by omega), hmore.readAt, ok_bind]
    rw [List.dropWhile_cons] at hsame
    cases hc : p c with
    | true =>
      rw [if_pos hc] at hsame
      exact Or.inr ⟨j + 1, rfl, ⟨more, hmore.tail, hsame⟩, by omega⟩
    | false =>
      rw [if_neg (by simp [hc])] at hsame
      exact Or.inl ⟨j, rfl, hsame ▸ hmore⟩

end Scans

end Buffer
