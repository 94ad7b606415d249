import Mathlib.Data.List.TakeWhile
import M5DayLog.Lib.Bytes

/-! A text file as lines and a tail. The tail is what follows the last newline; a line that was torn stands there. -/

namespace Lines

open Bytes

def newline : UInt8 := 0x0a

/-- The lines of a text, each without its newline. -/
def completeLines (b : Bytes) : List Bytes := (b.splitOn newline).dropLast

/-- The text of lines that are all complete. -/
def unlines (ls : List Bytes) : Bytes := ls.flatMap (· ++ [newline])

/-- What one read of a line gives of the rest of a file: the line with its newline, or what there is, up to `n` bytes. -/
def piece (n : ℕ) (rest : Bytes) : Bytes :=
  (rest.takeWhile (· ≠ newline) ++ if newline ∈ rest then [newline] else []).take n

@[simp] theorem unlines_nil : unlines [] = [] := rfl

theorem unlines_append (ls ms : List Bytes) : unlines (ls ++ ms) = unlines ls ++ unlines ms := List.flatMap_append

@[simp] theorem unlines_singleton (l : Bytes) : unlines [l] = l ++ [newline] := by
  simp [unlines]

theorem completeLines_eq_nil {b : Bytes} (h : newline ∉ b) : completeLines b = [] := by
  rw [completeLines, List.splitOn_eq_singleton h, List.dropLast_singleton]

/-- A newline ends a line, whatever follows. -/
theorem completeLines_append (a b : Bytes) :
    completeLines (a ++ newline :: b) = completeLines (a ++ [newline]) ++ completeLines b := by
  rw [completeLines, completeLines, completeLines, List.splitOn_append_cons_self, List.splitOn_append_cons_self,
    List.dropLast_append_of_ne_nil (List.splitOn_ne_nil newline b), List.splitOn_nil, List.dropLast_concat]

theorem completeLines_cons {l : Bytes} (hl : newline ∉ l) (b : Bytes) :
    completeLines (l ++ newline :: b) = l :: completeLines b := by
  rw [completeLines, List.splitOn_append_cons_self_of_not_mem hl, List.dropLast_cons_of_ne_nil (List.splitOn_ne_nil newline b)]
  rfl

theorem completeLines_unlines {ls : List Bytes} (h : ∀ l ∈ ls, newline ∉ l) (b : Bytes) :
    completeLines (unlines ls ++ b) = ls ++ completeLines b := by
  induction ls with
  | nil => rfl
  | cons l ls ih =>
    have hcons : unlines (l :: ls) ++ b = l ++ newline :: (unlines ls ++ b) := by simp [unlines]
    rw [hcons, completeLines_cons (h l (by simp)), ih fun m hm => h m (by simp [hm]), List.cons_append]

/-- A text is one without a newline, or a line and the rest. -/
theorem cases_line (b : Bytes) : newline ∉ b ∨ ∃ l t, newline ∉ l ∧ b = l ++ newline :: t := by
  by_cases h : newline ∈ b
  · obtain ⟨l, t, rfl, hl⟩ := List.eq_append_cons_of_mem h
    exact Or.inr ⟨l, t, hl, rfl⟩
  · exact Or.inl h

theorem piece_line {l : Bytes} (hl : newline ∉ l) (t : Bytes) (n : ℕ) :
    piece n (l ++ newline :: t) = (l ++ [newline]).take n := by
  have hwhile : (l ++ newline :: t).takeWhile (· ≠ newline) = l := by
    rw [List.takeWhile_append_of_pos fun x hx => by simpa using ne_of_mem_of_not_mem hx hl]
    simp
  rw [piece, hwhile, if_pos (by simp)]

theorem piece_tail {b : Bytes} (hb : newline ∉ b) (n : ℕ) : piece n b = b.take n := by
  have hwhile : b.takeWhile (· ≠ newline) = b := List.takeWhile_eq_self_iff.mpr fun x hx => by
    simpa using ne_of_mem_of_not_mem hx hb
  rw [piece, hwhile, if_neg hb, List.append_nil]

end Lines
