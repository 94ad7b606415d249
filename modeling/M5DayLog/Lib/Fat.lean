import Mathlib.Data.List.AList
import M5DayLog.Lib.Bytes
import M5DayLog.Lib.Prog

/-! A FAT volume behind a C standard library. A rename never replaces an existing name, a failing call has no
effect, and a failing or interrupted write leaves a prefix of its data. `ENOENT` and `EEXIST` are answers
about the volume; a fault answers with any other error code. -/

namespace Fat

open Bytes

abbrev Path := Bytes

inductive Node
  | file (data : Bytes)
  | dir
  deriving DecidableEq

abbrev Volume := AList fun _ : Path => Node

inductive Errno
  | ENOENT
  | EEXIST
  | other (code : ℕ)
  deriving DecidableEq

structure Stat where
  isDir : Bool
  size : ℕ
  deriving DecidableEq

inductive Mode
  | read
  | write
  | append
  | update
  deriving DecidableEq

structure Read where
  data : Bytes
  error : Bool
  deriving DecidableEq

/-- An open directory: the names that successive reads give, and whether the last read fails. -/
structure Dir where
  names : List Bytes
  error : Bool
  deriving DecidableEq

inductive Call
  | stat (p : Path)
  | malloc (n : ℕ)
  | fopen (p : Path) (m : Mode)
  | fread (p : Path) (pos n : ℕ)
  | fwrite (p : Path) (pos : ℕ) (data : Bytes)
  | fappend (p : Path) (data : Bytes)
  | fflush (p : Path)
  | fsync (p : Path)
  | fseek (p : Path) (pos : ℕ)
  | fclose (p : Path)
  | truncate (p : Path) (n : ℕ)
  | rename (p q : Path)
  | remove (p : Path)
  | mkdir (p : Path)
  | opendir (p : Path)
  | closedir (p : Path)
  deriving DecidableEq

abbrev Call.Ans : Call → Type
  | stat _ => Except Errno Stat
  | malloc _ => Bool
  | fopen _ _ => Bool
  | fread _ _ _ => Read
  | fwrite _ _ _ => ℕ
  | fappend _ _ => ℕ
  | fflush _ => Bool
  | fsync _ => Bool
  | fseek _ _ => Bool
  | fclose _ => Bool
  | truncate _ _ => Bool
  | rename _ _ => Except Errno Unit
  | remove _ => Except Errno Unit
  | mkdir _ => Except Errno Unit
  | opendir _ => Option Dir
  | closedir _ => Bool

/-- A fault of one call: an I/O error with its code and the bytes transferred before it, or the order in which
a directory is read and whether reading it ends in an error. -/
inductive Fault
  | io (code n : ℕ)
  | order (names : List Bytes) (error : Bool)
  deriving DecidableEq

/-- The volume, and whether any directory call has failed so far. -/
structure Card where
  vol : Volume
  dirFailed : Bool

abbrev Sys := Prog Call Call.Ans

section Paths

def join (d n : Path) : Path := d ++ slash :: n

def dirname (p : Path) : Path := ((p.reverse.dropWhile (· ≠ slash)).drop 1).reverse

/-- The name of `p` as a child of the directory `d`. -/
def childName (d p : Path) : Option Bytes :=
  let n := p.drop (d.length + 1)
  if p = join d n ∧ n ≠ [] ∧ slash ∉ n then some n else none

def children (v : Volume) (d : Path) : List Bytes := v.keys.filterMap (childName d)

def isDot (n : Bytes) : Bool := n = lit "." ∨ n = lit ".."

theorem join_inj {d n n' : Path} : join d n = join d n' ↔ n = n' := by
  simp [join]

theorem childName_eq_some {d p : Path} {n : Bytes} : childName d p = some n ↔ p = join d n ∧ n ≠ [] ∧ slash ∉ n := by
  unfold childName
  dsimp only
  rw [Option.ite_none_right_eq_some]
  constructor
  · rintro ⟨h, hn⟩
    obtain rfl := Option.some.inj hn
    exact h
  · rintro ⟨rfl, h⟩
    have hdrop : (join d n).drop (d.length + 1) = n := by simp [join, ← List.drop_drop]
    simp [hdrop, h]

theorem mem_children {v : Volume} {d : Path} {n : Bytes} :
    n ∈ children v d ↔ (v.lookup (join d n)).isSome = true ∧ n ≠ [] ∧ slash ∉ n := by
  simp only [children, List.mem_filterMap, childName_eq_some, AList.lookup_isSome, AList.mem_keys]
  constructor
  · rintro ⟨p, hp, rfl, h⟩
    exact ⟨hp, h⟩
  · rintro ⟨hp, h⟩
    exact ⟨_, hp, rfl, h⟩

theorem children_nodup (v : Volume) (d : Path) : (children v d).Nodup := by
  refine v.keys_nodup.filterMap fun p p' n hp hp' => ?_
  rw [Option.mem_def, childName_eq_some] at hp hp'
  exact hp.1.trans hp'.1.symm

end Paths

namespace Card

variable (c : Card)

/-- The data of a regular file. -/
def file? (p : Path) : Option Bytes :=
  match c.vol.lookup p with
  | some (.file b) => some b
  | _ => none

def isDir (p : Path) : Bool := c.vol.lookup p = some .dir

def put (p : Path) (n : Node) : Card := { c with vol := c.vol.insert p n }

def del (p : Path) : Card := { c with vol := c.vol.erase p }

def move (p q : Path) (n : Node) : Card := { c with vol := (c.vol.erase p).insert q n }

/-- The file's data with `d` written at `pos`. -/
def overwrite (pos : ℕ) (d b : Bytes) : Bytes := b.take pos ++ d ++ b.drop (pos + d.length)

theorem overwrite_length (pos : ℕ) (d b : Bytes) :
    (overwrite pos d b).length = min pos b.length + d.length + (b.length - (pos + d.length)) := by
  simp [overwrite, Nat.add_assoc]

/-- The card after the first `n` bytes of a write. -/
def writeAt (p : Path) (pos : ℕ) (d : Bytes) (n : ℕ) : Card :=
  match c.file? p with
  | some b => c.put p (.file (overwrite pos (d.take n) b))
  | none => c

def appendTo (p : Path) (d : Bytes) (n : ℕ) : Card :=
  match c.file? p with
  | some b => c.put p (.file (b ++ d.take n))
  | none => c

def fail : Card := { c with dirFailed := true }

def statAns (p : Path) : Except Errno Stat :=
  match c.vol.lookup p with
  | none => .error .ENOENT
  | some (.file b) => .ok ⟨false, b.length⟩
  | some .dir => .ok ⟨true, 0⟩

def openAns (p : Path) : Mode → Bool × Card
  | .read | .update => ((c.file? p).isSome, c)
  | .write => if c.isDir p ∨ ¬ c.isDir (dirname p) then (false, c) else (true, c.put p (.file []))
  | .append =>
    if c.isDir p ∨ ¬ c.isDir (dirname p) then (false, c)
    else (true, if (c.file? p).isSome then c else c.put p (.file []))

/-- FAT refuses to rename onto an existing name. -/
def renameAns (p q : Path) : Except Errno Unit × Card :=
  match c.vol.lookup p with
  | none => (.error .ENOENT, c)
  | some n => if (c.vol.lookup q).isSome then (.error .EEXIST, c) else (.ok (), c.move p q n)

def removeAns (p : Path) : Except Errno Unit × Card :=
  match c.vol.lookup p with
  | none => (.error .ENOENT, c)
  | some .dir => (.error (.other 21), c)
  | some (.file _) => (.ok (), c.del p)

def mkdirAns (p : Path) : Except Errno Unit × Card :=
  if (c.vol.lookup p).isSome then (.error .EEXIST, c)
  else if c.isDir (dirname p) then (.ok (), c.put p .dir) else (.error .ENOENT, c)

/-- The listing `names` is one the directory can give: every name once, with or without the dot entries, or
some of them before an error. -/
def Lists (p : Path) (names : List Bytes) (error : Bool) : Prop :=
  if error then (names.filter (!isDot ·)).Subperm (children c.vol p)
  else (names.filter (!isDot ·)).Perm (children c.vol p)

omit c in
theorem lawfulBEq_path : LawfulBEq Path := inferInstance

instance (p : Path) (names : List Bytes) (error : Bool) : Decidable (c.Lists p names error) := by
  have := lawfulBEq_path
  unfold Lists
  infer_instance

def opendirAns (p : Path) : Option Dir × Card :=
  if c.isDir p then (some ⟨children c.vol p, false⟩, c) else (none, c.fail)

/-- An open directory gives names of `p`, each once, and all of them unless it ends in an error. -/
structure Enumerates (p : Path) (d : Dir) : Prop where
  nodup : (d.names.filter (!isDot ·)).Nodup
  sound : ∀ n ∈ d.names, isDot n = false → n ∈ children c.vol p
  complete : d.error = false → ∀ n ∈ children c.vol p, isDot n = false → n ∈ d.names

theorem enumerates_children (p : Path) : c.Enumerates p ⟨children c.vol p, false⟩ :=
  ⟨(children_nodup c.vol p).filter _, fun _ h _ => h, fun _ _ h _ => h⟩

theorem Lists.enumerates {p : Path} {names : List Bytes} {error : Bool} (h : c.Lists p names error) :
    c.Enumerates p ⟨names, error⟩ := by
  have hmem : ∀ n ∈ names, isDot n = false → n ∈ names.filter (!isDot ·) := fun n hn hd =>
    List.mem_filter.mpr ⟨hn, by simp [hd]⟩
  cases error with
  | true =>
    simp only [Lists, if_true] at h
    obtain ⟨l, hl, hsub⟩ := id h
    exact ⟨hl.nodup_iff.mp (hsub.nodup (children_nodup c.vol p)), fun n hn hd => h.subset (hmem n hn hd), by simp⟩
  | false =>
    simp only [Lists, Bool.false_eq_true, if_false] at h
    exact ⟨h.nodup_iff.mpr (children_nodup c.vol p), fun n hn hd => h.subset (hmem n hn hd),
      fun _ n hn _ => (List.mem_filter.mp (h.mem_iff.mpr hn)).1⟩

/-- A directory read in the order `names`, when the directory can give that order. -/
def opendirOrder (p : Path) (names : List Bytes) (error : Bool) : Option Dir × Card :=
  if c.isDir p ∧ c.Lists p names error then (some ⟨names, error⟩, if error then c.fail else c)
  else c.opendirAns p

/-- The answer without a fault. -/
def calm : (o : Call) → o.Ans × Card
  | .stat p => (c.statAns p, c)
  | .malloc _ => (true, c)
  | .fopen p m => c.openAns p m
  | .fread p pos n => (⟨(((c.file? p).getD []).drop pos).take n, false⟩, c)
  | .fwrite p pos d => (d.length, c.writeAt p pos d d.length)
  | .fappend p d => (d.length, c.appendTo p d d.length)
  | .fflush _ | .fsync _ | .fseek _ _ | .fclose _ => (true, c)
  | .truncate p n => (true, match c.file? p with | some b => c.put p (.file (b.take n)) | none => c)
  | .rename p q => c.renameAns p q
  | .remove p => c.removeAns p
  | .mkdir p => c.mkdirAns p
  | .opendir p => c.opendirAns p
  | .closedir _ => (true, c)

/-- The answer under an I/O error: a code other than `ENOENT` and `EEXIST`, and `n` bytes transferred. -/
def broken (code n : ℕ) : (o : Call) → o.Ans × Card
  | .stat _ => (.error (.other code), c)
  | .malloc _ => (false, c)
  | .fopen _ _ => (false, c)
  | .fread p pos k => (⟨(((c.file? p).getD []).drop pos).take (min n (k - 1)), true⟩, c)
  | .fwrite p pos d => (min n (d.length - 1), c.writeAt p pos d (min n (d.length - 1)))
  | .fappend p d => (min n (d.length - 1), c.appendTo p d (min n (d.length - 1)))
  | .fflush _ | .fsync _ | .fseek _ _ | .fclose _ | .truncate _ _ => (false, c)
  | .rename _ _ => (.error (.other code), c)
  | .remove _ => (.error (.other code), c)
  | .mkdir _ => (.error (.other code), c)
  | .opendir _ => (none, c.fail)
  | .closedir _ => (false, c.fail)

def act : (o : Call) → Option Fault → Card → o.Ans × Card
  | o, none, c => c.calm o
  | o, some (.io code n), c => c.broken code n o
  | .opendir p, some (.order names error), c => c.opendirOrder p names error
  | o, some (.order _ _), c => c.calm o

/-- Power lost inside a call: a write has put down its first `n` bytes, every other call is not begun. -/
def cutAt : Call → ℕ → Card → Card
  | .fwrite p pos d, n, c => c.writeAt p pos d n
  | .fappend p d, n, c => c.appendTo p d n
  | _, _, c => c

section Lookup

variable {c : Card} {p q r : Path} {n : Node} {b : Bytes}

@[simp] theorem lookup_put : (c.put p n).vol.lookup q = if q = p then some n else c.vol.lookup q := by
  unfold put
  split
  case isTrue h => rw [h, AList.lookup_insert]
  case isFalse h => rw [AList.lookup_insert_ne h]

@[simp] theorem lookup_del : (c.del p).vol.lookup q = if q = p then none else c.vol.lookup q := by
  unfold del
  split
  case isTrue h => rw [h, AList.lookup_erase]
  case isFalse h => rw [AList.lookup_erase_ne h]

@[simp] theorem lookup_move : (c.move p q n).vol.lookup r =
    if r = q then some n else if r = p then none else c.vol.lookup r := by
  unfold move
  split
  case isTrue h => rw [h, AList.lookup_insert]
  case isFalse h =>
    rw [AList.lookup_insert_ne h]
    exact lookup_del

theorem put_put (n' : Node) : (c.put p n).put p n' = c.put p n' := by
  simp [put, AList.insert_insert]

@[simp] theorem dirFailed_put : (c.put p n).dirFailed = c.dirFailed := rfl
@[simp] theorem dirFailed_del : (c.del p).dirFailed = c.dirFailed := rfl
@[simp] theorem dirFailed_move : (c.move p q n).dirFailed = c.dirFailed := rfl

theorem file?_eq_some : c.file? p = some b ↔ c.vol.lookup p = some (.file b) := by
  unfold file?
  split
  case h_1 b' h => simp [h]
  case h_2 h => simpa using h b

theorem file?_put : (c.put p (.file b)).file? p = some b := file?_eq_some.mpr (by simp)

theorem file?_writeAt {d : Bytes} {i k : ℕ} (h : c.file? p = some b) :
    (c.writeAt p i d k).file? p = some (overwrite i (d.take k) b) := by
  rw [writeAt, h]
  exact file?_put

theorem lookup_writeAt {d : Bytes} {pos k : ℕ} (hq : q ≠ p) : (c.writeAt p pos d k).vol.lookup q = c.vol.lookup q := by
  unfold writeAt
  split
  · simp [hq]
  · rfl

theorem statAns_isDir {st : Stat} (h : c.statAns p = .ok st) : st.isDir = c.isDir p := by
  unfold statAns at h
  unfold isDir
  cases hl : c.vol.lookup p with
  | none => simp [hl] at h
  | some n => cases n <;> simp [hl] at h ⊢ <;> simp [← h]

theorem writeAt_new (h : c.vol.lookup p = some (.file [])) (d : Bytes) (n : ℕ) :
    c.writeAt p 0 d n = c.put p (.file (d.take n)) := by
  simp [writeAt, file?_eq_some.mpr h, overwrite]

end Lookup

end Card

def device : Device Call Call.Ans Card Fault where
  act := Card.act
  cut := Card.cutAt

section Calls

def stat (p : Path) : Sys (Except Errno Stat) := .op (Call.stat p)
def malloc (n : ℕ) : Sys Bool := .op (Call.malloc n)
def fopen (p : Path) (m : Mode) : Sys Bool := .op (Call.fopen p m)
def fread (p : Path) (pos n : ℕ) : Sys Read := .op (Call.fread p pos n)
def fwrite (p : Path) (pos : ℕ) (d : Bytes) : Sys ℕ := .op (Call.fwrite p pos d)
def fappend (p : Path) (d : Bytes) : Sys ℕ := .op (Call.fappend p d)
def fflush (p : Path) : Sys Bool := .op (Call.fflush p)
def fsync (p : Path) : Sys Bool := .op (Call.fsync p)
def fseek (p : Path) (pos : ℕ) : Sys Bool := .op (Call.fseek p pos)
def fclose (p : Path) : Sys Bool := .op (Call.fclose p)
def truncate (p : Path) (n : ℕ) : Sys Bool := .op (Call.truncate p n)
def rename (p q : Path) : Sys (Except Errno Unit) := .op (Call.rename p q)
def remove (p : Path) : Sys (Except Errno Unit) := .op (Call.remove p)
def mkdir (p : Path) : Sys (Except Errno Unit) := .op (Call.mkdir p)
def opendir (p : Path) : Sys (Option Dir) := .op (Call.opendir p)
def closedir (p : Path) : Sys Bool := .op (Call.closedir p)

end Calls

section Rules

/-- The allowed faults include an I/O error. -/
def IoFault (A : Fault → Prop) : Prop := ∃ code n, A (.io code n)

variable {A : Fault → Prop} {C : Card → Prop} {c : Card} {p q : Path}

/-- A call is settled by its calm answer, its answers under an I/O error, and, for `opendir`, its orders. -/
theorem wp_op {o : Call} {Q : o.Ans → Card → Prop} (hcut : ∀ n, C (Card.cutAt o n c))
    (hcalm : Q (c.calm o).1 (c.calm o).2)
    (hio : IoFault A → ∀ code n, Q (c.broken code n o).1 (c.broken code n o).2)
    (horder : ∀ p names error, o = .opendir p → A (.order names error) →
      Q (Card.act o (some (.order names error)) c).1 (Card.act o (some (.order names error)) c).2) :
    device.wp A C (.op o) Q c := by
  refine ⟨hcut, fun f hf => ?_⟩
  rcases f with _ | ⟨code, n⟩ | ⟨names, error⟩
  · cases o <;> exact hcalm
  · cases o <;> exact hio ⟨code, n, hf _ rfl⟩ code n
  · cases o
    case opendir p => exact horder p names error rfl (hf _ rfl)
    all_goals exact hcalm

theorem wp_stat {Q : Except Errno Stat → Card → Prop} (hC : C c) (h : Q (c.statAns p) c)
    (hf : IoFault A → ∀ code, Q (.error (.other code)) c) : device.wp A C (stat p) Q c :=
  wp_op (fun _ => hC) h (fun hA code _ => hf hA code) (by simp)

theorem wp_malloc {n : ℕ} {Q : Bool → Card → Prop} (hC : C c) (h : Q true c) (hf : IoFault A → Q false c) :
    device.wp A C (malloc n) Q c :=
  wp_op (fun _ => hC) h (fun hA _ _ => hf hA) (by simp)

theorem wp_fopen {m : Mode} {Q : Bool → Card → Prop} (hC : C c) (h : Q (c.openAns p m).1 (c.openAns p m).2)
    (hf : IoFault A → Q false c) : device.wp A C (fopen p m) Q c :=
  wp_op (fun _ => hC) h (fun hA _ _ => hf hA) (by simp)

theorem wp_fread {pos n : ℕ} {Q : Read → Card → Prop} (hC : C c)
    (h : Q ⟨(((c.file? p).getD []).drop pos).take n, false⟩ c)
    (hf : IoFault A → ∀ k, Q ⟨(((c.file? p).getD []).drop pos).take (min k (n - 1)), true⟩ c) :
    device.wp A C (fread p pos n) Q c :=
  wp_op (fun _ => hC) h (fun hA _ k => hf hA k) (by simp)

theorem wp_fwrite {pos : ℕ} {d : Bytes} {Q : ℕ → Card → Prop} (hC : ∀ n, C (c.writeAt p pos d n))
    (h : Q d.length (c.writeAt p pos d d.length))
    (hf : IoFault A → ∀ n, n ≤ d.length - 1 → Q n (c.writeAt p pos d n)) :
    device.wp A C (fwrite p pos d) Q c :=
  wp_op hC h (fun hA _ n => hf hA _ (Nat.min_le_right ..)) (by simp)

theorem wp_fappend {d : Bytes} {Q : ℕ → Card → Prop} (hC : ∀ n, C (c.appendTo p d n))
    (h : Q d.length (c.appendTo p d d.length))
    (hf : IoFault A → ∀ n, n ≤ d.length - 1 → Q n (c.appendTo p d n)) :
    device.wp A C (fappend p d) Q c :=
  wp_op hC h (fun hA _ n => hf hA _ (Nat.min_le_right ..)) (by simp)

theorem wp_fflush {Q : Bool → Card → Prop} (hC : C c) (h : Q true c) (hf : IoFault A → Q false c) :
    device.wp A C (fflush p) Q c :=
  wp_op (fun _ => hC) h (fun hA _ _ => hf hA) (by simp)

theorem wp_fsync {Q : Bool → Card → Prop} (hC : C c) (h : Q true c) (hf : IoFault A → Q false c) :
    device.wp A C (fsync p) Q c :=
  wp_op (fun _ => hC) h (fun hA _ _ => hf hA) (by simp)

theorem wp_fseek {pos : ℕ} {Q : Bool → Card → Prop} (hC : C c) (h : Q true c) (hf : IoFault A → Q false c) :
    device.wp A C (fseek p pos) Q c :=
  wp_op (fun _ => hC) h (fun hA _ _ => hf hA) (by simp)

theorem wp_fclose {Q : Bool → Card → Prop} (hC : C c) (h : Q true c) (hf : IoFault A → Q false c) :
    device.wp A C (fclose p) Q c :=
  wp_op (fun _ => hC) h (fun hA _ _ => hf hA) (by simp)

theorem wp_truncate {n : ℕ} {Q : Bool → Card → Prop} (hC : C c)
    (h : Q true (match c.file? p with | some b => c.put p (.file (b.take n)) | none => c)) (hf : IoFault A → Q false c) :
    device.wp A C (truncate p n) Q c :=
  wp_op (fun _ => hC) h (fun hA _ _ => hf hA) (by simp)

theorem wp_rename {Q : Except Errno Unit → Card → Prop} (hC : C c)
    (h : Q (c.renameAns p q).1 (c.renameAns p q).2)
    (hf : IoFault A → ∀ code, Q (.error (.other code)) c) : device.wp A C (rename p q) Q c :=
  wp_op (fun _ => hC) h (fun hA code _ => hf hA code) (by simp)

theorem wp_remove {Q : Except Errno Unit → Card → Prop} (hC : C c)
    (h : Q (c.removeAns p).1 (c.removeAns p).2)
    (hf : IoFault A → ∀ code, Q (.error (.other code)) c) : device.wp A C (remove p) Q c :=
  wp_op (fun _ => hC) h (fun hA code _ => hf hA code) (by simp)

/-- An open directory is read in some order, to its end or to an error; where it is not opened or not read to its
end, the card remembers. -/
theorem wp_opendir {Q : Option Dir → Card → Prop} (hC : C c)
    (h : c.isDir p = true → ∀ names, c.Enumerates p ⟨names, false⟩ → Q (some ⟨names, false⟩) c)
    (herr : ∀ names, A (.order names true) → c.isDir p = true → c.Enumerates p ⟨names, true⟩ →
      Q (some ⟨names, true⟩) c.fail)
    (hnone : IoFault A ∨ c.isDir p = false → Q none c.fail) : device.wp A C (opendir p) Q c := by
  have hcalm : Q (c.opendirAns p).1 (c.opendirAns p).2 := by
    unfold Card.opendirAns
    split
    case isTrue hd => exact h hd _ (c.enumerates_children p)
    case isFalse hd => exact hnone (Or.inr (by simpa using hd))
  refine wp_op (fun _ => hC) hcalm (fun hA _ _ => hnone (Or.inl hA)) ?_
  rintro q names error hq hA
  obtain rfl : p = q := by simpa using hq
  simp only [Card.act, Card.opendirOrder]
  split
  case isTrue hl =>
    have henum := hl.2.enumerates
    cases error with
    | true => exact herr names hA hl.1 henum
    | false => exact h hl.1 names henum
  case isFalse => exact hcalm

theorem wp_closedir {Q : Bool → Card → Prop} (hC : C c) (h : Q true c) (hf : IoFault A → Q false c.fail) :
    device.wp A C (closedir p) Q c :=
  wp_op (fun _ => hC) h (fun hA _ _ => hf hA) (by simp)

end Rules

section Footprint

/-- The calls that may change or move away what is at a path. -/
def Call.edits : Call → Path → Bool
  | .fopen p .write, q | .fopen p .append, q | .fwrite p _ _, q | .fappend p _, q | .truncate p _, q | .remove p, q => p = q
  | .rename p _, q => p = q
  | _, _ => false

/-- The calls that may put something at a path. -/
def Call.creates : Call → Path → Bool
  | .fopen p .write, q | .fopen p .append, q | .mkdir p, q => p = q
  | .rename _ p, q => p = q
  | _, _ => false

variable {A : Fault → Prop} {c : Card} {q : Path} {n : Node} {o : Call}

/-- What one call can do to the volume: no name is ever replaced by another. -/
inductive Changes (o : Call) (c : Card) : Volume → Prop
  | same : Changes o c c.vol
  | edit (p : Path) (n : Node) (h : o.edits p = true) (hsome : (c.vol.lookup p).isSome = true) : Changes o c (c.put p n).vol
  | create (p : Path) (n : Node) (h : o.creates p = true) (hfree : c.vol.lookup p = none) : Changes o c (c.put p n).vol
  | remove (p : Path) (h : o.edits p = true) : Changes o c (c.del p).vol
  | move (p q : Path) (n : Node) (hp : o.edits p = true) (hq : o.creates q = true) (hfree : c.vol.lookup q = none) :
    Changes o c (c.move p q n).vol

theorem changes_writeAt (p : Path) (pos : ℕ) (d : Bytes) (k : ℕ) : Changes (.fwrite p pos d) c (c.writeAt p pos d k).vol := by
  unfold Card.writeAt
  split
  case h_1 b hfile => exact .edit p _ (by simp [Call.edits]) (by simp [Card.file?_eq_some.mp hfile])
  case h_2 => exact .same

theorem changes_calm (o : Call) (c : Card) : Changes o c (c.calm o).2.vol := by
  cases o with
  | fopen p m =>
    have hnew : (m = .write ∨ m = .append) → Changes (.fopen p m) c (c.put p (.file [])).vol := by
      intro hm
      cases hl : c.vol.lookup p with
      | none => exact .create p _ (by rcases hm with rfl | rfl <;> simp [Call.creates]) hl
      | some n => exact .edit p _ (by rcases hm with rfl | rfl <;> simp [Call.edits]) (by simp [hl])
    cases m with
    | read => exact .same
    | update => exact .same
    | write =>
      simp only [Card.calm, Card.openAns]
      split
      · exact .same
      · exact hnew (Or.inl rfl)
    | append =>
      simp only [Card.calm, Card.openAns]
      split
      · exact .same
      · simp only
        split
        · exact .same
        · exact hnew (Or.inr rfl)
  | fwrite p pos d => exact changes_writeAt p pos d _
  | fappend p d =>
    simp only [Card.calm, Card.appendTo]
    split
    case h_1 b hfile => exact .edit p _ (by simp [Call.edits]) (by simp [Card.file?_eq_some.mp hfile])
    case h_2 => exact .same
  | truncate p k =>
    simp only [Card.calm]
    split
    case h_1 b hfile => exact .edit p _ (by simp [Call.edits]) (by simp [Card.file?_eq_some.mp hfile])
    case h_2 => exact .same
  | rename p p' =>
    simp only [Card.calm, Card.renameAns]
    split
    · exact .same
    · split
      · exact .same
      case isFalse hfree => exact .move p p' _ (by simp [Call.edits]) (by simp [Call.creates]) (by simpa using hfree)
  | remove p =>
    simp only [Card.calm, Card.removeAns]
    split
    · exact .same
    · exact .same
    · exact .remove p (by simp [Call.edits])
  | mkdir p =>
    simp only [Card.calm, Card.mkdirAns]
    split
    · exact .same
    case isFalse hfree =>
      split
      · exact .create p _ (by simp [Call.creates]) (by simpa using hfree)
      · exact .same
  | opendir p =>
    simp only [Card.calm, Card.opendirAns]
    split <;> exact .same
  | _ => exact .same

theorem changes_cut (o : Call) (k : ℕ) (c : Card) : Changes o c (Card.cutAt o k c).vol := by
  cases o with
  | fwrite p pos d => exact changes_writeAt p pos d k
  | fappend p d =>
    simp only [Card.cutAt, Card.appendTo]
    split
    case h_1 b hfile => exact .edit p _ (by simp [Call.edits]) (by simp [Card.file?_eq_some.mp hfile])
    case h_2 => exact .same
  | _ => exact .same

/-- A call under a fault leaves the card as a loss of power might. -/
theorem changes_broken (code k : ℕ) (o : Call) (c : Card) : Changes o c (c.broken code k o).2.vol := by
  cases o with
  | fwrite p pos d => exact changes_cut (.fwrite p pos d) _ c
  | fappend p d => exact changes_cut (.fappend p d) _ c
  | _ => exact .same

theorem changes_act (o : Call) (f : Option Fault) (c : Card) : Changes o c (Card.act o f c).2.vol := by
  rcases f with _ | ⟨code, k⟩ | ⟨names, error⟩
  · cases o <;> exact changes_calm _ c
  · cases o <;> exact changes_broken code k _ c
  · cases o with
    | opendir p =>
      simp only [Card.act, Card.opendirOrder, Card.opendirAns]
      split
      · split <;> exact .same
      · split <;> exact .same
    | _ => exact changes_calm _ c

/-- What is at a path stays there under a call that does not edit it. -/
theorem Changes.lookup_of_edits {v : Volume} (hc : Changes o c v) (h : o.edits q = false) (hn : c.vol.lookup q = some n) :
    v.lookup q = some n := by
  cases hc with
  | same => exact hn
  | edit p x hp _ =>
    have hne : q ≠ p := by
      rintro rfl
      simp [h] at hp
    rw [Card.lookup_put, if_neg hne, hn]
  | create p x _ hfree =>
    have hne : q ≠ p := by
      rintro rfl
      simp [hn] at hfree
    rw [Card.lookup_put, if_neg hne, hn]
  | remove p hp =>
    have hne : q ≠ p := by
      rintro rfl
      simp [h] at hp
    rw [Card.lookup_del, if_neg hne, hn]
  | move p p' x hp _ hfree =>
    have hne : q ≠ p := by
      rintro rfl
      simp [h] at hp
    have hne' : q ≠ p' := by
      rintro rfl
      simp [hn] at hfree
    rw [Card.lookup_move, if_neg hne', if_neg hne, hn]

/-- A path stays free under a call that does not create it. -/
theorem Changes.lookup_of_creates {v : Volume} (hc : Changes o c v) (h : o.creates q = false) (hn : c.vol.lookup q = none) :
    v.lookup q = none := by
  cases hc with
  | same => exact hn
  | edit p x _ hsome =>
    have hne : q ≠ p := by
      rintro rfl
      simp [hn] at hsome
    rw [Card.lookup_put, if_neg hne, hn]
  | create p x hp _ =>
    have hne : q ≠ p := by
      rintro rfl
      simp [h] at hp
    rw [Card.lookup_put, if_neg hne, hn]
  | remove p _ =>
    rw [Card.lookup_del]
    split
    · rfl
    · exact hn
  | move p p' x _ hp' _ =>
    have hne : q ≠ p' := by
      rintro rfl
      simp [h] at hp'
    rw [Card.lookup_move, if_neg hne]
    split
    · rfl
    · exact hn

/-- A program that does not edit a path keeps what is there, whenever it stops. -/
theorem wp_keeps {α : Type} {p : Sys α} (hp : Device.Only (fun o => o.edits q = false) p) (hn : c.vol.lookup q = some n) :
    device.wp A (fun c' => c'.vol.lookup q = some n) p (fun _ c' => c'.vol.lookup q = some n) c :=
  Device.wp_of_only hp (fun o f c' h hn => (changes_act o f c').lookup_of_edits h hn)
    (fun o k c' h hn => (changes_cut o k c').lookup_of_edits h hn) hn

/-- A program that does not create a path leaves it free, whenever it stops. -/
theorem wp_leavesFree {α : Type} {p : Sys α} (hp : Device.Only (fun o => o.creates q = false) p) (hn : c.vol.lookup q = none) :
    device.wp A (fun c' => c'.vol.lookup q = none) p (fun _ c' => c'.vol.lookup q = none) c :=
  Device.wp_of_only hp (fun o f c' h hn => (changes_act o f c').lookup_of_creates h hn)
    (fun o k c' h hn => (changes_cut o k c').lookup_of_creates h hn) hn

end Footprint

end Fat
