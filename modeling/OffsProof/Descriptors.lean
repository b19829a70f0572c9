import Mathlib.Data.Nat.Find
import Mathlib.Logic.Function.Basic

/-! # Descriptor tables

The descriptors of a process: finitely many numbers that stand for open files.  `openFile` takes
the lowest number that is free, `dup2` makes one number stand for the file of another, and
`close` frees a number; on a number that stands for nothing the last two do nothing.

Since a table is finite there is always a free number (`exists_free`), and the lowest one is
found by search, so that the operations can be run.  What an operation does to a number is said
by one lemma each (`slot_put`, `slot_close`, `slot_openFile`, `slot_dup2`): it changes one number
and no other.  Which number `openFile` takes is all that is left to find out, and as long as all
numbers below `n` are in use it is not below `n` (`le_lowestFree_iff`).
-/
namespace Descriptors

/-- The files `F` that numbers stand for, none from `bound` on. -/
structure Table (F : Type) where
  slot : Nat → Option F
  bound : Nat
  closed : ∀ fd, bound ≤ fd → slot fd = none

variable {F : Type}

namespace Table

def IsOpen (t : Table F) (fd : Nat) : Prop := t.slot fd ≠ none

theorem exists_free (t : Table F) : ∃ fd, t.slot fd = none := ⟨t.bound, t.closed _ (Nat.le_refl _)⟩

/-- The lowest number that is free. -/
def lowestFree (t : Table F) : Nat := Nat.find t.exists_free

/-- `fd` stands for `f`. -/
def put (t : Table F) (fd : Nat) (f : F) : Table F where
  slot := Function.update t.slot fd (some f)
  bound := max t.bound (fd + 1)
  closed n hn := by
    rw [Function.update_of_ne (by omega)]
    exact t.closed n (by omega)

def close (t : Table F) (fd : Nat) : Table F where
  slot := Function.update t.slot fd none
  bound := t.bound
  closed n hn := by
    by_cases h : n = fd
    · rw [h, Function.update_self]
    · rw [Function.update_of_ne h]
      exact t.closed n hn

/-- The number that an `open` of `f` returns, and the table after it. -/
def openFile (t : Table F) (f : F) : Nat × Table F := (t.lowestFree, t.put t.lowestFree f)

def dup2 (t : Table F) (old new : Nat) : Table F :=
  match t.slot old with
  | some f => t.put new f
  | none => t

theorem slot_lowestFree (t : Table F) : t.slot t.lowestFree = none := Nat.find_spec t.exists_free

theorem isOpen_of_lt {t : Table F} {fd : Nat} (h : fd < t.lowestFree) : t.IsOpen fd :=
  Nat.find_min t.exists_free h

/-- With all numbers below `n` in use, the lowest free one is not below `n`. -/
theorem le_lowestFree_iff {t : Table F} {n : Nat} :
    n ≤ t.lowestFree ↔ ∀ fd < n, t.IsOpen fd := by
  constructor
  · intro h fd hfd
    exact isOpen_of_lt (by omega)
  · intro h
    by_contra hlt
    exact h t.lowestFree (by omega) t.slot_lowestFree

@[simp] theorem slot_put (t : Table F) (fd n : Nat) (f : F) :
    (t.put fd f).slot n = if n = fd then some f else t.slot n := by
  by_cases h : n = fd <;> simp [put, h, Function.update]

@[simp] theorem slot_close (t : Table F) (fd n : Nat) :
    (t.close fd).slot n = if n = fd then none else t.slot n := by
  by_cases h : n = fd <;> simp [close, h, Function.update]

theorem slot_openFile (t : Table F) (f : F) : (t.openFile f).2.slot (t.openFile f).1 = some f := by
  simp [openFile]

theorem slot_dup2 {t : Table F} {old : Nat} {f : F} (h : t.slot old = some f) (new n : Nat) :
    (t.dup2 old new).slot n = if n = new then some f else t.slot n := by
  simp [dup2, h]

end Table

end Descriptors
