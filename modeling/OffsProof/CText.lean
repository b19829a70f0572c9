import Mathlib.Algebra.Ring.Int.Defs
import Mathlib.Algebra.Ring.Nat
import Mathlib.Data.List.Basic

/-! # C strings and the numbers read from them

A C string is the list of its bytes before the terminating NUL, each written as the character
with that code.

`strtoull` and `strtol` follow the C standard: white space, an optional sign, then as many
digits as there are; without a digit the conversion has read nothing and gives 0.  An
out-of-range magnitude gives the extreme value of the type, and a minus sign negates an unsigned
result modulo its range.  `long` has 64 bits and `int` has 32.  What the two have in common is
`scan`, which gives the sign, the magnitude and the rest of the text, and which a caller that
looks at its end pointer can be read off.

`cut` is a buffer: `snprintf` writes what fits and one NUL.  A text that fits is unchanged
(`cut_eq_self`), and of two buffers one after the other the smaller one decides (`cut_cut`).
-/
namespace CText

/-- A string: its bytes before the NUL. -/
abbrev Text := List Char

/-- A string literal. -/
def lit (s : String) : Text := s.toList

/-- `isspace` in the C locale. -/
def isSpace (c : Char) : Bool :=
  c == ' ' || c == '\t' || c == '\n' || c == '\x0b' || c == '\x0c' || c == '\r'

/-- The digit `c` in base `base`, for a base up to ten. -/
def digit (base : Nat) (c : Char) : Option Nat :=
  if '0' ≤ c ∧ c.toNat < '0'.toNat + base then some (c.toNat - '0'.toNat) else none

/-- Read digits after the number `n`: the number, and the text after the last digit. -/
def digits (base : Nat) : Nat → Text → Nat × Text
  | n, [] => (n, [])
  | n, c :: t =>
    match digit base c with
    | some k => digits base (n * base + k) t
    | none => (n, c :: t)

/-- A minus sign, a plus sign or none. -/
def sign : Text → Bool × Text
  | '-' :: t => (true, t)
  | '+' :: t => (false, t)
  | t => (false, t)

/-- The part `strtoull` and `strtol` share: whether there is a minus sign, the
magnitude and the rest, `none` without a digit. -/
def scan (base : Nat) (t : Text) : Option (Bool × Nat × Text) :=
  let (negative, body) := sign (t.dropWhile isSpace)
  match body with
  | [] => none
  | c :: rest =>
    match digit base c with
    | none => none
    | some k =>
      let (n, rest) := digits base k rest
      some (negative, n, rest)

/-- `strtoull`: the value, and where `end` points. -/
def strtoull (base : Nat) (t : Text) : Nat × Text :=
  match scan base t with
  | none => (0, t)
  | some (negative, n, rest) =>
    if n ≥ 2 ^ 64 then (2 ^ 64 - 1, rest)
    else if negative then ((2 ^ 64 - n) % 2 ^ 64, rest)
    else (n, rest)

/-- `strtol`: the value. -/
def strtol (base : Nat) (t : Text) : Int :=
  match scan base t with
  | none => 0
  | some (negative, n, _) =>
    if negative then max (-n) (-2 ^ 63) else min n (2 ^ 63 - 1)

/-- `atoi`, which is `(int)strtol(t, NULL, 10)`. -/
def atoi (t : Text) : Int := (strtol 10 t).bmod (2 ^ 32)

/-- `%u` and `%d`. -/
def decimal (n : Int) : Text := (toString n).toList

/-- What `snprintf` leaves in a buffer of `size` bytes. -/
def cut (size : Nat) (t : Text) : Text := t.take (size - 1)

theorem cut_eq_self {size : Nat} {t : Text} (h : t.length < size) : cut size t = t :=
  List.take_of_length_le (by omega)

@[simp] theorem cut_nil (size : Nat) : cut size [] = [] := List.take_nil

@[simp] theorem cut_cut (size : Nat) (t : Text) : cut size (cut size t) = cut size t := by
  rw [cut, cut, List.take_take, Nat.min_self]

theorem cut_eq_nil {size : Nat} {t : Text} (hsize : 1 < size) : cut size t = [] ↔ t = [] := by
  cases t with
  | nil => simp
  | cons c t =>
    obtain ⟨n, rfl⟩ : ∃ n, size = n + 2 := ⟨size - 2, by omega⟩
    simp [cut]

end CText
