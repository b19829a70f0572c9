import Mathlib.Data.List.TakeWhile
import OffsProof.CText

/-! # Numerals

A numeral of a base is a text of its digits, at least one, and it denotes a number (`value`).
The conversions of C read more than numerals: white space and a sign may come first, and what
follows the digits is left.

`digits_eq` splits a text into the digits at its beginning and the rest; since a digit is
neither white space nor a sign, the split of `scan` into white space, sign, digits and rest is
the only one.  So `scan_iff` says which texts are read to their end, with which sign and which
magnitude, and a numeral in the range of the type is read as what it denotes
(`strtoull_numeral`, `atoi_numeral`).  A condition on a text that is meant as a number can then
be stated in terms of numerals, without the conversion.
-/
namespace CText

/-- `c` is one of the first `base` digits. -/
def isDigit (base : Nat) (c : Char) : Bool := (digit base c).isSome

/-- The number that the digits `ds` make after the number `n`. -/
def valueFrom (base n : Nat) (ds : Text) : Nat :=
  ds.foldl (fun n c => n * base + (digit base c).getD 0) n

/-- The number that a text of digits denotes. -/
def value (base : Nat) (ds : Text) : Nat := valueFrom base 0 ds

/-- **A numeral**: digits, and at least one.  There is no sign and no white space in it, and
leading zeros are allowed. -/
structure Numeral (base : Nat) (t : Text) : Prop where
  nonempty : t ≠ []
  digits : ∀ c ∈ t, isDigit base c = true

instance (base : Nat) (t : Text) : Decidable (Numeral base t) :=
  decidable_of_iff ((!t.isEmpty && t.all (isDigit base)) = true) <| by
    rw [Bool.and_eq_true, Bool.not_eq_true', List.isEmpty_eq_false_iff, List.all_eq_true]
    exact ⟨fun h => ⟨h.1, h.2⟩, fun h => ⟨h.nonempty, h.digits⟩⟩

section
variable {base n : Nat} {c : Char} {t : Text}

theorem valueFrom_cons {k : Nat} (h : digit base c = some k) :
    valueFrom base n (c :: t) = valueFrom base (n * base + k) t := by
  simp [valueFrom, h]

/-- More digits make no smaller number. -/
theorem le_valueFrom (hbase : 1 ≤ base) (n : Nat) (t : Text) : n ≤ valueFrom base n t := by
  induction t generalizing n with
  | nil => exact Nat.le_refl n
  | cons c t ih =>
    have hnext := ih (n * base + (digit base c).getD 0)
    have hmul : n ≤ n * base := Nat.le_mul_of_pos_right n hbase
    calc n ≤ n * base + (digit base c).getD 0 := Nat.le_trans hmul (Nat.le_add_right _ _)
      _ ≤ valueFrom base n (c :: t) := hnext

/-- The digits at the beginning are read, and the rest is left. -/
theorem digits_eq (base n : Nat) (t : Text) :
    digits base n t =
      (valueFrom base n (t.takeWhile (isDigit base)), t.dropWhile (isDigit base)) := by
  induction t generalizing n with
  | nil => rfl
  | cons c t ih =>
    rw [digits]
    rcases hc : digit base c with _ | k
    · have hno : isDigit base c = false := by simp [isDigit, hc]
      simp [hno, valueFrom]
    · have hyes : isDigit base c = true := by simp [isDigit, hc]
      dsimp only
      rw [ih, List.takeWhile_cons_of_pos hyes, List.dropWhile_cons_of_pos hyes, valueFrom_cons hc]

/-- A digit is neither white space nor a sign. -/
theorem le_of_isDigit (h : isDigit base c = true) : '0' ≤ c := by
  rw [isDigit, digit] at h
  split at h
  · rename_i hc
    exact hc.1
  · cases h

theorem not_isSpace_of_isDigit (h : isDigit base c = true) : isSpace c = false := by
  have hc := le_of_isDigit h
  rw [← Bool.not_eq_true]
  intro hspace
  simp only [isSpace, Bool.or_eq_true, beq_iff_eq] at hspace
  rcases hspace with ((((rfl | rfl) | rfl) | rfl) | rfl) | rfl <;> exact absurd hc (by decide)

theorem ne_sign_of_isDigit (h : isDigit base c = true) : c ≠ '-' ∧ c ≠ '+' := by
  have hc := le_of_isDigit h
  constructor <;> rintro rfl <;> exact absurd hc (by decide)

/-- How a sign is written. -/
inductive SignText : Bool → Text → Prop
  | none : SignText false []
  | plus : SignText false ['+']
  | minus : SignText true ['-']

theorem sign_eq {negative : Bool} {mark body : Text} (h : SignText negative mark)
    (hbody : ∀ c ∈ body.head?, c ≠ '-' ∧ c ≠ '+') : sign (mark ++ body) = (negative, body) := by
  rcases h with _ | _ | _
  · rcases body with _ | ⟨c, body⟩
    · rfl
    · obtain ⟨hminus, hplus⟩ := hbody c rfl
      simp [sign, hminus, hplus]
  · rfl
  · rfl

theorem sign_cases (t : Text) : ∃ mark, SignText (sign t).1 mark ∧ t = mark ++ (sign t).2 := by
  rcases t with _ | ⟨c, t⟩
  · exact ⟨[], .none, rfl⟩
  · by_cases hminus : c = '-'
    · subst hminus
      exact ⟨['-'], .minus, rfl⟩
    · by_cases hplus : c = '+'
      · subst hplus
        exact ⟨['+'], .plus, rfl⟩
      · have hnone : sign (c :: t) = (false, c :: t) := by simp [sign, hminus, hplus]
        rw [hnone]
        exact ⟨[], .none, rfl⟩

theorem scan_eq (base : Nat) (t : Text) :
    scan base t =
      let body := (sign (t.dropWhile isSpace)).2
      if body.takeWhile (isDigit base) = [] then none
      else some ((sign (t.dropWhile isSpace)).1, value base (body.takeWhile (isDigit base)),
        body.dropWhile (isDigit base)) := by
  rw [scan]
  rcases sign (t.dropWhile isSpace) with ⟨negative, _ | ⟨c, body⟩⟩
  · rfl
  · dsimp only
    rcases hc : digit base c with _ | k
    · have hno : isDigit base c = false := by simp [isDigit, hc]
      simp [hno]
    · have hyes : isDigit base c = true := by simp [isDigit, hc]
      rw [List.takeWhile_cons_of_pos hyes, List.dropWhile_cons_of_pos hyes, if_neg (by simp)]
      simp only [digits_eq, value, valueFrom_cons hc, Nat.zero_mul, Nat.zero_add]

/-- **Which texts are read to their end**: white space, a sign and a numeral. -/
theorem scan_iff {negative : Bool} :
    scan base t = some (negative, n, []) ↔
      ∃ spaces mark ds, t = spaces ++ (mark ++ ds) ∧ (∀ c ∈ spaces, isSpace c = true) ∧
        SignText negative mark ∧ Numeral base ds ∧ n = value base ds := by
  rw [scan_eq]
  constructor
  · intro h
    dsimp only at h
    split at h
    · cases h
    · rename_i hsome
      simp only [Option.some.injEq, Prod.mk.injEq] at h
      obtain ⟨hsign, hvalue, hrest⟩ := h
      obtain ⟨mark, hmark, hsplit⟩ := sign_cases (t.dropWhile isSpace)
      rw [hsign] at hmark
      have hall : ∀ c ∈ (sign (t.dropWhile isSpace)).2, isDigit base c = true :=
        List.dropWhile_eq_nil_iff.mp hrest
      rw [List.takeWhile_eq_self_iff.mpr hall] at hsome hvalue
      refine ⟨t.takeWhile isSpace, mark, _, ?_, ?_, hmark, ⟨hsome, hall⟩, hvalue.symm⟩
      · rw [← hsplit, List.takeWhile_append_dropWhile]
      · exact fun c hc => List.mem_takeWhile_imp hc
  · rintro ⟨spaces, mark, ds, rfl, hspaces, hmark, hds, rfl⟩
    obtain ⟨d, ds, rfl⟩ := List.exists_cons_of_ne_nil hds.nonempty
    have hd := hds.digits d List.mem_cons_self
    have hfirst : (mark ++ d :: ds).dropWhile isSpace = mark ++ d :: ds := by
      rcases hmark with _ | _ | _
      · simp [not_isSpace_of_isDigit hd]
      · rfl
      · rfl
    have hbody : (spaces ++ (mark ++ d :: ds)).dropWhile isSpace = mark ++ d :: ds := by
      rw [List.dropWhile_append_of_pos hspaces, hfirst]
    have hsign : sign (mark ++ d :: ds) = (negative, d :: ds) := by
      refine sign_eq hmark fun c hc => ?_
      obtain rfl : d = c := Option.some.inj hc
      exact ne_sign_of_isDigit hd
    have htake : (d :: ds).takeWhile (isDigit base) = d :: ds :=
      List.takeWhile_eq_self_iff.mpr hds.digits
    have hdrop : (d :: ds).dropWhile (isDigit base) = [] :=
      List.dropWhile_eq_nil_iff.mpr hds.digits
    dsimp only
    rw [hbody, hsign, htake, hdrop, if_neg (by simp)]

theorem scan_numeral (h : Numeral base t) : scan base t = some (false, value base t, []) :=
  scan_iff.mpr ⟨[], [], t, rfl, by simp, .none, h, rfl⟩

/-- A numeral in the range of the type is read as what it denotes. -/
theorem strtoull_numeral (h : Numeral base t) (hrange : value base t < 2 ^ 64) :
    strtoull base t = (value base t, []) := by
  rw [strtoull, scan_numeral h]
  dsimp only
  rw [if_neg (Nat.not_le.mpr hrange)]
  rfl

theorem atoi_numeral (h : Numeral 10 t) (hrange : value 10 t < 2 ^ 31) :
    atoi t = value 10 t := by
  have hstrtol : strtol 10 t = value 10 t := by
    rw [strtol, scan_numeral h]
    simp only [Bool.false_eq_true, if_false]
    omega
  rw [atoi, hstrtol]
  exact Int.bmod_eq_of_le (by omega) (by omega)

end

end CText
