import Mathlib.Algebra.Ring.Nat

/-! # Rounding to a number of bits

A natural number has `p` significant bits if it is a number below `2 ^ p` times a power of two.
`round p n` is the nearest such number, and of two that are as near the one whose last bit is 0.
A conversion of an integer to a binary floating-point number rounds so, with `p = 53` for a
`double`, as long as the exponent is in range.

`scale p n` is the number of bits that have to go.  What is left of `n` without them is below
`2 ^ p` (`quotient_lt`), so that the two multiples of `2 ^ scale p n` next to `n` both have `p`
significant bits, and rounding gives one of them, not the one farther away (`round_cases`).
Between them there is no other number with `p` significant bits (`Representable.le_or_le`): one
with fewer bits to spare would be larger than `n` or a multiple of the same power.  So the
rounded number is a nearest one (`round_nearest`), and rounding changes nothing just if there
is nothing to round (`round_eq_self_iff`).
-/
namespace Binary

/-- `n` is a number below `2 ^ p` with some zeros behind it. -/
def Representable (p n : Nat) : Prop := ∃ m e, m < 2 ^ p ∧ n = m * 2 ^ e

/-- How many bits of `n` have to go. -/
def scale (p n : Nat) : Nat := n.log2 + 1 - p

/-- To nearest, ties to even: the quotient is taken up if what is left of `n` is more than half,
or if it is half and the quotient is odd. -/
def round (p n : Nat) : Nat :=
  let u := 2 ^ scale p n
  if 2 * (n % u) < u ∨ 2 * (n % u) = u ∧ n / u % 2 = 0 then n / u * u else (n / u + 1) * u

section
variable {p n : Nat}

theorem lt_two_pow_scale (p n : Nat) : n < 2 ^ p * 2 ^ scale p n := by
  rw [← Nat.pow_add]
  calc n < 2 ^ (n.log2 + 1) := Nat.lt_log2_self
    _ ≤ 2 ^ (p + scale p n) := Nat.pow_le_pow_right (by omega) (by rw [scale]; omega)

/-- No bit goes that need not. -/
theorem two_pow_le_of_scale (hp : 0 < p) (h : 0 < scale p n) :
    2 ^ (p + scale p n - 1) ≤ n := by
  have hn : n ≠ 0 := by
    rintro rfl
    rw [scale, Nat.log2_zero] at h
    omega
  have hexp : p + scale p n - 1 = n.log2 := by
    rw [scale] at h ⊢
    omega
  rw [hexp]
  exact Nat.log2_self_le hn

theorem quotient_lt (p n : Nat) : n / 2 ^ scale p n < 2 ^ p :=
  (Nat.div_lt_iff_lt_mul (Nat.two_pow_pos _)).mpr (lt_two_pow_scale p n)

/-- Rounding gives one of the two neighbours, and not the one farther away. -/
theorem round_cases (p n : Nat) :
    (round p n = n / 2 ^ scale p n * 2 ^ scale p n ∧ 2 * (n % 2 ^ scale p n) ≤ 2 ^ scale p n) ∨
    (round p n = (n / 2 ^ scale p n + 1) * 2 ^ scale p n ∧
      2 ^ scale p n ≤ 2 * (n % 2 ^ scale p n)) := by
  rw [round]
  generalize 2 ^ scale p n = u
  split
  · rename_i h
    exact .inl ⟨rfl, by omega⟩
  · rename_i h
    exact .inr ⟨rfl, by omega⟩

theorem representable_round (hp : 0 < p) (n : Nat) : Representable p (round p n) := by
  have hq := quotient_lt p n
  rcases round_cases p n with ⟨h, -⟩ | ⟨h, -⟩
  · exact ⟨_, _, hq, h⟩
  · by_cases hfits : n / 2 ^ scale p n + 1 < 2 ^ p
    · exact ⟨_, _, hfits, h⟩
    · -- All bits are 1, and the next number is a power of two.
      have htop : n / 2 ^ scale p n + 1 = 2 ^ p := by omega
      refine ⟨1, p + scale p n, Nat.one_lt_two_pow (by omega), ?_⟩
      rw [h, htop, Nat.pow_add, Nat.one_mul]

/-- Between the two neighbours of `n` there is no number with `p` significant bits. -/
theorem Representable.le_or_le {m : Nat} (hp : 0 < p) (h : Representable p m) (n : Nat) :
    m ≤ n / 2 ^ scale p n * 2 ^ scale p n ∨ (n / 2 ^ scale p n + 1) * 2 ^ scale p n ≤ m := by
  obtain ⟨a, e, ha, rfl⟩ := h
  by_cases he : scale p n ≤ e
  · -- A multiple of the same power of two.
    have hsplit : a * 2 ^ e = a * 2 ^ (e - scale p n) * 2 ^ scale p n := by
      rw [Nat.mul_assoc, ← Nat.pow_add, Nat.sub_add_cancel he]
    rw [hsplit]
    rcases Nat.lt_or_ge (n / 2 ^ scale p n) (a * 2 ^ (e - scale p n)) with hlt | hge
    · exact .inr (Nat.mul_le_mul_right _ hlt)
    · exact .inl (Nat.mul_le_mul_right _ hge)
  · -- Too small to reach the lower neighbour.
    left
    have hexp : p + e ≤ p + scale p n - 1 := by omega
    have hlow : 2 ^ (p - 1) ≤ n / 2 ^ scale p n := by
      rw [Nat.le_div_iff_mul_le (Nat.two_pow_pos _), ← Nat.pow_add]
      calc 2 ^ (p - 1 + scale p n) = 2 ^ (p + scale p n - 1) := by congr 1; omega
        _ ≤ n := two_pow_le_of_scale hp (by omega)
    calc a * 2 ^ e ≤ 2 ^ p * 2 ^ e := Nat.mul_le_mul_right _ (Nat.le_of_lt ha)
      _ = 2 ^ (p + e) := (Nat.pow_add 2 p e).symm
      _ ≤ 2 ^ (p - 1 + scale p n) := Nat.pow_le_pow_right (by omega) (by omega)
      _ = 2 ^ (p - 1) * 2 ^ scale p n := Nat.pow_add 2 _ _
      _ ≤ n / 2 ^ scale p n * 2 ^ scale p n := Nat.mul_le_mul_right _ hlow

/-- **No number with `p` significant bits is nearer.** -/
theorem round_nearest {m : Nat} (hp : 0 < p) (h : Representable p m) (n : Nat) :
    ((n : Int) - round p n).natAbs ≤ ((n : Int) - m).natAbs := by
  have hside := h.le_or_le hp n
  have hround := round_cases p n
  have hdiv := Nat.div_add_mod' n (2 ^ scale p n)
  have hmod := Nat.mod_lt n (Nat.two_pow_pos (scale p n))
  rw [Nat.add_mul, Nat.one_mul] at hside hround
  generalize round p n = r at hround ⊢
  generalize n / 2 ^ scale p n * 2 ^ scale p n = low at hside hround hdiv
  generalize n % 2 ^ scale p n = rest at hround hdiv hmod
  generalize 2 ^ scale p n = u at hside hround hmod
  rcases hround with ⟨rfl, hhalf⟩ | ⟨rfl, hhalf⟩ <;> rcases hside with hlow | hhigh <;> omega

/-- **Rounding changes nothing just if there is nothing to round.** -/
theorem round_eq_self_iff (hp : 0 < p) : round p n = n ↔ Representable p n := by
  constructor
  · intro h
    rw [← h]
    exact representable_round hp n
  · intro h
    have hnear := round_nearest hp h n
    omega

end

end Binary
