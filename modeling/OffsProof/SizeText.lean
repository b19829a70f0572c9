import OffsProof.CNumerals

/-! # Sizes as `offs cache size` reads them

`_parse_size_bytes`: decimal digits and perhaps a unit.  The number is kept in 64 bits, with a
guard before each step that could wrap around, and another before the multiplication with the
unit.  `SizeDenotes` is the grammar with the numbers it stands for; the parser accepts just the
texts whose number is at least 1 and fits into 64 bits (`parse_size_exact`).

A text stands for a number in one way, by the digits at its beginning and the rest
(`sizeDenotes_iff`), since no unit begins with a digit.  The loop over the digits fails just if
the number does not fit (`sizeDigits_eq`): its guard lets a digit pass exactly if the next number
has 64 bits (`append_digit`).  The table of units finds the size of a suffix and nothing else
(`multiplier_iff`), where that no two units have the same name is checked by running it.  The
last guard is that of the product (`product_guard`), so that the guards together keep exactly
what lies between 1 and 2^64 - 1 (`product_exact`).
-/
namespace Offs.CacheSize
open CText

/-! ## The parser -/

/-- `UINT64_MAX` -/
def uint64Max : UInt64 := 18446744073709551615

/-- The loop over the digits: the number, and the text after them. -/
def sizeDigits : UInt64 → Text → Option (UInt64 × Text)
  | value, [] => some (value, [])
  | value, c :: t =>
    if '0' ≤ c ∧ c ≤ '9' then
      let digit := UInt64.ofNat (c.toNat - '0'.toNat)
      if value > uint64Max / 10 then none
      else if value * 10 > uint64Max - digit then none
      else sizeDigits (value * 10 + digit) t
    else some (value, c :: t)

/-- `units` -/
def units : List (Text × UInt64) :=
  [(lit "TiB", 1024 * 1024 * 1024 * 1024), (lit "TB", 1000000000000),
    (lit "GiB", 1024 * 1024 * 1024), (lit "GB", 1000000000),
    (lit "MiB", 1024 * 1024), (lit "MB", 1000000),
    (lit "KiB", 1024), (lit "KB", 1000)]

/-- The characters up to the end of the first text agree, in any letter case. -/
def agrees : Text → Text → Bool
  | [], _ => true
  | _ :: _, [] => false
  | a :: as, b :: bs => a.toLower = b.toLower && agrees as bs

/-- The multiplier of what follows the digits. -/
def multiplier (suffix : Text) : Option UInt64 :=
  if suffix = [] then some 1
  else (units.find? fun u => u.1.length = suffix.length && agrees u.1 suffix).map Prod.snd

/-- `_parse_size_bytes`: what it returns, and what it leaves in `out`. -/
def parseSizeBytes (text : Option Text) (out : UInt64) : Int × UInt64 :=
  match text with
  | none | some [] => (-1, out)
  | some (c :: t) =>
    if c = '-' ∨ c = '+' then (-1, out)
    else
      match sizeDigits 0 (c :: t) with
      | none => (-1, out)
      | some (value, suffix) =>
        -- No digit has been read.
        if suffix.length = (c :: t).length then (-1, out)
        else
          match multiplier suffix with
          | none => (-1, out)
          | some mult =>
            if value = 0 ∨ value > uint64Max / mult then (-1, out) else (0, value * mult)

/-! ## The grammar -/

/-- The units and their sizes. -/
def unitSizes : List (Text × Nat) :=
  [(lit "TiB", 1024 ^ 4), (lit "TB", 1000 ^ 4), (lit "GiB", 1024 ^ 3), (lit "GB", 1000 ^ 3),
    (lit "MiB", 1024 ^ 2), (lit "MB", 1000 ^ 2), (lit "KiB", 1024), (lit "KB", 1000)]

/-- A text is the name of a unit, in any letter case. -/
def SizeUnit (suffix : Text) (size : Nat) : Prop :=
  ∃ name, (name, size) ∈ unitSizes ∧ suffix.map Char.toLower = name.map Char.toLower

/-- **The number of bytes that a text stands for**: that of a numeral, or of a numeral and a
unit.  There is nothing between them, before or after, and the number may be of any size. -/
inductive SizeDenotes : Text → Nat → Prop
  | bytes {ds : Text} (hds : Numeral 10 ds) : SizeDenotes ds (value 10 ds)
  | units {ds suffix : Text} {size : Nat} (hds : Numeral 10 ds) (hunit : SizeUnit suffix size) :
    SizeDenotes (ds ++ suffix) (value 10 ds * size)

/-! ## Digits -/

theorem isDigit_ten {c : Char} : isDigit 10 c = true ↔ '0' ≤ c ∧ c ≤ '9' := by
  have hnine : c.toNat < '0'.toNat + 10 ↔ c ≤ '9' := Nat.lt_succ_iff
  simp only [isDigit, digit, hnine]
  split <;> simp [*]

theorem toNat_uint64Max_div : (uint64Max / 10).toNat = 1844674407370955161 := by decide

/-- One digit more: the guards keep to what fits into 64 bits. -/
theorem append_digit {n : UInt64} {k : Nat} (hk : k ≤ 9) :
    (n > uint64Max / 10 ∨ n * 10 > uint64Max - UInt64.ofNat k → 2 ^ 64 ≤ n.toNat * 10 + k) ∧
    (¬n > uint64Max / 10 → ¬n * 10 > uint64Max - UInt64.ofNat k →
      (n * 10 + UInt64.ofNat k).toNat = n.toNat * 10 + k) := by
  have hdigit : (UInt64.ofNat k).toNat = k := by
    rw [UInt64.toNat_ofNat']
    omega
  have hmax : uint64Max.toNat = 2 ^ 64 - 1 := by decide
  have hdiv : n > uint64Max / 10 ↔ 1844674407370955161 < n.toNat := by
    rw [gt_iff_lt, UInt64.lt_iff_toNat_lt, toNat_uint64Max_div]
  have hroom : (uint64Max - UInt64.ofNat k).toNat = 2 ^ 64 - 1 - k := by
    rw [UInt64.toNat_sub_of_le _ _ (by rw [UInt64.le_iff_toNat_le, hdigit, hmax]; omega), hmax,
      hdigit]
  have hten : (10 : UInt64).toNat = 10 := by decide
  by_cases hfirst : n > uint64Max / 10
  · have hlarge := hdiv.mp hfirst
    exact ⟨fun _ => by omega, fun h => absurd hfirst h⟩
  · have hsmall := mt hdiv.mpr hfirst
    have hproduct : (n * 10).toNat = n.toNat * 10 := by
      rw [UInt64.toNat_mul, hten]
      exact Nat.mod_eq_of_lt (by omega)
    have hsecond : n * 10 > uint64Max - UInt64.ofNat k ↔ 2 ^ 64 - 1 - k < n.toNat * 10 := by
      rw [gt_iff_lt, UInt64.lt_iff_toNat_lt, hproduct, hroom]
    constructor
    · rintro (h | h)
      · exact absurd h hfirst
      · have := hsecond.mp h
        omega
    · intro _ h
      have hlow := mt hsecond.mpr h
      rw [UInt64.toNat_add, hproduct, hdigit]
      exact Nat.mod_eq_of_lt (by omega)

/-- **The loop over the digits is exact**: it fails just if the number does not fit. -/
theorem sizeDigits_eq (t : Text) (n : UInt64) :
    sizeDigits n t =
      if valueFrom 10 n.toNat (t.takeWhile (isDigit 10)) < 2 ^ 64 then
        some (UInt64.ofNat (valueFrom 10 n.toNat (t.takeWhile (isDigit 10))),
          t.dropWhile (isDigit 10))
      else none := by
  induction t generalizing n with
  | nil => simp [sizeDigits, valueFrom, n.toNat_lt]
  | cons c t ih =>
    by_cases hc : isDigit 10 c = true
    · have hrange := isDigit_ten.mp hc
      have hdigit : digit 10 c = some (c.toNat - '0'.toNat) := by
        rw [digit, if_pos ⟨hrange.1, Nat.lt_succ_iff.mpr hrange.2⟩]
      have hle : c.toNat - '0'.toNat ≤ 9 := Nat.sub_le_of_le_add hrange.2
      rw [sizeDigits, if_pos hrange, List.takeWhile_cons_of_pos hc, List.dropWhile_cons_of_pos hc,
        valueFrom_cons hdigit]
      generalize c.toNat - '0'.toNat = k at hle ⊢
      obtain ⟨hover, hfits⟩ := append_digit (n := n) hle
      have hmono := le_valueFrom (show 1 ≤ 10 by decide) (n.toNat * 10 + k)
        (t.takeWhile (isDigit 10))
      dsimp only
      by_cases hfirst : n > uint64Max / 10
      · have hlarge := hover (.inl hfirst)
        rw [if_pos hfirst, if_neg (by omega)]
      · by_cases hsecond : n * 10 > uint64Max - UInt64.ofNat k
        · have hlarge := hover (.inr hsecond)
          rw [if_neg hfirst, if_pos hsecond, if_neg (by omega)]
        · rw [if_neg hfirst, if_neg hsecond, ih, hfits hfirst hsecond]
    · have hrange : ¬('0' ≤ c ∧ c ≤ '9') := fun h => hc (isDigit_ten.mpr h)
      rw [sizeDigits, if_neg hrange, List.takeWhile_cons_of_neg hc, List.dropWhile_cons_of_neg hc]
      simp [valueFrom, n.toNat_lt]

/-! ## Units -/

theorem agrees_iff {name suffix : Text} (h : name.length = suffix.length) :
    agrees name suffix = true ↔ suffix.map Char.toLower = name.map Char.toLower := by
  induction name generalizing suffix with
  | nil =>
    obtain rfl := List.eq_nil_of_length_eq_zero h.symm
    simp [agrees]
  | cons a name ih =>
    rcases suffix with _ | ⟨b, suffix⟩
    · cases h
    · have hrest := ih (Nat.succ.inj h)
      rw [agrees, Bool.and_eq_true, decide_eq_true_eq, hrest, List.map_cons, List.map_cons,
        List.cons.injEq]
      exact and_congr_left fun _ => ⟨Eq.symm, Eq.symm⟩

theorem matches_iff {u : Text × UInt64} {suffix : Text} :
    (decide (u.1.length = suffix.length) && agrees u.1 suffix) = true ↔
      suffix.map Char.toLower = u.1.map Char.toLower := by
  rw [Bool.and_eq_true, decide_eq_true_eq]
  constructor
  · rintro ⟨hlength, hagrees⟩
    exact (agrees_iff hlength).mp hagrees
  · intro h
    have hlength : u.1.length = suffix.length := by
      have := congrArg List.length h
      simpa using this.symm
    exact ⟨hlength, (agrees_iff hlength).mpr h⟩

theorem units_sizes : units.map (fun u => (u.1, u.2.toNat)) = unitSizes := by decide

/-- No two units have the same name, in any letter case. -/
theorem units_distinct : ∀ u ∈ units, ∀ v ∈ units,
    u.1.map Char.toLower = v.1.map Char.toLower → u = v := by decide

/-- What follows the digits stands for this size. -/
def SuffixSize (suffix : Text) (size : Nat) : Prop :=
  suffix = [] ∧ size = 1 ∨ SizeUnit suffix size

theorem sizeUnit_iff {suffix : Text} {size : Nat} :
    SizeUnit suffix size ↔
      ∃ u ∈ units, u.2.toNat = size ∧ suffix.map Char.toLower = u.1.map Char.toLower := by
  rw [SizeUnit, ← units_sizes]
  constructor
  · rintro ⟨name, hname, hsuffix⟩
    obtain ⟨u, hu, hpair⟩ := List.mem_map.mp hname
    obtain ⟨rfl, rfl⟩ := Prod.mk.inj hpair
    exact ⟨u, hu, rfl, hsuffix⟩
  · rintro ⟨u, hu, rfl, hsuffix⟩
    exact ⟨u.1, List.mem_map.mpr ⟨u, hu, rfl⟩, hsuffix⟩

/-- Every unit begins with a letter. -/
theorem units_head : ∀ u ∈ units, (u.1.map Char.toLower).head?.all ('9' < ·) = true := by decide

theorem units_ne_nil : ∀ u ∈ units, u.1.map Char.toLower ≠ [] := by decide

theorem units_pos : ∀ u ∈ units, 0 < u.2.toNat := by decide

/-- The name of a unit is not empty, and does not begin with a digit. -/
theorem SizeUnit.head {suffix : Text} {size : Nat} (h : SizeUnit suffix size) :
    ∃ c rest, suffix = c :: rest ∧ isDigit 10 c = false := by
  obtain ⟨u, hu, -, hsuffix⟩ := sizeUnit_iff.mp h
  rcases suffix with _ | ⟨c, rest⟩
  · exact absurd hsuffix.symm (units_ne_nil u hu)
  · refine ⟨c, rest, rfl, ?_⟩
    have hletter : '9' < c.toLower := by
      have hall := units_head u hu
      rw [← hsuffix] at hall
      exact of_decide_eq_true hall
    rw [← Bool.not_eq_true, isDigit_ten]
    rintro ⟨-, hnine⟩
    -- A digit is its own lower case.
    have hself : c.toLower = c := by
      refine dif_neg ?_
      rintro ⟨hA, -⟩
      exact absurd (Nat.le_trans hA hnine) (by decide)
    rw [hself] at hletter
    exact absurd hletter (Nat.not_lt.mpr hnine)

/-- **The table finds the size of a suffix**, and nothing else. -/
theorem multiplier_iff {suffix : Text} {size : Nat} :
    SuffixSize suffix size ↔ ∃ mult, multiplier suffix = some mult ∧ mult.toNat = size := by
  by_cases hnil : suffix = []
  · subst hnil
    have hno : ¬SizeUnit [] size := by
      intro h
      obtain ⟨c, rest, hcons, -⟩ := h.head
      cases hcons
    simp [SuffixSize, hno, multiplier, eq_comm]
  · rw [SuffixSize, multiplier, if_neg hnil, sizeUnit_iff]
    simp only [hnil, false_and, false_or]
    constructor
    · rintro ⟨u, hu, rfl, hsuffix⟩
      have hfound : (units.find? fun u =>
          u.1.length = suffix.length && agrees u.1 suffix).isSome = true :=
        List.find?_isSome.mpr ⟨u, hu, matches_iff.mpr hsuffix⟩
      obtain ⟨v, hv⟩ := Option.isSome_iff_exists.mp hfound
      have hmatch := List.find?_some hv
      rw [matches_iff] at hmatch
      obtain rfl : v = u := units_distinct v (List.mem_of_find?_eq_some hv) u hu
        (hmatch.symm.trans hsuffix)
      exact ⟨v.2, by rw [hv]; rfl, rfl⟩
    · rintro ⟨mult, hmult, rfl⟩
      obtain ⟨u, hu, rfl⟩ := Option.map_eq_some_iff.mp hmult
      have hmatch := List.find?_some hu
      rw [matches_iff] at hmatch
      exact ⟨u, List.mem_of_find?_eq_some hu, rfl, hmatch⟩

theorem multiplier_pos {suffix : Text} {mult : UInt64} (h : multiplier suffix = some mult) :
    0 < mult.toNat := by
  rw [multiplier] at h
  split at h
  · cases h
    decide
  · obtain ⟨u, hu, rfl⟩ := Option.map_eq_some_iff.mp h
    exact units_pos u (List.mem_of_find?_eq_some hu)

/-! ## The whole text -/

/-- **A text stands for a number in one way**: the digits at its beginning, and the rest. -/
theorem sizeDenotes_iff {text : Text} {n : Nat} :
    SizeDenotes text n ↔
      text.takeWhile (isDigit 10) ≠ [] ∧
        ∃ size, SuffixSize (text.dropWhile (isDigit 10)) size ∧
          n = value 10 (text.takeWhile (isDigit 10)) * size := by
  constructor
  · rintro (⟨hds⟩ | @⟨ds, suffix, size, hds, hunit⟩)
    · rw [List.takeWhile_eq_self_iff.mpr hds.digits, List.dropWhile_eq_nil_iff.mpr hds.digits]
      exact ⟨hds.nonempty, 1, .inl ⟨rfl, rfl⟩, (Nat.mul_one _).symm⟩
    · obtain ⟨c, rest, rfl, hc⟩ := hunit.head
      have hc' : ¬isDigit 10 c = true := by simp [hc]
      rw [List.takeWhile_append_of_pos hds.digits, List.dropWhile_append_of_pos hds.digits,
        List.takeWhile_cons_of_neg hc', List.dropWhile_cons_of_neg hc', List.append_nil]
      exact ⟨hds.nonempty, size, .inr hunit, rfl⟩
  · rintro ⟨hne, size, hsuffix, rfl⟩
    have hds : Numeral 10 (text.takeWhile (isDigit 10)) :=
      ⟨hne, fun c hc => List.mem_takeWhile_imp hc⟩
    have hsplit := List.takeWhile_append_dropWhile (p := isDigit 10) (l := text)
    rcases hsuffix with ⟨hnil, rfl⟩ | hunit
    · rw [hnil, List.append_nil] at hsplit
      rw [hsplit] at hds ⊢
      rw [Nat.mul_one]
      exact .bytes hds
    · have := SizeDenotes.units hds hunit
      rwa [hsplit] at this

/-- The number and its unit: the guard before the multiplication keeps to what fits. -/
theorem product_guard {n mult : UInt64} (hmult : 0 < mult.toNat) :
    (n > uint64Max / mult → 2 ^ 64 ≤ n.toNat * mult.toNat) ∧
    (¬n > uint64Max / mult → (n * mult).toNat = n.toNat * mult.toNat ∧
      n.toNat * mult.toNat < 2 ^ 64) := by
  have hmax : uint64Max.toNat = 2 ^ 64 - 1 := by decide
  have hguard : n > uint64Max / mult ↔ 2 ^ 64 - 1 < n.toNat * mult.toNat := by
    rw [gt_iff_lt, UInt64.lt_iff_toNat_lt, UInt64.toNat_div, hmax, Nat.div_lt_iff_lt_mul hmult]
  constructor
  · intro h
    have := hguard.mp h
    omega
  · intro h
    have hfits : n.toNat * mult.toNat < 2 ^ 64 := by
      have := mt hguard.mpr h
      omega
    rw [UInt64.toNat_mul]
    exact ⟨Nat.mod_eq_of_lt hfits, hfits⟩

/-- The guards together: the product is given out just if it lies between 1 and 2^64 - 1. -/
theorem product_exact {k : Nat} {mult : UInt64} (hmult : 0 < mult.toNat) (out : UInt64) :
    (if k < 2 ^ 64 then
      let n := UInt64.ofNat k
      if n = 0 ∨ n > uint64Max / mult then ((-1 : Int), out) else (0, n * mult)
    else (-1, out)) =
      if 1 ≤ k * mult.toNat ∧ k * mult.toNat ≤ 2 ^ 64 - 1 then
        (0, UInt64.ofNat (k * mult.toNat))
      else (-1, out) := by
  by_cases hk : k < 2 ^ 64
  · have hn : (UInt64.ofNat k).toNat = k := by
      rw [UInt64.toNat_ofNat']
      exact Nat.mod_eq_of_lt hk
    obtain ⟨hover, hfits⟩ := @product_guard (UInt64.ofNat k) mult hmult
    rw [hn] at hover hfits
    rw [if_pos hk]
    dsimp only
    by_cases hzero : UInt64.ofNat k = 0
    · have hk0 : k = 0 := by rw [← hn, hzero]; rfl
      rw [if_pos (.inl hzero), if_neg (by simp [hk0])]
    · have hpos : 0 < k := by
        rcases Nat.eq_zero_or_pos k with rfl | hpos
        · exact absurd rfl hzero
        · exact hpos
      have hone : 1 ≤ k * mult.toNat := Nat.mul_pos hpos hmult
      by_cases hguard : UInt64.ofNat k > uint64Max / mult
      · have := hover hguard
        rw [if_pos (.inr hguard), if_neg (by omega)]
      · obtain ⟨hvalue, hlt⟩ := hfits hguard
        rw [if_neg (by simp only [hzero, hguard, or_self, not_false_eq_true]),
          if_pos ⟨hone, by omega⟩, ← hvalue, UInt64.ofNat_toNat]
  · have : k ≤ k * mult.toNat := Nat.le_mul_of_pos_right k hmult
    rw [if_neg hk, if_neg (by omega)]

theorem parseSizeBytes_of_no_digit {text : Text} (h : text.takeWhile (isDigit 10) = [])
    (out : UInt64) : parseSizeBytes (some text) out = (-1, out) := by
  rcases text with _ | ⟨c, t⟩
  · rfl
  · have hc : ¬isDigit 10 c = true := by
      intro hc
      rw [List.takeWhile_cons_of_pos hc] at h
      cases h
    have hrange : ¬('0' ≤ c ∧ c ≤ '9') := fun h => hc (isDigit_ten.mpr h)
    simp [parseSizeBytes, sizeDigits, hrange]

/-- With a digit at the beginning, the number and the unit decide. -/
theorem parseSizeBytes_of_digit {text : Text} (h : text.takeWhile (isDigit 10) ≠ [])
    (out : UInt64) :
    parseSizeBytes (some text) out =
      if value 10 (text.takeWhile (isDigit 10)) < 2 ^ 64 then
        match multiplier (text.dropWhile (isDigit 10)) with
        | none => (-1, out)
        | some mult =>
          let n := UInt64.ofNat (value 10 (text.takeWhile (isDigit 10)))
          if n = 0 ∨ n > uint64Max / mult then (-1, out) else (0, n * mult)
      else (-1, out) := by
  rcases text with _ | ⟨c, t⟩
  · exact absurd rfl h
  · have hc : isDigit 10 c = true := by
      by_contra hc
      exact h (List.takeWhile_cons_of_neg hc)
    have hsign : ¬(c = '-' ∨ c = '+') := by
      rintro (hc' | hc')
      · exact (ne_sign_of_isDigit hc).1 hc'
      · exact (ne_sign_of_isDigit hc).2 hc'
    have hshorter : ((c :: t).dropWhile (isDigit 10)).length ≠ (c :: t).length := by
      rw [List.dropWhile_cons_of_pos hc, List.length_cons]
      have := (List.dropWhile_suffix (isDigit 10) (l := t)).length_le
      omega
    rw [parseSizeBytes, if_neg hsign, sizeDigits_eq]
    by_cases hfits : value 10 ((c :: t).takeWhile (isDigit 10)) < 2 ^ 64
    · have hfits' : valueFrom 10 (0 : UInt64).toNat ((c :: t).takeWhile (isDigit 10)) < 2 ^ 64 :=
        hfits
      rw [if_pos hfits, if_pos hfits']
      dsimp only
      rw [if_neg hshorter]
      rfl
    · have hfits' : ¬valueFrom 10 (0 : UInt64).toNat ((c :: t).takeWhile (isDigit 10)) < 2 ^ 64 :=
        hfits
      rw [if_neg hfits, if_neg hfits']

/-- With a unit from the table, the product decides. -/
theorem parseSizeBytes_of_multiplier {text : Text} {mult : UInt64}
    (h : text.takeWhile (isDigit 10) ≠ [])
    (hmult : multiplier (text.dropWhile (isDigit 10)) = some mult) (out : UInt64) :
    parseSizeBytes (some text) out =
      let n := value 10 (text.takeWhile (isDigit 10)) * mult.toNat
      if 1 ≤ n ∧ n ≤ 2 ^ 64 - 1 then (0, UInt64.ofNat n) else (-1, out) := by
  rw [parseSizeBytes_of_digit h, hmult]
  exact product_exact (multiplier_pos hmult) out

theorem sizeDenotes_iff_of_multiplier {text : Text} {mult : UInt64} {n : Nat}
    (h : text.takeWhile (isDigit 10) ≠ [])
    (hmult : multiplier (text.dropWhile (isDigit 10)) = some mult) :
    SizeDenotes text n ↔ n = value 10 (text.takeWhile (isDigit 10)) * mult.toNat := by
  rw [sizeDenotes_iff]
  constructor
  · rintro ⟨-, size, hsuffix, rfl⟩
    obtain ⟨mult', hsome, rfl⟩ := multiplier_iff.mp hsuffix
    rw [hmult] at hsome
    cases hsome
    rfl
  · rintro rfl
    exact ⟨h, mult.toNat, multiplier_iff.mpr ⟨mult, hmult, rfl⟩, rfl⟩

theorem parseSizeBytes_denoted {text : Text} {n : Nat} (hn : SizeDenotes text n) (hone : 1 ≤ n)
    (hmax : n ≤ 2 ^ 64 - 1) (out : UInt64) :
    parseSizeBytes (some text) out = (0, UInt64.ofNat n) := by
  obtain ⟨hds, size, hsuffix, -⟩ := sizeDenotes_iff.mp hn
  obtain ⟨mult, hmult, -⟩ := multiplier_iff.mp hsuffix
  obtain rfl := (sizeDenotes_iff_of_multiplier hds hmult).mp hn
  rw [parseSizeBytes_of_multiplier hds hmult]
  dsimp only
  rw [if_pos ⟨hone, hmax⟩]

theorem parseSizeBytes_refused {text : Text}
    (hnone : ¬∃ n, SizeDenotes text n ∧ 1 ≤ n ∧ n ≤ 2 ^ 64 - 1) (out : UInt64) :
    parseSizeBytes (some text) out = (-1, out) := by
  by_cases hds : text.takeWhile (isDigit 10) = []
  · exact parseSizeBytes_of_no_digit hds out
  · rcases hmult : multiplier (text.dropWhile (isDigit 10)) with _ | mult
    · rw [parseSizeBytes_of_digit hds, hmult]
      split <;> rfl
    · have hdenotes := (sizeDenotes_iff_of_multiplier hds hmult).mpr rfl
      rw [parseSizeBytes_of_multiplier hds hmult]
      dsimp only
      rw [if_neg fun h => hnone ⟨_, hdenotes, h⟩]

/-- **The parser is exact.**  A text that stands for a number from 1 to 2^64 - 1 gives that
number; for any other text the parser fails and leaves `out` alone.  What a text stands for is
said by a grammar (`SizeDenotes`), and there is at most one such number; the loop over the digits
and the multiplication both fail just where the number does not fit, and never wrap around. -/
theorem parse_size_exact (text : Text) (out : UInt64) :
    (∀ n, SizeDenotes text n → 1 ≤ n → n ≤ 2 ^ 64 - 1 →
      parseSizeBytes (some text) out = (0, UInt64.ofNat n)) ∧
    ((¬∃ n, SizeDenotes text n ∧ 1 ≤ n ∧ n ≤ 2 ^ 64 - 1) →
      parseSizeBytes (some text) out = (-1, out)) :=
  ⟨fun _ hn hone hmax => parseSizeBytes_denoted hn hone hmax out,
    fun hnone => parseSizeBytes_refused hnone out⟩

end Offs.CacheSize
