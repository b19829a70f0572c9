import Mathlib.Data.Rat.Defs
import Mathlib.Data.Rat.Cast.Order
import Mathlib.Tactic.Linarith
import OffsProof.CText

/-! # cJSON values

What `cJSON_Parse` gives and the accessors a reader of a document uses.  A number is a C
`double`: a rational or, for a literal beyond its range, an infinity; a JSON text has no NaN.
The rounding of a literal to a `double` is done by cJSON, before any of the code here sees the
number, and is not part of this module.  A key is looked up without regard to case, the first
match wins, and only an object has keys.

The casts a reader makes of a number are here as well.  `valueint` saturates; `(uint32_t)` and
`(size_t)` of a `double` cut off the fraction, and are undefined when the result does not fit,
so there the outcome is a parameter.

A number survives a cast exactly when it is an integer that the target type has
(`isNat_port_iff`, `isNat_uint32_iff`, `isNat_uint64_iff`).  For a port the value goes through
`valueint` and 16 bits, so that a number from 65536 on comes out as another one, and from
`INT_MAX` on as 65535 (`valueint_saturated`); for the unsigned types nothing is said beyond
their range, where the cast is undefined.
-/
namespace CJson
open CText

/-- A number as cJSON has read it.  `finite q` stands for the `double` with the value `q`; not every
rational is one, and what is proved for all of them holds in particular for those that are. -/
inductive Double
  | finite (q : ℚ)
  | infinite (negative : Bool)
  deriving DecidableEq, Repr

/-- A value with its parts, in the order of the document. -/
inductive Json
  | null
  | bool (b : Bool)
  | number (d : Double)
  | string (t : Text)
  | array (items : List Json)
  | object (members : List (Text × Json))

namespace Json

/-- `case_insensitive_strcmp(a, b) == 0`. -/
def sameKey (a b : Text) : Bool := a.map Char.toLower == b.map Char.toLower

/-- `cJSON_GetObjectItem`, `none` for `NULL`. -/
def getObjectItem : Json → Text → Option Json
  | .object members, name => (members.find? fun m => sameKey name m.1).map Prod.snd
  | _, _ => none

/-- The `valuestring` of an item with `cJSON_IsString`. -/
def asString : Json → Option Text
  | .string t => some t
  | _ => none

/-- The number of an item with `cJSON_IsNumber`. -/
def asNumber : Json → Option Double
  | .number d => some d
  | _ => none

/-- `cJSON_IsTrue` of an item with `cJSON_IsBool`. -/
def asBool : Json → Option Bool
  | .bool b => some b
  | _ => none

/-- `cJSON_GetObjectItem` twice, from a section to one of its keys. -/
def item (root : Json) (section_ key : Text) : Option Json :=
  (root.getObjectItem section_).bind (·.getObjectItem key)

end Json

namespace Double

/-- The integer part, towards zero. -/
def trunc (q : ℚ) : Int := q.num.tdiv q.den

/-- `valueint`. -/
def valueint : Double → Int
  | .finite q =>
    if q ≥ 2 ^ 31 - 1 then 2 ^ 31 - 1 else if q ≤ -2 ^ 31 then -2 ^ 31 else trunc q
  | .infinite negative => if negative then -2 ^ 31 else 2 ^ 31 - 1

/-- A cast to an unsigned type of `width` bits, with `undefined` for a value whose
integer part does not fit. -/
def toUnsigned (width : Nat) (undefined : Double → Nat) : Double → Nat
  | .finite q =>
    if -1 < q ∧ q < 2 ^ width then (trunc q).toNat else undefined (.finite q)
  | .infinite negative => undefined (.infinite negative)

/-- `d` is the integer `n`. -/
def IsNat (d : Double) (n : Nat) : Prop := d = .finite n

instance (d : Double) (n : Nat) : Decidable (d.IsNat n) := inferInstanceAs (Decidable (_ = _))

theorem trunc_natCast (n : Nat) : trunc (n : ℚ) = n := by
  simp [trunc]

/-- From `INT_MAX` on, `valueint` saturates. -/
theorem valueint_saturated {n : Nat} (h : 2 ^ 31 - 1 ≤ n) :
    valueint (.finite n) = 2 ^ 31 - 1 := by
  have hn : (n : ℚ) ≥ 2 ^ 31 - 1 := by
    have : ((2 ^ 31 - 1 : Nat) : ℚ) ≤ n := by exact_mod_cast h
    norm_num at this ⊢
    exact this
  simp only [valueint, if_pos hn]

theorem valueint_natCast {n : Nat} (h : n < 2 ^ 31) : valueint (.finite n) = n := by
  by_cases hmax : 2 ^ 31 - 1 ≤ n
  · rw [valueint_saturated hmax]
    omega
  · have hlt : ¬ (n : ℚ) ≥ 2 ^ 31 - 1 := by
      have : (n : ℚ) < ((2 ^ 31 - 1 : Nat) : ℚ) := by exact_mod_cast Nat.not_le.mp hmax
      norm_num at this ⊢
      exact this
    have hneg : ¬ (n : ℚ) ≤ -2 ^ 31 := by
      have : (0 : ℚ) ≤ n := Nat.cast_nonneg n
      norm_num
      linarith
    simp only [valueint, if_neg hlt, if_neg hneg, trunc_natCast]

theorem toUnsigned_natCast {width n : Nat} (undefined : Double → Nat) (h : n < 2 ^ width) :
    toUnsigned width undefined (.finite n) = n := by
  have hpos : (-1 : ℚ) < n := by
    have : (0 : ℚ) ≤ n := by positivity
    linarith
  have hlt : (n : ℚ) < 2 ^ width := by exact_mod_cast h
  simp [toUnsigned, hpos, hlt, trunc_natCast]

theorem IsNat.unique {d : Double} {m n : Nat} (hm : d.IsNat m) (hn : d.IsNat n) : m = n := by
  rw [IsNat] at hm hn
  rw [hm, Double.finite.injEq] at hn
  exact_mod_cast hn

theorem isNat_port_iff (d : Double) :
    d.IsNat (UInt16.ofInt d.valueint).toNat ↔ ∃ n < 2 ^ 16, d.IsNat n := by
  refine ⟨fun h => ⟨_, UInt16.toNat_lt _, h⟩, ?_⟩
  rintro ⟨n, hn, rfl⟩
  have hcast : (UInt16.ofInt (valueint (.finite n))).toNat = n := by
    rw [valueint_natCast (by omega), UInt16.ofInt, UInt16.toNat_ofNat']
    omega
  rw [hcast]
  rfl

theorem isNat_uint32_iff (undefined : Double → Nat) (d : Double) :
    d.IsNat (UInt32.ofNat (d.toUnsigned 32 undefined)).toNat ↔ ∃ n < 2 ^ 32, d.IsNat n := by
  refine ⟨fun h => ⟨_, UInt32.toNat_lt _, h⟩, ?_⟩
  rintro ⟨n, hn, rfl⟩
  rw [toUnsigned_natCast undefined hn, UInt32.toNat_ofNat', Nat.mod_eq_of_lt hn]
  rfl

theorem isNat_uint64_iff (undefined : Double → Nat) (d : Double) :
    d.IsNat (UInt64.ofNat (d.toUnsigned 64 undefined)).toNat ↔ ∃ n < 2 ^ 64, d.IsNat n := by
  refine ⟨fun h => ⟨_, UInt64.toNat_lt _, h⟩, ?_⟩
  rintro ⟨n, hn, rfl⟩
  rw [toUnsigned_natCast undefined hn, UInt64.toNat_ofNat', Nat.mod_eq_of_lt hn]
  rfl

end Double

end CJson
