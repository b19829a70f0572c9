import OffsProof.CNumerals
import OffsProof.FileEffect

/-! # Numbers in flags and keys

The ports and the capacity are read with `atoi` and `strtoull`, and from the config file with
`valueint`, and then cut down to the width of their member.  None of this is checked: what is no
number counts as 0 or as the number it begins with, and what is too large loses its upper bits.
`numbers_meant_iff` says when the members hold the numbers that were given.

What is meant by a text is the number of a numeral (`Numeral`); by a number of the file, an
integer.  A flag whose numeral is in range is stored as that number, and then comes through the
file just if it is not the marker for unset or the file agrees (`stored_port_iff`,
`stored_capacity_iff`); a number of the file without a flag is stored as it is just if it is in
range (`port_of_integer`).  The condition (`InRange`) is these, flag by flag and key by key, about
the texts and the document alone.
-/
namespace Offs.Daemon
open CText CJson

variable {t : Text}

/-! ## Numerals in range -/

theorem toNat_portOf (h : Numeral 10 t) (hrange : value 10 t ≤ 65535) :
    (portOf t).toNat = value 10 t := by
  rw [portOf, atoi_numeral h (by omega), UInt16.ofInt, UInt16.toNat_ofNat']
  omega

theorem toNat_capacityOf (h : Numeral 10 t) (hrange : value 10 t ≤ 2 ^ 64 - 1) :
    (capacityOf t).toNat = value 10 t := by
  have hlt : value 10 t < 2 ^ 64 := by omega
  rw [capacityOf, strtoull_numeral h hlt, UInt64.toNat_ofNat', Nat.mod_eq_of_lt hlt]

/-! ## What is given and what is stored -/

/-- **The members hold the numbers that were given**: by flags, and by keys without a flag. -/
structure Meant (argv : List Text) (root : Json) (args : OffsdArgs) : Prop where
  port : ∀ f t, lastValue (.port f) argv = some t →
    Numeral 10 t ∧ value 10 t ≤ 65535 ∧ (args.port f).toNat = value 10 t
  maxCapacityBytes : ∀ t, lastValue .maxCapacityBytes argv = some t →
    Numeral 10 t ∧ value 10 t ≤ 2 ^ 64 - 1 ∧ args.maxCapacityBytes.toNat = value 10 t
  key : ∀ f (z : Int), lastValue (.port f) argv = none →
    filePortNumber root f = some (.finite z) → 0 ≤ z ∧ z ≤ 65535 ∧ (args.port f).toNat = z

/-- **The numbers that are given are in range**, and none of them counts as unset while the
file has another one. -/
structure InRange (w : System) (argv : List Text) (root : Json) : Prop where
  port : ∀ f t, lastValue (.port f) argv = some t → Numeral 10 t ∧ value 10 t ≤ 65535
  maxCapacityBytes : ∀ t, lastValue .maxCapacityBytes argv = some t →
    Numeral 10 t ∧ value 10 t ≤ 2 ^ 64 - 1
  key : ∀ f (z : Int), lastValue (.port f) argv = none →
    filePortNumber root f = some (.finite z) → 0 ≤ z ∧ z ≤ 65535
  unsetPort : ∀ f t, lastValue (.port f) argv = some t → value 10 t = f.unset.toNat →
    ∀ n, filePort root f = some n → n = f.unset
  unsetCapacity : ∀ t, lastValue .maxCapacityBytes argv = some t → value 10 t = 0 →
    ∀ n, fileCapacity root w = some n → n = 0

/-- An integer comes through `valueint` and the cast just if it is a port. -/
theorem port_of_integer {z : Int} (hlow : 0 ≤ z) (hhigh : z ≤ 65535) :
    ((UInt16.ofInt (Double.valueint (.finite z))).toNat : Int) = z := by
  obtain ⟨n, rfl⟩ := Int.eq_ofNat_of_zero_le hlow
  have hcast : ((n : Int) : ℚ) = (n : ℚ) := Int.cast_natCast n
  rw [hcast, Double.valueint_natCast (by omega), UInt16.ofInt, UInt16.toNat_ofNat']
  omega

section
variable {w : System} {argv : List Text} {root : Json} {args : OffsdArgs}

/-- A number survives the file just if it is not taken for unset. -/
theorem stored_port_iff {f : PortField} {n : UInt16} (h : Numeral 10 t)
    (hrange : value 10 t ≤ 65535) (hn : n = fill f.unset (portOf t) (filePort root f)) :
    n.toNat = value 10 t ↔
      (value 10 t = f.unset.toNat → ∀ x, filePort root f = some x → x = f.unset) := by
  have hvalue := toNat_portOf h hrange
  rw [hn, ← hvalue, UInt16.toNat_inj, UInt16.toNat_inj, fill_eq_stored]

theorem stored_capacity_iff {n : UInt64} (h : Numeral 10 t)
    (hrange : value 10 t ≤ 2 ^ 64 - 1) (hn : n = fill 0 (capacityOf t) (fileCapacity root w)) :
    n.toNat = value 10 t ↔ (value 10 t = 0 → ∀ x, fileCapacity root w = some x → x = 0) := by
  have hvalue := toNat_capacityOf h hrange
  have hzero : value 10 t = 0 ↔ capacityOf t = 0 := by
    rw [← hvalue, ← UInt64.toNat_inj]
    rfl
  rw [hzero, hn, ← hvalue, UInt64.toNat_inj, fill_eq_stored]

theorem meant_iff
    (hport : ∀ f t, lastValue (.port f) argv = some t →
      args.port f = fill f.unset (portOf t) (filePort root f))
    (hcapacity : ∀ t, lastValue .maxCapacityBytes argv = some t →
      args.maxCapacityBytes = fill 0 (capacityOf t) (fileCapacity root w))
    (hu : Unflagged w argv root args) : Meant argv root args ↔ InRange w argv root := by
  constructor
  · intro hm
    refine ⟨?_, ?_, ?_, ?_, ?_⟩
    · intro f t ht
      obtain ⟨hnumeral, hrange, -⟩ := hm.port f t ht
      exact ⟨hnumeral, hrange⟩
    · intro t ht
      obtain ⟨hnumeral, hrange, -⟩ := hm.maxCapacityBytes t ht
      exact ⟨hnumeral, hrange⟩
    · intro f z hlast hfile
      obtain ⟨hlow, hhigh, -⟩ := hm.key f z hlast hfile
      exact ⟨hlow, hhigh⟩
    · intro f t ht
      obtain ⟨hnumeral, hrange, hstored⟩ := hm.port f t ht
      exact (stored_port_iff hnumeral hrange (hport f t ht)).mp hstored
    · intro t ht
      obtain ⟨hnumeral, hrange, hstored⟩ := hm.maxCapacityBytes t ht
      exact (stored_capacity_iff hnumeral hrange (hcapacity t ht)).mp hstored
  · intro hr
    refine ⟨?_, ?_, ?_⟩
    · intro f t ht
      obtain ⟨hnumeral, hrange⟩ := hr.port f t ht
      exact ⟨hnumeral, hrange,
        (stored_port_iff hnumeral hrange (hport f t ht)).mpr (hr.unsetPort f t ht)⟩
    · intro t ht
      obtain ⟨hnumeral, hrange⟩ := hr.maxCapacityBytes t ht
      exact ⟨hnumeral, hrange,
        (stored_capacity_iff hnumeral hrange (hcapacity t ht)).mpr (hr.unsetCapacity t ht)⟩
    · intro f z hlast hfile
      obtain ⟨hlow, hhigh⟩ := hr.key f z hlast hfile
      refine ⟨hlow, hhigh, ?_⟩
      rw [hu.port f _ hlast hfile]
      exact port_of_integer hlow hhigh

end

/-- **Numbers mean what they say just if they are in range** and none is taken for unset, in every
start that is not refused.  A member whose flag occurs has the flag's number, or that of the file
where the flag's counts as unset (`Overlaid`), and one without a flag has the number of the file
(`Unflagged`), each of them cut to the type of the member.  What is cut is the number that was
meant just if it is in range. -/
theorem numbers_meant_iff {Doc : Type} (api : PendingApi Doc) (h : Host) (files : Files Doc)
    (argv : List Text) (s : Started Doc) (hrun : runOffsd api h files argv = .ok s) :
    Meant argv (configDocument h files argv) s.args ↔
      InRange (h.system files) argv (configDocument h files argv) := by
  obtain ⟨-, parsed, hparsed, hs⟩ := runOffsd_ok hrun
  obtain ⟨flags, filled, hflags, hfilled, rfl⟩ := parseArgs_ok hparsed
  have hf := parseFlags_ok hflags
  rw [hf.text .configPath] at hfilled
  have hu : Unflagged (h.system files) argv (configDocument h files argv) s.args :=
    unflagged_of_filled hf hfilled hs.same hs.text
  have ho : Overlaid (h.system files) argv (configDocument h files argv)
      (finishArgs (h.system files) filled) := overlaid_of_filled hf hfilled
  refine meant_iff ?_ ?_ hu
  · intro f t ht
    rw [hs.same.port, ho.port f t ht]
  · intro t ht
    rw [hs.same.maxCapacityBytes, ho.maxCapacityBytes t ht]

/-- `--port 9000` is stored as 9000. -/
theorem numbers_meant_iff_port :
    ∃ s, runOffsd plainApi plainHost (plainFiles (.object []) none) [lit "--port", lit "9000"] =
        .ok s ∧ (s.args.port .port).toNat = 9000 := by
  obtain ⟨s, hs⟩ : ∃ s, runOffsd plainApi plainHost (plainFiles (.object []) none)
      [lit "--port", lit "9000"] = .ok s := ⟨_, rfl⟩
  have hlast : lastValue (.port .port) [lit "--port", lit "9000"] = some (lit "9000") := by decide
  have hmeant := (numbers_meant_iff _ _ _ _ _ hs).mpr ⟨?_, ?_, ?_, ?_, ?_⟩
  · exact ⟨s, hs, (hmeant.port .port _ hlast).2.2⟩
  · intro f t ht
    cases f with
    | port =>
      rw [hlast] at ht
      cases ht
      decide
    | _ => exact nomatch (show none = some t from ht)
  · intro t ht
    exact nomatch (show none = some t from ht)
  · intro f z _ hfile
    cases f <;> exact nomatch (show none = some (Double.finite z) from hfile)
  · intro f t _ _ n hfile
    cases f <;> exact nomatch (show none = some n from hfile)
  · intro t ht
    exact nomatch (show none = some t from ht)

/-- **A port that is too large becomes another one**: `--port 65616` opens 80. -/
theorem large_port_wrapped :
    ∃ s, runOffsd plainApi plainHost (plainFiles (.object []) none) [lit "--port", lit "65616"] =
        .ok s ∧ Numeral 10 (lit "65616") ∧ value 10 (lit "65616") = 65616 ∧ s.args.port .port = 80 ∧
      ¬Meant [lit "--port", lit "65616"]
        (configDocument plainHost (plainFiles (.object []) none) [lit "--port", lit "65616"])
        s.args := by
  have hlast : lastValue (.port .port) [lit "--port", lit "65616"] = some (lit "65616") := by decide
  obtain ⟨s, hs, hport⟩ : ∃ s, runOffsd plainApi plainHost (plainFiles (.object []) none)
      [lit "--port", lit "65616"] = .ok s ∧ s.args.port .port = 80 := ⟨_, rfl, by decide +kernel⟩
  refine ⟨s, hs, by decide, by decide, hport, fun hm => ?_⟩
  have hrange := (hm.port .port _ hlast).2.1
  exact absurd hrange (by decide)

end Offs.Daemon
