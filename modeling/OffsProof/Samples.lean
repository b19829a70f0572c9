import Mathlib.Data.List.Basic
import OffsProof.CNumerals

/-! # A text of samples

A metric is written in three lines: two that begin with a number sign and say what it is, and
one with its name, a space and its value.  A reader skips the comments and takes every other
line apart at its first space (`scrape`).

The reader finds the metrics that were written, as long as nothing in them has a line feed, and
no name a space (`scrape_flatMap`).  One metric gives three lines, of which the reader takes
the last one apart again (`scrape_render`), and a text of metrics is read metric by metric
since each ends with a line feed.  What has to be checked about a name, a help text and a kind is
a decidable property of the title (`Title.isClean`), so that a fixed set of titles is checked by
running it.

Numbers are written in decimal.  What is written is a numeral that denotes the number
(`numeral_decimal`, `value_decimal`), with as many digits as its size asks for, and a reader
with `strtoull` gets back a number of 64 bits (`strtoull_decimal`).  The length of a text of
metrics is then the sum of what its titles take and of the digits, which a writer into a buffer
has to know beforehand.
-/
namespace CText

/-! ## Decimal numbers -/

theorem decimal_natCast (n : Nat) : decimal (n : Int) = Nat.toDigits 10 n := by
  show (toString (n : Int)).toList = _
  rw [show toString (n : Int) = n.repr from rfl, Nat.toList_repr]

theorem digit_digitChar {k : Nat} (h : k < 10) : digit 10 k.digitChar = some k := by
  have hnat := Nat.toNat_digitChar_of_lt_ten h
  have hle : '0' ≤ k.digitChar := by
    rw [Char.le_def, UInt32.le_iff_toNat_le]
    show 48 ≤ k.digitChar.toNat
    omega
  have hzero : '0'.toNat = 48 := rfl
  rw [digit, hnat, hzero, if_pos ⟨hle, by omega⟩, Nat.add_sub_cancel_left]

theorem value_toDigits (n : Nat) : value 10 (Nat.toDigits 10 n) = n := by
  induction n using Nat.strongRecOn with
  | ind n ih =>
    rw [Nat.toDigits_eq_if (by decide)]
    split
    · rename_i hlt
      simp [value, valueFrom, digit_digitChar hlt]
    · rename_i hge
      have hrest := ih (n / 10) (Nat.div_lt_self (by omega) (by decide))
      have hlast := digit_digitChar (Nat.mod_lt n (by decide : 0 < 10))
      rw [value, valueFrom] at hrest ⊢
      rw [List.foldl_append, hrest]
      simp only [List.foldl_cons, List.foldl_nil, hlast, Option.getD_some]
      omega

theorem isDigit_of_mem_toDigits {n : Nat} {c : Char} (h : c ∈ Nat.toDigits 10 n) :
    isDigit 10 c = true := by
  induction n using Nat.strongRecOn with
  | ind n ih =>
    rw [Nat.toDigits_eq_if (by decide)] at h
    split at h
    · rename_i hlt
      obtain rfl := List.mem_singleton.mp h
      simp [isDigit, digit_digitChar hlt]
    · rename_i hge
      rcases List.mem_append.mp h with h | h
      · exact ih (n / 10) (Nat.div_lt_self (by omega) (by decide)) h
      · obtain rfl := List.mem_singleton.mp h
        simp [isDigit, digit_digitChar (Nat.mod_lt n (by decide : 0 < 10))]

theorem numeral_decimal (n : Nat) : Numeral 10 (decimal n) := by
  rw [decimal_natCast]
  exact ⟨Nat.toDigits_ne_nil, fun c hc => isDigit_of_mem_toDigits hc⟩

theorem value_decimal (n : Nat) : value 10 (decimal n) = n := by
  rw [decimal_natCast, value_toDigits]

theorem length_decimal_le {n k : Nat} (hk : 0 < k) (h : n < 10 ^ k) :
    (decimal n).length ≤ k := by
  rw [decimal_natCast]
  exact (Nat.length_toDigits_le_iff (by decide) hk).mpr h

/-- A number of 64 bits is read as what it was written for. -/
theorem strtoull_decimal {n : Nat} (h : n < 2 ^ 64) : strtoull 10 (decimal n) = (n, []) := by
  rw [strtoull_numeral (numeral_decimal n) (by rwa [value_decimal]), value_decimal]

theorem newline_not_mem_decimal (n : Nat) : '\n' ∉ decimal n := by
  intro h
  exact absurd ((numeral_decimal n).digits '\n' h) (by decide)

end CText

namespace Samples
open CText

/-! ## Writing -/

/-- What is said about a metric. -/
structure Title where
  name : Text
  help : Text
  kind : Text

structure Metric where
  title : Title
  value : Text

namespace Title

/-- A title that can be read back. -/
def isClean (t : Title) : Bool :=
  t.name.head?.any (· ≠ '#') && t.name.all (fun c => c ≠ ' ' && c ≠ '\n') &&
    t.help.all (· ≠ '\n') && t.kind.all (· ≠ '\n')

/-- The characters of a metric without those of its value. -/
def frame (t : Title) : Nat := 3 * t.name.length + t.help.length + t.kind.length + 20

end Title

namespace Metric

def helpLine (m : Metric) : Text := lit "# HELP " ++ m.title.name ++ lit " " ++ m.title.help

def typeLine (m : Metric) : Text := lit "# TYPE " ++ m.title.name ++ lit " " ++ m.title.kind

def sampleLine (m : Metric) : Text := m.title.name ++ lit " " ++ m.value

def render (m : Metric) : Text :=
  m.helpLine ++ '\n' :: (m.typeLine ++ '\n' :: (m.sampleLine ++ ['\n']))

theorem length_render (m : Metric) : m.render.length = m.title.frame + m.value.length := by
  simp [Title.frame, render, helpLine, typeLine, sampleLine, lit]
  omega

end Metric

theorem length_flatMap_render (ms : List Metric) :
    (ms.flatMap Metric.render).length =
      ((ms.map Metric.title).map Title.frame).sum + (ms.map fun m => m.value.length).sum := by
  induction ms with
  | nil => rfl
  | cons m ms ih =>
    rw [List.flatMap_cons, List.length_append, ih, Metric.length_render]
    simp only [List.map_cons, List.sum_cons]
    omega

/-! ## Reading -/

/-- The sample of a line, if it is not empty or a comment. -/
def sample (line : Text) : Option (Text × Text) :=
  match line with
  | [] | '#' :: _ => none
  | _ => some (line.takeWhile (· ≠ ' '), (line.dropWhile (· ≠ ' ')).drop 1)

def scrape (text : Text) : List (Text × Text) := (text.splitOn '\n').filterMap sample

section
variable {m : Metric}

theorem scrape_line {line : Text} (h : '\n' ∉ line) (rest : Text) :
    scrape (line ++ '\n' :: rest) = (sample line).toList ++ scrape rest := by
  rw [scrape, List.splitOn_append_cons_self_of_not_mem h, List.filterMap_cons]
  cases sample line <;> rfl

theorem sample_sampleLine (h : m.title.isClean = true) :
    sample m.sampleLine = some (m.title.name, m.value) := by
  simp only [Title.isClean, Bool.and_eq_true] at h
  obtain ⟨⟨⟨hhead, hname⟩, -⟩, -⟩ := h
  have hsplit : m.sampleLine = m.title.name ++ ' ' :: m.value := by
    rw [Metric.sampleLine, List.append_assoc]
    rfl
  have hkeep : ∀ c ∈ m.title.name, (decide (c ≠ ' ')) = true := by
    intro c hc
    have hboth := List.all_eq_true.mp hname c hc
    rw [Bool.and_eq_true] at hboth
    exact hboth.1
  have hline : sample m.sampleLine =
      some (m.sampleLine.takeWhile (· ≠ ' '), (m.sampleLine.dropWhile (· ≠ ' ')).drop 1) := by
    rw [hsplit]
    cases hcase : m.title.name with
    | nil => simp [hcase] at hhead
    | cons c rest =>
      have hc : c ≠ '#' := by simpa [hcase] using hhead
      rw [List.cons_append, sample]
      · simp
      · intro tail heq
        exact hc (List.cons.inj heq).1
  rw [hline, hsplit, List.takeWhile_append_of_pos hkeep, List.dropWhile_append_of_pos hkeep]
  simp

theorem scrape_render (h : m.title.isClean = true) (hvalue : '\n' ∉ m.value) (rest : Text) :
    scrape (m.render ++ rest) = (m.title.name, m.value) :: scrape rest := by
  have hsample := sample_sampleLine h
  simp only [Title.isClean, Bool.and_eq_true] at h
  obtain ⟨⟨⟨-, hname⟩, hhelp⟩, hkind⟩ := h
  have hname : '\n' ∉ m.title.name := fun hmem => by simpa using List.all_eq_true.mp hname _ hmem
  have hhelp : '\n' ∉ m.title.help := fun hmem => by simpa using List.all_eq_true.mp hhelp _ hmem
  have hkind : '\n' ∉ m.title.kind := fun hmem => by simpa using List.all_eq_true.mp hkind _ hmem
  simp only [Metric.render, List.append_assoc, List.cons_append, List.nil_append]
  rw [scrape_line (by simp [Metric.helpLine, lit, hname, hhelp]),
    scrape_line (by simp [Metric.typeLine, lit, hname, hkind]),
    scrape_line (by simp [Metric.sampleLine, lit, hname, hvalue]), hsample]
  rfl

/-- **What was written is read.** -/
theorem scrape_flatMap {ms : List Metric} (h : (ms.map Metric.title).all Title.isClean = true)
    (hvalues : ∀ m ∈ ms, '\n' ∉ m.value) :
    scrape (ms.flatMap Metric.render) = ms.map fun m => (m.title.name, m.value) := by
  induction ms with
  | nil => rfl
  | cons m ms ih =>
    simp only [List.map_cons, List.all_cons, Bool.and_eq_true] at h
    rw [List.flatMap_cons, scrape_render h.1 (hvalues m List.mem_cons_self),
      ih h.2 fun k hk => hvalues k (List.mem_cons_of_mem m hk), List.map_cons]

end

end Samples
