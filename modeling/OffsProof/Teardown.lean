import Mathlib.Data.List.Nodup

/-! # Tearing down what holds references to each other

Components are created one after the other, each holding references to some of the
earlier ones.  A teardown is the list of components in the order they are destroyed.
It is in order when nothing is destroyed before what holds a reference to it
(`TearsDown`).

A teardown is usually written once, as a fixed list from which the components that do
not exist are left out.  Such a list is in order as soon as the whole list is
(`tearsDown_filter`), whichever components exist.

A bring-up is a chain of parts that may fail.  `Ends` says what holds when a part goes
on and what holds when it fails, and `Ends.bind` chains parts.
-/
namespace Teardown

/-! ## Teardowns -/

variable {C : Type} [DecidableEq C]

/-- The teardown `destroyed` destroys each created component exactly once, and only after all that
hold it.  It may name components that were never created, for which a destroy call does nothing.
-/
structure TearsDown (created : C → Prop) (holds : C → C → Prop) (destroyed : List C) : Prop where
  once : ∀ c, created c → destroyed.count c = 1
  after : ∀ c d, created d → holds d c →
    ∀ before rest, destroyed = before ++ c :: rest → d ∈ before

/-- A list of destroy calls in which no component comes before one that may hold it. -/
def InOrder (mayHold : C → C → Prop) (order : List C) : Prop :=
  order.Nodup ∧ order.Pairwise fun earlier later => ¬ mayHold later earlier

instance (mayHold : C → C → Prop) [DecidableRel mayHold] (order : List C) :
    Decidable (InOrder mayHold order) :=
  inferInstanceAs (Decidable (_ ∧ _))

/-- **A list in order tears down what exists.**  It has to name every component that
exists; those that do not are passed over. -/
theorem tearsDown_filter {created : C → Prop} {holds mayHold : C → C → Prop} {order : List C}
    {alive : C → Bool} (horder : InOrder mayHold order) (hself : ∀ c, ¬ mayHold c c)
    (halive : ∀ c, created c ↔ alive c) (hnamed : ∀ c, alive c → c ∈ order)
    (hholds : ∀ c d, holds d c → mayHold d c) :
    TearsDown created holds (order.filter alive) where
  once c hc := by
    have hmem : c ∈ order.filter alive :=
      List.mem_filter.mpr ⟨hnamed c ((halive c).mp hc), (halive c).mp hc⟩
    exact List.count_eq_one_of_mem (horder.1.filter _) hmem
  after c d hd hdc before rest hsplit := by
    have hmem : d ∈ before ++ c :: rest := by
      rw [← hsplit]
      exact List.mem_filter.mpr ⟨hnamed d ((halive d).mp hd), (halive d).mp hd⟩
    have hpairs : (before ++ c :: rest).Pairwise fun earlier later => ¬ mayHold later earlier := by
      rw [← hsplit]
      exact horder.2.filter _
    rcases List.mem_append.mp hmem with hbefore | hlater
    · exact hbefore
    · -- A holder that comes later would break the order of the whole list.
      have hmay := hholds c d hdc
      rcases List.mem_cons.mp hlater with rfl | hrest
      · exact absurd hmay (hself d)
      · have htail := (List.pairwise_append.mp hpairs).2.1
        exact absurd hmay ((List.pairwise_cons.mp htail).1 d hrest)

/-- A component that is never destroyed is leaked. -/
theorem not_tearsDown_of_leaked {created : C → Prop} {holds : C → C → Prop} {destroyed : List C}
    {c : C} (hc : created c) (hleaked : c ∉ destroyed) : ¬ TearsDown created holds destroyed := by
  intro h
  have hone := h.once c hc
  rw [List.count_eq_zero_of_not_mem hleaked] at hone
  cases hone

/-- A component that is destroyed while another still holds it. -/
theorem not_tearsDown_of_held {created : C → Prop} {holds : C → C → Prop} {before rest : List C}
    {c d : C} (hd : created d) (hdc : holds d c) (hheld : d ∉ before) :
    ¬ TearsDown created holds (before ++ c :: rest) :=
  fun h => hheld (h.after c d hd hdc before rest rfl)

/-! ## Bring-ups -/

section BringUp
variable {α β ε : Type} {P : α → Prop} {Q : β → Prop} {E F : ε → Prop}

/-- A part of a bring-up ends in `P` when it goes on and in `E` when it fails. -/
def Ends (P : α → Prop) (E : ε → Prop) : Except ε α → Prop
  | .ok a => P a
  | .error e => E e

theorem Ends.bind {r : Except ε α} {f : α → Except ε β} (hr : Ends P E r)
    (hf : ∀ a, P a → Ends Q E (f a)) : Ends Q E (r >>= f) := by
  cases r with
  | ok a => exact hf a hr
  | error e => exact hr

theorem Ends.mono {P' : α → Prop} {r : Except ε α} (hr : Ends P E r) (hok : ∀ a, P a → P' a)
    (herror : ∀ e, E e → F e) : Ends P' F r := by
  cases r with
  | ok a => exact hok a hr
  | error e => exact herror e hr

end BringUp

end Teardown
