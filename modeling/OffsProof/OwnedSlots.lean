import Mathlib.Logic.Function.Basic

/-! # Slots that own the blocks they point to

A heap of blocks, and a record of pointers into it, one for each slot.  `Owned` says that the
pointers and the blocks go together: every pointer leads to a block, no two slots lead to the
same one, and there is no other block.  Allocating into an empty slot and freeing a slot keep it,
and freeing all slots in turn then leaves an empty heap (`Owned.freeSlots`).

The address of a block is the number of the call that has allocated it.  No address is given
twice, so that a block that is freed a second time, or used after it, is always seen; and a
block that is gone stays gone (`Heap.gone_of_free`), so that one slot that leads nowhere is
enough for the freeing of all slots to fail (`freeSlots_gone`).

A slot can be overwritten in either order, by freeing the old block before or after the new one
is allocated (`Owned.free_grant`), and a block that was allocated in vain can be given back
before any slot has taken it (`Owned.untaken`).  A program that assigns to its members in these
ways keeps `Owned` through each assignment, and its proof mentions no address.
-/
namespace OwnedSlots
open Function

/-! ## The heap -/

/-- Blocks with contents in `α`, by address, and the number of calls of the allocator so far. -/
structure Heap (α : Type) where
  block : Nat → Option α
  /-- How often the allocator has been called. -/
  calls : Nat
  unused : ∀ a, calls ≤ a → block a = none

namespace Heap
variable {α : Type}

def empty : Heap α := ⟨fun _ => none, 0, fun _ _ => rfl⟩

/-- A call of the allocator fails. -/
def refuse (h : Heap α) : Heap α := ⟨h.block, h.calls + 1, fun a ha => h.unused a (by omega)⟩

/-- A call of the allocator gives a block, at the address `h.calls`. -/
def grant (h : Heap α) (v : α) : Heap α where
  block := update h.block h.calls (some v)
  calls := h.calls + 1
  unused := by
    intro a ha
    rw [update_of_ne (by omega)]
    exact h.unused a (by omega)

/-- The allocator, which fails in the calls that are not in `grants`. -/
def alloc (grants : Nat → Bool) (h : Heap α) (v : α) : Option Nat × Heap α :=
  if grants h.calls then (some h.calls, h.grant v) else (none, h.refuse)

/-- A block is given back. -/
def remove (h : Heap α) (a : Nat) : Heap α where
  block := update h.block a none
  calls := h.calls
  unused := by
    intro b hb
    by_cases hba : b = a
    · rw [hba, update_self]
    · rw [update_of_ne hba]
      exact h.unused b hb

/-- `free`, of NULL too; `none` if there is no such block, or no longer. -/
def free (h : Heap α) : Option Nat → Option (Heap α)
  | none => some h
  | some a => if (h.block a).isSome then some (h.remove a) else none

@[simp] theorem free_none (h : Heap α) : h.free none = some h := by rfl

/-- Whether a pointer may be used: it is NULL, which is never followed, or leads to a block. -/
def usable (h : Heap α) : Option Nat → Bool
  | none => true
  | some a => (h.block a).isSome

theorem lt_calls {h : Heap α} {a : Nat} (ha : (h.block a).isSome) : a < h.calls := by
  by_contra hge
  rw [h.unused a (Nat.not_lt.mp hge)] at ha
  cases ha

end Heap

/-! ## Slots -/

/-- A heap, and a pointer for each slot. -/
structure Store (S α : Type) where
  heap : Heap α
  slot : S → Option Nat

namespace Store
variable {S α : Type} [DecidableEq S]

def empty : Store S α := ⟨.empty, fun _ => none⟩

/-- A new pointer in a slot, and a new heap. -/
def put (m : Store S α) (s : S) (p : Option Nat) (h : Heap α) : Store S α :=
  ⟨h, update m.slot s p⟩

/-- What a slot leads to. -/
def contents (m : Store S α) (s : S) : Option α := (m.slot s).bind m.heap.block

/-- `free` of some slots, which are left as they are. -/
def freeSlots (slot : S → Option Nat) : List S → Heap α → Option (Heap α)
  | [], h => some h
  | s :: slots, h => (h.free (slot s)).bind (freeSlots slot slots)

end Store

/-- **Each block belongs to one slot.**  Every pointer leads to a block (`live`), no two slots to
the same one (`distinct`), and no block is without a slot (`covered`): nothing dangles, nothing is
shared, and nothing has leaked. -/
structure Owned {S α : Type} (m : Store S α) : Prop where
  live : ∀ s a, m.slot s = some a → (m.heap.block a).isSome
  distinct : ∀ s t a, m.slot s = some a → m.slot t = some a → s = t
  covered : ∀ a, (m.heap.block a).isSome → ∃ s, m.slot s = some a

namespace Owned
variable {S α : Type} [DecidableEq S] {m : Store S α} {s : S}

omit [DecidableEq S] in
theorem empty : Owned (Store.empty : Store S α) where
  live s a h := by cases h
  distinct s t a h := by cases h
  covered a h := by cases h

omit [DecidableEq S] in
theorem usable (h : Owned m) (s : S) : m.heap.usable (m.slot s) = true := by
  cases hs : m.slot s with
  | none => rfl
  | some a => exact h.live s a hs

omit [DecidableEq S] in
theorem isSome_contents (h : Owned m) : (m.contents s).isSome = (m.slot s).isSome := by
  cases hs : m.slot s with
  | none => simp [Store.contents, hs]
  | some a =>
    have := h.live s a hs
    simp [Store.contents, hs, this]

omit [DecidableEq S] in
/-- A failed call changes nothing. -/
theorem refuse (h : Owned m) : Owned ⟨m.heap.refuse, m.slot⟩ :=
  ⟨h.live, h.distinct, h.covered⟩

/-- An empty slot takes a new block. -/
theorem grant (h : Owned m) (hs : m.slot s = none) (v : α) :
    Owned (m.put s (some m.heap.calls) (m.heap.grant v)) ∧
      (m.put s (some m.heap.calls) (m.heap.grant v)).contents = update m.contents s (some v) := by
  have hold : ∀ t a, m.slot t = some a → a < m.heap.calls := by
    intro t a ht
    exact Heap.lt_calls (h.live t a ht)
  refine ⟨⟨fun t a ht => ?_, fun t u a ht hu => ?_, fun a ha => ?_⟩, ?_⟩
  · by_cases hts : t = s
    · subst hts
      simp only [Store.put, update_self, Option.some.injEq] at ht
      subst ht
      simp [Store.put, Heap.grant]
    · simp only [Store.put, update_of_ne hts] at ht
      have hne : a ≠ m.heap.calls := Nat.ne_of_lt (hold t a ht)
      simpa [Store.put, Heap.grant, update_of_ne hne] using h.live t a ht
  · by_cases hts : t = s <;> by_cases hus : u = s
    · rw [hts, hus]
    · subst hts
      simp only [Store.put, update_self, update_of_ne hus, Option.some.injEq] at ht hu
      have := hold u a hu
      omega
    · subst hus
      simp only [Store.put, update_self, update_of_ne hts, Option.some.injEq] at ht hu
      have := hold t a ht
      omega
    · simp only [Store.put, update_of_ne hts, update_of_ne hus] at ht hu
      exact h.distinct t u a ht hu
  · by_cases hnew : a = m.heap.calls
    · exact ⟨s, by simp [Store.put, hnew]⟩
    · simp only [Store.put, Heap.grant, update_of_ne hnew] at ha
      obtain ⟨t, ht⟩ := h.covered a ha
      have hts : t ≠ s := by
        rintro rfl
        rw [hs] at ht
        cases ht
      exact ⟨t, by simpa [Store.put, update_of_ne hts] using ht⟩
  · funext t
    by_cases hts : t = s
    · subst hts
      simp [Store.contents, Store.put, Heap.grant]
    · rw [update_of_ne hts]
      simp only [Store.contents, Store.put, update_of_ne hts]
      cases ht : m.slot t with
      | none => rfl
      | some a =>
        have hne : a ≠ m.heap.calls := Nat.ne_of_lt (hold t a ht)
        simp [Heap.grant, update_of_ne hne]

/-- A slot can be freed, and is then empty. -/
theorem free (h : Owned m) (s : S) : ∃ heap, m.heap.free (m.slot s) = some heap ∧
    heap.calls = m.heap.calls ∧ Owned (m.put s none heap) ∧
      (m.put s none heap).contents = update m.contents s none := by
  cases hs : m.slot s with
  | none =>
    have hput : m.put s none m.heap = m := by
      have hslot : update m.slot s none = m.slot := by rw [← hs, update_eq_self]
      simp [Store.put, hslot]
    refine ⟨m.heap, rfl, rfl, ?_⟩
    rw [hput]
    refine ⟨h, ?_⟩
    have hnone : m.contents s = none := by simp [Store.contents, hs]
    rw [← hnone, update_eq_self]
  | some a =>
    have hlive := h.live s a hs
    have hother : ∀ t b, t ≠ s → m.slot t = some b → b ≠ a := by
      rintro t b hts ht rfl
      exact hts (h.distinct t s b ht hs)
    refine ⟨m.heap.remove a, by rw [Heap.free, if_pos hlive], rfl,
      ⟨fun t b ht => ?_, fun t u b ht hu => ?_, fun b hb => ?_⟩, ?_⟩
    · by_cases hts : t = s
      · subst hts
        simp [Store.put] at ht
      · simp only [Store.put, update_of_ne hts] at ht
        simpa [Store.put, Heap.remove, update_of_ne (hother t b hts ht)] using h.live t b ht
    · by_cases hts : t = s
      · subst hts
        simp [Store.put] at ht
      · by_cases hus : u = s
        · subst hus
          simp [Store.put] at hu
        · simp only [Store.put, update_of_ne hts, update_of_ne hus] at ht hu
          exact h.distinct t u b ht hu
    · by_cases hba : b = a
      · subst hba
        simp [Store.put, Heap.remove] at hb
      · simp only [Store.put, Heap.remove, update_of_ne hba] at hb
        obtain ⟨t, ht⟩ := h.covered b hb
        have hts : t ≠ s := by
          rintro rfl
          exact hba (Option.some.inj (ht.symm.trans hs))
        exact ⟨t, by simpa [Store.put, update_of_ne hts] using ht⟩
    · funext t
      by_cases hts : t = s
      · subst hts
        simp [Store.contents, Store.put]
      · rw [update_of_ne hts]
        simp only [Store.contents, Store.put, update_of_ne hts]
        cases ht : m.slot t with
        | none => rfl
        | some b => simp [Heap.remove, update_of_ne (hother t b hts ht)]

omit [DecidableEq S] in
/-- A block that no slot has taken is given back at once. -/
theorem untaken (h : Owned m) (v : α) (later : Heap α)
    (hblock : later.block = update m.heap.block m.heap.calls (some v)) :
    ∃ heap, later.free (some m.heap.calls) = some heap ∧ Owned ⟨heap, m.slot⟩ ∧
      (⟨heap, m.slot⟩ : Store S α).contents = m.contents := by
  have hlive : (later.block m.heap.calls).isSome := by simp [hblock]
  have hsame : (later.remove m.heap.calls).block = m.heap.block := by
    have hunused := m.heap.unused m.heap.calls (Nat.le_refl _)
    simp [Heap.remove, hblock, ← hunused]
  refine ⟨later.remove m.heap.calls, by rw [Heap.free, if_pos hlive], ⟨?_, h.distinct, ?_⟩, ?_⟩
  · intro s a hs
    rw [hsame]
    exact h.live s a hs
  · intro a ha
    rw [hsame] at ha
    exact h.covered a ha
  · funext s
    simp [Store.contents, hsame]

omit [DecidableEq S] in
/-- Allocating before a slot is freed is as good as after it. -/
theorem free_grant (h : Owned m) (s : S) (v : α) {heap : Heap α}
    (hfree : m.heap.free (m.slot s) = some heap) :
    (m.heap.grant v).free (m.slot s) = some (heap.grant v) := by
  cases hs : m.slot s with
  | none =>
    rw [hs] at hfree
    obtain rfl := Option.some.inj hfree
    rfl
  | some a =>
    have hlive := h.live s a hs
    have hne : a ≠ m.heap.calls := Nat.ne_of_lt (Heap.lt_calls hlive)
    rw [hs, Heap.free, if_pos hlive] at hfree
    obtain rfl := Option.some.inj hfree
    have hstill : ((m.heap.grant v).block a).isSome := by
      simpa [Heap.grant, update_of_ne hne] using hlive
    rw [Heap.free, if_pos hstill]
    simp [Heap.remove, Heap.grant, update_comm hne]

omit [DecidableEq S] in
theorem free_refuse (h : Owned m) (s : S) {heap : Heap α}
    (hfree : m.heap.free (m.slot s) = some heap) :
    m.heap.refuse.free (m.slot s) = some heap.refuse := by
  cases hs : m.slot s with
  | none =>
    rw [hs] at hfree
    obtain rfl := Option.some.inj hfree
    rfl
  | some a =>
    have hlive := h.live s a hs
    rw [hs, Heap.free, if_pos hlive] at hfree
    obtain rfl := Option.some.inj hfree
    have hstill : (m.heap.refuse.block a).isSome := hlive
    rw [Heap.free, if_pos hstill]
    rfl

omit [DecidableEq S] in
theorem freeSlots_congr {slot slot' : S → Option Nat} {slots : List S}
    (h : ∀ s ∈ slots, slot s = slot' s) (heap : Heap α) :
    Store.freeSlots slot slots heap = Store.freeSlots slot' slots heap := by
  induction slots generalizing heap with
  | nil => rfl
  | cons s slots ih =>
    have hrest : Store.freeSlots slot slots (α := α) = Store.freeSlots slot' slots :=
      funext fun heap => ih (fun t ht => h t (List.mem_cons_of_mem _ ht)) heap
    rw [Store.freeSlots, Store.freeSlots, h s List.mem_cons_self, hrest]

/-- **Freeing every slot once frees every block once.** -/
theorem freeSlots {slots : List S} (h : Owned m) (hnodup : slots.Nodup)
    (hall : ∀ s, s ∉ slots → m.slot s = none) :
    ∃ heap, Store.freeSlots m.slot slots m.heap = some heap ∧ ∀ a, heap.block a = none := by
  induction slots generalizing m with
  | nil =>
    refine ⟨m.heap, rfl, fun a => ?_⟩
    by_contra hblock
    obtain ⟨s, hs⟩ := h.covered a (Option.isSome_iff_ne_none.mpr hblock)
    rw [hall s List.not_mem_nil] at hs
    cases hs
  | cons s slots ih =>
    obtain ⟨hfresh, hnodup⟩ := List.nodup_cons.mp hnodup
    obtain ⟨heap, hfree, -, howned, -⟩ := h.free s
    have hall' : ∀ t, t ∉ slots → (m.put s none heap).slot t = none := by
      intro t ht
      by_cases hts : t = s
      · simp [Store.put, hts]
      · simp only [Store.put, update_of_ne hts]
        exact hall t fun hmem => (List.mem_cons.mp hmem).elim hts ht
    obtain ⟨heap', hfree', hempty⟩ := ih howned hnodup hall'
    refine ⟨heap', ?_, hempty⟩
    have hsame : ∀ t ∈ slots, m.slot t = (m.put s none heap).slot t := by
      intro t ht
      have hts : t ≠ s := fun heq => hfresh (heq ▸ ht)
      simp [Store.put, update_of_ne hts]
    rw [Store.freeSlots, hfree, Option.bind_some, freeSlots_congr hsame]
    exact hfree'

end Owned

/-! ## A block that is gone -/

section Gone
variable {S α : Type}

/-- No `free` brings a block back. -/
theorem Heap.gone_of_free {h h' : Heap α} {p : Option Nat} {a : Nat} (hfree : h.free p = some h')
    (ha : h.block a = none) : h'.block a = none := by
  cases p with
  | none =>
    obtain rfl := Option.some.inj hfree
    exact ha
  | some b =>
    rw [Heap.free] at hfree
    split at hfree
    · obtain rfl := Option.some.inj hfree
      by_cases hab : a = b
      · subst hab
        simp [Heap.remove]
      · simpa [Heap.remove, update_of_ne hab] using ha
    · cases hfree

/-- A slot whose block is gone cannot be freed with the others. -/
theorem freeSlots_gone {slot : S → Option Nat} {slots : List S} {s : S} {a : Nat} {h : Heap α}
    (hs : slot s = some a) (ha : h.block a = none) (hmem : s ∈ slots) :
    Store.freeSlots slot slots h = none := by
  induction slots generalizing h with
  | nil => cases hmem
  | cons t slots ih =>
    rw [Store.freeSlots]
    rcases List.mem_cons.mp hmem with rfl | hmem
    · rw [hs, Heap.free, if_neg (by simp [ha])]
      rfl
    · cases hfree : h.free (slot t) with
      | none => rfl
      | some h' => exact ih (Heap.gone_of_free hfree ha) hmem

end Gone

end OwnedSlots
