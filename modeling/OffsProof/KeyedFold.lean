import OffsProof.KeyedHistory

/-! # Folds over keyed steps

A run of steps, each with a key.  If steps with different keys commute, the outcome depends only
on the order of the steps with the same key (`foldl_of_order`); if a step also undoes what an
earlier one with its key did, only the last step of each key counts (`foldl_lasts`).

Both go by induction over the first list of steps.  For the order, the first step of one list is
found in the other one, where only steps with other keys are before it (`ofKey_eq_cons`), and
there it can be moved to the front (`foldl_move`).  For the last steps, a step that another one
with its key follows is absorbed by that one, past the steps in between (`foldl_absorb`).

A command line whose flags set fields is such a run: the key is the flag, a step the value that
it is given.
-/
namespace KeyedFold
open KeyedHistory

variable {K E S : Type} [DecidableEq K] {key : E → K} {step : S → E → S}

/-- Steps with different keys commute. -/
def Commutes (key : E → K) (step : S → E → S) : Prop :=
  ∀ s a b, key a ≠ key b → step (step s a) b = step (step s b) a

/-- A step leaves nothing of an earlier one with its key. -/
def Overrides (key : E → K) (step : S → E → S) : Prop :=
  ∀ s a b, key a = key b → step (step s a) b = step s b

/-- **The same steps in another order**, which keeps the order of those with the same key.  The
lists have, for each key, the same steps one after another; nothing is said about how the steps
of one key lie between those of another. -/
structure Reordered (key : E → K) (xs ys : List E) : Prop where
  perm : xs.Perm ys
  order : ∀ k, ofKey key xs k = ofKey key ys k

theorem ofKey_append (xs ys : List E) (k : K) :
    ofKey key (xs ++ ys) k = ofKey key xs k ++ ofKey key ys k := List.filter_append ..

omit [DecidableEq K] in
/-- A step moves to the front past steps with other keys. -/
theorem foldl_move (hcomm : Commutes key step) (s : S) (e : E) {before : List E}
    (hbefore : ∀ a ∈ before, key a ≠ key e) :
    step (before.foldl step s) e = before.foldl step (step s e) := by
  induction before generalizing s with
  | nil => rfl
  | cons a before ih =>
    have ha := hbefore a List.mem_cons_self
    have hrest : ∀ a ∈ before, key a ≠ key e := fun a ha => hbefore a (List.mem_cons_of_mem _ ha)
    rw [List.foldl_cons, List.foldl_cons, ih _ hrest, hcomm s a e ha]

/-- The first step of a key, and what is before it. -/
theorem ofKey_eq_cons {e : E} {ys rest : List E} (h : ofKey key ys (key e) = e :: rest) :
    ∃ before after, ys = before ++ e :: after ∧ (∀ a ∈ before, key a ≠ key e) ∧
      ofKey key after (key e) = rest := by
  induction ys with
  | nil => cases h
  | cons a ys ih =>
    by_cases ha : key a = key e
    · rw [ofKey, List.filter_cons_of_pos (by simpa using ha)] at h
      obtain ⟨rfl, hrest⟩ := List.cons.inj h
      exact ⟨[], ys, rfl, by simp, hrest⟩
    · rw [ofKey, List.filter_cons_of_neg (by simpa using ha)] at h
      obtain ⟨before, after, rfl, hbefore, hrest⟩ := ih h
      refine ⟨a :: before, after, rfl, ?_, hrest⟩
      rintro b (_ | ⟨_, hb⟩)
      · exact ha
      · exact hbefore b hb

/-- **The outcome depends only on the order within each key.** -/
theorem foldl_of_order (hcomm : Commutes key step) {xs ys : List E}
    (h : ∀ k, ofKey key xs k = ofKey key ys k) (s : S) : xs.foldl step s = ys.foldl step s := by
  induction xs generalizing ys s with
  | nil =>
    have hys : ys = [] := by
      rw [List.eq_nil_iff_forall_not_mem]
      intro e he
      have : e ∈ ofKey key ys (key e) := List.mem_filter.mpr ⟨he, by simp⟩
      rw [← h (key e)] at this
      cases this
    rw [hys]
  | cons e xs ih =>
    have hfirst : ofKey key ys (key e) = e :: ofKey key xs (key e) := by
      rw [← h (key e), ofKey, List.filter_cons_of_pos (by simp), ofKey]
    obtain ⟨before, after, rfl, hbefore, hrest⟩ := ofKey_eq_cons hfirst
    have horder : ∀ k, ofKey key xs k = ofKey key (before ++ after) k := by
      intro k
      have hk := h k
      by_cases hek : key e = k
      · subst hek
        have hnone : ofKey key before (key e) = [] :=
          List.filter_eq_nil_iff.mpr fun a ha => by simpa using hbefore a ha
        rw [ofKey_append, hnone, hrest, List.nil_append]
      · simpa [ofKey, List.filter_append, hek] using hk
    calc (e :: xs).foldl step s = xs.foldl step (step s e) := rfl
      _ = (before ++ after).foldl step (step s e) := ih horder _
      _ = after.foldl step (step (before.foldl step s) e) := by
        rw [List.foldl_append, foldl_move hcomm s e hbefore]
      _ = (before ++ e :: after).foldl step s := by rw [List.foldl_append, List.foldl_cons]

/-- The last step of each key, in order. -/
def lasts (key : E → K) : List E → List E
  | [] => []
  | e :: rest => if rest.any fun a => key a = key e then lasts key rest else e :: lasts key rest

/-- A step counts for nothing if another one with its key follows. -/
theorem foldl_absorb (hcomm : Commutes key step) (hover : Overrides key step) (s : S) (e : E)
    {rest : List E} (h : ∃ a ∈ rest, key a = key e) :
    rest.foldl step (step s e) = rest.foldl step s := by
  induction rest generalizing s with
  | nil =>
    obtain ⟨a, ha, -⟩ := h
    cases ha
  | cons b rest ih =>
    rw [List.foldl_cons, List.foldl_cons]
    by_cases hb : key b = key e
    · rw [hover s e b hb.symm]
    · rw [hcomm s e b fun heq => hb heq.symm]
      obtain ⟨a, _ | ⟨_, ha⟩, hkey⟩ := h
      · exact absurd hkey hb
      · exact ih _ ⟨a, ha, hkey⟩

/-- **The last step of each key decides.** -/
theorem foldl_lasts (hcomm : Commutes key step) (hover : Overrides key step) (xs : List E)
    (s : S) : (lasts key xs).foldl step s = xs.foldl step s := by
  induction xs generalizing s with
  | nil => rfl
  | cons e xs ih =>
    rw [lasts]
    split
    · rename_i hany
      have hlater : ∃ a ∈ xs, key a = key e := by simpa using hany
      rw [ih, List.foldl_cons, foldl_absorb hcomm hover s e hlater]
    · rw [List.foldl_cons, List.foldl_cons, ih]

end KeyedFold
