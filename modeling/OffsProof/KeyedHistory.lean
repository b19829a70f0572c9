import Mathlib.Data.List.Basic
import Mathlib.Data.List.Nodup
import Mathlib.Data.List.Perm.Basic

/-! # Histories by key, and tables that follow them

A history is a list of events, each with a key.  `ofKey` are the events of one key, oldest
first, and `last` is the last of them.  A table keeps at most one row for each key.

Adding an event to a history changes what there is of its own key and nothing else
(`last_append_self`, `last_append_of_ne`), so that a table that follows a history has one row to
update, or one to add.  Code does this at an index it has searched for; where the keys of the
rows are distinct, an update at the index is one at the key (`modify_eq_updateKey`), and the
proofs speak about keys only.

`perm_of_rows` says that a table is given by what it has for each key, up to the order of its
rows.  Two tables that have been filled in different orders are so compared key by key, and
whatever does not see the order is the same for both.
-/
namespace KeyedHistory

variable {K E R : Type}

section History
variable [DecidableEq K] (key : E → K)

/-- The events of one key. -/
def ofKey (history : List E) (k : K) : List E := history.filter fun e => key e = k

/-- The last event of a key. -/
def last (history : List E) (k : K) : Option E := (ofKey key history k).getLast?

variable {key}

@[simp] theorem ofKey_nil (k : K) : ofKey key [] k = [] := rfl

theorem ofKey_append_self (history : List E) (e : E) :
    ofKey key (history ++ [e]) (key e) = ofKey key history (key e) ++ [e] := by
  simp [ofKey, List.filter_append]

theorem ofKey_append_of_ne (history : List E) {e : E} {k : K} (h : key e ≠ k) :
    ofKey key (history ++ [e]) k = ofKey key history k := by
  simp [ofKey, List.filter_append, h]

theorem last_append_self (history : List E) (e : E) :
    last key (history ++ [e]) (key e) = some e := by
  rw [last, ofKey_append_self, List.getLast?_concat]

theorem last_append_of_ne (history : List E) {e : E} {k : K} (h : key e ≠ k) :
    last key (history ++ [e]) k = last key history k := by
  rw [last, ofKey_append_of_ne history h, last]

/-- The keys of a history are those that have a last event. -/
theorem last_isSome_iff {history : List E} {k : K} :
    (last key history k).isSome ↔ ∃ e ∈ history, key e = k := by
  simp [last, ofKey]

end History

section Table
variable [DecidableEq K] (key : R → K)

/-- Update the row of a key.  Where there is no such row nothing happens. -/
def updateKey (k : K) (f : R → R) (rows : List R) : List R :=
  rows.map fun row => if key row = k then f row else row

variable {key}

theorem updateKey_of_fresh {k : K} {rows : List R} (hfresh : k ∉ rows.map key) (f : R → R) :
    updateKey key k f rows = rows := by
  have hself : ∀ row ∈ rows, (if key row = k then f row else row) = row := by
    intro row hrow
    rw [if_neg]
    rintro rfl
    exact hfresh (List.mem_map_of_mem hrow)
  calc rows.map (fun row => if key row = k then f row else row)
      = rows.map id := List.map_congr_left hself
    _ = rows := List.map_id rows

/-- Where keys are distinct, an update at an index is one at its key. -/
theorem modify_eq_updateKey {rows : List R} (hnodup : (rows.map key).Nodup) {i : Nat}
    (hi : i < rows.length) (f : R → R) :
    rows.modify i f = updateKey key (key rows[i]) f rows := by
  induction rows generalizing i with
  | nil => simp at hi
  | cons row rows ih =>
    rw [List.map_cons, List.nodup_cons] at hnodup
    obtain ⟨hfresh, hrest⟩ := hnodup
    rcases i with _ | i
    · have hothers := updateKey_of_fresh hfresh f
      simpa [updateKey] using hothers.symm
    · have hi' : i < rows.length := by simpa using hi
      have hne : key row ≠ key rows[i] := by
        intro heq
        exact hfresh (heq ▸ List.mem_map_of_mem (List.getElem_mem hi'))
      have hnext := ih hrest hi'
      simpa [updateKey, hne] using hnext

/-- An update that keeps the key of its row keeps all keys. -/
theorem map_key_updateKey {k : K} {f : R → R} (hf : ∀ row, key (f row) = key row) (rows : List R) :
    (updateKey key k f rows).map key = rows.map key := by
  rw [updateKey, List.map_map]
  refine List.map_congr_left fun row _ => ?_
  dsimp only [Function.comp]
  split
  · exact hf row
  · rfl

end Table

/-- An update of the row that has just been added. -/
theorem modify_concat (rows : List R) (row : R) (f : R → R) :
    (rows ++ [row]).modify rows.length f = rows ++ [f row] := by
  induction rows with
  | nil => rfl
  | cons first rows ih => simpa using ih

/-- **Tables that have the same for each key are permutations of each other**, as far as it
is seen through `view`. -/
theorem perm_of_rows {V : Type} {key : R → K} (view : R → V) {rows rows' : List R}
    (hnodup : (rows.map key).Nodup) (hnodup' : (rows'.map key).Nodup)
    (hsame : ∀ k v, (∃ row ∈ rows, key row = k ∧ view row = v) ↔
      ∃ row ∈ rows', key row = k ∧ view row = v) :
    (rows.map view).Perm (rows'.map view) := by
  have hpairs : (rows.map fun row => (key row, view row)).Perm
      (rows'.map fun row => (key row, view row)) := by
    refine (List.perm_ext_iff_of_nodup ?_ ?_).mpr fun pair => ?_
    · exact List.Nodup.of_map Prod.fst (by simpa [List.map_map, Function.comp_def] using hnodup)
    · exact List.Nodup.of_map Prod.fst (by simpa [List.map_map, Function.comp_def] using hnodup')
    · simpa [Prod.ext_iff] using hsame pair.1 pair.2
  have hviews := hpairs.map Prod.snd
  simpa [List.map_map, Function.comp_def] using hviews

end KeyedHistory
