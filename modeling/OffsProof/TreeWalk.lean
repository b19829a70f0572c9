import Mathlib.Data.List.Infix
import Mathlib.Data.List.Pairwise

/-! # Depth-first walks and steps that stop at the first failure

A tree is given by the children of its nodes, in the order in which they come, and by which nodes
have children at all; a node is the list of names that leads to it.  `walk` is the list of visits
of a depth-first walk: a directory is entered before what is in it and left after it.  It goes
down a given number of levels, and only enters the directories it finds there.

`run` does something at each visit and stops at the first failure.  What has been done so far is
then a beginning of the walk (`run_cases`), and a fact that every successful visit carries on
holds of it (`run_invariant`).

What a walk guarantees about its order is one relation between an earlier and a later visit
(`Settled`): a file that has been visited and a directory that has been left are done with, and
no later visit is about them or what is below them (`walk_settled`).  In the other direction, a
directory that is entered has its children visited and is left in the end (`walk_child`,
`walk_leave`).  A program that works on a tree can so be judged visit by visit, by what was there
at the beginning.
-/
namespace TreeWalk

variable {α : Type}

inductive Visit (α : Type)
  | enter (path : List α)
  | file (path : List α)
  | leave (path : List α)
  deriving DecidableEq, Repr

def Visit.path : Visit α → List α
  | .enter p | .file p | .leave p => p

/-- Paths to two children of a node part there. -/
theorem eq_of_isPrefix_child {p q : List α} {a b : α} (ha : p ++ [a] <+: q)
    (hb : p ++ [b] <+: q) : a = b := by
  obtain ⟨s, rfl⟩ := ha
  obtain ⟨t, ht⟩ := hb
  simp only [List.append_assoc, List.append_cancel_left_eq, List.cons_append,
    List.nil_append, List.cons.injEq] at ht
  exact ht.1.symm

/-! ## The walk -/

section Walk
variable (children : List α → List α) (isDir : List α → Bool)

def walk : Nat → List α → List (Visit α)
  | 0, p => [.enter p]
  | n + 1, p => .enter p :: ((children p).flatMap fun c =>
      if isDir (p ++ [c]) then walk n (p ++ [c]) else [.file (p ++ [c])]) ++ [.leave p]

/-- The visits of one child. -/
def walkChild (n : Nat) (p : List α) (c : α) : List (Visit α) :=
  if isDir (p ++ [c]) then walk children isDir n (p ++ [c]) else [.file (p ++ [c])]

variable {children isDir} {n : Nat} {p q : List α} {c : α} {u v : Visit α}

theorem walk_succ : walk children isDir (n + 1) p =
    .enter p :: (children p).flatMap (walkChild children isDir n p) ++ [.leave p] := rfl

theorem mem_walk_succ : v ∈ walk children isDir (n + 1) p ↔
    v = .enter p ∨ (∃ c ∈ children p, v ∈ walkChild children isDir n p c) ∨ v = .leave p := by
  rw [walk_succ]
  simp

theorem enter_mem_walk : .enter p ∈ walk children isDir n p := by
  rcases n with _ | n
  · exact List.mem_singleton.mpr rfl
  · exact mem_walk_succ.mpr (.inl rfl)

/-- A walk stays below where it starts. -/
theorem walk_below (h : v ∈ walk children isDir n p) : p <+: v.path := by
  induction n generalizing p with
  | zero =>
    rw [List.mem_singleton.mp h]
    exact List.prefix_rfl
  | succ n ih =>
    rcases mem_walk_succ.mp h with rfl | ⟨c, -, hc⟩ | rfl
    · exact List.prefix_rfl
    · rw [walkChild] at hc
      split at hc
      · exact (List.prefix_append p [c]).trans (ih hc)
      · rw [List.mem_singleton.mp hc]
        exact List.prefix_append p [c]
    · exact List.prefix_rfl

theorem walkChild_below (h : v ∈ walkChild children isDir n p c) : p ++ [c] <+: v.path := by
  rw [walkChild] at h
  split at h
  · exact walk_below h
  · rw [List.mem_singleton.mp h]
    exact List.prefix_rfl

/-- The node where a walk starts is not visited as a file. -/
theorem walk_file_ne (h : .file q ∈ walk children isDir n p) : q ≠ p := by
  rintro rfl
  rcases n with _ | n
  · cases List.mem_singleton.mp h
  · rcases mem_walk_succ.mp h with hq | ⟨c, -, hc⟩ | hq
    · cases hq
    · have hlength := (walkChild_below hc).length_le
      simp only [Visit.path, List.length_append, List.length_singleton] at hlength
      omega
    · cases hq

/-- After `u`, the visit `v` is not one of the same node or below it. -/
def Settled : Visit α → Visit α → Prop
  | .enter _, _ => True
  | .file q, v | .leave q, v => ¬q <+: v.path

theorem settled_of_not_isPrefix (h : ¬u.path <+: v.path) : Settled u v := by
  rcases u with q | q | q
  · trivial
  · exact h
  · exact h

/-- **A file that has been visited and a directory that has been left are done with.** -/
theorem walk_settled (hnodup : ∀ p, (children p).Nodup) (n : Nat) (p : List α) :
    (walk children isDir n p).Pairwise Settled := by
  induction n generalizing p with
  | zero => exact List.pairwise_singleton _ _
  | succ n ih =>
    rw [walk_succ, List.cons_append, List.pairwise_cons]
    refine ⟨fun _ _ => trivial, ?_⟩
    rw [List.pairwise_append]
    refine ⟨?_, List.pairwise_singleton _ _, ?_⟩
    · rw [List.pairwise_flatMap]
      refine ⟨fun c _ => ?_, (hnodup p).imp ?_⟩
      · rw [walkChild]
        split
        · exact ih (p ++ [c])
        · exact List.pairwise_singleton _ _
      · intro a b hab u hu v hv
        refine settled_of_not_isPrefix fun h => hab ?_
        exact eq_of_isPrefix_child ((walkChild_below hu).trans h) (walkChild_below hv)
    · intro u hu v hv
      obtain ⟨c, -, hc⟩ := List.mem_flatMap.mp hu
      rw [List.mem_singleton.mp hv]
      refine settled_of_not_isPrefix fun h => ?_
      have hlength := ((walkChild_below hc).trans h).length_le
      simp only [Visit.path, List.length_append, List.length_singleton] at hlength
      omega

/-- A directory that is entered above the last level has its children visited. -/
theorem walk_child (hq : .enter q ∈ walk children isDir n p) (hlevel : q.length < p.length + n)
    (hc : c ∈ children q) :
    if isDir (q ++ [c]) then .enter (q ++ [c]) ∈ walk children isDir n p
    else .file (q ++ [c]) ∈ walk children isDir n p := by
  induction n generalizing p with
  | zero =>
    obtain rfl : q = p := by simpa [walk] using hq
    omega
  | succ n ih =>
    rcases mem_walk_succ.mp hq with h | ⟨d, hd, hmem⟩ | h
    · obtain rfl : q = p := by simpa using h
      by_cases hdir : isDir (q ++ [c]) = true
      · rw [if_pos hdir]
        refine mem_walk_succ.mpr (.inr (.inl ⟨c, hc, ?_⟩))
        rw [walkChild, if_pos hdir]
        exact enter_mem_walk
      · rw [if_neg hdir]
        refine mem_walk_succ.mpr (.inr (.inl ⟨c, hc, ?_⟩))
        rw [walkChild, if_neg hdir]
        exact List.mem_singleton.mpr rfl
    · by_cases hdir : isDir (p ++ [d]) = true
      · rw [walkChild, if_pos hdir] at hmem
        have hsub : ∀ w ∈ walk children isDir n (p ++ [d]), w ∈ walk children isDir (n + 1) p := by
          intro w hw
          refine mem_walk_succ.mpr (.inr (.inl ⟨d, hd, ?_⟩))
          rwa [walkChild, if_pos hdir]
        have hnext := ih hmem (by rw [List.length_append]; simp only [List.length_singleton]; omega)
        split at hnext
        · rw [if_pos ‹_›]
          exact hsub _ hnext
        · rw [if_neg ‹_›]
          exact hsub _ hnext
      · rw [walkChild, if_neg hdir] at hmem
        cases List.mem_singleton.mp hmem
    · cases h

/-- It is left in the end. -/
theorem walk_leave (hq : .enter q ∈ walk children isDir n p) (hlevel : q.length < p.length + n) :
    .leave q ∈ walk children isDir n p := by
  induction n generalizing p with
  | zero =>
    obtain rfl : q = p := by simpa [walk] using hq
    omega
  | succ n ih =>
    rcases mem_walk_succ.mp hq with h | ⟨d, hd, hmem⟩ | h
    · obtain rfl : q = p := by simpa using h
      exact mem_walk_succ.mpr (.inr (.inr rfl))
    · by_cases hdir : isDir (p ++ [d]) = true
      · rw [walkChild, if_pos hdir] at hmem
        have hnext := ih hmem (by rw [List.length_append]; simp only [List.length_singleton]; omega)
        refine mem_walk_succ.mpr (.inr (.inl ⟨d, hd, ?_⟩))
        rwa [walkChild, if_pos hdir]
      · rw [walkChild, if_neg hdir] at hmem
        cases List.mem_singleton.mp hmem
    · cases h

/-- What is left has been entered. -/
theorem walk_enter (hq : .leave q ∈ walk children isDir n p) :
    .enter q ∈ walk children isDir n p := by
  induction n generalizing p with
  | zero => cases List.mem_singleton.mp hq
  | succ n ih =>
    rcases mem_walk_succ.mp hq with h | ⟨d, hd, hmem⟩ | h
    · cases h
    · by_cases hdir : isDir (p ++ [d]) = true
      · rw [walkChild, if_pos hdir] at hmem
        refine mem_walk_succ.mpr (.inr (.inl ⟨d, hd, ?_⟩))
        rw [walkChild, if_pos hdir]
        exact ih hmem
      · rw [walkChild, if_neg hdir] at hmem
        cases List.mem_singleton.mp hmem
    · obtain rfl : q = p := by simpa using h
      exact mem_walk_succ.mpr (.inl rfl)

/-- Directories are entered and left, all else is visited as a file. -/
def OfKind (isDir : List α → Bool) (p : List α) : Visit α → Prop
  | .enter q | .leave q => q = p ∨ isDir q = true
  | .file q => isDir q = false

theorem walk_ofKind (h : v ∈ walk children isDir n p) : OfKind isDir p v := by
  induction n generalizing p with
  | zero =>
    rw [List.mem_singleton.mp h]
    exact .inl rfl
  | succ n ih =>
    rcases mem_walk_succ.mp h with rfl | ⟨c, -, hc⟩ | rfl
    · exact .inl rfl
    · by_cases hdir : isDir (p ++ [c]) = true
      · rw [walkChild, if_pos hdir] at hc
        have hchild := ih hc
        rcases v with q | q | q
        · exact .inr (hchild.elim (fun hq => hq ▸ hdir) id)
        · exact hchild
        · exact .inr (hchild.elim (fun hq => hq ▸ hdir) id)
      · rw [walkChild, if_neg hdir] at hc
        rw [List.mem_singleton.mp hc]
        simpa [OfKind] using hdir
    · exact .inl rfl

end Walk

/-! ## Runs -/

section Run
variable {S V : Type} (step : V → S → S × Bool)

/-- Take one step after the other, up to the first failure. -/
def run : List V → S → S × Bool
  | [], s => (s, true)
  | v :: vs, s =>
    match step v s with
    | (s, false) => (s, false)
    | (s, true) => run vs s

variable {step} {s : S} {v : V} {a b vs : List V}

@[simp] theorem run_nil : run step [] s = (s, true) := rfl

theorem run_cons_of_ok (h : (step v s).2 = true) :
    run step (v :: vs) s = run step vs (step v s).1 := by
  rw [run]
  rcases hv : step v s with ⟨t, _ | _⟩
  · simp [hv] at h
  · rfl

theorem run_cons_of_failure (h : (step v s).2 = false) :
    run step (v :: vs) s = ((step v s).1, false) := by
  rw [run]
  rcases hv : step v s with ⟨t, _ | _⟩
  · rfl
  · simp [hv] at h

@[simp] theorem run_singleton : run step [v] s = step v s := by
  rw [run]
  rcases step v s with ⟨t, _ | _⟩ <;> rfl

theorem run_append_of_ok (h : (run step a s).2 = true) :
    run step (a ++ b) s = run step b (run step a s).1 := by
  induction a generalizing s with
  | nil => rfl
  | cons v a ih =>
    by_cases hv : (step v s).2 = true
    · rw [run_cons_of_ok hv] at h ⊢
      rw [List.cons_append, run_cons_of_ok hv, ih h]
    · rw [run_cons_of_failure (by simpa using hv)] at h
      cases h

theorem run_append_of_failure (h : (run step a s).2 = false) :
    run step (a ++ b) s = run step a s := by
  induction a generalizing s with
  | nil => cases h
  | cons v a ih =>
    by_cases hv : (step v s).2 = true
    · rw [run_cons_of_ok hv] at h ⊢
      rw [List.cons_append, run_cons_of_ok hv, ih h]
    · have hfailure : (step v s).2 = false := by simpa using hv
      rw [List.cons_append, run_cons_of_failure hfailure, run_cons_of_failure hfailure]

/-- The last step is made if there has been no failure before it. -/
theorem run_snoc : run step (a ++ [v]) s =
    match run step a s with
    | (t, false) => (t, false)
    | (t, true) => step v t := by
  rcases hrun : run step a s with ⟨t, _ | _⟩
  · rw [run_append_of_failure (by rw [hrun]), hrun]
  · rw [run_append_of_ok (by rw [hrun]), hrun, run_singleton]

/-- **A run comes to its end, or to a first failure.** -/
theorem run_cases (step : V → S → S × Bool) (vs : List V) (s : S) :
    (run step vs s).2 = true ∨ ∃ before v after, vs = before ++ v :: after ∧
      (run step before s).2 = true ∧ (step v (run step before s).1).2 = false ∧
      run step vs s = ((step v (run step before s).1).1, false) := by
  induction vs generalizing s with
  | nil => exact .inl rfl
  | cons v vs ih =>
    by_cases hv : (step v s).2 = true
    · rw [run_cons_of_ok hv]
      rcases ih (step v s).1 with hok | ⟨before, w, after, rfl, hbefore, hw, hrun⟩
      · exact .inl hok
      · refine .inr ⟨v :: before, w, after, rfl, ?_⟩
        rw [run_cons_of_ok hv]
        exact ⟨hbefore, hw, hrun⟩
    · have hfailure : (step v s).2 = false := by simpa using hv
      exact .inr ⟨[], v, vs, rfl, rfl, hfailure, run_cons_of_failure hfailure⟩

/-- **What every successful step carries on.** -/
theorem run_invariant {P : List V → S → Prop} {s₀ : S} (hs : P [] s₀)
    (hstep : ∀ {before v after s}, vs = before ++ v :: after → P before s →
      (step v s).2 = true → P (before ++ [v]) (step v s).1)
    {before after : List V} (hvs : vs = before ++ after) (hok : (run step before s₀).2 = true) :
    P before (run step before s₀).1 := by
  induction before using List.reverseRecOn generalizing after with
  | nil => exact hs
  | append_singleton before v ih =>
    have hsplit : vs = before ++ v :: after := by simpa using hvs
    by_cases hbefore : (run step before s₀).2 = true
    · rw [run_append_of_ok hbefore] at hok ⊢
      by_cases hv : (step v (run step before s₀).1).2 = true
      · rw [run_cons_of_ok hv]
        exact hstep hsplit (ih hsplit hbefore) hv
      · rw [run_cons_of_failure (by simpa using hv)] at hok
        cases hok
    · rw [run_append_of_failure (by simpa using hbefore)] at hok
      exact absurd hok hbefore

end Run

end TreeWalk
