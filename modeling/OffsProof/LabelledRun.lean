import Mathlib.Data.List.Basic

/-! # Runs of a labelled step function

A system whose parties take turns in any order is given by a partial step
function: `step s l` is the state after the move `l` in state `s`, and `none`
when that move is not enabled there.  A run is then a list of labels, and a
statement about every interleaving is a statement about every list that `exec`
can follow.

Three rules are proved once here.  `exec_invariant_of_meets` turns a fact about one
step into a fact about every state that a run reaches, for runs all of whose steps
keep a condition on the state before the step (`Meets`).  `exec_response` is the bounded form of "leads to": when a rank never
grows, and shrinks at every step of one chosen party, that party's own steps
bring the run to the goal, whatever the other parties do in between.  `exec_budget`
is for a rank that some steps of the others do raise: the chosen party then takes no
more steps than the rank and these raises allow.
-/
namespace LabelledRun

variable {S L : Type} (step : S → L → Option S)

/-- The state reached from `s` along `ls`, `none` when some label is not enabled
where it stands. -/
def exec : S → List L → Option S
  | s, [] => some s
  | s, l :: ls => (step s l).bind fun t => exec t ls

/-- Every step of the run from `s` along `ls` satisfies `ok` in the state it is taken in.  A run
that comes to a step that cannot be taken ends there, and nothing more is asked. -/
def Meets (ok : S → L → Prop) : S → List L → Prop
  | _, [] => True
  | s, l :: ls => ok s l ∧ (step s l).elim True fun t => Meets ok t ls

instance decidableMeets (ok : S → L → Prop) [∀ s l, Decidable (ok s l)] :
    ∀ (s : S) (ls : List L), Decidable (Meets step ok s ls)
  | _, [] => .isTrue trivial
  | s, l :: ls =>
    match h : step s l with
    | none => decidable_of_iff (ok s l) (by simp [Meets, h])
    | some t =>
      have := decidableMeets ok t ls
      decidable_of_iff (ok s l ∧ Meets step ok t ls) (by simp [Meets, h])

variable {step}

theorem Meets.tail {ok : S → L → Prop} {s t : S} {l : L} {ls : List L}
    (h : Meets step ok s (l :: ls)) (hst : step s l = some t) : Meets step ok t ls := by
  simpa [hst] using h.2

theorem Meets.and {ok ok' : S → L → Prop} {s : S} {ls : List L} (h : Meets step ok s ls)
    (h' : Meets step ok' s ls) : Meets step (fun s l => ok s l ∧ ok' s l) s ls := by
  induction ls generalizing s with
  | nil => trivial
  | cons l ls ih =>
    refine ⟨⟨h.1, h'.1⟩, ?_⟩
    cases hst : step s l with
    | none => trivial
    | some t => exact ih (h.tail hst) (h'.tail hst)

/-- Conditions that agree on every step are met by the same runs. -/
theorem meets_congr {ok ok' : S → L → Prop} (h : ∀ s l, ok s l ↔ ok' s l) {s : S} {ls : List L} :
    Meets step ok s ls ↔ Meets step ok' s ls := by
  have heq : ok = ok' := funext fun s => funext fun l => propext (h s l)
  rw [heq]

@[simp] theorem exec_nil (s : S) : exec step s [] = some s := rfl

theorem exec_cons {s u : S} {l : L} {ls : List L} :
    exec step s (l :: ls) = some u ↔ ∃ t, step s l = some t ∧ exec step t ls = some u := by
  simp [exec, Option.bind_eq_some_iff]

/-- A run goes on from where its first part has led. -/
theorem exec_append {s t : S} {a b : List L} (ha : exec step s a = some t) :
    exec step s (a ++ b) = exec step t b := by
  induction a generalizing s with
  | nil =>
    cases ha
    rfl
  | cons l a ih =>
    obtain ⟨m, hsm, hma⟩ := exec_cons.mp ha
    simp only [List.cons_append, exec, hsm, Option.bind_some]
    exact ih hma

/-- A run of one system is a run of another that makes the same moves. -/
theorem exec_map {S' : Type} {step' : S' → L → Option S'} {f : S → S'}
    (hstep : ∀ {s l t}, step s l = some t → step' (f s) l = some (f t)) {ls : List L} {s u : S}
    (hrun : exec step s ls = some u) : exec step' (f s) ls = some (f u) := by
  induction ls generalizing s with
  | nil =>
    cases hrun
    rfl
  | cons l ls ih =>
    obtain ⟨t, hst, htu⟩ := exec_cons.mp hrun
    exact exec_cons.mpr ⟨f t, hstep hst, ih htu⟩

theorem meets_append {ok : S → L → Prop} {s t : S} {a b : List L}
    (h : Meets step ok s (a ++ b)) (ha : exec step s a = some t) : Meets step ok t b := by
  induction a generalizing s with
  | nil =>
    cases ha
    exact h
  | cons l a ih =>
    obtain ⟨m, hsm, hma⟩ := exec_cons.mp ha
    exact ih (h.tail hsm) hma

/-- **What one step keeps, every run keeps**, when the steps of the run meet the
condition the step lemma asks for. -/
theorem exec_invariant_of_meets {I : S → Prop} {ok : S → L → Prop}
    (hstep : ∀ {s l t}, I s → ok s l → step s l = some t → I t) {ls : List L} {s u : S}
    (hs : I s) (hok : Meets step ok s ls) (hrun : exec step s ls = some u) : I u := by
  induction ls generalizing s with
  | nil =>
    cases hrun
    exact hs
  | cons l ls ih =>
    obtain ⟨t, hst, htu⟩ := exec_cons.mp hrun
    exact ih (hstep hs hok.1 hst) (hok.tail hst) htu

/-- The same for a condition on labels alone. -/
theorem meets_of_labels {ok : L → Prop} {ls : List L} (h : ∀ l ∈ ls, ok l) (s : S) :
    Meets step (fun _ l => ok l) s ls := by
  induction ls generalizing s with
  | nil => trivial
  | cons l ls ih =>
    refine ⟨h l List.mem_cons_self, ?_⟩
    cases step s l with
    | none => trivial
    | some t => exact ih (fun k hk => h k (List.mem_cons_of_mem l hk)) t

/-- The same for an invariant that every step keeps. -/
theorem exec_invariant {I : S → Prop} (hstep : ∀ {s l t}, I s → step s l = some t → I t)
    {ls : List L} {s u : S} (hs : I s) (hrun : exec step s ls = some u) : I u :=
  exec_invariant_of_meets (fun hs (_ : True) h => hstep hs h) hs
    (meets_of_labels (fun _ _ => trivial) s) hrun

/-- A run that comes to a property that it did not begin with has a step that brings it
about. -/
theorem exec_crossing {P : S → Prop} {ls : List L} {s u : S} (hrun : exec step s ls = some u)
    (hs : ¬P s) (hu : P u) :
    ∃ a l b m t, ls = a ++ l :: b ∧ exec step s a = some m ∧ step m l = some t ∧ ¬P m ∧ P t := by
  induction ls generalizing s with
  | nil =>
    cases hrun
    exact absurd hu hs
  | cons l ls ih =>
    obtain ⟨t, hst, htu⟩ := exec_cons.mp hrun
    by_cases ht : P t
    · exact ⟨[], l, ls, s, t, rfl, rfl, hst, hs, ht⟩
    · obtain ⟨a, k, b, m, v, rfl, ham, hmv, hm, hv⟩ := ih htu ht
      exact ⟨l :: a, k, b, m, v, rfl, exec_cons.mpr ⟨t, hst, ham⟩, hmv, hm, hv⟩

/-- **Bounded response.**  From a `P`-state every step either is a `goal` step, or
keeps `P` without raising the rank, and a `tick` step that is not a goal lowers
it.  Then a run with more ticks than the rank contains a goal step, and the
labels before the first one contain none. -/
theorem exec_response {P : S → Prop} {rank : S → Nat} {tick : L → Bool} {goal : S → L → Prop}
    {ok : L → Prop}
    (hstep : ∀ {s l t}, P s → ok l → step s l = some t →
      goal s l ∨ (P t ∧ rank t ≤ rank s ∧ (tick l = true → rank t < rank s)))
    {ls : List L} {s u : S} (hs : P s) (hok : ∀ l ∈ ls, ok l) (hrun : exec step s ls = some u)
    (hticks : rank s < ls.countP tick) :
    ∃ a l b m, ls = a ++ l :: b ∧ exec step s a = some m ∧ goal m l ∧
      Meets step (fun m l => ¬ goal m l) s a := by
  induction ls generalizing s with
  | nil => simp at hticks
  | cons l ls ih =>
    by_cases hgoal : goal s l
    · exact ⟨[], l, ls, s, rfl, rfl, hgoal, trivial⟩
    · obtain ⟨t, hst, htu⟩ := exec_cons.mp hrun
      rcases hstep hs (hok l List.mem_cons_self) hst with hg | ⟨hP, hle, hlt⟩
      · exact absurd hg hgoal
      · -- Each tick that is used up has lowered the rank.
        have hcount : rank t < ls.countP tick := by
          rw [List.countP_cons] at hticks
          by_cases htick : tick l = true
          · have := hlt htick
            simp only [htick, if_true] at hticks
            omega
          · simp only [htick] at hticks
            exact Nat.lt_of_le_of_lt hle hticks
        obtain ⟨a, k, b, m, rfl, ham, hg, hbefore⟩ :=
          ih hP (fun k hk => hok k (List.mem_cons_of_mem l hk)) htu hcount
        exact ⟨l :: a, k, b, m, rfl, exec_cons.mpr ⟨t, hst, ham⟩, hg, hgoal, by simpa [hst]⟩

/-- **Amortised steps.**  Every step that `pays` lowers the rank by at least one, a step that
`costs` raises it by at most `k`, and no other step raises it.  Then a run pays for its
steps out of the rank it starts with and what it has been given on the way. -/
theorem exec_budget {P : S → Prop} {ok : L → Prop} {rank : S → Nat} {pays costs : L → Bool} {k : Nat}
    (hstep : ∀ {s l t}, P s → ok l → step s l = some t →
      P t ∧ rank t + (if pays l then 1 else 0) ≤ rank s + (if costs l then k else 0))
    {ls : List L} {s u : S} (hs : P s) (hok : ∀ l ∈ ls, ok l) (hrun : exec step s ls = some u) :
    P u ∧ rank u + ls.countP pays ≤ rank s + k * ls.countP costs := by
  induction ls generalizing s with
  | nil =>
    cases hrun
    exact ⟨hs, by simp⟩
  | cons l ls ih =>
    obtain ⟨t, hst, htu⟩ := exec_cons.mp hrun
    obtain ⟨ht, hrank⟩ := hstep hs (hok l List.mem_cons_self) hst
    obtain ⟨hu, hrest⟩ := ih ht (fun k hk => hok k (List.mem_cons_of_mem l hk)) htu
    refine ⟨hu, ?_⟩
    rw [List.countP_cons, List.countP_cons, Nat.mul_add]
    have hcost : k * (if costs l then 1 else 0) = if costs l then k else 0 := by
      split <;> simp
    omega

end LabelledRun
