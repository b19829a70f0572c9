import Mathlib.Data.List.Basic

/-! # What a program throws

Programs over a state that can throw, of any types.  A call that only says whether it has
succeeded becomes one that throws (`orThrow`).

`Throws P x` says that all that `x` can throw has `P`, whatever the state.  It holds of a
program put together from parts of which it holds: of a sequence (`Throws.bind`), and of a loop
whose body throws only such things (`throws_forM`).  Programs that only read the state or return
throw nothing.  A property of error values that every call of a program puts into them is so
proved call by call, without a look at the states in which they are thrown.
-/
namespace Thrown

variable {ε σ α β : Type}

/-- The call `call`, which throws `e` when it says that it has failed, in the state that it has
left then. -/
def orThrow (e : ε) (call : σ → σ × Bool) : EStateM ε σ Unit := fun s =>
  match call s with
  | (s, true) => .ok () s
  | (s, false) => .error e s

@[simp] theorem run_orThrow (e : ε) (call : σ → σ × Bool) (s : σ) :
    (orThrow e call).run s =
      match call s with
      | (s, true) => .ok () s
      | (s, false) => .error e s := rfl

/-- **All that `x` throws has `P`**, in whatever state it begins.  Nothing is said about a run
that returns. -/
def Throws (P : ε → Prop) (x : EStateM ε σ α) : Prop :=
  ∀ s e s', x.run s = .error e s' → P e

variable {P : ε → Prop}

theorem throws_pure (a : α) : Throws P (pure a : EStateM ε σ α) := by
  rintro s e s' ⟨⟩

theorem throws_get : Throws P (get : EStateM ε σ σ) := by
  rintro s e s' ⟨⟩

theorem throws_throw {e : ε} (h : P e) : Throws P (throw e : EStateM ε σ Unit) := by
  rintro s e' s' ⟨⟩
  exact h

theorem throws_orThrow {e : ε} (h : P e) (call : σ → σ × Bool) : Throws P (orThrow e call) := by
  intro s e' s' hrun
  rw [run_orThrow] at hrun
  split at hrun <;> cases hrun
  exact h

theorem Throws.bind {x : EStateM ε σ α} {f : α → EStateM ε σ β} (hx : Throws P x)
    (hf : ∀ a, Throws P (f a)) : Throws P (x >>= f) := by
  intro s e s' h
  rw [EStateM.run_bind] at h
  cases hrun : x.run s with
  | ok a t =>
    rw [hrun] at h
    exact hf a t e s' h
  | error e' t =>
    rw [hrun] at h
    cases h
    exact hx s e s' hrun

/-- A loop, by what its body throws. -/
theorem throws_forM {f : α → EStateM ε σ Unit} (h : ∀ a, Throws P (f a)) (l : List α) :
    Throws P (forM l f) := by
  induction l with
  | nil => exact throws_pure ()
  | cons a l ih =>
    rw [List.forM_cons]
    exact (h a).bind fun _ => ih

end Thrown
