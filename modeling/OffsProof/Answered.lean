import Mathlib.Data.List.Basic

/-! # Requests that are answered

A log of calls, over any type.  `Answered ask reply log` says that every `ask` in the log has a
`reply` after it, and it is decided by running through the log.

Logs are put together from the logs of the parts of a program.  A part that does not ask keeps a
log answered (`answered_of_not_mem`).  A later part that contains the reply answers everything
that was asked before, whatever it was, so that only what the part itself asks has to be looked
at again (`Answered.append`).  With these two a proof goes through a program from its last call
to its first, and never speaks about positions in the log.
-/
namespace CallLog

variable {α : Type}

/-- **Every `ask` is followed by a `reply`.**  The reply need not come at once, and one reply may
answer several asks; replies to nothing are allowed. -/
def Answered (ask reply : α) : List α → Prop
  | [] => True
  | e :: log => (e = ask → reply ∈ log) ∧ Answered ask reply log

instance decidableAnswered [DecidableEq α] (ask reply : α) :
    ∀ log : List α, Decidable (Answered ask reply log)
  | [] => .isTrue trivial
  | e :: log =>
    have := decidableAnswered ask reply log
    inferInstanceAs (Decidable ((e = ask → reply ∈ log) ∧ Answered ask reply log))

variable {ask reply : α} {log : List α}

theorem answered_iff :
    Answered ask reply log ↔ ∀ before after, log = before ++ ask :: after → reply ∈ after := by
  induction log with
  | nil =>
    refine iff_of_true trivial fun before after h => ?_
    simp at h
  | cons e log ih =>
    constructor
    · rintro ⟨hhead, htail⟩ before after h
      cases before with
      | nil =>
        obtain ⟨rfl, rfl⟩ := List.cons.inj h
        exact hhead rfl
      | cons b before => exact ih.mp htail before after (List.cons.inj h).2
    · intro h
      refine ⟨?_, ih.mpr fun before after hlog => ?_⟩
      · rintro rfl
        exact h [] log rfl
      · exact h (e :: before) after (by rw [hlog, List.cons_append])

theorem answered_of_not_mem (h : ask ∉ log) : Answered ask reply log := by
  rw [answered_iff]
  rintro before after rfl
  exact absurd (List.mem_append_right before List.mem_cons_self) h

/-- A later part that contains the reply answers what was asked before. -/
theorem Answered.append {more : List α} (hmore : Answered ask reply more) (hreply : reply ∈ more) :
    Answered ask reply (log ++ more) := by
  induction log with
  | nil => exact hmore
  | cons e log ih => exact ⟨fun _ => List.mem_append_right log hreply, ih⟩

end CallLog
