import OffsProof.Watchdog

/-! # The watchdog is not late

The comment over `_shutdown_watchdog_thread` promises that a teardown which hangs does not hold
the service manager hostage: once the thread exists, the process is gone after
`SHUTDOWN_WATCHDOG_MS` and the last delay.

For that the clock may not run away from the threads.  `Prompt d` says where it has to wait: a
sleep overruns by at most `d`, and the test for the thread follows the store of the flag within
`d`.  Nothing is asked of the teardown itself, nor of the time between two of them.  Under that
condition no teardown is ever older than the bound (`teardown_bounded`), and the condition does
not stop the clock: from every state time goes on, or the process ends (`advances`).

The invariant (`OnTime`) says where the watchdog stands towards the shutdown in progress: it went
to sleep before the flag was set, or at most `d` later, so that it wakes up, looks and exits
within the limit.  A shutdown that begins finds the thread in a sleep that has begun before.  The
delays of the creation, of the sleep and of the last wait add up to `3 * d`.
-/
namespace Offs.Watchdog
open LabelledRun

variable {d : Nat}

/-- **The watchdog is scheduled in time**, up to a delay of `d` for each sleep and for the
creation of the thread.  It is a condition on the steps of the clock: time may not pass a point at
which a thread should have gone on. -/
def Prompt (d : Nat) (s : Process) : Event → Prop
  | .tick ms =>
    -- What the head of the loop takes counts as a part of the sleep.
    (s.thread = .ready → ms = 0) ∧
    (∀ since, s.thread = .asleep since → s.now + ms ≤ since + shutdownWatchdogMs + d) ∧
    (∀ since, s.thread = .exiting since → s.now + ms ≤ since + exitDelayMs + d) ∧
    ∀ setAt, s.main = .arming setAt → s.now + ms ≤ setAt + d
  | _ => True

/-- The longest that a teardown can last. -/
def teardownLimitMs (d : Nat) : Nat := shutdownWatchdogMs + exitDelayMs + 3 * d

/-- **Where the watchdog stands towards the shutdown in progress.**  It went to sleep before the
flag was set, or at most `d` later, and so on down to the exit.  Each field is for one place at
which the thread can be, and bounds the clock there by the time when the flag was set. -/
structure OnTime (d : Nat) (s : Process) : Prop where
  flagged : Flagged s
  arming : ∀ setAt, s.main = .arming setAt → s.now ≤ setAt + d
  ready : s.thread = .ready → ∀ setAt, s.teardown = some setAt → s.now ≤ setAt + d
  asleep : ∀ since, s.thread = .asleep since →
    since ≤ s.now ∧ s.now ≤ since + shutdownWatchdogMs + d ∧
      ∀ setAt, s.teardown = some setAt → since ≤ setAt + d
  exiting : ∀ since, s.thread = .exiting since →
    since ≤ s.now ∧ s.now ≤ since + exitDelayMs + d ∧
      ∀ setAt, s.teardown = some setAt → since ≤ setAt + shutdownWatchdogMs + 2 * d

theorem onTime_initial : OnTime d initial where
  flagged := fun _ => rfl
  arming := fun _ h => by cases h
  ready := fun h => by cases h
  asleep := fun _ h => by cases h
  exiting := fun _ h => by cases h

namespace OnTime
variable {s t : Process}

theorem tick (hs : OnTime d s) {ms : Nat} (hprompt : Prompt d s (.tick ms))
    (hstep : step s (.tick ms) = some t) : OnTime d t := by
  have hflagged := flagged_step hs.flagged hstep
  obtain ⟨hready, hasleep, hexiting, harming⟩ := hprompt
  cases moves_of_step hstep with
  | tick =>
    refine ⟨hflagged, harming, ?_, ?_, ?_⟩
    · intro hthread setAt hteardown
      have hnow := hs.ready hthread setAt hteardown
      rw [hready hthread]
      exact hnow
    · intro since hthread
      obtain ⟨hle, -, hset⟩ := hs.asleep since hthread
      exact ⟨Nat.le_add_right_of_le hle, hasleep since hthread, hset⟩
    · intro since hthread
      obtain ⟨hle, -, hset⟩ := hs.exiting since hthread
      exact ⟨Nat.le_add_right_of_le hle, hexiting since hthread, hset⟩

/-- A shutdown begins: whatever the watchdog does, it has begun to do it before. -/
theorem arm (hs : OnTime d s) (hstep : step s .arm = some t) : OnTime d t := by
  have hflagged := flagged_step hs.flagged hstep
  cases moves_of_step hstep with
  | arm hmain =>
    refine ⟨hflagged, ?_, ?_, ?_, ?_⟩
    · intro setAt hset
      cases hset
      exact Nat.le_add_right _ _
    · intro _ setAt hset
      cases hset
      exact Nat.le_add_right _ _
    · intro since hthread
      obtain ⟨hle, hover, -⟩ := hs.asleep since hthread
      refine ⟨hle, hover, fun setAt hset => ?_⟩
      cases hset
      exact Nat.le_add_right_of_le hle
    · intro since hthread
      obtain ⟨hle, hover, -⟩ := hs.exiting since hthread
      refine ⟨hle, hover, fun setAt hset => ?_⟩
      cases hset
      show since ≤ s.now + shutdownWatchdogMs + 2 * d
      omega

theorem create (hs : OnTime d s) {succeeds : Bool} (hstep : step s (.create succeeds) = some t) :
    OnTime d t := by
  have hflagged := flagged_step hs.flagged hstep
  cases moves_of_step hstep with
  | create succeeds hmain =>
    rename_i began
    have hteardown : s.teardown = some began := by simp [Process.teardown, hmain]
    refine ⟨hflagged, (fun setAt hset => by cases hset), ?_, ?_, ?_⟩
    · -- The thread is new, or it was ready before: `began` is at most `d` ago.
      intro _ setAt hset
      cases hset
      exact hs.arming began hmain
    · intro since hthread
      dsimp only at hthread
      split at hthread
      · cases hthread
      · obtain ⟨hle, hover, hset⟩ := hs.asleep since hthread
        refine ⟨hle, hover, fun setAt hnew => ?_⟩
        cases hnew
        exact hset began hteardown
    · intro since hthread
      dsimp only at hthread
      split at hthread
      · cases hthread
      · obtain ⟨hle, hover, hset⟩ := hs.exiting since hthread
        refine ⟨hle, hover, fun setAt hnew => ?_⟩
        cases hnew
        exact hset began hteardown

/-- A step after which no shutdown is in progress, and which moves the main thread only. -/
theorem ended (hs : OnTime d s) (hflagged : Flagged t) (hnow : t.now = s.now)
    (hthread : t.thread = s.thread) (hnone : t.teardown = none) : OnTime d t := by
  have hset : ∀ {n m : Nat}, t.teardown = some n → m ≤ n := fun h => by rw [hnone] at h; cases h
  refine ⟨hflagged, ?_, ?_, ?_, ?_⟩
  · intro setAt hmain
    have : t.teardown = some setAt := by simp [Process.teardown, hmain]
    rw [hnone] at this
    cases this
  · intro _ setAt hteardown
    rw [hnone] at hteardown
    cases hteardown
  · intro since h
    rw [hthread] at h
    obtain ⟨hle, hover, -⟩ := hs.asleep since h
    rw [hnow]
    exact ⟨hle, hover, fun setAt hteardown => Nat.le_add_right_of_le (hset hteardown)⟩
  · intro since h
    rw [hthread] at h
    obtain ⟨hle, hover, -⟩ := hs.exiting since h
    rw [hnow]
    refine ⟨hle, hover, fun setAt hteardown => ?_⟩
    have hle : since ≤ setAt := hset hteardown
    omega

theorem sleep (hs : OnTime d s) (hstep : step s .sleep = some t) : OnTime d t := by
  have hflagged := flagged_step hs.flagged hstep
  cases moves_of_step hstep with
  | sleep hthread =>
    refine ⟨hflagged, hs.arming, (fun h => by cases h), ?_, (fun _ h => by cases h)⟩
    intro since hasleep
    cases hasleep
    refine ⟨Nat.le_refl _, ?_, hs.ready hthread⟩
    show s.now ≤ s.now + shutdownWatchdogMs + d
    omega

theorem load (hs : OnTime d s) (hmain : s.main ≠ .over) (hstep : step s .load = some t) :
    OnTime d t := by
  have hflagged := flagged_step hs.flagged hstep
  cases moves_of_step hstep with
  | load hthread hslept =>
    obtain ⟨hle, hover, hset⟩ := hs.asleep _ hthread
    refine ⟨hflagged, hs.arming, ?_, ?_, ?_⟩
    · -- The thread goes back to sleep only if there is no shutdown.
      intro hready setAt hteardown
      dsimp only at hready
      split at hready
      · cases hready
      · rename_i hinactive
        have hactive : s.shutdownActive = s.teardown.isSome := hs.flagged hmain
        have hsome : s.teardown = some setAt := hteardown
        simp [hsome, hinactive] at hactive
    · intro since h
      dsimp only at h
      split at h <;> cases h
    · intro since h
      dsimp only at h
      split at h
      · cases h
        refine ⟨Nat.le_refl _, ?_, fun setAt hteardown => ?_⟩
        · show s.now ≤ s.now + exitDelayMs + d
          omega
        · have hbegan := hset setAt hteardown
          omega
      · cases h

/-- **Prompt steps keep the watchdog on time.** -/
theorem step {e : Event} (hs : OnTime d s) (hprompt : Prompt d s e)
    (hstep : Watchdog.step s e = some t) : OnTime d t := by
  have hflagged := flagged_step hs.flagged hstep
  cases e with
  | tick ms => exact hs.tick hprompt hstep
  | arm => exact hs.arm hstep
  | create succeeds => exact hs.create hstep
  | clear =>
    cases moves_of_step hstep with
    | clear => exact hs.ended hflagged rfl rfl rfl
  | leave =>
    cases moves_of_step hstep with
    | leave => exact hs.ended hflagged rfl rfl rfl
  | sleep => exact hs.sleep hstep
  | load =>
    obtain ⟨hmain, -⟩ := Option.ite_none_left_eq_some.mp hstep
    exact hs.load hmain hstep
  | forceExit =>
    cases moves_of_step hstep with
    | forceExit => exact hs.ended hflagged rfl rfl rfl

/-- No shutdown with a watchdog is older than the limit. -/
theorem bound (hs : OnTime d s) {setAt : Nat} (hmain : s.main = .tearing setAt)
    (hthread : s.thread ≠ .absent) : s.now ≤ setAt + teardownLimitMs d := by
  have hteardown : s.teardown = some setAt := by simp [Process.teardown, hmain]
  unfold teardownLimitMs
  cases hwatchdog : s.thread with
  | absent => exact absurd hwatchdog hthread
  | ready =>
    have hnow := hs.ready hwatchdog setAt hteardown
    omega
  | asleep since =>
    obtain ⟨-, hover, hset⟩ := hs.asleep since hwatchdog
    have hbegan := hset setAt hteardown
    omega
  | exiting since =>
    obtain ⟨-, hover, hset⟩ := hs.exiting since hwatchdog
    have hbegan := hset setAt hteardown
    omega

end OnTime

/-! ## Time goes on -/

/-- From `s` the clock can be made to advance, by prompt steps, unless the process ends. -/
def Advances (d : Nat) (s : Process) : Prop :=
  ∃ es t, exec step s es = some t ∧ Meets step (Prompt d) s es ∧ (t.main = .over ∨ s.now < t.now)

/-- A step that takes no time may come first. -/
theorem Advances.of_step {s t : Process} {e : Event} (h : Advances d t)
    (hstep : step s e = some t) (hprompt : Prompt d s e) (hnow : t.now = s.now) :
    Advances d s := by
  obtain ⟨es, u, hrun, hmeets, hend⟩ := h
  refine ⟨e :: es, u, exec_cons.mpr ⟨t, hstep, hrun⟩, ⟨hprompt, by simpa [hstep] using hmeets⟩, ?_⟩
  rw [← hnow]
  exact hend

theorem advances_of_over {s : Process} (h : s.main = .over) : Advances d s :=
  ⟨[], s, rfl, trivial, .inl h⟩

theorem advances_of_prompt {s : Process} (h : Prompt d s (.tick 1)) : Advances d s := by
  by_cases hmain : s.main = .over
  · exact advances_of_over hmain
  · have hstep : step s (.tick 1) = some { s with now := s.now + 1 } := by simp [step, hmain]
    exact ⟨[.tick 1], _, exec_cons.mpr ⟨_, hstep, rfl⟩, ⟨h, by simp [hstep, Meets]⟩,
      .inr (Nat.lt_succ_self _)⟩

/-- A shutdown that is past its test lets the clock go on, whatever the watchdog does. -/
theorem advances_of_not_arming {s : Process} (hmain : ∀ setAt, s.main ≠ .arming setAt) :
    Advances d s := by
  by_cases hover : s.main = .over
  · exact advances_of_over hover
  have harming : ∀ setAt, s.main = .arming setAt → s.now + 1 ≤ setAt + d :=
    fun setAt h => absurd h (hmain setAt)
  -- A thread that goes to sleep now does not wake up in the next millisecond.
  have hready : ∀ r : Process, r.main = s.main → r.thread = .ready → Advances d r := by
    intro r hr hthread
    have hstep : step r .sleep = some { r with thread := .asleep r.now } := by
      simp [step, hr, hover, hthread]
    refine Advances.of_step (advances_of_prompt ⟨?_, ?_, ?_, ?_⟩) hstep trivial rfl
    · intro h
      cases h
    · intro since h
      cases h
      show r.now + 1 ≤ r.now + 45000 + d
      omega
    · intro since h
      cases h
    · intro setAt h
      exact absurd (hr.symm.trans h) (hmain setAt)
  cases hthread : s.thread with
  | absent =>
    exact advances_of_prompt ⟨by simp [hthread], by simp [hthread], by simp [hthread], harming⟩
  | ready => exact hready s rfl hthread
  | asleep since =>
    by_cases hslept : since + shutdownWatchdogMs ≤ s.now
    · have hstep : step s .load =
          some { s with thread := if s.shutdownActive then .exiting s.now else .ready } := by
        simp [step, hover, hthread, hslept]
      refine Advances.of_step ?_ hstep trivial rfl
      cases hactive : s.shutdownActive with
      | false => exact hready _ rfl rfl
      | true =>
        refine advances_of_prompt ⟨(fun h => by cases h), (fun _ h => by cases h), ?_, harming⟩
        intro since h
        cases h
        show s.now + 1 ≤ s.now + 100 + d
        omega
    · refine advances_of_prompt ⟨by simp [hthread], ?_, by simp [hthread], harming⟩
      intro _ h
      cases hthread.symm.trans h
      omega
  | exiting since =>
    by_cases hwaited : since + exitDelayMs ≤ s.now
    · have hstep : step s .forceExit = some { s with main := .over } := by
        simp [step, hover, hthread, hwaited]
      exact (advances_of_over rfl).of_step hstep trivial rfl
    · refine advances_of_prompt ⟨by simp [hthread], by simp [hthread], ?_, harming⟩
      intro _ h
      cases hthread.symm.trans h
      omega

/-- **Promptness does not stop the clock.** -/
theorem advances (s : Process) : Advances d s := by
  cases hmain : s.main with
  | arming setAt =>
    have hstep : step s (.create false) = some { s with main := .tearing setAt } := by
      simp [step, hmain]
    refine Advances.of_step (advances_of_not_arming ?_) hstep trivial rfl
    intro _ h
    cases h
  | _ => exact advances_of_not_arming (by simp [hmain])

/-! ## The bound -/

/-- **A teardown that hangs does not outlive its limit.**  In every run in which the watchdog
is scheduled in time, a shutdown that has a watchdog thread is never older than
`SHUTDOWN_WATCHDOG_MS` and the last delay, with three times the delay of the scheduler; and
the clock goes on from every state, until the process is over. -/
theorem teardown_bounded {es : List Event} {s : Process} (hrun : exec step initial es = some s)
    (hprompt : Meets step (Prompt d) initial es) :
    (∀ setAt, s.main = .tearing setAt → s.thread ≠ .absent →
      s.now ≤ setAt + teardownLimitMs d) ∧ Advances d s := by
  have hs : OnTime d s :=
    exec_invariant_of_meets (fun hs hok h => hs.step hok h) onTime_initial hprompt hrun
  exact ⟨fun setAt hmain hthread => hs.bound hmain hthread, advances s⟩

/-- A shutdown that hangs from the start: the moment before the exit. -/
def hungShutdown : List Event :=
  [.tick 700, .arm, .create true, .sleep, .tick 45000, .load, .tick 100]

/-- The bound is reached. -/
theorem teardown_bounded_hungShutdown :
    ∃ s, exec step initial hungShutdown = some s ∧ s.main = .tearing 700 ∧
      s.now = 700 + teardownLimitMs 0 ∧ Advances 0 s := by
  have hrun : exec step initial hungShutdown =
      some ⟨45800, true, .tearing 700, .exiting 45700⟩ := by
    decide
  refine ⟨_, hrun, rfl, by decide, (teardown_bounded hrun ?_).2⟩
  simp [hungShutdown, Meets, Prompt, step, initial, shutdownWatchdogMs, exitDelayMs]

end Offs.Watchdog
