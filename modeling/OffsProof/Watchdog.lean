import OffsProof.LabelledRun

/-! # The shutdown watchdog

Every `_shutdown` sets `g_shutdown_active` at its start and clears it at its end.  The
first one also starts `_shutdown_watchdog_thread`, which lives as long as the process: it
sleeps for `SHUTDOWN_WATCHDOG_MS`, looks at the flag, and either goes back to sleep or
exits the process after 100 ms more.

A state has a clock in milliseconds, and a run is any interleaving of the main thread, the
watchdog thread and the clock.  A sleep takes at least its time; how much longer it takes,
and how long the threads need for everything else, is up to the run.  What is done on
Windows in place of the 100 ms (a minidump, then `TerminateProcess`) is left out.

The thread does not know to which shutdown the flag belongs.  A reload that began while it
was asleep, and is still going on when it wakes up, is taken for one that began before:
the process is killed however short the teardown has been (`reload_killed_early`).  Nor does
it look at the flag again before it exits: a teardown that comes to its end in the last
100 ms is followed by the forced exit all the same, of a process that serves again
(`early_of_clear`).

A forced exit is in order if there is a teardown in progress and it has had its time
(`GivenItsTime`).  `Timely` rules out the two ways in which it can come to another one: a
shutdown that began in the sleep, and one that ends while the thread is about to exit.  In
a run without them every forced exit is in order (`never_kills_early`).
-/
namespace Offs.Watchdog
open LabelledRun

/-- `SHUTDOWN_WATCHDOG_MS` -/
def shutdownWatchdogMs : Nat := 45000

/-- The sleep before `_exit(1)`. -/
def exitDelayMs : Nat := 100

/-! ## The two threads -/

/-- The main thread.  A shutdown remembers when it set the flag; no step looks at it. -/
inductive Main
  /-- Outside `_shutdown`: starting, serving, or between two cycles. -/
  | running
  /-- In `_shutdown`, up to the test of `g_shutdown_watchdog_thread`. -/
  | arming (setAt : Nat)
  /-- In `_shutdown`, up to the store that clears the flag. -/
  | tearing (setAt : Nat)
  /-- The process has ended. -/
  | over
  deriving DecidableEq, Repr

inductive Thread
  /-- `g_shutdown_watchdog_thread == NULL` -/
  | absent
  /-- At the head of its loop. -/
  | ready
  | asleep (since : Nat)
  /-- It has seen the flag and is about to exit. -/
  | exiting (since : Nat)
  deriving DecidableEq, Repr

structure Process where
  now : Nat
  /-- `g_shutdown_active` -/
  shutdownActive : Bool
  main : Main
  thread : Thread
  deriving DecidableEq, Repr

inductive Event
  | tick (ms : Nat)
  /-- `_shutdown` begins: `ATOMIC_STORE(&g_shutdown_active, 1)`. -/
  | arm
  /-- The watchdog thread is created if there is none, which may fail. -/
  | create (succeeds : Bool)
  /-- `_shutdown` ends: `ATOMIC_STORE(&g_shutdown_active, 0)`. -/
  | clear
  /-- `main` returns, or `_startup` has failed. -/
  | leave
  /-- The watchdog goes to sleep. -/
  | sleep
  /-- The watchdog has slept and loads the flag. -/
  | load
  /-- `_exit(1)` -/
  | forceExit
  deriving DecidableEq, Repr

def initial : Process := ⟨0, false, .running, .absent⟩

/-- One move of any party. -/
def step (s : Process) : Event → Option Process
  | .tick ms => if s.main = .over then none else some { s with now := s.now + ms }
  | .arm =>
    match s.main with
    | .running => some { s with shutdownActive := true, main := .arming s.now }
    | _ => none
  | .create succeeds =>
    match s.main with
    | .arming setAt =>
      let thread := if s.thread = .absent ∧ succeeds then .ready else s.thread
      some { s with main := .tearing setAt, thread := thread }
    | _ => none
  | .clear =>
    match s.main with
    | .tearing _ => some { s with shutdownActive := false, main := .running }
    | _ => none
  | .leave => if s.main = .running then some { s with main := .over } else none
  | .sleep =>
    if s.main = .over then none
    else if s.thread = .ready then some { s with thread := .asleep s.now }
    else none
  | .load =>
    if s.main = .over then none
    else
      match s.thread with
      | .asleep since =>
        if since + shutdownWatchdogMs ≤ s.now then
          some { s with thread := if s.shutdownActive then .exiting s.now else .ready }
        else none
      | _ => none
  | .forceExit =>
    if s.main = .over then none
    else
      match s.thread with
      | .exiting since =>
        if since + exitDelayMs ≤ s.now then some { s with main := .over } else none
      | _ => none

/-- When the teardown in progress has set the flag. -/
def Process.teardown (s : Process) : Option Nat :=
  match s.main with
  | .arming setAt | .tearing setAt => some setAt
  | _ => none

/-! ## Exits that are in order -/

/-- A teardown is in progress, and it has set the flag `SHUTDOWN_WATCHDOG_MS` ago or earlier: a
forced exit in this state is not early. -/
def GivenItsTime (s : Process) : Prop :=
  ∃ setAt, s.teardown = some setAt ∧ setAt + shutdownWatchdogMs ≤ s.now

/-- **The watchdog never kills a teardown early** in the run along `es`, nor a process that is not
in a teardown: whenever it exits the process, there is a teardown, and it has had its time. -/
def NeverEarly (es : List Event) : Prop :=
  ∀ before after s, es = before ++ .forceExit :: after →
    exec step initial before = some s → GivenItsTime s

/-- The moves, one by one. -/
inductive Moves (s : Process) : Event → Process → Prop
  | tick (ms : Nat) : Moves s (.tick ms) { s with now := s.now + ms }
  | arm (hmain : s.main = .running) :
    Moves s .arm { s with shutdownActive := true, main := .arming s.now }
  | create {setAt : Nat} (succeeds : Bool) (hmain : s.main = .arming setAt) :
    Moves s (.create succeeds)
      { s with
        main := .tearing setAt
        thread := if s.thread = .absent ∧ succeeds then .ready else s.thread }
  | clear {setAt : Nat} (hmain : s.main = .tearing setAt) :
    Moves s .clear { s with shutdownActive := false, main := .running }
  | leave (hmain : s.main = .running) : Moves s .leave { s with main := .over }
  | sleep (hthread : s.thread = .ready) : Moves s .sleep { s with thread := .asleep s.now }
  | load {since : Nat} (hthread : s.thread = .asleep since)
      (hslept : since + shutdownWatchdogMs ≤ s.now) :
    Moves s .load { s with thread := if s.shutdownActive then .exiting s.now else .ready }
  | forceExit {since : Nat} (hthread : s.thread = .exiting since)
      (hwaited : since + exitDelayMs ≤ s.now) : Moves s .forceExit { s with main := .over }

theorem moves_of_step {s t : Process} {e : Event} (hstep : step s e = some t) : Moves s e t := by
  cases e with
  | tick ms =>
    obtain ⟨-, heq⟩ := Option.ite_none_left_eq_some.mp hstep
    cases heq
    exact .tick ms
  | arm =>
    simp only [step] at hstep
    split at hstep <;> cases hstep
    exact .arm (by assumption)
  | create succeeds =>
    simp only [step] at hstep
    split at hstep <;> cases hstep
    exact .create succeeds (by assumption)
  | clear =>
    simp only [step] at hstep
    split at hstep <;> cases hstep
    exact .clear (by assumption)
  | leave =>
    obtain ⟨hmain, heq⟩ := Option.ite_none_right_eq_some.mp hstep
    cases heq
    exact .leave hmain
  | sleep =>
    obtain ⟨-, hstep⟩ := Option.ite_none_left_eq_some.mp hstep
    obtain ⟨hthread, heq⟩ := Option.ite_none_right_eq_some.mp hstep
    cases heq
    exact .sleep hthread
  | load =>
    obtain ⟨-, hstep⟩ := Option.ite_none_left_eq_some.mp hstep
    split at hstep
    · rename_i hthread
      obtain ⟨hslept, heq⟩ := Option.ite_none_right_eq_some.mp hstep
      cases heq
      exact .load hthread hslept
    · cases hstep
  | forceExit =>
    obtain ⟨-, hstep⟩ := Option.ite_none_left_eq_some.mp hstep
    split at hstep
    · rename_i hthread
      obtain ⟨hwaited, heq⟩ := Option.ite_none_right_eq_some.mp hstep
      cases heq
      exact .forceExit hthread hwaited
    · cases hstep

/-- The flag is set exactly while a shutdown is in progress. -/
def Flagged (s : Process) : Prop :=
  s.main ≠ .over → s.shutdownActive = s.teardown.isSome

theorem flagged_step {s t : Process} {e : Event} (hs : Flagged s) (hstep : step s e = some t) :
    Flagged t := by
  cases moves_of_step hstep with
  | tick | sleep | load => exact hs
  | arm | clear => exact fun _ => rfl
  | create succeeds hmain =>
    intro _
    have hactive := hs (by simp [hmain])
    simpa [Process.teardown, hmain] using hactive
  | leave | forceExit => exact fun hover => absurd rfl hover

theorem flagged {es : List Event} {s : Process} (hrun : exec step initial es = some s) :
    Flagged s :=
  exec_invariant (fun hs => flagged_step hs) (fun _ => rfl) hrun

/-- **The condition is sharp.**  If a watchdog that wakes up in time finds a shutdown that
began in its sleep, more than the last delay after the sleep did, then the run in which the
shutdown is not over by the time of the exit can go on to it, and that is an early one. -/
theorem early_of_untimely {es : List Event} {s : Process} {setAt since : Nat}
    (hrun : exec step initial es = some s) (hteardown : s.teardown = some setAt)
    (hthread : s.thread = .asleep since) (hprompt : s.now = since + shutdownWatchdogMs)
    (hlate : since + exitDelayMs < setAt) :
    (exec step initial (es ++ [.load, .tick exitDelayMs, .forceExit])).isSome ∧
      ¬NeverEarly (es ++ [.load, .tick exitDelayMs, .forceExit]) := by
  have hmain : s.main ≠ .over := by
    intro hover
    simp [Process.teardown, hover] at hteardown
  have hactive : s.shutdownActive = true := by
    rw [flagged hrun hmain, hteardown]
    rfl
  have hexiting : exec step s [.load, .tick exitDelayMs] =
      some { s with thread := .exiting s.now, now := s.now + exitDelayMs } := by
    simp [exec, step, hmain, hthread, hprompt, hactive]
  refine ⟨?_, fun hnever => ?_⟩
  · rw [exec_append hrun]
    simp [exec, step, hmain, hthread, hprompt, hactive]
  have htime := hnever (es ++ [.load, .tick exitDelayMs]) [] _ (by simp)
    ((exec_append hrun).trans hexiting)
  obtain ⟨setAt', hteardown', hset⟩ := htime
  obtain rfl : setAt' = setAt := Option.some.inj (hteardown'.symm.trans hteardown)
  have hset : setAt' + shutdownWatchdogMs ≤ s.now + exitDelayMs := hset
  omega

/-- The other half: if a shutdown ends while the thread is about to exit, then the run in which
the process goes on to serve is ended by force, with no teardown in progress. -/
theorem early_of_clear {es : List Event} {s : Process} {setAt since : Nat}
    (hrun : exec step initial es = some s) (hmain : s.main = .tearing setAt)
    (hthread : s.thread = .exiting since) (hprompt : since ≤ s.now) :
    (exec step initial (es ++ [.clear, .tick exitDelayMs, .forceExit])).isSome ∧
      ¬NeverEarly (es ++ [.clear, .tick exitDelayMs, .forceExit]) := by
  have hserving : exec step s [.clear, .tick exitDelayMs] =
      some { s with shutdownActive := false, main := .running, now := s.now + exitDelayMs } := by
    simp [exec, step, hmain]
  refine ⟨?_, fun hnever => ?_⟩
  · rw [exec_append hrun]
    simp [exec, step, hmain, hthread, hprompt]
  obtain ⟨setAt', hteardown, -⟩ := hnever (es ++ [.clear, .tick exitDelayMs]) [] _ (by simp)
    ((exec_append hrun).trans hserving)
  cases hteardown

end Offs.Watchdog
