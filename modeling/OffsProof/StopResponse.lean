import OffsProof.RestartLoop

/-! # How long a stop takes

`_run_offsd` is told to stop in two ways, and they differ in what is left of a stop once it has
been made.  `_signal_handler` stores `0` into `server.node.running`, which the next `_startup`
stores `1` into.  The control thread of the Windows service sets a flag that nothing clears.

A service stop is therefore never lost.  The polling loop is left at the first look, in this
cycle and in every later one, and a cycle is added only by a reload request (`scm_stop_ends`).
What is left to do is counted in steps of the main thread (`stepsLeft`): each of its steps is a
step on the way out, and nobody else adds one but for a reload, which adds a cycle.

A signal is heeded exactly if it finds the node armed, or the cycle closing, with no reload
requested (`stop_signal_heeded_iff`): one that comes before `_startup` has stored `1`, or together
with a reload, is forgotten for good.  Each of the two verdicts is an invariant.  After a signal
that is heeded the process is on its way out whatever the others do (`Leaving`); after one that
is not, nothing is left that would end it (`Forgotten`), and both are kept by every step that the
theorem allows.
-/
namespace Offs.RestartLoop
open LabelledRun

variable {σ : Type}

def isRequest : Label σ → Bool
  | .request => true
  | _ => false

namespace Point

/-- How many steps of the main thread lead out of the process, when the polling loop is left
at the first look and no reload is requested. -/
def untilExit : Point → Nat
  | .clearRestart => 13
  | .loadPending => 12
  | .reloadPending => 12
  | .writePidFile => 11
  | .startup => 10
  | .poolStart => 9
  | .storeRunning => 8
  | .transports => 7
  | .installHandlers => 6
  | .startListening => 5
  | .poll => 4
  | .poolStop => 3
  | .destroy => 2
  | .testRestart => 1
  | .exited _ => 0

end Point

/-- The main thread is never stuck. -/
theorem exited_or_main_enabled (w : Platform σ) (s : Loop σ) :
    Exited s ∨ (step w s .main).isSome := by
  by_cases hexited : Exited s
  · exact .inl hexited
  · refine .inr ?_
    show (mainStep w s).isSome
    cases hp : s.point with
    | exited code => exact absurd ⟨code, hp⟩ hexited
    | poll | testRestart =>
      simp only [mainStep, hp]
      split <;> rfl
    | _ => simp [mainStep, hp]

/-! ## The service manager's stop -/

/-- What is left to do: the steps of this cycle, and those of one more if a reload has been
requested and the loop has not gone round for it yet. -/
def stepsLeft (s : Loop σ) : Nat :=
  s.point.untilExit + if s.restartRequested ∧ s.point ≠ .clearRestart then 13 else 0

theorem stepsLeft_le (s : Loop σ) : stepsLeft s ≤ 25 := by
  unfold stepsLeft
  cases s.point <;> simp [Point.untilExit] <;> split <;> omega

/-- After a service stop each step of the main thread is a step on the way out. -/
theorem stepsLeft_mainStep {w : Platform σ} {s t : Loop σ} (hstop : s.stopRequested = true)
    (h : mainStep w s = some t) : t.stopRequested = true ∧ stepsLeft t + 1 ≤ stepsLeft s := by
  cases hp : s.point with
  | poll =>
    -- The loop is left whatever `running` says.
    simp only [mainStep, hp] at h
    rw [if_neg (by simp [hstop])] at h
    cases h
    refine ⟨hstop, ?_⟩
    simp only [stepsLeft, hp, Point.untilExit, ne_eq, reduceCtorEq, not_false_eq_true, and_true]
    omega
  | testRestart =>
    simp only [mainStep, hp] at h
    split at h <;> cases h
    · rename_i hflag
      exact ⟨hstop, by simp [stepsLeft, hp, hflag, Point.untilExit]⟩
    · rename_i hflag
      exact ⟨hstop, by simp [stepsLeft, hp, hflag, Point.untilExit]⟩
  | exited code => simp [mainStep, hp] at h
  | clearRestart =>
    simp only [mainStep, hp, Option.some.injEq] at h
    subst h
    exact ⟨hstop, by simp [stepsLeft, hp, Point.untilExit]⟩
  | loadPending | reloadPending | writePidFile | startup | poolStart | storeRunning | transports
  | installHandlers | startListening | poolStop | destroy =>
    simp only [mainStep, hp, Option.some.injEq] at h
    subst h
    refine ⟨hstop, ?_⟩
    simp only [stepsLeft, hp, loadPendingOverride, Point.untilExit, ne_eq, reduceCtorEq,
      not_false_eq_true, and_true]
    omega

theorem stepsLeft_mainFailure {s t : Loop σ} (h : mainFailure s = some t) :
    t.stopRequested = s.stopRequested ∧ t.restartRequested = s.restartRequested ∧
      t.point = .exited 1 ∧ s.point ≠ .clearRestart := by
  cases hp : s.point <;> simp only [mainFailure, hp, Option.some.injEq, reduceCtorEq] at h <;>
    subst h <;> simp

/-- The other parties add nothing, but for a reload request, which adds a cycle. -/
theorem stepsLeft_step {w : Platform σ} {s t : Loop σ} {l : Label σ}
    (hstop : s.stopRequested = true) (h : step w s l = some t) :
    t.stopRequested = true ∧
      stepsLeft t + (if isMain l then 1 else 0) ≤ stepsLeft s + if isRequest l then 13 else 0 := by
  cases l with
  | main => exact stepsLeft_mainStep hstop h
  | mainFails =>
    obtain ⟨hstop', hflag, hpoint, hclear⟩ := stepsLeft_mainFailure h
    refine ⟨hstop'.trans hstop, ?_⟩
    simp [stepsLeft, hflag, hpoint, hclear, isMain, isRequest, Point.untilExit]
  | signal sig =>
    obtain ⟨-, heq⟩ := Option.ite_none_right_eq_some.mp h
    cases heq
    refine ⟨?_, by simp [stepsLeft, isMain, isRequest]⟩
    rcases signalHandler_cases sig s with hsame | hsame <;> rw [hsame] <;> exact hstop
  | scmStop =>
    obtain ⟨-, heq⟩ := Option.ite_none_right_eq_some.mp h
    cases heq
    exact ⟨rfl, Nat.le_refl (stepsLeft s)⟩
  | request =>
    obtain ⟨-, rfl⟩ := step_request h
    refine ⟨hstop, ?_⟩
    have hpoint : stepsLeft (requestRestart s) ≤ s.point.untilExit + 13 := by
      simp only [stepsLeft, requestRestart]
      split <;> omega
    have hleft : s.point.untilExit ≤ stepsLeft s := Nat.le_add_right _ _
    simp [isMain, isRequest]
    omega
  | stage content =>
    cases h
    exact ⟨hstop, by simp [stepsLeft, isMain, isRequest]⟩

/-- The main thread alone ends the process, with status 0, once no step of it fails. -/
def EndsWell (s : Loop σ) : Prop := ∀ code, s.point = .exited code → code = 0

theorem endsWell_step {w : Platform σ} {s t : Loop σ} {l : Label σ} (hs : EndsWell s)
    (hl : l ≠ .mainFails) (h : step w s l = some t) : EndsWell t := by
  cases l with
  | main =>
    have hmain : mainStep w s = some t := h
    intro code hcode
    cases hp : s.point with
    | exited code => simp [mainStep, hp] at hmain
    | testRestart | poll =>
      simp only [mainStep, hp] at hmain
      split at hmain <;> cases hmain <;> simp_all
    | _ =>
      simp only [mainStep, hp, Option.some.injEq] at hmain
      subst hmain
      simp at hcode
  | mainFails => exact absurd rfl hl
  | signal sig =>
    obtain ⟨-, heq⟩ := Option.ite_none_right_eq_some.mp h
    cases heq
    simpa [EndsWell] using hs
  | scmStop =>
    obtain ⟨-, heq⟩ := Option.ite_none_right_eq_some.mp h
    cases heq
    exact hs
  | request =>
    obtain ⟨-, rfl⟩ := step_request h
    exact hs
  | stage content =>
    cases h
    exact hs

/-- **A service stop is never lost.**  Whenever the SCM tells the service to stop, and
whatever signals, failures, staging writes and reload requests follow in whatever order, the
main thread takes at most 25 more steps and 13 more for each reload that is requested after
the stop; it is never stuck before it has exited, and it exits with status 0 if no step of
it has failed. -/
theorem scm_stop_ends {w : Platform σ} {s t u : Loop σ} {post : List (Label σ)}
    (hscm : step w s .scmStop = some t) (hpost : exec (step w) t post = some u) :
    post.countP isMain ≤ 25 + 13 * post.countP isRequest ∧
      (Exited u ∨ (step w u .main).isSome) ∧ (.mainFails ∉ post → EndsWell u) := by
  obtain ⟨hrunning, heq⟩ := Option.ite_none_right_eq_some.mp hscm
  have hstop : t.stopRequested = true := by
    cases heq
    rfl
  have hbudget : u.stopRequested = true ∧
      stepsLeft u + post.countP isMain ≤ stepsLeft t + 13 * post.countP isRequest :=
    exec_budget (fun hs (_ : True) h => stepsLeft_step hs h) hstop (fun _ _ => trivial) hpost
  have hleft := stepsLeft_le t
  refine ⟨by omega, exited_or_main_enabled w u, fun hfails => ?_⟩
  have hends : EndsWell t := by
    intro code hcode
    cases heq
    exact absurd ⟨code, hcode⟩ hrunning
  have hsound : ∀ l ∈ post, l ≠ .mainFails := fun l hl heq => hfails (heq ▸ hl)
  exact exec_invariant_of_meets (fun hs hl h => endsWell_step hs hl h) hends
    (meets_of_labels hsound t) hpost

/-- The second cycle begins: `_startup` has zeroed the node, and the handlers of the first
cycle are still installed. -/
def secondStartup : Loop Unit :=
  { initial () with
    point := .poolStart, nodeSet := true, startups := 2, loads := [(), ()], requests := 1
    requestsAtLoad := 1 }

/-- What follows: one more reload is requested, and a SIGHUP is taken for an update. -/
def reloadedOnce : List (Label Unit) :=
  List.replicate 4 .main ++ [.request, .signal .sighup] ++ List.replicate 18 .main

/-- The theorem on a stop that comes in the second `_startup`. -/
theorem scm_stop_ends_secondStartup :
    exec (step ⟨id, true⟩) (initial ())
        (List.replicate 8 .main ++ .request :: List.replicate 8 .main) = some secondStartup ∧
      ∃ t u, step ⟨id, true⟩ secondStartup .scmStop = some t ∧
        exec (step ⟨id, true⟩) t reloadedOnce = some u ∧ Exited u ∧ EndsWell u := by
  have hend : (exec (step ⟨id, true⟩) (serviceStopHandler secondStartup) reloadedOnce).map
      Loop.point = some (.exited 0) := rfl
  obtain ⟨u, hpost, hpoint⟩ := Option.map_eq_some_iff.mp hend
  have hscm : step ⟨id, true⟩ secondStartup .scmStop = some (serviceStopHandler secondStartup) :=
    rfl
  exact ⟨rfl, _, u, hscm, hpost, ⟨0, hpoint⟩, (scm_stop_ends hscm hpost).2.2 (by decide)⟩

/-! ## A signal -/

/-- `_startup` has stored `1` into `running` and the main thread is on its way out of this
cycle, or would be if it were told to. -/
def Point.stoppable : Point → Bool
  | .transports | .installHandlers | .startListening | .poll | .poolStop | .destroy
  | .testRestart => true
  | _ => false

/-- **A signal that comes now is heeded.**  The node is armed or the cycle is closing, and no
reload is requested that would lead into another cycle. -/
def Heeded (s : Loop σ) : Prop := s.point.stoppable = true ∧ s.restartRequested = false

/-- A signal has been heeded: the process is on its way out, or gone.  While the node is armed its
flag has been cleared, so that the polling loop ends at the next look. -/
structure Leaving (s : Loop σ) : Prop where
  unrequested : s.restartRequested = false
  cleared : s.point.armed = true → s.running = false
  point : s.point.stoppable = true ∨ Exited s

theorem leaving_mainStep {w : Platform σ} {s t : Loop σ} (hs : Leaving s)
    (h : mainStep w s = some t) : Leaving t ∧ t.point.untilExit + 1 ≤ s.point.untilExit := by
  obtain ⟨hreq, hclear, hpoint⟩ := hs
  cases hp : s.point with
  | exited code => simp [mainStep, hp] at h
  | poll =>
    have hrunning := hclear (by simp [hp, Point.armed])
    simp only [mainStep, hp] at h
    rw [if_neg (by simp [hrunning])] at h
    cases h
    exact ⟨⟨hreq, by simp [Point.armed], .inl rfl⟩, by simp [Point.untilExit]⟩
  | testRestart =>
    simp only [mainStep, hp] at h
    rw [if_neg (by simp [hreq])] at h
    cases h
    exact ⟨⟨hreq, by simp [Point.armed], .inr ⟨0, rfl⟩⟩, by simp [Point.untilExit]⟩
  | transports | installHandlers | startListening =>
    have hrunning := hclear (by simp [hp, Point.armed])
    simp only [mainStep, hp, Option.some.injEq] at h
    subst h
    exact ⟨⟨hreq, fun _ => hrunning, .inl rfl⟩, by simp [Point.untilExit]⟩
  | poolStop | destroy =>
    simp only [mainStep, hp, Option.some.injEq] at h
    subst h
    exact ⟨⟨hreq, by simp [Point.armed], .inl rfl⟩, by simp [Point.untilExit]⟩
  | loadPending | writePidFile | startup | poolStart | storeRunning | clearRestart
  | reloadPending =>
    simp [hp, Point.stoppable, Exited] at hpoint

theorem leaving_step {w : Platform σ} {s t : Loop σ} {l : Label σ} (hs : Leaving s)
    (hl : l ≠ .request) (h : step w s l = some t) :
    Leaving t ∧ t.point.untilExit + (if isMain l then 1 else 0) ≤
      s.point.untilExit + if isRequest l then 0 else 0 := by
  cases l with
  | main =>
    obtain ⟨ht, hnearer⟩ := leaving_mainStep hs h
    exact ⟨ht, by simpa [isMain] using hnearer⟩
  | mainFails =>
    obtain ⟨-, hflag, hpoint, -⟩ := stepsLeft_mainFailure h
    refine ⟨⟨hflag.trans hs.unrequested, by simp [hpoint, Point.armed], .inr ⟨1, hpoint⟩⟩, ?_⟩
    simp [hpoint, isMain, Point.untilExit]
  | signal sig =>
    obtain ⟨-, heq⟩ := Option.ite_none_right_eq_some.mp h
    cases heq
    refine ⟨⟨by simpa using hs.unrequested, ?_, by simpa [Exited] using hs.point⟩,
      by simp [isMain]⟩
    intro harmed
    rcases signalHandler_cases sig s with hsame | hsame <;> simp only [hsame] at harmed ⊢
    exact hs.cleared harmed
  | scmStop =>
    obtain ⟨-, heq⟩ := Option.ite_none_right_eq_some.mp h
    cases heq
    refine ⟨⟨hs.unrequested, ?_, hs.point⟩, by simp [isMain, serviceStopHandler]⟩
    intro harmed
    have hrunning : s.running = false := hs.cleared harmed
    simp [serviceStopHandler, hrunning]
  | request => exact absurd rfl hl
  | stage content =>
    cases h
    exact ⟨⟨hs.unrequested, hs.cleared, hs.point⟩, by simp [isMain]⟩

/-- **A signal has been forgotten**: nothing is left that would end the process.  An armed node is
still running, or a reload is requested; and a cycle that is closing goes round for one. -/
structure Forgotten (s : Loop σ) : Prop where
  alive : ¬ Exited s
  unstopped : s.stopRequested = false
  armed : s.point.armed = true → s.running = true ∨ s.restartRequested = true
  closing : s.point.closing = true → s.point ≠ .clearRestart → s.restartRequested = true

theorem forgotten_mainStep {w : Platform σ} {s t : Loop σ} (hs : Forgotten s)
    (h : mainStep w s = some t) : Forgotten t := by
  obtain ⟨halive, hunstopped, harmed, hclosing⟩ := hs
  cases hp : s.point with
  | exited code => exact absurd ⟨code, hp⟩ halive
  | poll =>
    simp only [mainStep, hp] at h
    split at h <;> cases h
    · exact ⟨halive, hunstopped, harmed, hclosing⟩
    · -- The loop is left for a reload, since `running` is set.
      rename_i hleave
      have hflag : s.restartRequested = true := by
        rcases harmed (by simp [hp, Point.armed]) with hrunning | hflag
        · simpa [hrunning, hunstopped] using hleave
        · exact hflag
      exact ⟨by simp [Exited], hunstopped, by simp [Point.armed], fun _ _ => hflag⟩
  | testRestart =>
    have hflag := hclosing (by simp [hp, Point.closing]) (by simp [hp])
    simp only [mainStep, hp] at h
    rw [if_pos hflag] at h
    cases h
    exact ⟨by simp [Exited], hunstopped, by simp [Point.armed], fun _ hne => absurd rfl hne⟩
  | storeRunning =>
    simp only [mainStep, hp, Option.some.injEq] at h
    subst h
    exact ⟨by simp [Exited], hunstopped, fun _ => .inl rfl, by simp [Point.closing]⟩
  | transports | installHandlers | startListening =>
    have hkept := harmed (by simp [hp, Point.armed])
    simp only [mainStep, hp, Option.some.injEq] at h
    subst h
    exact ⟨by simp [Exited], hunstopped, fun _ => hkept, by simp [Point.closing]⟩
  | poolStop | destroy =>
    have hflag := hclosing (by simp [hp, Point.closing]) (by simp [hp])
    simp only [mainStep, hp, Option.some.injEq] at h
    subst h
    exact ⟨by simp [Exited], hunstopped, by simp [Point.armed], fun _ _ => hflag⟩
  | loadPending | writePidFile | startup | poolStart | clearRestart | reloadPending =>
    simp only [mainStep, hp, Option.some.injEq] at h
    subst h
    exact ⟨by simp [Exited], hunstopped, by simp [Point.armed], by simp [Point.closing]⟩

theorem forgotten_step {w : Platform σ} {s t : Loop σ} {l : Label σ} (hs : Forgotten s)
    (hl : Quiet l) (h : step w s l = some t) : Forgotten t := by
  cases l with
  | main => exact forgotten_mainStep hs h
  | request =>
    obtain ⟨-, rfl⟩ := step_request h
    exact ⟨hs.alive, hs.unstopped, fun _ => .inr rfl, fun _ _ => rfl⟩
  | stage content =>
    cases h
    exact ⟨hs.alive, hs.unstopped, hs.armed, hs.closing⟩
  | mainFails | signal _ | scmStop => exact hl.elim

theorem forgotten_of_not_heeded {s : Loop σ} (halive : ¬ Exited s)
    (hunstopped : s.stopRequested = false) (h : ¬ Heeded s) :
    Forgotten { s with running := false, stopHandled := true } := by
  by_cases hflag : s.restartRequested = true
  · exact ⟨halive, hunstopped, fun _ => .inr hflag, fun _ _ => hflag⟩
  · have hpoint : ¬ s.point.stoppable = true := fun hp => h ⟨hp, by simpa using hflag⟩
    refine ⟨halive, hunstopped, fun harmed => absurd ?_ hpoint, fun hclosing hne => absurd ?_ hpoint⟩
    · have hp : s.point.armed = true := harmed
      cases hs : s.point <;> simp_all [Point.armed, Point.stoppable]
    · have hp : s.point.closing = true := hclosing
      have hne : s.point ≠ .clearRestart := hne
      cases hs : s.point <;> simp_all [Point.closing, Point.stoppable]

/-- **When SIGINT or SIGTERM ends the process.**  After a signal that is heeded the main thread
takes at most seven more steps, whatever else happens but for a reload request, and it is
never stuck before it has exited.  Any other signal is forgotten: with no second stop and no
failure the process goes on for ever, whether or not reloads are requested. -/
theorem stop_signal_heeded_iff {w : Platform σ} {s t : Loop σ} {sig : Signal}
    (hsig : sig ≠ .sighup) (hunstopped : s.stopRequested = false)
    (hsignal : step w s (.signal sig) = some t) :
    (Heeded s → ∀ post u, (∀ l ∈ post, l ≠ .request) → exec (step w) t post = some u →
      post.countP isMain ≤ 7 ∧ (Exited u ∨ (step w u .main).isSome)) ∧
    (¬ Heeded s → ∀ post u, (∀ l ∈ post, Quiet l) → exec (step w) t post = some u →
      ¬ Exited u) := by
  obtain ⟨⟨hset, halive⟩, heq⟩ := Option.ite_none_right_eq_some.mp hsignal
  have ht : t = { s with running := false, stopHandled := true } := by
    rw [← Option.some.inj heq]
    simp [signalHandler, hsig, hset]
  constructor
  · rintro ⟨hstoppable, hreq⟩ post u hlabels hpost
    have hleaving : Leaving t := by
      rw [ht]
      exact ⟨hreq, fun _ => rfl, .inl hstoppable⟩
    have hbudget : Leaving u ∧
        u.point.untilExit + post.countP isMain ≤ t.point.untilExit + 0 * post.countP isRequest :=
      exec_budget (fun hs hl h => leaving_step hs hl h) hleaving hlabels hpost
    have hfar : t.point.untilExit ≤ 7 := by
      rw [ht]
      show s.point.untilExit ≤ 7
      cases hp : s.point <;> simp_all [Point.stoppable, Point.untilExit]
    exact ⟨by omega, exited_or_main_enabled w u⟩
  · intro hnot post u hlabels hpost
    have hforgotten : Forgotten t := by
      rw [ht]
      exact forgotten_of_not_heeded halive hunstopped hnot
    exact (exec_invariant_of_meets (fun hs hl h => forgotten_step hs hl h) hforgotten
      (meets_of_labels hlabels t) hpost).alive

/-- The theorem on a SIGTERM in the `_startup` after a reload, which is forgotten. -/
theorem stop_signal_heeded_iff_secondStartup :
    ∃ t, step ⟨id, true⟩ secondStartup (.signal .sigterm) = some t ∧
      ∀ post u, (∀ l ∈ post, Quiet l) → exec (step ⟨id, true⟩) t post = some u → ¬ Exited u := by
  have hsignal : step ⟨id, true⟩ secondStartup (.signal .sigterm) =
      some { secondStartup with stopHandled := true } := rfl
  refine ⟨_, hsignal, (stop_signal_heeded_iff (by decide) rfl hsignal).2 ?_⟩
  rintro ⟨hstoppable, -⟩
  cases hstoppable

end Offs.RestartLoop
