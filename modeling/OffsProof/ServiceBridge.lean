import OffsProof.StopResponse

/-! # The Windows service

Under the service control manager `_run_offsd` is the body of `_service_main`, on a thread of its
own, and `_service_ctrl_handler` runs on another.  The handler stores the stop flag, reports
`SERVICE_STOP_PENDING` and calls the handler that the body has registered: three steps between
which the body goes on.  The loop of the body is that of `RestartLoop`, whose `scmStop` takes the
first and the last of them at once; here they are apart.

The manager sends a stop or a shutdown only to a service whose last report accepts it and is not
`SERVICE_STOPPED`, and one control at a time.  Any further control that it may send is ignored by
the handler.

Three results, for every interleaving.  The reports of the service thread are made in order, each
once, and a stop is announced only after `SERVICE_RUNNING` (`service_reports`).  A stop control
is answered with `SERVICE_STOPPED` (`stop_control_answered`).  But the handler can come too late
with its own report: then the last that the manager hears of a service that has stopped is that
it is about to stop (`last_report_stopped_iff`).

What a move can do is said once (`Moves`).  The first result is an invariant of the reports
(`Told`), which every move keeps; the second counts what the service thread has left to do
(`movesLeft`), which its own moves make smaller and nobody else makes larger but for a reload;
the third follows two situations, one with and one without a report of the handler to come, which
all further moves keep (`Settled`, `Contradicted`).
-/
namespace Offs.ServiceBridge
open LabelledRun RestartLoop

variable {σ : Type}

/-! ## Reports -/

inductive ServiceState
  | startPending
  | running
  | stopPending
  | stopped
  deriving DecidableEq, Repr

/-- `SERVICE_STATUS`, without the type and the check point, which are always the same. -/
structure Report where
  state : ServiceState
  /-- `SERVICE_ACCEPT_STOP | SERVICE_ACCEPT_SHUTDOWN` -/
  controlsAccepted : Bool
  win32ExitCode : Nat
  specificExitCode : Nat
  waitHint : Nat
  deriving DecidableEq, Repr

/-- `ERROR_SERVICE_SPECIFIC_ERROR` -/
def errorServiceSpecificError : Nat := 1066

/-- The status that `_service_report` hands to `SetServiceStatus`. -/
def serviceReport (state : ServiceState) (exitCode waitHint : Nat) : Report where
  state := state
  controlsAccepted := state != .startPending
  win32ExitCode := if state = .stopped ∧ exitCode ≠ 0 then errorServiceSpecificError else 0
  specificExitCode := if state = .stopped ∧ exitCode ≠ 0 then exitCode else 0
  waitHint := waitHint

/-! ## The two threads -/

/-- Where `_service_main` stands. -/
inductive ServiceMain
  | entered
  /-- It has registered the control handler. -/
  | registered
  /-- It has reported `SERVICE_START_PENDING`. -/
  | announced
  /-- It has reported `SERVICE_RUNNING`, and `g_run_body` runs or has returned. -/
  | body
  /-- It has returned: the handler could not be registered. -/
  | unregistered
  /-- It has returned: there was no body. -/
  | bodiless
  /-- It has returned: the body has, with this exit code. -/
  | stopped (code : Nat)
  deriving DecidableEq, Repr

/-- Where `_service_ctrl_handler` stands. -/
inductive Handler
  | idle
  /-- The flag is set. -/
  | flagged
  /-- `SERVICE_STOP_PENDING` has been reported. -/
  | reported
  deriving DecidableEq, Repr

inductive Control
  | stop
  | shutdown
  | interrogate
  | other
  deriving DecidableEq, Repr

structure Service (σ : Type) where
  main : ServiceMain
  handler : Handler
  /-- `_run_offsd`, whose `stopRequested` is `g_stop_requested`. -/
  loop : Loop σ
  /-- What `SetServiceStatus` has been told. -/
  reports : List Report
  /-- How many times the handler was told to stop. -/
  controls : Nat

inductive Move (σ : Type)
  /-- `_service_main` outside of the body; registering the handler may fail. -/
  | serviceMain (succeeds : Bool)
  /-- A step of the body, or of a party around it. -/
  | body (l : Label σ)
  /-- The manager sends a control, and the handler begins. -/
  | control (c : Control)
  /-- The handler goes on. -/
  | handle

/-- The process as `StartServiceCtrlDispatcherW` calls `_service_main`. -/
def initial (store : σ) : Service σ where
  main := .entered
  handler := .idle
  loop := RestartLoop.initial store
  reports := []
  controls := 0

namespace Service

/-- `_service_report`. -/
def report (s : Service σ) (state : ServiceState) (exitCode waitHint : Nat) : Service σ :=
  { s with reports := s.reports ++ [serviceReport state exitCode waitHint] }

/-- The manager takes the service for one that can be told to stop. -/
def accepts (s : Service σ) : Bool :=
  s.reports.getLast?.any fun r => r.controlsAccepted && r.state != .stopped

end Service

/-- `_service_main`, step by step; `hasBody` is `g_run_body != NULL`. -/
def serviceMain (hasBody succeeds : Bool) (s : Service σ) : Option (Service σ) :=
  match s.main with
  | .entered => some { s with main := if succeeds then .registered else .unregistered }
  | .registered => some { s.report .startPending 0 30000 with main := .announced }
  | .announced =>
    if hasBody then some { s.report .running 0 0 with main := .body }
    else some { s.report .stopped errorServiceSpecificError 3000 with main := .bodiless }
  | .body =>
    match s.loop.point with
    | .exited code => some { s.report .stopped code 3000 with main := .stopped code }
    | _ => none
  | .unregistered | .bodiless | .stopped _ => none

/-- The first statement of `_service_ctrl_handler`. -/
def control (c : Control) (s : Service σ) : Option (Service σ) :=
  match c with
  | .stop | .shutdown =>
    if s.handler = .idle ∧ s.accepts then
      some { s with
        handler := .flagged
        loop := { s.loop with stopRequested := true }
        controls := s.controls + 1 }
    else none
  | .interrogate | .other => if s.handler = .idle then some s else none

/-- The rest of it. -/
def handle (s : Service σ) : Option (Service σ) :=
  match s.handler with
  | .idle => none
  | .flagged => some { s.report .stopPending 0 5000 with handler := .reported }
  -- `g_stop_handler` is registered together with `g_node`.
  | .reported =>
    some { s with
      handler := .idle
      loop := { s.loop with running := s.loop.running && !s.loop.nodeSet } }

/-- One move of any party. -/
def step (w : Platform σ) (hasBody : Bool) (s : Service σ) : Move σ → Option (Service σ)
  | .serviceMain succeeds => serviceMain hasBody succeeds s
  -- The stop of the manager is the handler's business.
  | .body .scmStop => none
  | .body l =>
    if s.main = .body then (RestartLoop.step w s.loop l).map fun loop => { s with loop := loop }
    else none
  | .control c => control c s
  | .handle => handle s

/-! ## What a move does -/

/-- The moves, one by one: what each party can do, where it stands then, and what has been
reported.  All invariants below are derived from these cases. -/
inductive Moves (w : Platform σ) (hasBody : Bool) (s : Service σ) : Move σ → Service σ → Prop
  | register (succeeds : Bool) (hmain : s.main = .entered) :
    Moves w hasBody s (.serviceMain succeeds)
      { s with main := if succeeds then .registered else .unregistered }
  | announce (succeeds : Bool) (hmain : s.main = .registered) :
    Moves w hasBody s (.serviceMain succeeds)
      { s.report .startPending 0 30000 with main := .announced }
  | run (succeeds : Bool) (hmain : s.main = .announced) (hbody : hasBody = true) :
    Moves w hasBody s (.serviceMain succeeds) { s.report .running 0 0 with main := .body }
  | noBody (succeeds : Bool) (hmain : s.main = .announced) (hbody : hasBody = false) :
    Moves w hasBody s (.serviceMain succeeds)
      { s.report .stopped errorServiceSpecificError 3000 with main := .bodiless }
  | finish (succeeds : Bool) {code : Nat} (hmain : s.main = .body)
      (hcode : s.loop.point = .exited code) :
    Moves w hasBody s (.serviceMain succeeds)
      { s.report .stopped code 3000 with main := .stopped code }
  | body {l : Label σ} {loop : Loop σ} (hmain : s.main = .body) (hl : l ≠ .scmStop)
      (hstep : RestartLoop.step w s.loop l = some loop) :
    Moves w hasBody s (.body l) { s with loop := loop }
  | stop {c : Control} (hidle : s.handler = .idle) (haccepts : s.accepts = true) :
    Moves w hasBody s (.control c)
      { s with
        handler := .flagged
        loop := { s.loop with stopRequested := true }
        controls := s.controls + 1 }
  | ignore {c : Control} : Moves w hasBody s (.control c) s
  | pending (hhandler : s.handler = .flagged) :
    Moves w hasBody s .handle { s.report .stopPending 0 5000 with handler := .reported }
  | notify (hhandler : s.handler = .reported) :
    Moves w hasBody s .handle
      { s with
        handler := .idle
        loop := { s.loop with running := s.loop.running && !s.loop.nodeSet } }

theorem moves_of_step {w : Platform σ} {hasBody : Bool} {s t : Service σ} {m : Move σ}
    (hstep : step w hasBody s m = some t) : Moves w hasBody s m t := by
  cases m with
  | serviceMain succeeds =>
    simp only [step, serviceMain] at hstep
    split at hstep
    · cases hstep
      exact .register succeeds (by assumption)
    · cases hstep
      exact .announce succeeds (by assumption)
    · split at hstep <;> cases hstep
      · exact .run succeeds (by assumption) (by assumption)
      · exact .noBody succeeds (by assumption) (by simp_all)
    · split at hstep <;> cases hstep
      exact .finish succeeds (by assumption) (by assumption)
    all_goals cases hstep
  | body l =>
    cases l with
    | scmStop => cases hstep
    | _ =>
      obtain ⟨hmain, hstep⟩ := Option.ite_none_right_eq_some.mp hstep
      obtain ⟨loop, hloop, rfl⟩ := Option.map_eq_some_iff.mp hstep
      exact .body hmain (by simp) hloop
  | control c =>
    cases c with
    | stop | shutdown =>
      obtain ⟨⟨hidle, haccepts⟩, heq⟩ := Option.ite_none_right_eq_some.mp hstep
      cases heq
      exact .stop hidle haccepts
    | interrogate | other =>
      obtain ⟨-, heq⟩ := Option.ite_none_right_eq_some.mp hstep
      cases heq
      exact .ignore
  | handle =>
    simp only [step, handle] at hstep
    split at hstep <;> cases hstep
    · exact .pending (by assumption)
    · exact .notify (by assumption)

/-! ## The reports of a run -/

/-- What `_service_main` has reported when it stands there. -/
def ServiceMain.reports : ServiceMain → List Report
  | .entered | .registered | .unregistered => []
  | .announced => [serviceReport .startPending 0 30000]
  | .body => [serviceReport .startPending 0 30000, serviceReport .running 0 0]
  | .bodiless =>
    [serviceReport .startPending 0 30000, serviceReport .stopped errorServiceSpecificError 3000]
  | .stopped code =>
    [serviceReport .startPending 0 30000, serviceReport .running 0 0,
      serviceReport .stopped code 3000]

/-- The service has been reported as running. -/
def ServiceMain.serving : ServiceMain → Bool
  | .body | .stopped _ => true
  | _ => false

def Report.isStopPending (r : Report) : Bool := r.state = .stopPending

/-- **What the manager has been told.**  Before the body the reports are those of the service
thread; from then on they begin with `SERVICE_START_PENDING` and `SERVICE_RUNNING`, and the
handler has added one for each stop. -/
structure Told (s : Service σ) : Prop where
  early : s.main.serving = false →
    s.handler = .idle ∧ s.controls = 0 ∧ s.reports = s.main.reports
  started : s.main.serving = true →
    ∃ rest, s.reports = serviceReport .startPending 0 30000 :: serviceReport .running 0 0 :: rest
  own : s.reports.filter (fun r => !r.isStopPending) = s.main.reports
  pending : ∀ r ∈ s.reports, r.isStopPending = true → r = serviceReport .stopPending 0 5000
  counted : s.reports.countP Report.isStopPending + (if s.handler = .flagged then 1 else 0) =
    s.controls
  flag : s.loop.stopRequested = true ↔ 0 < s.controls
  code : ∀ code, s.main = .stopped code → s.loop.point = .exited code

theorem told_initial (store : σ) : Told (initial store) where
  early _ := ⟨rfl, rfl, rfl⟩
  started h := by cases h
  own := rfl
  pending r hr := by cases hr
  counted := rfl
  flag := by simp [initial, RestartLoop.initial]
  code code h := by cases h

/-- A service that can be told to stop has been reported as running. -/
theorem Told.serving_of_accepts {s : Service σ} (hs : Told s) (haccepts : s.accepts = true) :
    s.main.serving = true := by
  cases hmain : s.main.serving with
  | true => rfl
  | false =>
    obtain ⟨-, -, hreports⟩ := hs.early hmain
    unfold Service.accepts at haccepts
    rw [hreports] at haccepts
    cases hm : s.main with
    | body | stopped => simp [hm, ServiceMain.serving] at hmain
    | entered | registered | unregistered | announced | bodiless =>
      rw [hm] at haccepts
      revert haccepts
      decide

/-- The handler runs only in a service that has been reported as running. -/
theorem Told.serving_of_handler {s : Service σ} (hs : Told s) (hhandler : s.handler ≠ .idle) :
    s.main.serving = true := by
  cases hmain : s.main.serving with
  | true => rfl
  | false => exact absurd (hs.early hmain).1 hhandler

/-- Nothing but the handler touches the flag. -/
theorem stopRequested_step {w : Platform σ} {s t : Loop σ} {l : Label σ} (hl : l ≠ .scmStop)
    (h : RestartLoop.step w s l = some t) : t.stopRequested = s.stopRequested := by
  cases l with
  | main =>
    have hmain : mainStep w s = some t := h
    cases hp : s.point with
    | exited code => simp [mainStep, hp] at hmain
    | poll | testRestart =>
      simp only [mainStep, hp] at hmain
      split at hmain <;> cases hmain <;> rfl
    | _ =>
      simp only [mainStep, hp, Option.some.injEq] at hmain
      subst hmain
      rfl
  | mainFails => exact (stepsLeft_mainFailure h).1
  | signal sig =>
    obtain ⟨-, heq⟩ := Option.ite_none_right_eq_some.mp h
    cases heq
    rcases signalHandler_cases sig s with hsame | hsame <;> rw [hsame]
  | scmStop => exact absurd rfl hl
  | request =>
    obtain ⟨-, rfl⟩ := step_request h
    rfl
  | stage content =>
    cases h
    rfl

namespace Told
variable {w : Platform σ} {hasBody : Bool} {s : Service σ}

/-- `_service_main` reports, and goes on to a place it has not been serving at before. -/
theorem report (hs : Told s) (hearly : s.main.serving = false) {main : ServiceMain}
    {state : ServiceState} {exitCode waitHint : Nat} (hstate : state ≠ .stopPending)
    (hreports : main.reports = s.main.reports ++ [serviceReport state exitCode waitHint])
    (hserving : main.serving = true →
      ∃ rest, main.reports =
        serviceReport .startPending 0 30000 :: serviceReport .running 0 0 :: rest)
    (hcode : ∀ code, main ≠ .stopped code) :
    Told { s.report state exitCode waitHint with main := main } := by
  obtain ⟨hidle, hzero, hsame⟩ := hs.early hearly
  have hnot : (serviceReport state exitCode waitHint).isStopPending = false := by
    simp [Report.isStopPending, serviceReport, hstate]
  have hall : s.reports ++ [serviceReport state exitCode waitHint] = main.reports := by
    rw [hsame, hreports]
  refine ⟨fun _ => ⟨hidle, hzero, hall⟩, fun h => ?_, ?_, fun r hr hpending => ?_, ?_, hs.flag,
    fun code h => absurd h (hcode code)⟩
  · obtain ⟨rest, hrest⟩ := hserving h
    exact ⟨rest, hall.trans hrest⟩
  · show (s.reports ++ [serviceReport state exitCode waitHint]).filter _ = main.reports
    rw [List.filter_append, hs.own, hreports]
    simp [hnot]
  · rcases List.mem_append.mp hr with hr | hr
    · exact hs.pending r hr hpending
    · cases List.mem_singleton.mp hr
      rw [hnot] at hpending
      cases hpending
  · show (s.reports ++ [serviceReport state exitCode waitHint]).countP Report.isStopPending +
      (if s.handler = .flagged then 1 else 0) = s.controls
    rw [List.countP_append]
    simpa [hnot] using hs.counted

theorem step {t : Service σ} {m : Move σ} (hs : Told s)
    (hstep : ServiceBridge.step w hasBody s m = some t) : Told t := by
  cases moves_of_step hstep with
  | register succeeds hmain =>
    obtain ⟨hidle, hzero, hsame⟩ := hs.early (by simp [hmain, ServiceMain.serving])
    rw [hmain] at hsame
    have hnil : s.reports = [] := hsame
    cases succeeds <;>
      exact ⟨fun _ => ⟨hidle, hzero, hnil⟩, nofun, by simp [hnil, ServiceMain.reports],
        hs.pending, hs.counted, hs.flag, nofun⟩
  | announce succeeds hmain =>
    refine hs.report (by simp [hmain, ServiceMain.serving]) (by decide) ?_ nofun (by simp)
    rw [hmain]
    rfl
  | run succeeds hmain =>
    refine hs.report (by simp [hmain, ServiceMain.serving]) (by decide) ?_ ?_ (by simp)
    · rw [hmain]
      rfl
    · exact fun _ => ⟨[], rfl⟩
  | noBody succeeds hmain =>
    refine hs.report (by simp [hmain, ServiceMain.serving]) (by decide) ?_ nofun (by simp)
    rw [hmain]
    rfl
  | finish succeeds hmain hcode =>
    rename_i code
    have hnot : (serviceReport .stopped code 3000).isStopPending = false := rfl
    obtain ⟨rest, hrest⟩ := hs.started (by simp [hmain, ServiceMain.serving])
    refine ⟨nofun, fun _ => ⟨rest ++ [serviceReport .stopped code 3000], ?_⟩, ?_,
      fun r hr hpending => ?_, ?_, hs.flag, ?_⟩
    · simp [Service.report, hrest]
    · have hown := hs.own
      rw [hmain] at hown
      simp [Service.report, List.filter_append, hown, hnot, ServiceMain.reports]
    · rcases List.mem_append.mp hr with hr | hr
      · exact hs.pending r hr hpending
      · cases List.mem_singleton.mp hr
        cases hpending
    · show (s.reports ++ [serviceReport .stopped code 3000]).countP Report.isStopPending +
        (if s.handler = .flagged then 1 else 0) = s.controls
      rw [List.countP_append]
      simpa [hnot] using hs.counted
    · intro code' h
      cases h
      exact hcode
  | body hmain hl hloop =>
    refine ⟨hs.early, hs.started, hs.own, hs.pending, hs.counted, ?_, ?_⟩
    · rw [stopRequested_step hl hloop]
      exact hs.flag
    · intro code h
      rw [hmain] at h
      cases h
  | stop hidle haccepts =>
    have hserving := hs.serving_of_accepts haccepts
    refine ⟨fun h => absurd hserving (by simp [h]), hs.started, hs.own, hs.pending, ?_, ?_, hs.code⟩
    · have hcounted := hs.counted
      rw [hidle] at hcounted
      simpa using hcounted
    · simp
  | ignore => exact hs
  | pending hhandler =>
    have hserving := hs.serving_of_handler (by simp [hhandler])
    obtain ⟨rest, hrest⟩ := hs.started hserving
    have hnew : (serviceReport .stopPending 0 5000).isStopPending = true := rfl
    refine ⟨fun h => absurd (hserving.symm.trans h) (by simp),
      fun _ => ⟨rest ++ [serviceReport .stopPending 0 5000], ?_⟩, ?_, fun r hr hpending => ?_, ?_,
      hs.flag, hs.code⟩
    · simp only [Service.report, hrest, List.cons_append]
    · simpa [Service.report, List.filter_append, hnew] using hs.own
    · rcases List.mem_append.mp hr with hr | hr
      · exact hs.pending r hr hpending
      · exact List.mem_singleton.mp hr
    · have hcounted := hs.counted
      rw [hhandler] at hcounted
      simpa [Service.report, List.countP_append, hnew] using hcounted
  | notify hhandler =>
    have hserving := hs.serving_of_handler (by simp [hhandler])
    refine ⟨fun h => absurd hserving (by simp [h]), hs.started, hs.own, hs.pending, ?_, hs.flag,
      hs.code⟩
    have hcounted := hs.counted
    rw [hhandler] at hcounted
    simpa using hcounted

theorem exec {store : σ} {ms : List (Move σ)}
    (hrun : LabelledRun.exec (ServiceBridge.step w hasBody) (initial store) ms = some s) : Told s :=
  exec_invariant (fun hs h => hs.step h) (told_initial store) hrun

end Told

/-- **The reports come in order**, in every interleaving.  Those of `_service_main` are
`SERVICE_START_PENDING`, `SERVICE_RUNNING` and `SERVICE_STOPPED` with the exit code of the
body, each once, as far as it has come.  Between them, and not before `SERVICE_RUNNING`, the
handler has reported `SERVICE_STOP_PENDING` once for each stop that it is done with, and the
flag is set exactly if it has been told to stop. -/
theorem service_reports {w : Platform σ} {hasBody : Bool} {store : σ} {ms : List (Move σ)}
    {s : Service σ} (hrun : exec (step w hasBody) (initial store) ms = some s) :
    s.reports.filter (fun r => !r.isStopPending) = s.main.reports ∧
      (∀ code, s.main = .stopped code → s.loop.point = .exited code) ∧
      (∀ before r rest, s.reports = before ++ r :: rest → r.isStopPending = true →
        r = serviceReport .stopPending 0 5000 ∧ serviceReport .running 0 0 ∈ before) ∧
      s.reports.countP Report.isStopPending + (if s.handler = .flagged then 1 else 0) =
        s.controls ∧
      (s.loop.stopRequested = true ↔ 0 < s.controls) := by
  have hs := Told.exec hrun
  refine ⟨hs.own, hs.code, fun before r rest hsplit hpending => ?_, hs.counted, hs.flag⟩
  have hmem : r ∈ s.reports := by simp [hsplit]
  refine ⟨hs.pending r hmem hpending, ?_⟩
  -- The first two reports are not the handler's, so `before` has both.
  have hserving : s.main.serving = true := by
    cases hmain : s.main.serving with
    | true => rfl
    | false =>
      obtain ⟨-, -, hreports⟩ := hs.early hmain
      have hfilter := hs.own
      rw [← hreports, List.filter_eq_self] at hfilter
      have hnot := hfilter r hmem
      simp [hpending] at hnot
  obtain ⟨later, hlater⟩ := hs.started hserving
  rw [hlater] at hsplit
  match before, hsplit with
  | [], hsplit =>
    cases hsplit
    cases hpending
  | [first], hsplit =>
    cases hsplit
    cases hpending
  | first :: second :: more, hsplit =>
    cases hsplit
    simp

/-- A stop while the daemon starts, and the handler's report after the body has gone on. -/
def earlyStop : List (Move Unit) :=
  List.replicate 3 (.serviceMain true) ++ List.replicate 4 (.body .main) ++ [.control .stop] ++
    List.replicate 3 (.body .main) ++ [.handle, .body .main]

theorem service_reports_earlyStop :
    ∃ s, exec (step ⟨id, false⟩ true) (initial ()) earlyStop = some s ∧
      s.reports.length = 3 ∧ s.controls = 1 ∧
      s.reports.filter (fun r => !r.isStopPending) = ServiceMain.body.reports := by
  have hend : (exec (step ⟨id, false⟩ true) (initial ()) earlyStop).map
      (fun s => (s.reports.length, s.controls, s.main)) = some (3, 1, .body) := rfl
  obtain ⟨s, hrun, hshape⟩ := Option.map_eq_some_iff.mp hend
  obtain ⟨hlength, hcontrols, hmain⟩ : s.reports.length = 3 ∧ s.controls = 1 ∧ s.main = .body := by
    simpa using hshape
  refine ⟨s, hrun, hlength, hcontrols, ?_⟩
  rw [← hmain]
  exact (service_reports hrun).1

/-! ## A stop is answered -/

/-- The service thread's own moves. -/
def onServiceThread : Move σ → Bool
  | .serviceMain _ | .body .main | .body .mainFails => true
  | _ => false

def isReload : Move σ → Bool
  | .body .request => true
  | _ => false

/-- What the service thread has left to do: the body, and the last report. -/
def movesLeft (s : Service σ) : Nat :=
  match s.main with
  | .body => stepsLeft s.loop + 1
  | _ => 0

theorem stepsLeft_fails {s t : Loop σ} (h : mainFailure s = some t) :
    stepsLeft t + 1 ≤ stepsLeft s := by
  obtain ⟨-, hflag, hpoint, hclear⟩ := stepsLeft_mainFailure h
  have hfar : 1 ≤ s.point.untilExit := by
    cases hp : s.point <;> simp [mainFailure, hp, Point.untilExit] at h ⊢
  have hleft : stepsLeft t = if s.restartRequested then 13 else 0 := by
    simp [stepsLeft, hflag, hpoint, Point.untilExit]
  have hright : stepsLeft s = s.point.untilExit + if s.restartRequested then 13 else 0 := by
    simp [stepsLeft, hclear]
  omega

theorem movesLeft_step {w : Platform σ} {hasBody : Bool} {s t : Service σ} {m : Move σ}
    (hs : s.main.serving = true ∧ s.loop.stopRequested = true)
    (hstep : step w hasBody s m = some t) :
    (t.main.serving = true ∧ t.loop.stopRequested = true) ∧
      movesLeft t + (if onServiceThread m then 1 else 0) ≤
        movesLeft s + if isReload m then 13 else 0 := by
  obtain ⟨hserving, hstop⟩ := hs
  cases moves_of_step hstep with
  | register succeeds hmain | announce succeeds hmain | run succeeds hmain
  | noBody succeeds hmain =>
    rw [hmain] at hserving
    cases hserving
  | finish succeeds hmain hcode =>
    refine ⟨⟨rfl, hstop⟩, ?_⟩
    simp [movesLeft, hmain, onServiceThread]
    omega
  | body hmain hl hloop =>
    rename_i l loop
    obtain ⟨hstop', hrank⟩ := stepsLeft_step hstop hloop
    refine ⟨⟨hserving, hstop'⟩, ?_⟩
    simp only [movesLeft, hmain]
    cases l with
    | mainFails =>
      have hfails := stepsLeft_fails hloop
      simp [onServiceThread, isReload]
      omega
    | main | signal | scmStop | request | stage =>
      simp [onServiceThread, isReload, isMain, isRequest] at hrank ⊢
      omega
  | stop hidle haccepts =>
    exact ⟨⟨hserving, rfl⟩, Nat.le_refl (movesLeft s)⟩
  | ignore => exact ⟨⟨hserving, hstop⟩, by simp [onServiceThread]⟩
  | pending => exact ⟨⟨hserving, hstop⟩, Nat.le_refl (movesLeft s)⟩
  | notify => exact ⟨⟨hserving, hstop⟩, Nat.le_refl (movesLeft s)⟩

theorem endsWell_move {w : Platform σ} {hasBody : Bool} {s t : Service σ} {m : Move σ}
    (hs : EndsWell s.loop) (hm : m ≠ .body .mainFails) (hstep : step w hasBody s m = some t) :
    EndsWell t.loop := by
  cases moves_of_step hstep with
  | body hmain hl hloop =>
    refine endsWell_step hs ?_ hloop
    rintro rfl
    exact hm rfl
  | register | announce | run | noBody | finish | stop | ignore | pending | notify => exact hs

/-- **A stop is answered.**  Once the manager has sent a stop or a shutdown, the service
thread makes at most 26 more moves and 13 more for each reload that is requested, whatever
else happens in between; while it is in the body it has a move to make; and when it has made
its last one it has reported `SERVICE_STOPPED`, with exit code 0 if no step of the body has
failed. -/
theorem stop_control_answered {w : Platform σ} {hasBody : Bool} {store : σ}
    {ms post : List (Move σ)} {s t u : Service σ} {c : Control} (hc : c = .stop ∨ c = .shutdown)
    (hrun : exec (step w hasBody) (initial store) ms = some s)
    (hcontrol : step w hasBody s (.control c) = some t)
    (hpost : exec (step w hasBody) t post = some u) :
    post.countP onServiceThread ≤ 26 + 13 * post.countP isReload ∧
      ((u.main = .body ∧ ∃ m, onServiceThread m = true ∧ (step w hasBody u m).isSome) ∨
        ∃ code, u.main = .stopped code ∧ serviceReport .stopped code 3000 ∈ u.reports ∧
          (.body .mainFails ∉ ms ++ post → code = 0)) := by
  have hs := Told.exec hrun
  have ht : t.main.serving = true ∧ t.loop.stopRequested = true := by
    rcases hc with rfl | rfl
    all_goals
      obtain ⟨⟨hidle, haccepts⟩, heq⟩ := Option.ite_none_right_eq_some.mp hcontrol
      cases heq
      exact ⟨hs.serving_of_accepts haccepts, rfl⟩
  have hbudget : (u.main.serving = true ∧ u.loop.stopRequested = true) ∧
      movesLeft u + post.countP onServiceThread ≤ movesLeft t + 13 * post.countP isReload :=
    exec_budget (fun hs (_ : True) h => movesLeft_step hs h) ht (fun _ _ => trivial) hpost
  obtain ⟨⟨hserving, -⟩, hmoves⟩ := hbudget
  have hleft : movesLeft t ≤ 26 := by
    have hloop := stepsLeft_le t.loop
    unfold movesLeft
    split <;> omega
  refine ⟨by omega, ?_⟩
  have hall : exec (step w hasBody) (initial store) (ms ++ .control c :: post) = some u :=
    (exec_append hrun).trans (exec_cons.mpr ⟨t, hcontrol, hpost⟩)
  cases hmain : u.main with
  | entered | registered | announced | unregistered | bodiless =>
    rw [hmain] at hserving
    cases hserving
  | body =>
    refine .inl ⟨rfl, ?_⟩
    rcases exited_or_main_enabled w u.loop with ⟨code, hcode⟩ | henabled
    · exact ⟨.serviceMain true, rfl, by simp [step, serviceMain, hmain, hcode]⟩
    · exact ⟨.body .main, rfl, by simpa [step, hmain] using henabled⟩
  | stopped code =>
    have hu := Told.exec hall
    refine .inr ⟨code, rfl, ?_, fun hfails => ?_⟩
    · have hmem : serviceReport .stopped code 3000 ∈ u.main.reports := by
        simp [hmain, ServiceMain.reports]
      rw [← hu.own] at hmem
      exact List.mem_of_mem_filter hmem
    · have hsound : ∀ m ∈ ms ++ .control c :: post, m ≠ .body .mainFails := by
        rintro m hm rfl
        simp at hm
        simp [hm] at hfails
      have hwell : EndsWell u.loop :=
        exec_invariant_of_meets (fun hs hm h => endsWell_move hs hm h) (fun _ h => by cases h)
          (meets_of_labels hsound _) hall
      exact hwell code (hu.code code hmain)

/-- A daemon that polls. -/
def polling : List (Move Unit) :=
  List.replicate 3 (.serviceMain true) ++ List.replicate 8 (.body .main)

/-- What follows a stop, when the handler is held up. -/
def overtaken : List (Move Unit) :=
  List.replicate 4 (.body .main) ++ [.serviceMain true, .handle, .handle]

/-- The theorem on a stop that is answered before the handler has made its report. -/
theorem stop_control_answered_overtaken :
    ∃ s t u, exec (step ⟨id, false⟩ true) (initial ()) polling = some s ∧
      step ⟨id, false⟩ true s (.control .stop) = some t ∧
      exec (step ⟨id, false⟩ true) t overtaken = some u ∧
      u.main = .stopped 0 ∧ serviceReport .stopped 0 3000 ∈ u.reports := by
  obtain ⟨s, hrun⟩ : ∃ s, exec (step ⟨id, false⟩ true) (initial ()) polling = some s := ⟨_, rfl⟩
  obtain ⟨t, hcontrol⟩ : ∃ t, step ⟨id, false⟩ true s (.control .stop) = some t := by
    cases hrun
    exact ⟨_, rfl⟩
  have hend : (exec (step ⟨id, false⟩ true) t overtaken).map Service.main =
      some (.stopped 0) := by
    cases hrun
    cases hcontrol
    rfl
  obtain ⟨u, hpost, hmain⟩ := Option.map_eq_some_iff.mp hend
  refine ⟨s, t, u, hrun, hcontrol, hpost, hmain, ?_⟩
  rcases (stop_control_answered (.inl rfl) hrun hcontrol hpost).2 with ⟨hbody, -⟩ | ⟨code, hcode, h, -⟩
  · rw [hmain] at hbody
    cases hbody
  · cases hmain.symm.trans hcode
    exact h

/-! ## The last report -/

/-- Once `SERVICE_STOPPED` has been reported and the handler has nothing left to report, no
other report follows. -/
def Settled (code : Nat) (s : Service σ) : Prop :=
  s.main = .stopped code ∧ s.handler ≠ .flagged ∧
    s.reports.getLast? = some (serviceReport .stopped code 3000)

/-- A report of the handler is the last one, or is still to come, though `_service_main` has
reported the end already.  Nothing is reported after it, so the manager is left with it. -/
def Contradicted (code : Nat) (s : Service σ) : Prop :=
  s.main = .stopped code ∧
    (s.handler = .flagged ∨ s.reports.getLast? = some (serviceReport .stopPending 0 5000))

theorem settled_step {w : Platform σ} {hasBody : Bool} {code : Nat} {s t : Service σ} {m : Move σ}
    (hs : Settled code s) (hstep : step w hasBody s m = some t) : Settled code t := by
  obtain ⟨hstopped, hhandler, hlast⟩ := hs
  cases moves_of_step hstep with
  | register succeeds hmain | announce succeeds hmain | run succeeds hmain
  | noBody succeeds hmain | finish succeeds hmain | body hmain =>
    rw [hstopped] at hmain
    cases hmain
  | stop hidle haccepts =>
    -- The manager does not stop a service that has stopped.
    simp [Service.accepts, hlast, serviceReport] at haccepts
  | ignore => exact ⟨hstopped, hhandler, hlast⟩
  | pending hflagged => exact absurd hflagged hhandler
  | notify => exact ⟨hstopped, by simp, hlast⟩

theorem contradicted_step {w : Platform σ} {hasBody : Bool} {code : Nat} {s t : Service σ}
    {m : Move σ} (hs : Contradicted code s) (hstep : step w hasBody s m = some t) :
    Contradicted code t := by
  obtain ⟨hstopped, hlast⟩ := hs
  cases moves_of_step hstep with
  | register succeeds hmain | announce succeeds hmain | run succeeds hmain
  | noBody succeeds hmain | finish succeeds hmain | body hmain =>
    rw [hstopped] at hmain
    cases hmain
  | stop => exact ⟨hstopped, .inl rfl⟩
  | ignore => exact ⟨hstopped, hlast⟩
  | pending => exact ⟨hstopped, .inr (by simp [Service.report])⟩
  | notify hreported =>
    have hflagged : s.handler ≠ .flagged := by simp [hreported]
    exact ⟨hstopped, .inr (hlast.resolve_left hflagged)⟩

/-- **When `SERVICE_STOPPED` is the last report.**  Let `_service_main` report that the body has
ended.  When the handler is done with its own report, the last one that the manager has heard
is `SERVICE_STOPPED` if and only if the handler was not between the flag and its report at
that moment. -/
theorem last_report_stopped_iff {w : Platform σ} {hasBody succeeds : Bool} {s t u : Service σ}
    {post : List (Move σ)} {code : Nat} (hfinish : step w hasBody s (.serviceMain succeeds) = some t)
    (hstopped : t.main = .stopped code) (hpost : exec (step w hasBody) t post = some u)
    (hdone : u.handler ≠ .flagged) :
    u.reports.getLast? = some (serviceReport .stopped code 3000) ↔ s.handler ≠ .flagged := by
  have ht : t.handler = s.handler ∧
      t.reports.getLast? = some (serviceReport .stopped code 3000) := by
    cases moves_of_step hfinish with
    | finish succeeds hmain hcode =>
      cases hstopped
      exact ⟨rfl, by simp [Service.report]⟩
    | register succeeds =>
      cases succeeds <;> cases hstopped
    | announce | run | noBody => cases hstopped
  obtain ⟨hhandler, hlast⟩ := ht
  constructor
  · intro hend hflagged
    have hu : Contradicted code u :=
      exec_invariant (fun hs h => contradicted_step hs h)
        ⟨hstopped, .inl (hhandler.trans hflagged)⟩ hpost
    have hpending := hu.2.resolve_left hdone
    rw [hend] at hpending
    cases hpending
  · intro hflagged
    have hu : Settled code u :=
      exec_invariant (fun hs h => settled_step hs h)
        ⟨hstopped, by rw [hhandler]; exact hflagged, hlast⟩ hpost
    exact hu.2.2

/-- The theorem where the handler is held up: the manager is left with
`SERVICE_STOP_PENDING`. -/
theorem last_report_stopped_iff_overtaken :
    ∃ s t u, exec (step ⟨id, false⟩ true) (initial ())
        (polling ++ .control .stop :: List.replicate 4 (.body .main)) = some s ∧
      step ⟨id, false⟩ true s (.serviceMain true) = some t ∧
      exec (step ⟨id, false⟩ true) t [.handle, .handle] = some u ∧
      u.reports.getLast? ≠ some (serviceReport .stopped 0 3000) := by
  have hend : (exec (step ⟨id, false⟩ true) (initial ())
      (polling ++ .control .stop :: List.replicate 4 (.body .main))).map
        (fun s => (s.main, s.handler, s.loop.point)) = some (.body, .flagged, .exited 0) := rfl
  obtain ⟨s, hrun, hshape⟩ := Option.map_eq_some_iff.mp hend
  obtain ⟨hmain, hhandler, hpoint⟩ :
      s.main = .body ∧ s.handler = .flagged ∧ s.loop.point = .exited 0 := by
    simpa using hshape
  have hfinish : step ⟨id, false⟩ true s (.serviceMain true) =
      some { s.report .stopped 0 3000 with main := .stopped 0 } := by
    simp [step, serviceMain, hmain, hpoint]
  obtain ⟨u, hpost, hidle⟩ : ∃ u, exec (step ⟨id, false⟩ true)
      { s.report .stopped 0 3000 with main := .stopped 0 } [.handle, .handle] = some u ∧
        u.handler = .idle := by
    simp [exec, step, handle, Service.report, hhandler]
  refine ⟨s, _, u, hrun, hfinish, hpost, fun hlast => ?_⟩
  exact (last_report_stopped_iff hfinish rfl hpost (by simp [hidle])).mp hlast hhandler

end Offs.ServiceBridge
