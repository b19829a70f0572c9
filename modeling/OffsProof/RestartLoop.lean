import OffsProof.LabelledRun

/-! # The restart loop of `_run_offsd`

From the first `_load_pending_override` on, `_run_offsd` is a loop that two
asynchronous parties steer through two flags.  Signal handlers (and the SCM's
control thread) store `0` into `server.node.running`; pool workers answering a
reload RPC store `1` into `g_restart_requested`.  The main thread samples the
flags at different points, and `_startup` zeroes and re-arms the node that the
handlers write to.

`Point` names the places where the main thread can be interrupted with a
different effect, `step` is one move of any party, and a run is any list of moves
`LabelledRun.exec` can follow from `initial`.  Handlers run only once they have
been installed (before that a signal ends the process by its default action),
and workers only between the pool's start in `_startup` and
`scheduler_pool_stop` in `_shutdown`; staging writes to the pending store can
come from outside as well, so they are always enabled.

Two results.  A reload request is neither lost nor duplicated
(`reload_requests_served`): the flag is cleared before the pending store is read,
and no worker can run between the two.
A stop request, on the other hand, is only honoured when it does not meet a
reload (`stop_honoured`): the loop asks `g_restart_requested` alone whether to go
round again, and a stop that lands after that test is erased by `_startup`.
-/
namespace Offs.RestartLoop
open LabelledRun

variable {σ : Type}

/-- Where the main thread stands in `_run_offsd`: the step it takes next. -/
inductive Point
  /-- The `_load_pending_override` before the loop. -/
  | loadPending
  /-- `_write_pid_file`, the head of the loop. -/
  | writePidFile
  /-- The call of `_startup`, whose first statement zeroes `server`. -/
  | startup
  /-- Inside `_startup`, up to `scheduler_pool_start`. -/
  | poolStart
  /-- Inside `_startup`, up to `ATOMIC_STORE(&server->node.running, 1)`. -/
  | storeRunning
  /-- Inside `_startup`, up to its `return 0`. -/
  | transports
  /-- `g_node = &server.node` and the `signal` calls. -/
  | installHandlers
  | startListening
  | poll
  /-- `_shutdown`, up to `scheduler_pool_stop`. -/
  | poolStop
  /-- `_shutdown`, from there to its end. -/
  | destroy
  /-- `if (!ATOMIC_LOAD(&g_restart_requested)) break;` -/
  | testRestart
  /-- `ATOMIC_STORE(&g_restart_requested, 0);` -/
  | clearRestart
  /-- The `_load_pending_override` at the end of the loop. -/
  | reloadPending
  | exited (code : Nat)
  deriving DecidableEq, Repr

inductive Signal
  | sigint
  | sigterm
  | sighup
  deriving DecidableEq, Repr

/-- The state of the process.  `store` is `{config_dir}/pending_config.json`, of
any type.  The last five fields are history: nothing in `step` tests them. -/
structure Loop (σ : Type) where
  point : Point
  /-- `server.node.running` -/
  running : Bool
  /-- `g_restart_requested` -/
  restartRequested : Bool
  /-- `g_node != NULL`, and the handlers are installed. -/
  nodeSet : Bool
  /-- `g_update_actor != NULL` -/
  updateActor : Bool
  /-- `daemon_service_stop_requested()` -/
  stopRequested : Bool
  poolRunning : Bool
  store : σ
  /-- How many times `_startup` has begun. -/
  startups : Nat
  /-- What each `_load_pending_override` read, in order. -/
  loads : List σ
  /-- How many times `_request_restart` has been called. -/
  requests : Nat
  /-- `requests` at the last `_load_pending_override`. -/
  requestsAtLoad : Nat
  /-- A SIGINT or SIGTERM has been handled. -/
  stopHandled : Bool
  deriving DecidableEq, Repr

inductive Label (σ : Type)
  /-- The main thread's next step, succeeding. -/
  | main
  /-- The main thread's next step, failing: `_write_pid_file` or `_startup`. -/
  | mainFails
  | signal (sig : Signal)
  /-- The SCM tells the service to stop. -/
  | scmStop
  /-- A pool worker runs `_request_restart`. -/
  | request
  /-- The pending store is rewritten. -/
  | stage (content : σ)
  deriving DecidableEq, Repr

/-- What the platform contributes: `applied` is the pending store after
`_load_pending_override` has read it (`config_pending_mark_applied`), `hasActor`
whether `update_actor_create` gives an actor. -/
structure Platform (σ : Type) where
  applied : σ → σ
  hasActor : Bool

/-- `_load_pending_override`, as the loop sees it. -/
def loadPendingOverride (w : Platform σ) (s : Loop σ) : Loop σ :=
  { s with
    store := w.applied s.store
    loads := s.loads ++ [s.store]
    requestsAtLoad := s.requests }

/-- `_signal_handler`. -/
def signalHandler (sig : Signal) (s : Loop σ) : Loop σ :=
  if sig = .sighup ∧ s.updateActor then s
  else if s.nodeSet then { s with running := false }
  else s

/-- `_request_restart`. -/
def requestRestart (s : Loop σ) : Loop σ :=
  { s with restartRequested := true, requests := s.requests + 1 }

/-- `_service_stop_handler`, after the control thread set its own flag. -/
def serviceStopHandler (s : Loop σ) : Loop σ :=
  { s with stopRequested := true, running := s.running && !s.nodeSet }

/-- One step of the main thread. -/
def mainStep (w : Platform σ) (s : Loop σ) : Option (Loop σ) :=
  match s.point with
  | .loadPending => some { loadPendingOverride w s with point := .writePidFile }
  | .writePidFile => some { s with point := .startup }
  -- `memset` clears the flag with the rest of the server.
  | .startup => some { s with point := .poolStart, running := false, startups := s.startups + 1 }
  | .poolStart => some { s with point := .storeRunning, poolRunning := true }
  | .storeRunning => some { s with point := .transports, running := true }
  | .transports => some { s with point := .installHandlers, updateActor := w.hasActor }
  | .installHandlers => some { s with point := .startListening, nodeSet := true }
  | .startListening => some { s with point := .poll }
  | .poll =>
    if s.running ∧ ¬ s.stopRequested ∧ ¬ s.restartRequested then some s
    else some { s with point := .poolStop }
  | .poolStop => some { s with point := .destroy, poolRunning := false }
  | .destroy => some { s with point := .testRestart, updateActor := false }
  | .testRestart =>
    -- Whether a signal has cleared `running` is not asked here.
    if s.restartRequested then some { s with point := .clearRestart }
    else some { s with point := .exited 0 }
  | .clearRestart => some { s with point := .reloadPending, restartRequested := false }
  | .reloadPending => some { loadPendingOverride w s with point := .writePidFile }
  | .exited _ => none

/-- The main thread's steps that can fail end the process with status 1;
`_startup` stops the pool before it returns -1. -/
def mainFailure (s : Loop σ) : Option (Loop σ) :=
  match s.point with
  | .writePidFile => some { s with point := .exited 1 }
  | .poolStart | .storeRunning | .transports =>
    some { s with point := .exited 1, poolRunning := false }
  | _ => none

/-- The process has ended. -/
def Exited (s : Loop σ) : Prop := ∃ code, s.point = .exited code

instance (s : Loop σ) : Decidable (Exited s) :=
  match h : s.point with
  | .exited code => .isTrue ⟨code, h⟩
  | .loadPending | .writePidFile | .startup | .poolStart | .storeRunning | .transports
  | .installHandlers | .startListening | .poll | .poolStop | .destroy | .testRestart
  | .clearRestart | .reloadPending =>
    .isFalse fun ⟨code, hc⟩ => by rw [h] at hc; cases hc

/-- One move of any party. -/
def step (w : Platform σ) (s : Loop σ) : Label σ → Option (Loop σ)
  | .main => mainStep w s
  | .mainFails => mainFailure s
  | .signal sig =>
    if s.nodeSet ∧ ¬ Exited s then
      some { signalHandler sig s with stopHandled := s.stopHandled || sig != .sighup }
    else none
  | .scmStop => if ¬ Exited s then some (serviceStopHandler s) else none
  | .request => if s.poolRunning then some (requestRestart s) else none
  | .stage content => some { s with store := content }

/-- The process as it reaches the first `_load_pending_override`. -/
def initial (store : σ) : Loop σ where
  point := .loadPending
  running := false
  restartRequested := false
  nodeSet := false
  updateActor := false
  stopRequested := false
  poolRunning := false
  store := store
  startups := 0
  loads := []
  requests := 0
  requestsAtLoad := 0
  stopHandled := false

/-! ## Reload requests are neither lost nor duplicated -/

namespace Point

/-- The pool runs: from `scheduler_pool_start` to `scheduler_pool_stop`. -/
def poolUp : Point → Bool
  | .storeRunning | .transports | .installHandlers | .startListening | .poll | .poolStop => true
  | _ => false

/-- The node has been armed by this cycle's `_startup` and is still in use. -/
def armed : Point → Bool
  | .transports | .installHandlers | .startListening | .poll => true
  | _ => false

/-- The cycle has left the polling loop and has not cleared the flag yet. -/
def closing : Point → Bool
  | .poolStop | .destroy | .testRestart | .clearRestart => true
  | _ => false

/-- The main thread is about to read the pending store. -/
def loading : Point → Bool
  | .loadPending | .reloadPending => true
  | _ => false

/-- How many steps of the main thread lead to the next `_load_pending_override`
of the loop, when the polling loop is not held up. -/
def untilReload : Point → Nat
  | .loadPending => 13
  | .writePidFile => 12
  | .startup => 11
  | .poolStart => 10
  | .storeRunning => 9
  | .transports => 8
  | .installHandlers => 7
  | .startListening => 6
  | .poll => 5
  | .poolStop => 4
  | .destroy => 3
  | .testRestart => 2
  | .clearRestart => 1
  | .reloadPending => 0
  | .exited _ => 0

theorem not_loading_of_poolUp {p : Point} (h : p.poolUp = true) : p.loading = false := by
  cases p <;> simp_all [poolUp, loading]

theorem untilReload_le_of_poolUp {p : Point} (h : p.poolUp = true) : p.untilReload ≤ 9 := by
  cases p <;> simp_all [poolUp, untilReload]

end Point

/-- The labels of a run without a signal, an SCM stop, or a PID-file or start-up
failure. -/
def Quiet : Label σ → Prop
  | .main | .request | .stage _ => True
  | .mainFails | .signal _ | .scmStop => False

instance (l : Label σ) : Decidable (Quiet l) :=
  match l with
  | .main | .request | .stage _ => .isTrue trivial
  | .mainFails | .signal _ | .scmStop => .isFalse id

theorem step_request {w : Platform σ} {s t : Loop σ} (h : step w s .request = some t) :
    s.poolRunning = true ∧ t = requestRestart s := by
  simp only [step] at h
  split at h
  · rename_i hup
    cases h
    exact ⟨hup, rfl⟩
  · cases h

/-- **The invariant of quiet runs.**  The polling loop is left only because of a
reload request (`closing`), and between two loads the flag says exactly whether a
request has been made (`requested`, `kept`); the step that clears the flag leads
straight to the load, with the pool down. -/
structure Serving (s : Loop σ) : Prop where
  alive : ¬ Exited s
  unstopped : s.stopRequested = false
  pool : s.poolRunning = s.point.poolUp
  armed : s.point.armed = true → s.running = true
  closing : s.point.closing = true → s.restartRequested = true
  cleared : s.point.loading = true → s.restartRequested = false
  counted : s.requestsAtLoad ≤ s.requests
  requested : s.restartRequested = true → s.requestsAtLoad < s.requests
  kept : s.requestsAtLoad < s.requests → s.restartRequested = true ∨ s.point = .reloadPending

theorem serving_initial (store : σ) : Serving (initial store) where
  alive := by rintro ⟨code, h⟩; cases h
  unstopped := rfl
  pool := rfl
  armed h := by cases h
  closing h := by cases h
  cleared _ := rfl
  counted := Nat.le_refl 0
  requested h := by cases h
  kept h := by simp [initial] at h

/-- A step that leaves the flag and the counts as they are. -/
theorem Serving.goesOn {s t : Loop σ} (hs : Serving s) (hpoint : s.point ≠ .reloadPending)
    (hflag : t.restartRequested = s.restartRequested) (hstop : t.stopRequested = s.stopRequested)
    (hrequests : t.requests = s.requests) (hatLoad : t.requestsAtLoad = s.requestsAtLoad)
    (hloading : t.point.loading = false) (halive : ¬ Exited t)
    (hpool : t.poolRunning = t.point.poolUp) (harmed : t.point.armed = true → t.running = true)
    (hclosing : t.point.closing = true → s.restartRequested = true) : Serving t where
  alive := halive
  unstopped := hstop.trans hs.unstopped
  pool := hpool
  armed := harmed
  closing h := hflag.trans (hclosing h)
  cleared h := absurd h (by simp [hloading])
  counted := by rw [hrequests, hatLoad]; exact hs.counted
  requested h := by
    rw [hrequests, hatLoad]
    exact hs.requested (hflag.symm.trans h)
  kept h := by
    rw [hrequests, hatLoad] at h
    exact .inl (hflag.trans ((hs.kept h).resolve_right hpoint))

/-- The load takes note of all requests that have been made. -/
theorem Serving.loads {w : Platform σ} {s : Loop σ} (hs : Serving s)
    (hloading : s.point.loading = true) (hpool : s.poolRunning = false) :
    Serving { loadPendingOverride w s with point := .writePidFile } where
  alive := by simp [Exited]
  unstopped := hs.unstopped
  pool := hpool
  armed h := by cases h
  closing h := by cases h
  cleared h := by cases h
  counted := Nat.le_refl _
  requested h := absurd ((hs.cleared hloading).symm.trans h) Bool.noConfusion
  kept h := absurd h (Nat.lt_irrefl _)

theorem serving_mainStep {w : Platform σ} {s t : Loop σ} (hs : Serving s)
    (h : mainStep w s = some t) : Serving t := by
  have hpool := hs.pool
  cases hp : s.point with
  | poll =>
    simp only [mainStep, hp] at h
    split at h
    · cases h
      exact hs
    · rename_i hleave
      cases h
      -- the node is armed and no SCM stop came, so it was the flag
      have hflag : s.restartRequested = true := by
        simpa [hs.armed (by simp [hp, Point.armed]), hs.unstopped] using hleave
      rw [hp] at hpool
      exact hs.goesOn (by simp [hp]) rfl rfl rfl rfl rfl (by simp [Exited]) hpool nofun
        fun _ => hflag
  | testRestart =>
    have hflag : s.restartRequested = true := hs.closing (by simp [hp, Point.closing])
    simp only [mainStep, hp] at h
    rw [if_pos hflag] at h
    cases h
    rw [hp] at hpool
    exact hs.goesOn (by simp [hp]) rfl rfl rfl rfl rfl (by simp [Exited]) hpool nofun
      fun _ => hflag
  | clearRestart =>
    have hflag : s.restartRequested = true := hs.closing (by simp [hp, Point.closing])
    simp only [mainStep, hp, Option.some.injEq] at h
    subst h
    rw [hp] at hpool
    exact ⟨by simp [Exited], hs.unstopped, hpool, nofun, nofun, fun _ => rfl, hs.counted, nofun,
      fun _ => .inr rfl⟩
  | loadPending | reloadPending =>
    simp only [mainStep, hp, Option.some.injEq] at h
    subst h
    rw [hp] at hpool
    exact hs.loads (by simp [hp, Point.loading]) hpool
  | exited code => exact absurd ⟨code, hp⟩ hs.alive
  | writePidFile | startup | poolStart | storeRunning | transports | installHandlers
  | startListening | poolStop | destroy =>
    simp only [mainStep, hp, Option.some.injEq] at h
    subst h
    refine hs.goesOn (by simp [hp]) rfl rfl rfl rfl rfl (by simp [Exited]) ?_ ?_ ?_
    · simp [hpool, hp, Point.poolUp]
    · simp [hs.armed, hp, Point.armed]
    · simp [hs.closing, hp, Point.closing]

theorem serving_step {w : Platform σ} {s t : Loop σ} {l : Label σ} (hs : Serving s)
    (hl : Quiet l) (h : step w s l = some t) : Serving t := by
  cases l with
  | main => exact serving_mainStep hs h
  | request =>
    obtain ⟨hup, rfl⟩ := step_request h
    have hpoint := Point.not_loading_of_poolUp (hs.pool.symm.trans hup)
    have hlt : s.requestsAtLoad < s.requests + 1 := Nat.lt_succ_of_le hs.counted
    exact ⟨hs.alive, hs.unstopped, hs.pool, hs.armed, fun _ => rfl, by simp [requestRestart, hpoint],
      Nat.le_of_lt hlt, fun _ => hlt, fun _ => .inl rfl⟩
  | stage content =>
    cases h
    exact ⟨hs.alive, hs.unstopped, hs.pool, hs.armed, hs.closing, hs.cleared,
      hs.counted, hs.requested, hs.kept⟩
  | mainFails | signal _ | scmStop => exact hl.elim

theorem serving_exec {w : Platform σ} {s t : Loop σ} {ls : List (Label σ)} (hs : Serving s)
    (hquiet : ∀ l ∈ ls, Quiet l) (hrun : exec (step w) s ls = some t) : Serving t :=
  exec_invariant_of_meets (fun hs hl h => serving_step hs hl h) hs (meets_of_labels hquiet s) hrun

/-- The main thread reads the pending store at the end of the loop. -/
def ReadsPending (s : Loop σ) (l : Label σ) : Prop := s.point = .reloadPending ∧ l = .main

/-- What the pending store holds after the staging writes of `ls`. -/
def staged (store : σ) : List (Label σ) → σ
  | [] => store
  | .stage content :: ls => staged content ls
  | _ :: ls => staged store ls

def isMain : Label σ → Bool
  | .main => true
  | _ => false

theorem staged_cons (store : σ) (l : Label σ) (ls : List (Label σ)) :
    staged store (l :: ls) = staged (staged store [l]) ls := by
  cases l <;> rfl

theorem store_mainStep {w : Platform σ} {s t : Loop σ} (hload : s.point.loading = false)
    (h : mainStep w s = some t) : t.point ≠ .loadPending ∧ t.store = s.store := by
  cases hp : s.point with
  | loadPending | reloadPending => simp [hp, Point.loading] at hload
  | exited code => simp [mainStep, hp] at h
  | poll | testRestart =>
    simp only [mainStep, hp] at h
    split at h <;> cases h <;> simp [hp]
  | clearRestart | writePidFile | startup | poolStart | storeRunning | transports
  | installHandlers | startListening | poolStop | destroy =>
    simp only [mainStep, hp, Option.some.injEq] at h
    subst h
    simp

theorem store_step {w : Platform σ} {s t : Loop σ} {l : Label σ} (hfirst : s.point ≠ .loadPending)
    (hl : Quiet l) (hno : ¬ ReadsPending s l) (h : step w s l = some t) :
    t.point ≠ .loadPending ∧ t.store = staged s.store [l] := by
  cases l with
  | main =>
    have hload : s.point.loading = false := by
      cases hp : s.point with
      | loadPending => exact absurd hp hfirst
      | reloadPending => exact absurd ⟨hp, rfl⟩ hno
      | _ => rfl
    exact store_mainStep hload h
  | request =>
    obtain ⟨-, rfl⟩ := step_request h
    exact ⟨hfirst, rfl⟩
  | stage content =>
    cases h
    exact ⟨hfirst, rfl⟩
  | mainFails | signal _ | scmStop => exact hl.elim

/-- Away from the loads, only a staging write changes the pending store. -/
theorem store_exec {w : Platform σ} {s t : Loop σ} {ls : List (Label σ)}
    (hfirst : s.point ≠ .loadPending) (hquiet : ∀ l ∈ ls, Quiet l)
    (hno : Meets (step w) (fun m l => ¬ ReadsPending m l) s ls)
    (hrun : exec (step w) s ls = some t) : t.store = staged s.store ls := by
  induction ls generalizing s with
  | nil =>
    cases hrun
    rfl
  | cons l ls ih =>
    obtain ⟨m, hsm, hmt⟩ := exec_cons.mp hrun
    obtain ⟨hpoint, hstore⟩ := store_step hfirst (hquiet l List.mem_cons_self) hno.1 hsm
    have hrest : ∀ k ∈ ls, Quiet k := fun k hk => hquiet k (List.mem_cons_of_mem l hk)
    rw [ih hpoint hrest (hno.tail hsm) hmt, hstore, ← staged_cons]

/-- With the flag set, every step of the main thread leads nearer to the load. -/
theorem nearer_mainStep {w : Platform σ} {s t : Loop σ} (hs : Serving s)
    (hflag : s.restartRequested = true) (h : mainStep w s = some t) :
    (t.restartRequested = true ∨ t.point = .reloadPending) ∧
      t.point.untilReload < s.point.untilReload := by
  cases hp : s.point with
  | reloadPending =>
    have hclear := hs.cleared (by simp [hp, Point.loading])
    simp [hflag] at hclear
  | exited code => exact absurd ⟨code, hp⟩ hs.alive
  | poll =>
    have hnot : ¬ (s.running = true ∧ ¬ s.stopRequested = true ∧ ¬ s.restartRequested = true) := by
      simp [hflag]
    simp only [mainStep, hp, if_neg hnot, Option.some.injEq] at h
    subst h
    exact ⟨.inl hflag, by simp [Point.untilReload]⟩
  | testRestart =>
    simp only [mainStep, hp, if_pos hflag, Option.some.injEq] at h
    subst h
    exact ⟨.inl hflag, by simp [Point.untilReload]⟩
  | clearRestart =>
    simp only [mainStep, hp, Option.some.injEq] at h
    subst h
    exact ⟨.inr rfl, by simp [Point.untilReload]⟩
  | loadPending | writePidFile | startup | poolStart | storeRunning | transports
  | installHandlers | startListening | poolStop | destroy =>
    simp only [mainStep, hp, Option.some.injEq] at h
    subst h
    exact ⟨.inl hflag, by simp [Point.untilReload]⟩

/-- One step with a request outstanding: it is the load that serves it, or the
main thread comes a step nearer to that load. -/
theorem served_step {w : Platform σ} {s t : Loop σ} {l : Label σ}
    (hs : Serving s ∧ (s.restartRequested = true ∨ s.point = .reloadPending)) (hl : Quiet l)
    (h : step w s l = some t) :
    ReadsPending s l ∨
      ((Serving t ∧ (t.restartRequested = true ∨ t.point = .reloadPending)) ∧
        t.point.untilReload ≤ s.point.untilReload ∧
        (isMain l = true → t.point.untilReload < s.point.untilReload)) := by
  obtain ⟨hserving, hout⟩ := hs
  have ht := serving_step hserving hl h
  cases l with
  | main =>
    rcases hout with hflag | hp
    · obtain ⟨hout, hnearer⟩ := nearer_mainStep hserving hflag h
      exact .inr ⟨⟨ht, hout⟩, Nat.le_of_lt hnearer, fun _ => hnearer⟩
    · exact .inl ⟨hp, rfl⟩
  | request =>
    obtain ⟨-, rfl⟩ := step_request h
    exact .inr ⟨⟨ht, .inl rfl⟩, Nat.le_refl _, by simp [isMain]⟩
  | stage content =>
    cases h
    exact .inr ⟨⟨ht, hout⟩, Nat.le_refl _, by simp [isMain]⟩
  | mainFails | signal _ | scmStop => exact hl.elim

/-- The loop goes round only from the test of the flag. -/
theorem point_of_clearRestart {w : Platform σ} {s t : Loop σ} (h : mainStep w s = some t)
    (hclear : t.point = .clearRestart) : s.point = .testRestart := by
  cases hp : s.point with
  | testRestart => rfl
  | exited code => simp [mainStep, hp] at h
  | poll =>
    simp only [mainStep, hp] at h
    split at h <;> cases h <;> simp [hp] at hclear
  | _ =>
    simp only [mainStep, hp, Option.some.injEq] at h
    subst h
    simp at hclear

/-- **Reload requests are neither lost nor duplicated.**  In every state `s` of a
quiet run: the loop has not exited; if the main thread goes round again, a
request has been made since the last load; and if a worker requests a reload in
`s`, then ten further steps of the main thread, however they are interleaved with
staging writes and further requests, contain a `_load_pending_override`, and it
reads what the store held at the request with every later staging write. -/
theorem reload_requests_served (w : Platform σ) (store : σ) {ls : List (Label σ)} {s : Loop σ}
    (hquiet : ∀ l ∈ ls, Quiet l) (hrun : exec (step w) (initial store) ls = some s) :
    ¬ Exited s ∧
    (∀ t, step w s .main = some t → t.point = .clearRestart → s.requestsAtLoad < s.requests) ∧
    ∀ (t : Loop σ) (post : List (Label σ)) (u : Loop σ), step w s .request = some t →
      (∀ l ∈ post, Quiet l) → exec (step w) t post = some u → 9 < post.countP isMain →
      ∃ a b m r, post = a ++ .main :: b ∧ exec (step w) t a = some m ∧
        m.point = .reloadPending ∧ step w m .main = some r ∧
        r.loads = m.loads ++ [staged t.store a] := by
  have hs := serving_exec (serving_initial store) hquiet hrun
  refine ⟨hs.alive, ?_, ?_⟩
  · intro t ht hclear
    have hp := point_of_clearRestart ht hclear
    exact hs.requested (hs.closing (by simp [hp, Point.closing]))
  · intro t post u hrequest hpost hexec hticks
    have ht : Serving t := serving_step hs (l := .request) trivial hrequest
    have hup : t.point.poolUp = true ∧ t.restartRequested = true := by
      obtain ⟨hup, rfl⟩ := step_request hrequest
      exact ⟨hs.pool.symm.trans hup, rfl⟩
    have hrank : t.point.untilReload < post.countP isMain :=
      Nat.lt_of_le_of_lt (Point.untilReload_le_of_poolUp hup.1) hticks
    obtain ⟨a, l, b, m, rfl, ham, ⟨hp, rfl⟩, hno⟩ :=
      exec_response (fun h hl hstep => served_step h hl hstep) ⟨ht, .inl hup.2⟩ hpost hexec hrank
    have hfirst : t.point ≠ .loadPending := fun hp => by simp [hp, Point.poolUp] at hup
    have hstore := store_exec hfirst
      (fun k hk => hpost k (List.mem_append_left _ hk)) hno ham
    refine ⟨a, b, m, { loadPendingOverride w m with point := .writePidFile }, rfl, ham, hp,
      by simp only [step, mainStep, hp], ?_⟩
    rw [← hstore]
    rfl

/-- The theorem on a run: the daemon polls, a worker stages `7` and requests a
reload, and the main thread's tenth step reads it. -/
theorem reload_requests_served_polling :
    ∃ a b m r, .stage 7 :: List.replicate 10 .main = a ++ Label.main :: b ∧
      exec (step ⟨id, true⟩) (requestRestart
        { initial 0 with
          point := .poll, running := true, nodeSet := true, updateActor := true,
          poolRunning := true, startups := 1, loads := [0] }) a = some m ∧
      m.point = .reloadPending ∧ step ⟨id, true⟩ m .main = some r ∧
      r.loads = m.loads ++ [staged 0 a] :=
  (reload_requests_served ⟨id, true⟩ 0 (by decide : ∀ l ∈ List.replicate 8 (Label.main), Quiet l)
    rfl).2.2 _ _ _ rfl (by decide) rfl (by decide)

/-! ## When a stop request is honoured -/

/-- The main thread will begin a `_startup` without asking any flag again. -/
def Point.committed : Point → Bool
  | .loadPending | .clearRestart | .reloadPending | .writePidFile | .startup => true
  | _ => false

/-- **The condition under which a stop is honoured**, on the state before a step:
SIGINT and SIGTERM arrive only while no reload is requested or under way, and no
reload is requested once one of them has been handled. -/
def Honoured (s : Loop σ) : Label σ → Prop
  | .signal sig => sig = .sighup ∨ (s.restartRequested = false ∧ s.point.committed = false)
  | .request => s.stopHandled = false
  | .main | .mainFails | .scmStop | .stage _ => True

instance (s : Loop σ) (l : Label σ) : Decidable (Honoured s l) :=
  match l with
  | .signal sig =>
    inferInstanceAs (Decidable (sig = .sighup ∨
      (s.restartRequested = false ∧ s.point.committed = false)))
  | .request => inferInstanceAs (Decidable (s.stopHandled = false))
  | .main | .mainFails | .scmStop | .stage _ => .isTrue trivial

section Handler
variable (sig : Signal) (s : Loop σ)

/-- The handler touches `running` only. -/
theorem signalHandler_cases :
    signalHandler sig s = s ∨ signalHandler sig s = { s with running := false } := by
  unfold signalHandler
  split
  · exact .inl rfl
  · split
    · exact .inr rfl
    · exact .inl rfl

@[simp] theorem signalHandler_restartRequested :
    (signalHandler sig s).restartRequested = s.restartRequested := by
  rcases signalHandler_cases sig s with h | h <;> rw [h]

@[simp] theorem signalHandler_point : (signalHandler sig s).point = s.point := by
  rcases signalHandler_cases sig s with h | h <;> rw [h]

@[simp] theorem signalHandler_startups : (signalHandler sig s).startups = s.startups := by
  rcases signalHandler_cases sig s with h | h <;> rw [h]

end Handler

/-- A stop has been handled after `n` start-ups, and the loop is on its way out of the cycle it
was handled in: no reload is requested, and none has been committed to, so that no further
`_startup` can come. -/
structure Stopping (n : Nat) (s : Loop σ) : Prop where
  handled : s.stopHandled = true
  unrequested : s.restartRequested = false
  uncommitted : s.point.committed = false
  startups : s.startups = n

theorem stopping_mainStep {w : Platform σ} {n : Nat} {s t : Loop σ} (hs : Stopping n s)
    (h : mainStep w s = some t) : Stopping n t := by
  obtain ⟨hhandled, hreq, hcom, hn⟩ := hs
  cases hp : s.point with
  | testRestart =>
    -- the flag is clear, so the loop breaks here
    simp only [mainStep, hp] at h
    rw [if_neg (by simp [hreq])] at h
    cases h
    exact ⟨hhandled, hreq, rfl, hn⟩
  | poll =>
    simp only [mainStep, hp] at h
    split at h <;> cases h
    · exact ⟨hhandled, hreq, hcom, hn⟩
    · exact ⟨hhandled, hreq, rfl, hn⟩
  | exited code => simp [mainStep, hp] at h
  | loadPending | clearRestart | reloadPending | writePidFile | startup =>
    simp [hp, Point.committed] at hcom
  | poolStart | storeRunning | transports | installHandlers | startListening | poolStop | destroy =>
    simp only [mainStep, hp, Option.some.injEq] at h
    subst h
    exact ⟨hhandled, hreq, rfl, hn⟩

theorem stopping_step {w : Platform σ} {n : Nat} {s t : Loop σ} {l : Label σ} (hs : Stopping n s)
    (hl : Honoured s l) (h : step w s l = some t) : Stopping n t := by
  cases l with
  | main => exact stopping_mainStep hs h
  | mainFails =>
    simp only [step] at h
    cases hp : s.point <;> simp only [mainFailure, hp, Option.some.injEq, reduceCtorEq] at h <;>
      subst h <;> exact ⟨hs.handled, hs.unrequested, rfl, hs.startups⟩
  | signal sig =>
    simp only [step] at h
    split at h
    · cases h
      exact ⟨by simp [hs.handled], by simpa using hs.unrequested, by simpa using hs.uncommitted,
        by simpa using hs.startups⟩
    · cases h
  | scmStop =>
    simp only [step] at h
    split at h
    · cases h
      exact ⟨hs.handled, hs.unrequested, hs.uncommitted, hs.startups⟩
    · cases h
  | request =>
    have : s.stopHandled = false := hl
    simp [hs.handled] at this
  | stage content =>
    cases h
    exact ⟨hs.handled, hs.unrequested, hs.uncommitted, hs.startups⟩

/-- **A stop request is honoured when it does not meet a reload.**  In every run whose steps all
satisfy `Honoured`, once a SIGINT or SIGTERM has been handled the process never begins another
`_startup`.  When the handler returns the loop is on its way out of its cycle (`Stopping`): no
reload is requested, and none has been committed to.  Every step that is honoured keeps this, with
the number of start-ups there have been. -/
theorem stop_honoured (w : Platform σ) (store : σ) {pre post : List (Label σ)} {sig : Signal}
    {s t u : Loop σ} (hsig : sig ≠ .sighup)
    (hok : Meets (step w) Honoured (initial store) (pre ++ .signal sig :: post))
    (hpre : exec (step w) (initial store) pre = some s) (hsignal : step w s (.signal sig) = some t)
    (hpost : exec (step w) t post = some u) : u.startups = t.startups := by
  have hmeets := meets_append hok hpre
  have ht : Stopping t.startups t := by
    have hh : s.restartRequested = false ∧ s.point.committed = false := hmeets.1.resolve_left hsig
    simp only [step] at hsignal
    split at hsignal
    · rename_i hset
      cases hsignal
      have : signalHandler sig s = { s with running := false } := by
        simp [signalHandler, hsig, hset.1]
      rw [this]
      exact ⟨by simp [hsig], hh.1, hh.2, rfl⟩
    · cases hsignal
  exact (exec_invariant_of_meets (fun hs hl h => stopping_step hs hl h) ht (hmeets.tail hsignal)
    hpost).startups

/-- The theorem on a run: SIGTERM arrives while the daemon polls, and the process
exits. -/
theorem stop_honoured_polling :
    ∃ u, exec (step ⟨id, true⟩) (initial ())
        (List.replicate 8 .main ++ .signal .sigterm :: List.replicate 4 .main) = some u ∧
      u.point = .exited 0 ∧ u.startups = 1 :=
  ⟨_, rfl, rfl, @stop_honoured _ ⟨id, true⟩ () (List.replicate 8 .main) (List.replicate 4 .main)
    .sigterm _ _ _ (by decide) (by decide) rfl rfl rfl⟩

/-- **A stop request is overridden by a reload.**  A worker requests a reload
while the daemon polls, and SIGTERM is handled before the main thread looks: the
handler stores `running = 0`, but the loop goes round and begins a second
`_startup`. -/
theorem stop_overridden_by_reload :
    ∃ s t u, exec (step ⟨id, true⟩) (initial ()) (List.replicate 8 .main ++ [.request]) = some s ∧
      step ⟨id, true⟩ s (.signal .sigterm) = some t ∧ t.running = false ∧ t.startups = 1 ∧
      exec (step ⟨id, true⟩) t (List.replicate 8 .main) = some u ∧ u.startups = 2 :=
  ⟨_, _, _, rfl, rfl, rfl, rfl, rfl, rfl⟩

end Offs.RestartLoop
