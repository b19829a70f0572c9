import OffsProof.StartupCleanup
import Mathlib.Data.List.Perm.Basic

/-! # Shutting down and going round again

`_run_offsd` runs in cycles: a start, the daemon's work, a shutdown, and another cycle if a
reload has been requested.  The arguments are the same in every cycle, but for the certificate
paths a start adopts; the override comes from the pending store.

`_shutdown` is written by hand, 300 lines after `_startup`, with a destroy call for every
component that exists.  Nothing is destroyed before a component that was given it, when it was
created or later (`Given`), and nothing outlives its cycle (`shutdown_mirrors_startup`).

The order of `_shutdown` is a fixed list, from which the components that do not exist are left
out.  That nothing in it comes before what outlives it is a property of the list alone and is
checked by running it; what a server has been put together from, with whom each component was
given, is an invariant of `_startup` (`Assembled`), kept part by part.  The two together are one
shutdown (`Assembled.mirrors`).

Over the cycles, what is alive is followed through the events: a cycle that is served leaves
nothing, and so does one whose start fails after its create calls have succeeded (`Tidy`), so
that each cycle begins with nothing alive.  The watchdog that `_shutdown` arms has a module of
its own.
-/
namespace Offs.Startup
open CText Daemon Teardown

/-! ## `_shutdown` -/

/-- What `_shutdown` does. -/
inductive ShutdownCall
  | stop (c : Component)
  | stopMdns
  | stopPeerBook
  | savePeers
  /-- `ATOMIC_STORE(&server->network->running, 0)` -/
  | clearNetworkRunning
  | shutdownConnections
  | destroy (c : Component)
  /-- `g_update_actor = NULL` -/
  | clearUpdateActor
  /-- `free` of a string of the configuration. -/
  | free (m : Member) (p : Pointer)
  | removePidFile

namespace Server

def stopCalls (s : Server) (c : Component) : List ShutdownCall :=
  if s.alive c then [.stop c] else []

def destroyCalls (s : Server) (c : Component) : List ShutdownCall :=
  if s.alive c then
    .destroy c :: if c = .updateActor then [.clearUpdateActor] else []
  else []

end Server

/-- The destroy calls of `_shutdown`, in order. -/
def shutdownOrder : List Component :=
  [.unixTransport, .wsTransport, .wtTransport, .wtH3Transport, .httpServer, .network,
    .tupleCache, .ofdCache, .blockCache, .updateActor, .timer, .pool, .authority]

/-- `_shutdown` up to the destroy calls. -/
def stopAll (s : Server) : List ShutdownCall :=
  [.unixTransport, .wsTransport, .wtTransport, .wtH3Transport].flatMap s.stopCalls ++
    (if s.alive .network then
      -- The responder's thread and the peer-book actor read what is saved and shut down next.
      [.stopMdns, .stopPeerBook, .savePeers, .clearNetworkRunning, .shutdownConnections]
    else []) ++
    s.stopCalls .httpServer ++ [.stop .pool]

/-- `_shutdown`. -/
def shutdown (s : Server) : List ShutdownCall :=
  stopAll s ++ shutdownOrder.flatMap s.destroyCalls ++
    s.config.strings.map (fun p => .free p.1 p.2) ++ [.removePidFile]

/-! ## The cycles of `_run_offsd` -/

/-- What a cycle meets. -/
structure Cycle where
  /-- `_write_pid_file` succeeds. -/
  pidFileWritten : Bool
  env : Env
  /-- What `_load_pending_override` has returned. -/
  override : Option (Config Text)
  /-- `g_restart_requested`, after the shutdown. -/
  reload : Bool

/-- How a cycle ends. -/
inductive Outcome
  | noPidFile
  | failed (a : Aborted)
  | served (s : Server) (reload : Bool)

/-- The loop of `_run_offsd`, for as many cycles as are given. -/
def runCycles (args : OffsdArgs) : List Cycle → List Outcome
  | [] => []
  | cycle :: rest =>
    if cycle.pidFileWritten then
      match startup cycle.env args cycle.override with
      | .error a => [.failed a]
      | .ok s => .served s cycle.reload :: if cycle.reload then runCycles s.args rest else []
    else [.noPidFile]

/-- What happens to the components, seen from the whole process. -/
inductive ProcessEvent
  /-- `_startup` begins. -/
  | startup
  | start (e : Event)
  | shutdown (call : ShutdownCall)
  | returned (code : Nat)

def Outcome.trace : Outcome → List ProcessEvent
  | .noPidFile => [.returned 1]
  | .failed a => .startup :: (a.server.log.map .start ++ [.returned 1])
  | .served s reload =>
    .startup :: (s.log.map .start ++ (Startup.shutdown s).map .shutdown ++
      if reload then [] else [.returned 0])

/-- The events of a run. -/
def processTrace (args : OffsdArgs) (cycles : List Cycle) : List ProcessEvent :=
  (runCycles args cycles).flatMap Outcome.trace

namespace ProcessEvent

/-- The components alive after an event, one entry for each that has been created and not
been destroyed. -/
def live (alive : List Component) : ProcessEvent → List Component
  | .start (.create call _) => call.component :: alive
  | .start (.destroy c) | .shutdown (.destroy c) => alive.erase c
  | _ => alive

/-- A start begins, or the process returns. -/
def boundary : ProcessEvent → Bool
  | .startup | .returned _ => true
  | _ => false

end ProcessEvent

def liveAfter (events : List ProcessEvent) : List Component := events.foldl ProcessEvent.live []

/-! ## What a shutdown should do -/

/-- The component `d` was given another one, `c`, when it was created or later.  It may use `c` as
long as it exists, so `c` has to be destroyed after it. -/
def Given (log : List Event) (d c : Component) : Prop :=
  d ≠ c ∧ (Holds log d c ∨ ∃ given, .lend d given ∈ log ∧ c ∈ given)

/-- The HTTP server and the transports. -/
def frontends : List Component :=
  [.httpServer, .wsTransport, .wtTransport, .wtH3Transport, .unixTransport]

def ShutdownCall.destroys : ShutdownCall → Option Component
  | .destroy c => some c
  | _ => none

def ShutdownCall.frees : ShutdownCall → Option (Member × Pointer)
  | .free m p => some (m, p)
  | _ => none

/-- **The shutdown mirrors the start.**  It destroys what the start created, nothing else
and each once; what was given to a component is destroyed after it, and the network after
every frontend; the members of the configuration come last. -/
structure Mirrors (s : Server) : Prop where
  created : ∀ c, c ∈ (shutdown s).filterMap ShutdownCall.destroys → Created s.log c
  components : TearsDown (Created s.log)
    (fun d c => Given s.log d c ∨ (c = .network ∧ d ∈ frontends))
    ((shutdown s).filterMap ShutdownCall.destroys)
  members : (shutdown s).filterMap ShutdownCall.frees = s.config.strings
  last : ∀ before m p rest, shutdown s = before ++ .free m p :: rest →
    rest.filterMap ShutdownCall.destroys = []

/-! ## Servers as they are put together -/

def Event.creates : Event → Option Component
  | .create call _ => some call.component
  | _ => none

/-- The components created, in order. -/
def creations (log : List Event) : List Component := log.filterMap Event.creates

@[simp] theorem creations_append (a b : List Event) :
    creations (a ++ b) = creations a ++ creations b :=
  List.filterMap_append

theorem mem_creations {log : List Event} {c : Component} : c ∈ creations log ↔ Created log c := by
  simp only [creations, List.mem_filterMap]
  constructor
  · rintro ⟨e, he, hc⟩
    cases e with
    | create call given => exact ⟨call, given, he, Option.some.inj hc⟩
    | _ => cases hc
  · rintro ⟨call, given, he, hc⟩
    exact ⟨_, he, congrArg some hc⟩

/-- Whom a component may be handed after its creation, apart from itself. -/
def lends : Component → List Component
  | .httpServer => [.pool, .blockCache, .ofdCache, .tupleCache, .network, .authority, .timer]
  | .wsTransport | .wtTransport | .unixTransport =>
    [.authority, .network, .blockCache, .httpServer, .pool, .timer]
  | _ => []

/-- Neither creates, destroys nor lends. -/
def Event.inert : Event → Bool
  | .lend .. => false
  | e => e.plain

theorem Event.plain_of_inert {e : Event} (h : e.inert) : e.plain := by
  cases e with
  | lend c given => cases h
  | _ => exact h

theorem creations_of_plain {events : List Event} (h : ∀ e ∈ events, e.plain) :
    creations events = [] := by
  refine List.filterMap_eq_nil_iff.mpr fun e he => ?_
  cases e with
  | create call given => exact absurd (h _ he) (by simp [Event.plain])
  | _ => rfl

/-- **A server being put together.**  It has at most the components of `named`, each created once,
and no component was handed more than `lends` allows.  A server on the way up has been given nothing
but what it borrows, so that with this all that a component may point to is known. -/
structure Assembled (named : List Component) (s : Server) : Prop extends Within named s where
  fresh : (creations s.log).Nodup
  lent : ∀ d given, .lend d given ∈ s.log → given ⊆ d :: lends d

namespace Assembled
variable {named : List Component} {s s' : Server}

theorem blank (args : OffsdArgs) : Assembled [] (blank args) where
  toWithin := ⟨Rising.blank args, fun c hc => by cases hc⟩
  fresh := List.nodup_nil
  lent d given hmem := by cases hmem

theorem of_eq (h : Assembled named s) (hlog : s'.log = s.log) (halive : s'.alive = s.alive) :
    Assembled named s' :=
  ⟨h.toWithin.of_eq hlog halive, by rw [hlog]; exact h.fresh, by rw [hlog]; exact h.lent⟩

theorem mono {named' : List Component} (h : Assembled named s) (hsub : named ⊆ named') :
    Assembled named' s :=
  ⟨⟨h.toRising, fun c hc => hsub (h.has c hc)⟩, h.fresh, h.lent⟩

theorem emit (h : Assembled named s) {events : List Event} (hinert : ∀ e ∈ events, e.inert) :
    Assembled named (s.emit events) := by
  have hplain : ∀ e ∈ events, e.plain := fun e he => Event.plain_of_inert (hinert e he)
  refine ⟨h.toWithin.emit hplain, ?_, fun d given hmem => ?_⟩
  · simpa [Server.emit, creations_of_plain hplain] using h.fresh
  · rcases List.mem_append.mp hmem with hmem | hmem
    · exact h.lent d given hmem
    · exact absurd (hinert _ hmem) (by simp [Event.inert])

theorem lend (h : Assembled named s) {d : Component} {given : List Component}
    (hgiven : given ⊆ d :: lends d) : Assembled named (s.lend d given) := by
  have hplain : ∀ e ∈ [Event.lend d (given.filter s.alive)], e.plain := by simp [Event.plain]
  refine ⟨h.toWithin.emit hplain, ?_, fun d' given' hmem => ?_⟩
  · simpa [Server.lend, Server.emit, creations_of_plain hplain] using h.fresh
  · rcases List.mem_append.mp hmem with hmem | hmem
    · exact h.lent d' given' hmem
    · cases List.mem_singleton.mp hmem
      exact fun c hc => hgiven (List.mem_of_mem_filter hc)

theorem add (h : Assembled named s) {call : Creation} {given : List Component}
    (hnew : call.component ∉ named) (hgiven : given ⊆ borrows call.component) :
    Assembled (call.component :: named) (s.add call given) := by
  refine ⟨h.toWithin.add hgiven, ?_, fun d given' hmem => ?_⟩
  · -- A component that is not there yet has not been created before.
    have hdead : call.component ∉ creations s.log := fun hmem =>
      hnew (h.has _ ((h.created_iff _).mp (mem_creations.mp hmem)))
    rw [Server.add, creations_append]
    refine List.nodup_append.mpr ⟨h.fresh, List.nodup_singleton _, ?_⟩
    rintro c hc d hd rfl
    cases List.mem_singleton.mp hd
    exact hdead hc
  · rcases List.mem_append.mp hmem with hmem | hmem
    · exact h.lent d given' hmem
    · cases List.mem_singleton.mp hmem

/-- Nothing is given that `borrows` and `lends` do not name. -/
theorem given_mem (h : Assembled named s) {d c : Component} (hgiven : Given s.log d c) :
    c ∈ borrows d ++ lends d := by
  obtain ⟨hne, ⟨call, given, hmem, rfl, hc⟩ | ⟨given, hmem, hc⟩⟩ := hgiven
  · exact List.mem_append_left _ (h.given call given hmem hc)
  · rcases List.mem_cons.mp (h.lent d given hmem hc) with rfl | hlent
    · exact absurd rfl hne
    · exact List.mem_append_right _ hlent

end Assembled

/-! ## One shutdown -/

theorem destroys_destroyCalls (s : Server) (order : List Component) :
    (order.flatMap s.destroyCalls).filterMap ShutdownCall.destroys = order.filter s.alive := by
  induction order with
  | nil => rfl
  | cons c order ih =>
    rw [List.flatMap_cons, List.filterMap_append, ih]
    by_cases halive : s.alive c
    · have hcalls : (s.destroyCalls c).filterMap ShutdownCall.destroys = [c] := by
        unfold Server.destroyCalls
        rw [if_pos halive]
        split <;> rfl
      rw [hcalls, List.filter_cons_of_pos halive]
      rfl
    · simp [Server.destroyCalls, halive]

theorem frees_destroyCalls (s : Server) (order : List Component) :
    (order.flatMap s.destroyCalls).filterMap ShutdownCall.frees = [] := by
  refine List.filterMap_eq_nil_iff.mpr fun call hcall => ?_
  obtain ⟨c, -, hc⟩ := List.mem_flatMap.mp hcall
  unfold Server.destroyCalls at hc
  split at hc
  · rcases List.mem_cons.mp hc with rfl | hc
    · rfl
    · split at hc
      · cases List.mem_singleton.mp hc
        rfl
      · cases hc
  · cases hc

theorem stopAll_neither (s : Server) {call : ShutdownCall} (hcall : call ∈ stopAll s) :
    call.destroys = none ∧ call.frees = none := by
  simp only [stopAll, List.flatMap_cons, List.flatMap_nil, List.append_assoc, List.mem_append,
    Server.stopCalls] at hcall
  rcases hcall with hcall | hcall | hcall | hcall | hcall | hcall | hcall | hcall
  all_goals grind [ShutdownCall.destroys, ShutdownCall.frees]

theorem destroys_members (s : Server) :
    (s.config.strings.map fun p => ShutdownCall.free p.1 p.2).filterMap ShutdownCall.destroys =
      [] := by
  simp [List.filterMap_map, Function.comp_def, ShutdownCall.destroys]

/-- **What a shutdown destroys**: the components that exist, in its own order. -/
theorem destroys_shutdown (s : Server) :
    (shutdown s).filterMap ShutdownCall.destroys = shutdownOrder.filter s.alive := by
  have hstop : (stopAll s).filterMap ShutdownCall.destroys = [] :=
    List.filterMap_eq_nil_iff.mpr fun _ hcall => (stopAll_neither s hcall).1
  rw [shutdown, List.filterMap_append, List.filterMap_append, List.filterMap_append, hstop,
    destroys_destroyCalls, destroys_members]
  simp [ShutdownCall.destroys]

theorem frees_shutdown (s : Server) :
    (shutdown s).filterMap ShutdownCall.frees = s.config.strings := by
  have hstop : (stopAll s).filterMap ShutdownCall.frees = [] :=
    List.filterMap_eq_nil_iff.mpr fun _ hcall => (stopAll_neither s hcall).2
  rw [shutdown, List.filterMap_append, List.filterMap_append, List.filterMap_append, hstop,
    frees_destroyCalls]
  simp [List.filterMap_map, Function.comp_def, ShutdownCall.frees]

/-- An element of `a ++ b` stands in `a` or in `b`. -/
theorem split_append {α : Type} {a b before rest : List α} {e : α}
    (h : a ++ b = before ++ e :: rest) :
    (∃ rest', a = before ++ e :: rest' ∧ rest = rest' ++ b) ∨
      ∃ before', before = a ++ before' ∧ b = before' ++ e :: rest := by
  rcases List.append_eq_append_iff.mp h with ⟨before', hbefore, hb⟩ | ⟨rest', ha, hrest⟩
  · exact .inr ⟨before', hbefore, hb⟩
  · rcases List.cons_eq_append_iff.mp hrest with ⟨rfl, hb⟩ | ⟨rest'', rfl, -⟩
    · exact .inr ⟨[], by simpa using ha.symm, by simpa using hb⟩
    · exact .inl ⟨rest'', ha, by simpa using hrest⟩

/-- No destroy call follows the release of a member. -/
theorem destroys_after_free {s : Server} {before rest : List ShutdownCall} {m : Member}
    {p : Pointer} (h : shutdown s = before ++ .free m p :: rest) :
    rest.filterMap ShutdownCall.destroys = [] := by
  rw [shutdown, List.append_assoc] at h
  rcases split_append h with ⟨rest', hdown, -⟩ | ⟨before', -, htail⟩
  · -- The calls before the members release nothing.
    have hmem : .free m p ∈ stopAll s ++ shutdownOrder.flatMap s.destroyCalls := by simp [hdown]
    rcases List.mem_append.mp hmem with hmem | hmem
    · cases (stopAll_neither s hmem).2
    · cases List.filterMap_eq_nil_iff.mp (frees_destroyCalls s shutdownOrder) _ hmem
  · have hnone : (before' ++ .free m p :: rest).filterMap ShutdownCall.destroys = [] := by
      rw [← htail, List.filterMap_append, destroys_members]
      rfl
    rw [List.filterMap_append, List.append_eq_nil_iff] at hnone
    exact hnone.2

/-- What a component must not outlive: all it may have been given, and for a frontend the
network. -/
def outlivedBy (d : Component) : List Component :=
  borrows d ++ lends d ++ if d ∈ frontends then [.network] else []

theorem not_mem_outlivedBy_self (c : Component) : c ∉ outlivedBy c := by
  cases c <;> decide

/-- **One cycle.**  Whatever a start has put together, the shutdown takes apart in order. -/
theorem Assembled.mirrors {s : Server} (h : Assembled shutdownOrder s) : Mirrors s where
  created c hc := by
    rw [destroys_shutdown] at hc
    exact (h.created_iff c).mpr (List.mem_filter.mp hc).2
  components := by
    rw [destroys_shutdown]
    refine tearsDown_filter ?_ not_mem_outlivedBy_self h.created_iff h.has ?_
    · show InOrder (fun d c => c ∈ outlivedBy d) shutdownOrder
      decide
    · rintro c d (hgiven | ⟨rfl, hfront⟩)
      · exact List.mem_append_left _ (h.given_mem hgiven)
      · exact List.mem_append_right _ (by simp [hfront])
  members := frees_shutdown s
  last _ _ _ _ hsplit := destroys_after_free hsplit

/-! ## What is alive -/

theorem foldl_live_start_of_intact {log : List Event} (h : destroyed log = [])
    (alive : List Component) :
    (log.map .start).foldl ProcessEvent.live alive = (creations log).reverse ++ alive := by
  induction log generalizing alive with
  | nil => rfl
  | cons e log ih =>
    have hlog : destroyed log = [] := by
      rw [destroyed, List.filterMap_eq_nil_iff] at h ⊢
      exact fun e he => h e (List.mem_cons_of_mem _ he)
    rw [List.map_cons, List.foldl_cons, ih hlog]
    cases e with
    | create call given => simp [ProcessEvent.live, creations, Event.creates]
    | destroy c => cases List.filterMap_eq_nil_iff.mp h _ List.mem_cons_self
    | _ => rfl

theorem foldl_live_start_of_closing {calls : List Event} (h : creations calls = [])
    (alive : List Component) :
    (calls.map .start).foldl ProcessEvent.live alive = alive.diff (destroyed calls) := by
  induction calls generalizing alive with
  | nil => rfl
  | cons e calls ih =>
    have hcalls : creations calls = [] := by
      rw [creations, List.filterMap_eq_nil_iff] at h ⊢
      exact fun e he => h e (List.mem_cons_of_mem _ he)
    rw [List.map_cons, List.foldl_cons, ih hcalls]
    cases e with
    | create call given => cases List.filterMap_eq_nil_iff.mp h _ List.mem_cons_self
    | destroy c => exact (List.diff_cons _ _ _).symm
    | _ => rfl

theorem foldl_live_shutdown (calls : List ShutdownCall) (alive : List Component) :
    (calls.map .shutdown).foldl ProcessEvent.live alive =
      alive.diff (calls.filterMap ShutdownCall.destroys) := by
  induction calls generalizing alive with
  | nil => rfl
  | cons call calls ih =>
    rw [List.map_cons, List.foldl_cons, ih]
    cases call with
    | destroy c => exact (List.diff_cons _ _ _).symm
    | _ => rfl

namespace Assembled
variable {named order : List Component} {s : Server}

/-- Destroying all that exist, in any order, leaves nothing alive. -/
theorem diff_eq_nil (h : Assembled named s) (hnamed : named ⊆ order) :
    ((creations s.log).reverse ++ []).diff (order.filter s.alive) = [] := by
  have hnodup : ((creations s.log).reverse ++ []).Nodup := by simpa using h.fresh
  refine List.eq_nil_iff_forall_not_mem.mpr fun c hc => ?_
  obtain ⟨hcreated, hnot⟩ := hnodup.mem_sdiff_iff.mp hc
  have halive : s.alive c := (h.created_iff c).mp (mem_creations.mp (by simpa using hcreated))
  exact hnot (List.mem_filter.mpr ⟨hnamed (h.has c halive), halive⟩)

/-- Nothing is alive after a shutdown. -/
theorem live_shutdown (h : Assembled shutdownOrder s) :
    liveAfter (s.log.map .start ++ (shutdown s).map .shutdown) = [] := by
  rw [liveAfter, List.foldl_append, foldl_live_start_of_intact h.intact, foldl_live_shutdown,
    destroys_shutdown]
  exact h.diff_eq_nil (List.Subset.refl _)

/-- Nothing is alive after a failure path that names all that may exist. -/
theorem live_abort (h : Assembled named s) {step : Step} {calls : List Event}
    (hcalls : creations calls = []) (hnamed : named ⊆ destroyed calls) :
    liveAfter ((s.abort step calls).server.log.map .start) = [] := by
  have hfilter : creations (calls.filter s.effective) = [] := by
    rw [creations, List.filterMap_eq_nil_iff] at hcalls ⊢
    exact fun e he => hcalls e (List.mem_of_mem_filter he)
  rw [liveAfter, Server.abort, Server.emit, List.map_append, List.foldl_append,
    foldl_live_start_of_intact h.intact, foldl_live_start_of_closing hfilter, destroyed_effective]
  exact h.diff_eq_nil hnamed

end Assembled

/-! ## Starts whose create calls succeed -/

section Parts
variable {env : Env} {override : Option (Config Text)} {named : List Component} {s : Server}

/-- A failed start that leaves nothing alive. -/
def Emptied (a : Aborted) : Prop := liveAfter (a.server.log.map .start) = []

theorem Server.create_of_ok (hcreate : ∀ c, env.ok (.create c) = true) (call : Creation)
    (given : List Component) : s.create env call given = some (s.add call given) := by
  rcases Server.create_cases env s call given with ⟨hok, -⟩ | ⟨-, h⟩
  · exact absurd ((hcreate _).symm.trans hok) (by decide)
  · exact h

theorem creations_releaseOverride : creations (releaseOverride override) = [] :=
  creations_of_plain fun _ he => (releaseOverride_plain he).1

theorem ensureDir_assembled (h : Assembled [] s) {f : TextField} {step : Step} :
    Ends (Assembled []) Emptied (ensureDir env f step override s) := by
  unfold ensureDir
  split
  · exact h.live_abort creations_releaseOverride (List.nil_subset _)
  · exact h

theorem createPool_assembled (hcreate : ∀ c, env.ok (.create c) = true) (h : Assembled [] s) :
    Ends (Assembled [.pool]) Emptied (createPool env override s) := by
  have hadd := @Assembled.add _ _ h (.schedulerPool s.args.workerCount) [] List.not_mem_nil
    (List.nil_subset _)
  unfold createPool
  rw [Server.create_of_ok hcreate]
  exact hadd.emit (by simp [Event.inert, Event.plain])

theorem Assembled.createUnchecked (h : Assembled named s) {call : Creation}
    {given : List Component} (hnew : call.component ∉ named)
    (hgiven : given ⊆ borrows call.component) :
    Assembled (call.component :: named) (s.createUnchecked env call given) := by
  rcases Server.createUnchecked_cases env s call given with heq | heq
  · rw [heq]
    exact h.mono (List.subset_cons_self _ _)
  · rw [heq]
    exact h.add hnew hgiven

theorem takeConfig_assembled (h : Assembled [.pool] s) :
    Assembled [.timer, .pool] (takeConfig env override s) := by
  have htimer := @Assembled.createUnchecked env _ _ h .timerActor [.pool] (by decide) (by decide)
  unfold takeConfig
  dsimp only
  refine Assembled.emit ?_ ?_
  · exact htimer.of_eq rfl rfl
  · split <;> simp [Event.inert, Event.plain]

theorem Assembled.freeMember (h : Assembled named s) (m : Member) (p : Option Pointer) :
    Assembled named (s.freeMember m p) := by
  refine h.emit fun e he => ?_
  obtain ⟨q, -, rfl⟩ := List.mem_map.mp he
  rfl

/-- The failure path of the steps before the authority. -/
theorem Assembled.emptied_timerAndPool (h : Assembled [.timer, .pool] s) {step : Step} :
    Emptied (s.abort step timerAndPool) :=
  h.live_abort rfl (by decide)

theorem overrideBootstrap_assembled (h : Assembled [.timer, .pool] s) :
    Ends (Assembled [.timer, .pool]) Emptied (overrideBootstrap env s) := by
  unfold overrideBootstrap
  split
  · exact h
  · have hfreed := h.freeMember .bootstrapPeers s.config.bootstrapPeers
    dsimp only
    split
    · exact hfreed.of_eq rfl rfl
    · refine Assembled.emptied_timerAndPool ?_
      exact hfreed.of_eq rfl rfl

theorem plaintextKey_emptied (h : Assembled [.timer, .pool] s) :
    Ends (fun _ => True) Emptied (plaintextKey env s) := by
  unfold plaintextKey
  split
  all_goals
    split
    · trivial
    · exact h.emptied_timerAndPool

theorem storeApiKey_assembled (h : Assembled [.timer, .pool] s) :
    Ends (Assembled [.timer, .pool]) Emptied (storeApiKey env s) := by
  have hkey := @plaintextKey_emptied env s h
  have hfreed := h.freeMember .apiKeyHash s.config.apiKeyHash
  unfold storeApiKey
  split
  · rename_i a ha
    rw [ha] at hkey
    exact hkey
  · split
    · dsimp only
      split
      · exact hfreed.of_eq rfl rfl
      · refine Assembled.emptied_timerAndPool ?_
        exact hfreed.of_eq rfl rfl
    · exact h.emptied_timerAndPool

theorem createAuthority_assembled (hcreate : ∀ c, env.ok (.create c) = true)
    (h : Assembled [.timer, .pool] s) :
    Ends (Assembled [.authority, .timer, .pool]) Emptied (createAuthority env s) := by
  have hnew : .authority ∉ [Component.timer, .pool] := by decide
  unfold createAuthority
  rw [Server.create_of_ok hcreate]
  exact @Assembled.add _ _ h (.authority s.config) [] hnew (List.nil_subset _)

/-- The components of the store, and those of the caches. -/
def storeComponents : List Component := [.blockCache, .authority, .timer, .pool]

def cacheComponents : List Component := [.tupleCache, .ofdCache] ++ storeComponents

theorem createBlockCache_assembled (hcreate : ∀ c, env.ok (.create c) = true)
    (h : Assembled [.authority, .timer, .pool] s) :
    Ends (Assembled storeComponents) Emptied (createBlockCache env s) := by
  have hnew : .blockCache ∉ [Component.authority, .timer, .pool] := by decide
  have hgiven : [.timer, .pool, .authority] ⊆ borrows .blockCache := by decide
  have hadd := @Assembled.add _ _ h
    (.blockCache s.config (s.args.text .cacheDir) s.config.maxCapacityBytes) _ hnew hgiven
  unfold createBlockCache
  rw [Server.create_of_ok hcreate]
  exact hadd.emit (by simp [Event.inert, Event.plain])

theorem bringUpStore_assembled (hcreate : ∀ c, env.ok (.create c) = true) (args : OffsdArgs) :
    Ends (Assembled storeComponents) Emptied (bringUpStore env override args) := by
  unfold bringUpStore
  refine Ends.bind (ensureDir_assembled (Assembled.blank args)) fun s h => ?_
  refine Ends.bind (ensureDir_assembled h) fun s h => ?_
  refine Ends.bind (createPool_assembled hcreate h) fun s h => ?_
  refine Ends.bind (overrideBootstrap_assembled (takeConfig_assembled h)) fun s h => ?_
  refine Ends.bind (storeApiKey_assembled h) fun s h => ?_
  refine Ends.bind (createAuthority_assembled hcreate h) fun s h => ?_
  exact createBlockCache_assembled hcreate h

theorem createCaches_assembled (h : Assembled storeComponents s) :
    Assembled cacheComponents (createCaches env s) := by
  have hofd := @Assembled.createUnchecked env _ _ h (.ofdCache 300000) [.pool, .blockCache]
    (by decide) (by decide)
  exact @Assembled.createUnchecked env _ _ hofd (.tupleCache 100) [.pool] (by decide) (by decide)

theorem createHttpServer_assembled (hcreate : ∀ c, env.ok (.create c) = true)
    (h : Assembled cacheComponents s) :
    Ends (Assembled (.httpServer :: cacheComponents)) Emptied (createHttpServer env s) := by
  have hnew : .httpServer ∉ cacheComponents := by decide
  have hgiven : [.pool] ⊆ borrows .httpServer := by decide
  have hadd := @Assembled.add _ _ h (.httpServer (s.args.text .host) (s.args.port .port)) _
    hnew hgiven
  unfold createHttpServer
  rw [Server.create_of_ok hcreate]
  split
  · exact h.mono (List.subset_cons_self _ _)
  · exact hadd.emit (by simp [Event.inert, Event.plain])

/-- The failure path of the steps that have a certificate to handle. -/
theorem Assembled.emptied_authorityDown (h : Assembled (.httpServer :: cacheComponents) s)
    {step : Step} : Emptied (s.abort step authorityDown) :=
  h.live_abort rfl (by decide)

theorem loadCaCert_assembled (h : Assembled (.httpServer :: cacheComponents) s) :
    Ends (Assembled (.httpServer :: cacheComponents)) Emptied (loadCaCert env s) := by
  unfold loadCaCert
  split
  · exact h.emptied_authorityDown
  · exact h

theorem ensureCert_assembled (h : Assembled named s) {cert key : Text} :
    Assembled named (ensureCert env s cert key) := by
  unfold ensureCert
  split
  · exact h
  · exact h.emit (by simp [Event.inert, Event.plain])

theorem adoptNodeCert_assembled (h : Assembled named s) :
    Assembled named (adoptNodeCert env s) := by
  unfold adoptNodeCert
  split
  · split
    · exact (ensureCert_assembled h).of_eq rfl rfl
    · exact h
  · exact ensureCert_assembled h
  · exact h

theorem copyNodePaths_assembled (h : Assembled (.httpServer :: cacheComponents) s) :
    Ends (Assembled (.httpServer :: cacheComponents)) Emptied (copyNodePaths env s) := by
  unfold copyNodePaths
  split
  · exact h.emptied_authorityDown
  · dsimp only
    split
    · refine Assembled.emptied_authorityDown ?_
      exact h.of_eq rfl rfl
    · exact h.of_eq rfl rfl

/-- All but the transports and the update actor. -/
def innerComponents : List Component := [.network, .httpServer] ++ cacheComponents

theorem createNetwork_assembled (hcreate : ∀ c, env.ok (.create c) = true)
    (h : Assembled (.httpServer :: cacheComponents) s) :
    Ends (Assembled innerComponents) Emptied (createNetwork env s) := by
  have hnew : .network ∉ .httpServer :: cacheComponents := by decide
  have hgiven : [.authority, .blockCache, .timer, .pool] ⊆ borrows .network := by decide
  unfold createNetwork
  dsimp only
  rw [Server.create_of_ok hcreate]
  refine @Assembled.add _ _ ?_ (.network _) _ hnew hgiven
  exact h.emit (by simp [Event.inert, Event.plain])

theorem registerRoutes_assembled (h : Assembled named s) :
    Assembled named (registerRoutes env s) := by
  have hoff : [.pool, .blockCache, .ofdCache, .tupleCache, .network] ⊆
      .httpServer :: lends .httpServer := by decide
  have hblock : [.pool, .blockCache] ⊆ .httpServer :: lends .httpServer := by decide
  have hhealth : [.blockCache] ⊆ .httpServer :: lends .httpServer := by decide
  -- The node points back to the HTTP server it is lent to.
  have hnode : nodeComponents ⊆ .httpServer :: lends .httpServer := by decide
  unfold registerRoutes
  split
  · have hauth : Assembled named (s.emit (if env.ok .softAuth then
        s.config.apiKeyHash.toList.map fun p => .useSoftAuth p.text else [])) :=
      h.emit (by split <;> simp [Event.inert, Event.plain])
    exact ((((hauth.lend hoff).lend hblock).lend hhealth).lend hnode).lend hnode
  · exact h

theorem createTransport_assembled (hcreate : ∀ c, env.ok (.create c) = true)
    (h : Assembled named s) {enabled : Bool} {call : Creation} {earlier : List Component}
    (hnew : call.component ∉ named)
    (hgiven : borrows call.component = [.pool, .blockCache, .ofdCache, .tupleCache]) :
    Ends (Assembled (call.component :: named)) Emptied
      (createTransport env enabled call earlier s) := by
  unfold createTransport
  rw [Server.create_of_ok hcreate]
  split
  · exact h.add hnew fun c hc => hgiven ▸ hc
  · exact h.mono (List.subset_cons_self _ _)

theorem lendNode_assembled {r : Except Aborted Server} {c : Component}
    (hlends : nodeComponents ⊆ c :: lends c) (hr : Ends (Assembled named) Emptied r) :
    Ends (Assembled named) Emptied (r.map (lendNode c)) := by
  cases r with
  | error a => exact hr
  | ok s =>
    show Assembled named (lendNode c s)
    unfold lendNode
    split
    · exact hr.lend hlends
    · exact hr

theorem createWsTransport_assembled (hcreate : ∀ c, env.ok (.create c) = true)
    (h : Assembled innerComponents s) :
    Ends (Assembled (.wsTransport :: innerComponents)) Emptied (createWsTransport env s) := by
  have hnew : .wsTransport ∉ innerComponents := by decide
  have hlends : nodeComponents ⊆ .wsTransport :: lends .wsTransport := by decide
  exact lendNode_assembled hlends (createTransport_assembled hcreate h hnew rfl)

theorem createWtTransport_assembled (hcreate : ∀ c, env.ok (.create c) = true)
    (h : Assembled (.wsTransport :: innerComponents) s) :
    Ends (Assembled (.wtTransport :: .wsTransport :: innerComponents)) Emptied
      (createWtTransport env s) := by
  have hnew : .wtTransport ∉ .wsTransport :: innerComponents := by decide
  have hlends : nodeComponents ⊆ .wtTransport :: lends .wtTransport := by decide
  exact lendNode_assembled hlends (createTransport_assembled hcreate h hnew rfl)

theorem createUnixTransport_assembled (hcreate : ∀ c, env.ok (.create c) = true)
    (hnew : .unixTransport ∉ named) (h : Assembled named s) :
    Ends (Assembled (.unixTransport :: named)) Emptied (createUnixTransport env s) := by
  have hlends : nodeComponents ⊆ .unixTransport :: lends .unixTransport := by decide
  exact lendNode_assembled hlends (createTransport_assembled hcreate h hnew rfl)

theorem bringUpNode_assembled (hcreate : ∀ c, env.ok (.create c) = true)
    (h : Assembled storeComponents s) :
    Ends (Assembled shutdownOrder) Emptied (bringUpNode env s) := by
  have hh3 : .wtH3Transport ∉ .wtTransport :: .wsTransport :: innerComponents := by decide
  have hunix : .unixTransport ∉ .wtH3Transport :: .wtTransport :: .wsTransport :: innerComponents :=
    by decide
  unfold bringUpNode
  refine Ends.bind (createHttpServer_assembled hcreate (createCaches_assembled h)) fun s h => ?_
  refine Ends.bind (loadCaCert_assembled h) fun s h => ?_
  refine Ends.bind (copyNodePaths_assembled (adoptNodeCert_assembled h)) fun s h => ?_
  refine Ends.bind (createNetwork_assembled hcreate h) fun s h => ?_
  refine Ends.bind (createWsTransport_assembled hcreate (registerRoutes_assembled h)) fun s h => ?_
  refine Ends.bind (createWtTransport_assembled hcreate h) fun s h => ?_
  refine Ends.bind (createTransport_assembled hcreate h hh3 rfl) fun s h => ?_
  refine Ends.bind (createUnixTransport_assembled hcreate hunix h) fun s h => ?_
  have hactor := @Assembled.createUnchecked env _ _ h .updateActor [.pool, .timer] (by decide)
    (by decide)
  exact hactor.mono (by decide)

/-- **A start whose create calls succeed** either puts a server together or, when another
step fails, leaves nothing alive. -/
theorem startup_assembled (hcreate : ∀ c, env.ok (.create c) = true) (args : OffsdArgs) :
    Ends (Assembled shutdownOrder) Emptied (startup env args override) :=
  Ends.bind (bringUpStore_assembled hcreate args) fun _ h => bringUpNode_assembled hcreate h

end Parts

/-! ## Every cycle -/

/-- Nothing is alive at the boundaries of a stretch of events that begins with nothing
alive, nor after it. -/
structure Tidy (events : List ProcessEvent) : Prop where
  boundary : ∀ before e rest, events = before ++ e :: rest → e.boundary → liveAfter before = []
  ends : liveAfter events = []

theorem Tidy.append {a b : List ProcessEvent} (ha : Tidy a) (hb : Tidy b) : Tidy (a ++ b) := by
  have hfrom : ∀ c, liveAfter (a ++ c) = liveAfter c := by
    intro c
    have hends := ha.ends
    unfold liveAfter at hends ⊢
    rw [List.foldl_append, hends]
  refine ⟨fun before e rest hsplit he => ?_, by rw [hfrom, hb.ends]⟩
  rcases split_append hsplit with ⟨rest', hsplit, -⟩ | ⟨before', rfl, hlater⟩
  · exact ha.boundary before e rest' hsplit he
  · rw [hfrom]
    exact hb.boundary before' e rest hlater he

theorem Tidy.nil : Tidy [] :=
  ⟨fun before e rest hsplit => by simp at hsplit, rfl⟩

/-- A single event that neither creates nor destroys. -/
theorem tidy_singleton {e : ProcessEvent} (he : e.boundary) : Tidy [e] := by
  refine ⟨fun before e' rest hsplit _ => ?_, ?_⟩
  · rcases List.singleton_eq_append_iff.mp hsplit with ⟨rfl, -⟩ | ⟨-, hnil⟩
    · rfl
    · cases hnil
  · cases e with
    | start | shutdown => cases he
    | startup | returned => rfl

/-- Events between two boundaries. -/
theorem tidy_of_inner {events : List ProcessEvent} (hinner : ∀ e ∈ events, e.boundary = false)
    (hends : liveAfter events = []) : Tidy events := by
  refine ⟨fun before e rest hsplit he => ?_, hends⟩
  have hmem : e ∈ events := by simp [hsplit]
  exact absurd ((hinner e hmem).symm.trans he) (by decide)

theorem tidy_trace_served {s : Server} (h : Assembled shutdownOrder s) (reload : Bool) :
    Tidy (Outcome.served s reload).trace := by
  have hinner : Tidy (s.log.map .start ++ (shutdown s).map .shutdown) := by
    refine tidy_of_inner (fun e he => ?_) h.live_shutdown
    rcases List.mem_append.mp he with he | he
    all_goals
      obtain ⟨x, -, rfl⟩ := List.mem_map.mp he
      rfl
  have hreturn : Tidy (if reload then [] else [.returned 0]) := by
    cases reload with
    | true => exact Tidy.nil
    | false => exact tidy_singleton rfl
  have hstart : Tidy [.startup] := tidy_singleton rfl
  exact hstart.append (hinner.append hreturn)

theorem tidy_trace_failed {a : Aborted} (h : Emptied a) : Tidy (Outcome.failed a).trace := by
  have hinner : Tidy (a.server.log.map .start) := by
    refine tidy_of_inner (fun e he => ?_) h
    obtain ⟨x, -, rfl⟩ := List.mem_map.mp he
    rfl
  have hstart : Tidy [.startup] := tidy_singleton rfl
  have hreturn : Tidy [.returned 1] := tidy_singleton rfl
  exact hstart.append (hinner.append hreturn)

/-- What holds of the outcome of every cycle: a start that failed has left nothing alive, and a
server that was served is one that the shutdown can take down. -/
def Outcome.Good : Outcome → Prop
  | .noPidFile => True
  | .failed a => Emptied a
  | .served s _ => Assembled shutdownOrder s

theorem Outcome.Good.tidy {o : Outcome} (h : o.Good) : Tidy o.trace := by
  cases o with
  | noPidFile => exact tidy_singleton rfl
  | failed a => exact tidy_trace_failed h
  | served s reload => exact tidy_trace_served h reload

theorem runCycles_good {args : OffsdArgs} {cycles : List Cycle}
    (hcreate : ∀ cycle ∈ cycles, ∀ c, cycle.env.ok (.create c) = true) :
    ∀ o ∈ runCycles args cycles, o.Good := by
  induction cycles generalizing args with
  | nil =>
    intro o ho
    cases ho
  | cons cycle rest ih =>
    have hstart := @startup_assembled cycle.env cycle.override
      (hcreate cycle List.mem_cons_self) args
    unfold runCycles
    intro o ho
    split at ho
    · split at ho
      · rename_i a ha
        rw [ha] at hstart
        cases List.mem_singleton.mp ho
        exact hstart
      · rename_i s hs
        rw [hs] at hstart
        rcases List.mem_cons.mp ho with rfl | ho
        · exact hstart
        · -- The next cycle starts with this one's arguments, whatever they are.
          split at ho
          · exact ih (fun c hc => hcreate c (List.mem_cons_of_mem _ hc)) o ho
          · cases ho
    · cases List.mem_singleton.mp ho
      trivial

theorem tidy_flatMap {outcomes : List Outcome} (h : ∀ o ∈ outcomes, o.Good) :
    Tidy (outcomes.flatMap Outcome.trace) := by
  induction outcomes with
  | nil => exact Tidy.nil
  | cons o rest ih =>
    rw [List.flatMap_cons]
    exact (h o List.mem_cons_self).tidy.append (ih fun o ho => h o (List.mem_cons_of_mem _ ho))

/-- **Shutdown mirrors start-up**, in every cycle of every run whose create calls succeed: the
shutdown takes apart in order what the start of its cycle created, and nothing is alive when the
next start begins or the process returns.  Each cycle by itself is `startup_assembled` and
`Assembled.mirrors`; that the run is tidy at the boundaries then follows from the cycles one after
the other, since each of them begins and ends with nothing alive. -/
theorem shutdown_mirrors_startup {args : OffsdArgs} {cycles : List Cycle}
    (hcreate : ∀ cycle ∈ cycles, ∀ c, cycle.env.ok (.create c) = true) :
    (∀ s reload, .served s reload ∈ runCycles args cycles → Mirrors s) ∧
      ∀ before e rest, processTrace args cycles = before ++ e :: rest → e.boundary →
        liveAfter before = [] := by
  have hgood := @runCycles_good args cycles hcreate
  exact ⟨fun s reload hs => (hgood _ hs).mirrors, (tidy_flatMap hgood).boundary⟩

/-- A machine on which every step succeeds. -/
def soundEnv : Env := { failingAt .softAuth with ok := fun _ => true }

/-- A reload, and a stop. -/
def reloadThenStop : List Cycle := [⟨true, soundEnv, none, true⟩, ⟨true, soundEnv, none, false⟩]

theorem shutdown_mirrors_startup_twice :
    (∃ s s', runCycles plainArgs reloadThenStop = [.served s true, .served s' false] ∧
      Mirrors s ∧ Mirrors s') ∧
      liveAfter (processTrace plainArgs reloadThenStop).dropLast = [] := by
  have hcreate : ∀ cycle ∈ reloadThenStop, ∀ c, cycle.env.ok (.create c) = true := by
    intro cycle hcycle c
    simp only [reloadThenStop, List.mem_cons, List.not_mem_nil, or_false] at hcycle
    rcases hcycle with rfl | rfl <;> rfl
  have h := @shutdown_mirrors_startup plainArgs reloadThenStop hcreate
  refine ⟨⟨_, _, rfl, h.1 _ _ (.head _), h.1 _ _ (.tail _ (.head _))⟩, ?_⟩
  exact h.2 _ (.returned 0) [] rfl rfl

end Offs.Startup
