import OffsProof.LabelledRun
import OffsProof.ProbeSocket
import OffsProof.RestartArgs

/-! # Starting, stopping and restarting the daemon

`offs start`, `offs stop` and `offs restart` have no connection to the daemon.  They look for
processes by the name `offsd`, signal them, fork, and try the socket.  What a look finds may
have changed before the next call is made, for the daemons live on their own: a child becomes
an `offsd` some time after the fork, binds its socket later, and any process may end at any
time.

The commands are taken apart at each call that looks at, or acts on, the processes, and these
steps are interleaved with those of the processes in every order.  The commands come one after
another, and daemons are started by no one else.  A call of `system`, `fork` or `connect` may
fail whenever it is made (`works`), and so may the creation of the client that probes
(`noClient`).

What a call can do is said once (`Calls`): it leads to another point and changes nothing else
(`Leads`), it is one of the two sleeps, or it is the fork.  The rest is derived from that.

`one_daemon_at_a_time` is about the guard of `cmd_start`, `restart_hands_over` about what exit
status 0 of `offs restart` means, and `commands_end` about the two waiting loops.  The guard is
a look and a fork with time between them.  It keeps a second daemon away only if `pgrep` works
and no child is still on its way to `exec` (`sees`), and what a restart has done is known under
that condition only.
-/
namespace Offs.Control
open CText LabelledRun Offs.Daemon Offs.Start Offs.Restart

/-! ## Processes -/

inductive Phase
  /-- Still the copy of `offs` that `fork` has made. -/
  | forked
  /-- After `execv` or `execvp`. -/
  | running
  | gone (status : Nat)
  deriving DecidableEq, Repr

/-- A daemon, with the processes it goes through as it daemonizes. -/
structure Proc where
  /-- `argv[0]`, once there is one. -/
  name : Text
  args : List Text
  phase : Phase
  /-- The socket on which it accepts connections. -/
  socket : Option Text
  deriving DecidableEq, Repr

namespace Proc

def isRunning (p : Proc) : Bool := p.phase = .running

def isForked (p : Proc) : Bool := p.phase = .forked

def isAlive (p : Proc) : Bool := p.isForked || p.isRunning

def accepts (path : Text) (p : Proc) : Bool := p.isRunning && p.socket = some path

/-- What `waitpid` makes of it. -/
def hasFailed (p : Proc) : Bool :=
  match p.phase with
  | .gone status => status ≠ 0
  | _ => false

end Proc

/-! ## The commands -/

inductive Command
  | start (args : List Text)
  | stop
  | restart (args : List Text)
  deriving DecidableEq, Repr

/-- Where the CLI is.  The arguments are those of the daemon that is to be started; `cmd_stop`
has some when it is called by `cmd_restart`. -/
inductive Point
  | isServiceManaged (args : List Text)
  | serviceRestart
  | readRunningArgs (args : List Text)
  | stopLook (next : Option (List Text))
  | kill (next : Option (List Text))
  | waitLook (waited : Nat) (args : List Text)
  | waitSleep (waited : Nat) (args : List Text)
  | lastLook (args : List Text)
  | scanHelp (args : List Text)
  | startLook (args : List Text)
  | fork (args : List Text)
  | waitChild (args : List Text)
  | connect (elapsed : Nat) (args : List Text)
  | probeSleep (elapsed : Nat) (args : List Text)
  | exited (status : Nat)
  deriving DecidableEq, Repr

structure World where
  /-- The daemons, in the order in which they were forked. -/
  procs : List Proc
  point : Point
  /-- How long the command has slept, in milliseconds. -/
  slept : Nat
  deriving DecidableEq, Repr

def Command.entry : Command → Point
  | .start args => .scanHelp args
  | .stop => .stopLook none
  | .restart args => .isServiceManaged args

/-- `_is_daemon_running`: a `system` that fails finds nothing. -/
def isDaemonRunning (works : Bool) (procs : List Proc) : Bool := works && procs.any Proc.isRunning

/-- The arguments that `cmd_restart` has for `cmd_start`, from its own and from what it can
read of the running daemon. -/
def restartedArgs (args : List Text) (contents : Option (List Char)) : List Text :=
  let preserved := if args = [] then contents.elim [] readRunningOffsdArgs else []
  if preserved = [] then args else withoutForeground preserved

theorem cmdRestart_restartedArgs (args : List Text) (contents : Option (List Char)) :
    cmdRestart false args contents true = .start (restartedArgs args contents) := by
  simp [cmdRestart, restartedArgs]

/-- `/proc/<pid>/cmdline` of the first process that `pgrep` finds. -/
def runningCmdline (procs : List Proc) : Option (List Char) :=
  (procs.find? Proc.isRunning).map fun p => cmdline (p.name :: p.args)

/-- `timeout_ms` of `cli_daemon_wait_stopped`, as `cmd_restart` calls it. -/
def stopTimeout : Nat := 10000

/-- `timeout_ms` of `_probe_daemon_up`. -/
def probeTimeout : Nat := 3000

def help : Text := lit "--help"

/-- The next call of the CLI, and where it leads. -/
def cliStep (works : Bool) (s : World) : Option World :=
  match s.point with
  -- `cmd_restart`
  | .isServiceManaged args =>
    some { s with point := if works then .serviceRestart else .readRunningArgs args }
  | .serviceRestart => some { s with point := .exited (if works then 0 else 1) }
  | .readRunningArgs args =>
    let contents := if works then runningCmdline s.procs else none
    some { s with point := .stopLook (some (restartedArgs args contents)) }
  -- `cmd_stop`
  | .stopLook next =>
    some { s with point := if isDaemonRunning works s.procs then .kill next else .exited 1 }
  | .kill next =>
    -- `pkill` fails as well when there is no one left to signal.
    if works && s.procs.any Proc.isRunning then
      some { s with point := next.elim (.exited 0) (.waitLook 0) }
    else some { s with point := .exited 1 }
  -- `cli_daemon_wait_stopped`
  | .waitLook waited args =>
    if isDaemonRunning works s.procs ∧ waited < stopTimeout then
      some { s with point := .waitSleep waited args }
    else some { s with point := .lastLook args }
  | .waitSleep waited args =>
    some { s with point := .waitLook (waited + 100) args, slept := s.slept + 100 }
  -- A daemon that is still there gets a warning, and `cmd_start` is called all the same.
  | .lastLook args => some { s with point := .scanHelp args }
  -- `cmd_start`
  | .scanHelp args =>
    some { s with point := if args.any (· = help) then .exited 0 else .startLook args }
  | .startLook args =>
    some { s with point := if isDaemonRunning works s.procs then .exited 1 else .fork args }
  | .fork args =>
    if works then
      some { s with procs := s.procs ++ [⟨[], args, .forked, none⟩], point := .waitChild args }
    else some { s with point := .exited 1 }
  | .waitChild args =>
    -- The status is that of the first process of the daemon, if it has ended by now.
    if works && s.procs.getLast?.any Proc.hasFailed then some { s with point := .exited 1 }
    else some { s with point := .connect 0 args }
  -- `_probe_daemon_up`
  | .connect elapsed args =>
    if elapsed < probeTimeout then
      if works && s.procs.any (Proc.accepts (probeSocketPath args)) then
        some { s with point := .exited 0 }
      else some { s with point := .probeSleep elapsed args }
    else some { s with point := .exited 1 }
  | .probeSleep elapsed args =>
    some { s with point := .connect (elapsed + 100) args, slept := s.slept + 100 }
  | .exited _ => none

/-! ## The system -/

inductive Label
  /-- The next command, when the one before it has ended. -/
  | run (cmd : Command)
  | cli (works : Bool)
  /-- `cli_client_create` gives NULL, and `_probe_daemon_up` returns at once. -/
  | noClient
  | exec (i : Nat) (name : Text)
  | listen (i : Nat) (path : Text)
  | close (i : Nat)
  | exit (i : Nat) (status : Nat)
  deriving DecidableEq, Repr

/-- What a process does by itself. -/
def procStep (p : Proc) : Label → Option Proc
  | .exec _ name => if p.isForked then some { p with name := name, phase := .running } else none
  | .listen _ path => if p.isRunning then some { p with socket := some path } else none
  | .close _ => if p.isRunning then some { p with socket := none } else none
  | .exit _ status =>
    if p.isAlive then some { p with phase := .gone status, socket := none } else none
  | _ => none

/-- The process that a label is a step of. -/
def Label.proc : Label → Option Nat
  | .exec i _ | .listen i _ | .close i | .exit i _ => some i
  | _ => none

def step (s : World) (l : Label) : Option World :=
  match l with
  | .run cmd =>
    match s.point with
    | .exited _ => some { s with point := cmd.entry, slept := 0 }
    | _ => none
  | .cli works => cliStep works s
  | .noClient =>
    match s.point with
    | .connect elapsed _ =>
      if elapsed < probeTimeout then some { s with point := .exited 1 } else none
    | _ => none
  | _ =>
    l.proc.bind fun i => s.procs[i]?.bind fun p =>
      (procStep p l).map fun q => { s with procs := s.procs.set i q }

def alive (s : World) : Nat := s.procs.countP Proc.isAlive

/-- A look of `cmd_start` can be relied on: `pgrep` works, and no child is still on its way
from `fork` to `exec`. -/
def sees (s : World) : Label → Bool
  | .cli works =>
    match s.point with
    | .startLook _ => works && !s.procs.any Proc.isForked
    | _ => true
  | _ => true

def isRun : Label → Bool
  | .run _ => true
  | _ => false

def isCli : Label → Bool
  | .cli _ => true
  | .noClient => true
  | _ => false

/-! ## What a call can do -/

/-- Where a call leads that changes nothing but the place of the CLI. -/
inductive Leads (procs : List Proc) : Bool → Point → Point → Prop
  | managed (args : List Text) : Leads procs true (.isServiceManaged args) .serviceRestart
  | unmanaged (args : List Text) :
    Leads procs false (.isServiceManaged args) (.readRunningArgs args)
  | restarted : Leads procs true .serviceRestart (.exited 0)
  | notRestarted : Leads procs false .serviceRestart (.exited 1)
  | readArgs (works : Bool) (args args' : List Text) :
    Leads procs works (.readRunningArgs args) (.stopLook (some args'))
  | stopFinds (works : Bool) (next : Option (List Text)) :
    Leads procs works (.stopLook next) (.kill next)
  | stopMisses (works : Bool) (next : Option (List Text)) :
    Leads procs works (.stopLook next) (.exited 1)
  | stopped (hrunning : procs.any Proc.isRunning = true) : Leads procs true (.kill none) (.exited 0)
  | signalled (hrunning : procs.any Proc.isRunning = true) (args : List Text) :
    Leads procs true (.kill (some args)) (.waitLook 0 args)
  | notSignalled (works : Bool) (next : Option (List Text)) :
    Leads procs works (.kill next) (.exited 1)
  | waits (works : Bool) {waited : Nat} (hlt : waited < stopTimeout) (args : List Text) :
    Leads procs works (.waitLook waited args) (.waitSleep waited args)
  | waited (works : Bool) (waited : Nat) (args : List Text) :
    Leads procs works (.waitLook waited args) (.lastLook args)
  | looked (works : Bool) (args : List Text) :
    Leads procs works (.lastLook args) (.scanHelp args)
  | helped (works : Bool) {args : List Text} (hhelp : help ∈ args) :
    Leads procs works (.scanHelp args) (.exited 0)
  | notHelped (works : Bool) {args : List Text} (hhelp : help ∉ args) :
    Leads procs works (.scanHelp args) (.startLook args)
  | startFinds (works : Bool) (args : List Text) :
    Leads procs works (.startLook args) (.exited 1)
  | startMisses {works : Bool} (hlook : isDaemonRunning works procs = false) (args : List Text) :
    Leads procs works (.startLook args) (.fork args)
  | notForked (args : List Text) : Leads procs false (.fork args) (.exited 1)
  | childFailed (works : Bool) (args : List Text) :
    Leads procs works (.waitChild args) (.exited 1)
  | childUp (works : Bool) (args : List Text) :
    Leads procs works (.waitChild args) (.connect 0 args)
  | connects {elapsed : Nat} {args : List Text}
      (haccepts : procs.any (Proc.accepts (probeSocketPath args)) = true) :
    Leads procs true (.connect elapsed args) (.exited 0)
  | connectFails (works : Bool) {elapsed : Nat} (hlt : elapsed < probeTimeout)
      (args : List Text) :
    Leads procs works (.connect elapsed args) (.probeSleep elapsed args)
  | probeEnds (works : Bool) (elapsed : Nat) (args : List Text) :
    Leads procs works (.connect elapsed args) (.exited 1)

/-- **What a call of the CLI can do.**  Most calls only lead on (`Leads`); the two sleeps also add
to what has been slept, and the fork adds a process at the end of the list.  No call changes a
process that is there: `pkill` sends a signal, and what the daemon makes of it is the daemon's own
step. -/
inductive Calls (s : World) (works : Bool) : World → Prop
  | leads {point : Point} (h : Leads s.procs works s.point point) :
    Calls s works { s with point := point }
  | waitSlept {waited : Nat} {args : List Text} (hpoint : s.point = .waitSleep waited args) :
    Calls s works { s with point := .waitLook (waited + 100) args, slept := s.slept + 100 }
  | probeSlept {elapsed : Nat} {args : List Text} (hpoint : s.point = .probeSleep elapsed args) :
    Calls s works { s with point := .connect (elapsed + 100) args, slept := s.slept + 100 }
  | forked {args : List Text} (hpoint : s.point = .fork args) :
    Calls s works
      { s with procs := s.procs ++ [⟨[], args, .forked, none⟩], point := .waitChild args }

/-- A call with two ways on. -/
theorem calls_ite {s t : World} {works : Bool} {c : Prop} [Decidable c] {p q : Point}
    (hpos : c → Leads s.procs works s.point p) (hneg : ¬c → Leads s.procs works s.point q)
    (h : (if c then some { s with point := p } else some { s with point := q }) = some t) :
    Calls s works t := by
  split at h <;> cases h
  · exact .leads (hpos ‹_›)
  · exact .leads (hneg ‹_›)

theorem calls_of_cliStep {s t : World} {works : Bool} (h : cliStep works s = some t) :
    Calls s works t := by
  obtain ⟨procs, point, slept⟩ := s
  cases point with
  | isServiceManaged args =>
    cases h
    cases works
    · exact .leads (.unmanaged args)
    · exact .leads (.managed args)
  | serviceRestart =>
    cases h
    cases works
    · exact .leads .notRestarted
    · exact .leads .restarted
  | readRunningArgs args =>
    cases h
    exact .leads (.readArgs works args _)
  | stopLook next =>
    cases h
    dsimp only
    split
    · exact .leads (.stopFinds works next)
    · exact .leads (.stopMisses works next)
  | kill next =>
    refine calls_ite (fun hkill => ?_) (fun _ => .notSignalled works next) h
    obtain ⟨rfl, hrunning⟩ := Bool.and_eq_true_iff.mp hkill
    cases next with
    | none => exact .stopped hrunning
    | some args => exact .signalled hrunning args
  | waitLook waited args =>
    exact calls_ite (fun hwait => .waits works hwait.2 args) (fun _ => .waited works waited args) h
  | waitSleep waited args =>
    cases h
    exact .waitSlept rfl
  | lastLook args =>
    cases h
    exact .leads (.looked works args)
  | scanHelp args =>
    cases h
    dsimp only
    split
    · rename_i hhelp
      exact .leads (.helped works (by simpa using hhelp))
    · rename_i hhelp
      exact .leads (.notHelped works (by simpa using hhelp))
  | startLook args =>
    cases h
    dsimp only
    split
    · exact .leads (.startFinds works args)
    · rename_i hlook
      exact .leads (.startMisses (Bool.eq_false_iff.mpr hlook) args)
  | fork args =>
    cases works <;> cases h
    · exact .leads (.notForked args)
    · exact .forked rfl
  | waitChild args =>
    exact calls_ite (fun _ => .childFailed works args) (fun _ => .childUp works args) h
  | connect elapsed args =>
    simp only [cliStep] at h
    split at h
    · rename_i hlt
      refine calls_ite (fun hconnect => ?_) (fun _ => .connectFails works hlt args) h
      obtain ⟨rfl, haccepts⟩ := Bool.and_eq_true_iff.mp hconnect
      exact .connects haccepts
    · cases h
      exact .leads (.probeEnds works elapsed args)
  | probeSleep elapsed args =>
    cases h
    exact .probeSlept rfl
  | exited status => cases h

/-! ## The steps of the processes -/

theorem Proc.isAlive_of_step {p q : Proc} {l : Label} (h : procStep p l = some q) :
    p.isAlive = true := by
  cases l <;> simp only [procStep, reduceCtorEq] at h
  case exec | listen | close =>
    obtain ⟨hp, -⟩ := Option.ite_none_right_eq_some.mp h
    simp [Proc.isAlive, hp]
  case exit => exact (Option.ite_none_right_eq_some.mp h).1

theorem Proc.args_of_step {p q : Proc} {l : Label} (h : procStep p l = some q) :
    q.args = p.args := by
  cases l <;> simp only [procStep, reduceCtorEq] at h <;>
    (obtain ⟨-, heq⟩ := Option.ite_none_right_eq_some.mp h; cases heq; rfl)

/-- What a step is a step of. -/
theorem step_cases {s t : World} {l : Label} (h : step s l = some t) :
    (∃ cmd status, l = .run cmd ∧ s.point = .exited status ∧
      t = { s with point := cmd.entry, slept := 0 }) ∨
    (∃ works, l = .cli works ∧ Calls s works t) ∨
    (l = .noClient ∧ (∃ elapsed args, s.point = .connect elapsed args) ∧
      t = { s with point := .exited 1 }) ∨
    ∃ i p q, isCli l = false ∧ s.procs[i]? = some p ∧ procStep p l = some q ∧
      t = { s with procs := s.procs.set i q } := by
  have hproc : ∀ i, (s.procs[i]?.bind fun p =>
      (procStep p l).map fun q => ({ s with procs := s.procs.set i q } : World)) = some t →
      ∃ p q, s.procs[i]? = some p ∧ procStep p l = some q ∧
        t = { s with procs := s.procs.set i q } := by
    intro i hi
    obtain ⟨p, hp, hq⟩ := Option.bind_eq_some_iff.mp hi
    obtain ⟨q, hq, heq⟩ := Option.map_eq_some_iff.mp hq
    exact ⟨p, q, hp, hq, heq.symm⟩
  cases l with
  | run cmd =>
    simp only [step] at h
    split at h
    · rename_i status hpoint
      exact .inl ⟨cmd, status, rfl, hpoint, (Option.some.inj h).symm⟩
    · cases h
  | cli works => exact .inr (.inl ⟨works, rfl, calls_of_cliStep h⟩)
  | noClient =>
    simp only [step] at h
    split at h
    · rename_i elapsed args hpoint
      obtain ⟨-, heq⟩ := Option.ite_none_right_eq_some.mp h
      exact .inr (.inr (.inl ⟨rfl, ⟨elapsed, args, hpoint⟩, (Option.some.inj heq).symm⟩))
    · cases h
  | exec i name | listen i path | close i | exit i status =>
    obtain ⟨p, q, hp, hq, heq⟩ := hproc i h
    exact .inr (.inr (.inr ⟨i, p, q, rfl, hp, hq, heq⟩))

theorem countP_set_le {α : Type} {P : α → Bool} {l : List α} {i : Nat} {q : α}
    (h : ∀ p, l[i]? = some p → P p = true) : (l.set i q).countP P ≤ l.countP P := by
  induction l generalizing i with
  | nil => simp
  | cons a l ih =>
    cases i with
    | zero =>
      simp only [List.set_cons_zero, List.countP_cons, h a rfl, if_true]
      split <;> omega
    | succ i =>
      simp only [List.set_cons_succ, List.countP_cons]
      have := ih (fun p hp => h p (by simpa using hp))
      omega

/-- No process comes to life by itself, among all of them and among the first ones. -/
theorem alive_take_set_le {procs : List Proc} {i : Nat} {p q : Proc} {l : Label}
    (hp : procs[i]? = some p) (hq : procStep p l = some q) (n : Nat) :
    ((procs.set i q).take n).countP Proc.isAlive ≤ (procs.take n).countP Proc.isAlive := by
  rw [List.take_set]
  refine countP_set_le fun p' hp' => ?_
  rw [List.getElem?_take] at hp'
  split at hp'
  · obtain rfl : p' = p := Option.some.inj (hp'.symm.trans hp)
    exact Proc.isAlive_of_step hq
  · cases hp'

theorem alive_set_le {procs : List Proc} {i : Nat} {p q : Proc} {l : Label}
    (hp : procs[i]? = some p) (hq : procStep p l = some q) :
    (procs.set i q).countP Proc.isAlive ≤ procs.countP Proc.isAlive := by
  have hle := alive_take_set_le hp hq procs.length
  rwa [List.take_length, List.take_of_length_le (by simp)] at hle

/-! ## One daemon at a time -/

/-- There is at most one daemon, and none when `cmd_start` is about to fork.  The second part is
what the double-start guard has seen, if its look can be relied on; without it a fork could make a
second daemon. -/
def Alone (s : World) : Prop := alive s ≤ 1 ∧ ∀ args, s.point = .fork args → alive s = 0

/-- A process that is alive is a child or a daemon, and not both. -/
theorem alive_eq_add (s : World) :
    alive s = s.procs.countP Proc.isForked + s.procs.countP Proc.isRunning := by
  rw [alive]
  induction s.procs with
  | nil => rfl
  | cons p procs ih =>
    simp only [List.countP_cons, ih]
    cases hphase : p.phase <;> simp [Proc.isAlive, Proc.isForked, Proc.isRunning, hphase] <;> omega

theorem countP_eq_zero_iff_any {α : Type} {P : α → Bool} {l : List α} :
    l.countP P = 0 ↔ l.any P = false := by
  rw [List.countP_eq_zero, List.any_eq_false]

/-- A call changes the processes only by a fork. -/
theorem Calls.procs {s t : World} {works : Bool} (h : Calls s works t) :
    t.procs = s.procs ∨ ∃ args, s.point = .fork args ∧
      t.procs = s.procs ++ [⟨[], args, .forked, none⟩] := by
  cases h with
  | leads | waitSlept | probeSlept => exact .inl rfl
  | forked hpoint => exact .inr ⟨_, hpoint, rfl⟩

/-- `cmd_start` comes to its fork from its own look only. -/
theorem Calls.fork {s t : World} {works : Bool} {args : List Text} (h : Calls s works t)
    (hfork : t.point = .fork args) :
    s.point = .startLook args ∧ isDaemonRunning works s.procs = false ∧ t.procs = s.procs := by
  cases h with
  | leads h =>
    obtain ⟨procs, point, slept⟩ := s
    dsimp only at hfork h ⊢
    subst hfork
    cases h with
    | startMisses hlook => exact ⟨rfl, hlook, rfl⟩
  | waitSlept | probeSlept | forked => cases hfork

theorem alone_step {s t : World} {l : Label} (hs : Alone s) (hsees : sees s l = true)
    (h : step s l = some t) : Alone t := by
  obtain ⟨cmd, status, rfl, -, rfl⟩ | ⟨works, rfl, hcalls⟩ | ⟨rfl, -, rfl⟩ |
    ⟨i, p, q, -, hp, hq, rfl⟩ := step_cases h
  · refine ⟨hs.1, fun args hfork => ?_⟩
    cases cmd <;> cases hfork
  · refine ⟨?_, fun args hfork => ?_⟩
    · rcases hcalls.procs with hprocs | ⟨args, hpoint, hprocs⟩
      · rw [alive, hprocs]
        exact hs.1
      · have hzero := hs.2 args hpoint
        rw [alive] at hzero
        rw [alive, hprocs, List.countP_append, hzero, Nat.zero_add]
        exact List.countP_le_length
    · obtain ⟨hpoint, hlook, hprocs⟩ := hcalls.fork hfork
      simp only [sees, hpoint, Bool.and_eq_true, Bool.not_eq_true'] at hsees
      obtain ⟨rfl, hforked⟩ := hsees
      have hrunning : s.procs.any Proc.isRunning = false := by simpa [isDaemonRunning] using hlook
      have hzero := alive_eq_add s
      rw [countP_eq_zero_iff_any.mpr hforked, countP_eq_zero_iff_any.mpr hrunning] at hzero
      rw [alive, hprocs]
      exact hzero
  · refine ⟨hs.1, fun args hfork => ?_⟩
    cases hfork
  · have hle := alive_set_le hp hq
    exact ⟨Nat.le_trans hle hs.1, fun args hfork => Nat.le_zero.mp (hs.2 args hfork ▸ hle)⟩

theorem alone_exec {s u : World} {ls : List Label} {status : Nat} (hs : alive s ≤ 1)
    (hidle : s.point = .exited status) (hsees : Meets step (fun s l => sees s l = true) s ls)
    (hrun : exec step s ls = some u) : Alone u := by
  have halone : Alone s := ⟨hs, fun args hfork => by rw [hidle] at hfork; cases hfork⟩
  exact exec_invariant_of_meets alone_step halone hsees hrun

/-- **The guard of `cmd_start`.**  If every look of it can be relied on there is never more than
one daemon, whatever commands are run and whatever the daemons do meanwhile.  And only such a look
is enough: where a daemon is alive, one that cannot be relied on is followed by a fork.  The
invariant is `Alone`, which at the fork asks for no daemon at all; no process comes to life but by
a fork, so nothing can happen between the look and it. -/
theorem one_daemon_at_a_time {s u : World} {ls : List Label} {status : Nat} (hs : alive s ≤ 1)
    (hidle : s.point = .exited status) (hsees : Meets step (fun s l => sees s l = true) s ls)
    (hrun : exec step s ls = some u) :
    alive u ≤ 1 ∧ ∀ args works, u.point = .startLook args → alive u = 1 →
      ((∃ t, exec step u [.cli works, .cli true] = some t ∧ alive t = 2) ↔
        sees u (.cli works) = false) := by
  refine ⟨(alone_exec hs hidle hsees hrun).1, fun args works hpoint hone => ?_⟩
  have hsum := alive_eq_add u
  constructor
  · rintro ⟨t, ht, -⟩
    by_contra hsees'
    simp only [sees, hpoint, Bool.not_eq_false, Bool.and_eq_true, Bool.not_eq_true'] at hsees'
    obtain ⟨rfl, hforked⟩ := hsees'
    -- It is found, and the command is over.
    have hrunning : u.procs.any Proc.isRunning = true := by
      by_contra hnone
      rw [countP_eq_zero_iff_any.mpr hforked,
        countP_eq_zero_iff_any.mpr (by simpa using hnone)] at hsum
      omega
    simp [exec, step, cliStep, hpoint, isDaemonRunning, hrunning] at ht
  · intro hblind
    have hlook : isDaemonRunning works u.procs = false := by
      cases works with
      | false => rfl
      | true =>
        have hforked : u.procs.any Proc.isForked = true := by simpa [sees, hpoint] using hblind
        have hpos : u.procs.countP Proc.isForked ≠ 0 := by
          intro hzero
          rw [countP_eq_zero_iff_any.mp hzero] at hforked
          cases hforked
        exact countP_eq_zero_iff_any.mp (by omega)
    refine ⟨{ u with procs := u.procs ++ [⟨[], args, .forked, none⟩], point := .waitChild args },
      ?_, ?_⟩
    · simp [exec, step, cliStep, hpoint, hlook]
    · rw [alive] at hone
      simp [alive, hone, Proc.isAlive, Proc.isForked]

/-- Before any command. -/
def fresh : World := ⟨[], .exited 0, 0⟩

/-- The daemon of a plain `offs start`, once it listens. -/
def plainDaemon : Proc := ⟨lit "offsd", [], .running, some localSocketPath⟩

/-- `offs start`; the daemon comes up at the second probe. -/
def plainStart : List Label :=
  [.run (.start []), .cli true, .cli true, .cli true, .cli true, .exec 0 (lit "offsd"), .cli true,
    .cli true, .listen 0 localSocketPath, .cli true]

/-- A second `offs start` finds it, unless `pgrep` cannot be run. -/
theorem one_daemon_at_a_time_twice :
    exec step fresh (plainStart ++ [.run (.start []), .cli true]) =
        some ⟨[plainDaemon], .startLook [], 0⟩ ∧
      ∃ t, exec step ⟨[plainDaemon], .startLook [], 0⟩ [.cli false, .cli true] = some t ∧
        alive t = 2 := by
  have hrun : exec step fresh (plainStart ++ [.run (.start []), .cli true]) =
      some ⟨[plainDaemon], .startLook [], 0⟩ := by decide
  have hboth := one_daemon_at_a_time (s := fresh) (by decide) rfl (by decide) hrun
  exact ⟨hrun, (hboth.2 [] false rfl (by decide)).mpr (by decide)⟩

/-! ## What exit status 0 of `offs restart` means -/

/-- **Where `offs restart` is**, and what is known there; `n` is the number of daemons there have
been before it.  Up to the fork there are no others.  `cmd_stop` knows what it has been called
for.  From the look of `cmd_start` on, the flags have no `--help`.  The fork is made with none of
the old daemons alive, and none of them comes to life again; behind it the new one is the last,
with the flags that the command has for it. -/
def Restarting (n : Nat) (s : World) : Prop :=
  match s.point with
  | .stopLook next | .kill next => s.procs.length = n ∧ next.isSome = true
  | .startLook args => s.procs.length = n ∧ help ∉ args
  | .fork args => s.procs.length = n ∧ help ∉ args ∧ alive s = 0
  | .waitChild args | .connect _ args | .probeSleep _ args =>
    s.procs.length = n + 1 ∧ help ∉ args ∧ (s.procs.take n).countP Proc.isAlive = 0 ∧
      s.procs[n]?.map Proc.args = some args
  | .exited _ => True
  | _ => s.procs.length = n

theorem restarting_calls {n : Nat} {s t : World} {works : Bool} (hs : Restarting n s)
    (halone : Alone t) (h : Calls s works t) : Restarting n t := by
  obtain ⟨procs, point, slept⟩ := s
  cases h with
  | leads h =>
    cases h with
    | managed | unmanaged | looked | waits | waited => exact hs
    | readArgs => exact ⟨hs, rfl⟩
    | stopFinds | childUp | connectFails => exact hs
    | signalled => exact hs.1
    | notHelped _ hhelp => exact ⟨hs, hhelp⟩
    | startMisses _ args => exact ⟨hs.1, hs.2, halone.2 args rfl⟩
    | restarted | notRestarted | stopMisses | stopped | notSignalled | helped | startFinds
    | notForked | childFailed | connects | probeEnds => trivial
  | waitSlept hpoint | probeSlept hpoint =>
    cases hpoint
    exact hs
  | forked hpoint =>
    cases hpoint
    obtain ⟨hlength, hhelp, hnone⟩ := hs
    refine ⟨by simp [← hlength], hhelp, ?_, ?_⟩
    · rw [← hlength, List.take_left]
      exact hnone
    · simp [← hlength]

theorem restarting_step {n : Nat} {s t : World} {l : Label} (hs : Restarting n s)
    (halone : Alone t) (hrun : isRun l = false) (h : step s l = some t) : Restarting n t := by
  obtain ⟨cmd, status, rfl, -, rfl⟩ | ⟨works, rfl, hcalls⟩ | ⟨rfl, -, rfl⟩ |
    ⟨i, p, q, -, hp, hq, rfl⟩ := step_cases h
  · cases hrun
  · exact restarting_calls hs halone hcalls
  · trivial
  · have hargs : (s.procs.set i q)[n]?.map Proc.args = s.procs[n]?.map Proc.args := by
      rw [List.getElem?_set]
      split
      · rename_i heq
        subst heq
        have hlt := (List.getElem?_eq_some_iff.mp hp).1
        rw [if_pos hlt, hp, Option.map_some, Option.map_some, Proc.args_of_step hq]
      · rfl
    have hle := alive_set_le hp hq
    have htake := alive_take_set_le hp hq n
    cases hpoint : s.point <;> simp only [Restarting, hpoint, List.length_set] at hs ⊢
    case fork args => exact ⟨hs.1, hs.2.1, Nat.le_zero.mp (hs.2.2 ▸ hle)⟩
    case waitChild args | connect elapsed args | probeSleep elapsed args =>
      obtain ⟨hlength, hhelp, hnone, hlast⟩ := hs
      exact ⟨hlength, hhelp, Nat.le_zero.mp (hnone ▸ htake), hargs.trans hlast⟩
    all_goals exact hs

/-- The points of `offs restart` behind its `pkill`. -/
def Point.afterKill : Point → Bool
  | .waitLook _ _ | .waitSleep _ _ | .lastLook _ | .scanHelp _ | .startLook _ | .fork _
  | .waitChild _ | .connect _ _ | .probeSleep _ _ => true
  | _ => false

/-- **The running daemon has been signalled** in the run along `ls`: `pkill` has worked, called by
`cmd_stop` for a restart, and there was a daemon at that time.  It may take any time to end, and
longer than `cli_daemon_wait_stopped` waits for it. -/
def Signalled (s : World) (ls : List Label) : Prop :=
  ∃ before after m args, ls = before ++ .cli true :: after ∧ exec step s before = some m ∧
    m.point = .kill (some args) ∧ m.procs.any Proc.isRunning = true

/-- `offs restart` comes behind its `pkill` only by it. -/
theorem signalled_of_afterKill {s u : World} {ls : List Label}
    (hone : ∀ l ∈ ls, isRun l = false) (hrun : exec step s ls = some u)
    (hs : s.point.afterKill = false) (hu : u.point.afterKill = true) : Signalled s ls := by
  obtain ⟨before, l, after, m, t, rfl, hbefore, hstep, hm, ht⟩ :=
    exec_crossing (P := fun s => s.point.afterKill = true) hrun (by simp [hs]) hu
  obtain ⟨cmd, status, rfl, -, rfl⟩ | ⟨works, rfl, hcalls⟩ | ⟨rfl, -, rfl⟩ |
    ⟨i, p, q, -, -, -, rfl⟩ := step_cases hstep
  · have hrun := hone (.run cmd) (by simp)
    cases hrun
  · obtain ⟨procs, point, slept⟩ := m
    cases hcalls with
    | leads h =>
      cases h with
      | signalled hrunning args => exact ⟨before, after, _, args, rfl, hbefore, rfl, hrunning⟩
      | managed | unmanaged | readArgs | stopFinds | restarted | notRestarted | stopMisses | stopped
      | notSignalled | helped | startFinds | notForked | childFailed | connects | probeEnds =>
        cases ht
      | waits | waited | looked | notHelped | startMisses | childUp | connectFails =>
        exact absurd rfl hm
    | waitSlept hpoint | probeSlept hpoint | forked hpoint =>
      cases hpoint
      exact absurd rfl hm
  · cases ht
  · exact absurd ht hm

/-- Where one of the daemons accepts connections, and none of the first `n` is alive, it is the
last one. -/
theorem last_accepts {procs : List Proc} {n : Nat} {path : Text} (hlength : procs.length = n + 1)
    (hnone : (procs.take n).countP Proc.isAlive = 0)
    (haccepts : procs.any (Proc.accepts path) = true) :
    ∃ p, procs[n]? = some p ∧ p.accepts path = true := by
  obtain ⟨p, hp, hpath⟩ := List.any_eq_true.mp haccepts
  obtain ⟨j, hj, rfl⟩ := List.getElem_of_mem hp
  have hlt : ¬j < n := by
    intro hlt
    refine List.countP_eq_zero.mp hnone procs[j] ?_ ?_
    · exact List.mem_take_iff_getElem.mpr ⟨j, by omega, rfl⟩
    · simp only [Proc.accepts, Bool.and_eq_true] at hpath
      simp [Proc.isAlive, hpath.1]
  obtain rfl : j = n := by omega
  exact ⟨procs[j], List.getElem?_eq_getElem hj, hpath⟩

/-- **What a successful restart has done**, if every look of `cmd_start` can be relied on and
there was at most one daemon before.  When a step of `offs restart` is the one that ends it with
0, then either the service manager has restarted the daemon; or the running daemon has been
signalled, and then one of the flags was `--help` and no daemon has been started, or the daemon
that this command has forked is there and accepts connections on the socket its own arguments
name, and all the others are gone. -/
theorem restart_hands_over {s m u : World} {args : List Text} {ls : List Label} {works : Bool}
    {status : Nat} (hs : alive s ≤ 1) (hidle : s.point = .exited status)
    (hsees : Meets step (fun s l => sees s l = true) s (.run (.restart args) :: ls))
    (hone : ∀ l ∈ ls, isRun l = false)
    (hrun : exec step s (.run (.restart args) :: ls) = some m)
    (hlast : step m (.cli works) = some u) (hexit : u.point = .exited 0) :
    m.point = .serviceRestart ∨
    (Signalled s (.run (.restart args) :: ls) ∧
      ((∃ flags, m.point = .scanHelp flags ∧ help ∈ flags ∧ m.procs.length = s.procs.length) ∨
      (m.procs.length = s.procs.length + 1 ∧
        (∃ p, m.procs[s.procs.length]? = some p ∧ help ∉ p.args ∧
          p.accepts (probeSocketPath p.args) = true) ∧
        ∀ p ∈ m.procs.take s.procs.length, p.isAlive = false))) := by
  obtain ⟨t, hst, htm⟩ := exec_cons.mp hrun
  have hentry : t = { s with point := .isServiceManaged args, slept := 0 } := by
    simpa [step, hidle, Command.entry] using hst.symm
  have halone : Alone t := by
    rw [hentry]
    exact ⟨hs, fun _ hfork => by cases hfork⟩
  have hbegin : Restarting s.procs.length t := by
    rw [hentry]
    rfl
  have hok := (hsees.tail hst).and (meets_of_labels hone t)
  have hinv : Alone m ∧ Restarting s.procs.length m :=
    exec_invariant_of_meets
      (I := fun t => Alone t ∧ Restarting s.procs.length t)
      (fun {_ _ _} ⟨ha, hr⟩ ⟨hsee, hrun⟩ hstep =>
        have ha' := alone_step ha hsee hstep
        ⟨ha', restarting_step hr ha' hrun hstep⟩)
      ⟨halone, hbegin⟩ hok htm
  have hsignalled : m.point.afterKill = true → Signalled s (.run (.restart args) :: ls) := by
    intro hm
    obtain ⟨before, after, k, flags, rfl, hbefore, hkill, hrunning⟩ :=
      signalled_of_afterKill hone htm (by rw [hentry]; rfl) hm
    exact ⟨.run (.restart args) :: before, after, k, flags, rfl,
      exec_cons.mpr ⟨t, hst, hbefore⟩, hkill, hrunning⟩
  have hm := hinv.2
  have hcalls : Calls m works u := calls_of_cliStep hlast
  obtain ⟨procs, point, slept⟩ := m
  cases hcalls with
  | leads h =>
    dsimp only at hexit
    subst hexit
    cases h with
    | restarted => exact .inl rfl
    | stopped => cases hm.2
    | helped _ hhelp => exact .inr ⟨hsignalled rfl, .inl ⟨_, rfl, hhelp, hm⟩⟩
    | connects haccepts =>
      obtain ⟨hlength, hhelp, hnone, hargs⟩ := hm
      obtain ⟨p, hp, hpath⟩ := last_accepts hlength hnone haccepts
      obtain rfl : p.args = _ := by simpa [hp] using hargs
      refine .inr ⟨hsignalled rfl, .inr ⟨hlength, ⟨p, hp, hhelp, hpath⟩, fun p' hp' => ?_⟩⟩
      simpa using List.countP_eq_zero.mp hnone p' hp'
  | waitSlept | probeSlept | forked => cases hexit

/-- `offs restart` with a socket of its own, up to the probe that finds the new daemon.  The old one drains
while `cli_daemon_wait_stopped` sleeps. -/
def movedRestart : List Label :=
  [.run (.restart [lit "--unix", lit "/run/o"]), .cli false, .cli true, .cli true, .cli true,
    .cli true, .close 0, .exit 0 0, .cli true, .cli true, .cli true, .cli true, .cli true, .cli true,
    .cli true, .exec 1 (lit "offsd"), .listen 1 (lit "/run/o")]

/-- Where `movedRestart` leads. -/
def movedWorld : World where
  procs := [⟨lit "offsd", [], .gone 0, none⟩,
    ⟨lit "offsd", [lit "--unix", lit "/run/o"], .running, some (lit "/run/o")⟩]
  point := .connect 0 [lit "--unix", lit "/run/o"]
  slept := 100

theorem restart_hands_over_moved :
    exec step ⟨[plainDaemon], .exited 0, 0⟩ movedRestart = some movedWorld ∧
      Signalled ⟨[plainDaemon], .exited 0, 0⟩ movedRestart ∧
        ∀ p ∈ movedWorld.procs.take 1, p.isAlive = false := by
  have hrun : exec step ⟨[plainDaemon], .exited 0, 0⟩ movedRestart = some movedWorld := by decide
  refine ⟨hrun, ?_⟩
  have hlast : step movedWorld (.cli true) = some { movedWorld with point := .exited 0 } := by decide
  rcases restart_hands_over (by decide) rfl (by decide) (by decide) hrun hlast rfl with
    h | ⟨hsignalled, ⟨_, h, _⟩ | ⟨_, _, h⟩⟩
  · cases h
  · cases h
  · exact ⟨hsignalled, h⟩

/-! ## The waiting loops -/

/-- How many calls lead to the end of the command, at most. -/
def Point.callsLeft : Point → Nat
  | .isServiceManaged _ => 271
  | .serviceRestart => 1
  | .readRunningArgs _ => 270
  | .stopLook _ => 269
  | .kill _ => 268
  | .waitLook waited _ => 67 + 2 * ((stopTimeout + 99 - waited) / 100)
  | .waitSleep waited _ => 68 + 2 * ((stopTimeout + 99 - (waited + 100)) / 100)
  | .lastLook _ => 66
  | .scanHelp _ => 65
  | .startLook _ => 64
  | .fork _ => 63
  | .waitChild _ => 62
  | .connect elapsed _ => 1 + 2 * ((probeTimeout + 99 - elapsed) / 100)
  | .probeSleep elapsed _ => 2 + 2 * ((probeTimeout + 99 - (elapsed + 100)) / 100)
  | .exited _ => 0

/-- What the command has slept so far: the wait for the old daemon, and then the probes.  The two
loops count their sleeps in a variable each, and these are what the bound on the whole command is
made of. -/
def Rested (s : World) : Prop :=
  match s.point with
  | .waitLook waited _ => s.slept = waited ∧ waited ≤ stopTimeout ∧ waited % 100 = 0
  | .waitSleep waited _ => s.slept = waited ∧ waited < stopTimeout ∧ waited % 100 = 0
  | .lastLook _ | .scanHelp _ | .startLook _ | .fork _ | .waitChild _ => s.slept ≤ stopTimeout
  | .connect elapsed _ =>
    s.slept ≤ stopTimeout + elapsed ∧ elapsed ≤ probeTimeout ∧ elapsed % 100 = 0
  | .probeSleep elapsed _ =>
    s.slept ≤ stopTimeout + elapsed ∧ elapsed < probeTimeout ∧ elapsed % 100 = 0
  | .exited _ => s.slept ≤ stopTimeout + probeTimeout
  | _ => s.slept = 0

/-- Each call brings the command nearer to its end. -/
theorem rested_calls {s t : World} {works : Bool} (hs : Rested s) (h : Calls s works t) :
    Rested t ∧ t.point.callsLeft + 1 ≤ s.point.callsLeft := by
  obtain ⟨procs, point, slept⟩ := s
  cases h with
  | leads h =>
    cases h <;>
      simp only [Rested, Point.callsLeft, stopTimeout, probeTimeout, and_true] at * <;> omega
  | waitSlept hpoint | probeSlept hpoint =>
    cases hpoint
    simp only [Rested, Point.callsLeft, stopTimeout, probeTimeout] at hs ⊢
    omega
  | forked hpoint =>
    cases hpoint
    exact ⟨hs, by simp [Point.callsLeft]⟩

theorem rested_step {s t : World} {l : Label} (hs : Rested s) (hrun : isRun l = false)
    (h : step s l = some t) :
    Rested t ∧ t.point.callsLeft + (if isCli l then 1 else 0) ≤ s.point.callsLeft := by
  obtain ⟨cmd, status, rfl, -, rfl⟩ | ⟨works, rfl, hcalls⟩ | ⟨rfl, ⟨elapsed, args, hpoint⟩, rfl⟩ |
    ⟨i, p, q, hcli, -, -, rfl⟩ := step_cases h
  · cases hrun
  · exact rested_calls hs hcalls
  · simp only [Rested, hpoint, Point.callsLeft, isCli] at hs ⊢
    simp only [if_true]
    omega
  · rw [hcli]
    exact ⟨hs, Nat.le_refl _⟩

/-- Until it has ended, the command has a call to make. -/
theorem exited_or_cli_enabled (s : World) :
    (∃ status, s.point = .exited status) ∨ ∀ works, (step s (.cli works)).isSome := by
  cases hpoint : s.point with
  | exited status => exact .inl ⟨status, rfl⟩
  | kill next | waitLook waited args | fork args | waitChild args =>
    refine .inr fun works => ?_
    simp only [step, cliStep, hpoint]
    split <;> rfl
  | connect elapsed args =>
    refine .inr fun works => ?_
    simp only [step, cliStep, hpoint]
    split
    · split <;> rfl
    · rfl
  | _ => exact .inr fun works => by simp [step, cliStep, hpoint]

/-- **No command waits for ever.**  Whatever the daemons do, and whichever calls fail, a command
makes at most 271 calls, sleeps for at most the 10 s of `cli_daemon_wait_stopped` and the 3 s
of `_probe_daemon_up`, and is never stuck before it has ended. -/
theorem commands_end {s u : World} {cmd : Command} {ls : List Label}
    (hone : ∀ l ∈ ls, isRun l = false) (hrun : exec step s (.run cmd :: ls) = some u) :
    ls.countP isCli ≤ 271 ∧ u.slept ≤ 13000 ∧
      ((∃ status, u.point = .exited status) ∨ ∀ works, (step u (.cli works)).isSome) := by
  obtain ⟨t, hst, htu⟩ := exec_cons.mp hrun
  have hbegin : Rested t ∧ t.point.callsLeft ≤ 271 := by
    obtain ⟨cmd', status, hcmd, -, rfl⟩ | ⟨works, hcmd, -⟩ | ⟨hcmd, -, -⟩ |
      ⟨i, p, q, -, -, hq, -⟩ := step_cases hst
    · cases hcmd
      cases cmd <;> exact ⟨by simp [Rested, Command.entry], by simp [Point.callsLeft, Command.entry]⟩
    · cases hcmd
    · cases hcmd
    · cases hq
  have hbudget : Rested u ∧ u.point.callsLeft + ls.countP isCli ≤
      t.point.callsLeft + 0 * ls.countP isRun :=
    exec_budget (fun hs hl h => (rested_step hs hl h).imp_right fun hless => by
      rw [ite_self]
      exact hless) hbegin.1 hone htu
  obtain ⟨hrested, hcalls⟩ := hbudget
  refine ⟨by omega, ?_, exited_or_cli_enabled u⟩
  cases hpoint : u.point <;>
    simp only [Rested, hpoint, stopTimeout, probeTimeout] at hrested <;> omega

theorem commands_end_moved :
    movedRestart.tail.countP isCli ≤ 271 ∧ movedWorld.slept ≤ 13000 := by
  have hrun : exec step ⟨[plainDaemon], .exited 0, 0⟩ movedRestart = some movedWorld := by decide
  have hends := commands_end (by decide) hrun
  exact ⟨hends.1, hends.2.1⟩

end Offs.Control
