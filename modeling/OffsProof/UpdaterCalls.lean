import OffsProof.Answered
import OffsProof.CText
import OffsProof.Updater

/-! # What the updater asks for

`offs-updater` seen through its calls: the PID file, the service operations, the copies and the
`exec` that turns the first process image into the second.  What a call returns is an input, as
far as `main` looks at it; the log is left out.

The updater owes two things.  Who writes the PID file removes it, and who stops the service
starts it again.  Both are of the same form, a call that has to be followed by another one
(`CallLog.Answered`), over the calls of both images together.  One exit path does neither: the
one after the service could not be seen to stop (`updater_cleans_up_iff`).

How a chain of images goes is said once (`chain_cases`): without work, up to the wait, or through
the restart of its last image.  The last one ends with the calls that answer everything
(`tidy_restart`).  The second image gets the directories of the first in its arguments, and reads
them as such unless one of them is the word that asks for the second mode; then the chain
is one image shorter, and ends in the same way.

`chain_exit` ties the calls to the model of what the copies leave: they end with the same
status.
-/
namespace Offs.Updater
open CText CallLog

/-! ## The service -/

/-- `service_result_e` -/
inductive ServiceResult
  | ok
  | error
  | timeout
  | notInstalled
  deriving DecidableEq, Repr

/-- The loop of the two waits: ask at the polls from `i` on, as long as `left` are left. -/
def waitLoop (done : Nat → Bool) (i : Nat) : Nat → ServiceResult
  | 0 => .timeout
  | left + 1 => if done i then .ok else waitLoop done (i + 1) left

/-- `service_linux_wait_for_stop`, where `active` is what `systemctl is-active` says at
each poll. -/
def serviceLinuxWaitForStop (timeoutMs : Nat) (active : Nat → Bool) : ServiceResult :=
  waitLoop (fun i => !active i) 0 (timeoutMs / 300)

def shutdownTimeoutMs : Nat := 30000

theorem waitLoop_ok_iff (done : Nat → Bool) (i left : Nat) :
    waitLoop done i left = .ok ↔ ∃ k < left, done (i + k) = true := by
  induction left generalizing i with
  | zero => simp [waitLoop]
  | succ left ih =>
    unfold waitLoop
    by_cases hdone : done i = true
    · rw [if_pos hdone]
      exact iff_of_true rfl ⟨0, Nat.succ_pos left, hdone⟩
    · rw [if_neg hdone, ih]
      constructor
      · rintro ⟨k, hk, h⟩
        exact ⟨k + 1, by omega, by rw [← h]; congr 1; omega⟩
      · rintro ⟨k, hk, h⟩
        cases k with
        | zero => exact absurd h hdone
        | succ k => exact ⟨k, by omega, by rw [← h]; congr 1; omega⟩

/-- On Linux the service is seen to stop if one of a hundred polls finds it inactive. -/
theorem serviceLinuxWaitForStop_ok_iff (active : Nat → Bool) :
    serviceLinuxWaitForStop shutdownTimeoutMs active = .ok ↔ ∃ i < 100, active i = false := by
  unfold serviceLinuxWaitForStop
  rw [waitLoop_ok_iff]
  simp [shutdownTimeoutMs]

/-! ## Arguments -/

structure UpdaterArgs where
  finish : Bool
  stagingDir : Option Text
  installDir : Option Text
  backupDir : Option Text
  deriving DecidableEq, Repr

/-- One turn of the argument loop.  What comes after the third directory is ignored. -/
def takeArg (args : UpdaterArgs) (t : Text) : UpdaterArgs :=
  if t = lit "--finish" then { args with finish := true }
  else if args.stagingDir = none then { args with stagingDir := some t }
  else if args.installDir = none then { args with installDir := some t }
  else if args.backupDir = none then { args with backupDir := some t }
  else args

/-- The directories. -/
structure Dirs where
  staging : Text
  install : Text
  backup : Text
  deriving DecidableEq, Repr

/-- The argument loop and the check after it, over `argv[1]` and what follows. -/
def parseUpdaterArgs (argv : List Text) : Option (Bool × Dirs) :=
  match argv.foldl takeArg ⟨false, none, none, none⟩ with
  | ⟨finish, some staging, some install, some backup⟩ => some (finish, ⟨staging, install, backup⟩)
  | _ => none

/-! ## The calls -/

inductive Call
  | writePidFile
  | stop
  | waitForStop
  | copyFile (src dst : Text)
  | exec (path : Text) (argv : List Text)
  | start
  | waitForStart
  | isRunning
  | restoreBackup (backupDir installDir : Text)
  | unlinkPidFile
  deriving DecidableEq, Repr

/-- What the calls of one process image come to. -/
structure ImageOutcomes where
  /-- The PID file can be opened. -/
  opensPidFile : Bool
  /-- The first `wait_for_stop`. -/
  waitForStop : ServiceResult
  /-- `execl` does not return. -/
  execs : Bool
  isRunning : Bool
  deriving DecidableEq, Repr

/-- How an image ends. -/
inductive Ending
  | exits (code : Nat)
  | becomes (argv : List Text)
  deriving DecidableEq, Repr

structure Image where
  calls : List Call
  ending : Ending
  deriving DecidableEq, Repr

def Binary.fileName : Binary → Text
  | .daemon => lit "offs-daemon"
  | .cli => lit "offs-cli"
  | .updater => lit "offs-updater"

/-- A path in a directory, in a buffer of 1024 bytes. -/
def pathIn (dir : Text) (b : Binary) : Text := cut 1024 (dir ++ '/' :: b.fileName)

def tempUpdater : Text := lit "/tmp/offs-updater-temp"

def installCall (dirs : Dirs) (b : Binary) : Call :=
  .copyFile (pathIn dirs.staging b) (pathIn dirs.install b)

/-- The end of `main`: start the service, roll back if it does not run, and clean up. -/
def restartCalls (o : ImageOutcomes) (dirs : Dirs) : List Call :=
  [.start, .waitForStart, .isRunning] ++
    (if o.isRunning then []
      else [.stop, .waitForStop, .restoreBackup dirs.backup dirs.install, .start, .waitForStart]) ++
    [.unlinkPidFile]

/-- What the end of `main` returns. -/
def restartEnding (o : ImageOutcomes) : Ending := .exits (if o.isRunning then 0 else 1)

/-- The calls of the first image before it looks whether the service has stopped. -/
def stopCalls : List Call := [.stop, .waitForStop]

/-- The copies of the first image, and its `exec`. -/
def replaceCalls (dirs : Dirs) (argv : List Text) : List Call :=
  [installCall dirs .daemon, installCall dirs .cli,
    .copyFile (pathIn dirs.staging .updater) tempUpdater, .exec tempUpdater argv]

/-- The arguments of the second image. -/
def finishArgv (dirs : Dirs) : List Text :=
  [lit "--finish", dirs.staging, dirs.install, dirs.backup]

/-- `main`. -/
def mainImage (o : ImageOutcomes) (argv : List Text) : Image :=
  match parseUpdaterArgs argv with
  | none => ⟨[], .exits 1⟩
  | some (finish, dirs) =>
    let pid := if o.opensPidFile then [Call.writePidFile] else []
    if finish then
      ⟨pid ++ [installCall dirs .updater, installCall dirs .daemon, installCall dirs .cli] ++
        restartCalls o dirs, restartEnding o⟩
    else if o.waitForStop ≠ .ok then ⟨pid ++ stopCalls, .exits 1⟩
    else if o.execs then ⟨pid ++ stopCalls ++ replaceCalls dirs (finishArgv dirs),
      .becomes (finishArgv dirs)⟩
    else ⟨pid ++ stopCalls ++ replaceCalls dirs (finishArgv dirs) ++ restartCalls o dirs,
      restartEnding o⟩

/-- The chain of images: all calls, and the exit status. -/
def chain (first second : ImageOutcomes) (argv : List Text) : List Call × Nat :=
  let image := mainImage first argv
  match image.ending with
  | .exits code => (image.calls, code)
  | .becomes argv =>
    let next := mainImage second argv
    match next.ending with
    | .exits code => (image.calls ++ next.calls, code)
    -- The second image has `--finish` and executes nothing.
    | .becomes _ => (image.calls ++ next.calls, 0)

/-! ## No mess -/

/-- **The PID file is removed, and the service is started again.** -/
def Tidy (calls : List Call) : Prop :=
  Answered .writePidFile .unlinkPidFile calls ∧ Answered .stop .start calls

instance (calls : List Call) : Decidable (Tidy calls) := inferInstanceAs (Decidable (_ ∧ _))

/-- **The updater gets past its wait**: it has no work to do, it is the second image, or the
service is seen to stop. -/
def PastWait (o : ImageOutcomes) (argv : List Text) : Prop :=
  ∀ dirs, parseUpdaterArgs argv = some (false, dirs) → o.waitForStop = .ok

theorem tidy_restart (o : ImageOutcomes) (dirs : Dirs) (before : List Call) :
    Tidy (before ++ restartCalls o dirs) := by
  have hrestart : Tidy (restartCalls o dirs) := by
    unfold restartCalls
    cases o.isRunning with
    | true => simp [Tidy, Answered]
    | false => simp [Tidy, Answered]
  refine ⟨hrestart.1.append ?_, hrestart.2.append ?_⟩
  · simp [restartCalls]
  · simp [restartCalls]

/-- No directory is the word that asks for the second mode. -/
def UpdaterArgs.Plain (args : UpdaterArgs) : Prop :=
  args.stagingDir ≠ some (lit "--finish") ∧ args.installDir ≠ some (lit "--finish") ∧
    args.backupDir ≠ some (lit "--finish")

theorem takeArg_plain {args : UpdaterArgs} (h : args.Plain) (t : Text) :
    (takeArg args t).Plain := by
  unfold takeArg
  split
  · exact h
  · rename_i hword
    have hsome : some t ≠ some (lit "--finish") := fun heq => hword (Option.some.inj heq)
    split
    · exact ⟨hsome, h.2⟩
    · split
      · exact ⟨h.1, hsome, h.2.2⟩
      · split
        · exact ⟨h.1, h.2.1, hsome⟩
        · exact h

theorem foldl_takeArg_plain {args : UpdaterArgs} (h : args.Plain) (argv : List Text) :
    (argv.foldl takeArg args).Plain := by
  induction argv generalizing args with
  | nil => exact h
  | cons t argv ih => exact ih (takeArg_plain h t)

/-- The second image gets the directories of the first. -/
theorem parseUpdaterArgs_finishArgv {argv : List Text} {finish : Bool} {dirs : Dirs}
    (h : parseUpdaterArgs argv = some (finish, dirs)) :
    parseUpdaterArgs (finishArgv dirs) = some (true, dirs) := by
  have hplain : (argv.foldl takeArg ⟨false, none, none, none⟩).Plain :=
    foldl_takeArg_plain (by simp [UpdaterArgs.Plain]) argv
  unfold parseUpdaterArgs at h
  split at h
  · rename_i staging install backup hargs
    rw [hargs] at hplain
    obtain ⟨hstaging, hinstall, hbackup⟩ := hplain
    cases h
    have hs : staging ≠ lit "--finish" := fun heq => hstaging (congrArg some heq)
    have hi : install ≠ lit "--finish" := fun heq => hinstall (congrArg some heq)
    have hb : backup ≠ lit "--finish" := fun heq => hbackup (congrArg some heq)
    simp [parseUpdaterArgs, finishArgv, takeArg, hs, hi, hb]
  · cases h

section Images
variable {o : ImageOutcomes} {argv : List Text} {dirs : Dirs}

theorem mainImage_finish (hargs : parseUpdaterArgs argv = some (true, dirs)) :
    ∃ before, mainImage o argv = ⟨before ++ restartCalls o dirs, restartEnding o⟩ := by
  unfold mainImage
  rw [hargs]
  exact ⟨_, rfl⟩

theorem mainImage_execs (hargs : parseUpdaterArgs argv = some (false, dirs))
    (hwait : o.waitForStop = .ok) (hexecs : o.execs = true) :
    ∃ before, mainImage o argv = ⟨before, .becomes (finishArgv dirs)⟩ := by
  unfold mainImage
  rw [hargs]
  simp only [hwait, hexecs, Bool.false_eq_true, if_false, ne_eq, not_true_eq_false, if_true]
  exact ⟨_, rfl⟩

theorem mainImage_stays (hargs : parseUpdaterArgs argv = some (false, dirs))
    (hwait : o.waitForStop = .ok) (hexecs : o.execs ≠ true) :
    ∃ before, mainImage o argv = ⟨before ++ restartCalls o dirs, restartEnding o⟩ := by
  unfold mainImage
  rw [hargs]
  simp only [hwait, hexecs, Bool.false_eq_true, if_false, ne_eq, not_true_eq_false]
  exact ⟨_, rfl⟩

end Images

/-- **How a chain goes**: without work, up to the wait, or through the restart of its last
image. -/
theorem chain_cases (first second : ImageOutcomes) (argv : List Text) :
    (parseUpdaterArgs argv = none ∧ chain first second argv = ([], 1)) ∨
    (∃ dirs, parseUpdaterArgs argv = some (false, dirs) ∧ first.waitForStop ≠ .ok ∧
      chain first second argv =
        ((if first.opensPidFile then [.writePidFile] else []) ++ stopCalls, 1)) ∨
    ∃ finish dirs before last, parseUpdaterArgs argv = some (finish, dirs) ∧
      (finish = false → first.waitForStop = .ok) ∧
      last = (if finish = false ∧ first.execs then second else first) ∧
      chain first second argv =
        (before ++ restartCalls last dirs, if last.isRunning then 0 else 1) := by
  cases hargs : parseUpdaterArgs argv with
  | none => exact .inl ⟨rfl, by simp [chain, mainImage, hargs]⟩
  | some parsed =>
    obtain ⟨finish, dirs⟩ := parsed
    cases finish with
    | true =>
      obtain ⟨before, himage⟩ := @mainImage_finish first _ _ hargs
      refine .inr (.inr ⟨true, dirs, before, first, rfl, by simp, by simp, ?_⟩)
      unfold chain
      rw [himage]
      rfl
    | false =>
      by_cases hwait : first.waitForStop = .ok
      · by_cases hexecs : first.execs = true
        · obtain ⟨before, himage⟩ := mainImage_execs hargs hwait hexecs
          obtain ⟨copies, hnext⟩ := @mainImage_finish second _ _ (parseUpdaterArgs_finishArgv hargs)
          refine .inr (.inr ⟨false, dirs, before ++ copies, second, rfl, fun _ => hwait,
            by simp [hexecs], ?_⟩)
          unfold chain
          rw [himage, List.append_assoc]
          dsimp only
          rw [hnext]
          rfl
        · obtain ⟨before, himage⟩ := mainImage_stays hargs hwait hexecs
          refine .inr (.inr ⟨false, dirs, before, first, rfl, fun _ => hwait, by simp [hexecs], ?_⟩)
          unfold chain
          rw [himage]
          rfl
      · exact .inr (.inl ⟨dirs, rfl, hwait, by simp [chain, mainImage, hargs, hwait]⟩)

/-- **The updater leaves no mess exactly if it gets past its wait.**  For all arguments and all
outcomes of the service operations and of the `exec`, in both images.  A chain of images can go
three ways (`chain_cases`): without work it does nothing; a stop that takes too long ends it, with
the stop request as its last call, which nothing answers; and otherwise its last image comes to
the restart, which removes the PID file and starts the service. -/
theorem updater_cleans_up_iff (first second : ImageOutcomes) (argv : List Text) :
    Tidy (chain first second argv).1 ↔ PastWait first argv := by
  unfold PastWait
  rcases chain_cases first second argv with ⟨hargs, hchain⟩ | ⟨dirs, hargs, hwait, hchain⟩ |
    ⟨finish, dirs, before, last, hargs, hwait, -, hchain⟩
  · rw [hchain, hargs]
    exact iff_of_true ⟨trivial, trivial⟩ (by simp)
  · rw [hchain, hargs]
    refine iff_of_false ?_ fun h => hwait (h dirs rfl)
    rintro ⟨-, hstart⟩
    -- The stop request is the last one of the process.
    have hlast := answered_iff.mp hstart _ [.waitForStop] rfl
    simp at hlast
  · rw [hchain, hargs]
    refine iff_of_true (tidy_restart last dirs before) fun dirs' heq => hwait ?_
    cases heq
    rfl

/-- The calls and the copies are of one program: they end with the same status. -/
theorem chain_exit (s : Sources) (o : Outcomes) (d : Disk) {first second : ImageOutcomes}
    {argv : List Text} {dirs : Dirs} (hargs : parseUpdaterArgs argv = some (false, dirs))
    (hstops : first.waitForStop = .ok ↔ o.stops = true) (hexecs : first.execs = o.execs)
    (hrunning : (if o.execs then second.isRunning else first.isRunning) = o.running) :
    (chain first second argv).2 = (normalMode s o d).1 := by
  have hrestart : ∀ d, (restart s o d).1 = if o.running then 0 else 1 := by
    intro d
    unfold restart
    split <;> rfl
  unfold normalMode
  rcases chain_cases first second argv with ⟨hnone, -⟩ | ⟨_, -, hwait, hchain⟩ |
    ⟨finish, _, before, last, hsome, hwait, hlast, hchain⟩
  · rw [hargs] at hnone
    cases hnone
  · rw [hchain, if_neg fun h => hwait (hstops.mpr h)]
  · rw [hargs] at hsome
    cases hsome
    rw [hchain, if_pos (hstops.mp (hwait rfl)), hlast]
    rw [hexecs]
    by_cases he : o.execs = true
    · simp only [he, and_self, if_true, finishMode, hrestart] at hrunning ⊢
      rw [hrunning]
    · simp only [he, Bool.false_eq_true, and_false, if_false, hrestart] at hrunning ⊢
      rw [hrunning]

/-! ## A daemon that drains for too long -/

/-- Everything works, but the service is not seen to stop within 30 seconds. -/
def slowStop : ImageOutcomes :=
  ⟨true, serviceLinuxWaitForStop shutdownTimeoutMs fun _ => true, true, true⟩

/-- **The node stays down**: the updater has asked the service to stop, exits with 1, and
neither starts it again nor removes the PID file. -/
theorem slow_stop_leaves_node_down :
    chain slowStop slowStop [lit "/staging", lit "/opt/offs", lit "/backup"] =
        ([.writePidFile, .stop, .waitForStop], 1) ∧
      ¬Tidy (chain slowStop slowStop [lit "/staging", lit "/opt/offs", lit "/backup"]).1 := by
  have hchain : chain slowStop slowStop [lit "/staging", lit "/opt/offs", lit "/backup"] =
      ([.writePidFile, .stop, .waitForStop], 1) := by decide
  refine ⟨hchain, ?_⟩
  rw [hchain]
  decide

end Offs.Updater
