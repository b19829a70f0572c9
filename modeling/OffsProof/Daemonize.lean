import OffsProof.CText
import OffsProof.Descriptors

/-! # Going to the background

`_daemonize` forks twice, leaves the session of its caller and redirects the three standard
descriptors: stdin to `/dev/null`, stdout and stderr to the log file or, without one, to
`/dev/null`.  Here it is followed in the process that goes on; its parents have ended with status
0.  What is printed about a call that fails is left out.

At its end the function closes the descriptor of `/dev/null`, and then closes it again if it is
greater than 2.  The first of the two calls does not ask.  When a standard descriptor was closed
in the first place, `open` has returned that very number, and the call closes what has just been
redirected: all three are redirected exactly if all three were open (`daemonize_redirects_iff`).

The descriptors are a table (`Descriptors.Table`), and the proof follows one number at a time
through it.  With the three in use, `/dev/null` and the log file are opened above them
(`Table.le_lowestFree_iff`), the copies with `dup2` change the three and nothing else
(`redirected_redirect`), and the numbers that were opened are free again.  Above 2 every number
ends as it was, in any case: the only one that changes is the lowest free one, which is closed
again (`slot_redirect_above`).
-/
namespace Offs.Daemonize
open CText Descriptors

/-- What a descriptor stands for. -/
inductive File
  | devNull
  | log (path : Text)
  | inherited (n : Nat)
  deriving DecidableEq, Repr

inductive Fork
  | failed
  | parent
  | child
  deriving DecidableEq, Repr

/-- What the calls give; `open` for `/dev/null` and the log file. -/
structure Env where
  firstFork : Fork
  setsid : Bool
  secondFork : Fork
  chdir : Bool
  devNullOpens : Bool
  logOpens : Bool

/-- The call that has failed; what is printed about it is left out. -/
inductive Failure
  | firstFork
  | setsid
  | secondFork
  | chdir
  | devNull
  deriving DecidableEq, Repr

structure Process where
  descriptors : Table File
  umask : Nat
  cwd : Text

inductive Outcome
  /-- `_exit(0)`, in a parent. -/
  | exited
  | failed (why : Failure)
  | returned (p : Process)

/-- stdout and stderr to a descriptor. -/
def outputTo (fd : Nat) (t : Table File) : Table File := (t.dup2 fd 1).dup2 fd 2

/-- stdout and stderr to the log file. -/
def outputToLog (path : Text) (t : Table File) : Table File :=
  let log := t.openFile (.log path)
  (outputTo log.1 log.2).close log.1

/-- The standard descriptors, after `/dev/null` has been opened as `devNull`. -/
def redirect (env : Env) (logFile : Option Text) (devNull : Nat) (t : Table File) : Table File :=
  let t := t.dup2 devNull 0
  match logFile with
  | some path => if env.logOpens then outputToLog path t else outputTo devNull t
  | none => outputTo devNull t

/-- The end of `_daemonize`, from the `open` of `/dev/null` on. -/
def standardDescriptors (env : Env) (logFile : Option Text) (t : Table File) : Table File :=
  let devNull := t.openFile .devNull
  let t := (redirect env logFile devNull.1 devNull.2).close devNull.1
  if devNull.1 > 2 then t.close devNull.1 else t

/-- `_daemonize`. -/
def daemonize (env : Env) (logFile : Option Text) (p : Process) : Outcome :=
  match env.firstFork with
  | .failed => .failed .firstFork
  | .parent => .exited
  | .child =>
    if !env.setsid then .failed .setsid
    else
      match env.secondFork with
      | .failed => .failed .secondFork
      | .parent => .exited
      | .child =>
        if !env.chdir then .failed .chdir
        else if !env.devNullOpens then .failed .devNull
        else
          .returned {
            descriptors := standardDescriptors env logFile p.descriptors
            umask := 0
            cwd := lit "/" }

/-- Where stdout and stderr are to go. -/
def sink (env : Env) (logFile : Option Text) : File :=
  match logFile with
  | some path => if env.logOpens then .log path else .devNull
  | none => .devNull

/-- **The redirection**: what stands where once all three are redirected. -/
def Redirected (env : Env) (logFile : Option Text) (t : Table File) : Prop :=
  t.slot 0 = some .devNull ∧ t.slot 1 = some (sink env logFile) ∧
    t.slot 2 = some (sink env logFile)

section Redirect
variable {env : Env} {logFile : Option Text} {t : Table File} {devNull : Nat}

theorem slot_outputTo {f : File} {fd : Nat} (h : t.slot fd = some f) (n : Nat) :
    (outputTo fd t).slot n = if n = 1 ∨ n = 2 then some f else t.slot n := by
  have hfd : (t.dup2 fd 1).slot fd = some f := by
    rw [Table.slot_dup2 h]
    split
    · rfl
    · exact h
  rw [outputTo, Table.slot_dup2 hfd, Table.slot_dup2 h]
  by_cases h2 : n = 2 <;> simp [h2]

/-- The log file's own descriptor was free and is free again. -/
theorem slot_outputToLog_above (path : Text) {fd : Nat} (hfd : 2 < fd) :
    (outputToLog path t).slot fd = t.slot fd := by
  unfold outputToLog
  dsimp only
  rw [Table.slot_close, slot_outputTo (Table.slot_openFile t _), if_neg (by omega : ¬ (fd = 1 ∨ fd = 2))]
  unfold Table.openFile
  dsimp only
  split
  · rename_i hlog
    rw [hlog]
    exact (Table.slot_lowestFree t).symm
  · rename_i hne
    rw [Table.slot_put, if_neg hne]

/-- Opened above the standard descriptors, the log file replaces two of them. -/
theorem slot_outputToLog (path : Text) (habove : 3 ≤ t.lowestFree) {fd : Nat} (hfd : fd ≤ 2) :
    (outputToLog path t).slot fd = if fd = 1 ∨ fd = 2 then some (.log path) else t.slot fd := by
  have hne : ¬ fd = t.lowestFree := by omega
  unfold outputToLog
  dsimp only
  rw [Table.slot_close, slot_outputTo (Table.slot_openFile t _)]
  unfold Table.openFile
  dsimp only
  rw [if_neg hne, Table.slot_put, if_neg hne]

theorem slot_stdin (hopen : t.slot devNull = some .devNull) (n : Nat) :
    (t.dup2 devNull 0).slot n = if n = 0 then some .devNull else t.slot n :=
  Table.slot_dup2 hopen 0 n

/-- Redirecting stdin leaves `/dev/null` where it is. -/
theorem slot_devNull (hopen : t.slot devNull = some .devNull) :
    (t.dup2 devNull 0).slot devNull = some .devNull := by
  rw [slot_stdin hopen]
  split
  · rfl
  · exact hopen

/-- Above the standard descriptors nothing changes. -/
theorem slot_redirect_above (hopen : t.slot devNull = some .devNull) {fd : Nat} (hfd : 2 < fd) :
    (redirect env logFile devNull t).slot fd = t.slot fd := by
  have hstdin : (t.dup2 devNull 0).slot fd = t.slot fd := by
    rw [slot_stdin hopen, if_neg (by omega)]
  have hnull : (outputTo devNull (t.dup2 devNull 0)).slot fd = t.slot fd := by
    rw [slot_outputTo (slot_devNull hopen), if_neg (by omega), hstdin]
  unfold redirect
  dsimp only
  split
  · split
    · rw [slot_outputToLog_above _ hfd, hstdin]
    · exact hnull
  · exact hnull

/-- With the three standard descriptors in use, all three are redirected. -/
theorem redirected_redirect (hopen : t.slot devNull = some .devNull)
    (hstandard : ∀ fd < 3, t.IsOpen fd) :
    Redirected env logFile (redirect env logFile devNull t) := by
  have hnull : ∀ n ≤ 2, (outputTo devNull (t.dup2 devNull 0)).slot n = some .devNull := by
    intro n hn
    rw [slot_outputTo (slot_devNull hopen), slot_stdin hopen]
    split
    · rfl
    · rw [if_pos (by omega)]
  unfold Redirected sink redirect
  dsimp only
  split
  · rename_i path
    split
    · have habove : 3 ≤ (t.dup2 devNull 0).lowestFree := by
        rw [Table.le_lowestFree_iff]
        intro fd hfd
        unfold Table.IsOpen
        rw [slot_stdin hopen]
        split
        · simp
        · exact hstandard fd hfd
      refine ⟨?_, ?_, ?_⟩
      · rw [slot_outputToLog path habove (by omega), slot_stdin hopen]
        rfl
      · rw [slot_outputToLog path habove (by omega), if_pos (.inl rfl)]
      · rw [slot_outputToLog path habove (by omega), if_pos (.inr rfl)]
    · exact ⟨hnull 0 (by omega), hnull 1 (by omega), hnull 2 (by omega)⟩
  · exact ⟨hnull 0 (by omega), hnull 1 (by omega), hnull 2 (by omega)⟩

end Redirect

/-- The descriptors of a process that goes on. -/
theorem descriptors_of_returned {env : Env} {logFile : Option Text} {p q : Process}
    (h : daemonize env logFile p = .returned q) (fd : Nat) :
    q.descriptors.slot fd =
      if fd = p.descriptors.lowestFree then none
      else (redirect env logFile p.descriptors.lowestFree
        (p.descriptors.put p.descriptors.lowestFree .devNull)).slot fd := by
  have hq : q.descriptors = standardDescriptors env logFile p.descriptors := by
    unfold daemonize at h
    repeat' split at h
    all_goals cases h
    rfl
  rw [hq]
  unfold standardDescriptors Table.openFile
  dsimp only
  split
  · -- The second call finds the number free already.
    rw [Table.slot_close, Table.slot_close]
    split <;> rfl
  · rw [Table.slot_close]

/-- **When the standard descriptors are redirected.**  In the process that goes on, every
descriptor above 2 is what it was; and stdin stands for `/dev/null`, stdout and stderr for where
they are to go, if and only if all three were open when `_daemonize` was called.  If one of them
was closed then `/dev/null` is opened in its place, as the lowest that is free, and is closed
again at the end, when it has been made a standard descriptor. -/
theorem daemonize_redirects_iff {env : Env} {logFile : Option Text} {p q : Process}
    (h : daemonize env logFile p = .returned q) :
    (∀ fd, 2 < fd → q.descriptors.slot fd = p.descriptors.slot fd) ∧
      (Redirected env logFile q.descriptors ↔ ∀ fd ≤ 2, p.descriptors.IsOpen fd) := by
  have hq := descriptors_of_returned h
  have hopen : (p.descriptors.put p.descriptors.lowestFree .devNull).slot
      p.descriptors.lowestFree = some .devNull := by simp
  constructor
  · intro fd hfd
    rw [hq]
    split
    · rename_i hfree
      rw [hfree]
      exact (Table.slot_lowestFree _).symm
    · rename_i hne
      rw [slot_redirect_above hopen hfd, Table.slot_put, if_neg hne]
  · constructor
    · rintro ⟨h0, h1, h2⟩
      -- Otherwise `/dev/null` has been opened as one of the three, and is closed in the end.
      have habove : 3 ≤ p.descriptors.lowestFree := by
        by_contra hlow
        have hclosed : q.descriptors.slot p.descriptors.lowestFree = none := by
          rw [hq, if_pos rfl]
        obtain hfree | hfree | hfree : p.descriptors.lowestFree = 0 ∨
            p.descriptors.lowestFree = 1 ∨ p.descriptors.lowestFree = 2 := by omega
        all_goals
          rw [hfree] at hclosed
          simp_all
      intro fd hfd
      exact Table.le_lowestFree_iff.mp habove fd (by omega)
    · intro hstandard
      have habove : 3 ≤ p.descriptors.lowestFree :=
        Table.le_lowestFree_iff.mpr fun fd hfd => hstandard fd (by omega)
      have hput : ∀ fd < 3, (p.descriptors.put p.descriptors.lowestFree .devNull).IsOpen fd := by
        intro fd hfd
        unfold Table.IsOpen
        rw [Table.slot_put, if_neg (by omega)]
        exact hstandard fd (by omega)
      obtain ⟨h0, h1, h2⟩ := @redirected_redirect env logFile _ _ hopen hput
      unfold Redirected
      simp only [hq]
      rw [if_neg (by omega), if_neg (by omega), if_neg (by omega)]
      exact ⟨h0, h1, h2⟩

/-- A machine on which every call succeeds. -/
def soundEnv : Env := ⟨.child, true, .child, true, true, true⟩

/-- A process with descriptors `low` to 2, and none else. -/
def started (low : Nat) : Process where
  descriptors := {
    slot := fun fd => if low ≤ fd ∧ fd ≤ 2 then some (.inherited fd) else none
    bound := 3
    closed := fun fd hfd => if_neg (by omega) }
  umask := 18
  cwd := lit "/home"

/-- The theorem on a process that was started with its stdin closed. -/
theorem daemonize_redirects_iff_closed_stdin :
    ∃ q, daemonize soundEnv (some (lit "/var/log/offsd.log")) (started 1) = .returned q ∧
      ¬ Redirected soundEnv (some (lit "/var/log/offsd.log")) q.descriptors := by
  refine ⟨_, rfl, fun hredirected => ?_⟩
  have hopen := (daemonize_redirects_iff rfl).2.mp hredirected 0 (by omega)
  exact hopen rfl

end Offs.Daemonize
