import Mathlib.Data.List.Basic
import Mathlib.Data.List.Induction
import Mathlib.Data.List.TakeDrop

/-! # The updater

`offs-updater` replaces the three binaries in two process images of one program.  The first stops
the service, copies daemon and CLI over the installed ones and executes a temporary copy of the
staged updater.  The second (`--finish`) copies all three, starts the service and asks whether it
is running.  If it is not, the backup is copied back.

What each file operation and each service call comes to is an input (`Outcomes`).  `_copy_file`
truncates its target, and neither it nor its callers look at how reading and writing went: a
chunk that does not get to the file leaves a hole.  `_restore_backup` hides the status of `cp`.
The three directories are taken to be different ones, with paths that fit their buffers, and the
temporary updater to be this program.  Modes, log and PID file are left out.

A binary is copied up to twice, and of the copies that have opened both files the last one decides
what is there (`foldl_copyFile`).  A copy is right exactly if nothing was lost in its loop
(`copyLoop_eq_iff`).  So the condition (`Sound`) is about the turns of the copies that decide,
and, where the service does not come up, of the copies that put the backup back; the exit status
is not part of it.  What the two images leave is said once, for the chain of both
(`normalMode_stops`).
-/
namespace Offs.Updater

abbrev Bytes := List UInt8

/-- The managed binaries. -/
inductive Binary
  | daemon
  | cli
  | updater
  deriving DecidableEq, Repr

/-! ## Copies -/

/-- One turn of the loop of `_copy_file`. -/
structure Turn where
  /-- How many bytes `fread` can give. -/
  read : Nat
  /-- How many bytes of the chunk get to the file. -/
  written : Nat
  deriving DecidableEq, Repr

/-- How a call of `_copy_file` goes. -/
structure Copy where
  opensSource : Bool
  opensTarget : Bool
  /-- After these `fread` gives 0. -/
  turns : List Turn
  deriving DecidableEq, Repr

/-- The loop of `_copy_file`: what the target has in the end. -/
def copyLoop : List Turn → Bytes → Bytes
  | [], _ => []
  | turn :: turns, rest =>
    let chunk := rest.take (min 8192 turn.read)
    if chunk = [] then [] else chunk.take turn.written ++ copyLoop turns (rest.drop chunk.length)

/-- Both files can be opened. -/
def Copy.opens (c : Copy) (source : Option Bytes) : Bool :=
  source.isSome && c.opensSource && c.opensTarget

/-- `_copy_file`: the target after it. -/
def copyFile (c : Copy) (source target : Option Bytes) : Option Bytes :=
  if c.opens source then source.map (copyLoop c.turns) else target

/-- How `cp` of one file goes. -/
inductive Restore
  | complete
  /-- The target is left alone. -/
  | skipped
  /-- Only so many bytes have been written. -/
  | cut (bytes : Nat)
  deriving DecidableEq, Repr

def restoreFile (r : Restore) (source target : Option Bytes) : Option Bytes :=
  match source, r with
  | some bytes, .complete => some bytes
  | some bytes, .cut n => some (bytes.take n)
  | some _, .skipped => target
  -- There is nothing in `previous` to copy.
  | none, _ => target

/-! ## The two images -/

/-- What is copied from. -/
structure Sources where
  staged : Binary → Option Bytes
  /-- `<backup>/previous` -/
  previous : Binary → Option Bytes

/-- What is copied to, and which binaries have been opened for writing. -/
structure Disk where
  installed : Binary → Option Bytes
  temp : Option Bytes
  replaced : List Binary

structure Outcomes where
  /-- `wait_for_stop` returns `service_result_ok`. -/
  stops : Bool
  /-- The copies of the first image; the updater's goes to the temporary file. -/
  first : Binary → Copy
  /-- `execl` succeeds. -/
  execs : Bool
  /-- The copies of the second image. -/
  second : Binary → Copy
  /-- `is_running`, after `start` and `wait_for_start`. -/
  running : Bool
  restores : Binary → Restore

section Images
variable (s : Sources) (o : Outcomes)

/-- Copy a staged binary to the install directory. -/
def install (d : Disk) (job : Binary × Copy) : Disk :=
  let (b, c) := job
  { d with
    installed := fun b' =>
      if b' = b then copyFile c (s.staged b) (d.installed b) else d.installed b'
    replaced := if c.opens (s.staged b) then d.replaced ++ [b] else d.replaced }

/-- The copies of the first image. -/
def Outcomes.firstJobs : List (Binary × Copy) := [(.daemon, o.first .daemon), (.cli, o.first .cli)]

/-- The copies of the second image. -/
def Outcomes.finishJobs : List (Binary × Copy) :=
  [(.updater, o.second .updater), (.daemon, o.second .daemon), (.cli, o.second .cli)]

/-- `_restore_backup`, which returns 0 in any case. -/
def restoreBackup (d : Disk) : Disk :=
  { d with installed := fun b => restoreFile (o.restores b) (s.previous b) (d.installed b) }

/-- The end of `main`: start the service, and roll back if it does not run. -/
def restart (d : Disk) : Nat × Disk := if o.running then (0, d) else (1, restoreBackup s o d)

/-- `main` with `--finish`. -/
def finishMode (d : Disk) : Nat × Disk := restart s o (o.finishJobs.foldl (install s) d)

/-- `main` without it, and the image that it executes. -/
def normalMode (d : Disk) : Nat × Disk :=
  if o.stops then
    let copied := o.firstJobs.foldl (install s) d
    let staged := { copied with temp := copyFile (o.first .updater) (s.staged .updater) copied.temp }
    if o.execs then finishMode s o staged
    else restart s o staged
  else (1, d)

end Images

/-! ## All or nothing, and nothing left behind -/

/-- **All or nothing.**  An update that reports success has installed what was staged, every
binary of it; and one that reports a failure, and has opened anything for writing, leaves what was
there before. -/
def Atomic (s : Sources) (exit : Nat) (d : Disk) : Prop :=
  (exit = 0 → ∀ b, d.installed b = s.staged b) ∧
    (exit ≠ 0 → d.replaced ≠ [] → ∀ b, d.installed b = s.previous b)

section Condition
variable (s : Sources) (installed : Binary → Option Bytes) (o : Outcomes)

/-- All copies to the install directory, in order. -/
def Outcomes.jobs : List (Binary × Copy) :=
  o.firstJobs ++ if o.execs then o.finishJobs else []

/-- The copies of one binary that opened both files. -/
def openCopies (b : Binary) : List Copy :=
  ((o.jobs.filter fun job => job.1 = b).map Prod.snd).filter fun c => c.opens (s.staged b)

/-- **Nothing is lost in the loop**: as long as there is something to read, `fread` gives
some of it, and all of that is written. -/
def Copies : List Turn → Bytes → Prop
  | [], rest => rest = []
  | turn :: turns, rest =>
    let chunk := rest.take (min 8192 turn.read)
    rest = [] ∨ 0 < turn.read ∧ chunk.length ≤ turn.written ∧ Copies turns (rest.drop chunk.length)

/-- What the last copy that opened both files leaves, if there is one. -/
def left (b : Binary) : Option Bytes :=
  match (openCopies s o b).getLast? with
  | some c => (s.staged b).map (copyLoop c.turns)
  | none => installed b

/-- The last copy that opened both files is complete, or the binary needs none. -/
def Current (b : Binary) : Prop :=
  match (openCopies s o b).getLast? with
  | some c => ∀ bytes, s.staged b = some bytes → Copies c.turns bytes
  | none => installed b = s.staged b

/-- The binary has been copied back, or needs not be: a restore that is cut leaves it whole if it
is no longer than the cut, and without a restore it has to be as before anyhow. -/
def Reverted (b : Binary) : Prop :=
  match s.previous b, o.restores b with
  | some _, .complete => True
  | some bytes, .cut n => bytes.length ≤ n
  | previous, _ => left s installed o b = previous

/-- **The copies that decide are complete.**  Where the service comes up these are the last copies
of the staged binaries; where it does not, those that put the backup back, if anything has been
opened for writing.  A service that cannot be stopped asks for nothing. -/
def Sound : Prop :=
  o.stops = true →
    if o.running then ∀ b, Current s installed o b
    else (∃ b, openCopies s o b ≠ []) → ∀ b, Reverted s installed o b

end Condition

/-! ## What a copy leaves -/

theorem copyLoop_length_le (turns : List Turn) (rest : Bytes) :
    (copyLoop turns rest).length ≤ rest.length := by
  induction turns generalizing rest with
  | nil => simp [copyLoop]
  | cons turn turns ih =>
    unfold copyLoop
    dsimp only
    split
    · simp
    · have hnext := ih (rest.drop (rest.take (min 8192 turn.read)).length)
      simp only [List.length_append, List.length_take, List.length_drop] at hnext ⊢
      omega

/-- **A copy is right exactly if nothing was lost.** -/
theorem copyLoop_eq_iff (turns : List Turn) (rest : Bytes) :
    copyLoop turns rest = rest ↔ Copies turns rest := by
  induction turns generalizing rest with
  | nil => exact eq_comm
  | cons turn turns ih =>
    by_cases hrest : rest = []
    · simp [copyLoop, Copies, hrest]
    · by_cases hread : turn.read = 0
      · simp [copyLoop, Copies, hrest, hread, eq_comm]
      · obtain ⟨chunk, hchunk⟩ : ∃ chunk, chunk = rest.take (min 8192 turn.read) := ⟨_, rfl⟩
        obtain ⟨after, hafter⟩ : ∃ after, after = rest.drop chunk.length := ⟨_, rfl⟩
        have hne : chunk ≠ [] := by
          rw [hchunk, ne_eq, List.take_eq_nil_iff]
          rintro (hzero | hnil)
          · omega
          · exact hrest hnil
        have htake : rest.take chunk.length = chunk := by
          rw [← List.prefix_iff_eq_take.mp (hchunk ▸ List.take_prefix _ rest)]
        have hsplit : chunk ++ after = rest := by
          calc chunk ++ after = rest.take chunk.length ++ rest.drop chunk.length := by
                rw [htake, hafter]
            _ = rest := List.take_append_drop chunk.length rest
        have hloop : copyLoop (turn :: turns) rest = chunk.take turn.written ++ copyLoop turns after := by
          rw [copyLoop, ← hchunk, if_neg hne, ← hafter]
        have hcopies : Copies (turn :: turns) rest ↔
            chunk.length ≤ turn.written ∧ Copies turns after := by
          rw [Copies, ← hchunk, ← hafter]
          simp [hrest, Nat.pos_of_ne_zero hread]
        rw [hloop, hcopies, ← ih after, ← hsplit]
        constructor
        · intro heq
          -- Neither part can be longer than what it is a copy of.
          have hshort := copyLoop_length_le turns after
          have hlength := congrArg List.length heq
          simp only [List.length_append, List.length_take] at hlength
          have hwritten : chunk.length ≤ turn.written := by omega
          rw [List.take_of_length_le hwritten] at heq
          exact ⟨hwritten, List.append_cancel_left heq⟩
        · rintro ⟨hwritten, heq⟩
          rw [List.take_of_length_le hwritten, heq]

/-- Copies one after the other: the last one that opens its files decides. -/
theorem foldl_copyFile (source target : Option Bytes) (cs : List Copy) :
    cs.foldl (fun t c => copyFile c source t) target =
      match (cs.filter fun c => c.opens source).getLast? with
      | some c => source.map (copyLoop c.turns)
      | none => target := by
  induction cs using List.reverseRecOn with
  | nil => rfl
  | append_singleton cs c ih =>
    rw [List.foldl_append, List.foldl_cons, List.foldl_nil, List.filter_append]
    by_cases hopens : c.opens source = true
    · simp [copyFile, hopens]
    · rw [ih]
      simp [copyFile, hopens]

/-! ## What the images leave -/

section Images
variable {s : Sources} {o : Outcomes}

theorem foldl_install_installed (jobs : List (Binary × Copy)) (d : Disk) (b : Binary) :
    (jobs.foldl (install s) d).installed b =
      ((jobs.filter fun job => job.1 = b).map Prod.snd).foldl
        (fun t c => copyFile c (s.staged b) t) (d.installed b) := by
  induction jobs generalizing d with
  | nil => rfl
  | cons job jobs ih =>
    rw [List.foldl_cons, ih]
    by_cases hb : job.1 = b
    · subst hb
      simp [install]
    · simp [install, hb, Ne.symm hb]

theorem foldl_install_replaced (jobs : List (Binary × Copy)) (d : Disk) :
    (jobs.foldl (install s) d).replaced =
      d.replaced ++ (jobs.filter fun job => job.2.opens (s.staged job.1)).map Prod.fst := by
  induction jobs generalizing d with
  | nil => simp
  | cons job jobs ih =>
    rw [List.foldl_cons, ih]
    by_cases hopens : job.2.opens (s.staged job.1) = true
    · simp [install, hopens]
    · simp [install, hopens]

/-- **The copies of the chain**, from both images: what they leave, and whether they have
opened anything for writing. -/
theorem normalMode_stops {installed : Binary → Option Bytes} {temp : Option Bytes}
    (hstops : o.stops = true) :
    ∃ d, normalMode s o ⟨installed, temp, []⟩ = restart s o d ∧
      (∀ b, d.installed b = left s installed o b) ∧
      (d.replaced ≠ [] ↔ ∃ b, openCopies s o b ≠ []) := by
  obtain ⟨d, hd, hinstalled, hreplaced⟩ : ∃ d, normalMode s o ⟨installed, temp, []⟩ = restart s o d ∧
      (∀ b, d.installed b = ((o.jobs.filter fun job => job.1 = b).map Prod.snd).foldl
        (fun t c => copyFile c (s.staged b) t) (installed b)) ∧
      d.replaced = (o.jobs.filter fun job => job.2.opens (s.staged job.1)).map Prod.fst := by
    unfold normalMode Outcomes.jobs
    rw [if_pos hstops]
    by_cases hexecs : o.execs = true
    · simp only [if_pos hexecs, finishMode]
      refine ⟨_, rfl, fun b => ?_, ?_⟩
      · rw [foldl_install_installed, foldl_install_installed, List.filter_append, List.map_append,
          List.foldl_append]
      · rw [foldl_install_replaced, foldl_install_replaced, List.filter_append, List.map_append]
        rfl
    · simp only [if_neg hexecs, List.append_nil]
      refine ⟨_, rfl, fun b => ?_, ?_⟩
      · rw [foldl_install_installed]
      · rw [foldl_install_replaced]
        rfl
  refine ⟨d, hd, fun b => (hinstalled b).trans (foldl_copyFile _ _ _), ?_⟩
  rw [hreplaced]
  constructor
  · intro hne
    obtain ⟨b, hb⟩ := List.exists_mem_of_ne_nil _ hne
    obtain ⟨job, hjob, rfl⟩ := List.mem_map.mp hb
    obtain ⟨hmem, hopens⟩ := List.mem_filter.mp hjob
    refine ⟨job.1, List.ne_nil_of_mem (List.mem_filter.mpr ⟨List.mem_map.mpr ⟨job, ?_, rfl⟩, hopens⟩)⟩
    exact List.mem_filter.mpr ⟨hmem, by simp⟩
  · rintro ⟨b, hb⟩
    obtain ⟨c, hc⟩ := List.exists_mem_of_ne_nil _ hb
    obtain ⟨hmap, hopens⟩ := List.mem_filter.mp hc
    obtain ⟨job, hjob, rfl⟩ := List.mem_map.mp hmap
    obtain ⟨hmem, hb⟩ := List.mem_filter.mp hjob
    obtain rfl : job.1 = b := by simpa using hb
    exact List.ne_nil_of_mem (List.mem_map.mpr ⟨job, List.mem_filter.mpr ⟨hmem, hopens⟩, rfl⟩)

theorem left_eq_staged_iff (installed : Binary → Option Bytes) (b : Binary) :
    left s installed o b = s.staged b ↔ Current s installed o b := by
  unfold left Current
  cases hlast : (openCopies s o b).getLast? with
  | none => rfl
  | some c =>
    cases hstaged : s.staged b with
    | none => simp
    | some bytes => simp [copyLoop_eq_iff]

theorem restoreFile_eq_iff {installed : Binary → Option Bytes} {b : Binary} :
    restoreFile (o.restores b) (s.previous b) (left s installed o b) = s.previous b ↔
      Reverted s installed o b := by
  unfold restoreFile Reverted
  cases hprevious : s.previous b with
  | none => cases o.restores b <;> rfl
  | some bytes =>
    cases o.restores b with
    | complete => simp
    | skipped => rfl
    | cut n => simp

/-- **An update installs everything or nothing exactly if the copies that decide are complete.**
Where the service cannot be stopped nothing has been touched.  Otherwise both images end in the
restart of the service, with what the last copies have left (`left`).  If it comes up this has to
be what was staged, binary by binary; and if it does not, the copies of the rollback have to put
back what was there, unless nothing has been opened for writing. -/
theorem update_atomic_iff (s : Sources) (o : Outcomes) (installed : Binary → Option Bytes)
    (temp : Option Bytes) :
    Atomic s (normalMode s o ⟨installed, temp, []⟩).1 (normalMode s o ⟨installed, temp, []⟩).2 ↔
      Sound s installed o := by
  unfold Sound
  by_cases hstops : o.stops = true
  · simp only [hstops, forall_const]
    obtain ⟨d, hmode, hinstalled, hreplaced⟩ :
        ∃ d, normalMode s o ⟨installed, temp, []⟩ = restart s o d ∧
          (∀ b, d.installed b = left s installed o b) ∧
          (d.replaced ≠ [] ↔ ∃ b, openCopies s o b ≠ []) := normalMode_stops hstops
    rw [hmode]
    unfold restart
    by_cases hrunning : o.running = true
    · rw [if_pos hrunning, if_pos hrunning]
      simp only [Atomic, forall_const, ne_eq, not_true_eq_false, false_implies, and_true]
      exact forall_congr' fun b => by rw [hinstalled, left_eq_staged_iff]
    · rw [if_neg hrunning, if_neg hrunning]
      simp only [Atomic, restoreBackup, hinstalled, restoreFile_eq_iff]
      constructor
      · intro h hopened
        exact h.2 (by simp) (hreplaced.mpr hopened)
      · intro h
        refine ⟨fun hzero => ?_, fun _ hne => h (hreplaced.mp hne)⟩
        cases hzero
  · -- Nothing has been touched.
    have hmode : normalMode s o ⟨installed, temp, []⟩ = (1, ⟨installed, temp, []⟩) := if_neg hstops
    rw [hmode]
    simp [Atomic, hstops]

end Images

/-! ## A full disk -/

/-- A copy without trouble. -/
def soundCopy : Copy := ⟨true, true, [⟨8192, 8192⟩]⟩

/-- A copy of which nothing gets to the disk. -/
def lostCopy : Copy := ⟨true, true, [⟨8192, 0⟩]⟩

/-- Everything works, but the disk is full when the CLI is copied for the second time. -/
def diskFull : Outcomes where
  stops := true
  first _ := soundCopy
  execs := true
  second b := if b = .cli then lostCopy else soundCopy
  running := true
  restores _ := .complete

/-- A new version, and the one before. -/
def release : Sources := ⟨fun _ => some [2], fun _ => some [1]⟩

/-- **The updater reports success and leaves an empty CLI.** -/
theorem full_disk_leaves_empty_cli :
    (normalMode release diskFull ⟨release.previous, none, []⟩).1 = 0 ∧
      (normalMode release diskFull ⟨release.previous, none, []⟩).2.installed .cli = some [] ∧
      ¬Atomic release (normalMode release diskFull ⟨release.previous, none, []⟩).1
        (normalMode release diskFull ⟨release.previous, none, []⟩).2 := by
  have hcli : (normalMode release diskFull ⟨release.previous, none, []⟩).2.installed .cli =
      some [] := by decide
  refine ⟨by decide, hcli, fun h => ?_⟩
  have hstaged := h.1 (by decide) .cli
  rw [hcli] at hstaged
  cases hstaged

end Offs.Updater
