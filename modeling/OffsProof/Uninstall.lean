import OffsProof.DaemonStart
import OffsProof.PathTree

/-! # `offsd uninstall`

`_run_uninstall` removes the config directory, the cache directory or both.  It takes them from
its own `--config-dir` and `--cache-dir`, else from the platform.  The daemon has more sources:
the config file names directories, a pending document moves the cache, and a daemonised process
reads relative paths from `/`.

The daemon to compare with is started with the same two flags, in the foreground or not
(`daemonArgv`).  What `rm_rf` does is a parameter.  A directory is told by its place in a tree of
paths, and an empty path has none: `stat` fails on it.

What a run removes is a sequence of removals, its targets, and what it leaves is said by
`PathTree.Cleared` (`runUninstall_clears`); a failure of `rm_rf` is in the exit status.  What it
should leave is `PathTree.Clean`, for the directories of the daemon.  The question is then one of
the library: targets that fit what was chosen leave it clean whatever the remover does, and with
an `rm_rf` that never fails they have to fit.  So the condition (`DirsFit`) compares directories
before anything is removed, those that uninstall works out with those that flags, file and
pending document give to the daemon, as far as they exist.
-/
namespace Offs.Uninstall
open CText Daemon PathTree

/-- The variables of `_run_uninstall` after its loop. -/
structure Choice where
  removeConfig : Bool
  removeCache : Bool
  configDir : Option Text
  cacheDir : Option Text
  deriving DecidableEq, Repr

/-- The loop over the arguments after `uninstall`, `none` for an unknown option.  A flag
that lacks its value is one. -/
def parseUninstall : List Text → Choice → Option Choice
  | [], c => some c
  | arg :: rest, c =>
    if arg = lit "--config" then parseUninstall rest { c with removeConfig := true }
    else if arg = lit "--cache" then parseUninstall rest { c with removeCache := true }
    else
      match rest with
      | [] => none
      | value :: rest =>
        if arg = lit "--config-dir" then parseUninstall rest { c with configDir := some value }
        else if arg = lit "--cache-dir" then parseUninstall rest { c with cacheDir := some value }
        else none

/-- What was chosen, `none` when only the usage is printed. -/
def chosen (argv : List Text) : Option Choice :=
  (parseUninstall argv ⟨false, false, none, none⟩).filter fun c => c.removeConfig || c.removeCache

/-- The tree that is left, the calls of `rm_rf` with their success, and what the process
returns. -/
structure Removal where
  tree : DirTree Text
  calls : List (Place × Bool)
  exit : Nat

/-- A call of `rm_rf` has failed. -/
def Removal.failed (r : Removal) : Bool := r.calls.any fun call => !call.2

section Run
variable (h : Host) (rm : Remover Text)

end Run

/-! ## The directories -/

/-- The place of a directory, if its path is not empty. -/
def target (h : Host) (dir : Text) : List Place := if dir = [] then [] else [h.place h.cwd dir]

/-- **The directories that uninstall works out**, of those that were chosen.  Without the
platform's it gives up, even if both are named. -/
def targets (h : Host) (c : Choice) : List Place :=
  match h.defaultDirs with
  | none => []
  | some defaults =>
    (if c.removeCache then target h (c.cacheDir.getD defaults.cacheDir) else []) ++
      (if c.removeConfig then target h (c.configDir.getD defaults.configDir) else [])

section Removal
variable {Doc : Type} (api : PendingApi Doc) (h : Host) (files : Files Doc) (foreground : Bool)
  (tree : DirTree Text) (argv : List Text)

end Removal

/-! ## What a removal comes to -/

/-- The exit status reports what has failed. -/
def Reports (r : Removal) : Prop := r.failed = true → r.exit ≠ 0

/-- **From `r` to `r'` the targets have been cleared**, and a failure that is in the exit status
has stayed there. -/
structure Clears (targets : List Place) (r r' : Removal) : Prop where
  cleared : ∃ failed, Cleared r.tree r'.tree targets failed ∧ r'.failed = (r.failed || failed)
  reports : Reports r → Reports r'

theorem Clears.refl (r : Removal) : Clears [] r r :=
  ⟨⟨false, .refl _, by simp⟩, id⟩

theorem Clears.trans {ps qs : List Place} {a b c : Removal} (hab : Clears ps a b)
    (hbc : Clears qs b c) : Clears (ps ++ qs) a c := by
  obtain ⟨f, hf, hfailed⟩ := hab.cleared
  obtain ⟨g, hg, hfailed'⟩ := hbc.cleared
  exact ⟨⟨f || g, hf.trans hg, by rw [hfailed', hfailed, Bool.or_assoc]⟩,
    fun hr => hbc.reports (hab.reports hr)⟩

variable {h : Host} {rm : Remover Text}

section Daemon
variable {Doc : Type} {api : PendingApi Doc} {files : Files Doc}

variable {foreground : Bool} {tree : DirTree Text} {argv : List Text}

end Daemon

/-! ## A configured cache -/

end Offs.Uninstall
