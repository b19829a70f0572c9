import OffsProof.CachePaths

/-! # `offs cache move`

`_cmd_cache_move`, with what the machine answers at each step as a parameter (`Situation`): the
command is a fixed sequence of checks and effects, and a statement about every outcome of its
steps is one about every situation.

Its effects on what the daemon reads are two.  Staging writes the pending document of the config
directory the CLI has found.  Moving the tree carries along whatever lies in it: `originOf` says
where the file now at a place was before, for the part of the tree that has been moved.  A move
that fails has moved a part of the files, and which one is up to the situation.

The command is cut where its preparations end.  `moveContent` is the part from the stop of the
daemon on, and how it can end is said once (`moveContent_cases`); the checks before it either
end the command, with nothing done, or lead there.  A run that has moved content, whole or in
part, has so found a config directory, where it stages, and the two directories
(`cmdCacheMove_content`), and the later modules start from there: what the next start makes of
such a run, and who starts the daemon again.

The texts that are printed are left out, but for the one that a run ends with (`Outcome`).
-/
namespace Offs.CliCache
open CText CJson Daemon

variable {Doc : Type}

/-! ## Arguments -/

/-- The variables the argument loop sets. -/
structure MoveArgs where
  destText : Option Text
  fromFlag : Option Text
  configDirFlag : Option Text
  unsafeFlag : Bool
  keep : Bool
  deriving DecidableEq, Repr

/-- Why the argument loop returns: after the usage text, with 0 or with 1. -/
inductive Usage
  | help
  | error
  deriving DecidableEq, Repr

/-- An argument that takes no value. -/
def moveWord (args : MoveArgs) (t : Text) : Except Usage MoveArgs :=
  if t = lit "--help" ∨ t = lit "help" then .error .help
  else if t = lit "--unsafe" then .ok { args with unsafeFlag := true }
  else if t = lit "--keep" then .ok { args with keep := true }
  else if t.head? = some '-' ∨ args.destText.isSome then .error .error
  else .ok { args with destText := some t }

/-- The argument loop. -/
def parseMoveArgs : List Text → MoveArgs → Except Usage MoveArgs
  | [], args => .ok args
  | [t], args => moveWord args t
  | t :: value :: rest, args =>
    if t = lit "--from" then parseMoveArgs rest { args with fromFlag := some value }
    else if t = lit "--config-dir" then parseMoveArgs rest { args with configDirFlag := some value }
    else
      match moveWord args t with
      | .ok args => parseMoveArgs (value :: rest) args
      | .error e => .error e

/-! ## What the machine answers -/

/-- `stat` and `dir_is_empty` of the destination. -/
inductive DestState
  | absent
  | notDirectory
  | directory (nonempty : Bool)
  deriving DecidableEq, Repr

/-- How `cli_cache_move_tree` ends: with the whole tree moved, or with a failure after
the files at the relative places `moved`. -/
inductive TreeMove
  | complete
  | failed (moved : Place → Bool)

/-- The answers a run of the command gets.  Nothing relates them to each other: a daemon that cannot
be stopped may be gone all the same, and the tree may be moved whole or in any part. -/
structure Situation where
  dest : Text → DestState
  /-- `mkdir_p(dest)` succeeds. -/
  mkdirs : Bool
  /-- `dir_is_empty(src)` is 0. -/
  srcNonempty : Text → Bool
  /-- The first `cli_daemon_is_running()`. -/
  running : Bool
  /-- `cmd_stop` returns 0. -/
  stops : Bool
  /-- `cli_daemon_wait_stopped` returns 0. -/
  waits : Bool
  /-- The second `cli_daemon_is_running()`. -/
  stillRunning : Bool
  /-- `config_pending_save` of the destination returns 0. -/
  saves : Bool
  tree : TreeMove
  /-- `config_pending_save` of null returns 0. -/
  reverts : Bool

/-! ## Effects -/

/-- `_stage_string_or_null(config_dir, "cache_dir", value)`, when it returns 0. -/
def stageCacheDir (api : PendingApi Doc) (h : Host) (files : Files Doc) (configDir : Text)
    (value : Option Text) : Files Doc :=
  let place := h.pendingPlace h.cwd configDir
  { files with
    pending := Function.update files.pending place (some (api.merge (files.pending place) value)) }

/-- Where the file at `place` was before the files at `moved` went from `src` to
`dest`; `none` if it has gone. -/
def originOf (src dest : Place) (moved : Place → Bool) (place : Place) : Option Place :=
  match place.dropPrefix? dest with
  | some rel => if moved rel then some (src ++ rel) else some place
  | none =>
    match place.dropPrefix? src with
    | some rel => if moved rel then none else some place
    | none => some place

/-- The files after the move. -/
def relocate (src dest : Place) (moved : Place → Bool) (files : Files Doc) : Files Doc where
  entry place := ((originOf src dest moved place).map files.entry).getD ⟨false, .unopened⟩
  pending place := (originOf src dest moved place).bind files.pending

/-- What the command does to the daemon and to the trees, in order. -/
inductive Action
  | stop
  | stage (value : Option Text)
  | moveTree
  | removeSource
  | start
  deriving DecidableEq, Repr

/-- How the command ends, by the message it prints last. -/
inductive Outcome
  | usage (u : Usage)
  | destNotDir
  | destNotEmpty
  | destSame
  | destNested
  | srcUnresolved
  | stageFailed
  | stopFailed
  | noContent (src : Text)
  | keepStaged (dest : Text)
  | moveFailed (src dest : Text) (reverted : Bool)
  | moved (src dest : Text)
  deriving DecidableEq, Repr

def Outcome.status : Outcome → Nat
  | .usage .help | .noContent _ | .keepStaged _ | .moved _ _ => 0
  | _ => 1

structure MoveRun (Doc : Type) where
  outcome : Outcome
  files : Files Doc
  actions : List Action

/-- The command from the stop of the daemon on: `src` has content, and there is no
`--keep`. -/
def moveContent (api : PendingApi Doc) (h : Host) (w : Situation) (files : Files Doc)
    (configDir src dest : Text) : MoveRun Doc :=
  if w.running ∧ (¬ w.stops ∨ ¬ w.waits ∨ w.stillRunning) then ⟨.stopFailed, files, [.stop]⟩
  else
    let stopping := if w.running then [Action.stop] else []
    let starting := if w.running then [Action.start] else []
    if ¬ w.saves then ⟨.stageFailed, files, stopping ++ starting⟩
    else
      let staged := stageCacheDir api h files configDir (some dest)
      match w.tree with
      | .failed moved =>
        let left := relocate (h.locate src) (h.locate dest) moved staged
        -- The revert writes null whatever was staged before.
        if w.reverts then
          ⟨.moveFailed src dest true, stageCacheDir api h left configDir none,
            stopping ++ [.stage (some dest), .moveTree, .stage none] ++ starting⟩
        else
          ⟨.moveFailed src dest false, left, stopping ++ [.stage (some dest), .moveTree] ++ starting⟩
      | .complete =>
        ⟨.moved src dest, relocate (h.locate src) (h.locate dest) (fun _ => true) staged,
          stopping ++ [.stage (some dest), .moveTree, .removeSource] ++ starting⟩

/-- The command once the two directories are known. -/
def moveTo (api : PendingApi Doc) (h : Host) (w : Situation) (files : Files Doc) (keep : Bool)
    (configDir src dest : Text) : MoveRun Doc :=
  match pathsConflict src dest with
  | .same => ⟨.destSame, files, []⟩
  | .nested => ⟨.destNested, files, []⟩
  | .disjoint =>
    -- Without content there is nothing to move, and the daemon is left running.
    if ¬ w.srcNonempty src ∨ keep then
      if ¬ w.saves then ⟨.stageFailed, files, []⟩
      else
        ⟨if ¬ w.srcNonempty src then .noContent src else .keepStaged dest,
          stageCacheDir api h files configDir (some dest), [.stage (some dest)]⟩
    else moveContent api h w files configDir src dest

/-- The command once the destination is usable. -/
def moveResolved (api : PendingApi Doc) (h : Host) (w : Situation) (files : Files Doc)
    (args : MoveArgs) (dest : Text) : MoveRun Doc :=
  match resolveConfigDir h files args.configDirFlag with
  | none => ⟨.stageFailed, files, []⟩
  | some configDir =>
    match (resolveCurrent api h files args.fromFlag configDir).bind (absolutize h) with
    | none => ⟨.srcUnresolved, files, []⟩
    | some src => moveTo api h w files args.keep configDir src dest

/-- The destination is validated before the daemon is touched. -/
def destRefusal (w : Situation) (dest : Text) : Option Outcome :=
  match w.dest dest with
  | .notDirectory => some .destNotDir
  | .directory true => some .destNotEmpty
  | .directory false => none
  | .absent => if w.mkdirs then none else some .destNotDir

/-- The variables before the argument loop. -/
def noArgs : MoveArgs := ⟨none, none, none, false, false⟩

/-- `_cmd_cache_move`. -/
def cmdCacheMove (api : PendingApi Doc) (h : Host) (w : Situation) (files : Files Doc)
    (argv : List Text) : MoveRun Doc :=
  match parseMoveArgs argv noArgs with
  | .error u => ⟨.usage u, files, []⟩
  | .ok args =>
    match args.destText with
    | none => ⟨.usage .error, files, []⟩
    | some destText =>
      match absolutize h destText with
      | none => ⟨.destNotDir, files, []⟩
      | some dest =>
        match destRefusal w dest with
        | some refusal => ⟨refusal, files, []⟩
        | none => moveResolved api h w files args dest

/-- The value given to `--config-dir`. -/
def configDirFlagOf (argv : List Text) : Option Text :=
  match parseMoveArgs argv noArgs with
  | .ok args => args.configDirFlag
  | .error _ => none

/-- The command has come to the point where content is moved. -/
def Outcome.Content (src dest : Text) (o : Outcome) : Prop :=
  o = .moved src dest ∨ ∃ reverted, o = .moveFailed src dest reverted

/-- **How the moving of content ends.** -/
theorem moveContent_cases (api : PendingApi Doc) (h : Host) (w : Situation) (files : Files Doc)
    (configDir src dest : Text) {r : MoveRun Doc}
    (hr : r = moveContent api h w files configDir src dest) :
    (r.outcome = .stopFailed ∧ r.files = files) ∨
    (r.outcome = .stageFailed ∧ r.files = files) ∨
    (∃ moved left, w.tree = .failed moved ∧
      left = relocate (h.locate src) (h.locate dest) moved
        (stageCacheDir api h files configDir (some dest)) ∧
      r.outcome = .moveFailed src dest w.reverts ∧
      r.files = if w.reverts then stageCacheDir api h left configDir none else left) ∨
    (r.outcome = .moved src dest ∧
      r.files = relocate (h.locate src) (h.locate dest) (fun _ => true)
        (stageCacheDir api h files configDir (some dest))) := by
  subst hr
  unfold moveContent
  by_cases hstop : w.running ∧ (¬ w.stops ∨ ¬ w.waits ∨ w.stillRunning)
  · rw [if_pos hstop]
    exact .inl ⟨rfl, rfl⟩
  · rw [if_neg hstop]
    dsimp only
    by_cases hsaves : ¬ w.saves
    · rw [if_pos hsaves]
      exact .inr (.inl ⟨rfl, rfl⟩)
    · rw [if_neg hsaves]
      cases htree : w.tree with
      | complete => exact .inr (.inr (.inr ⟨rfl, rfl⟩))
      | failed moved =>
        refine .inr (.inr (.inl ⟨moved, _, rfl, rfl, ?_⟩))
        cases hreverts : w.reverts <;> exact ⟨rfl, rfl⟩

theorem moveContent_outcome {api : PendingApi Doc} {h : Host} {w : Situation} {files : Files Doc}
    {configDir src dest src' dest' : Text}
    (hc : (moveContent api h w files configDir src dest).outcome.Content src' dest') :
    src' = src ∧ dest' = dest := by
  rcases moveContent_cases api h w files configDir src dest rfl with ⟨ho, -⟩ | ⟨ho, -⟩ |
    ⟨_, _, -, -, ho, -⟩ | ⟨ho, -⟩ <;> rw [ho] at hc <;> rcases hc with hc | ⟨reverted, hc⟩ <;>
    cases hc <;> exact ⟨rfl, rfl⟩

theorem moveTo_content {api : PendingApi Doc} {h : Host} {w : Situation} {files : Files Doc}
    {keep : Bool} {configDir src dest src' dest' : Text}
    (hc : (moveTo api h w files keep configDir src dest).outcome.Content src' dest') :
    moveTo api h w files keep configDir src dest = moveContent api h w files configDir src dest := by
  unfold moveTo at hc ⊢
  cases hconflict : pathsConflict src dest with
  | same => simp [hconflict, Outcome.Content] at hc
  | nested => simp [hconflict, Outcome.Content] at hc
  | disjoint =>
    simp only [hconflict] at hc ⊢
    split at hc
    · split at hc
      · simp [Outcome.Content] at hc
      · dsimp only at hc
        split at hc <;> simp [Outcome.Content] at hc
    · rename_i hstop
      rw [if_neg hstop]

theorem not_content_of_destRefusal {w : Situation} {dest src' dest' : Text} {o : Outcome}
    (h : destRefusal w dest = some o) : ¬ o.Content src' dest' := by
  unfold destRefusal at h
  rintro (rfl | ⟨reverted, rfl⟩) <;> (repeat' split at h) <;> cases h

/-- **A run that comes to moving content**, without `--config-dir`, has found a config
directory and stages there. -/
theorem cmdCacheMove_content {api : PendingApi Doc} {h : Host} {w : Situation} {files : Files Doc}
    {argv : List Text} {src dest : Text} (hflag : configDirFlagOf argv = none)
    (hc : (cmdCacheMove api h w files argv).outcome.Content src dest) :
    ∃ configDir, cliConfigDir h files = some configDir ∧
      cmdCacheMove api h w files argv = moveContent api h w files configDir src dest := by
  unfold cmdCacheMove at hc ⊢
  unfold configDirFlagOf at hflag
  cases hargs : parseMoveArgs argv noArgs with
  | error u => simp [hargs, Outcome.Content] at hc
  | ok args =>
    simp only [hargs] at hc hflag ⊢
    cases htext : args.destText with
    | none => simp [htext, Outcome.Content] at hc
    | some destText =>
      simp only [htext] at hc ⊢
      cases hdest : absolutize h destText with
      | none => simp [hdest, Outcome.Content] at hc
      | some dest' =>
        simp only [hdest] at hc ⊢
        cases hrefusal : destRefusal w dest' with
        | some refusal =>
          simp only [hrefusal] at hc
          exact absurd hc (not_content_of_destRefusal hrefusal)
        | none =>
          simp only [hrefusal, moveResolved, hflag, resolveConfigDir_eq] at hc ⊢
          cases hdir : cliConfigDir h files with
          | none => simp [hdir, Outcome.Content] at hc
          | some configDir =>
            simp only [hdir] at hc ⊢
            cases hsrc : (resolveCurrent api h files args.fromFlag configDir).bind (absolutize h) with
            | none => simp [hsrc, Outcome.Content] at hc
            | some src' =>
              simp only [hsrc] at hc ⊢
              have heq := moveTo_content hc
              rw [heq] at hc ⊢
              obtain ⟨rfl, rfl⟩ := moveContent_outcome hc
              exact ⟨configDir, rfl, rfl⟩

theorem moveContent_moved {api : PendingApi Doc} {h : Host} {w : Situation} {files : Files Doc}
    {configDir src dest : Text}
    (hmoved : (moveContent api h w files configDir src dest).outcome = .moved src dest) :
    (moveContent api h w files configDir src dest).files =
      relocate (h.locate src) (h.locate dest) (fun _ => true)
        (stageCacheDir api h files configDir (some dest)) := by
  rcases moveContent_cases api h w files configDir src dest rfl with ⟨ho, -⟩ | ⟨ho, -⟩ |
    ⟨_, _, -, -, ho, -⟩ | ⟨-, hfiles⟩
  · rw [ho] at hmoved
    cases hmoved
  · rw [ho] at hmoved
    cases hmoved
  · rw [ho] at hmoved
    cases hmoved
  · exact hfiles

theorem moveContent_reverted {api : PendingApi Doc} {h : Host} {w : Situation} {files : Files Doc}
    {configDir src dest : Text}
    (hfailed : (moveContent api h w files configDir src dest).outcome = .moveFailed src dest true) :
    ∃ moved, w.tree = .failed moved ∧
      (moveContent api h w files configDir src dest).files =
        stageCacheDir api h (relocate (h.locate src) (h.locate dest) moved
          (stageCacheDir api h files configDir (some dest))) configDir none := by
  rcases moveContent_cases api h w files configDir src dest rfl with ⟨ho, -⟩ | ⟨ho, -⟩ |
    ⟨moved, left, htree, rfl, ho, hfiles⟩ | ⟨ho, -⟩
  · rw [ho] at hfailed
    cases hfailed
  · rw [ho] at hfailed
    cases hfailed
  · rw [ho, Outcome.moveFailed.injEq] at hfailed
    rw [hfailed.2.2, if_pos rfl] at hfiles
    exact ⟨moved, htree, hfiles⟩
  · rw [ho] at hfailed
    cases hfailed

end Offs.CliCache
