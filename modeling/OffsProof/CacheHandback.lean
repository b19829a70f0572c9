import OffsProof.Answered
import OffsProof.CacheRelocation

/-! # The daemon around a cache move

`offs cache move` stops a running daemon before it touches anything, and starts it again when it
is done.  What it does to the daemon and to the trees is in the actions of its run, and that a
stop is followed by a start is a property of that log (`CallLog.Answered`).

Every way out after the stop starts the daemon again, but for one: when the daemon has been told
to stop and is still there after ten seconds, the command says that nothing was changed and
returns.  The daemon goes on draining and stops all the same.

A run either leaves the daemon alone (`HandsOff`) or comes to the point where content is moved
(`cmdCacheMove_handsOff`).  In the first case nothing has to be given back.  In the second the
log is looked at from its end: all that happens between the stop and the start asks for nothing,
and the start answers what was asked before (`givenBack_around`).  So the daemon is given back
just if one that is told to stop is gone in time (`daemon_given_back_iff`), which is a condition
on the machine before the command decides anything (`StopsInTime`).
-/
namespace Offs.CliCache
open CText CJson Daemon CallLog

variable {Doc : Type}

section Run
variable (api : PendingApi Doc) (h : Host) (w : Situation) (files : Files Doc) (argv : List Text)

/-- The daemon has been sent the signal: `cmd_stop` was called and returned 0. -/
def StopSent (r : MoveRun Doc) : Prop := .stop ∈ r.actions ∧ w.stops = true

/-- **The daemon is given back**: a stop request that was sent is followed by a start, and
when the message says that nothing was changed, none was sent, nothing was staged and no
file was moved. -/
structure GivenBack (r : MoveRun Doc) : Prop where
  started : StopSent w r → Answered .stop .start r.actions
  unchanged : r.outcome = .stopFailed →
    ¬StopSent w r ∧ (∀ value, .stage value ∉ r.actions) ∧ .moveTree ∉ r.actions ∧
      .removeSource ∉ r.actions ∧ r.files = files

/-- The command has content to move, from `src` to `dest`: its arguments are complete, the
destination is usable, both directories are known and apart, and there is no `--keep`. -/
structure Moves (configDir src dest : Text) : Prop where
  disjoint : pathsConflict src dest = .disjoint
  content : w.srcNonempty src = true
  usable : destRefusal w dest = none
  resolved : ∃ args destText, parseMoveArgs argv noArgs = .ok args ∧ args.destText = some destText ∧
    absolutize h destText = some dest ∧ args.keep = false ∧
    resolveConfigDir h files args.configDirFlag = some configDir ∧
    (resolveCurrent api h files args.fromFlag configDir).bind (absolutize h) = some src

/-- **A daemon that is told to stop is gone in time.**  It is asked for only where the command comes
to the stop: it has content to move, the daemon runs, and `cmd_stop` could signal it. -/
def StopsInTime : Prop :=
  (∃ configDir src dest, Moves api h w files argv configDir src dest) → w.running = true →
    w.stops = true → w.waits = true ∧ w.stillRunning = false

end Run

variable {api : PendingApi Doc} {h : Host} {w : Situation} {files : Files Doc} {argv : List Text}

/-! ## Runs that leave the daemon alone -/

/-- The daemon is not touched, and the message is another one than that about a daemon that could
not be stopped. -/
structure HandsOff (r : MoveRun Doc) : Prop where
  outcome : r.outcome ≠ .stopFailed
  actions : .stop ∉ r.actions

theorem HandsOff.givenBack {r : MoveRun Doc} (hr : HandsOff r) : GivenBack w files r where
  started hsent := absurd hsent.1 hr.actions
  unchanged ho := absurd ho hr.outcome

theorem moveTo_handsOff {keep : Bool} {configDir src dest : Text} :
    HandsOff (moveTo api h w files keep configDir src dest) ∨
      (pathsConflict src dest = .disjoint ∧ w.srcNonempty src = true ∧ keep = false ∧
        moveTo api h w files keep configDir src dest =
          moveContent api h w files configDir src dest) := by
  unfold moveTo
  cases hconflict : pathsConflict src dest with
  | same => exact .inl ⟨by simp, by simp⟩
  | nested => exact .inl ⟨by simp, by simp⟩
  | disjoint =>
    dsimp only
    by_cases hstage : ¬w.srcNonempty src = true ∨ keep = true
    · rw [if_pos hstage]
      refine .inl ?_
      split
      · exact ⟨by simp, by simp⟩
      · refine ⟨?_, by simp⟩
        dsimp only
        split <;> simp
    · rw [if_neg hstage]
      obtain ⟨hcontent, hkeep⟩ := not_or.mp hstage
      exact .inr ⟨rfl, not_not.mp hcontent, by simpa using hkeep, rfl⟩

theorem not_stopFailed_of_destRefusal {dest : Text} {o : Outcome}
    (hrefusal : destRefusal w dest = some o) : o ≠ .stopFailed := by
  unfold destRefusal at hrefusal
  rintro rfl
  (repeat' split at hrefusal) <;> cases hrefusal

/-- **A run either leaves the daemon alone or comes to moving content.**  By the ways out, in
their order: from arguments that are refused to a source with nothing in it or `--keep`, where the
new directory is staged and no more. -/
theorem cmdCacheMove_handsOff :
    HandsOff (cmdCacheMove api h w files argv) ∨
      ∃ configDir src dest, Moves api h w files argv configDir src dest ∧
        cmdCacheMove api h w files argv = moveContent api h w files configDir src dest := by
  unfold cmdCacheMove
  cases hargs : parseMoveArgs argv noArgs with
  | error u => exact .inl ⟨by simp, by simp⟩
  | ok args =>
    dsimp only
    cases htext : args.destText with
    | none => exact .inl ⟨by simp, by simp⟩
    | some destText =>
      dsimp only
      cases hdest : absolutize h destText with
      | none => exact .inl ⟨by simp, by simp⟩
      | some dest =>
        dsimp only
        cases hrefusal : destRefusal w dest with
        | some refusal => exact .inl ⟨not_stopFailed_of_destRefusal hrefusal, by simp⟩
        | none =>
          unfold moveResolved
          dsimp only
          cases hdir : resolveConfigDir h files args.configDirFlag with
          | none => exact .inl ⟨by simp, by simp⟩
          | some configDir =>
            dsimp only
            cases hsrc : (resolveCurrent api h files args.fromFlag configDir).bind (absolutize h) with
            | none => exact .inl ⟨by simp, by simp⟩
            | some src =>
              dsimp only
              rcases @moveTo_handsOff Doc api h w files args.keep configDir src dest with
                hoff | ⟨hconflict, hcontent, hkeep, heq⟩
              · exact .inl hoff
              · exact .inr ⟨configDir, src, dest, ⟨hconflict, hcontent, hrefusal, args, destText, hargs,
                  htext, hdest, hkeep, hdir, hsrc⟩, heq⟩

theorem cmdCacheMove_of_moves {configDir src dest : Text}
    (hmoves : Moves api h w files argv configDir src dest) :
    cmdCacheMove api h w files argv = moveContent api h w files configDir src dest := by
  obtain ⟨hconflict, hcontent, hrefusal, args, destText, hargs, htext, hdest, hkeep, hdir, hsrc⟩ :=
    hmoves
  simp [cmdCacheMove, moveResolved, moveTo, hargs, htext, hdest, hrefusal, hdir, hsrc, hconflict,
    hcontent, hkeep]

/-! ## Runs that move content -/

/-- The actions of a run between the stop and the start. -/
theorem givenBack_around {r : MoveRun Doc} {between : List Action}
    (houtcome : r.outcome ≠ .stopFailed) (hbetween : .stop ∉ between)
    (hactions : r.actions = (if w.running then [Action.stop] else []) ++ between ++
      (if w.running then [Action.start] else [])) : GivenBack w files r where
  started _ := by
    rw [hactions]
    by_cases hrunning : w.running = true
    · rw [if_pos hrunning, if_pos hrunning]
      have hlast : Answered Action.stop .start [.start] := by decide
      exact hlast.append List.mem_cons_self
    · rw [if_neg hrunning, if_neg hrunning]
      exact answered_of_not_mem (by simpa using hbetween)
  unchanged ho := absurd ho houtcome

/-- **Every way out after a stop in time starts the daemon again.** -/
theorem moveContent_givenBack {configDir src dest : Text}
    (hstop : ¬(w.running ∧ (¬w.stops ∨ ¬w.waits ∨ w.stillRunning))) :
    GivenBack w files (moveContent api h w files configDir src dest) := by
  unfold moveContent
  rw [if_neg hstop]
  dsimp only
  by_cases hsaves : ¬w.saves
  · rw [if_pos hsaves]
    exact @givenBack_around Doc w files _ [] (by simp) (by simp) (by simp)
  · rw [if_neg hsaves]
    cases w.tree with
    | complete =>
      exact @givenBack_around Doc w files _ [.stage (some dest), .moveTree, .removeSource] (by simp)
        (by simp) rfl
    | failed moved =>
      dsimp only
      by_cases hreverts : w.reverts = true
      · rw [if_pos hreverts]
        exact @givenBack_around Doc w files _ [.stage (some dest), .moveTree, .stage none] (by simp)
          (by simp) rfl
      · rw [if_neg hreverts]
        exact @givenBack_around Doc w files _ [.stage (some dest), .moveTree] (by simp) (by simp) rfl

/-- A daemon that could not be told to stop has not been touched. -/
theorem moveContent_unsent {configDir src dest : Text} (hrunning : w.running = true)
    (hstops : w.stops = false) :
    GivenBack w files (moveContent api h w files configDir src dest) := by
  have hrun : moveContent api h w files configDir src dest = ⟨.stopFailed, files, [.stop]⟩ := by
    simp [moveContent, hrunning, hstops]
  rw [hrun]
  refine ⟨fun hsent => ?_, fun _ => ⟨fun hsent => ?_, by simp, by simp, by simp, rfl⟩⟩
  · simp [StopSent, hstops] at hsent
  · simp [StopSent, hstops] at hsent

/-- **A cache move gives the daemon back exactly if a daemon that it tells to stop is gone in
time.**  For every machine, all files, all arguments and all outcomes of the steps.  Only a run
that comes to moving content touches the daemon at all (`cmdCacheMove_handsOff`).  From there on
every way out after a stop in time starts it again (`moveContent_givenBack`); and if the stop has
been sent and is not over in time the command returns at once, with the stop as all that it did.
-/
theorem daemon_given_back_iff (api : PendingApi Doc) (h : Host) (w : Situation) (files : Files Doc)
    (argv : List Text) :
    GivenBack w files (cmdCacheMove api h w files argv) ↔ StopsInTime api h w files argv := by
  by_cases hcontent : ∃ configDir src dest, Moves api h w files argv configDir src dest
  · obtain ⟨configDir, src, dest, hmoves⟩ := hcontent
    rw [cmdCacheMove_of_moves hmoves]
    constructor
    · intro hback _ hrunning hstops
      by_contra hlate
      have hrun : moveContent api h w files configDir src dest = ⟨.stopFailed, files, [.stop]⟩ := by
        unfold moveContent
        rw [if_pos]
        refine ⟨hrunning, .inr ?_⟩
        by_cases hwaits : w.waits = true
        · exact .inr (by simpa [hwaits] using hlate)
        · exact .inl hwaits
      rw [hrun] at hback
      exact (hback.unchanged rfl).1 ⟨List.mem_cons_self, hstops⟩
    · intro htime
      by_cases hrunning : w.running = true
      · by_cases hstops : w.stops = true
        · obtain ⟨hwaits, hgone⟩ := htime ⟨configDir, src, dest, hmoves⟩ hrunning hstops
          exact moveContent_givenBack (by simp [hstops, hwaits, hgone])
        · exact moveContent_unsent hrunning (by simpa using hstops)
      · exact moveContent_givenBack fun hboth => hrunning hboth.1
  · rcases @cmdCacheMove_handsOff Doc api h w files argv with hoff | ⟨configDir, src, dest, hmoves, -⟩
    · exact iff_of_true hoff.givenBack fun hmoves => absurd hmoves hcontent
    · exact absurd ⟨configDir, src, dest, hmoves⟩ hcontent

/-! ## A daemon that drains for too long -/

/-- The daemon gets the signal and is still there after ten seconds. -/
def drainingSituation : Situation := { readySituation .complete with waits := false }

/-- **The command says that nothing was changed, and the daemon stays down**: the stop request
is the only thing that it did. -/
theorem draining_daemon_not_restarted :
    (cmdCacheMove plainApi plainHost drainingSituation (plainFiles (.object []) none)
        [lit "/mnt/new"]).outcome = .stopFailed ∧
      (cmdCacheMove plainApi plainHost drainingSituation (plainFiles (.object []) none)
        [lit "/mnt/new"]).actions = [.stop] ∧
      StopSent drainingSituation (cmdCacheMove plainApi plainHost drainingSituation
        (plainFiles (.object []) none) [lit "/mnt/new"]) ∧
      ¬GivenBack drainingSituation (plainFiles (.object []) none) (cmdCacheMove plainApi plainHost
        drainingSituation (plainFiles (.object []) none) [lit "/mnt/new"]) := by
  have houtcome : (cmdCacheMove plainApi plainHost drainingSituation (plainFiles (.object []) none)
      [lit "/mnt/new"]).outcome = .stopFailed := by decide +kernel
  have hactions : (cmdCacheMove plainApi plainHost drainingSituation (plainFiles (.object []) none)
      [lit "/mnt/new"]).actions = [.stop] := by decide +kernel
  have hsent : StopSent drainingSituation (cmdCacheMove plainApi plainHost drainingSituation
      (plainFiles (.object []) none) [lit "/mnt/new"]) := by
    refine ⟨?_, rfl⟩
    rw [hactions]
    exact List.mem_cons_self
  exact ⟨houtcome, hactions, hsent, fun h => (h.unchanged houtcome).1 hsent⟩

end Offs.CliCache
