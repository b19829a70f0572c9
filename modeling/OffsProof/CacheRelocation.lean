import OffsProof.CacheAgreement

/-! # After a move

What the next start of the daemon makes of a move that succeeded, and of one that failed and was
reverted.

The staged directory has to get past two obstacles.  A `[cache].dir` in the config file outranks
it, and it is only seen if the daemon looks for the pending document where the CLI has written
it: the CLI reads the config directory from its own working directory and cuts it to its buffer,
and the move itself carries the document along if it lies in the moved tree.  `DestinationSeen`
says when both are passed, of the files that the move leaves, and it is the exact condition
(`relocated_cache_opened_iff`).

The revert stages null, which is not what was there before if an earlier relocation was still
pending.  For a failed move the comparison is with the start that there would have been without
it.  A start that finds its config file and its pending document in place (`Kept`) reads the same
config file (`Kept.sameConfig`), and of the pending document it sees what it saw before, or
nothing where the CLI has staged (`Kept.pendingCacheDir_reverted`).  So it can only tell the
difference if it falls through to the document that the revert has overwritten, and takes
another directory without it (`EarlierStaged`, `failed_move_undone_iff`).
-/
namespace Offs.CliCache
open CText CJson Daemon

variable {Doc : Type}

/-! ## The pending document after staging and moving -/

/-- Where the CLI writes the pending document. -/
def cliPendingPlace (h : Host) (files : Files Doc) : Option Place :=
  (cliConfigDir h files).map (h.pendingPlace h.cwd)

theorem pendingCacheDir_staged {api : PendingApi Doc} (hapi : api.Lawful) {h : Host}
    {files : Files Doc} {configDir : Text} {value : Option Text} {cwd dir : Text} :
    pendingCacheDir api h (stageCacheDir api h files configDir value) cwd dir =
      if h.pendingPlace cwd dir = h.pendingPlace h.cwd configDir then value
      else pendingCacheDir api h files cwd dir := by
  unfold pendingCacheDir stageCacheDir
  dsimp only
  split
  · rename_i hplace
    rw [hplace, Function.update_self, Option.bind_some, hapi.cacheDir_merge]
  · rename_i hplace
    rw [Function.update_of_ne hplace]

theorem pendingCacheDir_relocated {api : PendingApi Doc} (hapi : api.Lawful) {h : Host}
    {files : Files Doc} {configDir : Text} {value : Option Text} {cwd dir : Text}
    {src dest : Place} {moved : Place → Bool} :
    pendingCacheDir api h (relocate src dest moved (stageCacheDir api h files configDir value)) cwd dir =
      if originOf src dest moved (h.pendingPlace cwd dir) = some (h.pendingPlace h.cwd configDir)
      then value
      else pendingCacheDir api h (relocate src dest moved files) cwd dir := by
  unfold pendingCacheDir relocate stageCacheDir
  dsimp only
  cases originOf src dest moved (h.pendingPlace cwd dir) with
  | none => simp
  | some origin =>
    simp only [Option.bind_some, Option.some.injEq]
    split
    · rename_i hplace
      rw [hplace, Function.update_self, Option.bind_some, hapi.cacheDir_merge]
    · rename_i hplace
      rw [Function.update_of_ne hplace]

/-! ## A move that succeeded -/

/-- The daemon gets to see the staged destination.  `left` is the file system as the
move leaves it.  The daemon accepts its config file; and either that file names the
destination itself, or it names no cache directory and the daemon looks for the pending
document where the CLI has written it, or would have taken the destination anyway. -/
def DestinationSeen (api : PendingApi Doc) (h : Host) (files : Files Doc) (src dest : Text) : Prop :=
  let left := relocate (h.locate src) (h.locate dest) (fun _ => true) files
  Accepted h left [] ∧ ∃ dir, daemonConfigDir h left [] = some dir ∧
    (configured h left [] .cacheDir = some dest ∨
      configured h left [] .cacheDir = none ∧ ∃ defaults, h.defaultDirs = some defaults ∧
        (originOf (h.locate src) (h.locate dest) (fun _ => true) (h.pendingPlace (lit "/") dir) =
            cliPendingPlace h files ∨
          (pendingCacheDir api h left (lit "/") dir).getD defaults.cacheDir = dest))

/-- **The daemon opens a relocated cache exactly if it gets to see the destination.**
For every host, all files, every situation of the machine and every run of `offs cache
move` without `--config-dir` that moves the content: the next start without flags opens
the destination if and only if `DestinationSeen`. -/
theorem relocated_cache_opened_iff {api : PendingApi Doc} (hapi : api.Lawful) {h : Host}
    {w : Situation} {files : Files Doc} {argv : List Text} {src dest : Text}
    (hflag : configDirFlagOf argv = none)
    (hmoved : (cmdCacheMove api h w files argv).outcome = .moved src dest) :
    (∃ s, runOffsd api h (cmdCacheMove api h w files argv).files [] = .ok s ∧
        s.args.text .cacheDir = some dest) ↔
      DestinationSeen api h files src dest := by
  obtain ⟨configDir, hdir, hrun⟩ := cmdCacheMove_content hflag (.inl hmoved)
  rw [hrun] at hmoved ⊢
  rw [moveContent_moved hmoved, runOffsd_cacheDir_iff, daemonTakes_iff, DestinationSeen,
    cliPendingPlace, hdir, Option.map_some]
  -- Staging leaves the config file alone, so only the pending document differs.
  refine and_congr Iff.rfl (exists_congr fun dir => and_congr Iff.rfl (or_congr Iff.rfl
    (and_congr Iff.rfl (exists_congr fun defaults => and_congr Iff.rfl ?_))))
  rw [pendingCacheDir_relocated hapi]
  change (if originOf (h.locate src) (h.locate dest) (fun _ => true) (h.pendingPlace (lit "/") dir) =
    some (h.pendingPlace h.cwd configDir) then some dest else
    pendingCacheDir api h (relocate (h.locate src) (h.locate dest) (fun _ => true) files) (lit "/")
      dir).getD defaults.cacheDir = dest ↔ _
  split
  · rename_i hseen
    simp [hseen]
  · rename_i hseen
    simp [hseen]

/-- The daemon runs, stops when it is told to, and nothing fails but perhaps the move
of the tree. -/
def readySituation (tree : TreeMove) : Situation where
  dest _ := .absent
  mkdirs := true
  srcNonempty _ := true
  running := true
  stops := true
  waits := true
  stillRunning := false
  saves := true
  tree := tree
  reverts := true

/-- The theorem for a config file that says nothing. -/
theorem relocated_cache_opened_iff_default :
    (cmdCacheMove plainApi plainHost (readySituation .complete) (plainFiles (.object []) none)
        [lit "/mnt/new"]).outcome = .moved (lit "/var/cache/offs") (lit "/mnt/new") ∧
      ∃ s, runOffsd plainApi plainHost (cmdCacheMove plainApi plainHost (readySituation .complete)
          (plainFiles (.object []) none) [lit "/mnt/new"]).files [] = .ok s ∧
        s.args.text .cacheDir = some (lit "/mnt/new") := by
  have hmoved : (cmdCacheMove plainApi plainHost (readySituation .complete)
      (plainFiles (.object []) none) [lit "/mnt/new"]).outcome =
      .moved (lit "/var/cache/offs") (lit "/mnt/new") := by decide +kernel
  refine ⟨hmoved, (relocated_cache_opened_iff plainApi_lawful (by decide) hmoved).mpr ?_⟩
  exact ⟨⟨by decide, _, rfl⟩, lit "/etc/offs", rfl, .inr ⟨rfl, _, rfl, .inl (by decide +kernel)⟩⟩

/-- **A `[cache].dir` in the config file makes the moved cache disappear**: the content is
in `/mnt/new`, and the daemon opens `/srv/cache`. -/
theorem config_file_outranks_move :
    (cmdCacheMove plainApi plainHost (readySituation .complete)
        (plainFiles (.object [(lit "cache", .object [(lit "dir", .string (lit "/srv/cache"))])]) none)
        [lit "/mnt/new"]).outcome = .moved (lit "/srv/cache") (lit "/mnt/new") ∧
      ¬ ∃ s, runOffsd plainApi plainHost (cmdCacheMove plainApi plainHost (readySituation .complete)
          (plainFiles (.object [(lit "cache", .object [(lit "dir", .string (lit "/srv/cache"))])]) none)
          [lit "/mnt/new"]).files [] = .ok s ∧
        s.args.text .cacheDir = some (lit "/mnt/new") := by
  refine ⟨by decide +kernel, ?_⟩
  rintro ⟨s, hrun, ht⟩
  obtain ⟨s', hrun', ht'⟩ : ∃ s', runOffsd plainApi plainHost
      (cmdCacheMove plainApi plainHost (readySituation .complete)
        (plainFiles (.object [(lit "cache", .object [(lit "dir", .string (lit "/srv/cache"))])]) none)
        [lit "/mnt/new"]).files [] = .ok s' ∧
      s'.args.text .cacheDir = some (lit "/srv/cache") := ⟨_, rfl, rfl⟩
  cases hrun.symm.trans hrun'
  exact absurd (ht.symm.trans ht') (by decide)

/-! ## A move that failed -/

section Undone
variable (api : PendingApi Doc) (h : Host) (files : Files Doc) (argv : List Text)

/-- A fresh start with the arguments `argv` opens the directory `place`: it is not refused, and
the text that it takes leads there from the directory that the process is in. -/
def Opens (place : Place) : Prop :=
  ∃ s t, runOffsd api h files argv = .ok s ∧ s.args.text .cacheDir = some t ∧
    h.place s.cwd t = place

/-- The move of the tree, as far as it went, has left alone the config file and the
pending document that a start reads.  The config file is the one that the last `--config`
names, or else the default one; a start with `--config` does not look for the default one,
which may have been moved away. -/
structure Kept (src dest : Place) (moved : Place → Bool) : Prop where
  config : ∀ path, (lastValue (.text .configPath) argv).or h.defaultConfigPath = some path →
    originOf src dest moved (h.place h.cwd path) = some (h.place h.cwd path)
  pending : ∀ dir, daemonConfigDir h files argv = some dir →
    originOf src dest moved (h.pendingPlace (startCwd h argv) dir) =
      some (h.pendingPlace (startCwd h argv) dir)

/-- An earlier relocation is still pending where the CLI stages, it decides where a start opens
the cache, and it is not to the platform's directory.  This is all that the null of a revert can
hide. -/
def EarlierStaged : Prop :=
  Accepted h files argv ∧ configured h files argv .cacheDir = none ∧
    ∃ defaults dir t, h.defaultDirs = some defaults ∧ daemonConfigDir h files argv = some dir ∧
      cliPendingPlace h files = some (h.pendingPlace (startCwd h argv) dir) ∧
      pendingCacheDir api h files (startCwd h argv) dir = some t ∧
      h.place (startCwd h argv) t ≠ h.place (startCwd h argv) defaults.cacheDir

end Undone

theorem opens_iff {api : PendingApi Doc} {h : Host} {files : Files Doc} {argv : List Text}
    {place : Place} :
    Opens api h files argv place ↔ Accepted h files argv ∧
      ∃ t, DaemonTakes api h files argv t ∧ h.place (startCwd h argv) t = place := by
  constructor
  · rintro ⟨s, t, hrun, ht, hplace⟩
    obtain ⟨-, parsed, hparsed, hs⟩ := runOffsd_ok hrun
    obtain ⟨haccepted, htakes⟩ := runOffsd_cacheDir_iff.mp ⟨s, hrun, ht⟩
    rw [hs.cwd, (parsed_configured hparsed).2.2] at hplace
    exact ⟨haccepted, t, htakes, hplace⟩
  · rintro ⟨haccepted, t, htakes, hplace⟩
    obtain ⟨s, hrun, ht⟩ := runOffsd_cacheDir_iff.mpr ⟨haccepted, htakes⟩
    obtain ⟨-, parsed, hparsed, hs⟩ := runOffsd_ok hrun
    refine ⟨s, t, hrun, ht, ?_⟩
    rw [hs.cwd, (parsed_configured hparsed).2.2]
    exact hplace

/-- Neither staging nor a move that keeps the config file changes what a start reads
of it. -/
theorem Kept.sameConfig {h : Host} {files : Files Doc} {argv : List Text} {src dest : Place}
    {moved : Place → Bool} (hkept : Kept h files argv src dest moved) (api : PendingApi Doc)
    (configDir : Text) (v v' : Option Text) :
    SameConfig h files (stageCacheDir api h (relocate src dest moved
      (stageCacheDir api h files configDir v)) configDir v') argv := by
  have hentry : ∀ path, (lastValue (.text .configPath) argv).or h.defaultConfigPath = some path →
      (relocate src dest moved files).entry (h.place h.cwd path) = files.entry (h.place h.cwd path) := by
    intro path hpath
    simp [relocate, hkept.config path hpath]
  have hpath : (lastValue (.text .configPath) argv).or
      (h.configPath (relocate src dest moved files)) =
      (lastValue (.text .configPath) argv).or (h.configPath files) := by
    cases hlast : lastValue (.text .configPath) argv with
    | some t => rfl
    | none =>
      rw [hlast] at hentry
      unfold Host.configPath
      cases hdefault : h.defaultConfigPath with
      | none => rfl
      | some path => rw [Option.filter_some, Option.filter_some, hentry path hdefault]
  refine ⟨hpath, fun path hread => ?_⟩
  have hread : (lastValue (.text .configPath) argv).or h.defaultConfigPath = some path := by
    cases hlast : lastValue (.text .configPath) argv with
    | some t =>
      rw [hlast] at hread
      exact hread
    | none =>
      rw [hlast, Option.none_or] at hread
      exact Option.eq_some_of_filter_eq_some hread
  show ((relocate src dest moved files).entry (h.place h.cwd path)).document = _
  rw [hentry path hread]
  rfl

/-- The staged directory a start sees after the revert: none where the CLI has staged,
and elsewhere what it saw before. -/
theorem Kept.pendingCacheDir_reverted {api : PendingApi Doc} (hapi : api.Lawful) {h : Host}
    {files : Files Doc} {argv : List Text} {src dest : Place} {moved : Place → Bool}
    (hkept : Kept h files argv src dest moved) (configDir : Text) (v : Option Text) {dir : Text}
    (hdir : daemonConfigDir h files argv = some dir) :
    pendingCacheDir api h (stageCacheDir api h (relocate src dest moved
        (stageCacheDir api h files configDir v)) configDir none) (startCwd h argv) dir =
      if h.pendingPlace (startCwd h argv) dir = h.pendingPlace h.cwd configDir then none
      else pendingCacheDir api h files (startCwd h argv) dir := by
  have horigin := hkept.pending dir hdir
  rw [pendingCacheDir_staged hapi]
  split
  · rfl
  · rename_i hplace
    rw [pendingCacheDir_relocated hapi, horigin, if_neg fun heq => hplace (Option.some.inj heq)]
    simp only [pendingCacheDir, relocate, horigin, Option.bind_some]

/-- The directory that a start falls back to after the revert, with the config directory
`dir` and the platform's cache directory `default`. -/
def revertedDir (api : PendingApi Doc) (h : Host) (files : Files Doc) (start : List Text)
    (configDir dir default : Text) : Text :=
  (if h.pendingPlace (startCwd h start) dir = h.pendingPlace h.cwd configDir then none
    else pendingCacheDir api h files (startCwd h start) dir).getD default

/-- Only a start that falls through to the pending document can tell that there was a
move. -/
theorem Kept.daemonTakes_reverted {api : PendingApi Doc} (hapi : api.Lawful) {h : Host}
    {files : Files Doc} {start : List Text} {src dest : Place} {moved : Place → Bool}
    (hkept : Kept h files start src dest moved) (configDir : Text) (v : Option Text) (t : Text) :
    DaemonTakes api h (stageCacheDir api h (relocate src dest moved
        (stageCacheDir api h files configDir v)) configDir none) start t ↔
      ∃ dir, daemonConfigDir h files start = some dir ∧
        (configured h files start .cacheDir = some t ∨
          configured h files start .cacheDir = none ∧ ∃ defaults, h.defaultDirs = some defaults ∧
            revertedDir api h files start configDir dir defaults.cacheDir = t) := by
  have hsame := hkept.sameConfig api configDir v none
  rw [daemonTakes_iff, hsame.daemonConfigDir, hsame.configured]
  refine exists_congr fun dir => and_congr_right fun hdir => ?_
  rw [hkept.pendingCacheDir_reverted hapi configDir v hdir]
  rfl

/-- Where nothing was staged before, a start falls back to the directory it would have
taken. -/
theorem revertedDir_place {api : PendingApi Doc} {h : Host} {files : Files Doc} {start : List Text}
    {configDir dir : Text} {defaults : DefaultDirs} (hearlier : ¬ EarlierStaged api h files start)
    (haccepted : Accepted h files start) (hcache : configured h files start .cacheDir = none)
    (hcli : cliConfigDir h files = some configDir) (hdefaults : h.defaultDirs = some defaults)
    (hdir : daemonConfigDir h files start = some dir) :
    h.place (startCwd h start) (revertedDir api h files start configDir dir defaults.cacheDir) =
      h.place (startCwd h start)
        ((pendingCacheDir api h files (startCwd h start) dir).getD defaults.cacheDir) := by
  unfold revertedDir
  split
  · rename_i hplace
    cases ht : pendingCacheDir api h files (startCwd h start) dir with
    | none => rfl
    | some t =>
      by_contra hne
      refine hearlier ⟨haccepted, hcache, defaults, dir, t, hdefaults, hdir, ?_, ht, Ne.symm hne⟩
      rw [cliPendingPlace, hcli, Option.map_some, hplace]
  · rfl

/-- **A failed move is undone exactly if no earlier relocation was pending.**  For every
host, all files and every situation in which the move of the tree fails and the revert
is written, and for every fresh start that finds its config file and its pending
document in place: the start opens the directory it would have opened without the move
if and only if the null that the revert stages does not hide an earlier `cache_dir`. -/
theorem failed_move_undone_iff {api : PendingApi Doc} (hapi : api.Lawful) {h : Host}
    {w : Situation} {files : Files Doc} {argv start : List Text} {src dest : Text}
    {moved : Place → Bool} (hflag : configDirFlagOf argv = none) (htree : w.tree = .failed moved)
    (hfailed : (cmdCacheMove api h w files argv).outcome = .moveFailed src dest true)
    (hkept : Kept h files start (h.locate src) (h.locate dest) moved) :
    (∀ place, Opens api h (cmdCacheMove api h w files argv).files start place ↔
        Opens api h files start place) ↔
      ¬ EarlierStaged api h files start := by
  obtain ⟨configDir, hcli, hrun⟩ := cmdCacheMove_content hflag (.inr ⟨true, hfailed⟩)
  rw [hrun] at hfailed ⊢
  obtain ⟨moved', htree', hfiles⟩ := moveContent_reverted hfailed
  cases htree.symm.trans htree'
  rw [hfiles]
  have hsame := hkept.sameConfig api configDir (some dest) none
  have htakes := hkept.daemonTakes_reverted hapi configDir (some dest)
  generalize stageCacheDir api h (relocate (h.locate src) (h.locate dest) moved
    (stageCacheDir api h files configDir (some dest))) configDir none = after at hsame htakes ⊢
  constructor
  · rintro hundone ⟨haccepted, hcache, defaults, dir, t, hdefaults, hdir, hplace, ht, hne⟩
    rw [cliPendingPlace, hcli, Option.map_some, Option.some.injEq] at hplace
    have hbefore : Opens api h files start (h.place (startCwd h start) t) :=
      opens_iff.mpr ⟨haccepted, t, .staged hcache hdefaults hdir ht, rfl⟩
    obtain ⟨-, t', htakes', hplace'⟩ := opens_iff.mp ((hundone _).mpr hbefore)
    obtain ⟨dir', hdir', hcache' | ⟨-, defaults', hdefaults', rfl⟩⟩ := (htakes t').mp htakes'
    · rw [hcache] at hcache'
      cases hcache'
    · cases hdir.symm.trans hdir'
      cases hdefaults.symm.trans hdefaults'
      rw [revertedDir, if_pos hplace.symm] at hplace'
      exact hne hplace'.symm
  · intro hearlier place
    rw [opens_iff, opens_iff, hsame.accepted]
    refine and_congr_right fun haccepted => ?_
    constructor
    · rintro ⟨t, ht, rfl⟩
      obtain ⟨dir, hdir, hcache | ⟨hcache, defaults, hdefaults, rfl⟩⟩ := (htakes t).mp ht
      · exact ⟨t, .explicit hcache hdir, rfl⟩
      · exact ⟨_, daemonTakes_iff.mpr ⟨dir, hdir, .inr ⟨hcache, defaults, hdefaults, rfl⟩⟩,
          (revertedDir_place hearlier haccepted hcache hcli hdefaults hdir).symm⟩
    · rintro ⟨t, ht, rfl⟩
      obtain ⟨dir, hdir, hcache | ⟨hcache, defaults, hdefaults, rfl⟩⟩ := daemonTakes_iff.mp ht
      · exact ⟨t, (htakes t).mpr ⟨dir, hdir, .inl hcache⟩, rfl⟩
      · exact ⟨_, (htakes _).mpr ⟨dir, hdir, .inr ⟨hcache, defaults, hdefaults, rfl⟩⟩,
          revertedDir_place hearlier haccepted hcache hcli hdefaults hdir⟩

/-- A move that fails at its first file has left everything alone. -/
theorem originOf_unmoved (src dest place : Place) :
    originOf src dest (fun _ => false) place = some place := by
  unfold originOf
  split
  · rfl
  · split <;> rfl

/-- The theorem where nothing was pending: the move fails at its first file, and the
daemon goes on with the platform's directory. -/
theorem failed_move_undone_iff_default :
    Opens plainApi plainHost (cmdCacheMove plainApi plainHost
        (readySituation (.failed fun _ => false)) (plainFiles (.object []) none)
        [lit "/mnt/new"]).files [] (components (lit "/var/cache/offs")) := by
  have hfailed : (cmdCacheMove plainApi plainHost (readySituation (.failed fun _ => false))
      (plainFiles (.object []) none) [lit "/mnt/new"]).outcome =
      .moveFailed (lit "/var/cache/offs") (lit "/mnt/new") true := by
    decide +kernel
  have hbefore : Opens plainApi plainHost (plainFiles (.object []) none) []
      (components (lit "/var/cache/offs")) :=
    ⟨_, lit "/var/cache/offs", rfl, by decide +kernel, by decide +kernel⟩
  refine ((failed_move_undone_iff plainApi_lawful (by decide) rfl hfailed
    ⟨fun _ _ => originOf_unmoved _ _ _, fun _ _ => originOf_unmoved _ _ _⟩).mpr ?_ _).mpr hbefore
  rintro ⟨-, -, -, dir, t, -, -, -, ht, -⟩
  simp [pendingCacheDir, plainFiles] at ht

/-- **A revert forgets an earlier relocation**: the cache was staged to `/srv/old`, a move
to `/mnt/new` failed at its first file, and the daemon opens `/var/cache/offs`. -/
theorem revert_forgets_earlier_move :
    (cmdCacheMove plainApi plainHost (readySituation (.failed fun _ => false))
        (plainFiles (.object []) (some (some (lit "/srv/old")))) [lit "/mnt/new"]).outcome =
      .moveFailed (lit "/srv/old") (lit "/mnt/new") true ∧
    Opens plainApi plainHost (plainFiles (.object []) (some (some (lit "/srv/old")))) []
      (components (lit "/srv/old")) ∧
    ¬ Opens plainApi plainHost (cmdCacheMove plainApi plainHost
        (readySituation (.failed fun _ => false))
        (plainFiles (.object []) (some (some (lit "/srv/old")))) [lit "/mnt/new"]).files []
      (components (lit "/srv/old")) := by
  refine ⟨by decide +kernel, ⟨_, lit "/srv/old", rfl, by decide +kernel, by decide +kernel⟩, ?_⟩
  rintro ⟨s, t, hrun, ht, hplace⟩
  obtain ⟨s', hrun', ht', hplace'⟩ : ∃ s', runOffsd plainApi plainHost
      (cmdCacheMove plainApi plainHost (readySituation (.failed fun _ => false))
        (plainFiles (.object []) (some (some (lit "/srv/old")))) [lit "/mnt/new"]).files [] = .ok s' ∧
      s'.args.text .cacheDir = some (lit "/var/cache/offs") ∧
      plainHost.place s'.cwd (lit "/var/cache/offs") ≠ components (lit "/srv/old") :=
    ⟨_, rfl, by decide +kernel, by decide +kernel⟩
  cases hrun.symm.trans hrun'
  cases ht.symm.trans ht'
  exact hplace' hplace

end Offs.CliCache
