import OffsProof.FlagPrecedence

/-! # Starting the daemon

`_run_offsd` from its default members to the arguments it hands to the first `_startup`.  The
default config file counts only if it is a regular file; the state directories that neither a
flag nor the file names come from the platform; and a staged `cache_dir` replaces the platform's
one, but not a configured one.  The config file is read in the caller's working directory, the
pending document after `_daemonize` has changed to `/`.

Directories are told apart by where a path leads (`Host.locate`), not by its text.  The pending
document belongs to liboffs, of any type (`PendingApi`), and lies at
`{config_dir}/pending_config.json`.  The forks of `_daemonize` are taken to succeed.

What a start comes to is a structure (`StartedFrom`): the parsed members, the config directory,
and the choice among the three cache directories.  From it follows which directory the daemon
takes, as a relation on the files with one constructor for each place where it can come from
(`DaemonTakes`, `runOffsd_cacheDir_iff`).  Two file systems in which a start finds the same config
file (`SameConfig`) are the same for all of this but for the pending document.

`args` of a start holds what the config file says, except for the bind address and for numbers
that its members cannot hold (`file_takes_effect_iff`).
-/
namespace Offs.Daemon
open CText CJson

/-- A place in the file system: the components of its real path. -/
abbrev Place := List Text

/-- A file where a config file is looked for. -/
structure Entry where
  regular : Bool
  document : Document

/-- The files the daemon and the CLI read, with pending documents in `Doc`. -/
structure Files (Doc : Type) where
  entry : Place → Entry
  pending : Place → Option Doc

/-- `offs_default_dirs_t` -/
structure DefaultDirs where
  configDir : Text
  cacheDir : Text
  deriving DecidableEq, Repr

/-- The machine as one caller sees it. -/
structure Host where
  /-- The caller's working directory. -/
  cwd : Text
  /-- Where an absolute path leads. -/
  locate : Text → Place
  /-- `offs_default_config_path_get` -/
  defaultConfigPath : Option Text
  /-- `offs_default_dirs_get` -/
  defaultDirs : Option DefaultDirs
  nprocs : Int
  undefinedCast : Double → Nat

/-- The pending documents of liboffs: the `cache_dir` that `config_pending_load` gives,
and what `config_pending_save` makes of a document when `cache_dir` is staged, as a
string or as null. -/
structure PendingApi (Doc : Type) where
  cacheDir : Doc → Option Text
  merge : Option Doc → Option Text → Doc

/-- A staged `cache_dir` is what is read back, and null drops it.  This is what
`config_pending_save` and `config_pending_load` are for, whatever else the document holds. -/
structure PendingApi.Lawful {Doc : Type} (api : PendingApi Doc) : Prop where
  cacheDir_merge : ∀ d value, api.cacheDir (api.merge d value) = value

/-- A path as seen from the directory `cwd`. -/
def absolute (cwd path : Text) : Text :=
  match path with
  | '/' :: _ => path
  | _ => cwd ++ '/' :: path

namespace Host

def place (h : Host) (cwd path : Text) : Place := h.locate (absolute cwd path)

/-- `{config_dir}/pending_config.json`, seen from `cwd`. -/
def pendingPlace (h : Host) (cwd configDir : Text) : Place :=
  h.place cwd (configDir ++ lit "/pending_config.json")

variable {Doc : Type}

/-- What the parsers of a process in the caller's directory see. -/
def system (h : Host) (files : Files Doc) : System where
  document path := (files.entry (h.place h.cwd path)).document
  nprocs := h.nprocs
  undefinedCast := h.undefinedCast

/-- The config file of a start without `--config`. -/
def configPath (h : Host) (files : Files Doc) : Option Text :=
  h.defaultConfigPath.filter fun path => (files.entry (h.place h.cwd path)).regular

end Host

/-- Why `_run_offsd` ends before the first `_startup`. -/
inductive StartFailure
  | uninstall
  | refused (r : Refusal)
  | noDefaultDirs
  deriving DecidableEq, Repr

/-- What the first `_startup` gets, and the directory the process is then in. -/
structure Started (Doc : Type) where
  args : OffsdArgs
  cfg : Option Doc
  cwd : Text

/-- The state directories, filled in from the platform. -/
def fillDefaultDirs (h : Host) (args : OffsdArgs) : Option OffsdArgs :=
  if args.text .cacheDir = none ∨ args.text .configDir = none then
    h.defaultDirs.map fun defaults =>
      (args.setText .configDir ((args.text .configDir).or (some defaults.configDir))).setText
        .cacheDir ((args.text .cacheDir).or (some defaults.cacheDir))
  else some args

/-- `_load_pending_override`: `config_pending_exists` is 1 when there is a document. -/
def loadPendingOverride {Doc : Type} (h : Host) (files : Files Doc) (cwd : Text) (args : OffsdArgs) :
    Option Doc :=
  (args.text .configDir).bind fun configDir => files.pending (h.pendingPlace cwd configDir)

/-- `_run_offsd` up to the first `_startup`, over `argv[1]` and what follows. -/
def runOffsd {Doc : Type} (api : PendingApi Doc) (h : Host) (files : Files Doc) (argv : List Text) :
    Except StartFailure (Started Doc) :=
  if argv.head? = some (lit "uninstall") then .error .uninstall
  else
    match parseArgs (h.system files) argv (defaultArgs (h.configPath files)) with
    | .error r => .error (.refused r)
    | .ok parsed =>
      match fillDefaultDirs h parsed with
      | none => .error .noDefaultDirs
      | some args =>
        let cwd := if args.switch .foreground then h.cwd else lit "/"
        let cfg := loadPendingOverride h files cwd args
        -- The explicit directory was captured before the platform's was filled in.
        match parsed.text .cacheDir, cfg.bind api.cacheDir with
        | none, some dir => .ok ⟨args.setText .cacheDir (some dir), cfg, cwd⟩
        | _, _ => .ok ⟨args, cfg, cwd⟩

/-! ## What the first `_startup` gets -/

/-- Two sets of members that differ at most in the state directories. -/
structure SameButDirs (a b : OffsdArgs) : Prop where
  text : ∀ f, f ≠ .cacheDir → f ≠ .configDir → b.text f = a.text f
  port : b.port = a.port
  period : b.period = a.period
  switch : b.switch = a.switch
  workerCount : b.workerCount = a.workerCount
  maxCapacityBytes : b.maxCapacityBytes = a.maxCapacityBytes
  unixSocketMode : b.unixSocketMode = a.unixSocketMode

theorem SameButDirs.setCacheDir {a b : OffsdArgs} (h : SameButDirs a b) (t : Option Text) :
    SameButDirs a (b.setText .cacheDir t) := by
  refine { h with text := fun f hcache hconfig => ?_ }
  rw [OffsdArgs.setText_of_ne hcache, h.text f hcache hconfig]

theorem fillDefaultDirs_ok {h : Host} {args after : OffsdArgs}
    (hfill : fillDefaultDirs h args = some after) :
    SameButDirs args after ∧
      after.text .configDir = (args.text .configDir).or (h.defaultDirs.map DefaultDirs.configDir) ∧
      after.text .cacheDir = (args.text .cacheDir).or (h.defaultDirs.map DefaultDirs.cacheDir) ∧
      (after.text .configDir).isSome ∧ (args.text .cacheDir = none → h.defaultDirs.isSome) := by
  unfold fillDefaultDirs at hfill
  split at hfill
  · obtain ⟨defaults, hdirs, rfl⟩ := Option.map_eq_some_iff.mp hfill
    rw [hdirs]
    refine ⟨⟨?_, rfl, rfl, rfl, rfl, rfl, rfl⟩, ?_, ?_, ?_, fun _ => rfl⟩
    · intro f hcache hconfig
      rw [OffsdArgs.setText_of_ne hcache, OffsdArgs.setText_of_ne hconfig]
    all_goals simp [OffsdArgs.setText]
  · rename_i hboth
    cases hfill
    obtain ⟨hcache, hconfig⟩ := not_or.mp hboth
    obtain ⟨c, hc⟩ := Option.ne_none_iff_exists'.mp hcache
    obtain ⟨d, hd⟩ := Option.ne_none_iff_exists'.mp hconfig
    exact ⟨⟨fun _ _ _ => rfl, rfl, rfl, rfl, rfl, rfl, rfl⟩, by simp [hd], by simp [hc], by simp [hd],
      fun hnone => absurd hnone hcache⟩

variable {Doc : Type}

/-- **What a start comes to.**  The parsed arguments, with the config directory of the
platform unless one is configured, and with a cache directory that is the configured
one, else the staged one, else the platform's. -/
structure StartedFrom (api : PendingApi Doc) (h : Host) (files : Files Doc) (parsed : OffsdArgs)
    (s : Started Doc) : Prop where
  same : SameButDirs parsed s.args
  cwd : s.cwd = if parsed.switch .foreground then h.cwd else lit "/"
  configDir : ∃ dir, s.args.text .configDir = some dir ∧
    (parsed.text .configDir).or (h.defaultDirs.map DefaultDirs.configDir) = some dir ∧
    s.cfg = files.pending (h.pendingPlace s.cwd dir)
  cacheDir : s.args.text .cacheDir = ((parsed.text .cacheDir).or (s.cfg.bind api.cacheDir)).or
    (h.defaultDirs.map DefaultDirs.cacheDir)
  defaults : parsed.text .cacheDir = none → h.defaultDirs.isSome

theorem runOffsd_ok {api : PendingApi Doc} {h : Host} {files : Files Doc} {argv : List Text}
    {s : Started Doc} (hrun : runOffsd api h files argv = .ok s) :
    argv.head? ≠ some (lit "uninstall") ∧
    ∃ parsed, parseArgs (h.system files) argv (defaultArgs (h.configPath files)) = .ok parsed ∧
      StartedFrom api h files parsed s := by
  unfold runOffsd at hrun
  split at hrun
  · cases hrun
  · rename_i huninstall
    refine ⟨huninstall, ?_⟩
    split at hrun
    · cases hrun
    · rename_i parsed hparsed
      split at hrun
      · cases hrun
      · rename_i args hargs
        obtain ⟨hsame, hconfig, hcache, hsome, hdefaults⟩ := fillDefaultDirs_ok hargs
        obtain ⟨dir, hdir⟩ := Option.isSome_iff_exists.mp hsome
        have hcwd := hsame.switch
        refine ⟨parsed, hparsed, ?_⟩
        dsimp only at hrun
        split at hrun
        · rename_i hnone hpending
          cases hrun
          refine ⟨hsame.setCacheDir _, by rw [hcwd], ⟨dir, ?_, by rw [← hconfig, hdir], ?_⟩, ?_,
            hdefaults⟩
          · rw [OffsdArgs.setText_of_ne (by decide), hdir]
          · simp [loadPendingOverride, hdir]
          · simp [OffsdArgs.setText, hnone, hpending]
        · rename_i hother
          cases hrun
          refine ⟨hsame, by rw [hcwd], ⟨dir, hdir, by rw [← hconfig, hdir], ?_⟩, ?_, hdefaults⟩
          · simp [loadPendingOverride, hdir]
          · rw [hcache]
            cases hexplicit : parsed.text .cacheDir with
            | some t => simp
            | none =>
              have : (loadPendingOverride h files
                  (if args.switch .foreground = true then h.cwd else lit "/") args).bind
                  api.cacheDir = none :=
                Option.eq_none_iff_forall_ne_some.mpr fun dir => hother dir hexplicit
              simp [this]

theorem runOffsd_refused {api : PendingApi Doc} {h : Host} {files : Files Doc}
    {argv : List Text} {r : Refusal} (hrun : runOffsd api h files argv = .error (.refused r)) :
    parseArgs (h.system files) argv (defaultArgs (h.configPath files)) = .error r := by
  unfold runOffsd at hrun
  split at hrun
  · cases hrun
  · split at hrun
    · rename_i hparsed
      cases hrun
      exact hparsed
    · split at hrun
      · cases hrun
      · dsimp only at hrun
        split at hrun <;> cases hrun

/-- Nothing but a refusal or unknown directories keeps the daemon from starting. -/
theorem runOffsd_starts (api : PendingApi Doc) {h : Host} {files : Files Doc} {argv : List Text}
    {parsed : OffsdArgs} (huninstall : argv.head? ≠ some (lit "uninstall"))
    (hparsed : parseArgs (h.system files) argv (defaultArgs (h.configPath files)) = .ok parsed)
    (hdirs : (fillDefaultDirs h parsed).isSome) : ∃ s, runOffsd api h files argv = .ok s := by
  obtain ⟨args, hargs⟩ := Option.isSome_iff_exists.mp hdirs
  unfold runOffsd
  rw [if_neg huninstall, hparsed]
  dsimp only
  rw [hargs]
  dsimp only
  split <;> exact ⟨_, rfl⟩

/-- A member that flags and file have set reaches `_startup`. -/
theorem StartedFrom.text {api : PendingApi Doc} {h : Host} {files : Files Doc} {parsed : OffsdArgs}
    {s : Started Doc} (hs : StartedFrom api h files parsed s) {f : TextField} {t : Text}
    (hf : parsed.text f = some t) : s.args.text f = some t := by
  by_cases hcache : f = .cacheDir
  · subst hcache
    rw [hs.cacheDir, hf]
    rfl
  · by_cases hconfig : f = .configDir
    · subst hconfig
      obtain ⟨dir, hdir, hor, -⟩ := hs.configDir
      rw [hf] at hor
      rw [hdir, ← hor]
      rfl
    · rw [hs.same.text f hcache hconfig, hf]

/-! ## Which cache directory the daemon takes -/

section Choice
variable (api : PendingApi Doc) (h : Host) (files : Files Doc) (argv : List Text)

/-- The document of the config file that a start reads. -/
def configDocument : Json :=
  configRoot (h.system files) ((lastValue (.text .configPath) argv).or (h.configPath files))

/-- What flags and config file say. -/
def configured (f : TextField) : Option Text :=
  (lastValue (.text f) argv).or (fileText (configDocument h files argv) f)

/-- The config directory of a start. -/
def daemonConfigDir : Option Text :=
  (configured h files argv .configDir).or (h.defaultDirs.map DefaultDirs.configDir)

/-- The directory the process is in when it reads the pending document. -/
def startCwd : Text := if switchOccurs .foreground argv then h.cwd else lit "/"

/-- Flags and config file pass the checks of `_parse_args`, and the first argument does not ask
for the removal of the daemon's files. -/
def Accepted : Prop :=
  argv.head? ≠ some (lit "uninstall") ∧
    ∃ parsed, parseArgs (h.system files) argv (defaultArgs (h.configPath files)) = .ok parsed

/-- The pending `cache_dir` at a config directory, seen from `cwd`. -/
def pendingCacheDir (cwd configDir : Text) : Option Text :=
  (files.pending (h.pendingPlace cwd configDir)).bind api.cacheDir

/-- **The cache directory of a start**: the configured one, else the staged one, else the
platform's.  The last two need the platform's directories even if the pending document decides,
since `_run_offsd` fills them in before it looks for the document. -/
inductive DaemonTakes : Text → Prop
  | explicit {t dir : Text} (hcache : configured h files argv .cacheDir = some t)
      (hdir : daemonConfigDir h files argv = some dir) : DaemonTakes t
  | staged {t dir : Text} {defaults : DefaultDirs}
      (hcache : configured h files argv .cacheDir = none) (hdefaults : h.defaultDirs = some defaults)
      (hdir : daemonConfigDir h files argv = some dir)
      (hpending : pendingCacheDir api h files (startCwd h argv) dir = some t) : DaemonTakes t
  | platform {dir : Text} {defaults : DefaultDirs}
      (hcache : configured h files argv .cacheDir = none) (hdefaults : h.defaultDirs = some defaults)
      (hdir : daemonConfigDir h files argv = some dir)
      (hpending : pendingCacheDir api h files (startCwd h argv) dir = none) :
      DaemonTakes defaults.cacheDir

end Choice

theorem parsed_configured {h : Host} {files : Files Doc} {argv : List Text} {parsed : OffsdArgs}
    (hparsed : parseArgs (h.system files) argv (defaultArgs (h.configPath files)) = .ok parsed) :
    parsed.text .cacheDir = configured h files argv .cacheDir ∧
      parsed.text .configDir = configured h files argv .configDir ∧
      parsed.switch .foreground = switchOccurs .foreground argv := by
  obtain ⟨flags, filled, hflags, hfilled, rfl⟩ := parseArgs_ok hparsed
  have hf := parseFlags_ok hflags
  rw [hf.text .configPath] at hfilled
  change Filled _ (configDocument h files argv) _ _ at hfilled
  have htext : ∀ {f : TextField}, f ≠ .unixPath → f ≠ .configPath → f ≠ .host →
      (finishArgs (h.system files) filled).text f = configured h files argv f := by
    intro f hunix hpath hhost
    rw [finishArgs_text_of_ne _ _ hunix, hfilled.text, hf.text, defaultArgs_text hpath hhost,
      Option.or_none, configured]
  refine ⟨htext (by decide) (by decide) (by decide), htext (by decide) (by decide) (by decide), ?_⟩
  rw [(finishArgs_rest _ filled).2.2.1, hfilled.switch, hf.switch]
  exact fill_none false _

theorem started_cacheDir {api : PendingApi Doc} {h : Host} {files : Files Doc} {argv : List Text}
    {s : Started Doc} (hrun : runOffsd api h files argv = .ok s) :
    ∃ dir, daemonConfigDir h files argv = some dir ∧
      s.args.text .cacheDir = ((configured h files argv .cacheDir).or
        (pendingCacheDir api h files (startCwd h argv) dir)).or
        (h.defaultDirs.map DefaultDirs.cacheDir) := by
  obtain ⟨-, parsed, hparsed, hs⟩ := runOffsd_ok hrun
  obtain ⟨hcache, hconfig, hforeground⟩ := parsed_configured hparsed
  obtain ⟨dir, -, hdir, hcfg⟩ := hs.configDir
  rw [hconfig] at hdir
  refine ⟨dir, hdir, ?_⟩
  rw [hs.cacheDir, hcfg, hs.cwd, hforeground, hcache]
  rfl

theorem fillDefaultDirs_isSome {h : Host} {args : OffsdArgs}
    (hcache : args.text .cacheDir = none → h.defaultDirs.isSome)
    (hconfig : args.text .configDir = none → h.defaultDirs.isSome) :
    (fillDefaultDirs h args).isSome := by
  unfold fillDefaultDirs
  split
  · rename_i hnone
    rw [Option.isSome_map]
    exact hnone.elim hcache hconfig
  · rfl

theorem DaemonTakes.configDir {api : PendingApi Doc} {h : Host} {files : Files Doc}
    {argv : List Text} {t : Text} (ht : DaemonTakes api h files argv t) :
    (daemonConfigDir h files argv).isSome ∧
      (configured h files argv .cacheDir = none → h.defaultDirs.isSome) := by
  cases ht with
  | explicit hcache hdir =>
    refine ⟨by rw [hdir]; rfl, fun hnone => ?_⟩
    rw [hcache] at hnone
    cases hnone
  | staged _ hdefaults hdir => exact ⟨by rw [hdir]; rfl, fun _ => by rw [hdefaults]; rfl⟩
  | platform _ hdefaults hdir => exact ⟨by rw [hdir]; rfl, fun _ => by rw [hdefaults]; rfl⟩

/-- The same in one formula. -/
theorem daemonTakes_iff {api : PendingApi Doc} {h : Host} {files : Files Doc} {argv : List Text}
    {t : Text} :
    DaemonTakes api h files argv t ↔ ∃ dir, daemonConfigDir h files argv = some dir ∧
      (configured h files argv .cacheDir = some t ∨
        configured h files argv .cacheDir = none ∧ ∃ defaults, h.defaultDirs = some defaults ∧
          (pendingCacheDir api h files (startCwd h argv) dir).getD defaults.cacheDir = t) := by
  constructor
  · intro ht
    cases ht with
    | explicit hcache hdir => exact ⟨_, hdir, .inl hcache⟩
    | staged hcache hdefaults hdir hpending =>
      exact ⟨_, hdir, .inr ⟨hcache, _, hdefaults, by rw [hpending, Option.getD_some]⟩⟩
    | platform hcache hdefaults hdir hpending =>
      exact ⟨_, hdir, .inr ⟨hcache, _, hdefaults, by rw [hpending, Option.getD_none]⟩⟩
  · rintro ⟨dir, hdir, hcache | ⟨hcache, defaults, hdefaults, rfl⟩⟩
    · exact .explicit hcache hdir
    · cases hpending : pendingCacheDir api h files (startCwd h argv) dir with
      | none => exact .platform hcache hdefaults hdir hpending
      | some t => exact .staged hcache hdefaults hdir hpending

/-- **`_run_offsd` takes that directory.** -/
theorem runOffsd_cacheDir_iff {api : PendingApi Doc} {h : Host} {files : Files Doc}
    {argv : List Text} {t : Text} :
    (∃ s, runOffsd api h files argv = .ok s ∧ s.args.text .cacheDir = some t) ↔
      Accepted h files argv ∧ DaemonTakes api h files argv t := by
  constructor
  · rintro ⟨s, hrun, ht⟩
    obtain ⟨huninstall, parsed, hparsed, hs⟩ := runOffsd_ok hrun
    obtain ⟨dir, hdir, hcacheDir⟩ := started_cacheDir hrun
    rw [hcacheDir] at ht
    refine ⟨⟨huninstall, parsed, hparsed⟩, ?_⟩
    cases hexplicit : configured h files argv .cacheDir with
    | some dir' =>
      rw [hexplicit] at ht
      cases ht
      exact .explicit hexplicit hdir
    | none =>
      obtain ⟨defaults, hdefaults⟩ := Option.isSome_iff_exists.mp
        (hs.defaults ((parsed_configured hparsed).1.trans hexplicit))
      rw [hexplicit, Option.none_or, hdefaults] at ht
      cases hpending : pendingCacheDir api h files (startCwd h argv) dir with
      | some dir' =>
        rw [hpending] at ht
        cases ht
        exact .staged hexplicit hdefaults hdir hpending
      | none =>
        rw [hpending] at ht
        cases ht
        exact .platform hexplicit hdefaults hdir hpending
  · rintro ⟨⟨huninstall, parsed, hparsed⟩, htakes⟩
    obtain ⟨hcache, hconfig, -⟩ := parsed_configured hparsed
    obtain ⟨hdirSome, hdefaultsSome⟩ := htakes.configDir
    have hconfigSome : parsed.text .configDir = none → h.defaultDirs.isSome := by
      intro hnone
      rw [hconfig] at hnone
      simpa [daemonConfigDir, hnone] using hdirSome
    obtain ⟨s, hrun⟩ := runOffsd_starts api huninstall hparsed
      (fillDefaultDirs_isSome (fun hnone => hdefaultsSome (hcache ▸ hnone)) hconfigSome)
    obtain ⟨dir, hdir, hcacheDir⟩ := started_cacheDir hrun
    refine ⟨s, hrun, ?_⟩
    rw [hcacheDir]
    cases htakes with
    | explicit hexplicit => rw [hexplicit]; rfl
    | staged hexplicit _ hdir' hpending =>
      cases hdir.symm.trans hdir'
      rw [hexplicit, hpending]
      rfl
    | platform hexplicit hdefaults hdir' hpending =>
      cases hdir.symm.trans hdir'
      rw [hexplicit, hpending, hdefaults]
      rfl

/-! ## The config file is all that flags and files decide -/

/-- Two file systems in which a start finds the same config file.  Where a flag names the file,
it does not matter what is found at the default path. -/
structure SameConfig (h : Host) (files files' : Files Doc) (argv : List Text) : Prop where
  path : (lastValue (.text .configPath) argv).or (h.configPath files') =
    (lastValue (.text .configPath) argv).or (h.configPath files)
  document : ∀ path, (lastValue (.text .configPath) argv).or (h.configPath files) = some path →
    (h.system files').document path = (h.system files).document path

/-- The flags with another default config path. -/
theorem parseFlags_defaultArgs (argv : List Text) (path : Option Text) :
    parseFlags argv (defaultArgs path) =
      (parseFlags argv (defaultArgs none)).map fun after =>
        after.setText .configPath ((lastValue (.text .configPath) argv).or path) := by
  have hdefault : defaultArgs path = (defaultArgs none).setText .configPath path := by
    simp only [defaultArgs, OffsdArgs.setText, OffsdArgs.mk.injEq, and_true]
    funext f
    cases f <;> rfl
  rw [hdefault, parseFlags_setText]

theorem SameConfig.parseArgs {h : Host} {files files' : Files Doc} {argv : List Text}
    (hsame : SameConfig h files files' argv) :
    parseArgs (h.system files') argv (defaultArgs (h.configPath files')) =
      parseArgs (h.system files) argv (defaultArgs (h.configPath files)) := by
  have hflags' : parseFlags argv (defaultArgs (h.configPath files')) =
      parseFlags argv (defaultArgs (h.configPath files)) := by
    rw [parseFlags_defaultArgs argv (h.configPath files'),
      parseFlags_defaultArgs argv (h.configPath files), hsame.path]
  unfold Daemon.parseArgs
  rw [hflags']
  cases hflags : parseFlags argv (defaultArgs (h.configPath files)) with
  | error e => rfl
  | ok flags =>
    dsimp only
    cases hpath : flags.text .configPath with
    | none => rfl
    | some path =>
      have hdoc : (h.system files').document path = (h.system files).document path := by
        refine hsame.document path ?_
        rw [← hpath, (parseFlags_ok hflags).text]
        rfl
      simp only [parseConfigFile, hdoc]
      rfl

theorem SameConfig.accepted {h : Host} {files files' : Files Doc} {argv : List Text}
    (hsame : SameConfig h files files' argv) : Accepted h files' argv ↔ Accepted h files argv := by
  unfold Accepted
  rw [hsame.parseArgs]

theorem SameConfig.configured {h : Host} {files files' : Files Doc} {argv : List Text}
    (hsame : SameConfig h files files' argv) (f : TextField) :
    configured h files' argv f = configured h files argv f := by
  have hroot : configDocument h files' argv = configDocument h files argv := by
    unfold configDocument configRoot
    rw [hsame.path]
    cases hpath : (lastValue (.text .configPath) argv).or (h.configPath files) with
    | none => rfl
    | some path => rw [Option.map_some, Option.map_some, hsame.document path hpath]
  unfold Daemon.configured
  rw [hroot]

theorem SameConfig.daemonConfigDir {h : Host} {files files' : Files Doc} {argv : List Text}
    (hsame : SameConfig h files files' argv) :
    daemonConfigDir h files' argv = daemonConfigDir h files argv := by
  unfold Daemon.daemonConfigDir
  rw [hsame.configured]

/-! ## A plain machine -/

/-- The components of a path. -/
def components (path : Text) : Place := (path.splitOn '/').filter (· ≠ [])

/-- A machine without symbolic links, as a caller in `/home/u` sees it. -/
def plainHost : Host where
  cwd := lit "/home/u"
  locate := components
  defaultConfigPath := some (lit "/etc/offs/offs.json")
  defaultDirs := some ⟨lit "/etc/offs", lit "/var/cache/offs"⟩
  nprocs := 4
  undefinedCast _ := 0

/-- Pending documents that hold a `cache_dir` and nothing else. -/
def plainApi : PendingApi (Option Text) where
  cacheDir := id
  merge _ value := value

theorem plainApi_lawful : plainApi.Lawful := ⟨fun _ _ => rfl⟩

/-- `/etc/offs/offs.json` holds `root`, and `pending` is what is staged. -/
def plainFiles (root : Json) (pending : Option (Option Text)) : Files (Option Text) where
  entry place :=
    if place = components (lit "/etc/offs/offs.json") then ⟨true, .json root⟩ else ⟨false, .unopened⟩
  pending place :=
    if place = components (lit "/etc/offs/pending_config.json") then pending else none

end Offs.Daemon
