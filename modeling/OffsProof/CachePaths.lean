import OffsProof.DaemonStart

/-! # The directories as the CLI finds them

`offs cache move` works out for itself which config directory and which cache directory the
daemon uses.  `cli_util.c` follows the daemon's precedence (flag, config file, pending document,
platform default) with buffers of 1024 bytes in place of pointers: an empty string counts as
absent and a long one is cut.  `_absolutize` then reads a relative path from the caller's working
directory.

`CliTakes` and `DaemonTakes` say which text each program takes for the cache directory, as
relations on the files; `resolveCurrent_iff` and `runOffsd_cacheDir_iff` tie them to the code.
The relations have one constructor for each place where the text can come from, so that a
comparison of the two programs is one of cases, without their buffers and loops.

Cutting and asking for a non-empty text commute, since a text that is not empty is not empty
when it is cut to 1024 bytes.  So the functions of the CLI are the choice that the daemon makes,
with filters in between and one cut at the end (`resolveConfigDir_eq`, `resolveCurrent_eq`).

`_normalize_path` and the comparison of two paths are here as well, since the command refuses a
destination inside its source; what they are good for is proved in `PathNormal` and
`PathConflict`.
-/
namespace Offs.CliCache
open CText CJson Daemon

variable {Doc : Type}

/-! ## `cli_util.c` -/

/-- What `cli_cache_read_config_file_dirs` leaves in its two buffers. -/
structure FileDirs where
  configDir : Text
  cacheDir : Text
  deriving DecidableEq, Repr

/-- `cli_cache_read_config_file_dirs`, `none` for -1. -/
def readConfigFileDirs : Document → Option FileDirs
  | .json root => some
    { configDir := cut 1024 ((keyed root Json.asString (lit "daemon", lit "config-dir")).getD [])
      cacheDir := cut 1024 ((keyed root Json.asString (lit "cache", lit "dir")).getD []) }
  | _ => none

/-- The directories in the daemon config file, which here need not be a regular file. -/
def configFileDirs (h : Host) (files : Files Doc) : Option FileDirs :=
  h.defaultConfigPath.bind fun path => readConfigFileDirs ((h.system files).document path)

/-- `cli_cache_resolve_config_dir`. -/
def resolveConfigDir (h : Host) (files : Files Doc) (flag : Option Text) : Option Text :=
  match flag.filter (· ≠ []) with
  | some dir => some (cut 1024 dir)
  | none =>
    match (configFileDirs h files).filter (·.configDir ≠ []) with
    | some dirs => some (cut 1024 dirs.configDir)
    | none => h.defaultDirs.map fun defaults => cut 1024 defaults.configDir

/-- `cli_cache_resolve_current`. -/
def resolveCurrent (api : PendingApi Doc) (h : Host) (files : Files Doc) (fromFlag : Option Text)
    (configDir : Text) : Option Text :=
  match fromFlag.filter (· ≠ []) with
  | some dir => some (cut 1024 dir)
  | none =>
    match (configFileDirs h files).filter (·.cacheDir ≠ []) with
    | some dirs => some (cut 1024 dirs.cacheDir)
    | none =>
      let resolved := if configDir = [] then resolveConfigDir h files none else some configDir
      match resolved.bind (pendingCacheDir api h files h.cwd) with
      | some dir => some (cut 1024 dir)
      | none => h.defaultDirs.map fun defaults => cut 1024 defaults.cacheDir

/-- `_absolutize` on POSIX: `getcwd` has 512 bytes, the result 1024. -/
def absolutize (h : Host) (path : Text) : Option Text :=
  match path with
  | '/' :: _ => if path.length < 1024 then some path else none
  | _ =>
    if h.cwd.length < 512 ∧ (h.cwd ++ '/' :: path).length < 1024 then some (h.cwd ++ '/' :: path)
    else none

theorem absolutize_eq {h : Host} {path abs : Text} (habs : absolutize h path = some abs) :
    abs = absolute h.cwd path := by
  unfold absolutize at habs
  split at habs
  · split at habs <;> cases habs
    rfl
  · rename_i hrel
    split at habs <;> cases habs
    unfold absolute
    split
    · exact absurd rfl (hrel _)
    · rfl

/-! ### Conflicting paths -/

def isSeparator (c : Char) : Bool := c == '/' || c == '\\'

/-- The loop of `_normalize_path`, with the output so far last character first;
`none` when it does not fit `size` bytes. -/
def normalizeLoop (size : Nat) : List Char → Text → Option (List Char)
  | out, [] => some out
  | out, c :: src =>
    if isSeparator c ∧ out.head? = some '/' then normalizeLoop size out src
    else if out.length + 1 ≥ size then none
    else normalizeLoop size ((if isSeparator c then '/' else c) :: out) src

/-- Trailing separators go, except for the first character. -/
def stripTrailing : List Char → List Char
  | '/' :: c :: out => stripTrailing (c :: out)
  | out => out

/-- `_normalize_path` on POSIX. -/
def normalizePath (size : Nat) (src : Text) : Option Text :=
  (normalizeLoop size [] src).map fun out => (stripTrailing out).reverse

/-- What `cli_cache_paths_conflict` returns. -/
inductive Conflict
  | disjoint
  | same
  | nested
  deriving DecidableEq, Repr

/-- The comparison of two normalised paths. -/
def comparePaths : Text → Text → Conflict
  | [], [] => .same
  | c :: _, [] | [], c :: _ => if c = '/' then .nested else .disjoint
  | a :: as, b :: bs => if a ≠ b then .disjoint else comparePaths as bs

/-- `cli_cache_paths_conflict`. -/
def pathsConflict (a b : Text) : Conflict :=
  match normalizePath 1024 a, normalizePath 1024 b with
  | some na, some nb => comparePaths na nb
  -- A path that does not fit counts as a conflict.
  | _, _ => .nested

/-! ## Which cache directory the CLI takes -/

/-- The source of `_cmd_cache_move` without `--from` and `--config-dir`. -/
def cliSource (api : PendingApi Doc) (h : Host) (files : Files Doc) : Option Text :=
  (resolveConfigDir h files none).bind fun configDir =>
    (resolveCurrent api h files none configDir).bind (absolutize h)

section Choice
variable (api : PendingApi Doc) (h : Host) (files : Files Doc)

/-- The config file's text for a directory, if it is not empty. -/
def cliConfigured (f : TextField) : Option Text :=
  (h.defaultConfigPath.bind fun path =>
    match (h.system files).document path with
    | .json root => fileText root f
    | _ => none).filter (· ≠ [])

def cliConfigDir : Option Text :=
  ((cliConfigured h files .configDir).or (h.defaultDirs.map DefaultDirs.configDir)).map (cut 1024)

/-- **The text the CLI takes**, before it is cut to its buffer: the config file's, else the staged
one, else the platform's.  The pending document is the one at the config directory that the CLI
has found for itself, read from the directory of its caller. -/
inductive CliTakes : Text → Prop
  | explicit {t dir : Text} (hcache : cliConfigured h files .cacheDir = some t)
      (hdir : cliConfigDir h files = some dir) : CliTakes t
  | staged {t dir : Text} (hcache : cliConfigured h files .cacheDir = none)
      (hdir : cliConfigDir h files = some dir)
      (hpending : pendingCacheDir api h files h.cwd dir = some t) : CliTakes t
  | platform {dir : Text} {defaults : DefaultDirs}
      (hcache : cliConfigured h files .cacheDir = none) (hdefaults : h.defaultDirs = some defaults)
      (hdir : cliConfigDir h files = some dir)
      (hpending : pendingCacheDir api h files h.cwd dir = none) : CliTakes defaults.cacheDir

end Choice

/-- A buffer filled from the config file, and the text it was filled from. -/
theorem configFileDirs_filter (h : Host) (files : Files Doc) (f : TextField)
    (buffer : FileDirs → Text)
    (hbuffer : ∀ root dirs, readConfigFileDirs (.json root) = some dirs →
      buffer dirs = cut 1024 ((fileText root f).getD [])) :
    ((configFileDirs h files).filter (buffer · ≠ [])).map buffer =
      (cliConfigured h files f).map (cut 1024) := by
  unfold configFileDirs cliConfigured
  cases h.defaultConfigPath with
  | none => rfl
  | some path =>
    simp only [Option.bind_some]
    cases (h.system files).document path with
    | unopened => rfl
    | malformed errorPtr => rfl
    | json root =>
      obtain ⟨dirs, hdirs⟩ : ∃ dirs, readConfigFileDirs (.json root) = some dirs := ⟨_, rfl⟩
      have hread := hbuffer root dirs hdirs
      rw [hdirs]
      cases hfile : fileText root f with
      | none =>
        rw [hfile, Option.getD_none, cut_nil] at hread
        simp [Option.filter, hread, hfile]
      | some t =>
        rw [hfile, Option.getD_some] at hread
        by_cases ht : t = []
        · simp [Option.filter, hread, hfile, ht]
        · have : ¬ cut 1024 t = [] := fun hcut => ht ((cut_eq_nil (by decide)).mp hcut)
          simp [Option.filter, hread, hfile, ht, this]

theorem resolveConfigDir_eq (h : Host) (files : Files Doc) :
    resolveConfigDir h files none = cliConfigDir h files := by
  have hdir := configFileDirs_filter h files .configDir FileDirs.configDir
    (by rintro root dirs ⟨⟩; rfl)
  unfold resolveConfigDir cliConfigDir
  simp only [Option.filter_none]
  cases hfilter : (configFileDirs h files).filter (·.configDir ≠ []) with
  | none =>
    rw [hfilter, Option.map_none, eq_comm, Option.map_eq_none_iff] at hdir
    simp only [hdir, Option.none_or, Option.map_map]
    rfl
  | some dirs =>
    rw [hfilter, Option.map_some, eq_comm, Option.map_eq_some_iff] at hdir
    obtain ⟨t, ht, hcut⟩ := hdir
    simp only [ht, Option.some_or, Option.map_some, ← hcut, cut_cut]

theorem resolveCurrent_eq {api : PendingApi Doc} {h : Host} {files : Files Doc} {dir : Text}
    (hdir : cliConfigDir h files = some dir) :
    resolveCurrent api h files none dir =
      (((cliConfigured h files .cacheDir).or (pendingCacheDir api h files h.cwd dir)).or
        (h.defaultDirs.map DefaultDirs.cacheDir)).map (cut 1024) := by
  have hcache := configFileDirs_filter h files .cacheDir FileDirs.cacheDir
    (by rintro root dirs ⟨⟩; rfl)
  have hresolved : (if dir = [] then resolveConfigDir h files none else some dir) = some dir := by
    rw [resolveConfigDir_eq, hdir, ite_self]
  unfold resolveCurrent
  simp only [Option.filter_none, hresolved, Option.bind_some]
  cases hfilter : (configFileDirs h files).filter (·.cacheDir ≠ []) with
  | some dirs =>
    rw [hfilter, Option.map_some, eq_comm, Option.map_eq_some_iff] at hcache
    obtain ⟨t, ht, hcut⟩ := hcache
    simp only [ht, Option.some_or, Option.map_some, ← hcut, cut_cut]
  | none =>
    rw [hfilter, Option.map_none, eq_comm, Option.map_eq_none_iff] at hcache
    cases hpending : pendingCacheDir api h files h.cwd dir with
    | some t => simp only [hcache, Option.none_or, Option.some_or, Option.map_some]
    | none =>
      simp only [hcache, Option.none_or, Option.map_map]
      rfl

/-- **The source of a move**: the text the CLI takes, cut to its buffer and made
absolute. -/
theorem cliSource_iff {api : PendingApi Doc} {h : Host} {files : Files Doc} {src : Text} :
    cliSource api h files = some src ↔
      ∃ t, CliTakes api h files t ∧ absolutize h (cut 1024 t) = some src := by
  unfold cliSource
  rw [resolveConfigDir_eq]
  constructor
  · intro hsrc
    obtain ⟨dir, hdir, hsrc⟩ := Option.bind_eq_some_iff.mp hsrc
    rw [resolveCurrent_eq hdir] at hsrc
    obtain ⟨t', ht', habs⟩ := Option.bind_eq_some_iff.mp hsrc
    obtain ⟨t, ht, rfl⟩ := Option.map_eq_some_iff.mp ht'
    refine ⟨t, ?_, habs⟩
    cases hcache : cliConfigured h files .cacheDir with
    | some dir' =>
      rw [hcache] at ht
      cases ht
      exact .explicit hcache hdir
    | none =>
      rw [hcache, Option.none_or] at ht
      cases hpending : pendingCacheDir api h files h.cwd dir with
      | some dir' =>
        rw [hpending] at ht
        cases ht
        exact .staged hcache hdir hpending
      | none =>
        rw [hpending, Option.none_or] at ht
        obtain ⟨defaults, hdefaults, rfl⟩ := Option.map_eq_some_iff.mp ht
        exact .platform hcache hdefaults hdir hpending
  · rintro ⟨t, htakes, habs⟩
    cases htakes with
    | explicit hcache hdir =>
      rw [hdir, Option.bind_some, resolveCurrent_eq hdir, hcache]
      exact habs
    | staged hcache hdir hpending =>
      rw [hdir, Option.bind_some, resolveCurrent_eq hdir, hcache, hpending]
      exact habs
    | platform hcache hdefaults hdir hpending =>
      rw [hdir, Option.bind_some, resolveCurrent_eq hdir, hcache, hpending, hdefaults]
      exact habs

end Offs.CliCache
