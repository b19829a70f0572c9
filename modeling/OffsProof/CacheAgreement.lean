import OffsProof.CacheMove

/-! # Do the CLI and the daemon mean the same cache?

Is the directory that `offs cache move` takes for the current one the directory that the daemon
opens?  Both ask the same four sources, in the same order (a flag, which is left out here, the
config file, the pending document, the platform), but the precedence is written down twice, and
with different ideas of what a missing text is.

* The CLI reads any config file that it can open, the daemon only a regular one.
* For the CLI an empty text counts as absent; for the daemon it names a directory, `/`.
* The CLI cuts every text to 1023 bytes; the daemon takes it whole.
* The CLI reads a relative text from the directory of its caller, the daemon from `/`.
* The pending document lies in the config directory, to which all of this applies as well.

`Agrees` goes through the cases that come of it, by the texts alone, and says for each of them
what it takes for the two to mean one place; `current_dir_agreement_iff` says that the cases
are all of them.  Where nothing of the kind occurs (`Plain`), they agree.
-/
namespace Offs.CliCache
open CText CJson Daemon

variable {Doc : Type}

/-! ## The current directory -/

section Current
variable (api : PendingApi Doc) (h : Host) (files : Files Doc)

/-- The source of a move is the directory that `offs start` without flags opens.  Nothing is asked
where the CLI finds no source, for then nothing is moved.  The daemon has to start, and the two
texts have to lead to the same place, the daemon's as it is read from `/`. -/
def SourceIsOpened : Prop :=
  ∀ src, cliSource api h files = some src →
    ∃ s t, runOffsd api h files [] = .ok s ∧ s.args.text .cacheDir = some t ∧
      h.place (lit "/") t = h.locate src

/-- Whatever text the CLI takes, if its first 1023 bytes make an absolute path, the
daemon accepts its config file and takes a text that leads from `/` to where those
bytes lead from the caller's directory. -/
def Agreement : Prop :=
  ∀ t, CliTakes api h files t → (absolutize h (cut 1024 t)).isSome →
    Accepted h files [] ∧
      ∃ t', DaemonTakes api h files [] t' ∧ h.place (lit "/") t' = h.place h.cwd (cut 1024 t)

end Current

theorem sourceIsOpened_iff (api : PendingApi Doc) (h : Host) (files : Files Doc) :
    SourceIsOpened api h files ↔ Agreement api h files := by
  constructor
  · intro hopened t ht habs
    obtain ⟨src, hsrc⟩ := Option.isSome_iff_exists.mp habs
    obtain ⟨s, t', hrun, ht', hplace⟩ := hopened src (cliSource_iff.mpr ⟨t, ht, hsrc⟩)
    obtain ⟨haccepted, htakes⟩ := runOffsd_cacheDir_iff.mp ⟨s, hrun, ht'⟩
    exact ⟨haccepted, t', htakes, by rw [hplace, absolutize_eq hsrc]; rfl⟩
  · intro hagree src hsrc
    obtain ⟨t, ht, habs⟩ := cliSource_iff.mp hsrc
    obtain ⟨haccepted, t', htakes, hplace⟩ := hagree t ht (by rw [habs]; rfl)
    obtain ⟨s, hrun, ht'⟩ := runOffsd_cacheDir_iff.mpr ⟨haccepted, htakes⟩
    exact ⟨s, t', hrun, ht', by rw [hplace, absolutize_eq habs]; rfl⟩

/-- A non-empty absolute path that fits the CLI's buffers. -/
def PlainPath (t : Text) : Prop := t.head? = some '/' ∧ t.length < 1024

theorem PlainPath.absolute {t : Text} (ht : PlainPath t) (cwd rest : Text) :
    absolute cwd (t ++ rest) = t ++ rest := by
  obtain ⟨hhead, -⟩ := ht
  cases t with
  | nil => cases hhead
  | cons c t =>
    cases hhead
    rfl

theorem PlainPath.cut {t : Text} (ht : PlainPath t) : CText.cut 1024 t = t := cut_eq_self ht.2

theorem PlainPath.place_eq {t : Text} (ht : PlainPath t) (h : Host) (cwd cwd' : Text) :
    h.place cwd t = h.place cwd' t := by
  have := ht.absolute
  simp only [Host.place]
  rw [← List.append_nil t, this, this]

/-! ### The cases

What the two programs do with the texts of the config file, the pending documents and the
platform, case by case, without the chains of `CliTakes` and `DaemonTakes`. -/

section Cases
variable (api : PendingApi Doc) (h : Host) (files : Files Doc)

/-- What the default config file says for a directory, whether it is a regular file or not. -/
def said (f : TextField) : Option Text :=
  h.defaultConfigPath.bind fun path =>
    match (files.entry (h.place h.cwd path)).document with
    | .json root => fileText root f
    | _ => none

/-- There is a default config file, and it is a regular file: the only kind that the daemon
reads. -/
def isRegular : Bool :=
  h.defaultConfigPath.any fun path => (files.entry (h.place h.cwd path)).regular

/-- The CLI cannot make the text absolute: it is relative, and the caller's directory is too long
for the buffer, or the two together are. -/
def TooLong (t : Text) : Prop :=
  t.head? ≠ some '/' ∧ (512 ≤ h.cwd.length ∨ 1024 ≤ (h.cwd ++ '/' :: cut 1024 t).length)

/-- A text of the daemon's, read from `/`, and one of the CLI's, cut to its buffer and read from
the caller's directory, lead to one place. -/
def Meets (t' t : Text) : Prop :=
  h.locate (absolute (lit "/") t') = h.locate (absolute h.cwd (cut 1024 t))

/-- The same text means one place to both. -/
inductive Alike (t : Text) : Prop
  | plain : PlainPath t → Alike t
  | long : t.head? = some '/' → 1024 ≤ t.length → h.locate t = h.locate (cut 1024 t) → Alike t
  | relative : t.head? ≠ some '/' →
    h.locate (lit "//" ++ t) = h.locate (h.cwd ++ '/' :: cut 1024 t) → Alike t

/-- What is staged where the CLI looks: in the config directory that the config file names, unless
its name is empty, else in the platform's, with the name cut to a buffer. -/
def cliStaged : Option Text :=
  (((said h files .configDir).filter (· ≠ [])).or (h.defaultDirs.map DefaultDirs.configDir)).bind
    fun dir => pendingCacheDir api h files h.cwd (cut 1024 dir)

/-- What is staged where the daemon looks: in the config directory that a regular config file
names, be it the empty name, else in the platform's, read from `/`. -/
def daemonStaged : Option Text :=
  ((if isRegular h files then said h files .configDir else none).or
    (h.defaultDirs.map DefaultDirs.configDir)).bind
      fun dir => pendingCacheDir api h files (lit "/") dir

/-- The config file names no cache directory for either of them. -/
def Unsaid : Prop :=
  said h files .cacheDir = none ∨ said h files .cacheDir = some [] ∧ isRegular h files = false

/-- **When the two agree**, by what the config file says.  Each case is one way in which the two
precedences can go, and asks of the texts that come out of it only what is left to ask: in most of
them both sides take the same text, which means one place to both unless it is relative or too
long (`Alike`); where they take different texts, these have to lead to one place (`Meets`). -/
inductive Agrees : Prop
  /-- The CLI finds no config directory, and gives up. -/
  | homeless : h.defaultDirs = none → (said h files .configDir).getD [] = [] → Agrees
  /-- It finds no cache directory. -/
  | nothing : h.defaultDirs = none → (said h files .cacheDir).getD [] = [] →
    cliStaged api h files = none → Agrees
  /-- Both take the directory of the config file. -/
  | named {t : Text} : said h files .cacheDir = some t → t ≠ [] → isRegular h files = true →
    (¬TooLong h t → Accepted h files [] ∧ Alike h t) → Agrees
  /-- Only the CLI reads the file, as it is not a regular one. -/
  | unread {t : Text} : said h files .cacheDir = some t → t ≠ [] → isRegular h files = false →
    (¬TooLong h t → Accepted h files [] ∧ ∃ defaults, h.defaultDirs = some defaults ∧
      Meets h ((daemonStaged api h files).getD defaults.cacheDir) t) → Agrees
  /-- The file has the empty string, which is no directory for the CLI, and `/` for the daemon. -/
  | empty {t : Text} : said h files .cacheDir = some [] → isRegular h files = true →
    (cliStaged api h files).or (h.defaultDirs.map DefaultDirs.cacheDir) = some t →
    (¬TooLong h t → Accepted h files [] ∧ Meets h [] t) → Agrees
  /-- The file leaves it open to both, and both find the same staged, or nothing: then both take
  that, or the platform's directory, which the daemon asks for in any case. -/
  | unsaid {t : Text} : Unsaid h files → daemonStaged api h files = cliStaged api h files →
    (cliStaged api h files).or (h.defaultDirs.map DefaultDirs.cacheDir) = some t →
    (¬TooLong h t → Accepted h files [] ∧ h.defaultDirs ≠ none ∧ Alike h t) → Agrees
  /-- They find different things staged, as they look in different config directories. -/
  | unlike {t : Text} : Unsaid h files → daemonStaged api h files ≠ cliStaged api h files →
    (cliStaged api h files).or (h.defaultDirs.map DefaultDirs.cacheDir) = some t →
    (¬TooLong h t → Accepted h files [] ∧ ∃ defaults, h.defaultDirs = some defaults ∧
      Meets h ((daemonStaged api h files).getD defaults.cacheDir) t) → Agrees

end Cases

section Texts
variable {api : PendingApi Doc} {h : Host} {files : Files Doc} {t t' : Text}

theorem head_cut (t : Text) : (cut 1024 t).head? = t.head? := by
  cases t <;> rfl

theorem absolute_of_head (ht : t.head? = some '/') (cwd : Text) : absolute cwd t = t := by
  cases t with
  | nil => cases ht
  | cons c t =>
    cases ht
    rfl

theorem absolute_of_relative (ht : t.head? ≠ some '/') (cwd : Text) :
    absolute cwd t = cwd ++ '/' :: t := by
  unfold absolute
  split
  · exact absurd rfl ht
  · rfl

/-- The CLI takes the first bytes of a text, unless it is too long. -/
theorem absolutize_isSome_iff : (absolutize h (cut 1024 t)).isSome ↔ ¬TooLong h t := by
  have hlength : (cut 1024 t).length < 1024 := by
    rw [cut, List.length_take]
    omega
  have hhead := head_cut t
  unfold absolutize TooLong
  split
  · rename_i rest hslash
    rw [hslash] at hhead
    have habs : t.head? = some '/' := hhead.symm
    simp only [habs, ne_eq, not_true_eq_false, false_and, not_false_eq_true, iff_true]
    rw [if_pos hlength]
    rfl
  · rename_i hrel
    have habs : t.head? ≠ some '/' := by
      intro hslash
      rw [← hhead] at hslash
      cases hcut : cut 1024 t with
      | nil => simp [hcut] at hslash
      | cons c rest =>
        rw [hcut] at hslash
        obtain rfl := Option.some.inj hslash
        exact hrel rest hcut
    split_ifs with hfits
    · refine iff_of_true rfl fun hlong => ?_
      omega
    · simp only [Option.isSome_none, Bool.false_eq_true, false_iff, not_not]
      refine ⟨habs, ?_⟩
      omega

theorem meets_self_iff : Meets h t t ↔ Alike h t := by
  have hhead := head_cut t
  unfold Meets
  constructor
  · intro hmeets
    by_cases habs : t.head? = some '/'
    · by_cases hlong : t.length < 1024
      · exact .plain ⟨habs, hlong⟩
      · rw [absolute_of_head habs, absolute_of_head (hhead.trans habs)] at hmeets
        exact .long habs (Nat.le_of_not_lt hlong) hmeets
    · rw [absolute_of_relative habs, absolute_of_relative (hhead ▸ habs)] at hmeets
      exact .relative habs hmeets
  · rintro (hplain | ⟨habs, -, hplace⟩ | ⟨habs, hplace⟩)
    · rw [hplain.cut, absolute_of_head hplain.1, absolute_of_head hplain.1]
    · rwa [absolute_of_head habs, absolute_of_head (hhead.trans habs)]
    · rw [absolute_of_relative habs, absolute_of_relative (hhead ▸ habs)]
      exact hplace

theorem cliConfigured_eq (f : TextField) :
    cliConfigured h files f = (said h files f).filter (· ≠ []) := rfl

/-- The daemon reads the config file only if it is regular. -/
theorem configured_eq {f : TextField} (hf : f = .cacheDir ∨ f = .configDir) :
    configured h files [] f = if isRegular h files then said h files f else none := by
  have hkey : fileText (.object []) f = none := by rcases hf with rfl | rfl <;> rfl
  have hconfigured : configured h files [] f =
      fileText (configRoot (h.system files) (h.configPath files)) f := rfl
  rw [hconfigured, Host.configPath, isRegular, said]
  cases hdefault : h.defaultConfigPath with
  | none => exact hkey
  | some path =>
    rw [Option.any_some, Option.bind_some]
    cases hreg : (files.entry (h.place h.cwd path)).regular with
    | false => simp [Option.filter_some, hreg, configRoot, hkey]
    | true =>
      cases hdoc : (files.entry (h.place h.cwd path)).document <;>
        simp [Option.filter_some, hreg, hdoc, configRoot, Host.system, hkey]

theorem startCwd_nil : startCwd h [] = lit "/" := rfl

/-- What the CLI takes, in one formula. -/
theorem cliTakes_iff : CliTakes api h files t ↔ (cliConfigDir h files).isSome ∧
    (((said h files .cacheDir).filter (· ≠ [])).or (cliStaged api h files)).or
      (h.defaultDirs.map DefaultDirs.cacheDir) = some t := by
  have hstaged : ∀ {dir}, cliConfigDir h files = some dir →
      cliStaged api h files = pendingCacheDir api h files h.cwd dir := by
    intro dir hdir
    obtain ⟨dir', hdir', rfl⟩ := Option.map_eq_some_iff.mp hdir
    rw [cliConfigured_eq] at hdir'
    rw [cliStaged, hdir', Option.bind_some]
  rw [← cliConfigured_eq]
  constructor
  · intro htakes
    cases htakes with
    | explicit hcache hdir => exact ⟨by rw [hdir]; rfl, by rw [hcache]; rfl⟩
    | staged hcache hdir hpending =>
      exact ⟨by rw [hdir]; rfl, by rw [hcache, hstaged hdir, hpending]; rfl⟩
    | platform hcache hdefaults hdir hpending =>
      exact ⟨by rw [hdir]; rfl, by rw [hcache, hstaged hdir, hpending, hdefaults]; rfl⟩
  · rintro ⟨hsome, htakes⟩
    obtain ⟨dir, hdir⟩ := Option.isSome_iff_exists.mp hsome
    rw [hstaged hdir] at htakes
    cases hcache : cliConfigured h files .cacheDir with
    | some w =>
      rw [hcache] at htakes
      cases htakes
      exact .explicit hcache hdir
    | none =>
      cases hpending : pendingCacheDir api h files h.cwd dir with
      | some w =>
        rw [hcache, hpending] at htakes
        cases htakes
        exact .staged hcache hdir hpending
      | none =>
        rw [hcache, hpending] at htakes
        obtain ⟨defaults, hdefaults, rfl⟩ := Option.map_eq_some_iff.mp htakes
        exact .platform hcache hdefaults hdir hpending

/-- What the daemon takes, in one formula. -/
theorem daemonTakes_cases_iff (hdir : (cliConfigDir h files).isSome) :
    DaemonTakes api h files [] t ↔
      isRegular h files = true ∧ said h files .cacheDir = some t ∨
      (isRegular h files = true → said h files .cacheDir = none) ∧
        ∃ defaults, h.defaultDirs = some defaults ∧
          (daemonStaged api h files).getD defaults.cacheDir = t := by
  have hcache : configured h files [] .cacheDir = _ := configured_eq (.inl rfl)
  have hconfig : configured h files [] .configDir = _ := configured_eq (.inr rfl)
  -- The daemon finds a config directory where the CLI finds one, if it needs it.
  have hdaemonDir : daemonConfigDir h files [] =
      (if isRegular h files then said h files .configDir else none).or
        (h.defaultDirs.map DefaultDirs.configDir) := by rw [daemonConfigDir, hconfig]
  have hstaged : ∀ {dir}, daemonConfigDir h files [] = some dir →
      daemonStaged api h files = pendingCacheDir api h files (startCwd h []) dir := by
    intro dir hd
    rw [daemonStaged, ← hdaemonDir, hd, Option.bind_some, startCwd_nil]
  have hfound : (h.defaultDirs.isSome ∨ isRegular h files = true) →
      ∃ dir, daemonConfigDir h files [] = some dir := by
    intro hor
    rw [hdaemonDir]
    cases hdefaults : h.defaultDirs with
    | some defaults => exact ⟨_, by rw [Option.map_some, Option.or_some]⟩
    | none =>
      have hreg := hor.resolve_left (by simp [hdefaults])
      rw [cliConfigDir, cliConfigured_eq, hdefaults] at hdir
      cases hsaid : said h files .configDir with
      | none => simp [hsaid] at hdir
      | some dir => exact ⟨dir, by simp [hreg]⟩
  rw [daemonTakes_iff, hcache]
  constructor
  · rintro ⟨dir, hd, htakes⟩
    rw [← hstaged hd] at htakes
    rcases htakes with hset | ⟨hunset, defaults, hdefaults, htakes⟩
    · cases hreg : isRegular h files with
      | true =>
        rw [hreg, if_pos rfl] at hset
        exact .inl ⟨rfl, hset⟩
      | false => simp [hreg] at hset
    · refine .inr ⟨fun hreg => ?_, defaults, hdefaults, htakes⟩
      rwa [hreg, if_pos rfl] at hunset
  · rintro (⟨hreg, hset⟩ | ⟨hunset, defaults, hdefaults, htakes⟩)
    · obtain ⟨dir, hd⟩ := hfound (.inr hreg)
      exact ⟨dir, hd, .inl (by rw [hreg, if_pos rfl, hset])⟩
    · obtain ⟨dir, hd⟩ := hfound (.inl (by rw [hdefaults]; rfl))
      refine ⟨dir, hd, .inr ⟨?_, defaults, hdefaults, by rw [← hstaged hd, htakes]⟩⟩
      cases hreg : isRegular h files with
      | true => rw [if_pos rfl, hunset hreg]
      | false => rfl

/-- The daemon's part of the agreement on a text of the CLI's. -/
theorem daemonMeets_iff (hdir : (cliConfigDir h files).isSome) :
    (∃ t', DaemonTakes api h files [] t' ∧ Meets h t' t) ↔
      isRegular h files = true ∧ (∃ t', said h files .cacheDir = some t' ∧ Meets h t' t) ∨
      (isRegular h files = true → said h files .cacheDir = none) ∧
        ∃ defaults, h.defaultDirs = some defaults ∧
          Meets h ((daemonStaged api h files).getD defaults.cacheDir) t := by
  simp only [daemonTakes_cases_iff hdir]
  constructor
  · rintro ⟨t', ⟨hreg, hset⟩ | ⟨hunset, defaults, hdefaults, rfl⟩, hmeets⟩
    · exact .inl ⟨hreg, t', hset, hmeets⟩
    · exact .inr ⟨hunset, defaults, hdefaults, hmeets⟩
  · rintro (⟨hreg, t', hset, hmeets⟩ | ⟨hunset, defaults, hdefaults, hmeets⟩)
    · exact ⟨t', .inl ⟨hreg, hset⟩, hmeets⟩
    · exact ⟨_, .inr ⟨hunset, defaults, hdefaults, rfl⟩, hmeets⟩

/-- A text that the CLI takes agrees with the daemon's. -/
theorem agreement_iff_takes : Agreement api h files ↔
    ∀ t, CliTakes api h files t → ¬TooLong h t →
      Accepted h files [] ∧ ∃ t', DaemonTakes api h files [] t' ∧ Meets h t' t := by
  simp only [Agreement, absolutize_isSome_iff]
  rfl

theorem cliConfigDir_eq_none_iff : cliConfigDir h files = none ↔
    h.defaultDirs = none ∧ (said h files .configDir).getD [] = [] := by
  rw [cliConfigDir, cliConfigured_eq]
  cases hsaid : said h files .configDir with
  | none => simp
  | some dir => by_cases hnil : dir = [] <;> simp [Option.filter_some, hnil]

/-- A directory that the config file names is the one that the CLI takes. -/
theorem cliText_of_said (api : PendingApi Doc) (hsaid : said h files .cacheDir = some t) (hne : t ≠ []) :
    (((said h files .cacheDir).filter (· ≠ [])).or (cliStaged api h files)).or
      (h.defaultDirs.map DefaultDirs.cacheDir) = some t := by
  simp [hsaid, Option.filter_some, hne]

theorem Unsaid.ne_some (hunsaid : Unsaid h files) (hreg : isRegular h files = true) :
    said h files .cacheDir = none := by
  rcases hunsaid with hnone | ⟨-, hfalse⟩
  · exact hnone
  · rw [hfalse] at hreg
    cases hreg

/-- Where both find the same staged, the daemon falls back to the text of the CLI. -/
theorem getD_of_same {defaults : DefaultDirs}
    (hsame : daemonStaged api h files = cliStaged api h files)
    (htext : (cliStaged api h files).or (h.defaultDirs.map DefaultDirs.cacheDir) = some t)
    (hdefaults : h.defaultDirs = some defaults) :
    (daemonStaged api h files).getD defaults.cacheDir = t := by
  rw [hdefaults] at htext
  rw [hsame]
  cases hstaged : cliStaged api h files with
  | none =>
    rw [hstaged] at htext
    exact Option.some.inj htext
  | some staged =>
    rw [hstaged] at htext
    exact Option.some.inj htext

/-- **The cases are all of them**: the texts lead to one place.  First it is asked whether the CLI
finds a config directory, without which it takes nothing; then whether the config file names a
cache directory for it; and then whether the daemon reads the file, or finds the same staged. -/
theorem Agrees.of_agreement (hagree : Agreement api h files) : Agrees api h files := by
  rw [agreement_iff_takes] at hagree
  cases hdir : cliConfigDir h files with
  | none =>
    obtain ⟨hdefaults, hempty⟩ := cliConfigDir_eq_none_iff.mp hdir
    exact .homeless hdefaults hempty
  | some dir =>
    have hsome : (cliConfigDir h files).isSome := by rw [hdir]; rfl
    have htakes : ∀ {t}, (((said h files .cacheDir).filter (· ≠ [])).or (cliStaged api h files)).or
        (h.defaultDirs.map DefaultDirs.cacheDir) = some t → ¬TooLong h t → Accepted h files [] ∧
        (isRegular h files = true ∧ (∃ t', said h files .cacheDir = some t' ∧ Meets h t' t) ∨
        (isRegular h files = true → said h files .cacheDir = none) ∧
          ∃ defaults, h.defaultDirs = some defaults ∧
            Meets h ((daemonStaged api h files).getD defaults.cacheDir) t) := by
      intro t ht hlong
      obtain ⟨haccepted, hmeets⟩ := hagree t (cliTakes_iff.mpr ⟨hsome, ht⟩) hlong
      exact ⟨haccepted, (daemonMeets_iff hsome).mp hmeets⟩
    by_cases hnamed : (said h files .cacheDir).getD [] = []
    · have hfilter : (said h files .cacheDir).filter (· ≠ []) = none := by
        cases hsaid : said h files .cacheDir with
        | none => rfl
        | some t => simpa [Option.filter_some, hsaid] using hnamed
      rw [hfilter, Option.none_or] at htakes
      cases htext : (cliStaged api h files).or (h.defaultDirs.map DefaultDirs.cacheDir) with
      | none =>
        obtain ⟨hstaged, hdefaults⟩ := Option.or_eq_none_iff.mp htext
        exact .nothing (Option.map_eq_none_iff.mp hdefaults) hnamed hstaged
      | some t =>
        by_cases hempty : said h files .cacheDir = some [] ∧ isRegular h files = true
        · refine .empty hempty.1 hempty.2 htext fun hlong => ?_
          obtain ⟨haccepted, ⟨-, t', hset, hmeets⟩ | ⟨hunset, -⟩⟩ := htakes htext hlong
          · obtain rfl := Option.some.inj (hempty.1.symm.trans hset)
            exact ⟨haccepted, hmeets⟩
          · rw [hunset hempty.2] at hempty
            cases hempty.1
        · have hunsaid : Unsaid h files := by
            cases hsaid : said h files .cacheDir with
            | none => exact .inl hsaid
            | some t =>
              obtain rfl : t = [] := by simpa [hsaid] using hnamed
              exact .inr ⟨hsaid, Bool.eq_false_iff.mpr fun hreg => hempty ⟨hsaid, hreg⟩⟩
          have hfallen : ¬TooLong h t → Accepted h files [] ∧ ∃ defaults,
              h.defaultDirs = some defaults ∧
              Meets h ((daemonStaged api h files).getD defaults.cacheDir) t := by
            intro hlong
            obtain ⟨haccepted, ⟨hreg, t', hset, -⟩ | ⟨-, hmeets⟩⟩ := htakes htext hlong
            · rw [hunsaid.ne_some hreg] at hset
              cases hset
            · exact ⟨haccepted, hmeets⟩
          by_cases hsame : daemonStaged api h files = cliStaged api h files
          · refine .unsaid hunsaid hsame htext fun hlong => ?_
            obtain ⟨haccepted, defaults, hdefaults, hmeets⟩ := hfallen hlong
            rw [getD_of_same hsame htext hdefaults] at hmeets
            exact ⟨haccepted, by simp [hdefaults], meets_self_iff.mp hmeets⟩
          · exact .unlike hunsaid hsame htext hfallen
    · obtain ⟨t, hsaid, hne⟩ : ∃ t, said h files .cacheDir = some t ∧ t ≠ [] := by
        cases hsaid : said h files .cacheDir with
        | none => simp [hsaid] at hnamed
        | some t => exact ⟨t, rfl, by simpa [hsaid] using hnamed⟩
      have htext := cliText_of_said api hsaid hne
      cases hreg : isRegular h files with
      | true =>
        refine .named hsaid hne hreg fun hlong => ?_
        obtain ⟨haccepted, ⟨-, t', hset, hmeets⟩ | ⟨hunset, -⟩⟩ := htakes htext hlong
        · obtain rfl := Option.some.inj (hsaid.symm.trans hset)
          exact ⟨haccepted, meets_self_iff.mp hmeets⟩
        · rw [hunset hreg] at hsaid
          cases hsaid
      | false =>
        refine .unread hsaid hne hreg fun hlong => ?_
        obtain ⟨haccepted, ⟨hfalse, -⟩ | ⟨-, hmeets⟩⟩ := htakes htext hlong
        · rw [hreg] at hfalse
          cases hfalse
        · exact ⟨haccepted, hmeets⟩

/-- And in each case the two take texts that lead to one place. -/
theorem Agrees.agreement (hagrees : Agrees api h files) : Agreement api h files := by
  rw [agreement_iff_takes]
  intro t htakes hlong
  obtain ⟨hsome, htext⟩ := cliTakes_iff.mp htakes
  rw [daemonMeets_iff hsome]
  -- The text that the CLI takes where the config file has none for it.
  have hopen : (said h files .cacheDir = none ∨ said h files .cacheDir = some []) →
      (cliStaged api h files).or (h.defaultDirs.map DefaultDirs.cacheDir) = some t := by
    rintro (hsaid | hsaid) <;> simpa [hsaid, Option.filter_some] using htext
  cases hagrees with
  | homeless hdefaults hempty =>
    rw [cliConfigDir_eq_none_iff.mpr ⟨hdefaults, hempty⟩] at hsome
    cases hsome
  | nothing hdefaults hempty hstaged =>
    have hsaid : said h files .cacheDir = none ∨ said h files .cacheDir = some [] := by
      cases hsaid : said h files .cacheDir with
      | none => exact .inl rfl
      | some t => exact .inr (by simpa [hsaid] using hempty)
    have hfound := hopen hsaid
    rw [hstaged, hdefaults] at hfound
    cases hfound
  | named hsaid hne hreg hplace =>
    obtain rfl := Option.some.inj ((cliText_of_said api hsaid hne).symm.trans htext)
    obtain ⟨haccepted, halike⟩ := hplace hlong
    exact ⟨haccepted, .inl ⟨hreg, _, hsaid, meets_self_iff.mpr halike⟩⟩
  | unread hsaid hne hreg hplace =>
    obtain rfl := Option.some.inj ((cliText_of_said api hsaid hne).symm.trans htext)
    obtain ⟨haccepted, hmeets⟩ := hplace hlong
    exact ⟨haccepted, .inr ⟨by simp [hreg], hmeets⟩⟩
  | empty hsaid hreg htaken hplace =>
    obtain rfl := Option.some.inj (htaken.symm.trans (hopen (.inr hsaid)))
    obtain ⟨haccepted, hmeets⟩ := hplace hlong
    exact ⟨haccepted, .inl ⟨hreg, [], hsaid, hmeets⟩⟩
  | unsaid hsaid hsame htaken hplace =>
    obtain rfl := Option.some.inj (htaken.symm.trans (hopen (hsaid.imp_right And.left)))
    obtain ⟨haccepted, hsome, halike⟩ := hplace hlong
    obtain ⟨defaults, hdefaults⟩ := Option.ne_none_iff_exists'.mp hsome
    refine ⟨haccepted, .inr ⟨hsaid.ne_some, defaults, hdefaults, ?_⟩⟩
    rw [getD_of_same hsame htaken hdefaults]
    exact meets_self_iff.mpr halike
  | unlike hsaid hdiffers htaken hplace =>
    obtain rfl := Option.some.inj (htaken.symm.trans (hopen (hsaid.imp_right And.left)))
    obtain ⟨haccepted, hmeets⟩ := hplace hlong
    exact ⟨haccepted, .inr ⟨hsaid.ne_some, hmeets⟩⟩

end Texts

/-! ### Plain files -/

/-- The daemon accepts its config file, which is a regular file if there is one, and every
directory that is named is named by a plain path.  This is the situation that the two programs
were written for, and in it they always agree. -/
structure Plain (api : PendingApi Doc) (h : Host) (files : Files Doc) : Prop where
  accepted : Accepted h files []
  regular : ∀ path, h.defaultConfigPath = some path →
    (files.entry (h.place h.cwd path)).regular = true ∨
      (files.entry (h.place h.cwd path)).document = .unopened
  cacheDir : ∀ t, configured h files [] .cacheDir = some t → PlainPath t
  configDir : ∀ t, configured h files [] .configDir = some t → PlainPath t
  pending : ∀ place doc t, files.pending place = some doc → api.cacheDir doc = some t → PlainPath t
  defaults : ∃ d, h.defaultDirs = some d ∧ PlainPath d.configDir ∧ PlainPath d.cacheDir

/-- On plain files the CLI sees what the daemon sees. -/
theorem Plain.cliConfigured {api : PendingApi Doc} {h : Host} {files : Files Doc}
    (hplain : Plain api h files) {f : TextField} (hf : f = .cacheDir ∨ f = .configDir) :
    cliConfigured h files f = configured h files [] f := by
  have hpath : ∀ t, configured h files [] f = some t → PlainPath t := by
    rcases hf with rfl | rfl
    · exact hplain.cacheDir
    · exact hplain.configDir
  rw [configured_eq hf] at hpath ⊢
  rw [cliConfigured_eq]
  cases hreg : isRegular h files with
  | true =>
    rw [hreg, if_pos rfl] at hpath
    cases hsaid : said h files f with
    | none => rfl
    | some t =>
      have hne : t ≠ [] := by
        rintro rfl
        exact absurd (hpath [] hsaid).1 (by simp)
      simp [Option.filter_some, hne]
  | false =>
    have hnone : said h files f = none := by
      unfold said
      unfold isRegular at hreg
      cases hdefault : h.defaultConfigPath with
      | none => rfl
      | some path =>
        rw [hdefault, Option.any_some] at hreg
        rcases hplain.regular path hdefault with hregular | hunopened
        · rw [hreg] at hregular
          cases hregular
        · rw [Option.bind_some, hunopened]
    rw [hnone]
    rfl

theorem Plain.configDir_eq {api : PendingApi Doc} {h : Host} {files : Files Doc}
    (hplain : Plain api h files) {dir : Text} (hdir : cliConfigDir h files = some dir) :
    daemonConfigDir h files [] = some dir ∧ PlainPath dir := by
  unfold cliConfigDir at hdir
  rw [hplain.cliConfigured (.inr rfl)] at hdir
  obtain ⟨dir', hdir', rfl⟩ := Option.map_eq_some_iff.mp hdir
  have hpath : PlainPath dir' := by
    cases hconf : configured h files [] .configDir with
    | some t =>
      rw [hconf] at hdir'
      cases hdir'
      exact hplain.configDir _ hconf
    | none =>
      rw [hconf, Option.none_or] at hdir'
      obtain ⟨defaults, hdefaults, hdefault, -⟩ := hplain.defaults
      rw [hdefaults] at hdir'
      cases hdir'
      exact hdefault
  rw [hpath.cut]
  exact ⟨hdir', hpath⟩

/-- **On plain files the two programs agree.**  Both see the same config file, as it is a regular
one or none, and so they look for the pending document in the same directory.  The text that both
end up with is a plain path, which is not cut and means the same place from everywhere. -/
theorem Plain.agreement {api : PendingApi Doc} {h : Host} {files : Files Doc}
    (hplain : Plain api h files) : Agreement api h files := by
  have hcacheDir := hplain.cliConfigured (f := .cacheDir) (.inl rfl)
  have hstaged : ∀ {dir}, cliConfigDir h files = some dir →
      pendingCacheDir api h files (startCwd h []) dir = pendingCacheDir api h files h.cwd dir := by
    intro dir hdir
    obtain ⟨-, hpath⟩ := hplain.configDir_eq hdir
    simp only [pendingCacheDir, Host.pendingPlace, Host.place]
    rw [hpath.absolute, hpath.absolute]
  -- Both take the same plain path, so it is not cut and does not depend on a directory.
  have hsame : ∀ {t}, DaemonTakes api h files [] t → PlainPath t → Accepted h files [] ∧
      ∃ t', DaemonTakes api h files [] t' ∧ h.place (lit "/") t' = h.place h.cwd (CText.cut 1024 t) := by
    intro t htakes hpath
    exact ⟨hplain.accepted, t, htakes, by rw [hpath.cut]; exact hpath.place_eq h _ _⟩
  obtain ⟨defaults, hdefaults, -, hdefault⟩ := hplain.defaults
  intro t ht _
  cases ht with
  | explicit hcache hdir =>
    rw [hcacheDir] at hcache
    exact hsame (.explicit hcache (hplain.configDir_eq hdir).1) (hplain.cacheDir _ hcache)
  | staged hcache hdir hpending =>
    rw [hcacheDir] at hcache
    obtain ⟨doc, hdoc, ht⟩ := Option.bind_eq_some_iff.mp hpending
    refine hsame (.staged hcache hdefaults (hplain.configDir_eq hdir).1 ?_) (hplain.pending _ doc t hdoc ht)
    rw [hstaged hdir, hpending]
  | platform hcache hdefaults' hdir hpending =>
    rw [hcacheDir] at hcache
    cases hdefaults.symm.trans hdefaults'
    refine hsame (.platform hcache hdefaults (hplain.configDir_eq hdir).1 ?_) hdefault
    rw [hstaged hdir, hpending]

/-- **When the CLI and the daemon agree**: exactly in the cases of `Agrees`, to which plain files
belong.  Both ways go through `Agreement`, which says of the two texts that they lead to one place
(`sourceIsOpened_iff`).  That the cases are all of them is `Agrees.of_agreement`, where the texts
of the config file and what is staged are taken apart until each side's choice is known; that each
of them is enough is `Agrees.agreement`. -/
theorem current_dir_agreement_iff (api : PendingApi Doc) (h : Host) (files : Files Doc) :
    (SourceIsOpened api h files ↔ Agrees api h files) ∧
      (Plain api h files → SourceIsOpened api h files) := by
  refine ⟨⟨fun hopened => ?_, fun hagrees => ?_⟩, fun hplain => ?_⟩
  · exact .of_agreement ((sourceIsOpened_iff api h files).mp hopened)
  · exact (sourceIsOpened_iff api h files).mpr hagrees.agreement
  · exact (sourceIsOpened_iff api h files).mpr hplain.agreement

/-- **A relative `[cache].dir` means two directories**: the CLI, run in `/home/u`, takes
`/home/u/cache`, and the daemon opens `/cache`. -/
theorem relative_cache_dir_disagrees :
    cliSource plainApi plainHost
        (plainFiles (.object [(lit "cache", .object [(lit "dir", .string (lit "cache"))])]) none) =
      some (lit "/home/u/cache") ∧
    ¬ SourceIsOpened plainApi plainHost
        (plainFiles (.object [(lit "cache", .object [(lit "dir", .string (lit "cache"))])]) none) := by
  have hsrc : cliSource plainApi plainHost
      (plainFiles (.object [(lit "cache", .object [(lit "dir", .string (lit "cache"))])]) none) =
      some (lit "/home/u/cache") := by decide +kernel
  refine ⟨hsrc, fun hopened => ?_⟩
  obtain ⟨s, t, hrun, ht, hplace⟩ := hopened _ hsrc
  obtain ⟨s', hrun', ht'⟩ : ∃ s', runOffsd plainApi plainHost
      (plainFiles (.object [(lit "cache", .object [(lit "dir", .string (lit "cache"))])]) none) [] =
      .ok s' ∧ s'.args.text .cacheDir = some (lit "cache") := ⟨_, rfl, rfl⟩
  cases hrun.symm.trans hrun'
  cases ht.symm.trans ht'
  exact absurd hplace (by decide)

end Offs.CliCache
