import OffsProof.CNumerals
import OffsProof.StagedSettings

/-! # The mode of the local socket

`--unix-socket-mode` and the key `unix-socket-mode` of the `[network]` section take an octal mode
up to 0777.  Both are read with `strtoull`, which also takes white space, signs and, in the flag,
nothing at all; the key is ignored if it is empty.  A mode of 0 stands for 0666 further down, so
0 cannot be asked for.

`socket_mode_honoured_iff` says for which texts the daemon does what it is asked to, for the flag
and for the key: the texts that are refused or taken for what they are (`Sound`).  That is, no
text with something before its digits that `strtoull` skips (`Padded`), no mode of 0, and not the
empty text.

What is taken for a mode is found from the grammar of numerals (`socketMode_isSome_iff`).  In one
direction a sound text is honoured in every start, whatever else is set (`Sound.honours`): the
mode that is passed on reaches the local socket, of which there is one in every start
(`startup_socketMode`).  In the other direction there is a start that takes the text, on a
machine with no other setting, and it would have to give the socket a mode that the text does
not stand for (`Honours.sound`).
-/
namespace Offs.Startup
open CText CJson Daemon Teardown

/-! ## The texts that are taken -/

/-- **A mode**: octal digits that denote at most 0777. -/
def Octal (s : Text) : Prop := Numeral 8 s ∧ value 8 s ≤ 511

/-- What `strtoull` makes of digits after a sign is at most 0777. -/
def SmallAfter (negative : Bool) (n : Nat) : Prop :=
  if negative then n = 0 ∨ 2 ^ 64 - 511 ≤ n ∧ n < 2 ^ 64 else n ≤ 511

/-- **A mode with white space or a sign in front**, which is no mode and is taken for one.  After
a minus sign it is a number that is 0, or so large that what is left of it is small. -/
inductive Padded : Text → Prop
  | mk {spaces mark ds : Text} {negative : Bool} (hspaces : ∀ c ∈ spaces, isSpace c = true)
    (hmark : SignText negative mark) (hpadding : spaces ++ mark ≠ []) (hds : Numeral 8 ds)
    (hsmall : SmallAfter negative (value 8 ds)) : Padded (spaces ++ (mark ++ ds))

/-- The texts that are either refused or taken for what they are. -/
structure Sound (s : Text) : Prop where
  nonempty : s ≠ []
  nonzero : ¬(Numeral 8 s ∧ value 8 s = 0)
  unpadded : ¬Padded s

theorem socketMode_of_octal {s : Text} (h : Octal s) : socketMode s = some (value 8 s) := by
  obtain ⟨hnumeral, hsmall⟩ := h
  have hvalue := strtoull_numeral hnumeral (by omega)
  rw [socketMode, hvalue, if_pos ⟨rfl, hsmall⟩]

theorem socketMode_isSome {s : Text} :
    (socketMode s).isSome ↔ (strtoull 8 s).2 = [] ∧ (strtoull 8 s).1 ≤ 511 := by
  rw [socketMode]
  split <;> simp [*]

/-- With digits read to the end, the mode is taken just if it is small. -/
theorem strtoull_small_iff {s rest : Text} {negative : Bool} {n : Nat}
    (h : scan 8 s = some (negative, n, rest)) :
    (strtoull 8 s).2 = rest ∧ ((strtoull 8 s).1 ≤ 511 ↔ SmallAfter negative n) := by
  rw [strtoull, h, SmallAfter]
  dsimp only
  by_cases hlarge : n ≥ 2 ^ 64
  · rw [if_pos hlarge]
    refine ⟨rfl, ?_⟩
    cases negative <;> simp <;> omega
  · rw [if_neg hlarge]
    cases negative with
    | false => exact ⟨rfl, Iff.rfl⟩
    | true =>
      refine ⟨rfl, ?_⟩
      simp only [if_true]
      omega

/-- **What is taken for a mode**: nothing, a mode, or a mode with something in front. -/
theorem socketMode_isSome_iff {s : Text} :
    (socketMode s).isSome ↔ s = [] ∨ Octal s ∨ Padded s := by
  rw [socketMode_isSome]
  rcases hscan : scan 8 s with _ | ⟨negative, n, rest⟩
  · -- No digit has been read, so the whole text is left.
    have hnone : strtoull 8 s = (0, s) := by rw [strtoull, hscan]
    have hno : ∀ {spaces mark ds : Text} {negative : Bool}, s = spaces ++ (mark ++ ds) →
        (∀ c ∈ spaces, isSpace c = true) → SignText negative mark → ¬Numeral 8 ds := by
      intro spaces mark ds negative hs hspaces hmark hds
      have := scan_iff.mpr ⟨spaces, mark, ds, hs, hspaces, hmark, hds, rfl⟩
      rw [hscan] at this
      cases this
    rw [hnone]
    constructor
    · rintro ⟨hs, -⟩
      exact .inl hs
    · rintro (hs | ⟨hds, -⟩ | ⟨hspaces, hmark, -, hds, -⟩)
      · exact ⟨hs, Nat.zero_le _⟩
      · exact absurd hds (@hno [] [] s false rfl (by simp) .none)
      · exact absurd hds (hno rfl hspaces hmark)
  · obtain ⟨hrest, hsmall⟩ := strtoull_small_iff hscan
    rw [hrest, hsmall]
    constructor
    · rintro ⟨rfl, hn⟩
      obtain ⟨spaces, mark, ds, rfl, hspaces, hmark, hds, rfl⟩ := scan_iff.mp hscan
      by_cases hpadding : spaces ++ mark = []
      · obtain ⟨rfl, rfl⟩ := List.append_eq_nil_iff.mp hpadding
        cases hmark
        exact .inr (.inl ⟨hds, hn⟩)
      · exact .inr (.inr ⟨hspaces, hmark, hpadding, hds, hn⟩)
    · rintro (rfl | ⟨hds, hn⟩ | ⟨hspaces, hmark, -, hds, hn⟩)
      · cases hscan
      · have := scan_numeral hds
        rw [hscan] at this
        cases this
        exact ⟨rfl, hn⟩
      · have := scan_iff.mpr ⟨_, _, _, rfl, hspaces, hmark, hds, rfl⟩
        rw [hscan] at this
        cases this
        exact ⟨rfl, hn⟩

/-- What is in front of a padded mode is no digit. -/
theorem Padded.not_octal {s : Text} (h : Padded s) : ¬Octal s := by
  rintro ⟨⟨-, hdigits⟩, -⟩
  obtain ⟨hspaces, hmark, hpadding, -, -⟩ := h
  rename_i spaces mark ds negative
  rcases spaces with _ | ⟨c, spaces⟩
  · rcases hmark with _ | _ | _
    · exact hpadding rfl
    · exact absurd (hdigits '+' (.head _)) (by decide)
    · exact absurd (hdigits '-' (.head _)) (by decide)
  · have hdigit := not_isSpace_of_isDigit (hdigits c (.head _))
    rw [hspaces c (.head _)] at hdigit
    cases hdigit

/-! ## Refusals -/

/-- **What the flags are refused for.** -/
theorem parseFlags_refused {argv : List Text} {args : OffsdArgs} {r : Refusal}
    (h : parseFlags argv args = .error r) :
    r = .help ∨ (∃ t, r = .unknownOption t) ∨
      ∃ t, r = .unixSocketMode t ∧ socketMode t = none := by
  induction argv, args using parseFlags.induct with
  | case1 args => cases h
  | case2 t args f hf => simp [parseFlags, hf] at h
  | case3 args hf =>
    simp only [parseFlags, hf, if_true, Except.error.injEq] at h
    exact .inl h.symm
  | case4 t args hf hhelp =>
    simp only [parseFlags, hf, if_neg hhelp, Except.error.injEq] at h
    exact .inr (.inl ⟨t, h.symm⟩)
  | case5 t v rest args f hf args' happly ih =>
    simp only [parseFlags, hf, happly] at h
    exact ih h
  | case6 t v rest args f hf e happly =>
    simp only [parseFlags, hf, happly, Except.error.injEq] at h
    subst h
    rcases f with f | f | _ | _ | _ <;> simp only [ValueFlag.apply, reduceCtorEq] at happly
    split at happly
    · cases happly
    · rename_i hmode
      cases happly
      exact .inr (.inr ⟨v, rfl, hmode⟩)
  | case7 t v rest args hf f hswitch ih =>
    simp only [parseFlags, hf, hswitch] at h
    exact ih h
  | case8 v rest args hf hs =>
    simp only [parseFlags, hf, hs, if_true, Except.error.injEq] at h
    exact .inl h.symm
  | case9 t v rest args hf hs hhelp =>
    simp only [parseFlags, hf, hs, if_neg hhelp, Except.error.injEq] at h
    exact .inr (.inl ⟨t, h.symm⟩)

/-- Only a text that is not taken is refused in the file. -/
theorem parseConfigFile_mode_refused {w : System} {path t : Text} {args : OffsdArgs}
    (h : parseConfigFile w path args = .error (.unixSocketMode t)) : socketMode t = none := by
  rw [parseConfigFile] at h
  split at h
  · cases h
  · cases h
  · rw [parseConfigRoot] at h
    dsimp only at h
    split at h
    · rename_i e hnetwork
      cases h
      rcases parseNetworkSection_cases w _ _ with ⟨e, herror, hmode⟩ | ⟨hok, -⟩
      · rw [hnetwork] at herror
        cases herror
        exact hmode t rfl
      · rw [hnetwork] at hok
        cases hok
    · cases h

theorem parseArgs_mode_refused {w : System} {argv : List Text} {args : OffsdArgs} {t : Text}
    (h : parseArgs w argv args = .error (.unixSocketMode t) ∨
      parseArgs w argv args = .error (.config (.unixSocketMode t))) : socketMode t = none := by
  rcases parseArgs_cases w argv args with ⟨e, hflags, hargs⟩ | ⟨flags, -, ⟨-, hargs⟩ |
    ⟨path, -, ⟨e, hfile, hargs⟩ | ⟨filled, -, hargs⟩⟩⟩ <;> rw [hargs] at h
  · rcases parseFlags_refused hflags with rfl | ⟨u, rfl⟩ | ⟨u, rfl, hu⟩
    · simp at h
    · simp at h
    · simp only [Except.error.injEq, Refusal.unixSocketMode.injEq, reduceCtorEq, or_false] at h
      rwa [← h]
  · simp at h
  · simp only [Except.error.injEq, Refusal.config.injEq, reduceCtorEq, false_or] at h
    subst h
    exact parseConfigFile_mode_refused hfile
  · simp at h

/-! ## What becomes of a mode -/

/-- `unix_transport_create` takes 0 for 0666. -/
def appliedMode (mode : Nat) : Nat := if mode = 0 then 438 else mode

/-- The mode that the local socket gets. -/
def Creation.socketMode : Creation → Option Nat
  | .unixTransport _ mode => some (appliedMode mode)
  | _ => none

/-- **A start honours the mode `s`**: it is refused just if it is none, and otherwise the socket
gets it.  `refusal` is what is said about it.  A start may still be refused for another reason, or
fail later; then nothing is asked. -/
structure Honours {Doc : Type} (s : Text) (refusal : Refusal)
    (run : Except StartFailure (Started Doc)) : Prop where
  refused : ¬Octal s → ∀ st, run ≠ .ok st
  accepted : Octal s → run ≠ .error (.refused refusal)
  applied : ∀ st, run = .ok st → ∀ env override server, startup env st.args override = .ok server →
    (calls server.log).filterMap Creation.socketMode = [value 8 s]

/-- The flag is honoured, whatever else is set. -/
def FlagHonoured (s : Text) : Prop :=
  ∀ (Doc : Type) (api : PendingApi Doc) (h : Host) (files : Files Doc) (argv : List Text),
    lastValue .unixSocketMode argv = some s →
    Honours s (.unixSocketMode s) (runOffsd api h files argv)

/-- The key is honoured where there is no flag. -/
def KeyHonoured (s : Text) : Prop :=
  ∀ (Doc : Type) (api : PendingApi Doc) (h : Host) (files : Files Doc) (argv : List Text),
    lastValue .unixSocketMode argv = none → fileModeText (configDocument h files argv) = some s →
    Honours s (.config (.unixSocketMode s)) (runOffsd api h files argv)

section Run
variable {Doc : Type} {api : PendingApi Doc} {h : Host} {files : Files Doc} {argv : List Text}
  {s : Text} {st : Started Doc}

/-- The mode that a start passes on: the flag's, or the file's if that is 0 or absent. -/
theorem runOffsd_mode (hrun : runOffsd api h files argv = .ok st) :
    ∃ flag, some flag = ((lastValue .unixSocketMode argv).map socketMode).getD (some 0) ∧
      st.args.unixSocketMode = fill 0 flag (fileMode (configDocument h files argv)) ∧
      (∀ t, fileModeText (configDocument h files argv) = some t → t ≠ [] →
        (socketMode t).isSome) := by
  obtain ⟨-, parsed, hparsed, hst⟩ := runOffsd_ok hrun
  obtain ⟨flags, filled, hflags, hfilled, rfl⟩ := parseArgs_ok hparsed
  have hflagged := parseFlags_ok hflags
  rw [hflagged.text .configPath] at hfilled
  refine ⟨flags.unixSocketMode, hflagged.unixSocketMode, ?_, hfilled.checkedMode⟩
  rw [hst.same.unixSocketMode, (finishArgs_rest _ filled).2.2.2.2.2, hfilled.unixSocketMode]
  rfl

/-- There is a local socket in every start, and it gets the mode that is passed on. -/
theorem startup_socketMode (hrun : runOffsd api h files argv = .ok st) {env : Env}
    {override : Option (Config Text)} {server : Server}
    (hstart : startup env st.args override = .ok server) :
    (calls server.log).filterMap Creation.socketMode = [appliedMode st.args.unixSocketMode] := by
  obtain ⟨-, parsed, hparsed, hst⟩ := runOffsd_ok hrun
  obtain ⟨path, hpath⟩ : ∃ path, st.args.text .unixPath = some path := by
    obtain ⟨flags, filled, -, -, rfl⟩ := parseArgs_ok hparsed
    rw [hst.same.text .unixPath (by decide) (by decide)]
    rcases hunix : filled.text .unixPath with _ | path
    · exact ⟨localSocketPath, by simp [finishArgs, hunix, OffsdArgs.setText]⟩
    · exact ⟨path, finishArgs_text hunix⟩
  rw [(startup_shows hstart).calls_eq, filterMap_madeBy _ rfl rfl rfl rfl]
  simp [httpCall, wsCall, wtCall, wtH3Call, unixCall, filterMap_optional, Creation.socketMode,
    hpath]

/-- **A text that is refused, or taken for what it is, is honoured**, once the mode that is
passed on is known. -/
theorem Sound.honours {refusal : Refusal} (hs : Sound s)
    (hrefusal : refusal = .unixSocketMode s ∨ refusal = .config (.unixSocketMode s))
    (hmode : ∀ st, runOffsd api h files argv = .ok st →
      ∃ mode, socketMode s = some mode ∧ (mode ≠ 0 → st.args.unixSocketMode = mode)) :
    Honours s refusal (runOffsd api h files argv) := by
  have hoctal : (socketMode s).isSome → Octal s := by
    intro hsome
    rcases socketMode_isSome_iff.mp hsome with hnil | hoctal | hpadded
    · exact absurd hnil hs.nonempty
    · exact hoctal
    · exact absurd hpadded hs.unpadded
  refine ⟨?_, ?_, ?_⟩
  · intro hno st hrun
    obtain ⟨mode, hsome, -⟩ := hmode st hrun
    exact hno (hoctal (by rw [hsome]; rfl))
  · intro ho hrun
    have hparse := runOffsd_refused hrun
    have hnone : socketMode s = none := by
      rcases hrefusal with rfl | rfl
      · exact parseArgs_mode_refused (.inl hparse)
      · exact parseArgs_mode_refused (.inr hparse)
    rw [socketMode_of_octal ho] at hnone
    cases hnone
  · intro st hrun env override server hstart
    obtain ⟨mode, hsome, hpassed⟩ := hmode st hrun
    have ho := hoctal (by rw [hsome]; rfl)
    rw [socketMode_of_octal ho] at hsome
    obtain rfl := Option.some.inj hsome
    have hne : value 8 s ≠ 0 := fun hzero => hs.nonzero ⟨ho.1, hzero⟩
    rw [startup_socketMode hrun hstart, hpassed hne, appliedMode, if_neg hne]

/-- **A text that is honoured is sound**, if a start takes it whenever `socketMode` does. -/
theorem Honours.sound {refusal : Refusal} (hh : Honours s refusal (runOffsd api h files argv))
    (hstarts : (socketMode s).isSome → ∃ st, runOffsd api h files argv = .ok st)
    (hmode : ∀ st, runOffsd api h files argv = .ok st →
      socketMode s = some 0 → st.args.unixSocketMode = 0) : Sound s := by
  have hoctal : (socketMode s).isSome → Octal s := by
    intro hsome
    by_contra hno
    obtain ⟨st, hrun⟩ := hstarts hsome
    exact hh.refused hno st hrun
  refine ⟨?_, ?_, ?_⟩
  · rintro rfl
    exact (hoctal rfl).1.nonempty rfl
  · rintro ⟨hnumeral, hzero⟩
    have hsome := socketMode_of_octal ⟨hnumeral, by omega⟩
    rw [hzero] at hsome
    obtain ⟨st, hrun⟩ := hstarts (by rw [hsome]; rfl)
    obtain ⟨server, hserver⟩ := @startup_of_ok soundEnv (fun _ => rfl) st.args none
    have happlied := hh.applied st hrun soundEnv none server hserver
    rw [startup_socketMode hrun hserver, hmode st hrun hsome, hzero] at happlied
    exact absurd happlied (by decide)
  · intro hpadded
    exact hpadded.not_octal (hoctal (socketMode_isSome_iff.mpr (.inr (.inr hpadded))))

end Run

/-! ## The flag and the key -/

/-- A machine without a config file. -/
def bareHost : Host := { plainHost with defaultConfigPath := none }

def flagArgv (s : Text) : List Text := [lit "--unix-socket-mode", s]

/-- A config file that sets the mode and nothing else. -/
def modeRoot (s : Text) : Json :=
  .object [(lit "network", .object [(lit "unix-socket-mode", .string s)])]

theorem lastValue_flagArgv (s : Text) : lastValue .unixSocketMode (flagArgv s) = some s := rfl

theorem flag_starts {s : Text} (hs : (socketMode s).isSome) :
    ∃ st, runOffsd plainApi bareHost (plainFiles (.object []) none) (flagArgv s) = .ok st := by
  obtain ⟨mode, hmode⟩ := Option.isSome_iff_exists.mp hs
  have hflags : parseFlags (flagArgv s) (defaultArgs none) =
      .ok { defaultArgs none with unixSocketMode := mode } := by
    have htoken : ValueFlag.ofToken (lit "--unix-socket-mode") = some .unixSocketMode := by decide
    simp only [flagArgv, parseFlags, htoken, ValueFlag.apply, hmode]
  have hparsed : parseArgs (bareHost.system (plainFiles (.object []) none)) (flagArgv s)
      (defaultArgs none) = .ok (finishArgs (bareHost.system (plainFiles (.object []) none))
        { defaultArgs none with unixSocketMode := mode }) := by
    rw [parseArgs, hflags]
    rfl
  exact runOffsd_starts plainApi
    (show some (lit "--unix-socket-mode") ≠ some (lit "uninstall") by decide) hparsed rfl

theorem parseNetworkSection_modeRoot {w : System} {s : Text} {args : OffsdArgs}
    (hs : (socketMode s).isSome) (hperiod : args.period .respirationTauMinMs = 0) :
    ∃ after, parseNetworkSection w (modeRoot s) args = .ok after := by
  obtain ⟨mode, hmode⟩ := Option.isSome_iff_exists.mp hs
  have hnetwork : (modeRoot s).getObjectItem (lit "network") =
      some (.object [(lit "unix-socket-mode", .string s)]) := rfl
  have hitem : (Json.object [(lit "unix-socket-mode", .string s)]).getObjectItem
      (lit "unix-socket-mode") = some (.string s) := rfl
  have hfile : ∀ f, filePeriodNumber (modeRoot s) f = none := fun f => by cases f <;> rfl
  simp only [parseNetworkSection, hnetwork, hitem]
  split
  · rename_i h
    rw [hfile] at h
    exact absurd h.1.2 (by decide)
  · split
    · rename_i h
      simp only [OffsdArgs.fillPeriod_absent (hfile _)] at h
      have hmin : args.period .respirationTauMinMs > 0 := h.1
      rw [hperiod] at hmin
      exact absurd hmin (by decide)
    · rcases s with _ | ⟨c, s⟩
      · exact ⟨_, rfl⟩
      · dsimp only
        rw [hmode]
        exact ⟨_, rfl⟩

theorem parseArgs_of_file {w : System} {argv : List Text} {args flags filled : OffsdArgs}
    {path : Text} {root : Json} (hflags : parseFlags argv args = .ok flags)
    (hpath : flags.text .configPath = some path) (hdocument : w.document path = .json root)
    (hroot : parseConfigRoot w root flags = .ok filled) :
    parseArgs w argv args = .ok (finishArgs w filled) := by
  simp only [parseArgs, hflags, hpath, parseConfigFile, hdocument, hroot]

theorem key_starts {s : Text} (hs : (socketMode s).isSome) :
    ∃ st, runOffsd plainApi plainHost (plainFiles (modeRoot s) none) [] = .ok st := by
  have hpath : plainHost.configPath (plainFiles (modeRoot s) none) =
      some (lit "/etc/offs/offs.json") := rfl
  have hdocument : (plainHost.system (plainFiles (modeRoot s) none)).document
      (lit "/etc/offs/offs.json") = .json (modeRoot s) := rfl
  obtain ⟨filled, hfilled⟩ : ∃ filled, parseConfigRoot
      (plainHost.system (plainFiles (modeRoot s) none)) (modeRoot s)
      (defaultArgs (some (lit "/etc/offs/offs.json"))) = .ok filled := by
    rw [parseConfigRoot]
    dsimp only
    obtain ⟨after, hafter⟩ := @parseNetworkSection_modeRoot
      (plainHost.system (plainFiles (modeRoot s) none)) s
      (((defaultArgs (some (lit "/etc/offs/offs.json"))).fillText (modeRoot s) .configDir).fillText
        (modeRoot s) .pidFile) hs rfl
    rw [hafter]
    exact ⟨_, rfl⟩
  have hparsed : parseArgs (plainHost.system (plainFiles (modeRoot s) none)) []
      (defaultArgs (plainHost.configPath (plainFiles (modeRoot s) none))) =
      .ok (finishArgs (plainHost.system (plainFiles (modeRoot s) none)) filled) := by
    rw [hpath]
    exact parseArgs_of_file rfl rfl hdocument hfilled
  refine runOffsd_starts plainApi (by decide) hparsed ?_
  rw [fillDefaultDirs]
  split <;> rfl

theorem flagHonoured_iff (s : Text) : FlagHonoured s ↔ Sound s := by
  constructor
  · intro hh
    refine (hh _ plainApi bareHost (plainFiles (.object []) none) (flagArgv s)
      (lastValue_flagArgv s)).sound flag_starts fun st hrun hzero => ?_
    obtain ⟨flag, hflag, hpassed, -⟩ := runOffsd_mode hrun
    rw [lastValue_flagArgv, Option.map_some, Option.getD_some, hzero] at hflag
    obtain rfl := Option.some.inj hflag
    rw [hpassed]
    rfl
  · intro hs Doc api h files argv hlast
    refine hs.honours (.inl rfl) fun st hrun => ?_
    obtain ⟨flag, hflag, hpassed, -⟩ := runOffsd_mode hrun
    rw [hlast, Option.map_some, Option.getD_some] at hflag
    refine ⟨flag, hflag.symm, fun hne => ?_⟩
    rw [hpassed, fill, if_neg hne]

theorem keyHonoured_iff (s : Text) : KeyHonoured s ↔ Sound s := by
  constructor
  · intro hh
    refine (hh _ plainApi plainHost (plainFiles (modeRoot s) none) [] rfl rfl).sound key_starts
      fun st hrun hzero => ?_
    obtain ⟨flag, hflag, hpassed, -⟩ := runOffsd_mode hrun
    obtain rfl := Option.some.inj hflag
    have hfile :
        fileModeText (configDocument plainHost (plainFiles (modeRoot s) none) []) = some s :=
      rfl
    rw [hpassed, fileMode, hfile, Option.bind_some, fill_unset]
    split
    · rfl
    · rw [hzero]
      rfl
  · intro hs Doc api h files argv hlast hfile
    refine hs.honours (.inr rfl) fun st hrun => ?_
    obtain ⟨flag, hflag, hpassed, hchecked⟩ := runOffsd_mode hrun
    rw [hlast] at hflag
    obtain rfl := Option.some.inj hflag
    obtain ⟨mode, hmode⟩ := Option.isSome_iff_exists.mp (hchecked s hfile hs.nonempty)
    refine ⟨mode, hmode, fun _ => ?_⟩
    rw [hpassed, fileMode, hfile, Option.bind_some, if_neg hs.nonempty, hmode, fill_unset]
    rfl

/-- **For which texts the socket gets the mode that was asked for**: the flag and the key are both
honoured, in every start, just for the sound ones.  Of the texts that are taken
(`socketMode_isSome_iff`) these are the modes other than 0, since a member that is 0 counts as
unset and the socket gets 0666; and what is refused is honoured as well, for then there is no
start. -/
theorem socket_mode_honoured_iff (s : Text) :
    (FlagHonoured s ↔ Sound s) ∧ (KeyHonoured s ↔ Sound s) :=
  ⟨flagHonoured_iff s, keyHonoured_iff s⟩

/-- **A socket that nobody should open is open to all**: `--unix-socket-mode 000` gives 0666. -/
theorem zero_mode_widened :
    Octal (lit "000") ∧ value 8 (lit "000") = 0 ∧
    (∃ st server, runOffsd plainApi bareHost (plainFiles (.object []) none)
        (flagArgv (lit "000")) = .ok st ∧ startup soundEnv st.args none = .ok server ∧
      (calls server.log).filterMap Creation.socketMode = [438]) ∧
    ¬FlagHonoured (lit "000") := by
  refine ⟨⟨by decide, by decide⟩, by decide, ⟨_, _, rfl, rfl, rfl⟩, fun hh => ?_⟩
  exact ((flagHonoured_iff _).mp hh).nonzero ⟨by decide, by decide⟩

end Offs.Startup
