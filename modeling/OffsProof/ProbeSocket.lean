import OffsProof.DaemonStart

/-! # The socket that `offs start` probes

`offs start` forwards its arguments to the daemon and then tries to connect to it.  It finds the
socket with a scan of its own: the argument after the first word `--unix`, else the default.  The
daemon reads the same arguments from left to right, where a flag takes its value along, the last
`--unix` counts, and the config file is asked if there is none.

`probe_finds_socket_iff` says exactly when the two come to the same path.  The condition
(`Agreed`) follows the first word `--unix` of the list: there is none, and the config file names
no other socket; it is a flag, and no later one changes its value; or it is the value of another
flag, and the argument after it is the socket all the same.

The proof runs through the list as the daemon does, with the two scans side by side
(`boundPath_eq_probe_iff`): a flag with its value, or a switch, is passed by both, unless one of
its words is `--unix`.
-/
namespace Offs.Start
open CText CJson Daemon

/-- `_probe_socket_path` -/
def probeSocketPath : List Text → Text
  | [] | [_] => localSocketPath
  | t :: value :: rest => if t = lit "--unix" then value else probeSocketPath (value :: rest)

/-- The socket of the daemon, by the flags and by `file`, the path in the config file. -/
def boundPath (file : Option Text) (argv : List Text) : Text :=
  ((lastValue (.text .unixPath) argv).or file).getD localSocketPath

/-- **The two readers agree.**  Without a word `--unix` the config file must name no other
socket than the default.  If the first such word is a flag, a later one must not change its
value.  If it is the value of another flag, the argument after it must be the socket. -/
def Agreed (file : Option Text) : List Text → Prop
  | [] | [_] => file = none ∨ file = some localSocketPath
  | t :: value :: rest =>
    match ValueFlag.ofToken t with
    | some f =>
      if f = .text .unixPath then ∀ last, lastValue (.text .unixPath) rest = some last → last = value
      else if value = lit "--unix" ∧ rest ≠ [] then rest.head? = some (boundPath file rest)
      else Agreed file rest
    | none => Agreed file (value :: rest)

/-! ## The two scans -/

theorem token_of_ofToken {t : Text} {f : ValueFlag} (h : ValueFlag.ofToken t = some f) :
    f.token = t := by
  have hfound := List.find?_some h
  simpa using hfound

theorem ofToken_unix : ValueFlag.ofToken (lit "--unix") = some (.text .unixPath) := by decide

/-- Only the word itself is the flag. -/
theorem ne_unix_of_ofToken {t : Text} (h : ValueFlag.ofToken t ≠ some (.text .unixPath)) :
    t ≠ lit "--unix" := by
  rintro rfl
  exact h ofToken_unix

theorem getD_eq_default_iff (file : Option Text) :
    file.getD localSocketPath = localSocketPath ↔ file = none ∨ file = some localSocketPath := by
  cases file with
  | none => simp
  | some path => simp

section Flags
variable {file : Option Text} {t value : Text} {rest : List Text}

theorem lastValue_unix (ht : ValueFlag.ofToken t = some (.text .unixPath)) :
    lastValue (.text .unixPath) (t :: value :: rest) =
      some ((lastValue (.text .unixPath) rest).getD value) := by
  simp only [lastValue, occurrences, ht, if_true, List.getLast?_cons]

theorem boundPath_other {f : ValueFlag} (ht : ValueFlag.ofToken t = some f)
    (hf : f ≠ .text .unixPath) : boundPath file (t :: value :: rest) = boundPath file rest := by
  simp only [boundPath, lastValue, occurrences, ht, if_neg hf]

theorem boundPath_switch (ht : ValueFlag.ofToken t = none) :
    boundPath file (t :: value :: rest) = boundPath file (value :: rest) := by
  simp only [boundPath, lastValue, occurrences, ht]

end Flags

/-- **The two scans over one argument list.** -/
theorem boundPath_eq_probe_iff (file : Option Text) (argv : List Text) :
    boundPath file argv = probeSocketPath argv ↔ Agreed file argv := by
  induction argv using Agreed.induct with
  | case1 => exact getD_eq_default_iff file
  | case2 t => exact getD_eq_default_iff file
  | case3 t value rest ht =>
    rw [Agreed, ht]
    simp only [if_true]
    have hword : t = lit "--unix" := (token_of_ofToken ht).symm
    rw [probeSocketPath, if_pos hword, boundPath, lastValue_unix ht]
    cases lastValue (.text .unixPath) rest with
    | none => simp
    | some last => simp
  | case4 t value rest f ht hf hvalue =>
    obtain ⟨rfl, hrest⟩ := hvalue
    have hword : t ≠ lit "--unix" := ne_unix_of_ofToken (by rw [ht]; simpa using hf)
    obtain ⟨next, tail, rfl⟩ := List.exists_cons_of_ne_nil hrest
    rw [Agreed, ht, boundPath_other ht hf, probeSocketPath, if_neg hword, probeSocketPath, if_pos rfl]
    simp only [if_neg hf, ne_eq, reduceCtorEq, not_false_eq_true, and_self, if_true, List.head?_cons,
      Option.some.injEq]
    exact eq_comm
  | case5 t value rest f ht hf hvalue ih =>
    have hword : t ≠ lit "--unix" := ne_unix_of_ofToken (by rw [ht]; simpa using hf)
    have hprobe : probeSocketPath (value :: rest) = probeSocketPath rest := by
      cases rest with
      | nil => rfl
      | cons next tail =>
        have hvalue : value ≠ lit "--unix" := fun h => hvalue ⟨h, List.cons_ne_nil _ _⟩
        rw [probeSocketPath, if_neg hvalue]
    rw [Agreed, ht, boundPath_other ht hf, probeSocketPath, if_neg hword, hprobe, ih]
    simp only [if_neg hf, if_neg hvalue]
  | case6 t value rest ht ih =>
    have hword : t ≠ lit "--unix" := ne_unix_of_ofToken (by simp [ht])
    rw [Agreed, ht, boundPath_switch ht, probeSocketPath, if_neg hword, ih]

/-! ## The daemon -/

/-- The socket that `_parse_args` ends up with. -/
theorem parsed_unixPath {Doc : Type} {h : Host} {files : Files Doc} {argv : List Text}
    {parsed : OffsdArgs}
    (hparsed : parseArgs (h.system files) argv (defaultArgs (h.configPath files)) = .ok parsed) :
    parsed.text .unixPath =
      some (boundPath (fileText (configDocument h files argv) .unixPath) argv) := by
  obtain ⟨flags, filled, hflags, hfilled, rfl⟩ := parseArgs_ok hparsed
  have hf := parseFlags_ok hflags
  rw [hf.text .configPath] at hfilled
  change Filled _ (configDocument h files argv) _ _ at hfilled
  have hfilledPath : filled.text .unixPath = (lastValue (.text .unixPath) argv).or
      (fileText (configDocument h files argv) .unixPath) := by
    rw [hfilled.text, hf.text, defaultArgs_text (by decide) (by decide), Option.or_none]
  unfold boundPath
  rw [← hfilledPath]
  cases hpath : filled.text .unixPath with
  | some path => exact finishArgs_text hpath
  | none =>
    unfold finishArgs
    dsimp only
    rw [if_pos hpath]
    simp [OffsdArgs.setText]

/-- **`offs start` probes the socket of the daemon exactly if the two readers agree.**  For every
machine, every config file and every argument list that the daemon accepts.  The daemon takes the
value of its last `--unix`, else the path of the file, else the default (`parsed_unixPath`), and
the probe takes the word after the first `--unix`, wherever it stands, else the default.  `Agreed`
goes through the cases of the one against those of the other. -/
theorem probe_finds_socket_iff {Doc : Type} {h : Host} {files : Files Doc} {argv : List Text}
    {parsed : OffsdArgs}
    (hparsed : parseArgs (h.system files) argv (defaultArgs (h.configPath files)) = .ok parsed) :
    parsed.text .unixPath = some (probeSocketPath argv) ↔
      Agreed (fileText (configDocument h files argv) .unixPath) argv := by
  rw [parsed_unixPath hparsed, Option.some.injEq]
  exact boundPath_eq_probe_iff _ argv

/-- The theorem for `offs start --unix /tmp/a.sock`. -/
theorem probe_finds_socket_iff_flag :
    ∃ parsed, parseArgs (plainHost.system (plainFiles (.object []) none))
        [lit "--unix", lit "/tmp/a.sock"]
        (defaultArgs (plainHost.configPath (plainFiles (.object []) none))) = .ok parsed ∧
      parsed.text .unixPath = some (probeSocketPath [lit "--unix", lit "/tmp/a.sock"]) := by
  obtain ⟨parsed, hparsed⟩ : ∃ parsed, parseArgs (plainHost.system (plainFiles (.object []) none))
      [lit "--unix", lit "/tmp/a.sock"]
      (defaultArgs (plainHost.configPath (plainFiles (.object []) none))) = .ok parsed := ⟨_, rfl⟩
  refine ⟨parsed, hparsed, (probe_finds_socket_iff hparsed).mpr ?_⟩
  rw [Agreed, ofToken_unix]
  simp [lastValue, occurrences]

/-- The config file of a daemon with a socket of its own. -/
def socketFile : Json := .object [(lit "unix", .object [(lit "socket-path", .string (lit "/srv/o.sock"))])]

/-- **The probe does not read the config file**: the daemon binds `/srv/o.sock`, and `offs
start` waits for `/var/run/offs.sock`. -/
theorem configured_socket_not_probed :
    ∃ parsed, parseArgs (plainHost.system (plainFiles socketFile none)) []
        (defaultArgs (plainHost.configPath (plainFiles socketFile none))) = .ok parsed ∧
      parsed.text .unixPath = some (lit "/srv/o.sock") ∧
      probeSocketPath [] = lit "/var/run/offs.sock" ∧
      parsed.text .unixPath ≠ some (probeSocketPath []) := by
  obtain ⟨parsed, hparsed, hpath⟩ : ∃ parsed, parseArgs (plainHost.system (plainFiles socketFile none))
      [] (defaultArgs (plainHost.configPath (plainFiles socketFile none))) = .ok parsed ∧
      parsed.text .unixPath = some (lit "/srv/o.sock") := ⟨_, rfl, rfl⟩
  refine ⟨parsed, hparsed, hpath, rfl, ?_⟩
  rw [hpath]
  decide

end Offs.Start
