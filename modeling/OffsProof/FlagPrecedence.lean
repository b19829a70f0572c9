import OffsProof.DaemonArgs

/-! # Flags and the config file

Which value a member of `offsd_args_t` has when a flag and a config-file key both speak for it.
`occurrences` reads an argument vector the way the loop of `_parse_args` does, so an argument
that is another flag's value is no occurrence.

The loop itself is a sequence of overwrites, and one induction says what it leaves in any member
(`parseFlags_lastValue`): the last occurrence decides.  `Flagged` has this for every member.
What a member held before matters only where no flag sets it, and never for whether the flags
are accepted (`parseFlags_setText`).

The file then leaves a flag's value alone unless that value is the marker for unset (`fill`).
Strings have a marker that no flag can give, so they are safe; each number has a marker that a
flag can give, and there the file wins (`flags_outrank_file_iff`).  The condition (`Unshadowed`)
compares the texts of the flags with the values of the file and mentions no member.
-/
namespace Offs.Daemon
open CText CJson

/-- The values given to the flag `f`, in order. -/
def occurrences (f : ValueFlag) : List Text → List Text
  | [] | [_] => []
  | t :: value :: rest =>
    match ValueFlag.ofToken t with
    | some g => if g = f then value :: occurrences f rest else occurrences f rest
    | none => occurrences f (value :: rest)

/-- The value given by the last occurrence of the flag `f`. -/
def lastValue (f : ValueFlag) (argv : List Text) : Option Text := (occurrences f argv).getLast?

/-- The switch `f` occurs. -/
def switchOccurs (f : SwitchField) : List Text → Bool
  | [] => false
  | [t] => SwitchField.ofToken t == some f
  | t :: value :: rest =>
    match ValueFlag.ofToken t with
    | some _ => switchOccurs f rest
    | none => SwitchField.ofToken t == some f || switchOccurs f (value :: rest)

/-! ## The loop over the flags -/

/-- **The induction over an accepted argument vector.**  Only the moves that do not
refuse remain: a switch, or a flag with its value. -/
theorem parseFlags_induction {P : List Text → OffsdArgs → Prop} {after : OffsdArgs}
    (nil : P [] after)
    (last : ∀ {t s args}, SwitchField.ofToken t = some s → args.setSwitch s true = after → P [t] args)
    (value : ∀ {t v rest f args args'}, ValueFlag.ofToken t = some f → f.apply args v = .ok args' →
      P rest args' → P (t :: v :: rest) args)
    (switch : ∀ {t v rest s args}, ValueFlag.ofToken t = none → SwitchField.ofToken t = some s →
      P (v :: rest) (args.setSwitch s true) → P (t :: v :: rest) args)
    {argv : List Text} {args : OffsdArgs} (h : parseFlags argv args = .ok after) : P argv args := by
  induction argv, args using parseFlags.induct with
  | case1 args =>
    cases h
    exact nil
  | case2 t args s hs =>
    simp only [parseFlags, hs, Except.ok.injEq] at h
    exact last hs h
  | case3 args hs => simp [parseFlags, hs] at h
  | case4 t args hs hhelp => simp [parseFlags, hs, hhelp] at h
  | case5 t v rest args f hf args' happly ih =>
    simp only [parseFlags, hf, happly] at h
    exact value hf happly (ih h)
  | case6 t v rest args f hf e happly => simp [parseFlags, hf, happly] at h
  | case7 t v rest args hf s hs ih =>
    simp only [parseFlags, hf, hs] at h
    exact switch hf hs (ih h)
  | case8 v rest args hf hs => simp [parseFlags, hf, hs] at h
  | case9 t v rest args hf hs hhelp => simp [parseFlags, hf, hs, hhelp] at h

/-- **The last occurrence decides.**  `get` is a member that the flag `f` sets to
`value` of its argument and that nothing else changes. -/
theorem parseFlags_lastValue {α : Type} (get : OffsdArgs → α) {f : ValueFlag} {value : Text → α}
    (hset : ∀ {args t after}, f.apply args t = .ok after → get after = value t)
    (hframe : ∀ {g args t after}, g ≠ f → g.apply args t = .ok after → get after = get args)
    (hswitch : ∀ args s b, get (OffsdArgs.setSwitch args s b) = get args)
    {argv : List Text} {args after : OffsdArgs} (h : parseFlags argv args = .ok after) :
    get after = ((lastValue f argv).map value).getD (get args) := by
  unfold lastValue
  refine parseFlags_induction (P := fun argv args =>
    get after = ((occurrences f argv).getLast?.map value).getD (get args)) ?_ ?_ ?_ ?_ h
  · rfl
  · rintro t s args - rfl
    exact hswitch args s true
  · intro t v rest g args args' hg happly ih
    by_cases hgf : g = f
    · subst hgf
      rw [hset happly] at ih
      rw [ih]
      cases hlast : (occurrences g rest).getLast? <;>
        simp [occurrences, hg, List.getLast?_cons, hlast]
    · rw [ih, hframe hgf happly]
      simp [occurrences, hg, hgf]
  · intro t v rest s args ht _ ih
    rw [ih, hswitch]
    simp [occurrences, ht]

theorem parseFlags_switch {f : SwitchField} {argv : List Text} {args after : OffsdArgs}
    (h : parseFlags argv args = .ok after) :
    after.switch f = (args.switch f || switchOccurs f argv) := by
  have hset : ∀ (args : OffsdArgs) (s : SwitchField),
      (args.setSwitch s true).switch f = (args.switch f || some s == some f) := by
    intro args s
    by_cases hsf : s = f
    · simp [OffsdArgs.setSwitch, hsf]
    · simp [OffsdArgs.setSwitch, hsf, Function.update_of_ne (Ne.symm hsf)]
  refine parseFlags_induction (P := fun argv args =>
    after.switch f = (args.switch f || switchOccurs f argv)) ?_ ?_ ?_ ?_ h
  · simp [switchOccurs]
  · rintro t s args hs rfl
    rw [hset, switchOccurs, hs]
  · intro t v rest g args args' hg happly ih
    rw [ih, switchOccurs, hg]
    cases g with
    | unixSocketMode =>
      simp only [ValueFlag.apply] at happly
      split at happly <;> cases happly
      rfl
    | _ => cases happly; rfl
  · intro t v rest s args ht hs ih
    rw [ih, hset, switchOccurs, ht, hs, Bool.or_assoc]

/-- **What a flag does**, when its value is taken. -/
theorem apply_ok {f : ValueFlag} {args after : OffsdArgs} {t : Text}
    (h : f.apply args t = .ok after) :
    (∃ g, f = .text g ∧ after = args.setText g (some t)) ∨
    (∃ g, f = .port g ∧ after = args.setPort g (portOf t)) ∨
    (f = .workers ∧ after = { args with workerCount := workersOf t }) ∨
    (f = .maxCapacityBytes ∧ after = { args with maxCapacityBytes := capacityOf t }) ∨
    (f = .unixSocketMode ∧ ∃ mode, socketMode t = some mode ∧
      after = { args with unixSocketMode := mode }) := by
  cases f with
  | text g => cases h; exact .inl ⟨g, rfl, rfl⟩
  | port g => cases h; exact .inr (.inl ⟨g, rfl, rfl⟩)
  | workers => cases h; exact .inr (.inr (.inl ⟨rfl, rfl⟩))
  | maxCapacityBytes => cases h; exact .inr (.inr (.inr (.inl ⟨rfl, rfl⟩)))
  | unixSocketMode =>
    simp only [ValueFlag.apply] at h
    split at h
    · rename_i mode hmode
      cases h
      exact .inr (.inr (.inr (.inr ⟨rfl, mode, hmode, rfl⟩)))
    · cases h

theorem lastValue_cons (f : ValueFlag) {t v : Text} {rest : List Text} {g : ValueFlag}
    (ht : ValueFlag.ofToken t = some g) (before : Option Text) :
    (lastValue f (t :: v :: rest)).or before =
      (lastValue f rest).or (if g = f then some v else before) := by
  unfold lastValue
  rw [occurrences, ht]
  dsimp only
  split
  · rw [List.getLast?_cons]
    cases (occurrences f rest).getLast? <;> rfl
  · rfl

theorem lastValue_switch (f : ValueFlag) {t v : Text} {rest : List Text}
    (ht : ValueFlag.ofToken t = none) : lastValue f (t :: v :: rest) = lastValue f (v :: rest) := by
  rw [lastValue, occurrences, ht]
  rfl

theorem apply_setText (f : TextField) (args : OffsdArgs) (before : Option Text) (g : ValueFlag)
    (t : Text) :
    g.apply (args.setText f before) t =
      (g.apply args t).map fun after =>
        after.setText f (if g = .text f then some t else before) := by
  cases g with
  | text g =>
    by_cases hg : g = f
    · subst hg
      simp [ValueFlag.apply, Except.map, OffsdArgs.setText]
    · simp [ValueFlag.apply, Except.map, OffsdArgs.setText, hg, Function.update_comm hg]
  | port g => rfl
  | workers => rfl
  | maxCapacityBytes => rfl
  | unixSocketMode =>
    simp only [ValueFlag.apply]
    split <;> rfl

/-- **What a text member held before matters only where no flag sets it**, and not for whether
the flags are accepted.  The induction is over the loop itself, and what the member held
before changes on the way. -/
theorem parseFlags_setText (f : TextField) (before : Option Text) (argv : List Text)
    (args : OffsdArgs) :
    parseFlags argv (args.setText f before) =
      (parseFlags argv args).map fun after =>
        after.setText f ((lastValue (.text f) argv).or before) := by
  induction argv, args using parseFlags.induct generalizing before with
  | case1 args => rfl
  | case2 t args s hs =>
    rw [parseFlags, parseFlags, hs]
    rfl
  | case3 args hs =>
    rw [parseFlags, parseFlags, hs]
    rfl
  | case4 t args hs hhelp =>
    rw [parseFlags, parseFlags, hs]
    simp only [if_neg hhelp]
    rfl
  | case5 t v rest args g hg args' happly ih =>
    have hset := apply_setText f args before g v
    rw [happly] at hset
    rw [lastValue_cons _ hg, parseFlags, parseFlags, hg]
    simp only [hset, happly, Except.map]
    exact ih _
  | case6 t v rest args g hg e happly =>
    have hset := apply_setText f args before g v
    rw [happly] at hset
    rw [parseFlags, parseFlags, hg]
    simp only [hset, happly, Except.map]
  | case7 t v rest args hg s hs ih =>
    rw [lastValue_switch _ hg, parseFlags, parseFlags, hg, hs]
    exact ih _
  | case8 v rest args hg hs =>
    rw [parseFlags, parseFlags, hg, hs]
    rfl
  | case9 t v rest args hg hs hhelp =>
    rw [parseFlags, parseFlags, hg, hs]
    simp only [if_neg hhelp]
    rfl

/-- **The members after the flags.**  Each is what the last occurrence of its flag gives, and what
it was before where there is none; no flag sets a period.  That the loop has not refused anything
is in the socket mode, whose last text is one. -/
structure Flagged (argv : List Text) (before after : OffsdArgs) : Prop where
  text : ∀ f, after.text f = (lastValue (.text f) argv).or (before.text f)
  port : ∀ f, after.port f = ((lastValue (.port f) argv).map portOf).getD (before.port f)
  period : after.period = before.period
  switch : ∀ f, after.switch f = (before.switch f || switchOccurs f argv)
  workerCount : after.workerCount = ((lastValue .workers argv).map workersOf).getD before.workerCount
  maxCapacityBytes : after.maxCapacityBytes =
    ((lastValue .maxCapacityBytes argv).map capacityOf).getD before.maxCapacityBytes
  unixSocketMode : some after.unixSocketMode =
    ((lastValue .unixSocketMode argv).map socketMode).getD (some before.unixSocketMode)

theorem parseFlags_text (f : TextField) {argv : List Text} {args after : OffsdArgs}
    (h : parseFlags argv args = .ok after) :
    after.text f = (lastValue (.text f) argv).or (args.text f) := by
  have hlast : after.text f = ((lastValue (.text f) argv).map some).getD (args.text f) := by
    refine parseFlags_lastValue (fun a => a.text f) ?_ ?_ (fun _ _ _ => rfl) h
    · rintro args t after ⟨⟩
      simp [OffsdArgs.setText]
    · intro g args t after hne happly
      rcases apply_ok happly with ⟨g, rfl, rfl⟩ | ⟨g, rfl, rfl⟩ | ⟨rfl, rfl⟩ | ⟨rfl, rfl⟩ |
        ⟨rfl, -, -, rfl⟩
      · exact OffsdArgs.setText_of_ne fun hfg => hne (by rw [hfg])
      all_goals rfl
  rw [hlast]
  cases lastValue (.text f) argv <;> rfl

theorem parseFlags_port (f : PortField) {argv : List Text} {args after : OffsdArgs}
    (h : parseFlags argv args = .ok after) :
    after.port f = ((lastValue (.port f) argv).map portOf).getD (args.port f) := by
  refine parseFlags_lastValue (fun a => a.port f) ?_ ?_ (fun _ _ _ => rfl) h
  · rintro args t after ⟨⟩
    simp [OffsdArgs.setPort]
  · intro g args t after hne happly
    rcases apply_ok happly with ⟨g, rfl, rfl⟩ | ⟨g, rfl, rfl⟩ | ⟨rfl, rfl⟩ | ⟨rfl, rfl⟩ |
      ⟨rfl, -, -, rfl⟩
    · rfl
    · exact OffsdArgs.setPort_of_ne fun hfg => hne (by rw [hfg])
    all_goals rfl

theorem parseFlags_ok {argv : List Text} {args after : OffsdArgs}
    (h : parseFlags argv args = .ok after) : Flagged argv args after where
  text f := parseFlags_text f h
  port f := parseFlags_port f h
  switch f := parseFlags_switch h
  period := by
    refine parseFlags_induction (P := fun _ args => after.period = args.period) rfl ?_ ?_ ?_ h
    · rintro t s args - rfl
      rfl
    · intro t v rest g args args' _ happly ih
      rw [ih]
      rcases apply_ok happly with ⟨g, rfl, rfl⟩ | ⟨g, rfl, rfl⟩ | ⟨rfl, rfl⟩ | ⟨rfl, rfl⟩ |
        ⟨rfl, -, -, rfl⟩ <;> rfl
    · exact fun _ _ ih => ih
  workerCount := by
    refine parseFlags_lastValue OffsdArgs.workerCount ?_ ?_ (fun _ _ _ => rfl) h
    · rintro args t after ⟨⟩
      rfl
    · intro g args t after hne happly
      rcases apply_ok happly with ⟨g, rfl, rfl⟩ | ⟨g, rfl, rfl⟩ | ⟨rfl, rfl⟩ | ⟨rfl, rfl⟩ |
        ⟨rfl, -, -, rfl⟩ <;> first | rfl | exact absurd rfl hne
  maxCapacityBytes := by
    refine parseFlags_lastValue OffsdArgs.maxCapacityBytes ?_ ?_ (fun _ _ _ => rfl) h
    · rintro args t after ⟨⟩
      rfl
    · intro g args t after hne happly
      rcases apply_ok happly with ⟨g, rfl, rfl⟩ | ⟨g, rfl, rfl⟩ | ⟨rfl, rfl⟩ | ⟨rfl, rfl⟩ |
        ⟨rfl, -, -, rfl⟩ <;> first | rfl | exact absurd rfl hne
  unixSocketMode := by
    refine parseFlags_lastValue (fun a => some a.unixSocketMode) ?_ ?_ (fun _ _ _ => rfl) h
    · intro args t after happly
      rcases apply_ok happly with ⟨g, hg, -⟩ | ⟨g, hg, -⟩ | ⟨hg, -⟩ | ⟨hg, -⟩ | ⟨-, mode, hmode, rfl⟩
      · cases hg
      · cases hg
      · cases hg
      · cases hg
      · exact hmode.symm
    · intro g args t after hne happly
      rcases apply_ok happly with ⟨g, rfl, rfl⟩ | ⟨g, rfl, rfl⟩ | ⟨rfl, rfl⟩ | ⟨rfl, rfl⟩ |
        ⟨rfl, -, -, rfl⟩ <;> first | rfl | exact absurd rfl hne

/-! ## Who wins -/

/-- **Each flag's last occurrence has its way** in the members `args`.  A worker count
of 0 stands for the number of processors. -/
structure FlagsHold (w : System) (argv : List Text) (args : OffsdArgs) : Prop where
  text : ∀ f t, lastValue (.text f) argv = some t → args.text f = some t
  port : ∀ f t, lastValue (.port f) argv = some t → args.port f = portOf t
  workers : ∀ t, lastValue .workers argv = some t →
    args.workerCount = if workersOf t = 0 then getWorkerCount w else workersOf t
  maxCapacityBytes : ∀ t, lastValue .maxCapacityBytes argv = some t →
    args.maxCapacityBytes = capacityOf t
  unixSocketMode : ∀ t, lastValue .unixSocketMode argv = some t →
    socketMode t = some args.unixSocketMode
  allowSecure : switchOccurs .allowSecure argv = true → args.switch .allowSecure = true

/-- Where the last occurrence of a numeric flag gives the value that counts as unset, the file
says nothing else: it has no such key, or the same number. -/
structure Unshadowed (w : System) (argv : List Text) (root : Json) : Prop where
  port : ∀ f t n, lastValue (.port f) argv = some t → portOf t = f.unset →
    filePort root f = some n → n = f.unset
  workers : ∀ t n, lastValue .workers argv = some t → workersOf t = 0 →
    fileWorkers root = some n → n = 0 ∨ n = getWorkerCount w
  maxCapacityBytes : ∀ t n, lastValue .maxCapacityBytes argv = some t → capacityOf t = 0 →
    fileCapacity root w = some n → n = 0
  unixSocketMode : ∀ t n, lastValue .unixSocketMode argv = some t → socketMode t = some 0 →
    fileMode root = some n → n = 0

/-- The worker count of a flag that the file may fill. -/
theorem effectiveWorkers_fill {w : System} {t : Text} {file : Option Int} :
    (effectiveWorkers w (fill 0 (workersOf t) file) =
        if workersOf t = 0 then getWorkerCount w else workersOf t) ↔
      (workersOf t = 0 → ∀ n, file = some n → n = 0 ∨ n = getWorkerCount w) := by
  have hauto := getWorkerCount_ge w
  have hnonneg : 0 ≤ workersOf t := by
    unfold workersOf
    split <;> omega
  by_cases hzero : workersOf t = 0
  · simp only [hzero, fill_unset, if_true, forall_const]
    cases file with
    | none => simp
    | some n =>
      simp only [Option.getD_some, Option.some.injEq, forall_eq']
      rcases lt_trichotomy n 0 with hn | rfl | hn
      · rw [effectiveWorkers_neg w hn]
        omega
      · simp
      · rw [effectiveWorkers_pos w hn]
        omega
  · simp only [fill, hzero, if_false, false_implies, iff_true]
    exact effectiveWorkers_pos w (by omega)

/-- What `_parse_args` leaves in each member whose flag occurs: the flag's value, or the
file's where the flag's counts as unset. -/
structure Overlaid (w : System) (argv : List Text) (root : Json) (args : OffsdArgs) : Prop where
  text : ∀ f t, lastValue (.text f) argv = some t → args.text f = some t
  port : ∀ f t, lastValue (.port f) argv = some t →
    args.port f = fill f.unset (portOf t) (filePort root f)
  workers : ∀ t, lastValue .workers argv = some t →
    args.workerCount = effectiveWorkers w (fill 0 (workersOf t) (fileWorkers root))
  maxCapacityBytes : ∀ t, lastValue .maxCapacityBytes argv = some t →
    args.maxCapacityBytes = fill 0 (capacityOf t) (fileCapacity root w)
  unixSocketMode : ∀ t, lastValue .unixSocketMode argv = some t →
    ∃ mode, socketMode t = some mode ∧ args.unixSocketMode = fill 0 mode (fileMode root)
  allowSecure : switchOccurs .allowSecure argv = true → args.switch .allowSecure = true

theorem overlaid_of_filled {w : System} {argv : List Text} {root : Json}
    {initial flags filled : OffsdArgs} (hf : Flagged argv initial flags)
    (hfilled : Filled w root flags filled) : Overlaid w argv root (finishArgs w filled) := by
  obtain ⟨hport, -, hswitch, hworkers, hcapacity, hmode⟩ := finishArgs_rest w filled
  refine ⟨?_, ?_, ?_, ?_, ?_, ?_⟩
  · intro f t ht
    refine finishArgs_text ?_
    rw [hfilled.text, hf.text, ht]
    rfl
  · intro f t ht
    rw [hport, hfilled.port, hf.port, ht, Option.map_some, Option.getD_some]
  · intro t ht
    rw [hworkers, hfilled.workerCount, hf.workerCount, ht, Option.map_some, Option.getD_some]
  · intro t ht
    rw [hcapacity, hfilled.maxCapacityBytes, hf.maxCapacityBytes, ht, Option.map_some,
      Option.getD_some]
  · intro t ht
    -- The mode is the one number that is refused while its flag is read.
    have hstored := hf.unixSocketMode
    rw [ht, Option.map_some, Option.getD_some] at hstored
    exact ⟨flags.unixSocketMode, hstored.symm, by rw [hmode, hfilled.unixSocketMode]⟩
  · intro hoccurs
    rw [hswitch, hfilled.switch, hf.switch, hoccurs, Bool.or_true]
    rfl

/-- **Flags outrank the config file exactly where they are not mistaken for unset.**
Whatever `_parse_args` starts from, when it returns 0 the members hold what the flags
say if and only if no numeric flag that gives its member's marker meets a file that
gives that member another value. -/
theorem flags_outrank_file_iff {w : System} {argv : List Text} {initial args : OffsdArgs}
    (h : parseArgs w argv initial = .ok args) :
    FlagsHold w argv args ↔ Unshadowed w argv
      (configRoot w ((lastValue (.text .configPath) argv).or (initial.text .configPath))) := by
  obtain ⟨flags, filled, hflags, hfilled, rfl⟩ := parseArgs_ok h
  have hf := parseFlags_ok hflags
  rw [hf.text .configPath] at hfilled
  have ho := overlaid_of_filled hf hfilled
  constructor
  · intro hold
    refine ⟨?_, ?_, ?_, ?_⟩
    · intro f t n ht hunset hfile
      exact fill_eq_stored.mp ((ho.port f t ht).symm.trans (hold.port f t ht)) hunset n hfile
    · intro t n ht hzero hfile
      exact effectiveWorkers_fill.mp ((ho.workers t ht).symm.trans (hold.workers t ht)) hzero n hfile
    · intro t n ht hzero hfile
      have hcapacity := (ho.maxCapacityBytes t ht).symm.trans (hold.maxCapacityBytes t ht)
      exact fill_eq_stored.mp hcapacity hzero n hfile
    · intro t n ht hzero hfile
      obtain ⟨mode, hmode, hargs⟩ := ho.unixSocketMode t ht
      have hheld : mode = (finishArgs w filled).unixSocketMode :=
        Option.some.inj (hmode.symm.trans (hold.unixSocketMode t ht))
      exact fill_eq_stored.mp (hargs.symm.trans hheld.symm)
        (Option.some.inj (hmode.symm.trans hzero)) n hfile
  · intro hun
    refine ⟨ho.text, ?_, ?_, ?_, ?_, ho.allowSecure⟩
    · intro f t ht
      rw [ho.port f t ht]
      exact fill_eq_stored.mpr fun hunset n hfile => hun.port f t n ht hunset hfile
    · intro t ht
      rw [ho.workers t ht]
      exact effectiveWorkers_fill.mpr fun hzero n hfile => hun.workers t n ht hzero hfile
    · intro t ht
      rw [ho.maxCapacityBytes t ht]
      exact fill_eq_stored.mpr fun hzero n hfile => hun.maxCapacityBytes t n ht hzero hfile
    · intro t ht
      obtain ⟨mode, hmode, hargs⟩ := ho.unixSocketMode t ht
      rw [hmode, hargs]
      refine congrArg some (fill_eq_stored.mpr fun hzero n hfile => ?_).symm
      exact hun.unixSocketMode t n ht (by rw [hmode, hzero]) hfile

/-- A machine whose config file sets `network.port` to 8080. -/
def portSystem : System where
  document _ := .json (.object [(lit "network", .object [(lit "port", .number (.finite 8080))])])
  nprocs := 4
  undefinedCast _ := 0

/-- The theorem for `--port 9000`. -/
theorem flags_outrank_file_iff_port :
    ∃ args, parseArgs portSystem [lit "--port", lit "9000"]
        (defaultArgs (some (lit "/etc/offs/offs.json"))) = .ok args ∧
      FlagsHold portSystem [lit "--port", lit "9000"] args ∧ args.port .port = 9000 := by
  obtain ⟨args, hargs⟩ : ∃ args, parseArgs portSystem [lit "--port", lit "9000"]
      (defaultArgs (some (lit "/etc/offs/offs.json"))) = .ok args := ⟨_, rfl⟩
  have hlast : lastValue (.port .port) [lit "--port", lit "9000"] = some (lit "9000") := by decide
  have hold : FlagsHold portSystem [lit "--port", lit "9000"] args := by
    refine (flags_outrank_file_iff hargs).mpr ⟨?_, ?_, ?_, ?_⟩
    · intro f t n ht hunset _
      cases f with
      | port =>
        rw [hlast] at ht
        cases ht
        exact absurd hunset (by decide)
      | _ => exact nomatch (show none = some t from ht)
    · intro t n ht
      exact nomatch (show none = some t from ht)
    · intro t n ht
      exact nomatch (show none = some t from ht)
    · intro t n ht
      exact nomatch (show none = some t from ht)
  exact ⟨args, hargs, hold, hold.port .port _ hlast⟩

/-- **`--port 23402` does not outrank the file**: it is taken for the default. -/
theorem port_flag_shadowed :
    ∃ args, parseArgs portSystem [lit "--port", lit "23402"]
        (defaultArgs (some (lit "/etc/offs/offs.json"))) = .ok args ∧
      lastValue (.port .port) [lit "--port", lit "23402"] = some (lit "23402") ∧
      portOf (lit "23402") = 23402 ∧ args.port .port = 8080 ∧
      ¬ FlagsHold portSystem [lit "--port", lit "23402"] args := by
  have hlast : lastValue (.port .port) [lit "--port", lit "23402"] = some (lit "23402") := by decide
  have hvalue : portOf (lit "23402") = 23402 := by decide
  obtain ⟨args, hargs, hport⟩ : ∃ args, parseArgs portSystem [lit "--port", lit "23402"]
      (defaultArgs (some (lit "/etc/offs/offs.json"))) = .ok args ∧ args.port .port = 8080 :=
    ⟨_, rfl, by decide +kernel⟩
  refine ⟨args, hargs, hlast, hvalue, hport, fun hold => ?_⟩
  have := hold.port .port _ hlast
  rw [hvalue, hport] at this
  exact absurd this (by decide)

end Offs.Daemon
