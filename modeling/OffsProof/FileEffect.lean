import OffsProof.DaemonStart

/-! # What the config file achieves

For every start of the daemon and every key of its config file whose flag is absent: does the
first `_startup` get the file's value?  Each member passes its own test for being unset against
the defaults that `_run_offsd` put there before.  All of them still hold their marker, but for
`host`: it is `"0.0.0.0"` by then, so the key `network.host` never takes effect.

A number also has to survive its cast.  A worker count of 0 stands for the number of processors,
and an empty socket mode for none.

`Unflagged` says what `_startup` gets for each key, casts included, and follows from what the
parsers leave.  Comparing it with what the file says (`FileHolds`) leaves one question for each
number, namely whether it is an integer that its member can hold, and none for the strings and
the switches.  So the condition is about the file alone (`Effective`).
-/
namespace Offs.Daemon
open CText CJson

/-- **The members `args` hold what the file says**, key by key, where the flag is absent.  A
number is held if the member is that very number; a worker count of 0 asks for the number of
processors, and an empty socket mode for none. -/
structure FileHolds (w : System) (argv : List Text) (root : Json) (args : OffsdArgs) : Prop where
  text : ∀ f t, lastValue (.text f) argv = none → fileText root f = some t → args.text f = some t
  port : ∀ f d, lastValue (.port f) argv = none → filePortNumber root f = some d →
    d.IsNat (args.port f).toNat
  period : ∀ f d, filePeriodNumber root f = some d → d.IsNat (args.period f).toNat
  switch : ∀ f b, switchOccurs f argv = false → fileSwitch root f = some b → args.switch f = b
  workers : ∀ d, lastValue .workers argv = none → fileWorkersNumber root = some d →
    if d.IsNat 0 then args.workerCount = getWorkerCount w
    else ∃ n : Nat, args.workerCount = n ∧ d.IsNat n
  maxCapacityBytes : ∀ d, lastValue .maxCapacityBytes argv = none →
    fileCapacityNumber root = some d → d.IsNat args.maxCapacityBytes.toNat
  unixSocketMode : ∀ t, lastValue .unixSocketMode argv = none → fileModeText root = some t →
    if t = [] then args.unixSocketMode = 0 else socketMode t = some args.unixSocketMode

/-- Without `--host` the file names no other bind address than the default, and the
numbers whose flags are absent are integers that their members can hold. -/
structure Effective (argv : List Text) (root : Json) : Prop where
  host : ∀ t, lastValue (.text .host) argv = none → fileText root .host = some t → t = lit "0.0.0.0"
  port : ∀ f d, lastValue (.port f) argv = none → filePortNumber root f = some d →
    ∃ n < 2 ^ 16, d.IsNat n
  period : ∀ f d, filePeriodNumber root f = some d → ∃ n < 2 ^ 32, d.IsNat n
  workers : ∀ d, lastValue .workers argv = none → fileWorkersNumber root = some d →
    ∃ n < 2 ^ 31, d.IsNat n
  maxCapacityBytes : ∀ d, lastValue .maxCapacityBytes argv = none →
    fileCapacityNumber root = some d → ∃ n < 2 ^ 64, d.IsNat n

/-- A worker count from the file is held exactly when it is a count of `int`. -/
theorem effectiveWorkers_holds_iff (w : System) (d : Double) :
    (if d.IsNat 0 then effectiveWorkers w d.valueint = getWorkerCount w
      else ∃ n : Nat, effectiveWorkers w d.valueint = n ∧ d.IsNat n) ↔ ∃ n < 2 ^ 31, d.IsNat n := by
  constructor
  · intro h
    split at h
    · rename_i hzero
      exact ⟨0, by decide, hzero⟩
    · obtain ⟨n, hcount, hn⟩ := h
      refine ⟨n, ?_, hn⟩
      by_contra hlarge
      rw [hn, Double.valueint_saturated (by omega), effectiveWorkers_pos w (by decide)] at hcount
      omega
  · rintro ⟨n, hlt, hn⟩
    have hvalue : d.valueint = n := by rw [hn, Double.valueint_natCast hlt]
    rw [hvalue]
    by_cases hzero : n = 0
    · subst hzero
      rw [if_pos hn]
      exact effectiveWorkers_zero w
    · rw [if_neg fun h => hzero (hn.unique h)]
      exact ⟨n, effectiveWorkers_pos w (by omega), hn⟩

/-- What the first `_startup` gets for each key whose flag is absent: the value of the file after
its cast, but for the bind address, which is the default in any case. -/
structure Unflagged (w : System) (argv : List Text) (root : Json) (args : OffsdArgs) : Prop where
  host : lastValue (.text .host) argv = none → args.text .host = some (lit "0.0.0.0")
  text : ∀ f t, f ≠ .host → lastValue (.text f) argv = none → fileText root f = some t →
    args.text f = some t
  port : ∀ f d, lastValue (.port f) argv = none → filePortNumber root f = some d →
    args.port f = UInt16.ofInt d.valueint
  period : ∀ f d, filePeriodNumber root f = some d →
    args.period f = UInt32.ofNat (d.toUnsigned 32 w.undefinedCast)
  switch : ∀ f b, switchOccurs f argv = false → fileSwitch root f = some b → args.switch f = b
  workers : ∀ d, lastValue .workers argv = none → fileWorkersNumber root = some d →
    args.workerCount = effectiveWorkers w d.valueint
  maxCapacityBytes : ∀ d, lastValue .maxCapacityBytes argv = none →
    fileCapacityNumber root = some d →
    args.maxCapacityBytes = UInt64.ofNat (d.toUnsigned 64 w.undefinedCast)
  unixSocketMode : lastValue .unixSocketMode argv = none →
    args.unixSocketMode = (fileMode root).getD 0

theorem unflagged_of_filled {w : System} {argv : List Text} {root : Json} {path : Option Text}
    {flags filled args : OffsdArgs} (hf : Flagged argv (defaultArgs path) flags)
    (hfilled : Filled w root flags filled) (hsame : SameButDirs (finishArgs w filled) args)
    (htext : ∀ {f t}, (finishArgs w filled).text f = some t → args.text f = some t) :
    Unflagged w argv root args := by
  obtain ⟨hport, hperiod, hswitch, hworkers, hcapacity, hmode⟩ := finishArgs_rest w filled
  refine ⟨?_, ?_, ?_, ?_, ?_, ?_, ?_, ?_⟩
  · intro hlast
    refine htext (finishArgs_text ?_)
    rw [hfilled.text, hf.text, hlast]
    rfl
  · intro f t hhost hlast hfile
    have hpath : f ≠ .configPath := by
      rintro rfl
      cases hfile
    refine htext (finishArgs_text ?_)
    rw [hfilled.text, hf.text, hlast, defaultArgs_text hpath hhost, hfile]
    rfl
  · intro f d hlast hfile
    have hquic : f ≠ .quicPort := by
      rintro rfl
      cases hfile
    rw [hsame.port, hport, hfilled.port, hf.port, hlast, Option.map_none, Option.getD_none,
      defaultArgs_port path hquic, fill_unset, filePort, hfile]
    rfl
  · intro f d hfile
    rw [hsame.period, hperiod, hfilled.period, hf.period, filePeriod, hfile]
    rfl
  · intro f b hoccurs hfile
    rw [hsame.switch, hswitch, hfilled.switch, hf.switch, hoccurs, hfile]
    rfl
  · intro d hlast hfile
    rw [hsame.workerCount, hworkers, hfilled.workerCount, hf.workerCount, hlast, fileWorkers, hfile]
    rfl
  · intro d hlast hfile
    rw [hsame.maxCapacityBytes, hcapacity, hfilled.maxCapacityBytes, hf.maxCapacityBytes, hlast,
      fileCapacity, hfile]
    rfl
  · intro hlast
    have hzero : flags.unixSocketMode = 0 := by
      have := hf.unixSocketMode
      rw [hlast] at this
      exact Option.some.inj this
    rw [hsame.unixSocketMode, hmode, hfilled.unixSocketMode, hzero, fill_unset]

namespace Unflagged
variable {w : System} {argv : List Text} {root : Json} {args : OffsdArgs}

theorem effective (hu : Unflagged w argv root args) (hold : FileHolds w argv root args) :
    Effective argv root := by
  refine ⟨?_, ?_, ?_, ?_, ?_⟩
  · intro t hlast hfile
    have hhost := hold.text .host t hlast hfile
    rw [hu.host hlast] at hhost
    exact (Option.some.inj hhost).symm
  · intro f d hlast hfile
    have hport := hold.port f d hlast hfile
    rw [hu.port f d hlast hfile] at hport
    exact (Double.isNat_port_iff d).mp hport
  · intro f d hfile
    have hperiod := hold.period f d hfile
    rw [hu.period f d hfile] at hperiod
    exact (Double.isNat_uint32_iff _ d).mp hperiod
  · intro d hlast hfile
    have hworkers := hold.workers d hlast hfile
    rw [hu.workers d hlast hfile] at hworkers
    exact (effectiveWorkers_holds_iff _ d).mp hworkers
  · intro d hlast hfile
    have hcapacity := hold.maxCapacityBytes d hlast hfile
    rw [hu.maxCapacityBytes d hlast hfile] at hcapacity
    exact (Double.isNat_uint64_iff _ d).mp hcapacity

/-- The parser has refused a socket mode that is neither empty nor octal. -/
theorem fileHolds (hu : Unflagged w argv root args)
    (hmode : ∀ t, fileModeText root = some t → t ≠ [] → (socketMode t).isSome)
    (heff : Effective argv root) : FileHolds w argv root args := by
  refine ⟨?_, ?_, ?_, hu.switch, ?_, ?_, ?_⟩
  · intro f t hlast hfile
    by_cases hhost : f = .host
    · subst hhost
      rw [hu.host hlast, heff.host t hlast hfile]
    · exact hu.text f t hhost hlast hfile
  · intro f d hlast hfile
    rw [hu.port f d hlast hfile]
    exact (Double.isNat_port_iff d).mpr (heff.port f d hlast hfile)
  · intro f d hfile
    rw [hu.period f d hfile]
    exact (Double.isNat_uint32_iff _ d).mpr (heff.period f d hfile)
  · intro d hlast hfile
    rw [hu.workers d hlast hfile]
    exact (effectiveWorkers_holds_iff _ d).mpr (heff.workers d hlast hfile)
  · intro d hlast hfile
    rw [hu.maxCapacityBytes d hlast hfile]
    exact (Double.isNat_uint64_iff _ d).mpr (heff.maxCapacityBytes d hlast hfile)
  · intro t hlast hfile
    rw [hu.unixSocketMode hlast, fileMode, hfile, Option.bind_some]
    split
    · rfl
    · rename_i hne
      obtain ⟨mode, hparsed⟩ := Option.isSome_iff_exists.mp (hmode t hfile hne)
      rw [hparsed]
      rfl

end Unflagged

/-- **A config-file value takes effect exactly if it is no bind address and fits its
member.**  For every machine, every argument vector and every config file: when the
daemon gets to its first `_startup`, the arguments hold what the file says for every
key whose flag is absent if and only if the file is `Effective`. -/
theorem file_takes_effect_iff {Doc : Type} {api : PendingApi Doc} {h : Host} {files : Files Doc}
    {argv : List Text} {s : Started Doc} (hrun : runOffsd api h files argv = .ok s) :
    FileHolds (h.system files) argv
        (configRoot (h.system files) ((lastValue (.text .configPath) argv).or (h.configPath files)))
        s.args ↔
      Effective argv (configRoot (h.system files)
        ((lastValue (.text .configPath) argv).or (h.configPath files))) := by
  obtain ⟨-, parsed, hparsed, hs⟩ := runOffsd_ok hrun
  obtain ⟨flags, filled, hflags, hfilled, rfl⟩ := parseArgs_ok hparsed
  have hf := parseFlags_ok hflags
  rw [hf.text .configPath] at hfilled
  change Filled _ (configRoot (h.system files)
    ((lastValue (.text .configPath) argv).or (h.configPath files))) _ _ at hfilled
  generalize configRoot (h.system files)
    ((lastValue (.text .configPath) argv).or (h.configPath files)) = root at hfilled ⊢
  have hu := unflagged_of_filled hf hfilled hs.same hs.text
  exact ⟨hu.effective, hu.fileHolds hfilled.checkedMode⟩

/-- The theorem for a file that sets `network.port` to 8080. -/
theorem file_takes_effect_iff_port :
    ∃ s, runOffsd plainApi plainHost
        (plainFiles (.object [(lit "network", .object [(lit "port", .number (.finite 8080))])]) none)
        [] = .ok s ∧ (Double.finite 8080).IsNat (s.args.port .port).toNat := by
  obtain ⟨s, hs⟩ : ∃ s, runOffsd plainApi plainHost
      (plainFiles (.object [(lit "network", .object [(lit "port", .number (.finite 8080))])]) none)
      [] = .ok s := ⟨_, rfl⟩
  refine ⟨s, hs, ((file_takes_effect_iff hs).mpr ⟨?_, ?_, ?_, ?_, ?_⟩).port .port _ rfl rfl⟩
  · intro t _ hfile
    exact nomatch (show none = some t from hfile)
  · intro f d _ hfile
    cases f with
    | port =>
      cases (show some (Double.finite 8080) = some d from hfile)
      exact ⟨8080, by decide, rfl⟩
    | _ => exact nomatch (show none = some d from hfile)
  · intro f d hfile
    cases f <;> exact nomatch (show none = some d from hfile)
  · intro d _ hfile
    exact nomatch (show none = some d from hfile)
  · intro d _ hfile
    exact nomatch (show none = some d from hfile)

/-- **`network.host` has no effect**: the daemon binds `0.0.0.0` all the same. -/
theorem host_key_ignored :
    ∃ s, runOffsd plainApi plainHost
        (plainFiles (.object [(lit "network", .object [(lit "host", .string (lit "127.0.0.1"))])]) none)
        [] = .ok s ∧ s.args.text .host = some (lit "0.0.0.0") ∧
      ¬ FileHolds (plainHost.system
          (plainFiles (.object [(lit "network", .object [(lit "host", .string (lit "127.0.0.1"))])])
            none)) []
        (.object [(lit "network", .object [(lit "host", .string (lit "127.0.0.1"))])]) s.args := by
  obtain ⟨s, hs, hhost⟩ : ∃ s, runOffsd plainApi plainHost
      (plainFiles (.object [(lit "network", .object [(lit "host", .string (lit "127.0.0.1"))])]) none)
      [] = .ok s ∧ s.args.text .host = some (lit "0.0.0.0") := ⟨_, rfl, rfl⟩
  refine ⟨s, hs, hhost, fun hold => ?_⟩
  have := hold.text .host (lit "127.0.0.1") rfl rfl
  rw [hhost] at this
  exact absurd this (by decide)

end Offs.Daemon
