import OffsProof.FlagPrecedence
import OffsProof.StartupSettings

/-! # The bounds of the inhale-seek throttle

The config file may set `respiration-tau-min-ms`, `respiration-tau-max-ms`, or both, and
`_parse_config_file` refuses a minimum above the maximum.  It can compare only what the file
sets.  `_startup` replaces the bounds of its configuration one by one, so a file with one bound
meets the other bound of the defaults or of the pending document unchecked.

What the parser has checked is an invariant of the arguments: the bounds that are set are in
order (`parseArgs_boundsInOrder`).  There is no flag for a bound, so the arguments have what the
file has (`parseArgs_period`), and a bound of 0 counts as not set.  What remains is arithmetic of
two bounds, each replaced if there is another for it (`replaced_le_iff`): with both of them set
the check of the file is enough, with none the base decides, and with one it has to be in order
with the other one of the base (`LoneBoundFits`).  The condition is about the file and the base
alone, and it is exact both for the merged configuration and for the server that `_startup`
leaves (`throttle_ordered_iff`).
-/
namespace Offs.Startup
open CText CJson Daemon

variable {w : System} {root : Json} {args after : OffsdArgs}

/-! ## The check of the file -/

theorem parseConfigRoot_boundsInOrder (h : parseConfigRoot w root args = .ok after)
    (hargs : BoundsInOrder args) : BoundsInOrder after := by
  rw [parseConfigRoot] at h
  dsimp only at h
  split at h
  · cases h
  · rename_i filled hnetwork
    obtain ⟨-, -, horder⟩ := parseNetworkSection_ok hnetwork
    have hfilled : BoundsInOrder filled := horder hargs
    cases h
    exact hfilled

theorem boundsInOrder_finishArgs {filled : OffsdArgs} (h : finishArgs w filled = args)
    (hfilled : BoundsInOrder filled) : BoundsInOrder args := by
  rw [← h, BoundsInOrder, (finishArgs_rest w filled).2.1]
  exact hfilled

/-- **Arguments that are accepted have their bounds in order**, as far as they are set. -/
theorem parseArgs_boundsInOrder {argv : List Text} {path : Option Text}
    (h : parseArgs w argv (defaultArgs path) = .ok args) : BoundsInOrder args := by
  have hzero : ∀ flags, parseFlags argv (defaultArgs path) = .ok flags → BoundsInOrder flags := by
    intro flags hflags hmin
    rw [(parseFlags_ok hflags).period] at hmin
    exact absurd hmin (show ¬(0 : UInt32) < 0 by decide)
  rcases parseArgs_cases w argv (defaultArgs path) with ⟨e, -, hargs⟩ | ⟨flags, hflags,
    ⟨-, hargs⟩ | ⟨path, -, ⟨e, -, hargs⟩ | ⟨filled, hfile, hargs⟩⟩⟩ <;> rw [hargs] at h
  · cases h
  · exact boundsInOrder_finishArgs (Except.ok.inj h) (hzero flags hflags)
  · cases h
  · obtain ⟨root, -, hroot⟩ := parseConfigFile_ok hfile
    have hfilled : BoundsInOrder filled :=
      parseConfigRoot_boundsInOrder hroot (hzero flags hflags)
    exact boundsInOrder_finishArgs (Except.ok.inj h) hfilled

/-! ## The configuration of a start -/

/-- The bounds of a configuration are in order. -/
def Ordered {σ : Type} (c : Config σ) : Prop :=
  c.period .respirationTauMinMs ≤ c.period .respirationTauMaxMs

instance {σ : Type} (c : Config σ) : Decidable (Ordered c) := inferInstanceAs (Decidable (_ ≤ _))

/-- Two bounds, each replaced if there is another for it. -/
theorem replaced_le_iff {lo hi baseLo baseHi : UInt32} (hset : 0 < lo → 0 < hi → lo ≤ hi)
    (hbase : baseLo ≤ baseHi) :
    ((if lo > 0 then lo else baseLo) ≤ if hi > 0 then hi else baseHi) ↔
      (lo ≠ 0 → hi = 0 → lo ≤ baseHi) ∧ (hi ≠ 0 → lo = 0 → baseLo ≤ hi) := by
  by_cases hlo : lo = 0 <;> by_cases hhi : hi = 0
  · simp [hlo, hhi, hbase]
  · simp [hlo, hhi, UInt32.pos_iff_ne_zero]
  · simp [hlo, hhi, UInt32.pos_iff_ne_zero]
  · have hle := hset (UInt32.pos_iff_ne_zero.mpr hlo) (UInt32.pos_iff_ne_zero.mpr hhi)
    simp [hlo, hhi, UInt32.pos_iff_ne_zero, hle]

/-- What the file has for a bound, 0 for nothing. -/
def fileBound (w : System) (root : Json) (f : PeriodField) : UInt32 := (filePeriod root w f).getD 0

/-- The document that a command line leads to. -/
def documentOf (w : System) (argv : List Text) (path : Option Text) : Json :=
  configRoot w ((lastValue (.text .configPath) argv).or path)

/-- There is no flag for a bound, so the arguments have what the file has. -/
theorem parseArgs_period {argv : List Text} {path : Option Text}
    (h : parseArgs w argv (defaultArgs path) = .ok args) (f : PeriodField) :
    args.period f = fileBound w (documentOf w argv path) f := by
  obtain ⟨flags, filled, hflags, hfilled, rfl⟩ := parseArgs_ok h
  have hflagged := parseFlags_ok hflags
  have hpath : flags.text .configPath = (lastValue (.text .configPath) argv).or path :=
    hflagged.text .configPath
  have hunset : flags.period f = 0 := congrFun hflagged.period f
  rw [(finishArgs_rest w filled).2.1, hfilled.period, hunset, fill_unset, hpath]
  rfl

/-- **A lone bound fits the base**: it is in order with the other bound there.  With two bounds in
the file, or with none, nothing is asked. -/
structure LoneBoundFits (w : System) (root : Json) (base : Config Pointer) : Prop where
  min : fileBound w root .respirationTauMinMs ≠ 0 → fileBound w root .respirationTauMaxMs = 0 →
    fileBound w root .respirationTauMinMs ≤ base.period .respirationTauMaxMs
  max : fileBound w root .respirationTauMaxMs ≠ 0 → fileBound w root .respirationTauMinMs = 0 →
    base.period .respirationTauMinMs ≤ fileBound w root .respirationTauMaxMs

theorem applyArgs_ordered_iff {argv : List Text} {path : Option Text} {base : Config Pointer}
    (h : parseArgs w argv (defaultArgs path) = .ok args) (hbase : Ordered base) :
    Ordered (applyArgs args base) ↔ LoneBoundFits w (documentOf w argv path) base := by
  have hset := parseArgs_boundsInOrder h
  rw [BoundsInOrder, parseArgs_period h, parseArgs_period h] at hset
  have hiff := replaced_le_iff hset hbase
  simp only [Ordered, applyArgs, parseArgs_period h]
  rw [hiff]
  exact ⟨fun h => ⟨h.1, h.2⟩, fun h => ⟨h.min, h.max⟩⟩

theorem takeConfig_config (env : Env) (override : Option (Config Text)) (s : Server) :
    (takeConfig env override s).config = applyArgs s.args (takenConfig env override) := by
  unfold takeConfig Server.createUnchecked Server.create
  split <;> rfl

/-- **The bounds of a start are in order just if a lone bound of the file fits the base**, both
when the arguments have been merged and in the server that `_startup` leaves.  Two bounds in the
file have been compared when it was read, and without one the base decides; a lone bound has been
compared with nothing, and meets the other bound of the base only in the merge
(`applyArgs_ordered_iff`), after which neither is looked at again. -/
theorem throttle_ordered_iff (w : System) (argv : List Text) (path : Option Text)
    (args : OffsdArgs) (env : Env) (override : Option (Config Text))
    (hargs : parseArgs w argv (defaultArgs path) = .ok args)
    (hbase : Ordered (takenConfig env override)) :
    (Ordered (takeConfig env override (withPool args)).config ↔
      LoneBoundFits w (documentOf w argv path) (takenConfig env override)) ∧
    ∀ s, startup env args override = .ok s →
      (Ordered s.config ↔
        LoneBoundFits w (documentOf w argv path) (takenConfig env override)) := by
  have hmerged := applyArgs_ordered_iff hargs hbase
  constructor
  · rw [takeConfig_config, ← hmerged]
    exact Iff.rfl
  · intro s hs
    rw [(startup_shows hs).config_eq, ← hmerged]
    exact Iff.rfl

/-- A machine whose config file sets the lower bound alone. -/
def lowerBoundSystem (ms : ℚ) : System where
  document _ := .json (.object [(lit "network",
    .object [(lit "respiration-tau-min-ms", .number (.finite ms))])])
  nprocs := 4
  undefinedCast _ := 0

/-- Bounds of 10 s and 1 h by default. -/
def hourEnv : Env :=
  { failingAt .softAuth with
    ok := fun _ => true
    configDefault :=
      { Config.zero with
        period
          | .eabfBaseTtlMs => 64000
          | .respirationTauMinMs => 10000
          | .respirationTauMaxMs => 3600000 } }

/-- 20 s fit the default. -/
theorem throttle_ordered_iff_lower :
    ∃ args, parseArgs (lowerBoundSystem 20000) [] (defaultArgs (some (lit "/etc/offs.json"))) =
        .ok args ∧ args.period .respirationTauMinMs = 20000 ∧
      Ordered (takeConfig hourEnv none (withPool args)).config := by
  obtain ⟨args, hargs, hmin⟩ : ∃ args, parseArgs (lowerBoundSystem 20000) []
      (defaultArgs (some (lit "/etc/offs.json"))) = .ok args ∧
      args.period .respirationTauMinMs = 20000 := ⟨_, rfl, by decide +kernel⟩
  refine ⟨args, hargs, hmin, ?_⟩
  refine (throttle_ordered_iff _ _ _ args hourEnv none hargs (by decide)).1.mpr ⟨?_, ?_⟩
  · intro _ _
    decide +kernel
  · intro h
    exact absurd rfl h

/-- **A lower bound above the default upper bound is accepted**: 5000 s, above 1 h. -/
theorem lone_lower_bound_unordered :
    ∃ args s, parseArgs (lowerBoundSystem 5000000) [] (defaultArgs (some (lit "/etc/offs.json"))) =
        .ok args ∧ Ordered (takenConfig hourEnv none) ∧ startup hourEnv args none = .ok s ∧
      s.config.period .respirationTauMinMs = 5000000 ∧
      s.config.period .respirationTauMaxMs = 3600000 ∧ ¬Ordered s.config := by
  obtain ⟨args, s, hargs, hstart, hmin, hmax⟩ : ∃ args s, parseArgs (lowerBoundSystem 5000000) []
      (defaultArgs (some (lit "/etc/offs.json"))) = .ok args ∧ startup hourEnv args none = .ok s ∧
      s.config.period .respirationTauMinMs = 5000000 ∧
      s.config.period .respirationTauMaxMs = 3600000 :=
    ⟨_, _, rfl, rfl, by decide +kernel, by decide +kernel⟩
  refine ⟨args, s, hargs, by decide, hstart, hmin, hmax, ?_⟩
  rw [Ordered, hmin, hmax]
  decide

end Offs.Startup
