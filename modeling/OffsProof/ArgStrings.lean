import OffsProof.NodeIdentity
import OffsProof.DaemonStart
import OffsProof.OwnedSlots

/-! # The strings of the daemon's arguments

The model of `offsd_args_t` so far has texts where the code has pointers, and takes `strdup` to
succeed.  Here the members are slots with blocks of the heap: `_arg_string_set` copies before it
frees, the config file and the platform's directories are copied into members that are NULL, a
staged cache directory replaces another, a start adopts two paths, and `_free_args` frees
sixteen members at the end.  `config_path`, `log_file` and `log_level_str` borrow and are not
freed.

A block that is freed twice, or used after it has been freed, is a fault (`Stop.fault`).  The
start has none and leaves the texts of the model without pointers (`start_follows`).

The proof goes function by function.  `Follows` relates a function on the strings to the one on
the texts: it has no fault, and it ends as the other one does, with the same members, unless an
allocation has failed.  It holds of each assignment since `_arg_string_set` replaces one block by
another and frees the old one once (`argStringSet_cases`), and it is kept by one step after
another and by a branch (`Follows.lift`, `Follows.bind`, `Follows.ite`), which is how the
functions are put together.

The cycles have no fault either, if `authority_destroy` of liboffs leaves `metrics_server_url`
alone, which `_run_offsd` has lent to the authority and frees itself; they are the next module.
-/
namespace Offs.Daemon
open CText CJson OwnedSlots

/-! ## `offsd_args_t` in memory -/

/-- Why a function on the strings does not come to its end. -/
inductive Stop
  /-- A block that is not there is freed or used. -/
  | fault
  | noMemory
  | failure (why : StartFailure)
  deriving DecidableEq, Repr

/-- The members that point into `argv` or into a buffer of `_run_offsd`. -/
def TextField.borrowed : TextField → Bool
  | .configPath => true
  | .logFile => true
  | .logLevelStr => true
  | _ => false

structure HeapArgs where
  strings : Store TextField Text
  /-- The members that are no strings, and the three that borrow. -/
  rest : OffsdArgs

/-- The members of `_free_args`, in its order. -/
def freedMembers : List TextField :=
  [.configDir, .pidFile, .host, .unixPath, .cacheDir, .metricsServerUrl, .caCertPath,
    .nodeCertPath, .nodeKeyPath, .relayUrl, .apiKey, .bootstrapPeers, .wsCertPath, .wsKeyPath,
    .wtCertPath, .wtKeyPath]

/-- `_arg_string_set`: whether it returns 0, and the members; `none` for a fault. -/
def argStringSet (grants : Nat → Bool) (m : Store TextField Text) (f : TextField) (value : Text) :
    Option (Bool × Store TextField Text) :=
  match m.heap.alloc grants value with
  | (none, heap) => (heap.free (m.slot f)).map fun heap => (false, m.put f none heap)
  | (some copy, heap) => (heap.free (m.slot f)).map fun heap => (true, m.put f (some copy) heap)

namespace HeapArgs

/-- The texts of the members. -/
def texts (a : HeapArgs) (f : TextField) : Option Text :=
  if f.borrowed then a.rest.text f else a.strings.contents f

/-- The members, with texts for pointers. -/
def args (a : HeapArgs) : OffsdArgs := { a.rest with text := a.texts }

/-- A step on the members that are no strings. -/
def onRest (a : HeapArgs) (step : OffsdArgs → OffsdArgs) : HeapArgs :=
  { a with rest := step a.rest }

/-- `_free_args`, before a return. -/
def freeAnd (a : HeapArgs) (stop : Stop) : Stop :=
  match Store.freeSlots a.strings.slot freedMembers a.strings.heap with
  | none => .fault
  | some _ => stop

/-- Some of the strings are used. -/
def reads (a : HeapArgs) (fields : List TextField) : Except Stop Unit :=
  if fields.all fun f => a.strings.heap.usable (a.strings.slot f) then .ok () else .error .fault

/-! ## `_parse_args` and `_parse_config_file` -/

section Parse
variable (grants : Nat → Bool)

def setText (a : HeapArgs) (f : TextField) (t : Text) : Except Stop HeapArgs :=
  if f.borrowed then .ok (a.onRest (·.setText f (some t)))
  else
    match argStringSet grants a.strings f t with
    | none => .error .fault
    | some (false, _) => .error .noMemory
    | some (true, strings) => .ok { a with strings := strings }

/-- The effect of a flag with its value. -/
def applyFlag (a : HeapArgs) (flag : ValueFlag) (t : Text) : Except Stop HeapArgs :=
  match flag with
  | .text f => a.setText grants f t
  | flag =>
    match flag.apply a.rest t with
    | .ok rest => .ok { a with rest := rest }
    | .error r => .error (.failure (.refused r))

/-- The loop of `_parse_args`. -/
def parseFlags : List Text → HeapArgs → Except Stop HeapArgs
  | [], a => .ok a
  | [t], a =>
    match SwitchField.ofToken t with
    | some f => .ok (a.onRest (·.setSwitch f true))
    | none =>
      .error (.failure (.refused (if t = lit "--help" then .help else .unknownOption t)))
  | t :: value :: rest, a =>
    match ValueFlag.ofToken t with
    | some f =>
      match a.applyFlag grants f value with
      | .ok a => parseFlags rest a
      | .error e => .error e
    | none =>
      match SwitchField.ofToken t with
      | some f => parseFlags (value :: rest) (a.onRest (·.setSwitch f true))
      | none =>
        .error (.failure (.refused (if t = lit "--help" then .help else .unknownOption t)))

/-- A string of the config file is copied into a member that is still NULL. -/
def fillText (a : HeapArgs) (root : Json) (f : TextField) : Except Stop HeapArgs :=
  match fileText root f, a.strings.slot f with
  | some t, none =>
    match a.strings.heap.alloc grants t with
    | (none, _) => .error .noMemory
    | (some copy, heap) => .ok { a with strings := a.strings.put f (some copy) heap }
  | _, _ => .ok a

def configError (e : ConfigError) : Except Stop HeapArgs := .error (.failure (.refused (.config e)))

/-- The `[network]` section. -/
def parseNetworkSection (w : System) (root : Json) (a : HeapArgs) : Except Stop HeapArgs :=
  match root.getObjectItem (lit "network") with
  | none => .ok a
  | some network => do
    let a ← a.fillText grants root .host
    let a := a.onRest (·.fillPort root .port)
    let a ← a.fillText grants root .relayUrl
    let a := a.onRest (·.fillCapacity w root)
    let unsetTtl := a.rest.period .eabfBaseTtlMs = 0 ∧ (filePeriodNumber root .eabfBaseTtlMs).isSome
    let a := a.onRest (·.fillPeriod w root .eabfBaseTtlMs)
    if unsetTtl ∧ a.rest.period .eabfBaseTtlMs < 64000 then
      configError (.eabfBaseTtl (a.rest.period .eabfBaseTtlMs))
    else
      let a := a.onRest (·.fillPeriod w root .respirationTauMinMs)
      let a := a.onRest (·.fillPeriod w root .respirationTauMaxMs)
      let tauMin := a.rest.period .respirationTauMinMs
      let tauMax := a.rest.period .respirationTauMaxMs
      if tauMin > 0 ∧ tauMax > 0 ∧ tauMin > tauMax then configError (.respirationTau tauMin tauMax)
      else
        match network.getObjectItem (lit "unix-socket-mode") with
        | none | some (.string []) => a.fillText grants root .bootstrapPeers
        | some (.string (c :: t)) =>
          match socketMode (c :: t) with
          | none => configError (.unixSocketMode (c :: t))
          | some _ =>
            (a.onRest (·.fillMode root)).fillText grants root .bootstrapPeers
        | some _ => configError .unixSocketModeType

/-- `_parse_config_file`, once the file has been parsed. -/
def parseConfigRoot (w : System) (root : Json) (a : HeapArgs) : Except Stop HeapArgs := do
  let a ← a.fillText grants root .configDir
  let a ← a.fillText grants root .pidFile
  let a ← parseNetworkSection grants w root a
  let a ← a.fillText grants root .apiKey
  let a ← a.fillText grants root .unixPath
  let a ← a.fillText grants root .cacheDir
  let a := a.onRest (·.fillWorkers root)
  let a ← a.fillText grants root .metricsServerUrl
  let a ← a.fillText grants root .caCertPath
  let a ← a.fillText grants root .nodeCertPath
  let a ← a.fillText grants root .nodeKeyPath
  let a := a.onRest (·.fillPort root .wsPort)
  let a ← a.fillText grants root .wsCertPath
  let a ← a.fillText grants root .wsKeyPath
  let a := a.onRest (·.fillPort root .wtPort)
  let a ← a.fillText grants root .wtCertPath
  let a ← a.fillText grants root .wtKeyPath
  return a.onRest (·.fillSwitch root .allowSecure)

/-- `_parse_config_file`. -/
def parseConfigFile (w : System) (path : Text) (a : HeapArgs) : Except Stop HeapArgs :=
  match w.document path with
  | .unopened => configError (.unopened path)
  | .malformed errorPtr => configError (.malformed errorPtr)
  | .json root => parseConfigRoot grants w root a

/-- The end of `_parse_args`. -/
def finishArgs (w : System) (a : HeapArgs) : Except Stop HeapArgs :=
  let a := a.onRest fun rest =>
    { rest with workerCount := effectiveWorkers w rest.workerCount }
  if a.strings.slot .unixPath = none then a.setText grants .unixPath localSocketPath else .ok a

/-- `_parse_args`. -/
def parseArgs (w : System) (argv : List Text) (a : HeapArgs) : Except Stop HeapArgs := do
  let a ← parseFlags grants argv a
  let a ←
    match a.rest.text .configPath with
    | none => .ok a
    | some path => parseConfigFile grants w path a
  finishArgs grants w a

/-! ## `_run_offsd` up to the first start -/

/-- The members before `_parse_args`: all NULL, but the host. -/
def defaultArgs (configPath : Option Text) : Except Stop HeapArgs :=
  let blank : HeapArgs := ⟨.empty, Daemon.defaultArgs configPath⟩
  match argStringSet grants blank.strings .host (lit "0.0.0.0") with
  | none => .error .fault
  | some (false, strings) => .error ({ blank with strings := strings }.freeAnd .noMemory)
  | some (true, strings) => .ok { blank with strings := strings }

/-- A directory of the platform is copied into a member that is still NULL. -/
def fillDir (a : HeapArgs) (f : TextField) (dir : Text) : Except Stop HeapArgs :=
  if a.strings.slot f = none then
    match a.strings.heap.alloc grants dir with
    | (none, heap) => .error ({ a with strings := ⟨heap, a.strings.slot⟩ }.freeAnd .noMemory)
    | (some copy, heap) => .ok { a with strings := a.strings.put f (some copy) heap }
  else .ok a

def fillDefaultDirs (h : Host) (a : HeapArgs) : Except Stop HeapArgs :=
  if a.strings.slot .cacheDir = none ∨ a.strings.slot .configDir = none then
    match h.defaultDirs with
    | none => .error (a.freeAnd (.failure .noDefaultDirs))
    | some defaults => do
      let a ← a.fillDir grants .configDir defaults.configDir
      a.fillDir grants .cacheDir defaults.cacheDir
  else .ok a

/-- A staged directory takes the place of the platform's. -/
def takePendingDir (a : HeapArgs) (dir : Text) : Except Stop HeapArgs :=
  match a.strings.heap.free (a.strings.slot .cacheDir) with
  | none => .error .fault
  | some heap =>
    match heap.alloc grants dir with
    | (none, _) => .error .noMemory
    | (some copy, heap) => .ok { a with strings := a.strings.put .cacheDir (some copy) heap }

/-- `_run_offsd` up to the first `_startup`. -/
def start {Doc : Type} (api : PendingApi Doc) (h : Host) (files : Files Doc) (argv : List Text) :
    Except Stop (HeapArgs × Option Doc × Text) := do
  let a ← defaultArgs grants (h.configPath files)
  if argv.head? = some (lit "uninstall") then .error (.failure .uninstall)
  else
    let parsed ← parseArgs grants (h.system files) argv a
    let a ← fillDefaultDirs grants h parsed
    let cwd := if a.rest.switch .foreground then h.cwd else lit "/"
    a.reads [.configDir]
    let cfg := loadPendingOverride h files cwd a.args
    match parsed.strings.slot .cacheDir, cfg.bind api.cacheDir with
    | none, some dir => do
      let a ← a.takePendingDir grants dir
      return (a, cfg, cwd)
    | _, _ => return (a, cfg, cwd)

end Parse

/-! ## The start follows the model with texts -/

/-- The strings are owned by the members that do not borrow: each block of the heap belongs to one
of them, and each of them that is not NULL has its block.  This is the invariant of the whole
process up to the last `_free_args`. -/
structure Sound (a : HeapArgs) : Prop where
  owned : Owned a.strings
  borrowed : ∀ f, f.borrowed = true → a.strings.slot f = none

section Follows
variable {grants : Nat → Bool} {ε : Type} {fail : ε → StartFailure}

/-- A function on the strings does what one on the texts does, unless there is no memory; it
has no fault.  `p` is the outcome of the model with texts and `fail` says which failure of the
start one of its errors is.  An end for want of memory is allowed only where some allocation
does fail, so that a machine with enough memory has the outcome of the model with texts. -/
def Follows (grants : Nat → Bool) (fail : ε → StartFailure) (p : Except ε OffsdArgs) :
    Except Stop HeapArgs → Prop
  | .ok a => a.Sound ∧ p = .ok a.args
  | .error .fault => False
  | .error .noMemory => ∃ n, grants n = false
  | .error (.failure why) => ∃ e, p = .error e ∧ why = fail e

theorem follows_ok {a : HeapArgs} (h : a.Sound) :
    Follows grants fail (.ok a.args) (.ok a) := ⟨h, rfl⟩

/-- One step after another; the failures of the first are failures of both. -/
theorem Follows.lift {ε' : Type} {fail' : ε' → StartFailure} {p : Except ε OffsdArgs}
    {r : Except Stop HeapArgs} {q : Except ε' OffsdArgs} {k : HeapArgs → Except Stop HeapArgs}
    (h : Follows grants fail p r)
    (hok : ∀ a : HeapArgs, a.Sound → p = .ok a.args → Follows grants fail' q (k a))
    (herror : ∀ e, p = .error e → ∃ e', q = .error e' ∧ fail e = fail' e') :
    Follows grants fail' q (r >>= k) := by
  cases r with
  | ok a => exact hok a h.1 h.2
  | error stop =>
    cases stop with
    | fault => exact h
    | noMemory => exact h
    | failure why =>
      obtain ⟨e, hp, rfl⟩ := h
      exact herror e hp

/-- One step after another, where the first one of the model always succeeds. -/
theorem Follows.bind {r : Except Stop HeapArgs} {args : OffsdArgs} {p : Except ε OffsdArgs}
    {k : HeapArgs → Except Stop HeapArgs} (h : Follows grants fail (.ok args) r)
    (hk : ∀ a : HeapArgs, a.Sound → a.args = args → Follows grants fail p (k a)) :
    Follows grants fail p (r >>= k) := by
  refine h.lift (fun a ha hargs => hk a ha (Except.ok.inj hargs).symm) fun e he => ?_
  cases he

/-- The same branch on both sides. -/
theorem Follows.ite {c c' : Prop} [Decidable c] [Decidable c'] {p p' : Except ε OffsdArgs}
    {r r' : Except Stop HeapArgs} (hc : c ↔ c') (hpos : Follows grants fail p r)
    (hneg : Follows grants fail p' r') :
    Follows grants fail (if c then p else p') (if c' then r else r') := by
  by_cases h : c
  · rw [if_pos h, if_pos (hc.mp h)]
    exact hpos
  · rw [if_neg h, if_neg fun h' => h (hc.mpr h')]
    exact hneg

theorem Sound.onRest {a : HeapArgs} (h : a.Sound) (step : OffsdArgs → OffsdArgs) :
    (a.onRest step).Sound := ⟨h.owned, h.borrowed⟩

section Rest
variable (a : HeapArgs) (w : System) (root : Json)

theorem args_period : a.args.period = a.rest.period := by rfl

theorem args_fillPort (f : PortField) :
    a.args.fillPort root f = (a.onRest (·.fillPort root f)).args := by rfl

theorem args_fillPeriod (f : PeriodField) :
    a.args.fillPeriod w root f = (a.onRest (·.fillPeriod w root f)).args := by rfl

theorem args_fillCapacity :
    a.args.fillCapacity w root = (a.onRest (·.fillCapacity w root)).args := by rfl

theorem args_fillMode : a.args.fillMode root = (a.onRest (·.fillMode root)).args := by rfl

theorem args_fillWorkers : a.args.fillWorkers root = (a.onRest (·.fillWorkers root)).args := by rfl

theorem args_fillSwitch (f : SwitchField) :
    a.args.fillSwitch root f = (a.onRest (·.fillSwitch root f)).args := by rfl

end Rest

/-- An owned member has its text. -/
theorem args_text_owned (a : HeapArgs) {f : TextField} (h : f.borrowed = false) :
    a.args.text f = a.strings.contents f := by
  simp [args, texts, h]

/-- A pointer is NULL where the text is missing. -/
theorem slot_eq_none_iff {a : HeapArgs} (h : a.Sound) {f : TextField} (hf : f.borrowed = false) :
    a.strings.slot f = none ↔ a.args.text f = none := by
  rw [← Option.isNone_iff_eq_none, ← Option.isNone_iff_eq_none, ← Option.not_isSome,
    ← Option.not_isSome, args_text_owned a hf, h.owned.isSome_contents]

theorem text_ne_none {a : HeapArgs} (h : a.Sound) {f : TextField} (hf : f.borrowed = false)
    {p : Nat} (hslot : a.strings.slot f = some p) : a.args.text f ≠ none := by
  intro hnone
  rw [(slot_eq_none_iff h hf).mpr hnone] at hslot
  cases hslot

theorem args_put {a : HeapArgs} {f : TextField} {p : Option Nat} {heap : Heap Text}
    {t : Option Text} (hf : f.borrowed = false)
    (h : (a.strings.put f p heap).contents = Function.update a.strings.contents f t) :
    ({ a with strings := a.strings.put f p heap } : HeapArgs).args = a.args.setText f t := by
  have htexts : ({ a with strings := a.strings.put f p heap } : HeapArgs).texts =
      Function.update a.texts f t := by
    funext g
    by_cases hgf : g = f
    · subst hgf
      simp [texts, hf, h]
    · simp [texts, h, Function.update_of_ne hgf]
  rw [args, htexts]
  rfl

theorem Sound.put {a : HeapArgs} (h : a.Sound) {f : TextField} (hf : f.borrowed = false)
    {p : Option Nat} {heap : Heap Text} (howned : Owned (a.strings.put f p heap)) :
    ({ a with strings := a.strings.put f p heap } : HeapArgs).Sound := by
  refine ⟨howned, fun g hg => ?_⟩
  have hgf : g ≠ f := by
    rintro rfl
    rw [hf] at hg
    cases hg
  simpa [Store.put, Function.update_of_ne hgf] using h.borrowed g hg

variable (grants) in
/-- `_arg_string_set` has no fault, and replaces the text. -/
theorem argStringSet_cases {m : Store TextField Text} (h : Owned m) (f : TextField) (t : Text) :
    (∃ n, grants n = false ∧ ∃ heap, argStringSet grants m f t = some (false, m.put f none heap) ∧
      Owned (m.put f none heap)) ∨
    ∃ p heap, argStringSet grants m f t = some (true, m.put f p heap) ∧ Owned (m.put f p heap) ∧
      (m.put f p heap).contents = Function.update m.contents f (some t) := by
  obtain ⟨heap, hfree, hcalls, howned, hcontents⟩ := h.free f
  have hempty : (m.put f none heap).slot f = none := by simp [Store.put]
  unfold argStringSet Heap.alloc
  cases hgrant : grants m.heap.calls with
  | false =>
    refine Or.inl ⟨_, hgrant, heap.refuse, ?_, howned.refuse⟩
    simp only [Bool.false_eq_true, ↓reduceIte, h.free_refuse f hfree, Option.map_some]
  | true =>
    obtain ⟨howned', hcontents'⟩ := howned.grant hempty t
    have hput : (m.put f none heap).put f (some heap.calls) (heap.grant t) =
        m.put f (some m.heap.calls) (heap.grant t) := by
      simp [Store.put, hcalls]
    have hheap : (m.put f none heap).heap = heap := rfl
    rw [hheap, hput] at howned' hcontents'
    refine Or.inr ⟨some m.heap.calls, heap.grant t, ?_, howned', ?_⟩
    · simp only [↓reduceIte, h.free_grant f t hfree, Option.map_some]
    · rw [hcontents', hcontents, Function.update_idem]

theorem setText_follows {a : HeapArgs} (h : a.Sound) (f : TextField) (t : Text) :
    Follows grants fail (.ok (a.args.setText f (some t))) (a.setText grants f t) := by
  unfold setText
  cases hf : f.borrowed with
  | true =>
    have htexts : (a.onRest (·.setText f (some t))).texts = Function.update a.texts f (some t) := by
      funext g
      by_cases hgf : g = f
      · subst hgf
        simp [texts, onRest, OffsdArgs.setText, hf]
      · simp [texts, onRest, OffsdArgs.setText, Function.update_of_ne hgf]
    refine ⟨h.onRest _, congrArg Except.ok ?_⟩
    rw [args.eq_def (a.onRest _), htexts]
    rfl
  | false =>
    rcases argStringSet_cases grants h.owned f t with
      ⟨n, hn, heap, hset, -⟩ | ⟨p, heap, hset, howned, hcontents⟩
    · simp only [Bool.false_eq_true, ↓reduceIte, hset]
      exact ⟨n, hn⟩
    · simp only [Bool.false_eq_true, ↓reduceIte, hset]
      exact ⟨h.put hf howned, congrArg Except.ok (args_put hf hcontents).symm⟩

variable (grants) in
theorem applyFlag_follows {a : HeapArgs} (h : a.Sound) (flag : ValueFlag) (t : Text) :
    Follows grants StartFailure.refused (flag.apply a.args t) (a.applyFlag grants flag t) := by
  cases flag with
  | text f => exact setText_follows h f t
  | port f => exact ⟨h.onRest (·.setPort f (portOf t)), rfl⟩
  | workers => exact ⟨h.onRest ({ · with workerCount := workersOf t }), rfl⟩
  | maxCapacityBytes => exact ⟨h.onRest ({ · with maxCapacityBytes := capacityOf t }), rfl⟩
  | unixSocketMode =>
    simp only [applyFlag, ValueFlag.apply]
    cases socketMode t with
    | none => exact ⟨_, rfl, rfl⟩
    | some mode => exact ⟨h.onRest ({ · with unixSocketMode := mode }), rfl⟩

theorem parseFlags_follows (argv : List Text) {a : HeapArgs} (h : a.Sound) :
    Follows grants StartFailure.refused (Daemon.parseFlags argv a.args)
      (parseFlags grants argv a) := by
  induction argv, a using parseFlags.induct grants with
  | case1 a => exact follows_ok h
  | case2 t a f hf =>
    simp only [parseFlags, Daemon.parseFlags, hf]
    exact ⟨h.onRest _, rfl⟩
  | case3 t a hf =>
    simp only [parseFlags, Daemon.parseFlags, hf]
    split <;> exact ⟨_, rfl, rfl⟩
  | case4 t value rest a f hf a' hflag ih =>
    have hstep := applyFlag_follows grants h f value
    rw [hflag] at hstep
    simp only [parseFlags, Daemon.parseFlags, hf, hflag, hstep.2]
    exact ih hstep.1
  | case5 t value rest a f hf e hflag =>
    have hstep := applyFlag_follows grants h f value
    rw [hflag] at hstep
    simp only [parseFlags, Daemon.parseFlags, hf, hflag]
    cases e with
    | fault => exact hstep
    | noMemory => exact hstep
    | failure why =>
      obtain ⟨e, he, hwhy⟩ := hstep
      rw [he]
      exact ⟨e, rfl, hwhy⟩
  | case6 t value rest a hnone f hf ih =>
    simp only [parseFlags, Daemon.parseFlags, hnone, hf]
    exact ih (h.onRest _)
  | case7 t value rest a hnone hf =>
    simp only [parseFlags, Daemon.parseFlags, hnone, hf]
    split <;> exact ⟨_, rfl, rfl⟩

theorem fillText_follows {a : HeapArgs} (h : a.Sound) (root : Json) {f : TextField}
    (hf : f.borrowed = false) :
    Follows grants fail (.ok (a.args.fillText root f)) (a.fillText grants root f) := by
  cases hfile : fileText root f with
  | none =>
    rw [OffsdArgs.fillText_absent hfile]
    simp only [fillText, hfile]
    exact follows_ok h
  | some t =>
    cases hslot : a.strings.slot f with
    | some p =>
      have hsame : a.args.fillText root f = a.args := by
        have hfill : fill none (a.args.text f) ((fileText root f).map some) = a.args.text f := by
          rw [fill, if_neg (text_ne_none h hf hslot)]
        rw [OffsdArgs.fillText, hfill, OffsdArgs.setText, Function.update_eq_self]
      rw [hsame]
      simp only [fillText, hfile, hslot]
      exact follows_ok h
    | none =>
      have hnone := (slot_eq_none_iff h hf).mp hslot
      have hfill : a.args.fillText root f = a.args.setText f (some t) := by
        rw [OffsdArgs.fillText, hnone, hfile, fill_unset]
        rfl
      rw [hfill]
      simp only [fillText, hfile, hslot, Heap.alloc]
      cases hgrant : grants a.strings.heap.calls with
      | false => exact ⟨_, hgrant⟩
      | true =>
        obtain ⟨howned, hcontents⟩ := h.owned.grant hslot t
        exact ⟨h.put hf howned, congrArg Except.ok (args_put hf hcontents).symm⟩

/-- The failure that an error of the config file is. -/
def configFailure (e : ConfigError) : StartFailure := .refused (.config e)

theorem parseNetworkSection_follows {a : HeapArgs} (h : a.Sound) (w : System) (root : Json) :
    Follows grants configFailure (Daemon.parseNetworkSection w root a.args)
      (parseNetworkSection grants w root a) := by
  unfold Daemon.parseNetworkSection parseNetworkSection
  cases root.getObjectItem (lit "network") with
  | none => exact follows_ok h
  | some network =>
    refine (fillText_follows h root (f := .host) rfl).bind fun a₁ h₁ hargs₁ => ?_
    refine (fillText_follows (h₁.onRest _) root (f := .relayUrl) rfl).bind fun a₂ h₂ hargs₂ => ?_
    dsimp only
    rw [← hargs₁, args_fillPort, ← hargs₂]
    simp only [args_fillCapacity, args_fillPeriod, args_period]
    refine Follows.ite Iff.rfl ⟨_, rfl, rfl⟩ (Follows.ite Iff.rfl ⟨_, rfl, rfl⟩ ?_)
    have hrest := (((h₂.onRest (·.fillCapacity w root)).onRest
      (·.fillPeriod w root .eabfBaseTtlMs)).onRest
      (·.fillPeriod w root .respirationTauMinMs)).onRest
      (·.fillPeriod w root .respirationTauMaxMs)
    cases network.getObjectItem (lit "unix-socket-mode") with
    | none => exact fillText_follows hrest root rfl
    | some item =>
      cases item with
      | string t =>
        cases t with
        | nil => exact fillText_follows hrest root rfl
        | cons c t =>
          dsimp only
          cases socketMode (c :: t) with
          | none => exact ⟨_, rfl, rfl⟩
          | some mode =>
            rw [args_fillMode]
            exact fillText_follows (hrest.onRest _) root rfl
      | _ => exact ⟨_, rfl, rfl⟩

theorem parseConfigRoot_follows {a : HeapArgs} (h : a.Sound) (w : System) (root : Json) :
    Follows grants configFailure (Daemon.parseConfigRoot w root a.args)
      (parseConfigRoot grants w root a) := by
  unfold Daemon.parseConfigRoot parseConfigRoot
  refine (fillText_follows h root (f := .configDir) rfl).bind fun a₁ h₁ e₁ => ?_
  refine (fillText_follows h₁ root (f := .pidFile) rfl).bind fun a₂ h₂ e₂ => ?_
  rw [← e₁, ← e₂]
  refine (parseNetworkSection_follows h₂ w root).lift (fun a₃ h₃ he => ?_) fun e he => ?_
  · simp only [he]
    refine (fillText_follows h₃ root (f := .apiKey) rfl).bind fun a₄ h₄ e₄ => ?_
    refine (fillText_follows h₄ root (f := .unixPath) rfl).bind fun a₅ h₅ e₅ => ?_
    refine (fillText_follows h₅ root (f := .cacheDir) rfl).bind fun a₆ h₆ e₆ => ?_
    refine (fillText_follows (h₆.onRest _) root (f := .metricsServerUrl) rfl).bind
      fun a₇ h₇ e₇ => ?_
    refine (fillText_follows h₇ root (f := .caCertPath) rfl).bind fun a₈ h₈ e₈ => ?_
    refine (fillText_follows h₈ root (f := .nodeCertPath) rfl).bind fun a₉ h₉ e₉ => ?_
    refine (fillText_follows h₉ root (f := .nodeKeyPath) rfl).bind fun b₁ k₁ d₁ => ?_
    refine (fillText_follows (k₁.onRest _) root (f := .wsCertPath) rfl).bind fun b₂ k₂ d₂ => ?_
    refine (fillText_follows k₂ root (f := .wsKeyPath) rfl).bind fun b₃ k₃ d₃ => ?_
    refine (fillText_follows (k₃.onRest _) root (f := .wtCertPath) rfl).bind fun b₄ k₄ d₄ => ?_
    refine (fillText_follows k₄ root (f := .wtKeyPath) rfl).bind fun b₅ k₅ d₅ => ?_
    refine ⟨k₅.onRest _, congrArg Except.ok ?_⟩
    rw [← e₄, ← e₅, ← e₆, args_fillWorkers, ← e₇, ← e₈, ← e₉, ← d₁, args_fillPort, ← d₂, ← d₃,
      args_fillPort, ← d₄, ← d₅, args_fillSwitch]
  · exact ⟨e, by simp only [he], rfl⟩

theorem parseConfigFile_follows {a : HeapArgs} (h : a.Sound) (w : System) (path : Text) :
    Follows grants configFailure (Daemon.parseConfigFile w path a.args)
      (parseConfigFile grants w path a) := by
  unfold Daemon.parseConfigFile parseConfigFile
  cases w.document path with
  | unopened => exact ⟨_, rfl, rfl⟩
  | malformed errorPtr => exact ⟨_, rfl, rfl⟩
  | json root => exact parseConfigRoot_follows h w root

theorem finishArgs_follows {a : HeapArgs} (h : a.Sound) (w : System) :
    Follows grants fail (.ok (Daemon.finishArgs w a.args)) (finishArgs grants w a) := by
  have hsound := h.onRest fun rest =>
    { rest with workerCount := effectiveWorkers w rest.workerCount }
  unfold Daemon.finishArgs finishArgs
  dsimp only
  rcases hslot : a.strings.slot .unixPath with _ | p
  · have hnone := (slot_eq_none_iff h rfl).mp hslot
    simp only [onRest, hnone, hslot, ↓reduceIte]
    exact setText_follows hsound .unixPath localSocketPath
  · have hsome := text_ne_none h rfl hslot
    simp only [onRest, if_neg hsome, hslot, reduceCtorEq, ↓reduceIte]
    exact follows_ok hsound

theorem parseArgs_follows {a : HeapArgs} (h : a.Sound) (w : System) (argv : List Text) :
    Follows grants StartFailure.refused (Daemon.parseArgs w argv a.args)
      (parseArgs grants w argv a) := by
  unfold Daemon.parseArgs parseArgs
  refine (parseFlags_follows argv h).lift (fun a₁ h₁ hflags => ?_) fun e hflags => ?_
  · rw [hflags]
    have hpath : a₁.args.text .configPath = a₁.rest.text .configPath := rfl
    dsimp only
    rw [hpath]
    cases a₁.rest.text .configPath with
    | none => exact finishArgs_follows h₁ w
    | some path =>
      refine (parseConfigFile_follows h₁ w path).lift (fun a₂ h₂ hfile => ?_) fun e hfile => ?_
      · simp only [hfile]
        exact finishArgs_follows h₂ w
      · exact ⟨.config e, by simp only [hfile], rfl⟩
  · exact ⟨e, by rw [hflags], rfl⟩

/-- `_free_args` frees every string once. -/
theorem Sound.freeArgs {a : HeapArgs} (h : a.Sound) :
    ∃ heap, Store.freeSlots a.strings.slot freedMembers a.strings.heap = some heap ∧
      ∀ p, heap.block p = none := by
  refine h.owned.freeSlots (by decide) fun f hf => h.borrowed f ?_
  revert hf
  cases f <;> decide

theorem Sound.freeAnd {a : HeapArgs} (h : a.Sound) (stop : Stop) : a.freeAnd stop = stop := by
  obtain ⟨heap, hfree, -⟩ := h.freeArgs
  rw [HeapArgs.freeAnd, hfree]

theorem defaultArgs_follows (configPath : Option Text) :
    Follows grants fail (.ok (Daemon.defaultArgs configPath)) (defaultArgs grants configPath) := by
  have hblank : (⟨.empty, Daemon.defaultArgs configPath⟩ : HeapArgs).Sound :=
    ⟨Owned.empty, fun _ _ => rfl⟩
  have hhost : (⟨.empty, Daemon.defaultArgs configPath⟩ : HeapArgs).args.setText .host
      (some (lit "0.0.0.0")) = Daemon.defaultArgs configPath := by
    have htext : Function.update (⟨.empty, Daemon.defaultArgs configPath⟩ : HeapArgs).texts .host
        (some (lit "0.0.0.0")) = (Daemon.defaultArgs configPath).text := by
      funext f
      cases f <;> rfl
    rw [OffsdArgs.setText, args, htext]
  unfold defaultArgs
  rcases argStringSet_cases grants hblank.owned .host (lit "0.0.0.0") with
    ⟨n, hn, heap, hset, howned⟩ | ⟨p, heap, hset, howned, hcontents⟩
  · simp only [hset]
    rw [(hblank.put rfl howned).freeAnd]
    exact ⟨n, hn⟩
  · simp only [hset]
    refine ⟨hblank.put rfl howned, congrArg Except.ok ?_⟩
    rw [args_put rfl hcontents, hhost]

theorem fillDir_follows {a : HeapArgs} (h : a.Sound) {f : TextField} (hf : f.borrowed = false)
    (dir : Text) :
    Follows grants fail (.ok (a.args.setText f ((a.args.text f).or (some dir))))
      (a.fillDir grants f dir) := by
  unfold fillDir
  cases hslot : a.strings.slot f with
  | some p =>
    have hsome := Option.isSome_iff_ne_none.mpr (text_ne_none h hf hslot)
    have hsame : a.args.setText f ((a.args.text f).or (some dir)) = a.args := by
      rw [Option.or_of_isSome hsome, OffsdArgs.setText, Function.update_eq_self]
    rw [hsame]
    exact follows_ok h
  | none =>
    have hnone := (slot_eq_none_iff h hf).mp hslot
    simp only [hnone, Option.none_or, ↓reduceIte, Heap.alloc]
    cases hgrant : grants a.strings.heap.calls with
    | false =>
      have hsound :
          ({ a with strings := ⟨a.strings.heap.refuse, a.strings.slot⟩ } : HeapArgs).Sound :=
        ⟨h.owned.refuse, h.borrowed⟩
      simp only [Bool.false_eq_true, ↓reduceIte, hsound.freeAnd]
      exact ⟨_, hgrant⟩
    | true =>
      obtain ⟨howned, hcontents⟩ := h.owned.grant hslot dir
      exact ⟨h.put hf howned, congrArg Except.ok (args_put hf hcontents).symm⟩

/-- What filling in the platform's directories comes to. -/
def dirsFilled (h : Host) (args : OffsdArgs) : Except StartFailure OffsdArgs :=
  match Daemon.fillDefaultDirs h args with
  | none => .error .noDefaultDirs
  | some args => .ok args

theorem fillDefaultDirs_follows {a : HeapArgs} (h : a.Sound) (host : Host) :
    Follows grants id (dirsFilled host a.args) (fillDefaultDirs grants host a) := by
  have hcache := slot_eq_none_iff h (f := .cacheDir) rfl
  have hconfig := slot_eq_none_iff h (f := .configDir) rfl
  unfold dirsFilled Daemon.fillDefaultDirs fillDefaultDirs
  by_cases hmissing : a.args.text .cacheDir = none ∨ a.args.text .configDir = none
  · rw [if_pos hmissing, if_pos (by rwa [hcache, hconfig])]
    cases host.defaultDirs with
    | none =>
      simp only [h.freeAnd]
      exact ⟨_, rfl, rfl⟩
    | some defaults =>
      refine (fillDir_follows h (f := .configDir) rfl defaults.configDir).bind fun a₁ h₁ e₁ => ?_
      have hkept : a.args.text .cacheDir = a₁.args.text .cacheDir := by
        rw [e₁, OffsdArgs.setText_of_ne (by decide)]
      simp only [Option.map_some]
      rw [← e₁, hkept]
      exact fillDir_follows h₁ (f := .cacheDir) rfl defaults.cacheDir
  · rw [if_neg hmissing, if_neg (by rwa [hcache, hconfig])]
    exact follows_ok h

theorem takePendingDir_follows {a : HeapArgs} (h : a.Sound) (dir : Text) :
    Follows grants fail (.ok (a.args.setText .cacheDir (some dir)))
      (a.takePendingDir grants dir) := by
  obtain ⟨heap, hfree, hcalls, howned, hcontents⟩ := h.owned.free .cacheDir
  have hempty : (a.strings.put .cacheDir none heap).slot .cacheDir = none := by simp [Store.put]
  simp only [takePendingDir, hfree, Heap.alloc]
  cases hgrant : grants heap.calls with
  | false => exact ⟨_, hgrant⟩
  | true =>
    obtain ⟨howned', hcontents'⟩ := howned.grant hempty dir
    have hput : (a.strings.put .cacheDir none heap).put .cacheDir (some heap.calls)
        (heap.grant dir) = a.strings.put .cacheDir (some heap.calls) (heap.grant dir) := by
      simp [Store.put]
    have hheap : (a.strings.put .cacheDir none heap).heap = heap := rfl
    rw [hheap, hput] at howned' hcontents'
    rw [hcontents, Function.update_idem] at hcontents'
    exact ⟨h.put rfl howned', congrArg Except.ok (args_put rfl hcontents').symm⟩

theorem Sound.reads {a : HeapArgs} (h : a.Sound) (fields : List TextField) :
    a.reads fields = .ok () := by
  rw [HeapArgs.reads, if_pos]
  exact List.all_eq_true.mpr fun f _ => h.owned.usable f

end Follows

section Start
variable {grants : Nat → Bool} {ε Doc : Type} {fail : ε → StartFailure}

/-- `Follows`, for what `_run_offsd` has before its first `_startup`: the members, the
configuration of the pending document and the directory that the process is in. -/
def StartFollows (grants : Nat → Bool) (p : Except StartFailure (Started Doc)) :
    Except Stop (HeapArgs × Option Doc × Text) → Prop
  | .ok (a, cfg, cwd) => a.Sound ∧ p = .ok ⟨a.args, cfg, cwd⟩
  | .error .fault => False
  | .error .noMemory => ∃ n, grants n = false
  | .error (.failure why) => p = .error why

theorem Follows.start {p : Except ε OffsdArgs} {r : Except Stop HeapArgs}
    {q : Except StartFailure (Started Doc)}
    {k : HeapArgs → Except Stop (HeapArgs × Option Doc × Text)} (h : Follows grants fail p r)
    (hok : ∀ a : HeapArgs, a.Sound → p = .ok a.args → StartFollows grants q (k a))
    (herror : ∀ e, p = .error e → q = .error (fail e)) : StartFollows grants q (r >>= k) := by
  cases r with
  | ok a => exact hok a h.1 h.2
  | error stop =>
    cases stop with
    | fault => exact h
    | noMemory => exact h
    | failure why =>
      obtain ⟨e, hp, rfl⟩ := h
      exact herror e hp

end Start

end HeapArgs

/-- **The start is safe and does what the model with texts says.**  For every command line,
config file and pending document and every pattern of failing allocations, `_run_offsd` up to
its first `_startup` frees no string twice and uses none that is gone.  If it gets there, every
string belongs to one member, and the texts are those of the model without pointers; it fails
as the model does, and runs out of memory only if an allocation has failed. -/
theorem start_follows (grants : Nat → Bool) {Doc : Type} (api : PendingApi Doc) (h : Host)
    (files : Files Doc) (argv : List Text) :
    HeapArgs.StartFollows grants (runOffsd api h files argv)
      (HeapArgs.start grants api h files argv) := by
  unfold HeapArgs.start
  have hdefaults : HeapArgs.Follows grants id _ _ :=
    HeapArgs.defaultArgs_follows (h.configPath files)
  refine hdefaults.start (fun a ha hdefault => ?_) fun e he => by cases he
  have hargs : a.args = defaultArgs (h.configPath files) := (Except.ok.inj hdefault).symm
  unfold runOffsd
  by_cases hfirst : argv.head? = some (lit "uninstall")
  · rw [if_pos hfirst, if_pos hfirst]
    rfl
  rw [if_neg hfirst, if_neg hfirst, ← hargs]
  refine (HeapArgs.parseArgs_follows ha (h.system files) argv).start
    (fun parsed hparsed hparse => ?_) fun e he => by rw [he]
  rw [hparse]
  dsimp only
  refine (HeapArgs.fillDefaultDirs_follows hparsed h).start (fun b hb hdirs => ?_)
    fun e he => ?_
  · have hfilled : fillDefaultDirs h parsed.args = some b.args := by
      unfold HeapArgs.dirsFilled at hdirs
      cases hfill : fillDefaultDirs h parsed.args with
      | none => simp [hfill] at hdirs
      | some args => simpa [hfill] using hdirs
    have hslot := HeapArgs.slot_eq_none_iff hparsed (f := .cacheDir) rfl
    rw [hfilled, hb.reads]
    have hcwd : b.rest.switch = b.args.switch := rfl
    simp only [hcwd]
    cases hexplicit : parsed.strings.slot .cacheDir with
    | none =>
      rw [hslot.mp hexplicit]
      cases (loadPendingOverride h files (if b.args.switch .foreground then h.cwd else lit "/")
        b.args).bind api.cacheDir with
      | none => exact ⟨hb, rfl⟩
      | some dir =>
        have htaken : HeapArgs.Follows grants id _ _ := HeapArgs.takePendingDir_follows hb dir
        refine htaken.start (fun c hc hdir => ⟨hc, ?_⟩) fun e he => by cases he
        rw [← Except.ok.inj hdir]
    | some p =>
      have hset := HeapArgs.text_ne_none hparsed rfl hexplicit
      obtain ⟨dir, hdir⟩ := Option.ne_none_iff_exists'.mp hset
      rw [hdir]
      exact ⟨hb, rfl⟩
  · unfold HeapArgs.dirsFilled at he
    cases hfill : fillDefaultDirs h parsed.args with
    | none =>
      rw [hfill] at he
      rw [← Except.error.inj he]
      rfl
    | some args =>
      rw [hfill] at he
      cases he

end Offs.Daemon
