import Mathlib.Logic.Function.Basic
import OffsProof.CJson

/-! # The daemon's command line and config file

`_parse_args` and `_parse_config_file`.  `offsd_args_t` keeps its members here by type: strings,
ports, periods in milliseconds and switches are functions of an enumeration of their names, so
that what the source writes once for each member is written once for each type.

Flags are read first and overwrite; the config file then fills what is still unset.  Nothing
records that a flag was given.  A member counts as unset when its value is a marker (`fill`):
`NULL` for a string, 23402 for `port`, 0 for the other numbers.

A config file is what `fopen` and `cJSON_Parse` make of a path (`Document`).  `strdup` is taken
to succeed here; `ArgStrings` has the pointers and the allocations.

What the parsers leave is said once for each.  `Filled` has, member by member, what the config
file makes of what the flags have left, and `parseArgs_ok` puts the flags, the file and the end
of `_parse_args` together; `parseNetworkSection_cases` has the two checks that can refuse a file.
Later modules take a member out of these and do not unfold the parsers again.
-/
namespace Offs.Daemon
open CText CJson

/-! ## `offsd_args_t` -/

/-- The members that are strings, by their names in the source. -/
inductive TextField
  | configPath
  | host
  | unixPath
  | cacheDir
  | configDir
  | pidFile
  | logFile
  | logLevelStr
  | metricsServerUrl
  | caCertPath
  | nodeCertPath
  | nodeKeyPath
  | relayUrl
  | apiKey
  | bootstrapPeers
  | wsCertPath
  | wsKeyPath
  | wtCertPath
  | wtKeyPath
  deriving DecidableEq, Repr

inductive PortField
  | port
  | quicPort
  | wsPort
  | wtPort
  | wtH3Port
  deriving DecidableEq, Repr

inductive PeriodField
  | eabfBaseTtlMs
  | respirationTauMinMs
  | respirationTauMaxMs
  deriving DecidableEq, Repr

inductive SwitchField
  | foreground
  | logStructured
  | allowSecure
  deriving DecidableEq, Repr

/-- `offsd_args_t`. -/
structure OffsdArgs where
  text : TextField → Option Text
  port : PortField → UInt16
  period : PeriodField → UInt32
  switch : SwitchField → Bool
  workerCount : Int
  maxCapacityBytes : UInt64
  unixSocketMode : Nat

namespace OffsdArgs

def setText (args : OffsdArgs) (f : TextField) (t : Option Text) : OffsdArgs :=
  { args with text := Function.update args.text f t }

theorem setText_of_ne {args : OffsdArgs} {f g : TextField} {t : Option Text} (h : g ≠ f) :
    (args.setText f t).text g = args.text g := by
  simp [setText, h]

def setPort (args : OffsdArgs) (f : PortField) (n : UInt16) : OffsdArgs :=
  { args with port := Function.update args.port f n }

theorem setPort_of_ne {args : OffsdArgs} {f g : PortField} {n : UInt16} (h : g ≠ f) :
    (args.setPort f n).port g = args.port g := by
  simp [setPort, h]

def setPeriod (args : OffsdArgs) (f : PeriodField) (n : UInt32) : OffsdArgs :=
  { args with period := Function.update args.period f n }

def setSwitch (args : OffsdArgs) (f : SwitchField) (b : Bool) : OffsdArgs :=
  { args with switch := Function.update args.switch f b }

end OffsdArgs

/-! ## The machine -/

/-- What reading a config file comes to. -/
inductive Document
  /-- `fopen` fails. -/
  | unopened
  /-- `cJSON_Parse` fails, at `cJSON_GetErrorPtr()`. -/
  | malformed (errorPtr : Option Text)
  | json (root : Json)

/-- What the parsers ask of the machine. -/
structure System where
  document : Text → Document
  /-- `sysconf(_SC_NPROCESSORS_ONLN)` -/
  nprocs : Int
  /-- The outcome of an unsigned cast that C leaves undefined. -/
  undefinedCast : Double → Nat

/-- `_get_worker_count`. -/
def getWorkerCount (w : System) : Int :=
  let nprocs := if w.nprocs < 1 then 1 else w.nprocs.bmod (2 ^ 32)
  if nprocs < 2 then 2 else nprocs

/-- `OFFS_LOCAL_SOCKET_PATH` -/
def localSocketPath : Text := lit "/var/run/offs.sock"

/-! ## Refusals -/

/-- Why `_parse_config_file` returns -1. -/
inductive ConfigError
  | unopened (path : Text)
  | malformed (errorPtr : Option Text)
  | eabfBaseTtl (ms : UInt32)
  | respirationTau (min max : UInt32)
  | unixSocketModeType
  | unixSocketMode (t : Text)
  deriving DecidableEq, Repr

/-- Why `_parse_args` does not return 0. -/
inductive Refusal
  | help
  | unknownOption (t : Text)
  | unixSocketMode (t : Text)
  | config (e : ConfigError)
  deriving DecidableEq, Repr

/-- The line that goes to `stderr`. -/
def ConfigError.message : ConfigError → Text
  | .unopened path => lit "Failed to open config file: " ++ path
  | .malformed errorPtr =>
    lit "Failed to parse config file: " ++ errorPtr.getD (lit "unknown error")
  | .eabfBaseTtl ms =>
    lit "Invalid network[eabf-base-ttl-ms]: " ++ decimal ms.toNat ++
      lit " ms is below the 64-slot wheel floor (min 64000)"
  | .respirationTau min max =>
    lit "Invalid network[respiration-tau-*]: min (" ++ decimal min.toNat ++
      lit " ms) exceeds max (" ++ decimal max.toNat ++ lit " ms)"
  | .unixSocketModeType =>
    lit "Invalid network[unix-socket-mode]: must be an octal string like \"0666\""
  | .unixSocketMode t =>
    lit "Invalid network[unix-socket-mode]: '" ++ t ++
      lit "' (octal string like \"0666\")"

def Refusal.message : Refusal → Text
  | .help => []
  | .unknownOption t => lit "Unknown option: " ++ t
  | .unixSocketMode t =>
    lit "Invalid --unix-socket-mode '" ++ t ++ lit "' (octal, e.g. 0666)"
  | .config e => e.message

/-- The status `_run_offsd` returns for it. -/
def Refusal.status : Refusal → Nat
  | .help => 0
  | _ => 1

/-! ## Flags -/

/-- The flags that take a value. -/
inductive ValueFlag
  | text (f : TextField)
  | port (f : PortField)
  | workers
  | maxCapacityBytes
  | unixSocketMode
  deriving DecidableEq, Repr

def TextField.flag : TextField → Text
  | .configPath => lit "--config"
  | .host => lit "--host"
  | .unixPath => lit "--unix"
  | .cacheDir => lit "--cache-dir"
  | .configDir => lit "--config-dir"
  | .pidFile => lit "--pid-file"
  | .logFile => lit "--log-file"
  | .logLevelStr => lit "--log-level"
  | .metricsServerUrl => lit "--metrics-server"
  | .caCertPath => lit "--ca-cert"
  | .nodeCertPath => lit "--node-cert"
  | .nodeKeyPath => lit "--node-key"
  | .relayUrl => lit "--relay-url"
  | .apiKey => lit "--api-key"
  | .bootstrapPeers => lit "--bootstrap"
  | .wsCertPath => lit "--ws-cert"
  | .wsKeyPath => lit "--ws-key"
  | .wtCertPath => lit "--wt-cert"
  | .wtKeyPath => lit "--wt-key"

def PortField.flag : PortField → Text
  | .port => lit "--port"
  | .quicPort => lit "--quic-port"
  | .wsPort => lit "--ws-port"
  | .wtPort => lit "--wt-port"
  | .wtH3Port => lit "--wt-h3-port"

def SwitchField.flag : SwitchField → Text
  | .foreground => lit "--foreground"
  | .logStructured => lit "--log-structured"
  | .allowSecure => lit "--allow-secure"

namespace ValueFlag

def token : ValueFlag → Text
  | .text f => f.flag
  | .port f => f.flag
  | .workers => lit "--workers"
  | .maxCapacityBytes => lit "--max-capacity-bytes"
  | .unixSocketMode => lit "--unix-socket-mode"

/-- The order in which `_parse_args` compares. -/
def all : List ValueFlag :=
  [.text .configPath, .text .host, .port .port, .port .quicPort, .text .unixPath, .text .cacheDir,
    .text .configDir, .text .pidFile, .workers, .text .logFile, .text .logLevelStr,
    .text .metricsServerUrl, .text .caCertPath, .text .nodeCertPath, .text .nodeKeyPath,
    .text .relayUrl, .maxCapacityBytes, .unixSocketMode, .text .apiKey, .text .bootstrapPeers,
    .port .wsPort, .port .wtPort, .port .wtH3Port, .text .wsCertPath, .text .wsKeyPath,
    .text .wtCertPath, .text .wtKeyPath]

def ofToken (t : Text) : Option ValueFlag := all.find? fun f => f.token == t

end ValueFlag

def SwitchField.ofToken (t : Text) : Option SwitchField :=
  [SwitchField.foreground, .logStructured, .allowSecure].find? fun f => f.flag == t

/-- An octal mode up to 0777 with nothing after it. -/
def socketMode (t : Text) : Option Nat :=
  if (strtoull 8 t).2 = [] ∧ (strtoull 8 t).1 ≤ 511 then some (strtoull 8 t).1 else none

/-- `(uint16_t)atoi(t)` -/
def portOf (t : Text) : UInt16 := UInt16.ofInt (atoi t)

/-- `worker_count` after `--workers t`: negative counts become 0. -/
def workersOf (t : Text) : Int := if atoi t < 0 then 0 else atoi t

/-- `(size_t)strtoull(t, NULL, 10)` -/
def capacityOf (t : Text) : UInt64 := UInt64.ofNat (strtoull 10 t).1

/-- The effect of a flag with its value. -/
def ValueFlag.apply (args : OffsdArgs) : ValueFlag → Text → Except Refusal OffsdArgs
  | .text f, t => .ok (args.setText f (some t))
  | .port f, t => .ok (args.setPort f (portOf t))
  | .workers, t => .ok { args with workerCount := workersOf t }
  | .maxCapacityBytes, t => .ok { args with maxCapacityBytes := capacityOf t }
  | .unixSocketMode, t =>
    match socketMode t with
    | some mode => .ok { args with unixSocketMode := mode }
    | none => .error (.unixSocketMode t)

/-- The loop of `_parse_args`, over `argv[1]` and what follows.  A flag that takes a
value is not recognised as the last argument. -/
def parseFlags : List Text → OffsdArgs → Except Refusal OffsdArgs
  | [], args => .ok args
  | [t], args =>
    match SwitchField.ofToken t with
    | some f => .ok (args.setSwitch f true)
    | none => if t = lit "--help" then .error .help else .error (.unknownOption t)
  | t :: value :: rest, args =>
    match ValueFlag.ofToken t with
    | some f =>
      match f.apply args value with
      | .ok args => parseFlags rest args
      | .error e => .error e
    | none =>
      match SwitchField.ofToken t with
      | some f => parseFlags (value :: rest) (args.setSwitch f true)
      | none => if t = lit "--help" then .error .help else .error (.unknownOption t)

/-! ## The config file -/

/-- A member that the config file may fill: the file's value is taken only while the
member still has the value `unset`. -/
def fill {α : Type} [DecidableEq α] (unset stored : α) (file : Option α) : α :=
  if stored = unset then file.getD unset else stored

/-- The section and key of a string member. -/
def TextField.key : TextField → Option (Text × Text)
  | .configDir => some (lit "daemon", lit "config-dir")
  | .pidFile => some (lit "daemon", lit "pid-file")
  | .host => some (lit "network", lit "host")
  | .relayUrl => some (lit "network", lit "relay-url")
  | .bootstrapPeers => some (lit "network", lit "bootstrap-peers")
  | .apiKey => some (lit "auth", lit "api-key")
  | .unixPath => some (lit "unix", lit "socket-path")
  | .cacheDir => some (lit "cache", lit "dir")
  | .metricsServerUrl => some (lit "metrics", lit "server-url")
  | .caCertPath => some (lit "tls", lit "ca-cert")
  | .nodeCertPath => some (lit "tls", lit "node-cert")
  | .nodeKeyPath => some (lit "tls", lit "node-key")
  | .wsCertPath => some (lit "websocket", lit "cert")
  | .wsKeyPath => some (lit "websocket", lit "key")
  | .wtCertPath => some (lit "webtransport", lit "cert")
  | .wtKeyPath => some (lit "webtransport", lit "key")
  | .configPath | .logFile | .logLevelStr => none

def PortField.key : PortField → Option (Text × Text)
  | .port => some (lit "network", lit "port")
  | .wsPort => some (lit "websocket", lit "port")
  | .wtPort => some (lit "webtransport", lit "port")
  | .quicPort | .wtH3Port => none

/-- The value that `_parse_config_file` takes for an absent flag. -/
def PortField.unset : PortField → UInt16
  | .port => 23402
  | _ => 0

def PeriodField.key : PeriodField → Text × Text
  | .eabfBaseTtlMs => (lit "network", lit "eabf-base-ttl-ms")
  | .respirationTauMinMs => (lit "network", lit "respiration-tau-min-ms")
  | .respirationTauMaxMs => (lit "network", lit "respiration-tau-max-ms")

def SwitchField.key : SwitchField → Option (Text × Text)
  | .allowSecure => some (lit "security", lit "allow-secure")
  | .foreground | .logStructured => none

section Keys
variable (root : Json)

/-- The item under `key`, if it has the type that `read` expects. -/
def keyed {α : Type} (read : Json → Option α) (key : Text × Text) : Option α :=
  (root.item key.1 key.2).bind read

def fileText (f : TextField) : Option Text := f.key.bind (keyed root Json.asString)

def filePortNumber (f : PortField) : Option Double := f.key.bind (keyed root Json.asNumber)

def filePeriodNumber (f : PeriodField) : Option Double := keyed root Json.asNumber f.key

def fileCapacityNumber : Option Double :=
  keyed root Json.asNumber (lit "network", lit "max-capacity-bytes")

def fileWorkersNumber : Option Double :=
  keyed root Json.asNumber (lit "workers", lit "count")

def fileModeText : Option Text :=
  keyed root Json.asString (lit "network", lit "unix-socket-mode")

def fileSwitch (f : SwitchField) : Option Bool := f.key.bind (keyed root Json.asBool)

/-- `(uint16_t)port->valueint` -/
def filePort (f : PortField) : Option UInt16 :=
  (filePortNumber root f).map fun d => UInt16.ofInt d.valueint

/-- `count->valueint` -/
def fileWorkers : Option Int := (fileWorkersNumber root).map Double.valueint

/-- The mode a non-empty string gives. -/
def fileMode : Option Nat :=
  (fileModeText root).bind fun t => if t = [] then none else socketMode t

/-- `(uint32_t)item->valuedouble` -/
def filePeriod (w : System) (f : PeriodField) : Option UInt32 :=
  (filePeriodNumber root f).map fun d => UInt32.ofNat (d.toUnsigned 32 w.undefinedCast)

/-- `(size_t)max_cap->valuedouble` -/
def fileCapacity (w : System) : Option UInt64 :=
  (fileCapacityNumber root).map fun d => UInt64.ofNat (d.toUnsigned 64 w.undefinedCast)

end Keys

namespace OffsdArgs

def fillText (args : OffsdArgs) (root : Json) (f : TextField) : OffsdArgs :=
  args.setText f (fill none (args.text f) ((fileText root f).map some))

def fillPort (args : OffsdArgs) (root : Json) (f : PortField) : OffsdArgs :=
  args.setPort f (fill f.unset (args.port f) (filePort root f))

def fillPeriod (args : OffsdArgs) (w : System) (root : Json) (f : PeriodField) : OffsdArgs :=
  args.setPeriod f (fill 0 (args.period f) (filePeriod root w f))

def fillSwitch (args : OffsdArgs) (root : Json) (f : SwitchField) : OffsdArgs :=
  args.setSwitch f (fill false (args.switch f) (fileSwitch root f))

def fillCapacity (args : OffsdArgs) (w : System) (root : Json) : OffsdArgs :=
  { args with maxCapacityBytes := fill 0 args.maxCapacityBytes (fileCapacity root w) }

def fillWorkers (args : OffsdArgs) (root : Json) : OffsdArgs :=
  { args with workerCount := fill 0 args.workerCount (fileWorkers root) }

def fillMode (args : OffsdArgs) (root : Json) : OffsdArgs :=
  { args with unixSocketMode := fill 0 args.unixSocketMode (fileMode root) }

end OffsdArgs

/-- The `[network]` section, the only one that is checked. -/
def parseNetworkSection (w : System) (root : Json) (args : OffsdArgs) :
    Except ConfigError OffsdArgs :=
  match root.getObjectItem (lit "network") with
  | none => .ok args
  | some network =>
    let args := ((args.fillText root .host).fillPort root .port).fillText root .relayUrl
    let args := args.fillCapacity w root
    -- Only a period that the file sets is checked, and before the others are filled.
    let unsetTtl := args.period .eabfBaseTtlMs = 0 ∧ (filePeriodNumber root .eabfBaseTtlMs).isSome
    let args := args.fillPeriod w root .eabfBaseTtlMs
    if unsetTtl ∧ args.period .eabfBaseTtlMs < 64000 then
      .error (.eabfBaseTtl (args.period .eabfBaseTtlMs))
    else
      let args := args.fillPeriod w root .respirationTauMinMs
      let args := args.fillPeriod w root .respirationTauMaxMs
      let tauMin := args.period .respirationTauMinMs
      let tauMax := args.period .respirationTauMaxMs
      if tauMin > 0 ∧ tauMax > 0 ∧ tauMin > tauMax then .error (.respirationTau tauMin tauMax)
      else
        match network.getObjectItem (lit "unix-socket-mode") with
        | none | some (.string []) => .ok (args.fillText root .bootstrapPeers)
        | some (.string (c :: t)) =>
          match socketMode (c :: t) with
          | none => .error (.unixSocketMode (c :: t))
          | some _ => .ok ((args.fillMode root).fillText root .bootstrapPeers)
        | some _ => .error .unixSocketModeType

/-- `_parse_config_file`, once the file has been parsed. -/
def parseConfigRoot (w : System) (root : Json) (args : OffsdArgs) :
    Except ConfigError OffsdArgs :=
  let args := (args.fillText root .configDir).fillText root .pidFile
  match parseNetworkSection w root args with
  | .error e => .error e
  | .ok args =>
    let args := (args.fillText root .apiKey).fillText root .unixPath
    let args := (args.fillText root .cacheDir).fillWorkers root
    let args := args.fillText root .metricsServerUrl
    let args := ((args.fillText root .caCertPath).fillText root .nodeCertPath).fillText root .nodeKeyPath
    let args := ((args.fillPort root .wsPort).fillText root .wsCertPath).fillText root .wsKeyPath
    let args := ((args.fillPort root .wtPort).fillText root .wtCertPath).fillText root .wtKeyPath
    .ok (args.fillSwitch root .allowSecure)

/-- `_parse_config_file`. -/
def parseConfigFile (w : System) (path : Text) (args : OffsdArgs) :
    Except ConfigError OffsdArgs :=
  match w.document path with
  | .unopened => .error (.unopened path)
  | .malformed errorPtr => .error (.malformed errorPtr)
  | .json root => parseConfigRoot w root args

/-- `worker_count` at the end of `_parse_args`. -/
def effectiveWorkers (w : System) (count : Int) : Int :=
  let count := if count = 0 then getWorkerCount w else count
  if count < 1 then 1 else count

/-- The end of `_parse_args`: the worker count is settled, and the local socket gets
the path that the CLI probes unless one is configured. -/
def finishArgs (w : System) (args : OffsdArgs) : OffsdArgs :=
  let args := { args with workerCount := effectiveWorkers w args.workerCount }
  if args.text .unixPath = none then args.setText .unixPath (some localSocketPath) else args

/-- `_parse_args`, over `argv[1]` and what follows. -/
def parseArgs (w : System) (argv : List Text) (args : OffsdArgs) : Except Refusal OffsdArgs :=
  match parseFlags argv args with
  | .error e => .error e
  | .ok args =>
    let parsed : Except ConfigError OffsdArgs :=
      match args.text .configPath with
      | none => .ok args
      | some path => parseConfigFile w path args
    match parsed with
    | .error e => .error (.config e)
    | .ok args => .ok (finishArgs w args)

/-- The members as `_run_offsd` sets them before it calls `_parse_args`. -/
def defaultArgs (configPath : Option Text) : OffsdArgs where
  text
    | .configPath => configPath
    | .host => some (lit "0.0.0.0")
    | _ => none
  port
    | .port => 23402
    | .quicPort => 23401
    | _ => 0
  period _ := 0
  switch _ := false
  workerCount := 0
  maxCapacityBytes := 0
  unixSocketMode := 0

/-! ## What each step leaves in the members -/

section Members
variable {α : Type} [DecidableEq α]

@[simp] theorem fill_none (unset stored : α) : fill unset stored none = stored := by
  unfold fill
  split <;> simp_all

/-- The stored value survives exactly when it is no marker, or the file agrees. -/
theorem fill_eq_stored {unset stored : α} {file : Option α} :
    fill unset stored file = stored ↔ (stored = unset → ∀ x, file = some x → x = unset) := by
  unfold fill
  split
  · rename_i h
    subst h
    cases file <;> simp
  · simp_all

theorem fill_unset {unset : α} {file : Option α} : fill unset unset file = file.getD unset := by
  simp [fill]

theorem fill_none_stored {stored file : Option α} :
    fill none stored (file.map some) = stored.or file := by
  cases stored <;> cases file <;> simp [fill]

end Members

theorem keyed_of_section {α : Type} {root : Json} {name : Text} (read : Json → Option α)
    (h : root.getObjectItem name = none) (key : Text) : keyed root read (name, key) = none := by
  simp [keyed, Json.item, h]

namespace OffsdArgs
variable {args : OffsdArgs} {w : System} {root : Json}

theorem fillText_absent {f : TextField} (h : fileText root f = none) :
    args.fillText root f = args := by
  simp [fillText, setText, h]

theorem fillPort_absent {f : PortField} (h : filePortNumber root f = none) :
    args.fillPort root f = args := by
  simp [fillPort, setPort, filePort, h]

theorem fillPeriod_absent {f : PeriodField} (h : filePeriodNumber root f = none) :
    args.fillPeriod w root f = args := by
  simp [fillPeriod, setPeriod, filePeriod, h]

theorem fillCapacity_absent (h : fileCapacityNumber root = none) :
    args.fillCapacity w root = args := by
  simp [fillCapacity, fileCapacity, h]

theorem fillMode_absent (h : fileMode root = none) : args.fillMode root = args := by
  simp [fillMode, h]

end OffsdArgs

/-- All members of the `[network]` section filled, with no checks. -/
def networkFilled (w : System) (root : Json) (args : OffsdArgs) : OffsdArgs :=
  let args := ((args.fillText root .host).fillPort root .port).fillText root .relayUrl
  let args := (args.fillCapacity w root).fillPeriod w root .eabfBaseTtlMs
  let args := (args.fillPeriod w root .respirationTauMinMs).fillPeriod w root .respirationTauMaxMs
  (args.fillMode root).fillText root .bootstrapPeers

theorem networkFilled_absent {w : System} {root : Json} {args : OffsdArgs}
    (h : root.getObjectItem (lit "network") = none) : networkFilled w root args = args := by
  have hkey : ∀ {α : Type} (read : Json → Option α) (key : Text),
      keyed root read (lit "network", key) = none :=
    fun read key => keyed_of_section read h key
  have hmode : fileMode root = none := by
    simp only [fileMode, fileModeText, hkey, Option.bind_none]
  dsimp only [networkFilled]
  rw [OffsdArgs.fillText_absent (f := .host) (hkey _ _),
    OffsdArgs.fillPort_absent (f := .port) (hkey _ _),
    OffsdArgs.fillText_absent (f := .relayUrl) (hkey _ _),
    OffsdArgs.fillCapacity_absent (hkey _ _),
    OffsdArgs.fillPeriod_absent (f := .eabfBaseTtlMs) (hkey _ _),
    OffsdArgs.fillPeriod_absent (f := .respirationTauMinMs) (hkey _ _),
    OffsdArgs.fillPeriod_absent (f := .respirationTauMaxMs) (hkey _ _),
    OffsdArgs.fillMode_absent hmode, OffsdArgs.fillText_absent (f := .bootstrapPeers) (hkey _ _)]

/-- The bounds of the throttle that are set are in order. -/
def BoundsInOrder (args : OffsdArgs) : Prop :=
  0 < args.period .respirationTauMinMs → 0 < args.period .respirationTauMaxMs →
    args.period .respirationTauMinMs ≤ args.period .respirationTauMaxMs

/-- **How the `[network]` section ends**: refused, for a socket mode only if it is none, or
with all members filled, its socket mode a mode and its bounds in order. -/
theorem parseNetworkSection_cases (w : System) (root : Json) (args : OffsdArgs) :
    (∃ e, parseNetworkSection w root args = .error e ∧
      ∀ t, e = .unixSocketMode t → socketMode t = none) ∨
    (parseNetworkSection w root args = .ok (networkFilled w root args) ∧
      (∀ t, fileModeText root = some t → t ≠ [] → (socketMode t).isSome) ∧
      (BoundsInOrder args → BoundsInOrder (networkFilled w root args))) := by
  unfold parseNetworkSection
  cases hnetwork : root.getObjectItem (lit "network") with
  | none =>
    have hmode : fileModeText root = none := keyed_of_section _ hnetwork _
    rw [networkFilled_absent hnetwork]
    refine .inr ⟨rfl, fun t ht => ?_, id⟩
    rw [hmode] at ht
    cases ht
  | some network =>
    have hmode : fileModeText root =
        (network.getObjectItem (lit "unix-socket-mode")).bind Json.asString := by
      simp only [fileModeText, keyed, Json.item, hnetwork, Option.bind_some]
    dsimp only
    split
    · exact .inl ⟨_, rfl, nofun⟩
    · split
      · exact .inl ⟨_, rfl, nofun⟩
      · rename_i hcheck
        have horder : BoundsInOrder (networkFilled w root args) := fun hmin hmax =>
          UInt32.not_lt.mp fun hlt => hcheck ⟨hmin, hmax, hlt⟩
        split
        · rename_i hitem
          rw [hitem, Option.bind_none] at hmode
          have hnone : fileMode root = none := by simp only [fileMode, hmode, Option.bind_none]
          refine .inr ⟨by rw [networkFilled, OffsdArgs.fillMode_absent hnone], fun t ht => ?_,
            fun _ => horder⟩
          rw [hmode] at ht
          cases ht
        · rename_i hitem
          rw [hitem, Option.bind_some, Json.asString] at hmode
          have hnone : fileMode root = none := by
            simp only [fileMode, hmode, Option.bind_some, if_true]
          refine .inr ⟨by rw [networkFilled, OffsdArgs.fillMode_absent hnone], fun t ht hne => ?_,
            fun _ => horder⟩
          rw [hmode] at ht
          cases ht
          exact absurd rfl hne
        · rename_i hitem
          rw [hitem, Option.bind_some, Json.asString] at hmode
          split
          · rename_i hnone
            refine .inl ⟨_, rfl, fun t ht => ?_⟩
            cases ht
            exact hnone
          · rename_i hsome
            refine .inr ⟨rfl, fun t ht _ => ?_, fun _ => horder⟩
            rw [hmode] at ht
            cases ht
            rw [hsome]
            rfl
        · exact .inl ⟨_, rfl, nofun⟩

/-- The `[network]` section is filled, and its socket mode is one. -/
theorem parseNetworkSection_ok {w : System} {root : Json} {args after : OffsdArgs}
    (h : parseNetworkSection w root args = .ok after) :
    after = networkFilled w root args ∧
      (∀ t, fileModeText root = some t → t ≠ [] → (socketMode t).isSome) ∧
      (BoundsInOrder args → BoundsInOrder after) := by
  rcases parseNetworkSection_cases w root args with ⟨e, herror, -⟩ | ⟨hok, hmode, horder⟩
  · rw [herror] at h
    cases h
  · rw [hok] at h
    cases h
    exact ⟨rfl, hmode, horder⟩

/-- **What `_parse_config_file` does to the members**, when it returns 0: each one is filled from
its own key, if it still has its marker.  `checkedMode` is what the parser has seen of the socket
mode beyond the value that it has stored: a text that is neither empty nor a mode is refused. -/
structure Filled (w : System) (root : Json) (before after : OffsdArgs) : Prop where
  text : ∀ f, after.text f = (before.text f).or (fileText root f)
  port : ∀ f, after.port f = fill f.unset (before.port f) (filePort root f)
  period : ∀ f, after.period f = fill 0 (before.period f) (filePeriod root w f)
  switch : ∀ f, after.switch f = fill false (before.switch f) (fileSwitch root f)
  workerCount : after.workerCount = fill 0 before.workerCount (fileWorkers root)
  maxCapacityBytes :
    after.maxCapacityBytes = fill 0 before.maxCapacityBytes (fileCapacity root w)
  unixSocketMode : after.unixSocketMode = fill 0 before.unixSocketMode (fileMode root)
  checkedMode : ∀ t, fileModeText root = some t → t ≠ [] → (socketMode t).isSome

theorem parseConfigRoot_ok {w : System} {root : Json} {args after : OffsdArgs}
    (h : parseConfigRoot w root args = .ok after) : Filled w root args after := by
  unfold parseConfigRoot at h
  dsimp only at h
  split at h
  · cases h
  · rename_i hnetwork
    obtain ⟨rfl, hmode, -⟩ := parseNetworkSection_ok hnetwork
    cases h
    refine ⟨fun f => ?_, fun f => ?_, fun f => ?_, fun f => ?_, rfl, rfl, rfl, hmode⟩
    -- A member with a key is filled by its own step and no other; one without stays.
    · rw [← fill_none_stored]
      cases f with
      | configPath | logFile | logLevelStr => exact (fill_none none _).symm
      | _ => rfl
    · cases f with
      | quicPort | wtH3Port => exact (fill_none _ _).symm
      | _ => rfl
    · cases f <;> rfl
    · cases f with
      | foreground | logStructured => exact (fill_none _ _).symm
      | allowSecure => rfl

/-- The JSON document `_parse_args` reads from `path`, the empty one without a
config file. -/
def configRoot (w : System) (path : Option Text) : Json :=
  match path.map w.document with
  | some (.json root) => root
  | _ => .object []

theorem filled_empty (w : System) (args : OffsdArgs) : Filled w (.object []) args args := by
  have hkey : ∀ {α : Type} (read : Json → Option α) (key : Text × Text),
      keyed (.object []) read key = none := fun read key => keyed_of_section read rfl key.2
  constructor <;>
    simp [fileText, filePort, filePortNumber, filePeriod, filePeriodNumber, fileSwitch, fileWorkers,
      fileWorkersNumber, fileCapacity, fileCapacityNumber, fileMode, fileModeText, hkey]

/-- **How `_parse_args` ends**: in the flags, without a config file, or in or after the
config file. -/
theorem parseArgs_cases (w : System) (argv : List Text) (initial : OffsdArgs) :
    (∃ e, parseFlags argv initial = .error e ∧ parseArgs w argv initial = .error e) ∨
    ∃ flags, parseFlags argv initial = .ok flags ∧
      ((flags.text .configPath = none ∧ parseArgs w argv initial = .ok (finishArgs w flags)) ∨
      ∃ path, flags.text .configPath = some path ∧
        ((∃ e, parseConfigFile w path flags = .error e ∧
          parseArgs w argv initial = .error (.config e)) ∨
        ∃ filled, parseConfigFile w path flags = .ok filled ∧
          parseArgs w argv initial = .ok (finishArgs w filled))) := by
  cases hflags : parseFlags argv initial with
  | error e => exact .inl ⟨e, rfl, by simp only [parseArgs, hflags]⟩
  | ok flags =>
    refine .inr ⟨flags, rfl, ?_⟩
    cases hpath : flags.text .configPath with
    | none => exact .inl ⟨rfl, by simp only [parseArgs, hflags, hpath]⟩
    | some path =>
      refine .inr ⟨path, rfl, ?_⟩
      cases hfile : parseConfigFile w path flags with
      | error e => exact .inl ⟨e, rfl, by simp only [parseArgs, hflags, hpath, hfile]⟩
      | ok filled => exact .inr ⟨filled, rfl, by simp only [parseArgs, hflags, hpath, hfile]⟩

theorem parseConfigFile_ok {w : System} {path : Text} {args after : OffsdArgs}
    (h : parseConfigFile w path args = .ok after) :
    ∃ root, w.document path = .json root ∧ parseConfigRoot w root args = .ok after := by
  unfold parseConfigFile at h
  split at h
  · cases h
  · cases h
  · rename_i root hdocument
    exact ⟨root, hdocument, h⟩

/-- **What `_parse_args` does**, when it returns 0: the flags, then the file, then the
worker count and the socket path. -/
theorem parseArgs_ok {w : System} {argv : List Text} {initial args : OffsdArgs}
    (h : parseArgs w argv initial = .ok args) :
    ∃ flags filled, parseFlags argv initial = .ok flags ∧
      Filled w (configRoot w (flags.text .configPath)) flags filled ∧ args = finishArgs w filled := by
  rcases parseArgs_cases w argv initial with ⟨e, -, hargs⟩ | ⟨flags, hflags, ⟨hpath, hargs⟩ |
    ⟨path, hpath, ⟨e, -, hargs⟩ | ⟨filled, hfile, hargs⟩⟩⟩ <;> rw [hargs] at h <;> cases h
  · exact ⟨flags, flags, hflags, by rw [hpath]; exact filled_empty w flags, rfl⟩
  · obtain ⟨root, hdocument, hroot⟩ := parseConfigFile_ok hfile
    refine ⟨flags, filled, hflags, ?_, rfl⟩
    rw [hpath, configRoot, Option.map_some, hdocument]
    exact parseConfigRoot_ok hroot

theorem getWorkerCount_ge (w : System) : 2 ≤ getWorkerCount w := by
  unfold getWorkerCount
  dsimp only
  omega

@[simp] theorem effectiveWorkers_zero (w : System) : effectiveWorkers w 0 = getWorkerCount w := by
  have := getWorkerCount_ge w
  simp [effectiveWorkers]
  omega

theorem effectiveWorkers_pos (w : System) {count : Int} (h : 0 < count) :
    effectiveWorkers w count = count := by
  unfold effectiveWorkers
  dsimp only
  omega

theorem effectiveWorkers_neg (w : System) {count : Int} (h : count < 0) :
    effectiveWorkers w count = 1 := by
  unfold effectiveWorkers
  dsimp only
  omega

theorem finishArgs_text {w : System} {args : OffsdArgs} {f : TextField} {t : Text}
    (h : args.text f = some t) : (finishArgs w args).text f = some t := by
  unfold finishArgs
  dsimp only
  split
  · rename_i hnone
    have hne : f ≠ .unixPath := by
      rintro rfl
      rw [h] at hnone
      cases hnone
    rw [OffsdArgs.setText_of_ne hne]
    exact h
  · exact h

theorem finishArgs_text_of_ne (w : System) (args : OffsdArgs) {f : TextField} (h : f ≠ .unixPath) :
    (finishArgs w args).text f = args.text f := by
  unfold finishArgs
  dsimp only
  split
  · rw [OffsdArgs.setText_of_ne h]
  · rfl

/-- Only the socket path and the worker count are touched at the end. -/
theorem finishArgs_rest (w : System) (args : OffsdArgs) :
    (finishArgs w args).port = args.port ∧ (finishArgs w args).period = args.period ∧
      (finishArgs w args).switch = args.switch ∧
      (finishArgs w args).workerCount = effectiveWorkers w args.workerCount ∧
      (finishArgs w args).maxCapacityBytes = args.maxCapacityBytes ∧
      (finishArgs w args).unixSocketMode = args.unixSocketMode := by
  unfold finishArgs
  dsimp only
  split <;> exact ⟨rfl, rfl, rfl, rfl, rfl, rfl⟩

/-- The members that `_parse_args` finds unset: all but the config path and the bind
address. -/
theorem defaultArgs_text {configPath : Option Text} {f : TextField} (hpath : f ≠ .configPath)
    (hhost : f ≠ .host) : (defaultArgs configPath).text f = none := by
  cases f <;> first | rfl | contradiction

theorem defaultArgs_port (configPath : Option Text) {f : PortField} (h : f ≠ .quicPort) :
    (defaultArgs configPath).port f = f.unset := by
  cases f <;> first | rfl | contradiction

end Offs.Daemon
