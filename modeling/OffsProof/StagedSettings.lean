import OffsProof.FileEffect
import OffsProof.Shutdown
import OffsProof.StartupSettings

/-! # Staged settings

`offs config` stages a setting in the pending document; the next `_startup` gets it in its
configuration.  Flags and config file, on the other hand, end up in the arguments, and
`_startup` picks one or the other separately for every component.

A setting is in effect (`InEffect`) when the components run with it: the middleware checks
the staged hash, the pool has the staged number of workers, a server is made just if its
switch is on, listens on the staged port and has the staged certificate and key, and the sizes
that the block cache reads for itself reach it in the configuration.  A staged port of 0 stands
for no server, a staged worker count of 0 for one worker for each processor.

A server is judged by the create calls that `_startup` makes (`Creation.listener`).  The
settable fields know six kinds of them, and a seventh with TLS, but the daemon has create calls
for four only: there is no HTTPS server and no TCP transport, with or without TLS.  What is
staged for one of those is stored, passed on with the configuration and used by nothing, so
that only the settings that ask for no such server agree with what runs.

The components take the capacity of the cache and whatever they read from the configuration
from the document.  Workers, ports and switches come from the arguments, also where neither a
flag nor the file has set them, and the API key is drawn anew
(`staged_setting_in_effect_iff`).
-/
namespace Offs.Startup
open CText Daemon Teardown

/-! ## The settings of the pending document -/

/-- The paths among the settable fields that no component gets by itself. -/
inductive PathMember
  | httpsCertPath
  | httpsKeyPath
  | tcpTlsCertPath
  | tcpTlsKeyPath
  deriving DecidableEq, Repr

def PathMember.name : PathMember → Text
  | .httpsCertPath => lit "https_cert_path"
  | .httpsKeyPath => lit "https_key_path"
  | .tcpTlsCertPath => lit "tcp_tls_cert_path"
  | .tcpTlsKeyPath => lit "tcp_tls_key_path"

/-- The kinds of servers that the settable fields are about. -/
inductive Listener
  | http
  | https
  | unix
  | tcp
  /-- The TCP transport with TLS. -/
  | tcpTls
  | ws
  | wt
  deriving DecidableEq, Repr

/-- The server that a certificate or a key is for. -/
def PathMember.listener : PathMember → Listener
  | .httpsCertPath => .https
  | .httpsKeyPath => .https
  | .tcpTlsCertPath => .tcpTls
  | .tcpTlsKeyPath => .tcpTls

/-- A field that `offs config` documents as settable. -/
inductive Setting
  | apiKeyHash
  | cacheDir
  | maxCapacityBytes
  | path (m : PathMember)
  | flag (m : FlagMember)
  | number (m : NumberMember)
  deriving DecidableEq, Repr

/-- A string of the configuration, by the name of its member. -/
def Config.other {σ : Type} (c : Config σ) (name : Text) : Option σ := c.others.lookup name

/-- `cfg->cache_dir` -/
def Config.cacheDir {σ : Type} (c : Config σ) : Option σ := c.other (lit "cache_dir")

/-- The pending documents are configurations. -/
def configApi (merge : Option (Config Text) → Option Text → Config Text) :
    PendingApi (Config Text) :=
  ⟨Config.cacheDir, merge⟩

/-! ## Settings in effect -/

namespace Creation

def workers : Creation → Option Int
  | .schedulerPool count => some count
  | _ => none

def capacity : Creation → Option UInt64
  | .blockCache _ _ bytes => some bytes
  | _ => none

def location : Creation → Option (Option Text)
  | .blockCache _ dir _ => some dir
  | _ => none

/-- The kind of the server that a call makes. -/
def listener : Creation → Option Listener
  | .httpServer .. => some .http
  | .wsTransport .. => some .ws
  | .wtTransport .. => some .wt
  | .unixTransport .. => some .unix
  | _ => none

/-- The port of the server of a kind. -/
def port : Listener → Creation → Option UInt16
  | .http, .httpServer _ port => some port
  | .ws, .wsTransport _ port _ _ => some port
  | .wt, .wtTransport _ port _ _ _ _ => some port
  | _, _ => none

def certificate : Creation → Option Text
  | .wsTransport _ _ cert _ | .wtTransport _ _ cert _ _ _ | .webtransportH3 _ _ cert _ _ _ => cert
  | _ => none

def privateKey : Creation → Option Text
  | .wsTransport _ _ _ key | .wtTransport _ _ _ key _ _ | .webtransportH3 _ _ _ key _ _ => key
  | _ => none

def socketPath : Creation → Option Text
  | .unixTransport path _ => some path
  | _ => none

/-- A number of the configuration that the block cache gets. -/
def cacheNumber (m : NumberMember) : Creation → Option Nat
  | .blockCache config _ _ => some (config.number m)
  | _ => none

end Creation

/-- Where a create call has the text of a member. -/
def PathMember.read : PathMember → Creation → Option Text
  | .httpsCertPath => Creation.certificate
  | .httpsKeyPath => Creation.privateKey
  | .tcpTlsCertPath => Creation.certificate
  | .tcpTlsKeyPath => Creation.privateKey

/-- The servers of a kind listen on `port`, or there is none of it if that is 0. -/
def ListensOn (l : Listener) (made : List Creation) (port : Nat) : Prop :=
  (made.filterMap (Creation.port l)).map UInt16.toNat = if port = 0 then [] else [port]

/-- A server of the kind is made exactly if the switch is on. -/
def Switches (l : Listener) (made : List Creation) (on : Bool) : Prop :=
  some l ∈ made.map Creation.listener ↔ on = true

/-- A server of the kind that the member is for runs with the text. -/
def Presents (m : PathMember) (made : List Creation) (text : Text) : Prop :=
  ∃ call ∈ made, call.listener = some m.listener ∧ m.read call = some text

/-- The kind of server that a switch is for. -/
def FlagMember.listener : FlagMember → Listener
  | .httpEnabled => .http
  | .httpsEnabled => .https
  | .unixEnabled => .unix
  | .tcpEnabled => .tcp
  | .wsEnabled => .ws
  | .wtEnabled => .wt
  | .tcpTlsEnabled => .tcpTls

/-- **The components run with what the document says.**  A hash, a directory or a path that the
document leaves out asks for nothing; switches and numbers always have a value.  What a component
runs with is read off the create calls, and for the hash off the middleware, so that a value that
is only copied into the configuration is not in effect. -/
def InEffect (w : System) (doc : Config Text) (log : List Event) : Setting → Prop
  | .apiKeyHash => ∀ staged, doc.apiKeyHash = some staged → ∀ hash ∈ hashes log, hash = staged
  | .cacheDir => ∀ staged, doc.cacheDir = some staged →
      (calls log).filterMap Creation.location = [some staged]
  | .maxCapacityBytes => (calls log).filterMap Creation.capacity = [doc.maxCapacityBytes]
  | .path m => ∀ staged, doc.other m.name = some staged → Presents m (calls log) staged
  | .flag m => Switches m.listener (calls log) (doc.flag m)
  | .number .schedulerThreadCount => (calls log).filterMap Creation.workers =
      [if doc.number .schedulerThreadCount = 0 then getWorkerCount w
        else doc.number .schedulerThreadCount]
  | .number .httpPort => ListensOn .http (calls log) (doc.number .httpPort)
  | .number .httpsPort => ListensOn .https (calls log) (doc.number .httpsPort)
  | .number .tcpPort => ListensOn .tcp (calls log) (doc.number .tcpPort)
  | .number .wsPort => ListensOn .ws (calls log) (doc.number .wsPort)
  | .number .wtPort => ListensOn .wt (calls log) (doc.number .wtPort)
  -- `cache_size`, `max_snapshots` and `max_wals` are the block cache's to read.
  | .number m => (calls log).filterMap (Creation.cacheNumber m) = [doc.number m]

section Conditions
variable (argv : List Text) (root : CJson.Json)

/-- Neither the flag nor the file sets the port. -/
def PortUnset (f : PortField) : Prop :=
  lastValue (.port f) argv = none ∧ filePortNumber root f = none

/-- Neither the flag nor the file sets the text. -/
def TextUnset (f : TextField) : Prop := (lastValue (.text f) argv).or (fileText root f) = none

/-- Neither a flag nor the config file sets the option that a setting corresponds to.  A server
that is switched on or off by its port has the option of the port for both settings. -/
def Unset : Setting → Prop
  | .apiKeyHash => TextUnset argv root .apiKey
  | .cacheDir => TextUnset argv root .cacheDir
  | .maxCapacityBytes => lastValue .maxCapacityBytes argv = none ∧ fileCapacityNumber root = none
  | .flag .httpEnabled | .number .httpPort => PortUnset argv root .port
  | .flag .wsEnabled | .number .wsPort => PortUnset argv root .wsPort
  | .flag .wtEnabled | .number .wtPort => PortUnset argv root .wtPort
  | .flag .unixEnabled => TextUnset argv root .unixPath
  | .number .schedulerThreadCount => lastValue .workers argv = none ∧ fileWorkersNumber root = none
  -- The other fields have no option.
  | .path _ | .flag _ | .number _ => True

end Conditions

/-- **The document asks for what the daemon does anyway**, or for something that it takes
from the configuration.  `fresh` says whether this is the first start of the process.  Of an
HTTPS server or a TCP transport nothing but its absence is what the daemon does. -/
def Granted (w : System) (args : OffsdArgs) (env : Env) (fresh : Bool) (doc : Config Text) :
    Setting → Prop
  | .apiKeyHash => ∀ staged, doc.apiKeyHash = some staged →
      args.port .port = 0 ∨ env.ok .softAuth = false ∨ env.bcrypt env.randomKey = staged
  | .cacheDir => fresh ∨ ∀ staged, doc.cacheDir = some staged → args.text .cacheDir = some staged
  | .path m => doc.other m.name = none
  | .flag .httpEnabled => doc.flag .httpEnabled = true
  | .flag .unixEnabled => doc.flag .unixEnabled = true
  | .flag m => doc.flag m = false
  | .number .schedulerThreadCount => doc.number .schedulerThreadCount = 0 ∨
      (doc.number .schedulerThreadCount : Int) = getWorkerCount w
  | .number .httpPort => doc.number .httpPort = 23402
  | .number .httpsPort => doc.number .httpsPort = 0
  | .number .tcpPort => doc.number .tcpPort = 0
  | .number .wsPort => doc.number .wsPort = 0
  | .number .wtPort => doc.number .wtPort = 0
  | .maxCapacityBytes | .number _ => True

/-! ## Members that nothing sets -/

/-- What the first `_startup` gets for the options that neither a flag nor the file sets. -/
structure Untouched (w : System) (argv : List Text) (root : CJson.Json) (args : OffsdArgs) :
    Prop where
  port : ∀ f, PortUnset argv root f → args.port f = (defaultArgs none).port f
  workers : lastValue .workers argv = none → fileWorkersNumber root = none →
    args.workerCount = getWorkerCount w
  maxCapacityBytes : lastValue .maxCapacityBytes argv = none → fileCapacityNumber root = none →
    args.maxCapacityBytes = 0
  apiKey : TextUnset argv root .apiKey → args.text .apiKey = none
  unixPath : TextUnset argv root .unixPath → args.text .unixPath = some localSocketPath

theorem runOffsd_untouched {Doc : Type} {api : PendingApi Doc} {h : Host} {files : Files Doc}
    {argv : List Text} {st : Started Doc} (hrun : runOffsd api h files argv = .ok st) :
    Untouched (h.system files) argv (configDocument h files argv) st.args := by
  obtain ⟨-, parsed, hparsed, hs⟩ := runOffsd_ok hrun
  obtain ⟨flags, filled, hflags, hfilled, rfl⟩ := parseArgs_ok hparsed
  have hf := parseFlags_ok hflags
  rw [hf.text .configPath] at hfilled
  change Filled _ (configDocument h files argv) _ _ at hfilled
  obtain ⟨hport, -, -, hworkers, hcapacity, -⟩ := finishArgs_rest (h.system files) filled
  have htext : ∀ {f : TextField}, f ≠ .configPath → f ≠ .host →
      TextUnset argv (configDocument h files argv) f → filled.text f = none := by
    intro f hpath hhost hunset
    rw [hfilled.text, hf.text, defaultArgs_text hpath hhost, Option.or_none]
    exact hunset
  refine ⟨?_, ?_, ?_, ?_, ?_⟩
  · rintro f ⟨hlast, hfile⟩
    rw [hs.same.port, hport, hfilled.port, hf.port, hlast, filePort, hfile, Option.map_none,
      Option.map_none, fill_none]
    cases f <;> rfl
  · intro hlast hfile
    rw [hs.same.workerCount, hworkers, hfilled.workerCount, hf.workerCount, hlast, fileWorkers,
      hfile]
    exact effectiveWorkers_zero _
  · intro hlast hfile
    rw [hs.same.maxCapacityBytes, hcapacity, hfilled.maxCapacityBytes, hf.maxCapacityBytes, hlast,
      fileCapacity, hfile]
    rfl
  · intro hunset
    rw [hs.same.text _ (by decide) (by decide), finishArgs_text_of_ne _ _ (by decide)]
    exact htext (by decide) (by decide) hunset
  · intro hunset
    rw [hs.same.text _ (by decide) (by decide)]
    have hnone := htext (by decide) (by decide) hunset
    unfold finishArgs
    dsimp only
    rw [if_pos hnone]
    simp [OffsdArgs.setText]

theorem Untouched.of_same {w : System} {argv : List Text} {root : CJson.Json}
    {args args' : OffsdArgs} (h : Untouched w argv root args) (hsame : SameButCerts args args') :
    Untouched w argv root args' where
  port f hunset := by rw [hsame.port, h.port f hunset]
  workers hlast hfile := hsame.workerCount.trans (h.workers hlast hfile)
  maxCapacityBytes hlast hfile := hsame.maxCapacityBytes.trans (h.maxCapacityBytes hlast hfile)
  apiKey hunset := (hsame.text _ (by decide) (by decide)).trans (h.apiKey hunset)
  unixPath hunset := (hsame.text _ (by decide) (by decide)).trans (h.unixPath hunset)

/-! ## What the create calls say -/

section Made
variable {env : Env} {args : OffsdArgs} {doc : Config Text}

theorem filterMap_unchecked {α : Type} (read : Creation → Option α) (call : Creation) :
    (unchecked env call).filterMap read =
      if env.ok (.create call.component) then (read call).toList else [] := by
  unfold unchecked
  split
  · cases hread : read call <;> simp [hread]
  · rfl

theorem filterMap_optional {α : Type} (read : Creation → Option α) (enabled : Bool)
    (call : Creation) :
    (optional enabled call).filterMap read = if enabled then (read call).toList else [] := by
  unfold optional
  split
  · cases hread : read call <;> simp [hread]
  · rfl

/-- What a reader that passes over the unchecked calls finds. -/
theorem filterMap_madeBy {α : Type} {override : Option (Config Text)}
    (read : Creation → Option α) (htimer : read .timerActor = none)
    (hofd : read (.ofdCache 300000) = none) (htuple : read (.tupleCache 100) = none)
    (hactor : read .updateActor = none) :
    (madeBy env args override).filterMap read =
      (read (.schedulerPool args.workerCount)).toList ++
      (read (.authority (startConfig env args override))).toList ++
      (read (.blockCache (startConfig env args override) (args.text .cacheDir)
        (startConfig env args override).maxCapacityBytes)).toList ++
      (httpCall args).filterMap read ++ (read (.network (startConfig env args override))).toList ++
      (wsCall args).filterMap read ++ (wtCall args).filterMap read ++
      (wtH3Call args).filterMap read ++ (unixCall args).filterMap read := by
  have hone : ∀ call, [call].filterMap read = (read call).toList := by
    intro call
    cases hread : read call <;> simp [hread]
  simp only [madeBy, madeForStore, madeForNode, List.filterMap_append, filterMap_unchecked, htimer,
    hofd, htuple, hactor, Option.toList_none, ite_self, List.append_nil, List.nil_append,
    List.filterMap_cons, List.append_assoc, hone]
  cases read (.authority (startConfig env args override)) <;>
    cases read (.blockCache (startConfig env args override) (args.text .cacheDir)
      (startConfig env args override).maxCapacityBytes) <;> simp

theorem madeBy_workers :
    (madeBy env args (some doc)).filterMap Creation.workers = [args.workerCount] := by
  rw [filterMap_madeBy _ rfl rfl rfl rfl]
  simp [httpCall, wsCall, wtCall, wtH3Call, unixCall, filterMap_optional, Creation.workers]

theorem madeBy_location :
    (madeBy env args (some doc)).filterMap Creation.location = [args.text .cacheDir] := by
  rw [filterMap_madeBy _ rfl rfl rfl rfl]
  simp [httpCall, wsCall, wtCall, wtH3Call, unixCall, filterMap_optional, Creation.location]

theorem madeBy_capacity : (madeBy env args (some doc)).filterMap Creation.capacity =
    [if args.maxCapacityBytes > 0 then args.maxCapacityBytes else doc.maxCapacityBytes] := by
  rw [filterMap_madeBy _ rfl rfl rfl rfl]
  simp [httpCall, wsCall, wtCall, wtH3Call, unixCall, filterMap_optional, Creation.capacity,
    startConfig, applyArgs, takenConfig, Config.map]

theorem madeBy_cacheNumber (m : NumberMember) :
    (madeBy env args (some doc)).filterMap (Creation.cacheNumber m) = [doc.number m] := by
  rw [filterMap_madeBy _ rfl rfl rfl rfl]
  simp [httpCall, wsCall, wtCall, wtH3Call, unixCall, filterMap_optional, Creation.cacheNumber,
    startConfig, applyArgs, takenConfig, Config.map]

theorem madeBy_httpPort : (madeBy env args (some doc)).filterMap (Creation.port .http) =
    if args.port .port != 0 then [args.port .port] else [] := by
  rw [filterMap_madeBy _ rfl rfl rfl rfl]
  simp [httpCall, wsCall, wtCall, wtH3Call, unixCall, filterMap_optional, Creation.port]

theorem madeBy_wsPort : (madeBy env args (some doc)).filterMap (Creation.port .ws) =
    if args.port .wsPort != 0 then [args.port .wsPort] else [] := by
  rw [filterMap_madeBy _ rfl rfl rfl rfl]
  simp [httpCall, wsCall, wtCall, wtH3Call, unixCall, filterMap_optional, Creation.port]

theorem madeBy_wtPort : (madeBy env args (some doc)).filterMap (Creation.port .wt) =
    if args.port .wtPort != 0 then [args.port .wtPort] else [] := by
  rw [filterMap_madeBy _ rfl rfl rfl rfl]
  simp [httpCall, wsCall, wtCall, wtH3Call, unixCall, filterMap_optional, Creation.port]

theorem madeBy_socketPath : (madeBy env args (some doc)).filterMap Creation.socketPath =
    (args.text .unixPath).toList := by
  rw [filterMap_madeBy _ rfl rfl rfl rfl]
  cases hunix : args.text .unixPath <;>
    simp [httpCall, wsCall, wtCall, wtH3Call, unixCall, filterMap_optional, Creation.socketPath,
      hunix]

theorem Creation.isSome_httpPort (call : Creation) :
    (call.port .http).isSome ↔ call.listener = some .http := by
  cases call <;> simp [Creation.port, Creation.listener]

theorem Creation.isSome_wsPort (call : Creation) :
    (call.port .ws).isSome ↔ call.listener = some .ws := by
  cases call <;> simp [Creation.port, Creation.listener]

theorem Creation.isSome_wtPort (call : Creation) :
    (call.port .wt).isSome ↔ call.listener = some .wt := by
  cases call <;> simp [Creation.port, Creation.listener]

theorem Creation.isSome_socketPath (call : Creation) :
    call.socketPath.isSome ↔ call.listener = some .unix := by
  cases call <;> simp [Creation.socketPath, Creation.listener]

/-- A server is made exactly if a reader of its create call finds something. -/
theorem mem_listener_iff {α : Type} {l : Listener} {read : Creation → Option α}
    (hread : ∀ call, (read call).isSome ↔ call.listener = some l) (made : List Creation) :
    some l ∈ made.map Creation.listener ↔ made.filterMap read ≠ [] := by
  constructor
  · intro hmem hnil
    obtain ⟨call, hcall, hl⟩ := List.mem_map.mp hmem
    have hnone := List.filterMap_eq_nil_iff.mp hnil call hcall
    have hsome := (hread call).mpr hl
    rw [hnone] at hsome
    cases hsome
  · intro hne
    obtain ⟨x, hx⟩ := List.exists_mem_of_ne_nil _ hne
    obtain ⟨call, hcall, hx⟩ := List.mem_filterMap.mp hx
    refine List.mem_map.mpr ⟨call, hcall, (hread call).mp ?_⟩
    rw [hx]
    rfl

/-! ## Servers that are never made -/

/-- The kinds of servers without a create call. -/
def Listener.Missing (l : Listener) : Prop := l = .https ∨ l = .tcp ∨ l = .tcpTls

theorem Creation.listener_ne_missing {l : Listener} (h : l.Missing) (call : Creation) :
    call.listener ≠ some l := by
  rcases h with rfl | rfl | rfl <;> cases call <;> simp [Creation.listener]

/-- The switch of such a server has to be off. -/
theorem switches_missing_iff {l : Listener} (h : l.Missing) (made : List Creation)
    (staged : Bool) : Switches l made staged ↔ staged = false := by
  have hnone : some l ∉ made.map Creation.listener := by
    rintro hmem
    obtain ⟨call, -, hl⟩ := List.mem_map.mp hmem
    exact Creation.listener_ne_missing h call hl
  unfold Switches
  cases staged <;> simp [hnone]

/-- Its port has to be 0. -/
theorem listensOn_missing_iff {l : Listener} (h : l.Missing) (made : List Creation)
    (staged : Nat) : ListensOn l made staged ↔ staged = 0 := by
  have hnone : made.filterMap (Creation.port l) = [] := by
    refine List.filterMap_eq_nil_iff.mpr fun call _ => ?_
    rcases h with rfl | rfl | rfl <;> cases call <;> rfl
  unfold ListensOn
  rw [hnone]
  by_cases hzero : staged = 0 <;> simp [hzero]

/-- And nothing presents a certificate or key for it. -/
theorem not_presents (m : PathMember) (made : List Creation) (text : Text) :
    ¬Presents m made text := by
  rintro ⟨call, -, hl, -⟩
  have hmissing : m.listener.Missing := by
    cases m <;> simp [PathMember.listener, Listener.Missing]
  exact Creation.listener_ne_missing hmissing call hl

/-! ## Servers that are made unless something is 0 or missing -/

/-- A server that listens unless its port is 0 listens on that port. -/
theorem listensOn_iff {l : Listener} {made : List Creation} {port : UInt16}
    (hmade : made.filterMap (Creation.port l) = if port != 0 then [port] else []) (staged : Nat) :
    ListensOn l made staged ↔ staged = port.toNat := by
  have hzero : port = 0 ↔ port.toNat = 0 := by
    rw [← UInt16.toNat_inj]
    rfl
  unfold ListensOn
  rw [hmade]
  by_cases hport : port = 0
  · by_cases hstaged : staged = 0 <;> simp [hport, hstaged]
  · have hne : port.toNat ≠ 0 := fun h => hport (hzero.mpr h)
    by_cases hstaged : staged = 0
    · simp [hport, hstaged, hne.symm]
    · rw [if_pos (by simpa using hport), if_neg hstaged, List.map_singleton, List.singleton_inj]
      exact eq_comm

theorem switches_iff {α : Type} {l : Listener} {read : Creation → Option α}
    {made : List Creation} (hread : ∀ call, (read call).isSome ↔ call.listener = some l)
    {on : Bool} (hmade : made.filterMap read ≠ [] ↔ on = true) (staged : Bool) :
    Switches l made staged ↔ staged = on := by
  unfold Switches
  rw [mem_listener_iff hread, hmade]
  cases on <;> cases staged <;> simp

end Made

/-! ## One start -/

section OneStart
variable {w : System} {argv : List Text} {root : CJson.Json} {env : Env} {args : OffsdArgs}
  {doc : Config Text} {s : Server} {fresh : Bool}

theorem apiKeyHash_iff_granted (hhashes : hashes s.log = checkedBy env args)
    (hkey : args.text .apiKey = none) :
    InEffect w doc s.log .apiKeyHash ↔ Granted w args env fresh doc .apiKeyHash := by
  have hrandom : startKey env args = env.randomKey := by
    rw [startKey, hkey]
    rfl
  simp only [InEffect, Granted, hhashes, checkedBy, hrandom]
  refine forall₂_congr fun staged _ => ?_
  by_cases hport : args.port .port = 0
  · simp [hport]
  · by_cases hok : env.ok .softAuth <;> simp [hport, hok]

theorem cacheDir_iff_granted (hcalls : calls s.log = madeBy env args (some doc))
    (hfresh : fresh = true →
      ∀ staged, doc.cacheDir = some staged → args.text .cacheDir = some staged) :
    InEffect w doc s.log .cacheDir ↔ Granted w args env fresh doc .cacheDir := by
  simp only [InEffect, Granted, hcalls, madeBy_location, List.singleton_inj]
  constructor
  · exact .inr
  · rintro (hfirst | hsame)
    · exact hfresh hfirst
    · exact hsame

/-- No component has a use for a path, so that none may be staged. -/
theorem path_iff_granted (m : PathMember) :
    InEffect w doc s.log (.path m) ↔ Granted w args env fresh doc (.path m) := by
  simp only [InEffect, Granted, not_presents, imp_false]
  exact Option.eq_none_iff_forall_ne_some.symm

theorem flag_iff_granted (hcalls : calls s.log = madeBy env args (some doc))
    (hargs : Untouched w argv root args) (m : FlagMember) (hunset : Unset argv root (.flag m)) :
    InEffect w doc s.log (.flag m) ↔ Granted w args env fresh doc (.flag m) := by
  cases m with
  | httpEnabled =>
    refine switches_iff Creation.isSome_httpPort ?_ _
    rw [hcalls, madeBy_httpPort, hargs.port _ hunset]
    simp [defaultArgs]
  | unixEnabled =>
    refine switches_iff Creation.isSome_socketPath ?_ _
    rw [hcalls, madeBy_socketPath, hargs.unixPath hunset]
    simp
  | wsEnabled =>
    refine switches_iff Creation.isSome_wsPort ?_ _
    rw [hcalls, madeBy_wsPort, hargs.port _ hunset]
    simp [defaultArgs]
  | wtEnabled =>
    refine switches_iff Creation.isSome_wtPort ?_ _
    rw [hcalls, madeBy_wtPort, hargs.port _ hunset]
    simp [defaultArgs]
  | httpsEnabled => exact switches_missing_iff (.inl rfl) _ _
  | tcpEnabled => exact switches_missing_iff (.inr (.inl rfl)) _ _
  | tcpTlsEnabled => exact switches_missing_iff (.inr (.inr rfl)) _ _

theorem number_iff_granted (hcalls : calls s.log = madeBy env args (some doc))
    (hargs : Untouched w argv root args) (m : NumberMember)
    (hunset : Unset argv root (.number m)) :
    InEffect w doc s.log (.number m) ↔ Granted w args env fresh doc (.number m) := by
  cases m with
  | schedulerThreadCount =>
    simp only [InEffect, Granted, hcalls, madeBy_workers, List.singleton_inj,
      hargs.workers hunset.1 hunset.2]
    by_cases hzero : doc.number .schedulerThreadCount = 0
    · simp [hzero]
    · simp [hzero, eq_comm]
  | httpPort =>
    refine (listensOn_iff (hcalls ▸ madeBy_httpPort) _).trans ?_
    rw [hargs.port _ hunset]
    rfl
  | wsPort =>
    refine (listensOn_iff (hcalls ▸ madeBy_wsPort) _).trans ?_
    rw [hargs.port _ hunset]
    rfl
  | wtPort =>
    refine (listensOn_iff (hcalls ▸ madeBy_wtPort) _).trans ?_
    rw [hargs.port _ hunset]
    rfl
  | httpsPort => exact listensOn_missing_iff (.inl rfl) _ _
  | tcpPort => exact listensOn_missing_iff (.inr (.inl rfl)) _ _
  | cacheSize | maxSnapshots | maxWals =>
    simp only [InEffect, Granted, hcalls, madeBy_cacheNumber]

/-- One start, over the arguments of its cycle. -/
theorem inEffect_iff_granted (hstart : startup env args (some doc) = .ok s)
    (hargs : Untouched w argv root args)
    (hfresh : fresh = true → TextUnset argv root .cacheDir →
      ∀ staged, doc.cacheDir = some staged → args.text .cacheDir = some staged)
    {f : Setting} (hunset : Unset argv root f) :
    InEffect w doc s.log f ↔ Granted w args env fresh doc f := by
  have hshows := startup_shows hstart
  have hcalls := hshows.calls_eq
  cases f with
  | apiKeyHash => exact apiKeyHash_iff_granted hshows.hashes_eq (hargs.apiKey hunset)
  | cacheDir => exact cacheDir_iff_granted hcalls fun hfirst => hfresh hfirst hunset
  | maxCapacityBytes =>
    simp only [InEffect, Granted, hcalls, madeBy_capacity, hargs.maxCapacityBytes hunset.1 hunset.2]
    simp
  | path m => exact path_iff_granted m
  | flag m => exact flag_iff_granted hcalls hargs m hunset
  | number m => exact number_iff_granted hcalls hargs m hunset

end OneStart

/-! ## Every cycle -/

theorem runCycles_length_le (args : OffsdArgs) (cycles : List Cycle) :
    (runCycles args cycles).length ≤ cycles.length := by
  induction cycles generalizing args with
  | nil => exact Nat.le_refl 0
  | cons cycle rest ih =>
    unfold runCycles
    split
    · split
      · simp
      · rename_i s _
        have hrest := ih s.args
        split
        · rw [List.length_cons, List.length_cons]
          omega
        · simp
    · simp

/-- The arguments of every cycle are those of the first, but for the certificate paths. -/
theorem runCycles_startup {args : OffsdArgs} {cycles : List Cycle} {i : Nat} {cycle : Cycle}
    {s : Server} {reload : Bool} (hcycle : cycles[i]? = some cycle)
    (hserved : (runCycles args cycles)[i]? = some (.served s reload)) :
    ∃ args', SameButCerts args args' ∧ startup cycle.env args' cycle.override = .ok s := by
  induction cycles generalizing args i with
  | nil => simp at hcycle
  | cons first rest ih =>
    unfold runCycles at hserved
    split at hserved
    · split at hserved
      · cases i <;> simp at hserved
      · rename_i s' hs'
        cases i with
        | zero =>
          simp only [List.getElem?_cons_zero, Option.some.injEq] at hcycle hserved
          subst hcycle
          cases hserved
          exact ⟨args, .refl args, hs'⟩
        | succ i =>
          simp only [List.getElem?_cons_succ] at hcycle hserved
          split at hserved
          · obtain ⟨args', hsame, hstart⟩ := ih hcycle hserved
            exact ⟨args', (startup_shows hs').sameArgs.trans hsame, hstart⟩
          · simp at hserved
    · cases i <;> simp at hserved

/-- A first start whose cache directory nothing sets takes the staged one. -/
theorem fresh_cacheDir {merge : Option (Config Text) → Option Text → Config Text} {h : Host}
    {files : Files (Config Text)} {argv : List Text} {st : Started (Config Text)}
    (hrun : runOffsd (configApi merge) h files argv = .ok st)
    (hunset : TextUnset argv (configDocument h files argv) .cacheDir) {doc : Config Text}
    (hdoc : st.cfg = some doc) {staged : Text} (hstaged : doc.cacheDir = some staged) :
    st.args.text .cacheDir = some staged := by
  obtain ⟨-, parsed, hparsed, hs⟩ := runOffsd_ok hrun
  have hnone : parsed.text .cacheDir = none := (parsed_configured hparsed).1.trans hunset
  rw [hs.cacheDir, hnone, hdoc]
  show ((none : Option Text).or doc.cacheDir).or _ = _
  rw [hstaged]
  rfl

theorem granted_of_same {w : System} {args args' : OffsdArgs} {env : Env} {fresh : Bool}
    {doc : Config Text} (hsame : SameButCerts args args') (f : Setting) :
    Granted w args' env fresh doc f ↔ Granted w args env fresh doc f := by
  have hport : args'.port .port = args.port .port := by rw [hsame.port]
  have hdir : args'.text .cacheDir = args.text .cacheDir := hsame.text _ (by decide) (by decide)
  cases f with
  | apiKeyHash => simp only [Granted, hport]
  | cacheDir => simp only [Granted, hdir]
  | flag m => cases m <;> rfl
  | number m => cases m <;> rfl
  | maxCapacityBytes | path => rfl

/-- **A staged setting takes effect exactly if the daemon would have run with it anyway or
takes it from the configuration.**  For every machine, argument vector, config file and
pending document, in every cycle of every run: where neither a flag nor the file sets the
option, the components run with the staged value if and only if it is `Granted`. -/
theorem staged_setting_in_effect_iff
    {merge : Option (Config Text) → Option Text → Config Text} {h : Host}
    {files : Files (Config Text)} {argv : List Text} {st : Started (Config Text)}
    (hrun : runOffsd (configApi merge) h files argv = .ok st) {cycles : List Cycle}
    (hfirst : ∀ first, cycles.head? = some first → first.override = st.cfg) {i : Nat}
    {cycle : Cycle} (hcycle : cycles[i]? = some cycle) {doc : Config Text}
    (hdoc : cycle.override = some doc) {s : Server} {reload : Bool}
    (hserved : (runCycles st.args cycles)[i]? = some (.served s reload)) {f : Setting}
    (hunset : Unset argv (configDocument h files argv) f) :
    InEffect (h.system files) doc s.log f ↔
      Granted (h.system files) st.args cycle.env (i == 0) doc f := by
  obtain ⟨args', hsame, hstart⟩ := runCycles_startup hcycle hserved
  rw [hdoc] at hstart
  rw [← granted_of_same hsame]
  refine inEffect_iff_granted hstart ((runOffsd_untouched hrun).of_same hsame) ?_ hunset
  intro hzero hcache staged hstaged
  -- The first cycle gets the document that `_run_offsd` has read before.
  obtain rfl : i = 0 := by simpa using hzero
  have hcfg : st.cfg = some doc := by
    rw [← hdoc, hfirst cycle (by rw [List.head?_eq_getElem?, hcycle])]
  rw [hsame.text _ (by decide) (by decide)]
  exact fresh_cacheDir hrun hcache hcfg hstaged

/-- A document that stages the size of the cache and the port of the HTTP server. -/
def portDoc : Config Text :=
  { Config.zero with
    number
      | .cacheSize => 50
      | .httpPort => 8080
      | _ => 0 }

/-- A machine without a config file, where `doc` is staged. -/
def stagedFiles (doc : Config Text) : Files (Config Text) where
  entry _ := ⟨false, .unopened⟩
  pending place :=
    if place = components (lit "/etc/offs/pending_config.json") then some doc else none

/-- One cycle, from that document. -/
def stagedCycle : Cycle := ⟨true, soundEnv, some portDoc, false⟩

/-- The staged size of the cache reaches the components. -/
theorem staged_setting_in_effect_iff_cacheSize :
    ∃ st s, runOffsd (configApi fun _ _ => portDoc) plainHost (stagedFiles portDoc) [] = .ok st ∧
      (runCycles st.args [stagedCycle])[0]? = some (.served s false) ∧
      InEffect (plainHost.system (stagedFiles portDoc)) portDoc s.log (.number .cacheSize) := by
  obtain ⟨st, s, hrun, hcfg, hserved⟩ : ∃ st s, runOffsd (configApi fun _ _ => portDoc) plainHost
      (stagedFiles portDoc) [] = .ok st ∧ st.cfg = some portDoc ∧
      (runCycles st.args [stagedCycle])[0]? = some (.served s false) := ⟨_, _, rfl, rfl, rfl⟩
  have hfirst : ∀ first, [stagedCycle].head? = some first → first.override = st.cfg := by
    rintro first ⟨⟩
    exact hcfg.symm
  have hunset : Unset [] (configDocument plainHost (stagedFiles portDoc) [])
      (.number .cacheSize) := trivial
  exact ⟨st, s, hrun, hserved,
    (staged_setting_in_effect_iff hrun hfirst rfl rfl hserved hunset).mpr trivial⟩

/-- **A staged port is ignored**: without flags and config file, the HTTP server listens on
23402. -/
theorem staged_http_port_ignored :
    ∃ st s, runOffsd (configApi fun _ _ => portDoc) plainHost (stagedFiles portDoc) [] = .ok st ∧
      st.cfg = some portDoc ∧ (runCycles st.args [stagedCycle])[0]? = some (.served s false) ∧
      Unset [] (configDocument plainHost (stagedFiles portDoc) []) (.number .httpPort) ∧
      (calls s.log).filterMap (Creation.port .http) = [23402] ∧
      ¬ InEffect (plainHost.system (stagedFiles portDoc)) portDoc s.log (.number .httpPort) := by
  refine ⟨_, _, rfl, rfl, rfl, ⟨rfl, rfl⟩, rfl, ?_⟩
  intro h
  have hports : [23402] = [8080] := h
  exact absurd hports (by decide)

end Offs.Startup
