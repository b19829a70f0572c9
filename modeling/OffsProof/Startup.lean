import OffsProof.DaemonArgs
import OffsProof.Teardown

/-! # Starting the components

`_startup` creates the components of the daemon in a fixed order and leaves by one of some twenty
hand-written failure paths.  Every call of liboffs it makes is recorded, with the component
pointers that are passed to it, in a log.

What liboffs and the allocator answer comes from an oracle (`Env`): whether a step succeeds
(`ok`) and what it gives.  Three create calls are unchecked, the timer, the OFD cache and the
tuple cache; their pointers stay NULL if they fail.  A destroy call on NULL does nothing, which
the failure path of the authority relies on.

`config_t` is the part that `_startup` reads or replaces, with the strings it owns and the
settings that `offs config` can stage.  The plaintext API key, freed on every path, the update
actor's own settings and the notices printed on success are left out.

The function is cut into parts in the order of the source, each of which goes on with the server
or is aborted at a step with the log of what its failure path has done.  A property of all of
`_startup` is proved part by part and put together with the rule for a chain (`Teardown.Ends`):
what is cleaned up after a failure, what a shutdown finds, and which settings have been passed
on are three such properties, in the modules that follow.
-/
namespace Offs.Startup
open CText Daemon

/-! ## Components and configuration -/

inductive Component
  | pool
  | timer
  | authority
  | blockCache
  | ofdCache
  | tupleCache
  | httpServer
  | network
  | wsTransport
  | wtTransport
  | wtH3Transport
  | unixTransport
  | updateActor
  deriving DecidableEq, Repr

/-- The `char*` members of `config_t`. -/
inductive Member
  | bootstrapPeers
  | apiKeyHash
  | other (name : Text)
  deriving DecidableEq, Repr

/-- The numbers of `config_t` that `_startup` only passes on. -/
inductive NumberMember
  | cacheSize
  | maxSnapshots
  | maxWals
  | schedulerThreadCount
  | httpPort
  | httpsPort
  | tcpPort
  | wsPort
  | wtPort
  deriving DecidableEq, Repr

/-- The switches of `config_t`, all of which it only passes on. -/
inductive FlagMember
  | httpEnabled
  | httpsEnabled
  | unixEnabled
  | tcpEnabled
  | wsEnabled
  | wtEnabled
  | tcpTlsEnabled
  deriving DecidableEq, Repr

/-- `config_t`, with its strings in `σ`. -/
structure Config (σ : Type) where
  bootstrapPeers : Option σ
  apiKeyHash : Option σ
  /-- The other strings it owns, by the names of their members. -/
  others : List (Text × σ)
  maxCapacityBytes : UInt64
  period : PeriodField → UInt32
  httpIdleTimeoutMs : Nat
  httpHardTimeoutMs : Nat
  number : NumberMember → Nat
  flag : FlagMember → Bool

/-- Who allocated a string of the server's configuration. -/
inductive Origin
  | override
  | startup
  deriving DecidableEq, Repr

structure Pointer where
  origin : Origin
  text : Text
  deriving DecidableEq, Repr

namespace Config
variable {σ τ : Type}

/-- The members that are not NULL: what `config_free_members` frees. -/
def strings (c : Config σ) : List (Member × σ) :=
  c.bootstrapPeers.toList.map (fun p => (.bootstrapPeers, p)) ++
    c.apiKeyHash.toList.map (fun p => (.apiKeyHash, p)) ++
    c.others.map fun p => (.other p.1, p.2)

def map (f : σ → τ) (c : Config σ) : Config τ where
  bootstrapPeers := c.bootstrapPeers.map f
  apiKeyHash := c.apiKeyHash.map f
  others := c.others.map fun p => (p.1, f p.2)
  maxCapacityBytes := c.maxCapacityBytes
  period := c.period
  httpIdleTimeoutMs := c.httpIdleTimeoutMs
  httpHardTimeoutMs := c.httpHardTimeoutMs
  number := c.number
  flag := c.flag

/-- A zeroed `config_t`. -/
def zero : Config σ := ⟨none, none, [], 0, fun _ => 0, 0, 0, fun _ => 0, fun _ => false⟩

end Config

/-! ## What a start asks and what it does -/

/-- A step whose failure ends the start, or whose result may be NULL. -/
inductive Step
  | cacheDir
  | configDir
  | create (c : Component)
  | bootstrapPeers
  | apiKey
  | randomKey
  | bcrypt
  | apiKeyHash
  | caCert
  | nodeCert
  | nodeKey
  | softAuth
  deriving DecidableEq, Repr

structure Env where
  ok : Step → Bool
  /-- `access(path, F_OK) == 0` -/
  access : Text → Bool
  /-- `path_join` -/
  pathJoin : Text → Text → Option Text
  /-- `_generate_random_api_key` -/
  randomKey : Text
  /-- `bcrypt_generate`, at cost 12. -/
  bcrypt : Text → Text
  /-- `config_default` -/
  configDefault : Config Text

/-- A create call with the values passed to it. -/
inductive Creation
  | schedulerPool (workerCount : Int)
  | timerActor
  | authority (config : Config Pointer)
  | blockCache (config : Config Pointer) (cacheDir : Option Text) (maxCapacityBytes : UInt64)
  | ofdCache (ttlMs : Nat)
  | tupleCache (size : Nat)
  | httpServer (host : Option Text) (port : UInt16)
  | network (config : Config Pointer)
  | wsTransport (host : Option Text) (port : UInt16) (cert key : Option Text)
  | wtTransport (host : Option Text) (port : UInt16) (cert key caCert : Option Text)
      (allowSecure : Bool)
  | webtransportH3 (host : Option Text) (port : UInt16) (cert key caCert : Option Text)
      (allowSecure : Bool)
  | unixTransport (path : Text) (mode : Nat)
  | updateActor

def Creation.component : Creation → Component
  | .schedulerPool .. => .pool
  | .timerActor => .timer
  | .authority .. => .authority
  | .blockCache .. => .blockCache
  | .ofdCache .. => .ofdCache
  | .tupleCache .. => .tupleCache
  | .httpServer .. => .httpServer
  | .network .. => .network
  | .wsTransport .. => .wsTransport
  | .wtTransport .. => .wtTransport
  | .webtransportH3 .. => .wtH3Transport
  | .unixTransport .. => .unixTransport
  | .updateActor => .updateActor

/-- What is done to the components and to the configuration. -/
inductive Event
  /-- A create call that did not return NULL, and the components it was given. -/
  | create (call : Creation) (given : List Component)
  /-- A component is handed others after its creation. -/
  | lend (c : Component) (given : List Component)
  | destroy (c : Component)
  | startPool
  | stopPool
  | updateCapacity
  | savePeers
  | generateCert (cert key : Text)
  | seedBootstrap (peers : Text)
  /-- `http_server_set_timeouts` -/
  | setTimeouts (idleMs hardMs : Nat)
  /-- The soft-auth middleware checks keys against `hash`. -/
  | useSoftAuth (hash : Text)
  /-- `free` of a string of the configuration. -/
  | free (m : Member) (p : Pointer)
  /-- `free(override_config)` -/
  | freeShell

/-- `offsd_server_t`, the arguments and the log. -/
structure Server where
  args : OffsdArgs
  config : Config Pointer
  /-- The component pointers that are not NULL. -/
  alive : Component → Bool
  /-- `authority->node_cert_path` and `authority->node_key_path` -/
  nodeCertPath : Option Text
  nodeKeyPath : Option Text
  log : List Event

/-- A start that returned -1: the step it failed at, and the server it leaves. -/
structure Aborted where
  step : Step
  server : Server

/-- What a start that failed prints to stderr. -/
def Aborted.message (a : Aborted) : Text :=
  let args := a.server.args
  let text := fun f => (args.text f).getD (lit "(null)")
  let address := fun f => text .host ++ lit ":" ++ decimal (args.port f).toNat
  match a.step with
  | .cacheDir => lit "Failed to create cache directory: " ++ text .cacheDir
  | .configDir => lit "Failed to create data directory: " ++ text .configDir
  | .create .pool => lit "Failed to create scheduler pool"
  | .bootstrapPeers => lit "Out of memory copying bootstrap_peers"
  | .apiKey => lit "Out of memory copying api_key"
  | .randomKey => lit "Failed to generate random API key"
  | .bcrypt => lit "Failed to hash API key"
  | .apiKeyHash => lit "Out of memory storing api_key_hash"
  | .create .authority => lit "Failed to create authority"
  | .create .blockCache => lit "Failed to create block cache"
  | .create .httpServer => lit "Failed to create HTTP server on " ++ address .port
  | .caCert => lit "Failed to load CA certificate: " ++ text .caCertPath
  | .nodeCert => lit "Out of memory copying node-cert path"
  | .nodeKey => lit "Out of memory copying node-key path"
  | .create .network => lit "Failed to create network"
  | .create .wsTransport => lit "Failed to create WebSocket transport on " ++ address .wsPort
  | .create .wtTransport => lit "Failed to create WebTransport transport on " ++ address .wtPort
  | .create .wtH3Transport =>
    lit "Failed to create WebTransport H3 transport on " ++ address .wtH3Port
  | .create .unixTransport => lit "Failed to create Unix transport on " ++ text .unixPath
  -- These results are not checked.
  | .create .timer | .create .ofdCache | .create .tupleCache | .create .updateActor | .softAuth => []

namespace Server

def emit (s : Server) (events : List Event) : Server := { s with log := s.log ++ events }

/-- A component more, given those of `given` that are not NULL. -/
def add (s : Server) (call : Creation) (given : List Component) : Server :=
  { s with
    alive := Function.update s.alive call.component true
    log := s.log ++ [.create call (given.filter s.alive)] }

/-- A create call. -/
def create (env : Env) (s : Server) (call : Creation) (given : List Component) : Option Server :=
  if env.ok (.create call.component) then some (s.add call given) else none

/-- An unchecked create call. -/
def createUnchecked (env : Env) (s : Server) (call : Creation) (given : List Component) : Server :=
  (s.create env call given).getD s

/-- Hand a component pointers after its creation. -/
def lend (s : Server) (c : Component) (given : List Component) : Server :=
  s.emit [.lend c (given.filter s.alive)]

/-- Whether a call of a failure path does anything. -/
def effective (s : Server) : Event → Bool
  | .destroy c => s.alive c
  | _ => true

/-- Leave with -1, after the calls of a failure path. -/
def abort (s : Server) (step : Step) (calls : List Event) : Aborted :=
  ⟨step, s.emit (calls.filter s.effective)⟩

/-- `free` of a member of the configuration, which may be NULL. -/
def freeMember (s : Server) (m : Member) (p : Option Pointer) : Server :=
  s.emit (p.toList.map (.free m))

end Server

/-- `config_free_members` and `free` on the override, if there is one. -/
def releaseOverride : Option (Config Text) → List Event
  | none => []
  | some c => c.strings.map (fun p => .free p.1 ⟨.override, p.2⟩) ++ [.freeShell]

/-- The end of every failure path that has a pool. -/
def timerAndPool : List Event := [.destroy .timer, .stopPool, .destroy .pool]

/-! ## `_startup`, part by part -/

section Parts
variable (env : Env)

/-- Make a state directory, if it is set. -/
def ensureDir (f : TextField) (step : Step) (override : Option (Config Text)) (s : Server) :
    Except Aborted Server :=
  if (s.args.text f).isSome ∧ env.ok step = false then
    .error (s.abort step (releaseOverride override))
  else .ok s

/-- The scheduler pool, started. -/
def createPool (override : Option (Config Text)) (s : Server) : Except Aborted Server :=
  match s.create env (.schedulerPool s.args.workerCount) [] with
  | none => .error (s.abort (.create .pool) (releaseOverride override))
  | some s => .ok (s.emit [.startPool])

/-- The configuration `_startup` begins with: the override's own strings, or defaults. -/
def takenConfig : Option (Config Text) → Config Pointer
  | some c => c.map (Pointer.mk .override)
  | none => env.configDefault.map (Pointer.mk .startup)

/-- The members that a nonzero argument replaces. -/
def applyArgs (args : OffsdArgs) (c : Config Pointer) : Config Pointer :=
  { c with
    maxCapacityBytes := if args.maxCapacityBytes > 0 then args.maxCapacityBytes
      else c.maxCapacityBytes
    period := fun f => if args.period f > 0 then args.period f else c.period f }

/-- The timer, and the configuration: the override is taken over and its shell freed. -/
def takeConfig (override : Option (Config Text)) (s : Server) : Server :=
  let s := s.createUnchecked env .timerActor [.pool]
  -- The struct copy makes the strings the server's; only the shell is freed.
  let s := { s with config := applyArgs s.args (takenConfig env override) }
  s.emit (if override.isSome then [.freeShell] else [])

/-- `--bootstrap` replaces the configuration's peers. -/
def overrideBootstrap (s : Server) : Except Aborted Server :=
  match s.args.text .bootstrapPeers with
  | none => .ok s
  | some peers =>
    let s := s.freeMember .bootstrapPeers s.config.bootstrapPeers
    if env.ok .bootstrapPeers then
      .ok { s with config := { s.config with bootstrapPeers := some ⟨.startup, peers⟩ } }
    else
      let s := { s with config := { s.config with bootstrapPeers := none } }
      .error (s.abort .bootstrapPeers timerAndPool)

/-- The API key in plain text: a copy of the configured one, or a random one. -/
def plaintextKey (s : Server) : Except Aborted Text :=
  match s.args.text .apiKey with
  | some key => if env.ok .apiKey then .ok key else .error (s.abort .apiKey timerAndPool)
  | none =>
    if env.ok .randomKey then .ok env.randomKey
    else .error (s.abort .randomKey timerAndPool)

/-- The hash of the API key replaces the configuration's. -/
def storeApiKey (s : Server) : Except Aborted Server :=
  match plaintextKey env s with
  | .error a => .error a
  | .ok key =>
    if env.ok .bcrypt then
      -- A hash that the override brought is replaced, also by that of a random key.
      let s := s.freeMember .apiKeyHash s.config.apiKeyHash
      if env.ok .apiKeyHash then
        .ok { s with config := { s.config with apiKeyHash := some ⟨.startup, env.bcrypt key⟩ } }
      else
        let s := { s with config := { s.config with apiKeyHash := none } }
        .error (s.abort .apiKeyHash timerAndPool)
    else .error (s.abort .bcrypt timerAndPool)

def createAuthority (s : Server) : Except Aborted Server :=
  match s.create env (.authority s.config) [] with
  | none =>
    -- The HTTP server and both caches are still NULL here.
    .error (s.abort (.create .authority)
      ([.destroy .httpServer, .destroy .tupleCache, .destroy .ofdCache] ++ timerAndPool))
  | some s => .ok s

def createBlockCache (s : Server) : Except Aborted Server :=
  match s.create env (.blockCache s.config (s.args.text .cacheDir) s.config.maxCapacityBytes)
      [.timer, .pool, .authority] with
  | none => .error (s.abort (.create .blockCache) (.destroy .authority :: timerAndPool))
  | some s => .ok (s.emit [.updateCapacity])

/-- The OFD cache and the tuple cache. -/
def createCaches (s : Server) : Server :=
  (s.createUnchecked env (.ofdCache 300000) [.pool, .blockCache]).createUnchecked env
    (.tupleCache 100) [.pool]

/-- The HTTP server, unless the port is 0. -/
def createHttpServer (s : Server) : Except Aborted Server :=
  if s.args.port .port = 0 then .ok s
  else
    match s.create env (.httpServer (s.args.text .host) (s.args.port .port)) [.pool] with
    | none =>
      -- This path leaves the authority out.
      .error (s.abort (.create .httpServer)
        ([.destroy .tupleCache, .destroy .ofdCache, .destroy .blockCache] ++ timerAndPool))
    | some s =>
      .ok (s.emit [.setTimeouts s.config.httpIdleTimeoutMs s.config.httpHardTimeoutMs])

/-- The failure path that the steps between the HTTP server and the network share. -/
def authorityDown : List Event :=
  -- The block cache was created with the authority, and is destroyed after it.
  [.destroy .authority, .destroy .httpServer, .destroy .tupleCache, .destroy .ofdCache,
    .destroy .blockCache] ++ timerAndPool

/-- `authority_load_ca_cert`, if a CA certificate is set. -/
def loadCaCert (s : Server) : Except Aborted Server :=
  if (s.args.text .caCertPath).isSome ∧ env.ok .caCert = false then
    .error (s.abort .caCert authorityDown)
  else .ok s

/-- The node's certificate and key, generated where one of the two files is missing. -/
def ensureCert (s : Server) (cert key : Text) : Server :=
  if env.access cert ∧ env.access key then s else s.emit [.generateCert cert key]

/-- First-launch certificates, at the default paths if none is configured. -/
def adoptNodeCert (s : Server) : Server :=
  match s.args.text .nodeCertPath, s.args.text .nodeKeyPath, s.args.text .configDir with
  | none, none, some configDir =>
    match env.pathJoin configDir (lit "certs/node.pem"),
        env.pathJoin configDir (lit "certs/node-key.pem") with
    | some cert, some key =>
      -- Adopted also if the files were there, so that a reload takes the other branch.
      let s := ensureCert env s cert key
      { s with
        args := (s.args.setText .nodeCertPath (some cert)).setText .nodeKeyPath (some key) }
    | _, _ => s
  | some cert, some key, _ => ensureCert env s cert key
  | _, _, _ => s

/-- Copies of the node's certificate paths, for the authority. -/
def copyNodePaths (s : Server) : Except Aborted Server :=
  if (s.args.text .nodeCertPath).isSome ∧ env.ok .nodeCert = false then
    .error (s.abort .nodeCert authorityDown)
  else
    let s := { s with nodeCertPath := s.args.text .nodeCertPath }
    if (s.args.text .nodeKeyPath).isSome ∧ env.ok .nodeKey = false then
      .error (s.abort .nodeKey authorityDown)
    else .ok { s with nodeKeyPath := s.args.text .nodeKeyPath }

/-- The network, over an authority whose bootstrap list has been seeded. -/
def createNetwork (s : Server) : Except Aborted Server :=
  let s := s.emit (s.config.bootstrapPeers.toList.map fun p => .seedBootstrap p.text)
  match s.create env (.network s.config) [.authority, .blockCache, .timer, .pool] with
  | none => .error (s.abort (.create .network) authorityDown)
  | some s => .ok s

/-- The components that `server->node` points to. -/
def nodeComponents : List Component :=
  [.authority, .network, .blockCache, .httpServer, .pool, .timer]

/-- The soft-auth middleware and the HTTP routes, if there is an HTTP server. -/
def registerRoutes (s : Server) : Server :=
  if s.alive .httpServer then
    let s := s.emit (if env.ok .softAuth then
      s.config.apiKeyHash.toList.map fun p => .useSoftAuth p.text else [])
    let s := s.lend .httpServer [.pool, .blockCache, .ofdCache, .tupleCache, .network]
    let s := s.lend .httpServer [.pool, .blockCache]
    -- The health context holds the block cache.
    let s := s.lend .httpServer [.blockCache]
    let s := s.lend .httpServer nodeComponents
    s.lend .httpServer nodeComponents
  else s

/-- The failure path of a transport, after the transports that came before it. -/
def networkDown (transports : List Component) : List Event :=
  transports.map .destroy ++ [.savePeers, .destroy .network] ++ authorityDown

/-- A transport, which gets the pool and the three caches. -/
def createTransport (enabled : Bool) (call : Creation) (earlier : List Component) (s : Server) :
    Except Aborted Server :=
  if enabled then
    match s.create env call [.pool, .blockCache, .ofdCache, .tupleCache] with
    | none => .error (s.abort (.create call.component) (networkDown earlier))
    | some s => .ok s
  else .ok s

/-- Hand the node to a transport that exists. -/
def lendNode (c : Component) (s : Server) : Server :=
  if s.alive c then s.lend c nodeComponents else s

def createWsTransport (s : Server) : Except Aborted Server :=
  (createTransport env (s.args.port .wsPort != 0)
    (.wsTransport (s.args.text .host) (s.args.port .wsPort) (s.args.text .wsCertPath)
      (s.args.text .wsKeyPath)) [] s).map (lendNode .wsTransport)

def createWtTransport (s : Server) : Except Aborted Server :=
  (createTransport env (s.args.port .wtPort != 0)
    (.wtTransport (s.args.text .host) (s.args.port .wtPort) (s.args.text .wtCertPath)
      (s.args.text .wtKeyPath) (s.args.text .caCertPath) (s.args.switch .allowSecure))
    [.wsTransport] s).map (lendNode .wtTransport)

/-- The HTTP/3 transport, which is not handed the node. -/
def createWtH3Transport (s : Server) : Except Aborted Server :=
  createTransport env (s.args.port .wtH3Port != 0)
    (.webtransportH3 (s.args.text .host) (s.args.port .wtH3Port) (s.args.text .wtCertPath)
      (s.args.text .wtKeyPath) (s.args.text .caCertPath) (s.args.switch .allowSecure))
    [.wtTransport, .wsTransport] s

def createUnixTransport (s : Server) : Except Aborted Server :=
  (createTransport env (s.args.text .unixPath).isSome
    (.unixTransport ((s.args.text .unixPath).getD []) s.args.unixSocketMode)
    [.wtTransport, .wtH3Transport, .wsTransport] s).map (lendNode .unixTransport)

end Parts

/-! ## `_startup` -/

/-- The server as `memset` leaves it. -/
def blank (args : OffsdArgs) : Server where
  args := args
  config := .zero
  alive _ := false
  nodeCertPath := none
  nodeKeyPath := none
  log := []

/-- `_startup` up to the block cache. -/
def bringUpStore (env : Env) (override : Option (Config Text)) (args : OffsdArgs) :
    Except Aborted Server := do
  let s ← ensureDir env .cacheDir .cacheDir override (blank args)
  let s ← ensureDir env .configDir .configDir override s
  let s ← createPool env override s
  let s ← overrideBootstrap env (takeConfig env override s)
  let s ← storeApiKey env s
  let s ← createAuthority env s
  createBlockCache env s

/-- `_startup` from the OFD cache on. -/
def bringUpNode (env : Env) (s : Server) : Except Aborted Server := do
  let s ← createHttpServer env (createCaches env s)
  let s ← loadCaCert env s
  let s ← copyNodePaths env (adoptNodeCert env s)
  let s ← createNetwork env s
  let s ← createWsTransport env (registerRoutes env s)
  let s ← createWtTransport env s
  let s ← createWtH3Transport env s
  let s ← createUnixTransport env s
  return s.createUnchecked env .updateActor [.pool, .timer]

/-- `_startup`. -/
def startup (env : Env) (args : OffsdArgs) (override : Option (Config Text)) :
    Except Aborted Server :=
  bringUpStore env override args >>= bringUpNode env

end Offs.Startup
