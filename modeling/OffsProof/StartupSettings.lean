import OffsProof.StartupCleanup

/-! # What a start passes on

The settings of the daemon reach its components through the create calls of `_startup` and
through the middleware that checks bearer tokens.  Some come from the arguments, some from the
configuration, which the arguments override in a few members.

`madeBy` lists the create calls of a start that succeeds, with their settings, and `checkedBy` the
hash of the middleware; `startup_shows` proves that this is what `_startup` does.  A server shows
at each point which of these calls have been made for it (`Shows`), and a part of `_startup` adds
its own calls to the list and changes nothing else; most events of the log show nothing
(`Event.silent`).

The other question is why a start fails.  A part is aborted only at a step that the environment
lets fail (`FailsAt`), so that an environment in which all steps succeed starts the daemon
(`startup_of_ok`), with any settings.  The modules on single settings use these two results and
do not go through `_startup` again.
-/
namespace Offs.Startup
open CText Daemon Teardown

/-! ## The settings of a start -/

def Event.call : Event → Option Creation
  | .create call _ => some call
  | _ => none

def Event.hash : Event → Option Text
  | .useSoftAuth hash => some hash
  | _ => none

/-- The create calls, in order. -/
def calls (log : List Event) : List Creation := log.filterMap Event.call

/-- The hashes that bearer tokens are checked against. -/
def hashes (log : List Event) : List Text := log.filterMap Event.hash

section Settings
variable (env : Env) (args : OffsdArgs) (override : Option (Config Text))

/-- The API key of a start, in plain text. -/
def startKey : Text := (args.text .apiKey).getD env.randomKey

/-- The configuration of a start, as the authority and the network get it. -/
def startConfig : Config Pointer :=
  let c := applyArgs args (takenConfig env override)
  { c with
    bootstrapPeers := ((args.text .bootstrapPeers).map (Pointer.mk .startup)).or c.bootstrapPeers
    apiKeyHash := some ⟨.startup, env.bcrypt (startKey env args)⟩ }

/-- An unchecked create call. -/
def unchecked (call : Creation) : List Creation :=
  if env.ok (.create call.component) then [call] else []

/-- A create call that a setting turns off. -/
def optional (enabled : Bool) (call : Creation) : List Creation := if enabled then [call] else []

/-- The create calls up to the block cache. -/
def madeForStore : List Creation :=
  let config := startConfig env args override
  [.schedulerPool args.workerCount] ++ unchecked env .timerActor ++
    [.authority config, .blockCache config (args.text .cacheDir) config.maxCapacityBytes]

def httpCall : List Creation :=
  optional (args.port .port != 0) (.httpServer (args.text .host) (args.port .port))

def wsCall : List Creation :=
  optional (args.port .wsPort != 0) (.wsTransport (args.text .host) (args.port .wsPort)
    (args.text .wsCertPath) (args.text .wsKeyPath))

def wtCall : List Creation :=
  optional (args.port .wtPort != 0) (.wtTransport (args.text .host) (args.port .wtPort)
    (args.text .wtCertPath) (args.text .wtKeyPath) (args.text .caCertPath)
    (args.switch .allowSecure))

def wtH3Call : List Creation :=
  optional (args.port .wtH3Port != 0) (.webtransportH3 (args.text .host) (args.port .wtH3Port)
    (args.text .wtCertPath) (args.text .wtKeyPath) (args.text .caCertPath)
    (args.switch .allowSecure))

def unixCall : List Creation :=
  optional (args.text .unixPath).isSome
    (.unixTransport ((args.text .unixPath).getD []) args.unixSocketMode)

/-- The create calls from the OFD cache to the network. -/
def madeForNode : List Creation :=
  unchecked env (.ofdCache 300000) ++ unchecked env (.tupleCache 100) ++ httpCall args ++
    [.network (startConfig env args override)]

/-- **The create calls of a start.** -/
def madeBy : List Creation :=
  madeForStore env args override ++ madeForNode env args override ++
    (wsCall args ++ wtCall args ++ wtH3Call args ++ unixCall args ++ unchecked env .updateActor)

/-- The hash that the middleware checks, if there is one. -/
def checkedBy : List Text :=
  if args.port .port ≠ 0 ∧ env.ok .softAuth then [env.bcrypt (startKey env args)] else []

end Settings

/-- Two sets of arguments that differ at most in the paths of the node's certificate. -/
structure SameButCerts (a b : OffsdArgs) : Prop where
  text : ∀ f, f ≠ .nodeCertPath → f ≠ .nodeKeyPath → b.text f = a.text f
  port : b.port = a.port
  period : b.period = a.period
  switch : b.switch = a.switch
  workerCount : b.workerCount = a.workerCount
  maxCapacityBytes : b.maxCapacityBytes = a.maxCapacityBytes
  unixSocketMode : b.unixSocketMode = a.unixSocketMode

theorem SameButCerts.refl (a : OffsdArgs) : SameButCerts a a :=
  ⟨fun _ _ _ => rfl, rfl, rfl, rfl, rfl, rfl, rfl⟩

theorem SameButCerts.trans {a b c : OffsdArgs} (hab : SameButCerts a b) (hbc : SameButCerts b c) :
    SameButCerts a c where
  text f hcert hkey := (hbc.text f hcert hkey).trans (hab.text f hcert hkey)
  port := hbc.port.trans hab.port
  period := hbc.period.trans hab.period
  switch := hbc.switch.trans hab.switch
  workerCount := hbc.workerCount.trans hab.workerCount
  maxCapacityBytes := hbc.maxCapacityBytes.trans hab.maxCapacityBytes
  unixSocketMode := hbc.unixSocketMode.trans hab.unixSocketMode

/-! ## Servers that show their settings -/

/-- Neither creates nor destroys, and installs no middleware. -/
def Event.silent (e : Event) : Bool := e.call.isNone && e.hash.isNone

theorem calls_of_silent {events : List Event} (h : ∀ e ∈ events, e.silent) : calls events = [] :=
  List.filterMap_eq_nil_iff.mpr fun e he => by
    have hsilent := h e he
    simp only [Event.silent, Bool.and_eq_true, Option.isNone_iff_eq_none] at hsilent
    exact hsilent.1

theorem hashes_of_silent {events : List Event} (h : ∀ e ∈ events, e.silent) : hashes events = [] :=
  List.filterMap_eq_nil_iff.mpr fun e he => by
    have hsilent := h e he
    simp only [Event.silent, Bool.and_eq_true, Option.isNone_iff_eq_none] at hsilent
    exact hsilent.2

/-- **What a server shows**: the configuration it runs with, the create calls made for it and the
hashes it checks.  The arguments may differ from those of the start in the certificate paths
that the start adopts. -/
structure Shows (args : OffsdArgs) (config : Config Pointer) (made : List Creation)
    (checked : List Text) (s : Server) : Prop where
  sameArgs : SameButCerts args s.args
  config_eq : s.config = config
  calls_eq : calls s.log = made
  hashes_eq : hashes s.log = checked
  alive_iff : ∀ c, s.alive c ↔ c ∈ made.map Creation.component

namespace Shows
variable {env : Env} {args : OffsdArgs} {config : Config Pointer} {made : List Creation}
  {checked : List Text} {s s' : Server}

theorem blank (args : OffsdArgs) : Shows args .zero [] [] (blank args) :=
  ⟨.refl args, rfl, rfl, rfl, fun c => by simp [Startup.blank]⟩

/-- Only the arguments and the configuration have changed. -/
theorem of_eq (h : Shows args config made checked s) {config' : Config Pointer}
    (hargs : SameButCerts s.args s'.args) (hconfig : s'.config = config') (hlog : s'.log = s.log)
    (halive : s'.alive = s.alive) : Shows args config' made checked s' :=
  ⟨h.sameArgs.trans hargs, hconfig, by rw [hlog]; exact h.calls_eq, by rw [hlog]; exact h.hashes_eq,
    by rw [halive]; exact h.alive_iff⟩

theorem emit (h : Shows args config made checked s) {events : List Event}
    (hsilent : ∀ e ∈ events, e.silent) : Shows args config made checked (s.emit events) := by
  refine ⟨h.sameArgs, h.config_eq, ?_, ?_, h.alive_iff⟩
  · have hcalls := calls_of_silent hsilent
    unfold calls at hcalls
    rw [Server.emit, calls, List.filterMap_append, hcalls, List.append_nil]
    exact h.calls_eq
  · have hhashes := hashes_of_silent hsilent
    unfold hashes at hhashes
    rw [Server.emit, hashes, List.filterMap_append, hhashes, List.append_nil]
    exact h.hashes_eq

theorem lend (h : Shows args config made checked s) (c : Component) (given : List Component) :
    Shows args config made checked (s.lend c given) :=
  h.emit (by simp [Event.silent, Event.call, Event.hash])

theorem freeMember (h : Shows args config made checked s) (m : Member) (p : Option Pointer) :
    Shows args config made checked (s.freeMember m p) := by
  refine h.emit fun e he => ?_
  obtain ⟨q, -, rfl⟩ := List.mem_map.mp he
  rfl

theorem add (h : Shows args config made checked s) (call : Creation) (given : List Component) :
    Shows args config (made ++ [call]) checked (s.add call given) := by
  refine ⟨h.sameArgs, h.config_eq, ?_, ?_, fun c => ?_⟩
  · rw [Server.add, calls, List.filterMap_append]
    exact congrArg (· ++ [call]) h.calls_eq
  · rw [Server.add, hashes, List.filterMap_append]
    exact (List.append_nil _).trans h.hashes_eq
  · rw [Server.add_alive, h.alive_iff]
    simp [or_comm]

theorem createUnchecked (h : Shows args config made checked s) (call : Creation)
    (given : List Component) :
    Shows args config (made ++ unchecked env call) checked
      (s.createUnchecked env call given) := by
  unfold Server.createUnchecked
  rcases Server.create_cases env s call given with ⟨hok, hcreate⟩ | ⟨hok, hcreate⟩
  · rw [hcreate, unchecked, hok]
    simpa using h
  · rw [hcreate, unchecked, hok]
    exact h.add call given

/-- A checked create call. -/
theorem create (h : Shows args config made checked s) {call : Creation} {given : List Component}
    (hcreate : s.create env call given = some s') :
    Shows args config (made ++ [call]) checked s' := by
  rcases Server.create_cases env s call given with ⟨-, heq⟩ | ⟨-, heq⟩
  · rw [heq] at hcreate
    cases hcreate
  · rw [heq] at hcreate
    cases hcreate
    exact h.add call given

end Shows

/-! ## Up to the block cache -/

/-- Nothing is asked of a start that fails. -/
def anyAbort (_ : Aborted) : Prop := True

section Store
variable {env : Env} {args : OffsdArgs} {override : Option (Config Text)}
  {config : Config Pointer} {made : List Creation} {checked : List Text} {s : Server}

theorem ensureDir_shows (h : Shows args config made checked s) {f : TextField} {step : Step} :
    Ends (Shows args config made checked) anyAbort (ensureDir env f step override s) := by
  unfold ensureDir
  split
  · trivial
  · exact h

theorem createPool_shows (h : Shows args config made checked s) :
    Ends (Shows args config (made ++ [.schedulerPool args.workerCount]) checked) anyAbort
      (createPool env override s) := by
  unfold createPool
  split
  · trivial
  · rename_i s' hcreate
    rw [h.sameArgs.workerCount] at hcreate
    exact (h.create hcreate).emit (by simp [Event.silent, Event.call, Event.hash])

theorem takeConfig_shows (h : Shows args config made checked s) :
    Shows args (applyArgs args (takenConfig env override)) (made ++ unchecked env .timerActor)
      checked (takeConfig env override s) := by
  have htimer := @Shows.createUnchecked env _ _ _ _ _ h .timerActor [.pool]
  unfold takeConfig
  dsimp only
  refine Shows.emit ?_ ?_
  · refine htimer.of_eq (.refl _) ?_ rfl rfl
    unfold applyArgs
    rw [htimer.sameArgs.maxCapacityBytes, htimer.sameArgs.period]
  · split <;> simp [Event.silent, Event.call, Event.hash]

theorem overrideBootstrap_shows (h : Shows args config made checked s) :
    Ends (Shows args
        { config with
          bootstrapPeers := ((args.text .bootstrapPeers).map (Pointer.mk .startup)).or
            config.bootstrapPeers } made checked)
      anyAbort (overrideBootstrap env s) := by
  have hconfig := h.config_eq
  unfold overrideBootstrap
  rw [h.sameArgs.text .bootstrapPeers (by decide) (by decide)]
  cases hpeers : args.text .bootstrapPeers with
  | none => exact h
  | some peers =>
    dsimp only
    split
    · refine (h.freeMember _ _).of_eq (.refl _) ?_ rfl rfl
      simp [Server.freeMember, Server.emit, hconfig]
    · trivial

theorem plaintextKey_shows (h : Shows args config made checked s) :
    Ends (fun key => key = startKey env args) anyAbort (plaintextKey env s) := by
  unfold plaintextKey startKey
  rw [h.sameArgs.text .apiKey (by decide) (by decide)]
  split
  all_goals
    rename_i hkey
    rw [hkey]
    split
    · exact rfl
    · trivial

theorem storeApiKey_shows (h : Shows args config made checked s) :
    Ends (Shows args
        { config with apiKeyHash := some ⟨.startup, env.bcrypt (startKey env args)⟩ } made checked)
      anyAbort (storeApiKey env s) := by
  have hkey := @plaintextKey_shows env args _ _ _ s h
  have hconfig := h.config_eq
  unfold storeApiKey
  split
  · trivial
  · rename_i key hok
    rw [hok] at hkey
    cases hkey
    split
    · dsimp only
      split
      · refine (h.freeMember _ _).of_eq (.refl _) ?_ rfl rfl
        simp [Server.freeMember, Server.emit, hconfig]
      · trivial
    · trivial

theorem createAuthority_shows (h : Shows args config made checked s) :
    Ends (Shows args config (made ++ [.authority config]) checked) anyAbort
      (createAuthority env s) := by
  unfold createAuthority
  split
  · trivial
  · rename_i s' hcreate
    rw [h.config_eq] at hcreate
    exact h.create hcreate

theorem createBlockCache_shows (h : Shows args config made checked s) :
    Ends (Shows args config (made ++ [.blockCache config (args.text .cacheDir)
        config.maxCapacityBytes]) checked) anyAbort (createBlockCache env s) := by
  unfold createBlockCache
  split
  · trivial
  · rename_i s' hcreate
    rw [h.config_eq, h.sameArgs.text .cacheDir (by decide) (by decide)] at hcreate
    exact (h.create hcreate).emit (by simp [Event.silent, Event.call, Event.hash])

theorem bringUpStore_shows :
    Ends (Shows args (startConfig env args override) (madeForStore env args override) []) anyAbort
      (bringUpStore env override args) := by
  unfold bringUpStore
  refine Ends.bind (ensureDir_shows (Shows.blank args)) fun s h => ?_
  refine Ends.bind (ensureDir_shows h) fun s h => ?_
  refine Ends.bind (createPool_shows h) fun s h => ?_
  refine Ends.bind (overrideBootstrap_shows (takeConfig_shows h)) fun s h => ?_
  refine Ends.bind (storeApiKey_shows h) fun s h => ?_
  refine Ends.bind (createAuthority_shows h) fun s h => ?_
  have hcache := @createBlockCache_shows env _ _ _ _ s h
  simpa [madeForStore, startConfig] using hcache

end Store

/-! ## From the OFD cache on -/

section Node
variable {env : Env} {args : OffsdArgs} {override : Option (Config Text)}
  {config : Config Pointer} {made : List Creation} {checked : List Text} {s : Server}

theorem createHttpServer_shows (h : Shows args config made checked s) :
    Ends (Shows args config (made ++ httpCall args) checked) anyAbort
      (createHttpServer env s) := by
  unfold createHttpServer httpCall optional
  rw [h.sameArgs.port, h.sameArgs.text .host (by decide) (by decide)]
  by_cases hport : args.port .port = 0
  · rw [if_pos hport, if_neg (by simp [hport]), List.append_nil]
    exact h
  · rw [if_neg hport, if_pos (by simpa using hport)]
    split
    · trivial
    · rename_i s' hcreate
      exact (h.create hcreate).emit (by simp [Event.silent, Event.call, Event.hash])

theorem loadCaCert_shows (h : Shows args config made checked s) :
    Ends (Shows args config made checked) anyAbort (loadCaCert env s) := by
  unfold loadCaCert
  split
  · trivial
  · exact h

theorem ensureCert_shows (h : Shows args config made checked s) {cert key : Text} :
    Shows args config made checked (ensureCert env s cert key) := by
  unfold ensureCert
  split
  · exact h
  · exact h.emit (by simp [Event.silent, Event.call, Event.hash])

/-- The only part that changes the arguments. -/
theorem adoptNodeCert_shows (h : Shows args config made checked s) :
    Shows args config made checked (adoptNodeCert env s) := by
  unfold adoptNodeCert
  split
  · split
    · rename_i cert key _ _
      have hcert := @ensureCert_shows env _ _ _ _ _ h cert key
      refine hcert.of_eq ⟨fun f hne hne' => ?_, rfl, rfl, rfl, rfl, rfl, rfl⟩ hcert.config_eq rfl rfl
      rw [OffsdArgs.setText_of_ne hne', OffsdArgs.setText_of_ne hne]
    · exact h
  · exact ensureCert_shows h
  · exact h

theorem copyNodePaths_shows (h : Shows args config made checked s) :
    Ends (Shows args config made checked) anyAbort (copyNodePaths env s) := by
  unfold copyNodePaths
  split
  · trivial
  · dsimp only
    split
    · trivial
    · exact h.of_eq (.refl _) h.config_eq rfl rfl

theorem createNetwork_shows (h : Shows args config made checked s) :
    Ends (Shows args config (made ++ [.network config]) checked) anyAbort
      (createNetwork env s) := by
  have hseeded : Shows args config made checked (s.emit (s.config.bootstrapPeers.toList.map
      fun p => .seedBootstrap p.text)) :=
    h.emit (by simp [Event.silent, Event.call, Event.hash])
  unfold createNetwork
  dsimp only
  split
  · trivial
  · rename_i s' hcreate
    rw [hseeded.config_eq] at hcreate
    exact hseeded.create hcreate

/-- The middleware checks the hash of the configuration, if there is an HTTP server. -/
theorem registerRoutes_shows (h : Shows args config made [] s)
    (hhttp : s.alive .httpServer ↔ args.port .port ≠ 0)
    (hhash : config.apiKeyHash = some ⟨.startup, env.bcrypt (startKey env args)⟩) :
    Shows args config made (checkedBy env args) (registerRoutes env s) := by
  have hconfig := h.config_eq
  unfold registerRoutes checkedBy
  by_cases hport : args.port .port ≠ 0
  · rw [if_pos (hhttp.mpr hport), hconfig, hhash]
    have hauth : Shows args config made
        (if args.port .port ≠ 0 ∧ env.ok .softAuth then [env.bcrypt (startKey env args)] else [])
        (s.emit (if env.ok .softAuth then [.useSoftAuth (env.bcrypt (startKey env args))]
          else [])) := by
      by_cases hok : env.ok .softAuth
      · rw [if_pos hok, if_pos ⟨hport, hok⟩]
        refine ⟨h.sameArgs, hconfig, ?_, ?_, h.alive_iff⟩
        · rw [Server.emit, calls, List.filterMap_append]
          exact (List.append_nil _).trans h.calls_eq
        · rw [Server.emit, hashes, List.filterMap_append]
          exact congrArg (· ++ [_]) h.hashes_eq
      · rw [if_neg hok, if_neg fun hboth => hok hboth.2]
        exact h.emit (by simp)
    exact ((((hauth.lend _ _).lend _ _).lend _ _).lend _ _).lend _ _
  · rw [if_neg fun halive => hport (hhttp.mp halive), if_neg fun hboth => hport hboth.1]
    exact h

theorem createTransport_shows (h : Shows args config made checked s) {enabled : Bool}
    {call : Creation} {earlier : List Component} :
    Ends (Shows args config (made ++ optional enabled call) checked) anyAbort
      (createTransport env enabled call earlier s) := by
  unfold createTransport optional
  cases enabled with
  | false =>
    rw [if_neg Bool.false_ne_true, if_neg Bool.false_ne_true, List.append_nil]
    exact h
  | true =>
    rw [if_pos rfl, if_pos rfl]
    split
    · trivial
    · rename_i s' hcreate
      exact h.create hcreate

theorem lendNode_shows {r : Except Aborted Server} {c : Component}
    (hr : Ends (Shows args config made checked) anyAbort r) :
    Ends (Shows args config made checked) anyAbort (r.map (lendNode c)) := by
  cases r with
  | error a => trivial
  | ok s =>
    show Shows args config made checked (lendNode c s)
    unfold lendNode
    split
    · exact Shows.lend hr _ _
    · exact hr

theorem createWsTransport_shows (h : Shows args config made checked s) :
    Ends (Shows args config (made ++ wsCall args) checked) anyAbort (createWsTransport env s) := by
  unfold createWsTransport wsCall
  rw [h.sameArgs.port]
  simp (disch := decide) only [h.sameArgs.text]
  exact lendNode_shows (createTransport_shows h)

theorem createWtTransport_shows (h : Shows args config made checked s) :
    Ends (Shows args config (made ++ wtCall args) checked) anyAbort (createWtTransport env s) := by
  unfold createWtTransport wtCall
  rw [h.sameArgs.port, h.sameArgs.switch]
  simp (disch := decide) only [h.sameArgs.text]
  exact lendNode_shows (createTransport_shows h)

theorem createWtH3Transport_shows (h : Shows args config made checked s) :
    Ends (Shows args config (made ++ wtH3Call args) checked) anyAbort
      (createWtH3Transport env s) := by
  unfold createWtH3Transport wtH3Call
  rw [h.sameArgs.port, h.sameArgs.switch]
  simp (disch := decide) only [h.sameArgs.text]
  exact createTransport_shows h

theorem createUnixTransport_shows (h : Shows args config made checked s) :
    Ends (Shows args config (made ++ unixCall args) checked) anyAbort
      (createUnixTransport env s) := by
  unfold createUnixTransport unixCall
  rw [h.sameArgs.unixSocketMode]
  simp (disch := decide) only [h.sameArgs.text]
  exact lendNode_shows (createTransport_shows h)

/-- The HTTP server is the only component of its kind that a start may have by then. -/
theorem Shows.httpServer_alive
    (h : Shows args config (madeForStore env args override ++ madeForNode env args override) checked
      s) : s.alive .httpServer ↔ args.port .port ≠ 0 := by
  rw [h.alive_iff]
  simp only [madeForStore, madeForNode, httpCall, unchecked, optional, List.map_append,
    List.mem_append]
  by_cases hport : args.port .port = 0
  · simp only [hport]
    grind [Creation.component]
  · simp [hport, Creation.component]

theorem bringUpNode_shows
    (h : Shows args (startConfig env args override) (madeForStore env args override) [] s) :
    Ends (Shows args (startConfig env args override) (madeBy env args override)
      (checkedBy env args)) anyAbort (bringUpNode env s) := by
  unfold bringUpNode
  have hcaches : Shows args (startConfig env args override) (madeForStore env args override ++
      (unchecked env (.ofdCache 300000) ++ unchecked env (.tupleCache 100))) []
      (createCaches env s) := by
    rw [← List.append_assoc]
    exact (h.createUnchecked _ _).createUnchecked _ _
  refine Ends.bind (createHttpServer_shows hcaches) fun s h => ?_
  refine Ends.bind (loadCaCert_shows h) fun s h => ?_
  refine Ends.bind (copyNodePaths_shows (adoptNodeCert_shows h)) fun s h => ?_
  refine Ends.bind (createNetwork_shows h) fun s h => ?_
  rw [List.append_assoc, List.append_assoc, ← List.append_assoc (unchecked _ _ ++ _)] at h
  refine Ends.bind (createWsTransport_shows (registerRoutes_shows h h.httpServer_alive rfl))
    fun s h => ?_
  refine Ends.bind (createWtTransport_shows h) fun s h => ?_
  refine Ends.bind (createWtH3Transport_shows h) fun s h => ?_
  refine Ends.bind (createUnixTransport_shows h) fun s h => ?_
  have hactor := @Shows.createUnchecked env _ _ _ _ _ h .updateActor [.pool, .timer]
  simp only [List.append_assoc] at hactor
  show Shows _ _ _ _ _
  simpa only [madeBy, madeForNode, List.append_assoc] using hactor

/-- **What `_startup` passes on** when it succeeds. -/
theorem startup_shows (hstart : startup env args override = .ok s) :
    Shows args (startConfig env args override) (madeBy env args override) (checkedBy env args)
      s := by
  have h : Ends (Shows args (startConfig env args override) (madeBy env args override)
      (checkedBy env args)) anyAbort (startup env args override) :=
    Ends.bind bringUpStore_shows fun _ h => bringUpNode_shows h
  rw [hstart] at h
  exact h

end Node

/-! ## Where a start fails -/

section Failing
variable {env : Env} {args : OffsdArgs} {override : Option (Config Text)} {s : Server}

/-- The step that a start was aborted at has failed. -/
def Failed (env : Env) (a : Aborted) : Prop := env.ok a.step = false

/-- A part of a start that is aborted only at a step that fails, in the environment that it is
started in. -/
def FailsAt (env : Env) (r : Except Aborted Server) : Prop := Ends (fun _ => True) (Failed env) r

theorem FailsAt.bind {r : Except Aborted Server} {f : Server → Except Aborted Server}
    (hr : FailsAt env r) (hf : ∀ s, FailsAt env (f s)) : FailsAt env (r >>= f) :=
  Ends.bind hr fun s _ => hf s

theorem Server.create_none {call : Creation} {given : List Component}
    (h : s.create env call given = none) : env.ok (.create call.component) = false := by
  rcases Server.create_cases env s call given with ⟨hok, -⟩ | ⟨-, hcreate⟩
  · exact hok
  · rw [hcreate] at h
    cases h

theorem ensureDir_failsAt {f : TextField} {step : Step} :
    FailsAt env (ensureDir env f step override s) := by
  unfold ensureDir
  split
  · rename_i h
    exact h.2
  · trivial

theorem createPool_failsAt : FailsAt env (createPool env override s) := by
  unfold createPool
  split
  · rename_i hcreate
    exact Server.create_none hcreate
  · trivial

theorem overrideBootstrap_failsAt : FailsAt env (overrideBootstrap env s) := by
  unfold overrideBootstrap
  split
  · trivial
  · dsimp only
    split
    · trivial
    · rename_i hok
      exact Bool.eq_false_iff.mpr hok

theorem plaintextKey_failsAt {a : Aborted} (h : plaintextKey env s = .error a) :
    Failed env a := by
  unfold plaintextKey at h
  split at h
  all_goals
    split at h
    · cases h
    · rename_i hok
      cases h
      exact Bool.eq_false_iff.mpr hok

theorem storeApiKey_failsAt : FailsAt env (storeApiKey env s) := by
  unfold storeApiKey
  split
  · rename_i hkey
    exact plaintextKey_failsAt hkey
  · split
    · dsimp only
      split
      · trivial
      · rename_i hok
        exact Bool.eq_false_iff.mpr hok
    · rename_i hok
      exact Bool.eq_false_iff.mpr hok

theorem createAuthority_failsAt : FailsAt env (createAuthority env s) := by
  unfold createAuthority
  split
  · rename_i hcreate
    exact Server.create_none hcreate
  · trivial

theorem createBlockCache_failsAt : FailsAt env (createBlockCache env s) := by
  unfold createBlockCache
  split
  · rename_i hcreate
    exact Server.create_none hcreate
  · trivial

theorem createHttpServer_failsAt : FailsAt env (createHttpServer env s) := by
  unfold createHttpServer
  split
  · trivial
  · split
    · rename_i hcreate
      exact Server.create_none hcreate
    · trivial

theorem loadCaCert_failsAt : FailsAt env (loadCaCert env s) := by
  unfold loadCaCert
  split
  · rename_i h
    exact h.2
  · trivial

theorem copyNodePaths_failsAt : FailsAt env (copyNodePaths env s) := by
  unfold copyNodePaths
  split
  · rename_i h
    exact h.2
  · dsimp only
    split
    · rename_i h
      exact h.2
    · trivial

theorem createNetwork_failsAt : FailsAt env (createNetwork env s) := by
  unfold createNetwork
  dsimp only
  split
  · rename_i hcreate
    exact Server.create_none hcreate
  · trivial

theorem createTransport_failsAt {enabled : Bool} {call : Creation} {earlier : List Component} :
    FailsAt env (createTransport env enabled call earlier s) := by
  unfold createTransport
  split
  · split
    · rename_i hcreate
      exact Server.create_none hcreate
    · trivial
  · trivial

theorem FailsAt.map {r : Except Aborted Server} (hr : FailsAt env r) (f : Server → Server) :
    FailsAt env (r.map f) := by
  rcases r with a | s
  · exact hr
  · trivial

/-- **A start is aborted only at a step that fails.** -/
theorem startup_failsAt : FailsAt env (startup env args override) := by
  refine FailsAt.bind ?_ fun s => ?_
  · exact ensureDir_failsAt.bind fun s => ensureDir_failsAt.bind fun s =>
      createPool_failsAt.bind fun s => overrideBootstrap_failsAt.bind fun s =>
      storeApiKey_failsAt.bind fun s => createAuthority_failsAt.bind fun s =>
      createBlockCache_failsAt
  · exact createHttpServer_failsAt.bind fun s => loadCaCert_failsAt.bind fun s =>
      copyNodePaths_failsAt.bind fun s => createNetwork_failsAt.bind fun s =>
      (createTransport_failsAt.map _).bind fun s => (createTransport_failsAt.map _).bind fun s =>
      createTransport_failsAt.bind fun s => (createTransport_failsAt.map _).bind fun s => trivial

theorem startup_of_ok (hok : ∀ step, env.ok step = true) (args : OffsdArgs)
    (override : Option (Config Text)) : ∃ s, startup env args override = .ok s := by
  rcases h : startup env args override with a | s
  · have hfails := @startup_failsAt env args override
    rw [h] at hfails
    exact absurd (hok a.step) (Bool.eq_false_iff.mp hfails)
  · exact ⟨s, rfl⟩

end Failing

end Offs.Startup
