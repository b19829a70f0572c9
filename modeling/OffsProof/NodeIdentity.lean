import OffsProof.LabelledRun
import OffsProof.Shutdown

/-! # The files of the node's identity

The id of a node follows from its certificate and its key.  `_startup` generates the two files
on the first launch and should leave them alone from then on.  It looks whether both are there
and, if one is missing, generates the pair, over the one that is still there.

The machine is its files and the daemon between two cycles of `_run_offsd`.  Files come and go
from outside, daemons are launched, and a cycle begins with a `_startup` that finds the files as
they are.  A start overwrites nothing just if it finds both files or neither of them
(`node_identity_kept_iff`), and as long as that is so, a file that nobody touches from outside
keeps its content through all starts and reloads (`node_identity_durable`).

What a start writes is read off its log of events (`written_startup`): nothing before the
certificates, then the pair if one of its files is missing, and nothing after it.  `_startup` is
cut into these three parts for this, and each part outside is followed call by call as one that
leaves the arguments and the files alone, however it ends (`Keeping`); the rule for a sequence
(`Keeping.bind`) puts them together.  The rest is about one step of the machine, and runs follow
from it.
-/
namespace Offs.Startup
open CText Daemon Teardown LabelledRun

/-! ## The files that a start writes -/

/-- The files that an event writes: `pem_generate_self_signed_cert` writes both. -/
def Event.certFiles : Event → List Text
  | .generateCert cert key => [cert, key]
  | _ => []

/-- The certificate and key files that are written. -/
def written (log : List Event) : List Text := log.flatMap Event.certFiles

/-- The log of a start, however it ends. -/
def startLog : Except Aborted Server → List Event
  | .ok s => s.log
  | .error a => a.server.log

section Pair
variable (env : Env) (args : OffsdArgs)

/-- The node's certificate and key: the configured paths, or the default ones. -/
def nodePair : Option (Text × Text) :=
  match args.text .nodeCertPath, args.text .nodeKeyPath, args.text .configDir with
  | none, none, some configDir =>
    match env.pathJoin configDir (lit "certs/node.pem"),
        env.pathJoin configDir (lit "certs/node-key.pem") with
    | some cert, some key => some (cert, key)
    | _, _ => none
  | some cert, some key, _ => some (cert, key)
  | _, _, _ => none

/-- The files that are generated: both, unless both are there. -/
def generated : List Text :=
  match nodePair env args with
  | none => []
  | some (cert, key) => if env.access cert ∧ env.access key then [] else [cert, key]

/-- `_startup` up to the certificates. -/
def beforeCerts (override : Option (Config Text)) : Except Aborted Server := do
  let s ← bringUpStore env override args
  let s ← createHttpServer env (createCaches env s)
  loadCaCert env s

/-- `_startup` after the certificates. -/
def afterCerts (s : Server) : Except Aborted Server := do
  let s ← copyNodePaths env s
  let s ← createNetwork env s
  let s ← createWsTransport env (registerRoutes env s)
  let s ← createWtTransport env s
  let s ← createWtH3Transport env s
  let s ← createUnixTransport env s
  return s.createUnchecked env .updateActor [.pool, .timer]

theorem startup_eq (override : Option (Config Text)) :
    startup env args override =
      beforeCerts env args override >>= fun s => afterCerts env (adoptNodeCert env s) := by
  rw [startup, beforeCerts, bind_assoc]
  refine bind_congr fun s => ?_
  rw [bringUpNode, bind_assoc]
  rfl

end Pair

/-! ## What the parts of a start write -/

/-- Arguments and identity files are as before.  Almost every part of a start is quiet in this
sense; those that are not are the ones that the module is about. -/
structure Quiet (s s' : Server) : Prop where
  args : s'.args = s.args
  written : written s'.log = Startup.written s.log

/-- A part of the start that leaves them as they were, however it ends: in a server, or aborted with
a log of what has been done and taken back. -/
def Keeping (s : Server) : Except Aborted Server → Prop :=
  Ends (Quiet s) fun a => written a.server.log = written s.log

namespace Quiet
variable {s s' s'' : Server}

theorem refl (s : Server) : Quiet s s := ⟨rfl, rfl⟩

theorem trans (h : Quiet s s') (h' : Quiet s' s'') : Quiet s s'' :=
  ⟨h'.args.trans h.args, h'.written.trans h.written⟩

theorem emit (s : Server) {events : List Event} (h : ∀ e ∈ events, e.certFiles = []) :
    Quiet s (s.emit events) := by
  refine ⟨rfl, ?_⟩
  rw [Server.emit, Startup.written, List.flatMap_append, List.flatMap_eq_nil_iff.mpr h,
    List.append_nil]
  rfl

theorem add (s : Server) (call : Creation) (given : List Component) : Quiet s (s.add call given) :=
  ⟨rfl, by simp [Server.add, Startup.written, Event.certFiles]⟩

theorem lend (s : Server) (c : Component) (given : List Component) : Quiet s (s.lend c given) :=
  emit s (by simp [Event.certFiles])

theorem freeMember (s : Server) (m : Member) (p : Option Pointer) : Quiet s (s.freeMember m p) := by
  refine emit s fun e he => ?_
  obtain ⟨q, -, rfl⟩ := List.mem_map.mp he
  rfl

theorem create {env : Env} {call : Creation} {given : List Component}
    (h : s.create env call given = some s') : Quiet s s' := by
  rcases Server.create_cases env s call given with ⟨-, heq⟩ | ⟨-, heq⟩
  · rw [heq] at h
    cases h
  · rw [heq] at h
    cases h
    exact add s call given

theorem createUnchecked (env : Env) (s : Server) (call : Creation) (given : List Component) :
    Quiet s (s.createUnchecked env call given) := by
  unfold Server.createUnchecked
  cases h : s.create env call given with
  | none => exact refl s
  | some s' => exact create h

end Quiet

namespace Keeping
variable {env : Env} {override : Option (Config Text)} {s s' : Server}

theorem abort (h : Quiet s s') {step : Step} {calls : List Event}
    (hcalls : ∀ e ∈ calls, e.certFiles = []) : Keeping s (.error (s'.abort step calls)) :=
  (h.trans (.emit s' fun e he => hcalls e (List.mem_of_mem_filter he))).written

theorem of_quiet (h : Quiet s s') {r : Except Aborted Server} (hr : Keeping s' r) : Keeping s r :=
  Ends.mono hr (fun _ h' => h.trans h') fun _ h' => h'.trans h.written

theorem bind {r : Except Aborted Server} {f : Server → Except Aborted Server} (hr : Keeping s r)
    (hf : ∀ s', Keeping s' (f s')) : Keeping s (r >>= f) :=
  Ends.bind hr fun s' h => (hf s').of_quiet h

/-- A checked create call, and what follows it. -/
theorem create {call : Creation} {given : List Component} {failed : Aborted}
    {next : Server → Except Aborted Server} (hfailed : written failed.server.log = written s.log)
    (hnext : ∀ s', Keeping s' (next s')) :
    Keeping s (match s.create env call given with
      | none => .error failed
      | some s => next s) := by
  split
  · exact hfailed
  · rename_i s' hcreate
    exact (hnext s').of_quiet (.create hcreate)

end Keeping

section Parts
variable (env : Env) (override : Option (Config Text))

theorem certFiles_releaseOverride : ∀ e ∈ releaseOverride override, e.certFiles = [] := by
  intro e he
  cases override with
  | none => cases he
  | some c =>
    rcases List.mem_append.mp he with he | he
    · obtain ⟨p, -, rfl⟩ := List.mem_map.mp he
      rfl
    · cases List.mem_singleton.mp he
      rfl

theorem ensureDir_keeping (f : TextField) (step : Step) (s : Server) :
    Keeping s (ensureDir env f step override s) := by
  unfold ensureDir
  split
  · exact .abort (.refl s) (certFiles_releaseOverride override)
  · exact .refl s

theorem createPool_keeping (s : Server) : Keeping s (createPool env override s) := by
  unfold createPool
  split
  · exact .abort (.refl s) (certFiles_releaseOverride override)
  · rename_i s' hcreate
    exact (Quiet.create hcreate).trans (.emit s' (by simp [Event.certFiles]))

theorem takeConfig_quiet (s : Server) : Quiet s (takeConfig env override s) := by
  have htimer := Quiet.createUnchecked env s .timerActor [.pool]
  unfold takeConfig
  refine htimer.trans ?_
  refine Quiet.trans ?_ (.emit _ ?_)
  · exact ⟨rfl, rfl⟩
  · split <;> simp [Event.certFiles]

theorem certFiles_timerAndPool : ∀ e ∈ timerAndPool, e.certFiles = [] := by
  simp [timerAndPool, Event.certFiles]

theorem overrideBootstrap_keeping (s : Server) : Keeping s (overrideBootstrap env s) := by
  unfold overrideBootstrap
  split
  · exact .refl s
  · have hfree := Quiet.freeMember s .bootstrapPeers s.config.bootstrapPeers
    dsimp only
    split
    · exact hfree.trans ⟨rfl, rfl⟩
    · refine Keeping.abort ?_ certFiles_timerAndPool
      exact hfree.trans ⟨rfl, rfl⟩

theorem storeApiKey_keeping (s : Server) : Keeping s (storeApiKey env s) := by
  have hkey : ∀ a, plaintextKey env s = .error a → written a.server.log = written s.log := by
    intro a ha
    unfold plaintextKey at ha
    split at ha <;> split at ha <;> cases ha <;>
      exact Keeping.abort (.refl s) certFiles_timerAndPool
  unfold storeApiKey
  split
  · rename_i a ha
    exact hkey a ha
  · split
    · have hfree := Quiet.freeMember s .apiKeyHash s.config.apiKeyHash
      dsimp only
      split
      · exact hfree.trans ⟨rfl, rfl⟩
      · refine Keeping.abort ?_ certFiles_timerAndPool
        exact hfree.trans ⟨rfl, rfl⟩
    · exact .abort (.refl s) certFiles_timerAndPool

theorem createAuthority_keeping (s : Server) : Keeping s (createAuthority env s) :=
  .create (Keeping.abort (.refl s) (by simp [timerAndPool, Event.certFiles])) fun s => .refl s

theorem createBlockCache_keeping (s : Server) : Keeping s (createBlockCache env s) :=
  .create (Keeping.abort (.refl s) (by simp [timerAndPool, Event.certFiles])) fun s =>
    .emit s (by simp [Event.certFiles])

theorem bringUpStore_keeping (args : OffsdArgs) :
    Keeping (blank args) (bringUpStore env override args) := by
  unfold bringUpStore
  refine (ensureDir_keeping env override _ _ _).bind fun s => ?_
  refine (ensureDir_keeping env override _ _ _).bind fun s => ?_
  refine (createPool_keeping env override _).bind fun s => ?_
  refine Keeping.bind ?_ fun s => ?_
  · exact (overrideBootstrap_keeping env _).of_quiet (takeConfig_quiet env override s)
  refine (storeApiKey_keeping env _).bind fun s => ?_
  exact (createAuthority_keeping env _).bind fun s => createBlockCache_keeping env s

theorem createHttpServer_keeping (s : Server) : Keeping s (createHttpServer env s) := by
  unfold createHttpServer
  split
  · exact .refl s
  · exact .create (Keeping.abort (.refl s) (by simp [timerAndPool, Event.certFiles])) fun s =>
      .emit s (by simp [Event.certFiles])

theorem certFiles_authorityDown : ∀ e ∈ authorityDown, e.certFiles = [] := by
  simp [authorityDown, timerAndPool, Event.certFiles]

theorem loadCaCert_keeping (s : Server) : Keeping s (loadCaCert env s) := by
  unfold loadCaCert
  split
  · exact .abort (.refl s) certFiles_authorityDown
  · exact .refl s

theorem copyNodePaths_keeping (s : Server) : Keeping s (copyNodePaths env s) := by
  unfold copyNodePaths
  split
  · exact .abort (.refl s) certFiles_authorityDown
  · dsimp only
    split
    · refine Keeping.abort ?_ certFiles_authorityDown
      exact ⟨rfl, rfl⟩
    · refine Quiet.mk ?_ ?_ <;> rfl

theorem createNetwork_keeping (s : Server) : Keeping s (createNetwork env s) := by
  unfold createNetwork
  refine Keeping.of_quiet (.emit s ?_) (.create (Keeping.abort (.refl _) certFiles_authorityDown)
    fun s => .refl s)
  intro e he
  obtain ⟨p, -, rfl⟩ := List.mem_map.mp he
  rfl

theorem registerRoutes_quiet (s : Server) : Quiet s (registerRoutes env s) := by
  unfold registerRoutes
  split
  · refine Quiet.trans (.emit s ?_) (((((Quiet.lend _ _ _).trans (.lend _ _ _)).trans
      (.lend _ _ _)).trans (.lend _ _ _)).trans (.lend _ _ _))
    intro e he
    split at he
    · obtain ⟨p, -, rfl⟩ := List.mem_map.mp he
      rfl
    · cases he
  · exact .refl s

theorem certFiles_networkDown (transports : List Component) :
    ∀ e ∈ networkDown transports, e.certFiles = [] := by
  intro e he
  rw [networkDown, List.mem_append, List.mem_append] at he
  rcases he with (he | he) | he
  · obtain ⟨c, -, rfl⟩ := List.mem_map.mp he
    rfl
  · simp only [List.mem_cons, List.not_mem_nil, or_false] at he
    rcases he with rfl | rfl <;> rfl
  · exact certFiles_authorityDown e he

theorem createTransport_keeping (enabled : Bool) (call : Creation) (earlier : List Component)
    (s : Server) : Keeping s (createTransport env enabled call earlier s) := by
  unfold createTransport
  split
  · exact .create (Keeping.abort (.refl s) (certFiles_networkDown earlier)) fun s => .refl s
  · exact .refl s

theorem lendNode_quiet (c : Component) (s : Server) : Quiet s (lendNode c s) := by
  unfold lendNode
  split
  · exact .lend s c _
  · exact .refl s

/-- A transport, handed the node or not. -/
theorem Keeping.map {s : Server} {r : Except Aborted Server} (h : Keeping s r) {f : Server → Server}
    (hf : ∀ s, Quiet s (f s)) : Keeping s (r.map f) := by
  cases r with
  | ok s' => exact Quiet.trans h (hf s')
  | error a => exact h

theorem afterCerts_keeping (s : Server) : Keeping s (afterCerts env s) := by
  refine (copyNodePaths_keeping env s).bind fun s => ?_
  refine (createNetwork_keeping env s).bind fun s => ?_
  refine Keeping.bind ?_ fun s => ?_
  · exact ((createTransport_keeping env _ _ _ _).map (lendNode_quiet _)).of_quiet
      (registerRoutes_quiet env s)
  refine ((createTransport_keeping env _ _ _ s).map (lendNode_quiet _)).bind fun s => ?_
  refine (createTransport_keeping env _ _ _ s).bind fun s => ?_
  refine ((createTransport_keeping env _ _ _ s).map (lendNode_quiet _)).bind fun s => ?_
  exact Quiet.createUnchecked env s _ _

theorem beforeCerts_keeping (args : OffsdArgs) :
    Keeping (blank args) (beforeCerts env args override) := by
  refine (bringUpStore_keeping env override args).bind fun s => ?_
  have hcaches : Quiet s (createCaches env s) :=
    (Quiet.createUnchecked env s _ _).trans (.createUnchecked env _ _ _)
  exact ((createHttpServer_keeping env _).of_quiet hcaches).bind fun s => loadCaCert_keeping env s

/-- What is written where the certificates are looked for. -/
theorem written_adoptNodeCert (s : Server) :
    written (adoptNodeCert env s).log = written s.log ++ generated env s.args := by
  have hensure : ∀ cert key, written (ensureCert env s cert key).log = written s.log ++
      if env.access cert ∧ env.access key then [] else [cert, key] := by
    intro cert key
    unfold ensureCert
    split
    · simp
    · simp [Server.emit, written, Event.certFiles]
  unfold adoptNodeCert generated nodePair
  cases s.args.text .nodeCertPath with
  | none =>
    cases s.args.text .nodeKeyPath with
    | none =>
      cases s.args.text .configDir with
      | none => simp
      | some configDir =>
        dsimp only
        cases env.pathJoin configDir (lit "certs/node.pem") with
        | none => simp
        | some cert =>
          cases env.pathJoin configDir (lit "certs/node-key.pem") with
          | none => simp
          | some key => exact hensure cert key
    | some key => simp
  | some cert =>
    cases s.args.text .nodeKeyPath with
    | none => simp
    | some key => exact hensure cert key

/-- **What a start writes**: nothing before the certificates, and then the pair if one of its
files is missing. -/
theorem written_startup (args : OffsdArgs) :
    written (startLog (startup env args override)) =
      match beforeCerts env args override with
      | .ok _ => generated env args
      | .error _ => [] := by
  have hbefore := beforeCerts_keeping env override args
  rw [startup_eq]
  cases hcerts : beforeCerts env args override with
  | error a =>
    rw [hcerts] at hbefore
    exact hbefore
  | ok s =>
    rw [hcerts] at hbefore
    have hafter := afterCerts_keeping env (adoptNodeCert env s)
    have hwritten : written (startLog (afterCerts env (adoptNodeCert env s))) =
        written (adoptNodeCert env s).log := by
      cases hend : afterCerts env (adoptNodeCert env s) with
      | ok s' =>
        rw [hend] at hafter
        exact hafter.written
      | error a =>
        rw [hend] at hafter
        exact hafter
    show written (startLog (afterCerts env (adoptNodeCert env s))) = generated env args
    rw [hwritten, written_adoptNodeCert, hbefore.written, hbefore.args]
    rfl

end Parts

/-! ## Starts, reloads and what happens to the files in between -/

/-- The files, with their contents in `κ`, and the arguments of the daemon that is about to
begin a cycle, if there is one. -/
structure Machine (κ : Type) where
  disk : Text → Option κ
  daemon : Option OffsdArgs

inductive Move (κ : Type)
  /-- A file is created, written or deleted from outside. -/
  | change (path : Text) (content : Option κ)
  /-- A daemon is started, with any arguments. -/
  | launch (args : OffsdArgs)
  /-- A cycle of the daemon.  What it generates for a path is given by `pem`. -/
  | cycle (c : Cycle) (pem : Text → κ)

variable {κ : Type}

namespace Machine

/-- The cycle, with the files that there are. -/
def sees (m : Machine κ) (c : Cycle) : Cycle :=
  { c with env := { c.env with access := fun path => (m.disk path).isSome } }

/-- The `_startup` of a cycle. -/
def start (m : Machine κ) (c : Cycle) (args : OffsdArgs) : Except Aborted Server :=
  startup (m.sees c).env args c.override

/-- The files of the node's identity that the `_startup` of a cycle writes. -/
def writes (m : Machine κ) (c : Cycle) (args : OffsdArgs) : List Text :=
  if c.pidFileWritten then written (startLog (m.start c args)) else []

/-- The arguments of the next cycle, if there is one. -/
def next (m : Machine κ) (c : Cycle) (args : OffsdArgs) : Option OffsdArgs :=
  if c.pidFileWritten ∧ c.reload then
    match m.start c args with
    | .ok s => some s.args
    | .error _ => none
  else none

def step (m : Machine κ) : Move κ → Option (Machine κ)
  | .change path content => some { m with disk := Function.update m.disk path content }
  | .launch args => some { m with daemon := some args }
  | .cycle c pem => m.daemon.map fun args =>
    { disk := fun path => if path ∈ m.writes c args then some (pem path) else m.disk path
      daemon := m.next c args }

/-- The cycles of the machine are those of `_run_offsd`. -/
theorem runCycles_next (m : Machine κ) (c : Cycle) (args : OffsdArgs) (rest : List Cycle) :
    ∃ outcome, runCycles args (m.sees c :: rest) =
      outcome :: (m.next c args).elim [] fun args => runCycles args rest := by
  rw [runCycles, next, start]
  have hpid : (m.sees c).pidFileWritten = c.pidFileWritten := rfl
  have hreload : (m.sees c).reload = c.reload := rfl
  have hoverride : (m.sees c).override = c.override := rfl
  rw [hpid, hreload, hoverride]
  cases c.pidFileWritten with
  | false => exact ⟨_, rfl⟩
  | true =>
    cases startup (m.sees c).env args c.override with
    | error a => cases c.reload <;> exact ⟨_, rfl⟩
    | ok s => cases c.reload <;> exact ⟨_, rfl⟩

end Machine

/-- **A move overwrites no file of a node's identity** that is there when a `_startup` runs. -/
def Spares (m : Machine κ) : Move κ → Prop
  | .cycle c _ => ∀ args, m.daemon = some args → ∀ path ∈ m.writes c args, m.disk path = none
  | _ => True

/-- **A start that gets as far as the certificates finds both files or neither.**  Nothing is
asked of a cycle that ends before, of a node without paths for them, or of the other moves. -/
def FindsPair (m : Machine κ) : Move κ → Prop
  | .cycle c _ => ∀ args, m.daemon = some args → c.pidFileWritten = true →
    (beforeCerts (m.sees c).env args c.override).isOk = true →
    ∀ cert key, nodePair (m.sees c).env args = some (cert, key) →
      ((m.disk cert).isSome ↔ (m.disk key).isSome)
  | _ => True

theorem spares_iff_findsPair (m : Machine κ) (move : Move κ) :
    Spares m move ↔ FindsPair m move := by
  rcases move with _ | _ | ⟨c, pem⟩
  · exact Iff.rfl
  · exact Iff.rfl
  · refine forall₂_congr fun args hargs => ?_
    rw [Machine.writes, Machine.start, written_startup]
    cases c.pidFileWritten with
    | false => simp
    | true =>
      cases beforeCerts (m.sees c).env args c.override with
      | error a => simp [Except.isOk, Except.toBool]
      | ok s =>
        have hok : (Except.ok s : Except Aborted Server).isOk = true := rfl
        have hgenerated : ∀ cert key, nodePair (m.sees c).env args = some (cert, key) →
            generated (m.sees c).env args =
              if (m.disk cert).isSome ∧ (m.disk key).isSome then [] else [cert, key] := by
          intro cert key hpair
          rw [generated, hpair]
          rfl
        simp only [if_true, hok, forall_const]
        cases hpair : nodePair (m.sees c).env args with
        | none => simp [generated, hpair]
        | some pair =>
          obtain ⟨cert, key⟩ := pair
          rw [hgenerated cert key hpair]
          cases hcert : m.disk cert <;> cases hkey : m.disk key <;> simp [hcert, hkey]

/-- **No start overwrites a file of the node's identity**, in a run, just if every start that gets
as far as the certificates finds both files or neither.  The files are looked at anew in each
cycle and may come and go in between, so this is a statement about each step of the run by itself
(`spares_iff_findsPair`): where both are there the start writes neither, and where one is missing
it writes both. -/
theorem node_identity_kept_iff (m : Machine κ) (moves : List (Move κ)) :
    Meets Machine.step Spares m moves ↔ Meets Machine.step FindsPair m moves :=
  meets_congr spares_iff_findsPair

/-- **Identity is durable**: as long as the starts find both files or neither, a file that is
not changed from outside keeps its content. -/
theorem node_identity_durable {m m' : Machine κ} {moves : List (Move κ)} {path : Text}
    {content : κ} (hpairs : Meets Machine.step FindsPair m moves)
    (houtside : ∀ content', .change path content' ∉ moves)
    (hrun : exec Machine.step m moves = some m') (hfile : m.disk path = some content) :
    m'.disk path = some content := by
  have hlabels : Meets Machine.step (fun _ move => ∀ content', move ≠ .change path content') m
      moves := by
    refine meets_of_labels (fun move hmove content' => ?_) m
    rintro rfl
    exact houtside content' hmove
  have hspares := (meets_congr fun m move => (spares_iff_findsPair m move).symm).mp hpairs
  refine exec_invariant_of_meets (I := fun m => m.disk path = some content) ?_ hfile
    (hspares.and hlabels) hrun
  rintro m move m' hfile ⟨hspares, hother⟩ hstep
  cases move with
  | change path' content' =>
    cases hstep
    have hne : path ≠ path' := fun h => hother content' (h ▸ rfl)
    exact (Function.update_of_ne hne _ _).trans hfile
  | launch args =>
    cases hstep
    exact hfile
  | cycle c pem =>
    obtain ⟨args, hargs, rfl⟩ := Option.map_eq_some_iff.mp hstep
    refine (if_neg fun hwritten => ?_).trans hfile
    rw [hspares args hargs path hwritten] at hfile
    cases hfile

/-- The disk of a node that has lost its certificate. -/
def keyAlone : Text → Option Nat :=
  fun path => if path = lit "/var/lib/offs/certs/node-key.pem" then some 1 else none

/-- **A start without the certificate overwrites the key.** -/
theorem lone_key_overwritten :
    ¬Meets Machine.step Spares ⟨keyAlone, none⟩
      [.launch plainArgs, .cycle ⟨true, soundEnv, none, false⟩ fun _ => 2] := by
  rintro ⟨-, hspares, -⟩
  have hkey := hspares plainArgs rfl (lit "/var/lib/offs/certs/node-key.pem") (.tail _ (.head _))
  exact absurd hkey (by decide)

end Offs.Startup
