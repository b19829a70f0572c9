import OffsProof.Startup

/-! # What a failed start leaves behind

A start that returns -1 should have destroyed every component it created, each once and after the
components that were given it, and should have released the strings it took over from the
override (`CleanedUp`).

The failure paths before the pool release the override and have nothing to destroy.  From the
pool to the block cache they destroy the components in order, but never call
`config_free_members`: only the members that `_startup` has replaced by then are released.  From
the OFD cache on every path is wrong.  The path of the HTTP server forgets the authority; all
others destroy the authority before the block cache, which was created with it.

So the condition (`CleansUp`) says how far a start may come before it fails, and what the
override may have in it; it is about the environment, the arguments and the override.  A start
is followed in three stretches, each with what is known of the server there: nothing but that it
is on the way up (`Rising`), with the strings that have been freed so far (`Storing`), and with a
block cache that holds the authority (`Stored`).  A part of `_startup` either goes on in the
stretch or ends with a failure path of which the verdict is known (`Judged`, `Untidy`), and the
chain of them is `failed_start_cleaned_up_iff`.
-/
namespace Offs.Startup
open CText Daemon Teardown

/-! ## Reading the log -/

def Created (log : List Event) (c : Component) : Prop :=
  ∃ call given, .create call given ∈ log ∧ call.component = c

/-- The component `d` was given `c` when it was created. -/
def Holds (log : List Event) (d c : Component) : Prop :=
  ∃ call given, .create call given ∈ log ∧ call.component = d ∧ c ∈ given

def Event.destroys : Event → Option Component
  | .destroy c => some c
  | _ => none

/-- The components destroyed, in order. -/
def destroyed (log : List Event) : List Component := log.filterMap Event.destroys

/-- What a start that returns -1 should leave: every component that it has created is destroyed
once and after those that hold it, and every string that it has taken over from the override has
been freed. -/
structure CleanedUp (override : Option (Config Text)) (log : List Event) : Prop where
  components : TearsDown (Created log) (Holds log) (destroyed log)
  members : ∀ c, override = some c → ∀ m t, (m, t) ∈ c.strings → .free m ⟨.override, t⟩ ∈ log

@[simp] theorem destroyed_append (a b : List Event) :
    destroyed (a ++ b) = destroyed a ++ destroyed b :=
  List.filterMap_append

/-- The destroy calls of a failure path that do anything. -/
theorem destroyed_effective (s : Server) (calls : List Event) :
    destroyed (calls.filter s.effective) = (destroyed calls).filter s.alive := by
  induction calls with
  | nil => rfl
  | cons call calls ih =>
    cases call with
    | destroy c =>
      cases halive : s.alive c <;> simp_all [destroyed, Event.destroys, Server.effective]
    | _ => exact ih

theorem Created.append {log : List Event} {c : Component} (h : Created log c) (more : List Event) :
    Created (log ++ more) c := by
  obtain ⟨call, given, hmem, hc⟩ := h
  exact ⟨call, given, List.mem_append_left _ hmem, hc⟩

theorem Holds.append {log : List Event} {c d : Component} (h : Holds log d c) (more : List Event) :
    Holds (log ++ more) d c := by
  obtain ⟨call, given, hmem, hd, hc⟩ := h
  exact ⟨call, given, List.mem_append_left _ hmem, hd, hc⟩

/-! ## Servers on the way up -/

/-- Whom a component may be given when it is created. -/
def borrows : Component → List Component
  | .pool | .authority => []
  | .timer | .tupleCache | .httpServer => [.pool]
  | .blockCache => [.timer, .pool, .authority]
  | .ofdCache => [.pool, .blockCache]
  | .network => [.authority, .blockCache, .timer, .pool]
  | .wsTransport | .wtTransport | .wtH3Transport | .unixTransport =>
    [.pool, .blockCache, .ofdCache, .tupleCache]
  | .updateActor => [.pool, .timer]

theorem not_mem_borrows_self (c : Component) : c ∉ borrows c := by
  cases c <;> decide

/-- **A server on the way up.**  Its pointers are the components that the log created, each given no
more than it borrows, and nothing has been destroyed.  This is all that a failure path needs to
be judged by the components it names. -/
structure Rising (s : Server) : Prop where
  created_iff : ∀ c, Created s.log c ↔ s.alive c
  given : ∀ call given, .create call given ∈ s.log → given ⊆ borrows call.component
  intact : destroyed s.log = []

/-- Neither creates nor destroys. -/
def Event.plain : Event → Bool
  | .create .. | .destroy _ => false
  | _ => true

theorem mem_of_plain {log more : List Event} (hmore : ∀ e ∈ more, e.plain) {call : Creation}
    {given : List Component} : .create call given ∈ log ++ more ↔ .create call given ∈ log := by
  constructor
  · intro h
    rcases List.mem_append.mp h with h | h
    · exact h
    · exact absurd (hmore _ h) (by simp [Event.plain])
  · exact List.mem_append_left _

theorem destroyed_of_plain {more : List Event} (hmore : ∀ e ∈ more, e.plain) :
    destroyed more = [] := by
  refine List.filterMap_eq_nil_iff.mpr fun e he => ?_
  cases e with
  | destroy c => exact absurd (hmore _ he) (by simp [Event.plain])
  | _ => rfl

@[simp] theorem Server.emit_alive (s : Server) (events : List Event) :
    (s.emit events).alive = s.alive :=
  rfl

theorem Rising.blank (args : OffsdArgs) : Rising (blank args) := by
  refine ⟨fun c => ?_, ?_, rfl⟩
  · simp [Created, Startup.blank]
  · intro call given hmem
    cases hmem

/-- Only the log and the pointers matter. -/
theorem Rising.of_eq {s s' : Server} (h : Rising s) (hlog : s'.log = s.log)
    (halive : s'.alive = s.alive) : Rising s' :=
  ⟨by rw [hlog, halive]; exact h.created_iff, by rw [hlog]; exact h.given,
    by rw [hlog]; exact h.intact⟩

theorem Rising.emit {s : Server} (h : Rising s) {events : List Event}
    (hplain : ∀ e ∈ events, e.plain) : Rising (s.emit events) := by
  refine ⟨fun c => ?_, ?_, ?_⟩
  · rw [Server.emit_alive, ← h.created_iff c]
    simp only [Created, Server.emit, mem_of_plain hplain]
  · intro call given hmem
    exact h.given call given ((mem_of_plain hplain).mp hmem)
  · simp [Server.emit, h.intact, destroyed_of_plain hplain]

theorem Server.add_alive {s : Server} {call : Creation} {given : List Component} {c : Component} :
    (s.add call given).alive c ↔ c = call.component ∨ s.alive c := by
  by_cases hc : c = call.component <;> simp [Server.add, Function.update, hc]

theorem Server.create_cases (env : Env) (s : Server) (call : Creation) (given : List Component) :
    (env.ok (.create call.component) = false ∧ s.create env call given = none) ∨
      (env.ok (.create call.component) = true ∧
        s.create env call given = some (s.add call given)) := by
  unfold Server.create
  cases env.ok (.create call.component) <;> simp

theorem Rising.add {s : Server} (h : Rising s) {call : Creation} {given : List Component}
    (hgiven : given ⊆ borrows call.component) : Rising (s.add call given) := by
  refine ⟨fun c => ?_, ?_, ?_⟩
  · rw [Server.add_alive, ← h.created_iff c]
    constructor
    · rintro ⟨call', given', hmem, rfl⟩
      rcases List.mem_append.mp hmem with hmem | hmem
      · exact .inr ⟨call', given', hmem, rfl⟩
      · cases List.mem_singleton.mp hmem
        exact .inl rfl
    · rintro (rfl | hcreated)
      · exact ⟨call, _, List.mem_append_right _ (List.mem_singleton_self _), rfl⟩
      · exact hcreated.append _
  · intro call' given' hmem
    rcases List.mem_append.mp hmem with hmem | hmem
    · exact h.given call' given' hmem
    · cases List.mem_singleton.mp hmem
      exact fun c hc => hgiven (List.mem_of_mem_filter hc)
  · rw [Server.add, destroyed_append, h.intact]
    rfl

/-- A server on the way up that has at most the components of `named`.  The list is what the parts
so far can have created, and what a failure path at this point has to name. -/
structure Within (named : List Component) (s : Server) : Prop extends Rising s where
  has : ∀ c, s.alive c → c ∈ named

theorem Within.add {named : List Component} {s : Server} (h : Within named s) {call : Creation}
    {given : List Component} (hgiven : given ⊆ borrows call.component) :
    Within (call.component :: named) (s.add call given) := by
  refine ⟨h.toRising.add hgiven, fun c hc => ?_⟩
  rcases Server.add_alive.mp hc with rfl | halive
  · exact List.mem_cons_self
  · exact List.mem_cons_of_mem _ (h.has c halive)

theorem Within.of_eq {named : List Component} {s s' : Server} (h : Within named s)
    (hlog : s'.log = s.log) (halive : s'.alive = s.alive) : Within named s' :=
  ⟨h.toRising.of_eq hlog halive, by rw [halive]; exact h.has⟩

theorem Within.emit {named : List Component} {s : Server} (h : Within named s)
    {events : List Event} (hplain : ∀ e ∈ events, e.plain) : Within named (s.emit events) :=
  ⟨h.toRising.emit hplain, h.has⟩

/-- What a failure path destroys. -/
theorem Rising.destroyed_abort {s : Server} (h : Rising s) (step : Step) (calls : List Event) :
    destroyed (s.abort step calls).server.log = (destroyed calls).filter s.alive := by
  simp [Server.abort, Server.emit, h.intact, destroyed_effective]

/-! ## The strings of the override -/

section Store
variable (env : Env) (override : Option (Config Text))

/-- **A server before its store is up.**  It has at most the components of `named`, and
of the override's strings it has freed those of the members `freed`; the rest are in
its configuration. -/
structure Storing (freed : List Member) (named : List Component) (s : Server) : Prop
    extends Within named s where
  frees : ∀ m t, .free m ⟨.override, t⟩ ∈ s.log ↔
    m ∈ freed ∧ ∃ c, override = some c ∧ (m, t) ∈ c.strings
  bootstrapPeers : .bootstrapPeers ∉ freed →
    s.config.bootstrapPeers = (takenConfig env override).bootstrapPeers
  apiKeyHash : .apiKeyHash ∉ freed →
    s.config.apiKeyHash = (takenConfig env override).apiKeyHash

/-- Every string of the override belongs to one of these members. -/
def Spent (freed : List Member) : Prop :=
  ∀ c, override = some c → ∀ m t, (m, t) ∈ c.strings → m ∈ freed

end Store

theorem Config.mem_strings {σ : Type} {c : Config σ} {m : Member} {t : σ} :
    (m, t) ∈ c.strings ↔
      (m = .bootstrapPeers ∧ c.bootstrapPeers = some t) ∨
      (m = .apiKeyHash ∧ c.apiKeyHash = some t) ∨
      ∃ name, m = .other name ∧ (name, t) ∈ c.others := by
  simp [Config.strings, eq_comm, and_comm]

/-- Only the two members that `_startup` replaces are ever freed on the way. -/
theorem spent_iff {override : Option (Config Text)} {freed : List Member}
    (hother : ∀ name, .other name ∉ freed) :
    Spent override freed ↔ ∀ c, override = some c → c.others = [] ∧
      (c.bootstrapPeers.isSome → .bootstrapPeers ∈ freed) ∧
      (c.apiKeyHash.isSome → .apiKeyHash ∈ freed) := by
  refine forall_congr' fun c => imp_congr_right fun _ => ?_
  constructor
  · intro h
    refine ⟨List.eq_nil_iff_forall_not_mem.mpr fun p hp => ?_, fun hsome => ?_, fun hsome => ?_⟩
    · exact hother p.1 (h _ p.2 (Config.mem_strings.mpr (.inr (.inr ⟨p.1, rfl, hp⟩))))
    · obtain ⟨t, ht⟩ := Option.isSome_iff_exists.mp hsome
      exact h _ t (Config.mem_strings.mpr (.inl ⟨rfl, ht⟩))
    · obtain ⟨t, ht⟩ := Option.isSome_iff_exists.mp hsome
      exact h _ t (Config.mem_strings.mpr (.inr (.inl ⟨rfl, ht⟩)))
  · rintro ⟨hothers, hbootstrap, hhash⟩ m t hmem
    rcases Config.mem_strings.mp hmem with ⟨rfl, ht⟩ | ⟨rfl, ht⟩ | ⟨name, -, hname⟩
    · exact hbootstrap (by rw [ht]; rfl)
    · exact hhash (by rw [ht]; rfl)
    · rw [hothers] at hname
      cases hname

/-- Neither creates nor frees. -/
def Event.closing : Event → Bool
  | .create .. | .free .. => false
  | _ => true

/-- **A failure path in order** cleans up exactly when no string of the override is left
in the configuration. -/
theorem Storing.cleanedUp_iff {env : Env} {override : Option (Config Text)} {freed : List Member}
    {named : List Component} {s : Server} (h : Storing env override freed named s) {step : Step}
    {calls : List Event} (hclosing : ∀ e ∈ calls, e.closing)
    (horder : InOrder (fun d c => c ∈ borrows d) (destroyed calls))
    (hnamed : named ⊆ destroyed calls) :
    CleanedUp override (s.abort step calls).server.log ↔ Spent override freed := by
  -- The path neither creates nor frees, so both are read off the log before it.
  have hfilter : ∀ e ∈ calls.filter s.effective, e.closing := fun e he =>
    hclosing e (List.mem_of_mem_filter he)
  have hcreate : ∀ call given, .create call given ∈ (s.abort step calls).server.log ↔
      .create call given ∈ s.log := by
    intro call given
    refine ⟨fun hmem => ?_, List.mem_append_left _⟩
    rcases List.mem_append.mp hmem with hmem | hmem
    · exact hmem
    · exact absurd (hfilter _ hmem) (by simp [Event.closing])
  have hfree : ∀ m p, .free m p ∈ (s.abort step calls).server.log ↔ .free m p ∈ s.log := by
    intro m p
    refine ⟨fun hmem => ?_, List.mem_append_left _⟩
    rcases List.mem_append.mp hmem with hmem | hmem
    · exact hmem
    · exact absurd (hfilter _ hmem) (by simp [Event.closing])
  constructor
  · intro hclean c hc m t hmem
    exact ((h.frees m t).mp ((hfree _ _).mp (hclean.members c hc m t hmem))).1
  · intro hspent
    refine ⟨?_, fun c hc m t hmem =>
      (hfree _ _).mpr ((h.frees m t).mpr ⟨hspent c hc m t hmem, c, hc, hmem⟩)⟩
    rw [h.destroyed_abort]
    refine tearsDown_filter horder not_mem_borrows_self (fun c => ?_) (fun c hc => hnamed (h.has c hc)) ?_
    · rw [← h.created_iff c]
      simp only [Created, hcreate]
    · rintro c d ⟨call, given, hmem, rfl, hc⟩
      exact h.given call given ((hcreate call given).mp hmem) hc

theorem mem_takenConfig {env : Env} {override : Option (Config Text)} {m : Member} {t : Text} :
    (m, ⟨.override, t⟩) ∈ (takenConfig env override).strings ↔
      ∃ c, override = some c ∧ (m, t) ∈ c.strings := by
  cases override with
  | none => simp [takenConfig, Config.mem_strings, Config.map]
  | some c => simp [takenConfig, Config.mem_strings, Config.map]

namespace Storing
variable {env : Env} {override : Option (Config Text)} {freed : List Member}
  {named : List Component} {s : Server}

theorem add (h : Storing env override freed named s) {call : Creation} {given : List Component}
    (hgiven : given ⊆ borrows call.component) :
    Storing env override freed (call.component :: named) (s.add call given) := by
  refine ⟨h.toWithin.add hgiven, fun m t => ?_, h.bootstrapPeers, h.apiKeyHash⟩
  rw [← h.frees m t]
  simp [Server.add]

/-- Free a member of the override's configuration, and store something in its place. -/
theorem free (h : Storing env override freed named s) {m : Member} {p : Option Pointer}
    (hp : ∀ q, p = some q ↔ (m, q) ∈ (takenConfig env override).strings) {config : Config Pointer}
    (hbootstrap : m ≠ .bootstrapPeers → config.bootstrapPeers = s.config.bootstrapPeers)
    (hhash : m ≠ .apiKeyHash → config.apiKeyHash = s.config.apiKeyHash) :
    Storing env override (m :: freed) named { s.freeMember m p with config := config } := by
  have hwithin : Within named (s.freeMember m p) := by
    refine h.toWithin.emit fun e he => ?_
    obtain ⟨q, -, rfl⟩ := List.mem_map.mp he
    rfl
  refine ⟨hwithin.of_eq rfl rfl, fun m' t => ?_, fun hnot => ?_, fun hnot => ?_⟩
  · have hmem : .free m' ⟨.override, t⟩ ∈ (s.freeMember m p).log ↔
        .free m' ⟨.override, t⟩ ∈ s.log ∨ (m' = m ∧ p = some ⟨.override, t⟩) := by
      simp [Server.freeMember, Server.emit, eq_comm, and_comm]
    rw [hmem, h.frees m' t, hp, mem_takenConfig, List.mem_cons]
    constructor
    · rintro (⟨hfreed, hc⟩ | ⟨rfl, hc⟩)
      · exact ⟨.inr hfreed, hc⟩
      · exact ⟨.inl rfl, hc⟩
    · rintro ⟨rfl | hfreed, hc⟩
      · exact .inr ⟨rfl, hc⟩
      · exact .inl ⟨hfreed, hc⟩
  · obtain ⟨hne, hnot⟩ := not_or.mp (List.mem_cons.not.mp hnot)
    exact (hbootstrap (Ne.symm hne)).trans (h.bootstrapPeers hnot)
  · obtain ⟨hne, hnot⟩ := not_or.mp (List.mem_cons.not.mp hnot)
    exact (hhash (Ne.symm hne)).trans (h.apiKeyHash hnot)

end Storing

/-! ## Up to the block cache -/

section Conditions
variable (env : Env) (args : OffsdArgs)

/-- Making the state directories or the pool fails. -/
def FailsWithoutPool : Prop :=
  ((args.text .cacheDir).isSome ∧ env.ok .cacheDir = false) ∨
    ((args.text .configDir).isSome ∧ env.ok .configDir = false) ∨
    env.ok (.create .pool) = false

/-- Copying the bootstrap peers, or making the API key or its hash, fails. -/
def FailsBeforeHash : Prop :=
  ((args.text .bootstrapPeers).isSome ∧ env.ok .bootstrapPeers = false) ∨
    env.ok (if (args.text .apiKey).isSome then .apiKey else .randomKey) = false ∨
    env.ok .bcrypt = false

/-- Storing the hash, the authority or the block cache fails. -/
def FailsAtStore : Prop :=
  env.ok .apiKeyHash = false ∨ env.ok (.create .authority) = false ∨
    env.ok (.create .blockCache) = false

/-- **When a failed start cleans up.**  It fails before it has a pool; or it fails no
later than at the block cache, and the override has no string but peers that
`--bootstrap` replaces and, once the hash has been made, an API key hash. -/
def CleansUp (override : Option (Config Text)) : Prop :=
  FailsWithoutPool env args ∨
    ((FailsBeforeHash env args ∨ FailsAtStore env) ∧
      ∀ c, override = some c → c.others = [] ∧
        (c.bootstrapPeers.isSome → (args.text .bootstrapPeers).isSome) ∧
        (c.apiKeyHash.isSome → ¬ FailsBeforeHash env args))

/-- The members freed before the API key is made. -/
def bootstrapFreed : List Member :=
  if (args.text .bootstrapPeers).isSome then [.bootstrapPeers] else []

end Conditions

section Store
variable {env : Env} {args : OffsdArgs} {override : Option (Config Text)}

theorem other_not_mem_bootstrapFreed (name : Text) : .other name ∉ bootstrapFreed args := by
  unfold bootstrapFreed
  split <;> simp

theorem mem_bootstrapFreed :
    .bootstrapPeers ∈ bootstrapFreed args ↔ (args.text .bootstrapPeers).isSome := by
  unfold bootstrapFreed
  split <;> simp_all

theorem apiKeyHash_not_mem_bootstrapFreed : .apiKeyHash ∉ bootstrapFreed args := by
  unfold bootstrapFreed
  split <;> simp

theorem cleansUp_iff_before (hpool : ¬ FailsWithoutPool env args)
    (hhash : FailsBeforeHash env args) :
    CleansUp env args override ↔ Spent override (bootstrapFreed args) := by
  rw [spent_iff other_not_mem_bootstrapFreed]
  simp [CleansUp, hpool, hhash, mem_bootstrapFreed, apiKeyHash_not_mem_bootstrapFreed]

theorem cleansUp_iff_store (hpool : ¬ FailsWithoutPool env args)
    (hhash : ¬ FailsBeforeHash env args) (hstore : FailsAtStore env) :
    CleansUp env args override ↔ Spent override (.apiKeyHash :: bootstrapFreed args) := by
  rw [spent_iff (by simp [other_not_mem_bootstrapFreed])]
  simp [CleansUp, hpool, hhash, hstore, mem_bootstrapFreed]

variable (env args override) in
/-- The failure path cleans up just when it should: the verdict on the path is the one that the
condition gives for the whole start. -/
def Judged (a : Aborted) : Prop :=
  CleanedUp override a.server.log ↔ CleansUp env args override

theorem releaseOverride_plain {e : Event} (he : e ∈ releaseOverride override) :
    e.plain ∧ ∀ c, e ≠ .destroy c := by
  cases override with
  | none => cases he
  | some c =>
    rcases List.mem_append.mp he with he | he
    · obtain ⟨p, -, rfl⟩ := List.mem_map.mp he
      exact ⟨rfl, by simp⟩
    · cases List.mem_singleton.mp he
      exact ⟨rfl, by simp⟩

/-- A start that has created nothing only has the override to release. -/
theorem cleanedUp_blank (step : Step) :
    CleanedUp override ((blank args).abort step (releaseOverride override)).server.log := by
  have hcalls : (releaseOverride override).filter (blank args).effective =
      releaseOverride override := by
    refine List.filter_eq_self.mpr fun e he => ?_
    have hne := (releaseOverride_plain he).2
    cases e with
    | destroy c => exact absurd rfl (hne c)
    | _ => rfl
  have hrising : Rising ((blank args).abort step (releaseOverride override)).server := by
    unfold Server.abort
    rw [hcalls]
    exact (Rising.blank args).emit fun e he => (releaseOverride_plain he).1
  have hnothing : ∀ c, ¬ Created ((blank args).abort step (releaseOverride override)).server.log c :=
    fun c hc => absurd ((hrising.created_iff c).mp hc) (by simp [Server.abort, Server.emit, blank])
  refine ⟨⟨fun c hc => (hnothing c hc).elim, fun _ d hd => (hnothing d hd).elim⟩, ?_⟩
  rintro c rfl m t hmem
  unfold Server.abort
  rw [hcalls]
  exact List.mem_append_right _ (List.mem_append_left _ (List.mem_map.mpr ⟨(m, t), hmem, rfl⟩))

theorem judged_blank {step : Step} (hfails : FailsWithoutPool env args) :
    Judged env args override ((blank args).abort step (releaseOverride override)) :=
  ⟨fun _ => .inl hfails, fun _ => cleanedUp_blank step⟩

theorem ensureDir_ends {f : TextField} {step : Step}
    (hfails : (args.text f).isSome ∧ env.ok step = false → FailsWithoutPool env args) :
    Ends (fun s => s = blank args ∧ ¬ ((args.text f).isSome ∧ env.ok step = false))
      (Judged env args override) (ensureDir env f step override (blank args)) := by
  unfold ensureDir
  split
  · rename_i h
    exact judged_blank (hfails h)
  · rename_i h
    exact ⟨rfl, h⟩

/-- The server with nothing but a running pool. -/
def withPool (args : OffsdArgs) : Server :=
  ((blank args).add (.schedulerPool args.workerCount) []).emit [.startPool]

theorem createPool_ends (hcache : ¬ ((args.text .cacheDir).isSome ∧ env.ok .cacheDir = false))
    (hconfig : ¬ ((args.text .configDir).isSome ∧ env.ok .configDir = false)) :
    Ends (fun s => s = withPool args ∧ ¬ FailsWithoutPool env args)
      (Judged env args override) (createPool env override (blank args)) := by
  unfold createPool
  rcases Server.create_cases env (blank args) (.schedulerPool args.workerCount) [] with
    ⟨hok, hcreate⟩ | ⟨hok, hcreate⟩
  · rw [show (blank args).args = args from rfl, hcreate]
    exact judged_blank (.inr (.inr hok))
  · rw [show (blank args).args = args from rfl, hcreate]
    refine ⟨rfl, ?_⟩
    rintro (h | h | h)
    · exact hcache h
    · exact hconfig h
    · exact absurd (hok.symm.trans h) (by decide)

/-- The configuration is taken over with all its strings, if none has been freed. -/
theorem Within.storing {named : List Component} {s : Server} (h : Within named s)
    (hunfreed : ∀ m p, .free m p ∉ s.log) :
    Storing env override [] named
      ({ s with config := applyArgs s.args (takenConfig env override) }.emit
        (if override.isSome then [.freeShell] else [])) := by
  have hwithin : Within named (s.emit (if override.isSome then [.freeShell] else [])) :=
    h.emit (by cases override <;> simp [Event.plain])
  refine ⟨hwithin.of_eq rfl rfl, fun m t => ?_, fun _ => rfl, fun _ => rfl⟩
  cases override <;> simp [Server.emit, hunfreed]

theorem withPool_within : Within [.pool] (withPool args) := by
  have hblank : Within [] (blank args) := ⟨Rising.blank args, fun c hc => by cases hc⟩
  have hgiven : [] ⊆ borrows (Creation.schedulerPool args.workerCount).component :=
    List.nil_subset _
  exact (hblank.add hgiven).emit (by simp [Event.plain])

theorem withPool_unfreed (m : Member) (p : Pointer) : .free m p ∉ (withPool args).log := by
  simp [withPool, Server.emit, Server.add, blank]

theorem Server.createUnchecked_cases (env : Env) (s : Server) (call : Creation)
    (given : List Component) :
    s.createUnchecked env call given = s ∨
      s.createUnchecked env call given = s.add call given := by
  unfold Server.createUnchecked
  rcases Server.create_cases env s call given with ⟨-, h⟩ | ⟨-, h⟩
  · exact .inl (by rw [h]; rfl)
  · exact .inr (by rw [h]; rfl)

theorem takeConfig_storing :
    Storing env override [] [.timer, .pool] (takeConfig env override (withPool args)) := by
  -- The timer's pointer is not checked, so the start goes on without one.
  rcases Server.createUnchecked_cases env (withPool args) .timerActor [.pool] with h | h
  · refine Within.storing ?_ ?_ <;> rw [h]
    · exact ⟨withPool_within.toRising, fun c hc => List.mem_cons_of_mem _ (withPool_within.has c hc)⟩
    · exact withPool_unfreed
  · have hgiven : [.pool] ⊆ borrows Creation.timerActor.component := by decide
    refine Within.storing ?_ ?_ <;> rw [h]
    · exact withPool_within.add hgiven
    · simp [Server.add, withPool_unfreed]

theorem takeConfig_args (s : Server) : (takeConfig env override s).args = s.args := by
  unfold takeConfig Server.createUnchecked Server.create
  split <;> rfl

/-- The failure path of the steps that have only the timer and the pool. -/
theorem Storing.judged_timerAndPool {freed : List Member} {s : Server} {step : Step}
    (h : Storing env override freed [.timer, .pool] s)
    (hcleans : CleansUp env args override ↔ Spent override freed) :
    Judged env args override (s.abort step timerAndPool) :=
  (h.cleanedUp_iff (by decide) (by decide) (by decide)).trans hcleans.symm

theorem overrideBootstrap_ends {s : Server} (hargs : s.args = args)
    (hpool : ¬ FailsWithoutPool env args) (h : Storing env override [] [.timer, .pool] s) :
    Ends (fun s' => s'.args = args ∧ Storing env override (bootstrapFreed args) [.timer, .pool] s' ∧
        ¬ ((args.text .bootstrapPeers).isSome ∧ env.ok .bootstrapPeers = false))
      (Judged env args override) (overrideBootstrap env s) := by
  unfold overrideBootstrap
  rw [hargs]
  cases hpeers : args.text .bootstrapPeers with
  | none => exact ⟨hargs, by simpa [bootstrapFreed, hpeers] using h, by simp⟩
  | some peers =>
    have hfreed : bootstrapFreed args = [.bootstrapPeers] := by simp [bootstrapFreed, hpeers]
    have hp : ∀ q, s.config.bootstrapPeers = some q ↔
        (.bootstrapPeers, q) ∈ (takenConfig env override).strings := by
      simp [Config.mem_strings, h.bootstrapPeers]
    dsimp only
    split
    · rename_i hok
      refine ⟨hargs, ?_, by simp [hok]⟩
      rw [hfreed]
      exact h.free hp (fun hne => absurd rfl hne) fun _ => rfl
    · rename_i hok
      have hfails : FailsBeforeHash env args := .inl ⟨by rw [hpeers]; rfl, by simpa using hok⟩
      have hcleans := @cleansUp_iff_before env args override hpool hfails
      rw [hfreed] at hcleans
      refine Storing.judged_timerAndPool ?_ hcleans
      exact h.free hp (fun hne => absurd rfl hne) fun _ => rfl

theorem plaintextKey_ends {freed : List Member} {s : Server} (hargs : s.args = args)
    (h : Storing env override freed [.timer, .pool] s)
    (hcleans : FailsBeforeHash env args → (CleansUp env args override ↔ Spent override freed)) :
    Ends (fun _ => env.ok (if (args.text .apiKey).isSome then .apiKey else .randomKey) = true)
      (Judged env args override) (plaintextKey env s) := by
  unfold plaintextKey
  rw [hargs]
  cases hkey : args.text .apiKey with
  | none =>
    cases hok : env.ok .randomKey with
    | true => simp [Ends, hok]
    | false =>
      rw [if_neg Bool.false_ne_true]
      exact h.judged_timerAndPool (hcleans (.inr (.inl (by simp [hkey, hok]))))
  | some key =>
    dsimp only
    cases hok : env.ok .apiKey with
    | true => simp [Ends, hok]
    | false =>
      rw [if_neg Bool.false_ne_true]
      exact h.judged_timerAndPool (hcleans (.inr (.inl (by simp [hkey, hok]))))

theorem storeApiKey_ends {s : Server} (hargs : s.args = args)
    (hpool : ¬ FailsWithoutPool env args)
    (hpeers : ¬ ((args.text .bootstrapPeers).isSome ∧ env.ok .bootstrapPeers = false))
    (h : Storing env override (bootstrapFreed args) [.timer, .pool] s) :
    Ends (fun s' => Storing env override (.apiKeyHash :: bootstrapFreed args) [.timer, .pool] s' ∧
        ¬ FailsBeforeHash env args ∧ env.ok .apiKeyHash = true)
      (Judged env args override) (storeApiKey env s) := by
  have hbefore := @cleansUp_iff_before env args override hpool
  have hends := plaintextKey_ends hargs h hbefore
  unfold storeApiKey
  split
  · rename_i a ha
    rw [ha] at hends
    exact hends
  · rename_i key hkey
    rw [hkey] at hends
    have hp : ∀ q, s.config.apiKeyHash = some q ↔
        (.apiKeyHash, q) ∈ (takenConfig env override).strings := by
      simp [Config.mem_strings, h.apiKeyHash apiKeyHash_not_mem_bootstrapFreed]
    cases hbcrypt : env.ok .bcrypt with
    | false => exact h.judged_timerAndPool (hbefore (.inr (.inr hbcrypt)))
    | true =>
      have hhash : ¬ FailsBeforeHash env args := by
        rintro (hfails | hfails | hfails)
        · exact hpeers hfails
        · exact absurd (hends.symm.trans hfails) (by decide)
        · exact absurd (hbcrypt.symm.trans hfails) (by decide)
      dsimp only
      rw [if_pos rfl]
      split
      · rename_i hok
        exact ⟨h.free hp (fun _ => rfl) (fun hne => absurd rfl hne), hhash, hok⟩
      · rename_i hok
        have hstore : FailsAtStore env := .inl (by simpa using hok)
        refine Storing.judged_timerAndPool ?_ (cleansUp_iff_store hpool hhash hstore)
        exact h.free hp (fun _ => rfl) fun hne => absurd rfl hne

theorem createAuthority_ends {s : Server} (hpool : ¬ FailsWithoutPool env args)
    (hhash : ¬ FailsBeforeHash env args)
    (h : Storing env override (.apiKeyHash :: bootstrapFreed args) [.timer, .pool] s) :
    Ends (fun s' => Storing env override (.apiKeyHash :: bootstrapFreed args)
          [.authority, .timer, .pool] s' ∧ s'.alive .authority ∧ env.ok (.create .authority) = true)
      (Judged env args override) (createAuthority env s) := by
  have hgiven : [] ⊆ borrows (Creation.authority s.config).component := by simp
  unfold createAuthority
  rcases Server.create_cases env s (.authority s.config) [] with ⟨hok, hcreate⟩ | ⟨hok, hcreate⟩
  · rw [hcreate]
    exact (h.cleanedUp_iff (by decide) (by decide) (by decide)).trans
      (cleansUp_iff_store hpool hhash (.inr (.inl hok))).symm
  · rw [hcreate]
    exact ⟨h.add hgiven, Server.add_alive.mpr (.inl rfl), hok⟩

/-- **A server with a store.**  The block cache holds the authority, which is why no failure path
from here on is in order: it would have to destroy the block cache first. -/
structure Stored (s : Server) : Prop where
  rising : Rising s
  alive : s.alive .authority
  holds : Holds s.log .blockCache .authority

theorem createBlockCache_ends {s : Server} (hpool : ¬ FailsWithoutPool env args)
    (hhash : ¬ FailsBeforeHash env args)
    (h : Storing env override (.apiKeyHash :: bootstrapFreed args) [.authority, .timer, .pool] s)
    (halive : s.alive .authority) :
    Ends (fun s' => Stored s' ∧ env.ok (.create .blockCache) = true)
      (Judged env args override) (createBlockCache env s) := by
  have hgiven : [.timer, .pool, .authority] ⊆ borrows .blockCache := by decide
  unfold createBlockCache
  rcases Server.create_cases env s
      (.blockCache s.config (s.args.text .cacheDir) s.config.maxCapacityBytes)
      [.timer, .pool, .authority] with ⟨hok, hcreate⟩ | ⟨hok, hcreate⟩
  · rw [hcreate]
    exact (h.cleanedUp_iff (by decide) (by decide) (by decide)).trans
      (cleansUp_iff_store hpool hhash (.inr (.inr hok))).symm
  · rw [hcreate]
    refine ⟨⟨?_, ?_, ?_⟩, hok⟩
    · exact (h.toRising.add hgiven).emit (by simp [Event.plain])
    · rw [Server.emit_alive]
      exact Server.add_alive.mpr (.inr halive)
    · refine Holds.append ⟨_, _, List.mem_append_right _ (List.mem_singleton_self _), rfl, ?_⟩ _
      exact List.mem_filter.mpr ⟨by decide, halive⟩

/-- **Up to the block cache**, a start that fails cleans up just when it should. -/
theorem bringUpStore_ends :
    Ends (fun s => Stored s ∧ ¬ CleansUp env args override) (Judged env args override)
      (bringUpStore env override args) := by
  unfold bringUpStore
  refine Ends.bind (ensureDir_ends .inl) ?_
  rintro s ⟨rfl, hcache⟩
  refine Ends.bind (ensureDir_ends fun h => .inr (.inl h)) ?_
  rintro s ⟨rfl, hconfig⟩
  refine Ends.bind (createPool_ends hcache hconfig) ?_
  rintro s ⟨rfl, hpool⟩
  refine Ends.bind (overrideBootstrap_ends (takeConfig_args _) hpool takeConfig_storing) ?_
  rintro s ⟨hargs, hstoring, hpeers⟩
  refine Ends.bind (storeApiKey_ends hargs hpool hpeers hstoring) ?_
  rintro s ⟨hstoring, hhash, hstored⟩
  refine Ends.bind (createAuthority_ends hpool hhash hstoring) ?_
  rintro s ⟨hstoring, halive, hauthority⟩
  refine (createBlockCache_ends hpool hhash hstoring halive).mono ?_ fun _ h => h
  rintro s ⟨h, hblockCache⟩
  refine ⟨h, ?_⟩
  -- Every step up to here has succeeded, which is what the condition denies.
  rintro (hfails | ⟨hfails | hfails | hfails | hfails, -⟩)
  · exact hpool hfails
  · exact hhash hfails
  · exact absurd (hstored.symm.trans hfails) (by decide)
  · exact absurd (hauthority.symm.trans hfails) (by decide)
  · exact absurd (hblockCache.symm.trans hfails) (by decide)

end Store

/-! ## From the OFD cache on -/

namespace Stored
variable {env : Env} {override : Option (Config Text)} {s s' : Server}

theorem of_eq (h : Stored s) (hlog : s'.log = s.log) (halive : s'.alive = s.alive) : Stored s' :=
  ⟨h.rising.of_eq hlog halive, by rw [halive]; exact h.alive, by rw [hlog]; exact h.holds⟩

theorem emit (h : Stored s) {events : List Event} (hplain : ∀ e ∈ events, e.plain) :
    Stored (s.emit events) :=
  ⟨h.rising.emit hplain, h.alive, h.holds.append _⟩

theorem add (h : Stored s) {call : Creation} {given : List Component}
    (hgiven : given ⊆ borrows call.component) : Stored (s.add call given) :=
  ⟨h.rising.add hgiven, Server.add_alive.mpr (.inr h.alive), h.holds.append _⟩

theorem createUnchecked (h : Stored s) {call : Creation} {given : List Component}
    (hgiven : given ⊆ borrows call.component) : Stored (s.createUnchecked env call given) := by
  rcases Server.createUnchecked_cases env s call given with heq | heq
  · rw [heq]
    exact h
  · rw [heq]
    exact h.add hgiven

theorem created_authority (h : Stored s) : Created s.log .authority :=
  (h.rising.created_iff _).mpr h.alive

/-- A failure path that forgets the authority. -/
theorem not_cleanedUp_of_leaked (h : Stored s) {step : Step} {calls : List Event}
    (hleaked : .authority ∉ destroyed calls) :
    ¬ CleanedUp override (s.abort step calls).server.log := by
  intro hclean
  have htears := hclean.components
  rw [h.rising.destroyed_abort] at htears
  exact not_tearsDown_of_leaked (h.created_authority.append _)
    (fun hmem => hleaked (List.mem_of_mem_filter hmem)) htears

/-- A failure path that destroys the authority under the block cache. -/
theorem not_cleanedUp_of_held (h : Stored s) {step : Step} {calls : List Event}
    {before rest : List Component} (hcalls : destroyed calls = before ++ .authority :: rest)
    (hheld : .blockCache ∉ before) : ¬ CleanedUp override (s.abort step calls).server.log := by
  intro hclean
  have htears := hclean.components
  have hcreated : Created s.log .blockCache := by
    obtain ⟨call, given, hmem, hcall, -⟩ := h.holds
    exact ⟨call, given, hmem, hcall⟩
  rw [h.rising.destroyed_abort, hcalls, List.filter_append, List.filter_cons_of_pos h.alive] at htears
  exact not_tearsDown_of_held (hcreated.append _) (h.holds.append _)
    (fun hmem => hheld (List.mem_of_mem_filter hmem)) htears

end Stored

section Node
variable {env : Env} {override : Option (Config Text)} {s : Server}

variable (override) in
/-- The failure path does not clean up. -/
def Untidy (a : Aborted) : Prop := ¬ CleanedUp override a.server.log

theorem createCaches_stored (h : Stored s) : Stored (createCaches env s) := by
  have hofd : [.pool, .blockCache] ⊆ borrows .ofdCache := by decide
  have htuple : [.pool] ⊆ borrows .tupleCache := by decide
  exact (h.createUnchecked hofd).createUnchecked htuple

theorem createHttpServer_ends (h : Stored s) :
    Ends Stored (Untidy override) (createHttpServer env s) := by
  have hgiven : [.pool] ⊆ borrows .httpServer := by decide
  unfold createHttpServer
  split
  · exact h
  · rcases Server.create_cases env s (.httpServer (s.args.text .host) (s.args.port .port)) [.pool]
      with ⟨-, hcreate⟩ | ⟨-, hcreate⟩
    · rw [hcreate]
      exact h.not_cleanedUp_of_leaked (by decide)
    · rw [hcreate]
      exact (h.add hgiven).emit (by simp [Event.plain])

/-- The path that the steps from the CA certificate to the network share. -/
theorem Stored.untidy_authorityDown (h : Stored s) {step : Step} :
    Untidy override (s.abort step authorityDown) :=
  h.not_cleanedUp_of_held rfl List.not_mem_nil

theorem loadCaCert_ends (h : Stored s) : Ends Stored (Untidy override) (loadCaCert env s) := by
  unfold loadCaCert
  split
  · exact h.untidy_authorityDown
  · exact h

theorem ensureCert_stored (h : Stored s) {cert key : Text} : Stored (ensureCert env s cert key) := by
  unfold ensureCert
  split
  · exact h
  · exact h.emit (by simp [Event.plain])

theorem adoptNodeCert_stored (h : Stored s) : Stored (adoptNodeCert env s) := by
  unfold adoptNodeCert
  split
  · split
    · exact (ensureCert_stored h).of_eq rfl rfl
    · exact h
  · exact ensureCert_stored h
  · exact h

theorem copyNodePaths_ends (h : Stored s) :
    Ends Stored (Untidy override) (copyNodePaths env s) := by
  unfold copyNodePaths
  split
  · exact h.untidy_authorityDown
  · dsimp only
    split
    · refine Stored.untidy_authorityDown ?_
      exact h.of_eq rfl rfl
    · exact h.of_eq rfl rfl

theorem createNetwork_ends (h : Stored s) :
    Ends Stored (Untidy override) (createNetwork env s) := by
  have hgiven : [.authority, .blockCache, .timer, .pool] ⊆ borrows .network := by decide
  unfold createNetwork
  dsimp only
  have hseeded : Stored (s.emit (s.config.bootstrapPeers.toList.map
      fun p => .seedBootstrap p.text)) :=
    h.emit (by simp [Event.plain])
  generalize s.emit (s.config.bootstrapPeers.toList.map fun p => .seedBootstrap p.text) = seeded
    at hseeded
  rcases Server.create_cases env seeded (.network seeded.config)
    [.authority, .blockCache, .timer, .pool] with ⟨-, hcreate⟩ | ⟨-, hcreate⟩
  · rw [hcreate]
    exact hseeded.untidy_authorityDown
  · rw [hcreate]
    exact hseeded.add hgiven

theorem Stored.lend (h : Stored s) {c : Component} {given : List Component} :
    Stored (s.lend c given) :=
  h.emit (by simp [Event.plain])

theorem registerRoutes_stored (h : Stored s) : Stored (registerRoutes env s) := by
  unfold registerRoutes
  split
  · have hauth : Stored (s.emit (if env.ok .softAuth then
        s.config.apiKeyHash.toList.map fun p => .useSoftAuth p.text else [])) :=
      h.emit (by split <;> simp [Event.plain])
    exact hauth.lend.lend.lend.lend.lend
  · exact h

theorem lendNode_stored (h : Stored s) {c : Component} : Stored (lendNode c s) := by
  unfold lendNode
  split
  · exact h.lend
  · exact h

theorem destroyed_networkDown (transports : List Component) :
    destroyed (networkDown transports) =
      (transports ++ [Component.network]) ++ Component.authority ::
        [.httpServer, .tupleCache, .ofdCache, .blockCache, .timer, .pool] := by
  have hmap : destroyed (transports.map .destroy) = transports := by
    simp [destroyed, List.filterMap_map, Function.comp_def, Event.destroys]
  rw [networkDown, destroyed_append, destroyed_append, hmap]
  rfl

/-- The path that the transports share.  The earlier ones are not the block cache, so the
authority still goes first. -/
theorem Stored.untidy_networkDown (h : Stored s) {step : Step} {earlier : List Component}
    (hearlier : .blockCache ∉ earlier) : Untidy override (s.abort step (networkDown earlier)) := by
  have hheld : .blockCache ∉ earlier ++ [Component.network] := by simp [hearlier]
  exact h.not_cleanedUp_of_held (destroyed_networkDown earlier) hheld

theorem createTransport_ends (h : Stored s) {enabled : Bool} {call : Creation}
    {earlier : List Component}
    (hgiven : borrows call.component = [.pool, .blockCache, .ofdCache, .tupleCache])
    (hearlier : .blockCache ∉ earlier) :
    Ends Stored (Untidy override) (createTransport env enabled call earlier s) := by
  unfold createTransport
  split
  · rcases Server.create_cases env s call [.pool, .blockCache, .ofdCache, .tupleCache] with
      ⟨-, hcreate⟩ | ⟨-, hcreate⟩
    · rw [hcreate]
      exact h.untidy_networkDown hearlier
    · rw [hcreate]
      exact h.add (fun c hc => hgiven ▸ hc)
  · exact h

theorem Ends.lendNode {r : Except Aborted Server} {c : Component}
    (hr : Ends Stored (Untidy override) r) : Ends Stored (Untidy override) (r.map (lendNode c)) := by
  cases r with
  | ok s => exact lendNode_stored hr
  | error a => exact hr

theorem createWsTransport_ends (h : Stored s) :
    Ends Stored (Untidy override) (createWsTransport env s) := by
  have hgiven : borrows .wsTransport = [.pool, .blockCache, .ofdCache, .tupleCache] := rfl
  unfold createWsTransport
  exact Ends.lendNode (createTransport_ends h hgiven (by decide))

theorem createWtTransport_ends (h : Stored s) :
    Ends Stored (Untidy override) (createWtTransport env s) := by
  have hgiven : borrows .wtTransport = [.pool, .blockCache, .ofdCache, .tupleCache] := rfl
  unfold createWtTransport
  exact Ends.lendNode (createTransport_ends h hgiven (by decide))

theorem createWtH3Transport_ends (h : Stored s) :
    Ends Stored (Untidy override) (createWtH3Transport env s) := by
  have hgiven : borrows .wtH3Transport = [.pool, .blockCache, .ofdCache, .tupleCache] := rfl
  unfold createWtH3Transport
  exact createTransport_ends h hgiven (by decide)

theorem createUnixTransport_ends (h : Stored s) :
    Ends Stored (Untidy override) (createUnixTransport env s) := by
  have hgiven : borrows .unixTransport = [.pool, .blockCache, .ofdCache, .tupleCache] := rfl
  unfold createUnixTransport
  exact Ends.lendNode (createTransport_ends h hgiven (by decide))

/-- **From the OFD cache on**, no failure path cleans up. -/
theorem bringUpNode_ends (h : Stored s) : Ends Stored (Untidy override) (bringUpNode env s) := by
  unfold bringUpNode
  refine Ends.bind (createHttpServer_ends (createCaches_stored h)) fun s h => ?_
  refine Ends.bind (loadCaCert_ends h) fun s h => ?_
  refine Ends.bind (copyNodePaths_ends (adoptNodeCert_stored h)) fun s h => ?_
  refine Ends.bind (createNetwork_ends h) fun s h => ?_
  refine Ends.bind (createWsTransport_ends (registerRoutes_stored h)) fun s h => ?_
  refine Ends.bind (createWtTransport_ends h) fun s h => ?_
  refine Ends.bind (createWtH3Transport_ends h) fun s h => ?_
  refine Ends.bind (createUnixTransport_ends h) fun s h => ?_
  have hgiven : [.pool, .timer] ⊆ borrows .updateActor := by decide
  exact h.createUnchecked hgiven

end Node

/-- **A failed start cleans up** exactly when it fails before it has a pool, or no later than at
the block cache and with nothing of the override left in the configuration.  A start has two
parts: up to the block cache its failure paths are in order but for the strings of the override
(`bringUpStore_ends`), and from the OFD cache on none of them is (`bringUpNode_ends`), since they
leave the block cache alone, which holds the authority. -/
theorem failed_start_cleaned_up_iff {env : Env} {args : OffsdArgs}
    {override : Option (Config Text)} {a : Aborted} (h : startup env args override = .error a) :
    CleanedUp override a.server.log ↔ CleansUp env args override := by
  have hstore := @bringUpStore_ends env args override
  unfold startup at h
  cases hs : bringUpStore env override args with
  | error a' =>
    rw [hs] at h hstore
    cases h
    exact hstore
  | ok s =>
    rw [hs] at h hstore
    have hnode := @bringUpNode_ends env override s hstore.1
    rw [show bringUpNode env s = .error a from h] at hnode
    exact ⟨fun hclean => (hnode hclean).elim, fun hcleans => (hstore.2 hcleans).elim⟩

/-- A machine on which only one step fails. -/
def failingAt (step : Step) : Env where
  ok := fun other => other != step
  access := fun _ => true
  pathJoin := fun dir name => some (dir ++ lit "/" ++ name)
  randomKey := lit "key"
  bcrypt := id
  configDefault := .zero

/-- The arguments of a start without flags and config file. -/
def plainArgs : OffsdArgs :=
  { (((defaultArgs none).setText .unixPath (some localSocketPath)).setText .cacheDir
      (some (lit "/var/cache/offs"))).setText .configDir (some (lit "/var/lib/offs")) with
    workerCount := 2 }

theorem failed_start_cleaned_up_iff_store :
    ∃ a, startup (failingAt (.create .blockCache)) plainArgs none = .error a ∧
      CleanedUp none a.server.log := by
  have hcleans : CleansUp (failingAt (.create .blockCache)) plainArgs none :=
    .inr ⟨.inr (.inr (.inr rfl)), fun c hc => by cases hc⟩
  exact ⟨_, rfl, (failed_start_cleaned_up_iff rfl).mpr hcleans⟩

/-- When the HTTP server cannot be created, the authority is never destroyed. -/
theorem http_failure_leaks_authority :
    ∃ a, startup (failingAt (.create .httpServer)) plainArgs none = .error a ∧
      Created a.server.log .authority ∧ .authority ∉ destroyed a.server.log ∧
      ¬ CleanedUp none a.server.log := by
  have hcreated : ∀ a, startup (failingAt (.create .httpServer)) plainArgs none = .error a →
      Created a.server.log .authority := by
    rintro a ⟨⟩
    exact ⟨_, _, .tail _ (.tail _ (.tail _ (.head _))), rfl⟩
  have hleaked : ∀ a, startup (failingAt (.create .httpServer)) plainArgs none = .error a →
      .authority ∉ destroyed a.server.log := by
    rintro a ⟨⟩
    decide
  exact ⟨_, rfl, hcreated _ rfl, hleaked _ rfl,
    fun h => not_tearsDown_of_leaked (hcreated _ rfl) (hleaked _ rfl) h.components⟩

end Offs.Startup
