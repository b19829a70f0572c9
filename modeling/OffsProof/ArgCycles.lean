import OffsProof.ArgStrings

/-! # The strings of the arguments, over all cycles

The members of `offsd_args_t` live as long as the process: every cycle of `_run_offsd` reads
them, a start may adopt two paths of its own, and `_free_args` comes last.  In between, the
authority is lent `metrics_server_url`, without a copy.  Whether `authority_destroy` frees what
it finds there is a matter of liboffs (`frees`): if it does, and the member is set, the daemon
cannot end without freeing the string twice (`strings_freed_once`).

There are two cases, and the cycles are gone through once for each.  Where the lent string stays
with the arguments, the strings are owned from one cycle to the next (`HeapArgs.Sound`): a start
only reads them and may put two strings of its own into members that are NULL
(`startupOnHeap_sound`), so that `_free_args` finds each block once.  Where the authority frees
it, the first teardown leaves the member with a pointer to a block that is gone
(`destroyAuthority_gone`); no step puts another one there (`startupOnHeap_slot`), and the next
use of the string, or `_free_args`, is a fault.

That the cycles stop at nothing but a fault (`OnlyFaults`) is what makes the two cases one
statement about the outcome.
-/
namespace Offs.Startup
open CText Daemon OwnedSlots
open Function (update)

/-! ## A start -/

/-- `path_join`, into the heap. -/
def pathJoined (heap : Heap Text) : Option Text → Option Nat × Heap Text
  | some t => (some heap.calls, heap.grant t)
  | none => (none, heap.refuse)

/-- The default paths of the node's certificate and key, adopted if both can be made. -/
def adoptPaths (env : Env) (a : HeapArgs) : Except Stop HeapArgs :=
  match a.strings.slot .nodeCertPath, a.strings.slot .nodeKeyPath,
      a.strings.contents .configDir with
  | none, none, some configDir =>
    let cert := pathJoined a.strings.heap (env.pathJoin configDir (lit "certs/node.pem"))
    let key := pathJoined cert.2 (env.pathJoin configDir (lit "certs/node-key.pem"))
    match cert.1, key.1 with
    | some _, some _ =>
      .ok { a with
        strings := ⟨key.2, update (update a.strings.slot .nodeCertPath cert.1) .nodeKeyPath key.1⟩ }
    | _, _ =>
      match (key.2.free cert.1).bind fun heap => heap.free key.1 with
      | none => .error .fault
      | some heap => .ok { a with strings := ⟨heap, a.strings.slot⟩ }
  | _, _, _ => .ok a

/-- The strings that `_startup` uses before the certificates. -/
def beforeReads : List TextField :=
  [.cacheDir, .configDir, .bootstrapPeers, .apiKey, .host, .caCertPath]

/-- The strings that `_startup` uses from the certificates on. -/
def afterReads : List TextField :=
  [.nodeCertPath, .nodeKeyPath, .configDir, .host, .wsCertPath, .wsKeyPath, .wtCertPath,
    .wtKeyPath, .caCertPath, .unixPath]

/-- The strings that `_start_listening` uses. -/
def listenReads : List TextField :=
  [.host, .wsCertPath, .wsKeyPath, .wtCertPath, .wtKeyPath, .unixPath, .relayUrl]

/-- `_startup`. -/
def startupOnHeap (env : Env) (override : Option (Config Text)) (a : HeapArgs) :
    Except Stop (Except Aborted Server × HeapArgs) := do
  a.reads beforeReads
  match beforeCerts env a.args override with
  | .error aborted => return (.error aborted, a)
  | .ok s =>
    let a ← adoptPaths env a
    a.reads afterReads
    return (afterCerts env (adoptNodeCert env s), a)

/-! ## The cycles -/

/-- `authority_destroy`, as far as the string is concerned that it was lent. -/
def destroyAuthority (frees : Bool) (a : HeapArgs) : Except Stop HeapArgs :=
  if frees then
    match a.strings.heap.free (a.strings.slot .metricsServerUrl) with
    | none => .error .fault
    | some heap => .ok { a with strings := ⟨heap, a.strings.slot⟩ }
  else .ok a

/-- `_free_args`, at the end of the process. -/
def freeArgs (a : HeapArgs) : Except Stop HeapArgs :=
  match Store.freeSlots a.strings.slot freedMembers a.strings.heap with
  | none => .error .fault
  | some heap => .ok { a with strings := ⟨heap, a.strings.slot⟩ }

/-- The loop of `_run_offsd`, for as many cycles as are given. -/
def cyclesOnHeap (frees : Bool) : List Cycle → HeapArgs → Except Stop (List Outcome × HeapArgs)
  | [], a => return ([], a)
  | cycle :: rest, a => do
    a.reads [.pidFile]
    if cycle.pidFileWritten then
      let (started, a) ← startupOnHeap cycle.env cycle.override a
      match started with
      | .error aborted =>
        a.reads [.pidFile]
        return ([.failed aborted], a)
      | .ok s =>
        a.reads listenReads
        -- `_shutdown`, which also removes the PID file.
        let a ← destroyAuthority frees a
        a.reads [.pidFile]
        if cycle.reload then
          a.reads [.configDir]
          let (outcomes, a) ← cyclesOnHeap frees rest a
          return (.served s true :: outcomes, a)
        else
          let a ← freeArgs a
          return ([.served s false], a)
    else return ([.noPidFile], a)

/-- `_run_offsd`, with its strings. -/
def runOnHeap (grants : Nat → Bool) (frees : Bool) {Doc : Type} (api : PendingApi Doc) (h : Host)
    (files : Files Doc) (argv : List Text) (cycles : List Cycle) :
    Except Stop (List Outcome × HeapArgs) := do
  let (a, _, _) ← HeapArgs.start grants api h files argv
  cyclesOnHeap frees cycles a

/-! ## While every string is owned -/

section Owned
variable {a : HeapArgs}

theorem ensureCert_args (env : Env) (s : Server) (cert key : Text) :
    (ensureCert env s cert key).args = s.args := by
  unfold ensureCert
  split <;> rfl

/-- Two strings of one's own are put into members that are NULL. -/
theorem sound_put_pair (h : a.Sound) {f g : TextField} (hf : f.borrowed = false)
    (hg : g.borrowed = false) (hfg : g ≠ f) (hslotf : a.strings.slot f = none)
    (hslotg : a.strings.slot g = none) (t u : Text) :
    ∃ b : HeapArgs, b = { a with
        strings := ⟨(a.strings.heap.grant t).grant u, update (update a.strings.slot f
          (some a.strings.heap.calls)) g (some (a.strings.heap.grant t).calls)⟩ } ∧
      b.Sound ∧ b.args = (a.args.setText f (some t)).setText g (some u) := by
  obtain ⟨howned, hcontents⟩ := h.owned.grant hslotf t
  have h₁ := h.put hf howned
  have e₁ := HeapArgs.args_put hf hcontents
  have hslotg' : (a.strings.put f (some a.strings.heap.calls) (a.strings.heap.grant t)).slot g =
      none := by
    simpa [Store.put, Function.update_of_ne hfg] using hslotg
  obtain ⟨howned', hcontents'⟩ := howned.grant hslotg' u
  refine ⟨_, rfl, h₁.put hg howned', ?_⟩
  rw [← e₁]
  exact HeapArgs.args_put (a := ⟨a.strings.put f (some a.strings.heap.calls)
    (a.strings.heap.grant t), a.rest⟩) hg hcontents'

/-- The same strings, in another heap. -/
theorem sound_of_contents (h : a.Sound) {heap : Heap Text}
    (howned : OwnedSlots.Owned (⟨heap, a.strings.slot⟩ : Store TextField Text))
    (hcontents : (⟨heap, a.strings.slot⟩ : Store TextField Text).contents = a.strings.contents) :
    ({ a with strings := ⟨heap, a.strings.slot⟩ } : HeapArgs).Sound ∧
      ({ a with strings := ⟨heap, a.strings.slot⟩ } : HeapArgs).args = a.args := by
  refine ⟨⟨howned, h.borrowed⟩, ?_⟩
  have htexts : ({ a with strings := ⟨heap, a.strings.slot⟩ } : HeapArgs).texts = a.texts := by
    funext f
    simp [HeapArgs.texts, hcontents]
  rw [HeapArgs.args, htexts]
  rfl

theorem adoptPaths_sound (env : Env) (h : a.Sound) {s : Server} (hs : s.args = a.args) :
    ∃ b, adoptPaths env a = .ok b ∧ b.Sound ∧ b.args = (adoptNodeCert env s).args := by
  have hcert := HeapArgs.slot_eq_none_iff h (f := .nodeCertPath) rfl
  have hkey := HeapArgs.slot_eq_none_iff h (f := .nodeKeyPath) rfl
  have hdir := HeapArgs.args_text_owned a (f := .configDir) rfl
  unfold adoptPaths adoptNodeCert
  rw [hs, ← hdir]
  cases hc : a.strings.slot .nodeCertPath with
  | some p =>
    obtain ⟨cert, htext⟩ := Option.ne_none_iff_exists'.mp (HeapArgs.text_ne_none h rfl hc)
    rw [htext]
    refine ⟨a, rfl, h, ?_⟩
    cases a.args.text .nodeKeyPath with
    | none => exact hs.symm
    | some key => exact hs.symm.trans (ensureCert_args env s cert key).symm
  | none =>
    rw [hcert.mp hc]
    cases hk : a.strings.slot .nodeKeyPath with
    | some p =>
      obtain ⟨key, htext⟩ := Option.ne_none_iff_exists'.mp (HeapArgs.text_ne_none h rfl hk)
      rw [htext]
      exact ⟨a, rfl, h, hs.symm⟩
    | none =>
      rw [hkey.mp hk]
      cases a.args.text .configDir with
      | none => exact ⟨a, rfl, h, hs.symm⟩
      | some configDir =>
        dsimp only
        cases env.pathJoin configDir (lit "certs/node.pem") with
        | none =>
          cases env.pathJoin configDir (lit "certs/node-key.pem") with
          | none =>
            obtain ⟨hsound, hargs⟩ := sound_of_contents h h.owned.refuse.refuse rfl
            exact ⟨_, rfl, hsound, hargs.trans hs.symm⟩
          | some key =>
            obtain ⟨heap, hfree, howned, hcontents⟩ := h.owned.refuse.untaken key
              (a.strings.heap.refuse.grant key) rfl
            obtain ⟨hsound, hargs⟩ := sound_of_contents h howned hcontents
            refine ⟨_, ?_, hsound, hargs.trans hs.symm⟩
            have hfree : (a.strings.heap.refuse.grant key).free (some a.strings.heap.refuse.calls) =
                some heap := hfree
            simp only [pathJoined, Heap.free_none, Option.bind_some, hfree]
        | some cert =>
          cases env.pathJoin configDir (lit "certs/node-key.pem") with
          | none =>
            obtain ⟨heap, hfree, howned, hcontents⟩ := h.owned.untaken cert
              (a.strings.heap.grant cert).refuse rfl
            obtain ⟨hsound, hargs⟩ := sound_of_contents h howned hcontents
            refine ⟨_, ?_, hsound, hargs.trans hs.symm⟩
            simp only [pathJoined, hfree, Option.bind_some, Heap.free_none]
          | some key =>
            obtain ⟨b, hb, hsound, hargs⟩ := sound_put_pair h (f := .nodeCertPath)
              (g := .nodeKeyPath) rfl rfl (by decide) hc hk cert key
            refine ⟨b, by rw [hb]; rfl, hsound, ?_⟩
            rw [hargs, ← hs, ← ensureCert_args env s cert key]

theorem adoptNodeCert_metricsServerUrl (env : Env) (s : Server) :
    (adoptNodeCert env s).args.text .metricsServerUrl = s.args.text .metricsServerUrl := by
  unfold adoptNodeCert
  split
  · split
    · rw [OffsdArgs.setText_of_ne (by decide), OffsdArgs.setText_of_ne (by decide),
        ensureCert_args]
    · rfl
  · rw [ensureCert_args]
  · rfl

/-- A start does what it does with texts, and the strings stay owned. -/
theorem startupOnHeap_sound (env : Env) (h : a.Sound) (override : Option (Config Text)) :
    ∃ b, startupOnHeap env override a = .ok (startup env a.args override, b) ∧ b.Sound ∧
      b.args.text .metricsServerUrl = a.args.text .metricsServerUrl ∧
      ∀ s, startup env a.args override = .ok s → b.args = s.args := by
  have hbefore := beforeCerts_keeping env override a.args
  rw [startup_eq]
  unfold startupOnHeap
  rw [h.reads]
  cases hcerts : beforeCerts env a.args override with
  | error aborted =>
    refine ⟨a, rfl, h, rfl, fun s hs => ?_⟩
    cases hs
  | ok s =>
    rw [hcerts] at hbefore
    have hargs : s.args = a.args := hbefore.args
    obtain ⟨b, hadopt, hsound, hb⟩ := adoptPaths_sound env h hargs
    refine ⟨b, ?_, hsound, ?_, fun s' hs' => ?_⟩
    · simp only [hadopt, hsound.reads, bind, Except.bind, pure, Except.pure]
    · rw [hb, adoptNodeCert_metricsServerUrl, hargs]
    · have hafter := afterCerts_keeping env (adoptNodeCert env s)
      have hs' : afterCerts env (adoptNodeCert env s) = .ok s' := hs'
      rw [hs'] at hafter
      rw [hb]
      exact hafter.args.symm

theorem destroyAuthority_sound {frees : Bool}
    (hlent : frees = true → a.args.text .metricsServerUrl = none) (h : a.Sound) :
    destroyAuthority frees a = .ok a := by
  unfold destroyAuthority
  cases frees with
  | false => rfl
  | true =>
    have hslot := (HeapArgs.slot_eq_none_iff h (f := .metricsServerUrl) rfl).mpr (hlent rfl)
    rw [hslot]
    rfl

/-- **Where the authority leaves the lent string alone**, or is lent none, the cycles have no
fault, end as they do with texts, and free every string in the end. -/
theorem cycles_sound {frees : Bool} (cycles : List Cycle) (h : a.Sound)
    (hlent : frees = true → a.args.text .metricsServerUrl = none) :
    ∃ b, cyclesOnHeap frees cycles a = .ok (runCycles a.args cycles, b) ∧
      ((∃ s, .served s false ∈ runCycles a.args cycles) → ∀ p, b.strings.heap.block p = none) := by
  induction cycles generalizing a with
  | nil =>
    refine ⟨a, rfl, ?_⟩
    rintro ⟨s, hs⟩
    cases hs
  | cons cycle rest ih =>
    rw [cyclesOnHeap, runCycles, h.reads]
    cases hpid : cycle.pidFileWritten with
    | false =>
      refine ⟨a, rfl, ?_⟩
      rintro ⟨s, hs⟩
      simp at hs
    | true =>
      obtain ⟨b, hstart, hsound, hurl, hargs⟩ := startupOnHeap_sound cycle.env h cycle.override
      have hlent' : frees = true → b.args.text .metricsServerUrl = none := by
        intro hfrees
        rw [hurl]
        exact hlent hfrees
      have hdestroy := destroyAuthority_sound hlent' hsound
      cases hrun : startup cycle.env a.args cycle.override with
      | error aborted =>
        refine ⟨b, ?_, ?_⟩
        · simp only [hstart, hrun, hsound.reads, bind, Except.bind, pure, Except.pure, ↓reduceIte]
        · rintro ⟨s, hs⟩
          simp at hs
      | ok s =>
        have hb := hargs s hrun
        cases hreload : cycle.reload with
        | true =>
          obtain ⟨c, hrest, hend⟩ := ih hsound hlent'
          rw [hb] at hrest hend
          refine ⟨c, ?_, ?_⟩
          · simp only [hstart, hrun, hsound.reads, hdestroy, hrest, bind, Except.bind, pure,
              Except.pure, ↓reduceIte]
          · rintro ⟨s', hs'⟩
            refine hend ⟨s', ?_⟩
            simpa using hs'
        | false =>
          obtain ⟨heap, hfree, hempty⟩ := hsound.freeArgs
          refine ⟨{ b with strings := ⟨heap, b.strings.slot⟩ }, ?_, fun _ => hempty⟩
          simp only [hstart, hrun, hsound.reads, hdestroy, freeArgs, hfree, bind, Except.bind, pure,
            Except.pure, ↓reduceIte, Bool.false_eq_true]

end Owned

/-! ## The cycles stop at nothing but a fault -/

section Faults
variable {α β : Type}

/-- The only way in which a function stops is a fault; what else can go wrong is in its outcome. -/
def OnlyFaults (r : Except Stop α) : Prop := ∀ stop, r = .error stop → stop = .fault

theorem onlyFaults_ok (x : α) : OnlyFaults (.ok x) := by
  intro stop h
  cases h

theorem onlyFaults_fault : OnlyFaults (.error .fault : Except Stop α) := by
  intro stop h
  exact (Except.error.inj h).symm

theorem OnlyFaults.bind {x : Except Stop α} {f : α → Except Stop β} (hx : OnlyFaults x)
    (hf : ∀ y, OnlyFaults (f y)) : OnlyFaults (x >>= f) := by
  cases x with
  | error stop =>
    rw [hx stop rfl]
    exact onlyFaults_fault
  | ok y => exact hf y

theorem onlyFaults_reads (a : HeapArgs) (fields : List TextField) :
    OnlyFaults (a.reads fields) := by
  unfold HeapArgs.reads
  split
  · exact onlyFaults_ok ()
  · exact onlyFaults_fault

theorem onlyFaults_adoptPaths (env : Env) (a : HeapArgs) : OnlyFaults (adoptPaths env a) := by
  unfold adoptPaths
  split
  · dsimp only
    split
    · exact onlyFaults_ok _
    · split
      · exact onlyFaults_fault
      · exact onlyFaults_ok _
  · exact onlyFaults_ok a

theorem onlyFaults_startupOnHeap (env : Env) (override : Option (Config Text)) (a : HeapArgs) :
    OnlyFaults (startupOnHeap env override a) := by
  refine (onlyFaults_reads a _).bind fun _ => ?_
  split
  · exact onlyFaults_ok _
  · refine (onlyFaults_adoptPaths env a).bind fun b => ?_
    exact (onlyFaults_reads b _).bind fun _ => onlyFaults_ok _

theorem onlyFaults_destroyAuthority (frees : Bool) (a : HeapArgs) :
    OnlyFaults (destroyAuthority frees a) := by
  unfold destroyAuthority
  split
  · split
    · exact onlyFaults_fault
    · exact onlyFaults_ok _
  · exact onlyFaults_ok a

theorem onlyFaults_freeArgs (a : HeapArgs) : OnlyFaults (freeArgs a) := by
  unfold freeArgs
  split
  · exact onlyFaults_fault
  · exact onlyFaults_ok _

theorem onlyFaults_cycles (frees : Bool) (cycles : List Cycle) (a : HeapArgs) :
    OnlyFaults (cyclesOnHeap frees cycles a) := by
  induction cycles generalizing a with
  | nil => exact onlyFaults_ok _
  | cons cycle rest ih =>
    refine (onlyFaults_reads a _).bind fun _ => ?_
    split
    · refine (onlyFaults_startupOnHeap cycle.env cycle.override a).bind fun ⟨started, b⟩ => ?_
      cases started with
      | error aborted => exact (onlyFaults_reads b _).bind fun _ => onlyFaults_ok _
      | ok s =>
        refine (onlyFaults_reads b _).bind fun _ => ?_
        refine (onlyFaults_destroyAuthority frees b).bind fun c => ?_
        refine (onlyFaults_reads c _).bind fun _ => ?_
        split
        · refine (onlyFaults_reads c _).bind fun _ => ?_
          exact (ih c).bind fun _ => onlyFaults_ok _
        · exact (onlyFaults_freeArgs c).bind fun _ => onlyFaults_ok _
    · exact onlyFaults_ok _

end Faults

/-! ## If the authority frees what it was lent -/

section Lent
variable {a b : HeapArgs}

theorem of_bind {α β : Type} {x : Except Stop α} {f : α → Except Stop β} {r : β}
    (h : (x >>= f) = .ok r) : ∃ y, x = .ok y ∧ f y = .ok r := by
  cases x with
  | error stop => cases h
  | ok y => exact ⟨y, rfl, h⟩

theorem adoptPaths_slot {env : Env} (h : adoptPaths env a = .ok b) :
    b.strings.slot .metricsServerUrl = a.strings.slot .metricsServerUrl := by
  unfold adoptPaths at h
  split at h
  · dsimp only at h
    split at h
    · cases h
      dsimp only
      rw [Function.update_of_ne (by decide), Function.update_of_ne (by decide)]
    · split at h
      · cases h
      · cases h
        rfl
  · cases h
    rfl

theorem startupOnHeap_slot {env : Env} {override : Option (Config Text)}
    {started : Except Aborted Server} (h : startupOnHeap env override a = .ok (started, b)) :
    b.strings.slot .metricsServerUrl = a.strings.slot .metricsServerUrl := by
  obtain ⟨-, -, h⟩ := of_bind h
  split at h
  · cases h
    rfl
  · obtain ⟨c, hadopt, h⟩ := of_bind h
    obtain ⟨-, -, h⟩ := of_bind h
    cases h
    exact adoptPaths_slot hadopt

/-- The block is gone, and the member still points to it. -/
theorem destroyAuthority_gone {p : Nat} (hp : a.strings.slot .metricsServerUrl = some p)
    (h : destroyAuthority true a = .ok b) :
    b.strings.slot .metricsServerUrl = some p ∧ b.strings.heap.block p = none := by
  unfold destroyAuthority at h
  rw [if_pos rfl, hp, Heap.free] at h
  split at h
  · cases h
  · rename_i heap hfree
    cases h
    split at hfree
    · cases hfree
      exact ⟨hp, Function.update_self ..⟩
    · cases hfree

/-- **Where the authority frees a string that it was lent**, the daemon does not come to its
own end: the string is freed twice before. -/
theorem cycles_lent {cycles : List Cycle} {outcomes : List Outcome} {p : Nat}
    (hp : a.strings.slot .metricsServerUrl = some p)
    (h : cyclesOnHeap true cycles a = .ok (outcomes, b)) (s : Server) :
    .served s false ∉ outcomes := by
  induction cycles generalizing a outcomes with
  | nil =>
    cases h
    exact List.not_mem_nil
  | cons cycle rest ih =>
    obtain ⟨-, -, h⟩ := of_bind h
    split at h
    · obtain ⟨⟨started, a₁⟩, hstart, h⟩ := of_bind h
      have hp₁ : a₁.strings.slot .metricsServerUrl = some p := (startupOnHeap_slot hstart).trans hp
      cases started with
      | error aborted =>
        obtain ⟨-, -, h⟩ := of_bind h
        cases h
        simp
      | ok s₁ =>
        obtain ⟨-, -, h⟩ := of_bind h
        obtain ⟨a₂, hdestroy, h⟩ := of_bind h
        obtain ⟨hp₂, hgone⟩ := destroyAuthority_gone hp₁ hdestroy
        obtain ⟨-, -, h⟩ := of_bind h
        split at h
        · obtain ⟨-, -, h⟩ := of_bind h
          obtain ⟨⟨later, a₃⟩, hrest, h⟩ := of_bind h
          cases h
          simpa using ih hp₂ hrest
        · -- `_free_args` meets the member again.
          obtain ⟨a₃, hfree, -⟩ := of_bind h
          rw [freeArgs, freeSlots_gone hp₂ hgone (by decide)] at hfree
          cases hfree
    · cases h
      simp

end Lent

/-! ## The whole process -/

/-- The authority frees a string that also `_free_args` frees. -/
def FreedByBoth (frees : Bool) (args : OffsdArgs) : Prop :=
  frees = true ∧ args.text .metricsServerUrl ≠ none

/-- What a run of `_run_offsd` does with its strings, where the model with texts gives `started`.
A run to the end has the outcomes of the model with texts, unless the authority frees what it was
lent, and nothing is left on the heap if the daemon came to its own end.  A fault happens only
where the authority does that; a run without memory only where an allocation fails; and a start
that is refused is refused with texts as well. -/
def StringsKept {Doc : Type} (grants : Nat → Bool) (frees : Bool) (cycles : List Cycle)
    (started : Except StartFailure (Started Doc)) : Except Stop (List Outcome × HeapArgs) → Prop
  | .ok (outcomes, a) => ∃ first, started = .ok first ∧
      (¬ FreedByBoth frees first.args → outcomes = runCycles first.args cycles) ∧
      ((∃ s, .served s false ∈ outcomes) →
        ¬ FreedByBoth frees first.args ∧ ∀ p, a.strings.heap.block p = none)
  | .error .fault => ∃ first, started = .ok first ∧ FreedByBoth frees first.args
  | .error .noMemory => ∃ n, grants n = false
  | .error (.failure why) => started = .error why

/-- **Every string of the arguments is freed once.**  For every command line, config file and
pending document, every pattern of failing allocations and any cycles of starts, reloads and
failures: `_run_offsd` frees no string twice and uses none that is gone, unless
`authority_destroy` frees what the authority was lent and `metrics_server_url` is set.  Where
it does not, the cycles are those of the model with texts; a daemon that comes to its own end
has freed everything, and it comes to no such end where both would free the string. -/
theorem strings_freed_once (grants : Nat → Bool) (frees : Bool) {Doc : Type} (api : PendingApi Doc)
    (h : Host) (files : Files Doc) (argv : List Text) (cycles : List Cycle) :
    StringsKept grants frees cycles (runOffsd api h files argv)
      (runOnHeap grants frees api h files argv cycles) := by
  have hstart := start_follows grants api h files argv
  unfold runOnHeap
  rcases hrun : HeapArgs.start grants api h files argv with stop | ⟨a, cfg, cwd⟩
  · rw [hrun] at hstart
    cases stop with
    | fault => exact hstart.elim
    | noMemory => exact hstart
    | failure why => exact hstart
  · rw [hrun] at hstart
    obtain ⟨hsound, hstarted⟩ := hstart
    show StringsKept grants frees cycles _ (cyclesOnHeap frees cycles a)
    by_cases hboth : FreedByBoth frees a.args
    · obtain ⟨rfl, hurl⟩ := hboth
      have hslot : a.strings.slot .metricsServerUrl ≠ none := fun hnone =>
        hurl ((HeapArgs.slot_eq_none_iff hsound rfl).mp hnone)
      obtain ⟨p, hp⟩ := Option.ne_none_iff_exists'.mp hslot
      rcases hcycles : cyclesOnHeap true cycles a with stop | ⟨outcomes, b⟩
      · rw [onlyFaults_cycles true cycles a stop hcycles]
        exact ⟨_, hstarted, rfl, hurl⟩
      · refine ⟨_, hstarted, fun hno => (hno ⟨rfl, hurl⟩).elim, ?_⟩
        rintro ⟨s, hs⟩
        exact (cycles_lent hp hcycles s hs).elim
    · have hlent : frees = true → a.args.text .metricsServerUrl = none := by
        intro hfrees
        by_contra hurl
        exact hboth ⟨hfrees, hurl⟩
      obtain ⟨b, hcycles, hempty⟩ := cycles_sound cycles hsound hlent
      rw [hcycles]
      exact ⟨_, hstarted, fun _ => rfl, fun hend => ⟨hboth, hempty hend⟩⟩

-- With such an authority, a daemon that is given a metrics server dies when it is stopped.
example : runOnHeap (fun _ => true) true plainApi plainHost (plainFiles (.object []) none)
    [lit "--metrics-server", lit "http://m"] reloadThenStop = .error .fault := by rfl

end Offs.Startup
