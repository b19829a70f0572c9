import OffsProof.StagedSettings

/-! # Access over a reload

The soft-auth middleware accepts a bearer token if `bcrypt_check` finds it to match the hash of
the API key.  Every `_startup` makes that hash anew: from the configured key, which the arguments
carry from cycle to cycle, or else from a key it draws at random.

So a token that one cycle accepts stays accepted in the later ones as long as the key stays
(`reload_keeps_access`).  A daemon without a configured key draws another one at each reload,
whatever has been staged, and locks its clients out.

bcrypt belongs to liboffs.  A hash is made from a key and a salt, and is checked by making it
again; two keys that share one hash are not told apart with any other salt either.  That is what
bcrypt documents of keys that agree in their first 72 bytes, and it is all that is used of it.

Which tokens a start accepts is said once (`acceptsToken_iff`): those that no hash tells apart
from its key.  Two cycles with the same key accept the same tokens by this; and a token that two
cycles accept does not tell their keys apart, so the condition cannot be dropped
(`alike_of_accepted`).
-/
namespace Offs.Startup
open CText Daemon

/-- bcrypt, with the salts of `bcrypt_generate` in `Salt`. -/
structure Bcrypt (Salt : Type) where
  generate : Salt → Text → Text
  /-- `bcrypt_check(token, hash) == 0` -/
  check : Text → Text → Bool

namespace Bcrypt
variable {Salt : Type} (b : Bcrypt Salt)

/-- Two keys that no hash tells apart. -/
def Alike (key key' : Text) : Prop := ∀ salt, b.generate salt key = b.generate salt key'

/-- A check makes the hash again, with a salt that it finds; and two keys that share one hash
share all of them, as keys do that agree in what bcrypt looks at. -/
structure Lawful : Prop where
  check_iff : ∀ token hash, b.check token hash = true ↔ ∃ salt, b.generate salt token = hash
  alike : ∀ {salt salt' key key'}, b.generate salt key = b.generate salt' key' → b.Alike key key'

end Bcrypt

section Handler
variable {Salt : Type} (b : Bcrypt Salt)

/-- `_soft_auth_handler`: whether it marks a request as authenticated. -/
def softAuthHandler (hash : Text) (authorization : Option Text) : Bool :=
  match authorization with
  | none => false
  | some header =>
    if (lit "Bearer ").isPrefixOf header then
      let token := header.drop 7
      if token = [] then false else b.check token hash
    else false

/-- The middleware of a server, if it has one, accepts a bearer token. -/
def AcceptsToken (s : Server) (token : Text) : Prop :=
  ∃ hash ∈ hashes s.log, softAuthHandler b hash (some (lit "Bearer " ++ token)) = true

end Handler

variable {Salt : Type} {b : Bcrypt Salt}

theorem softAuthHandler_bearer (hash token : Text) :
    softAuthHandler b hash (some (lit "Bearer " ++ token)) = true ↔
      token ≠ [] ∧ b.check token hash = true := by
  have hpre : (lit "Bearer ").isPrefixOf (lit "Bearer " ++ token) = true :=
    List.isPrefixOf_iff_prefix.mpr (List.prefix_append _ _)
  have hdrop : (lit "Bearer " ++ token).drop 7 = token := rfl
  simp only [softAuthHandler, hpre, if_true, hdrop]
  by_cases htoken : token = [] <;> simp [htoken]

/-- **Which tokens a start accepts**: those that no hash tells apart from its key. -/
theorem acceptsToken_iff (hb : b.Lawful) {env : Env} {args : OffsdArgs}
    {override : Option (Config Text)} {s : Server} (hstart : startup env args override = .ok s)
    {salt : Salt} (hsalt : env.bcrypt = b.generate salt) (token : Text) :
    AcceptsToken b s token ↔ (args.port .port ≠ 0 ∧ env.ok .softAuth = true) ∧ token ≠ [] ∧
      b.Alike token (startKey env args) := by
  unfold AcceptsToken
  rw [(startup_shows hstart).hashes_eq, checkedBy, hsalt]
  simp only [softAuthHandler_bearer]
  constructor
  · rintro ⟨hash, hmem, htoken, hcheck⟩
    split at hmem
    · rename_i hon
      cases List.mem_singleton.mp hmem
      obtain ⟨salt', hsame⟩ := (hb.check_iff _ _).mp hcheck
      exact ⟨hon, htoken, hb.alike hsame⟩
    · cases hmem
  · rintro ⟨hon, htoken, halike⟩
    rw [if_pos hon]
    exact ⟨_, List.mem_singleton_self _, htoken, (hb.check_iff _ _).mpr ⟨salt, halike salt⟩⟩

/-- An API key is configured, or every cycle draws the same one.  The first is the daemon's own
way to keep its key; the second does not happen by design. -/
def KeyStays (args : OffsdArgs) (cycles : List Cycle) : Prop :=
  (args.text .apiKey).isSome ∨ ∃ key, ∀ cycle ∈ cycles, cycle.env.randomKey = key

theorem KeyStays.startKey_eq {args args' args'' : OffsdArgs} {cycles : List Cycle}
    (h : KeyStays args cycles) (hsame' : SameButCerts args args')
    (hsame'' : SameButCerts args args'') {first later : Cycle} (hfirst : first ∈ cycles)
    (hlater : later ∈ cycles) : startKey first.env args' = startKey later.env args'' := by
  unfold startKey
  rw [hsame'.text .apiKey (by decide) (by decide), hsame''.text .apiKey (by decide) (by decide)]
  rcases h with hkey | ⟨key, hkey⟩
  · obtain ⟨key, hkey⟩ := Option.isSome_iff_exists.mp hkey
    rw [hkey, Option.getD_some, Option.getD_some]
  · rw [hkey first hfirst, hkey later hlater]

/-- The start of a cycle that has served. -/
theorem runCycles_served {args : OffsdArgs} {cycles : List Cycle} {i : Nat} {s : Server}
    {reload : Bool} (h : (runCycles args cycles)[i]? = some (.served s reload)) :
    ∃ cycle ∈ cycles, ∃ args', SameButCerts args args' ∧
      startup cycle.env args' cycle.override = .ok s := by
  have hlt : i < cycles.length := by
    have hle := runCycles_length_le args cycles
    obtain ⟨hi, -⟩ := List.getElem?_eq_some_iff.mp h
    omega
  have hcycle : cycles[i]? = some cycles[i] := List.getElem?_eq_getElem hlt
  exact ⟨cycles[i], List.getElem_mem hlt, runCycles_startup hcycle h⟩

/-- **A reload does not revoke access**, as long as the key stays and the middleware can be
installed: in every run, whatever is staged in between, a token that one cycle accepts is accepted
in every other one.  What a cycle accepts are the tokens that no hash tells apart from the key it
has started with (`acceptsToken_iff`), and that is the same key in both cycles: the arguments of a
run stay as they are but for the certificates.  The salts differ, which makes no difference to
that. -/
theorem reload_keeps_access (hb : b.Lawful) {args : OffsdArgs} {cycles : List Cycle}
    (hsalt : ∀ cycle ∈ cycles, ∃ salt, cycle.env.bcrypt = b.generate salt)
    (hkey : KeyStays args cycles) (hinstalled : ∀ cycle ∈ cycles, cycle.env.ok .softAuth = true)
    {i j : Nat} {s s' : Server} {reload reload' : Bool}
    (hi : (runCycles args cycles)[i]? = some (.served s reload))
    (hj : (runCycles args cycles)[j]? = some (.served s' reload')) {token : Text}
    (haccepts : AcceptsToken b s token) : AcceptsToken b s' token := by
  obtain ⟨first, hfirst, args₁, hsame₁, hstart₁⟩ := runCycles_served hi
  obtain ⟨later, hlater, args₂, hsame₂, hstart₂⟩ := runCycles_served hj
  obtain ⟨salt₁, hsalt₁⟩ := hsalt first hfirst
  obtain ⟨salt₂, hsalt₂⟩ := hsalt later hlater
  obtain ⟨⟨hport, -⟩, htoken, halike⟩ := (acceptsToken_iff hb hstart₁ hsalt₁ token).mp haccepts
  rw [hkey.startKey_eq hsame₁ hsame₂ hfirst hlater] at halike
  rw [hsame₁.port, ← hsame₂.port] at hport
  exact (acceptsToken_iff hb hstart₂ hsalt₂ token).mpr
    ⟨⟨hport, hinstalled later hlater⟩, htoken, halike⟩

/-- The condition is needed: a token that two cycles accept does not tell their keys
apart. -/
theorem alike_of_accepted (hb : b.Lawful) {args : OffsdArgs} {cycles : List Cycle}
    (hsalt : ∀ cycle ∈ cycles, ∃ salt, cycle.env.bcrypt = b.generate salt) {i j : Nat}
    {first later : Cycle} (hfirst : cycles[i]? = some first) (hlater : cycles[j]? = some later)
    {s s' : Server} {reload reload' : Bool}
    (hi : (runCycles args cycles)[i]? = some (.served s reload))
    (hj : (runCycles args cycles)[j]? = some (.served s' reload')) {token : Text}
    (haccepts : AcceptsToken b s token) (haccepts' : AcceptsToken b s' token) :
    b.Alike (startKey first.env args) (startKey later.env args) := by
  obtain ⟨args₁, hsame₁, hstart₁⟩ := runCycles_startup hfirst hi
  obtain ⟨args₂, hsame₂, hstart₂⟩ := runCycles_startup hlater hj
  obtain ⟨salt₁, hsalt₁⟩ := hsalt first (List.mem_of_getElem? hfirst)
  obtain ⟨salt₂, hsalt₂⟩ := hsalt later (List.mem_of_getElem? hlater)
  obtain ⟨-, -, halike₁⟩ := (acceptsToken_iff hb hstart₁ hsalt₁ token).mp haccepts
  obtain ⟨-, -, halike₂⟩ := (acceptsToken_iff hb hstart₂ hsalt₂ token).mp haccepts'
  rw [startKey, hsame₁.text .apiKey (by decide) (by decide)] at halike₁
  rw [startKey, hsame₂.text .apiKey (by decide) (by decide)] at halike₂
  exact fun salt => (halike₁ salt).symm.trans (halike₂ salt)

/-- A bcrypt that does not hide the key. -/
def plainBcrypt : Bcrypt Unit := ⟨fun _ key => key, fun token hash => token == hash⟩

theorem plainBcrypt_lawful : plainBcrypt.Lawful where
  check_iff token hash := by simp [plainBcrypt]
  alike h _ := h

/-- A machine that draws the given key. -/
def drawing (key : Text) : Env := { soundEnv with randomKey := key }

/-- A reload and a stop, where the second start draws another key. -/
def twoDraws : List Cycle :=
  [⟨true, drawing (lit "k1"), none, true⟩, ⟨true, drawing (lit "k2"), none, false⟩]

theorem twoDraws_salted : ∀ cycle ∈ twoDraws, ∃ salt, cycle.env.bcrypt = plainBcrypt.generate salt := by
  intro cycle hcycle
  simp only [twoDraws, List.mem_cons, List.not_mem_nil, or_false] at hcycle
  rcases hcycle with rfl | rfl <;> exact ⟨(), rfl⟩

/-- With a configured key the token is accepted after the reload. -/
theorem reload_keeps_access_configured :
    ∃ s s', (runCycles (plainArgs.setText .apiKey (some (lit "secret"))) twoDraws) =
        [.served s true, .served s' false] ∧
      AcceptsToken plainBcrypt s (lit "secret") ∧ AcceptsToken plainBcrypt s' (lit "secret") := by
  obtain ⟨s, s', hrun, haccepts⟩ : ∃ s s',
      (runCycles (plainArgs.setText .apiKey (some (lit "secret"))) twoDraws) =
        [.served s true, .served s' false] ∧ AcceptsToken plainBcrypt s (lit "secret") := by
    exact ⟨_, _, rfl, lit "secret", .head _, rfl⟩
  have hinstalled : ∀ cycle ∈ twoDraws, cycle.env.ok .softAuth = true := by
    intro cycle hcycle
    simp only [twoDraws, List.mem_cons, List.not_mem_nil, or_false] at hcycle
    rcases hcycle with rfl | rfl <;> rfl
  have hkey : KeyStays (plainArgs.setText .apiKey (some (lit "secret"))) twoDraws := .inl rfl
  have hfirst := congrArg (fun l : List Outcome => l[0]?) hrun
  have hsecond := congrArg (fun l : List Outcome => l[1]?) hrun
  exact ⟨s, s', hrun, haccepts, reload_keeps_access plainBcrypt_lawful twoDraws_salted hkey
    hinstalled hfirst hsecond haccepts⟩

/-- **A reload locks the clients out**: without a configured key, and with nothing staged,
the token of the first cycle is not accepted after the reload. -/
theorem reload_revokes_random_key :
    ∃ s s', runCycles plainArgs twoDraws = [.served s true, .served s' false] ∧
      AcceptsToken plainBcrypt s (lit "k1") ∧ ¬ AcceptsToken plainBcrypt s' (lit "k1") := by
  refine ⟨_, _, rfl, ⟨lit "k1", .head _, rfl⟩, ?_⟩
  rintro ⟨hash, hmem, hchecked⟩
  have hhash : hash ∈ [lit "k2"] := hmem
  rw [List.mem_singleton.mp hhash] at hchecked
  exact absurd hchecked (by decide)

end Offs.Startup
