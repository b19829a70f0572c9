import OffsProof.DaemonArgs
import OffsProof.KeyedFold

/-! # Flags as groups

A command line of `offsd` is a list of groups: a flag with its value, whatever the value looks
like, or a switch.  The loop of `_parse_args` finds the groups again and applies them one by one
(`parseFlags_flatten`): the first word of a group is recognised, and what follows it is its value
even if it looks like a flag.

Each group changes the member of its own flag and no other, so groups with different flags
commute (`Group.commutes`), and a group leaves nothing of an earlier one of its flag
(`Group.overrides`).  The rest is general: a run of keyed steps depends only on the order within
each key, and then only on the last step of each (`KeyedFold`).
-/
namespace Offs.Daemon
open CText KeyedFold KeyedHistory

/-- **A well-formed group.**  A socket mode is one that is taken. -/
inductive Group
  | value (f : ValueFlag) (t : Text) (valid : f = .unixSocketMode → (socketMode t).isSome)
  | switch (f : SwitchField)

/-- The flag of a group. -/
inductive GroupFlag
  | value (f : ValueFlag)
  | switch (f : SwitchField)
  deriving DecidableEq, Repr

namespace Group

def flag : Group → GroupFlag
  | .value f _ _ => .value f
  | .switch f => .switch f

def tokens : Group → List Text
  | .value f t _ => [f.token, t]
  | .switch f => [f.flag]

/-- What a group does to the members. -/
def apply (args : OffsdArgs) : Group → OffsdArgs
  | .value (.text f) t _ => args.setText f (some t)
  | .value (.port f) t _ => args.setPort f (portOf t)
  | .value .workers t _ => { args with workerCount := workersOf t }
  | .value .maxCapacityBytes t _ => { args with maxCapacityBytes := capacityOf t }
  | .value .unixSocketMode t valid => { args with unixSocketMode := (socketMode t).get (valid rfl) }
  | .switch f => args.setSwitch f true

end Group

/-- The argument vector of a list of groups. -/
def flatten (groups : List Group) : List Text := groups.flatMap Group.tokens

/-! ## The loop finds the groups -/

theorem ValueFlag.ofToken_token (f : ValueFlag) : ValueFlag.ofToken f.token = some f := by
  rcases f with f | f | _ | _ | _
  · cases f <;> decide
  · cases f <;> decide
  all_goals decide

theorem SwitchField.ofToken_flag (f : SwitchField) :
    ValueFlag.ofToken f.flag = none ∧ SwitchField.ofToken f.flag = some f := by
  cases f <;> decide

theorem Group.value_apply {f : ValueFlag} {t : Text}
    (valid : f = .unixSocketMode → (socketMode t).isSome) (args : OffsdArgs) :
    f.apply args t = .ok (Group.apply args (.value f t valid)) := by
  rcases f with f | f | _ | _ | _
  · rfl
  · rfl
  · rfl
  · rfl
  · obtain ⟨mode, hmode⟩ := Option.isSome_iff_exists.mp (valid rfl)
    simp [ValueFlag.apply, Group.apply, hmode]

/-- One group at the front. -/
theorem parseFlags_group (g : Group) (rest : List Text) (args : OffsdArgs) :
    parseFlags (g.tokens ++ rest) args = parseFlags rest (g.apply args) := by
  rcases g with ⟨f, t, valid⟩ | f
  · simp only [Group.tokens, List.cons_append, List.nil_append, parseFlags, f.ofToken_token,
      Group.value_apply valid]
  · obtain ⟨hvalue, hswitch⟩ := f.ofToken_flag
    rcases rest with _ | ⟨t, rest⟩
    · simp only [Group.tokens, List.append_nil, parseFlags, hswitch, Group.apply]
    · simp only [Group.tokens, List.cons_append, List.nil_append, parseFlags, hvalue, hswitch,
        Group.apply]

/-- **The groups are applied one by one.** -/
theorem parseFlags_flatten (groups : List Group) (args : OffsdArgs) :
    parseFlags (flatten groups) args = .ok (groups.foldl Group.apply args) := by
  induction groups generalizing args with
  | nil => rfl
  | cons g groups ih =>
    rw [flatten, List.flatMap_cons, parseFlags_group]
    exact ih _

/-! ## Groups with different flags commute -/

theorem Group.commutes : Commutes Group.flag Group.apply := by
  intro args a b hne
  rcases a with ⟨f | f | _ | _ | _, t, valid⟩ | f <;>
    rcases b with ⟨g | g | _ | _ | _, u, valid'⟩ | g <;> try rfl
  -- What is left is twice the same kind of member, or twice the same one.
  · have hfg : g ≠ f := by
      rintro rfl
      exact hne rfl
    simp only [Group.apply, OffsdArgs.setText, Function.update_comm hfg]
  · have hfg : g ≠ f := by
      rintro rfl
      exact hne rfl
    simp only [Group.apply, OffsdArgs.setPort, Function.update_comm hfg]
  · exact absurd rfl hne
  · exact absurd rfl hne
  · exact absurd rfl hne
  · have hfg : g ≠ f := by
      rintro rfl
      exact hne rfl
    simp only [Group.apply, OffsdArgs.setSwitch, Function.update_comm hfg]

theorem Group.overrides : Overrides Group.flag Group.apply := by
  intro args a b heq
  rcases a with ⟨f | f | _ | _ | _, t, valid⟩ | f <;>
    rcases b with ⟨g | g | _ | _ | _, u, valid'⟩ | g <;> cases heq <;> try rfl
  · simp only [Group.apply, OffsdArgs.setText, Function.update_idem]
  · simp only [Group.apply, OffsdArgs.setPort, Function.update_idem]
  · simp only [Group.apply, OffsdArgs.setSwitch, Function.update_idem]

/-- **The order of the flags does not matter.**  Groups are recognised whatever their values
look like and applied one by one; another order, as long as it keeps the order of the groups
with the same flag, leaves the same members, also after the config file; and the last group
of each flag decides. -/
theorem flag_order_irrelevant (groups : List Group) (args : OffsdArgs) :
    parseFlags (flatten groups) args = .ok (groups.foldl Group.apply args) ∧
    (∀ others, Reordered Group.flag groups others →
      parseFlags (flatten others) args = parseFlags (flatten groups) args ∧
      ∀ w, parseArgs w (flatten others) args = parseArgs w (flatten groups) args) ∧
    parseFlags (flatten (lasts Group.flag groups)) args = parseFlags (flatten groups) args := by
  refine ⟨parseFlags_flatten groups args, ?_, ?_⟩
  · intro others h
    have hsame : parseFlags (flatten others) args = parseFlags (flatten groups) args := by
      rw [parseFlags_flatten, parseFlags_flatten, foldl_of_order Group.commutes h.order]
    refine ⟨hsame, fun w => ?_⟩
    rw [parseArgs, parseArgs, hsame]
  · rw [parseFlags_flatten, parseFlags_flatten, foldl_lasts Group.commutes Group.overrides]

/-- A port that is set twice, and a value that looks like a flag. -/
def portTwice : List Group :=
  [.value (.port .port) (lit "1") nofun, .value (.text .host) (lit "--port") nofun,
    .value (.port .port) (lit "2") nofun, .switch .foreground]

/-- The same with the switch and the host in front. -/
def portTwiceLater : List Group :=
  [.switch .foreground, .value (.text .host) (lit "--port") nofun,
    .value (.port .port) (lit "1") nofun, .value (.port .port) (lit "2") nofun]

theorem flag_order_irrelevant_port :
    Reordered Group.flag portTwice portTwiceLater ∧
    parseFlags (flatten portTwiceLater) (defaultArgs none) =
      parseFlags (flatten portTwice) (defaultArgs none) := by
  have hreordered : Reordered Group.flag portTwice portTwiceLater := by
    constructor
    · have hfront : portTwice.Perm (.switch .foreground :: portTwice.take 3) :=
        @List.perm_append_comm _ (portTwice.take 3) [Group.switch .foreground]
      exact hfront.trans ((List.Perm.swap _ _ _).cons _)
    · intro k
      by_cases hport : k = .value (.port .port)
      · subst hport
        rfl
      · by_cases hhost : k = .value (.text .host)
        · subst hhost
          rfl
        · by_cases hforeground : k = .switch .foreground
          · subst hforeground
            rfl
          · simp [ofKey, portTwice, portTwiceLater, Group.flag, Ne.symm hport, Ne.symm hhost,
              Ne.symm hforeground]
  exact ⟨hreordered,
    ((flag_order_irrelevant portTwice (defaultArgs none)).2.1 portTwiceLater hreordered).1⟩

end Offs.Daemon
