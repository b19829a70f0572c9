import Mathlib.Data.List.Basic
import OffsProof.CText

/-! # The flags of a restarted daemon

`offs restart` without arguments starts the daemon again with the flags it was started with.  It
finds them in `/proc/<pid>/cmdline`, where each argument is followed by a NUL:
`_read_running_offsd_args` reads at most 4095 bytes, counts the arguments up to an empty one, and
copies all of them but the first.  `cmd_restart` then drops every `--foreground`.

An argument is a string without NUL (`Arg`).  Memory is taken to be there, and the process that
`pgrep` finds to be the daemon.

The two loops read the same strings, those up to an empty one (`countArgs_eq`, `copyArgs_eq`).
What the buffer shows of the arguments is a recursion over them with the room that is left
(`visible`), and the encoding is inverted as long as nothing is empty and everything fits
(`visible_eq`).  `flags_preserved_iff` says exactly when the flags survive.  The condition
(`Survive`) is a recursion over the arguments as well, and the two are compared argument by
argument; the one place where they can differ is the argument that does not fit
(`cut_survive_iff`).
-/
namespace Offs.Restart
open CText

def nul : Char := '\x00'

/-- A command-line argument. -/
def Arg := { t : Text // nul ∉ t }

/-- `/proc/<pid>/cmdline` -/
def cmdline (argv : List Text) : List Char := argv.flatMap fun arg => arg ++ [nul]

/-! ## The two passes -/

/-- The string that starts here, in a buffer that a NUL follows. -/
def stringAt (rest : List Char) : Text := rest.takeWhile fun c => c ≠ nul

theorem drop_length_lt {rest : List Char} (h : rest ≠ []) (n : Nat) :
    (rest.drop (n + 1)).length < rest.length := by
  have := List.length_pos_of_ne_nil h
  rw [List.length_drop]
  omega

/-- The first loop, from `buf + pos` on. -/
def countArgs (rest : List Char) : Nat :=
  if rest = [] then 0
  else if (stringAt rest).length = 0 then 0
  else countArgs (rest.drop ((stringAt rest).length + 1)) + 1
termination_by rest.length
decreasing_by exact drop_length_lt (by assumption) _

/-- The second loop, with `wanted` places left in `args`. -/
def copyArgs (rest : List Char) (wanted : Nat) (skipFirst : Bool) : List Text :=
  if rest = [] ∨ wanted = 0 then []
  else if (stringAt rest).length = 0 then []
  else
    let next := rest.drop ((stringAt rest).length + 1)
    if skipFirst then copyArgs next wanted false
    else stringAt rest :: copyArgs next (wanted - 1) false
termination_by rest.length
decreasing_by
  all_goals
    rename_i h _ _
    exact drop_length_lt (fun hnil => h (.inl hnil)) _

/-- The bytes that `fread` puts into `buf`. -/
def bufferSize : Nat := 4096 - 1

/-- `_read_running_offsd_args`, over the contents of `cmdline`. -/
def readRunningOffsdArgs (contents : List Char) : List Text :=
  let buf := contents.take bufferSize
  if buf = [] then []
  else if countArgs buf ≤ 1 then []
  else copyArgs buf (countArgs buf - 1) true

def foreground : Text := lit "--foreground"

/-- The loop that drops `--foreground`. -/
def withoutForeground (args : List Text) : List Text := args.filter fun arg => arg ≠ foreground

/-- How `offs restart` ends. -/
inductive Outcome
  /-- The service manager restarts it. -/
  | serviceRestart
  | stopFailed
  /-- `cmd_start` is called. -/
  | start (args : List Text)
  deriving DecidableEq, Repr

/-- `cmd_restart`; `contents` is what can be read of the running daemon. -/
def cmdRestart (serviceManaged : Bool) (args : List Text) (contents : Option (List Char))
    (stops : Bool) : Outcome :=
  if serviceManaged then .serviceRestart
  else
    let preserved := if args = [] then contents.elim [] readRunningOffsdArgs else []
    let startArgs := if preserved = [] then args else withoutForeground preserved
    if stops then .start startArgs else .stopFailed

/-! ## What the passes find -/

/-- The strings up to an empty one. -/
def strings (rest : List Char) : List Text :=
  if rest = [] then []
  else if stringAt rest = [] then []
  else stringAt rest :: strings (rest.drop ((stringAt rest).length + 1))
termination_by rest.length
decreasing_by exact drop_length_lt (by assumption) _

theorem countArgs_eq (rest : List Char) : countArgs rest = (strings rest).length := by
  fun_induction strings rest with
  | case1 => simp [countArgs]
  | case2 rest hrest hempty =>
    rw [countArgs, if_neg hrest, if_pos (by simp [hempty])]
    rfl
  | case3 rest hrest hstring ih =>
    rw [countArgs, if_neg hrest, if_neg (by simpa using hstring), ih, List.length_cons]

theorem copyArgs_eq (rest : List Char) (wanted : Nat) :
    copyArgs rest wanted false = (strings rest).take wanted := by
  fun_induction strings rest generalizing wanted with
  | case1 => simp [copyArgs]
  | case2 rest hrest hempty =>
    rw [copyArgs]
    simp [hempty]
  | case3 rest hrest hstring ih =>
    rw [copyArgs]
    rcases wanted with _ | wanted
    · simp
    · simp [hrest, hstring, ih]

/-- All strings but the first. -/
theorem readRunningOffsdArgs_eq (contents : List Char) :
    readRunningOffsdArgs contents = (strings (contents.take bufferSize)).tail := by
  unfold readRunningOffsdArgs
  dsimp only
  generalize contents.take bufferSize = buf
  by_cases hbuf : buf = []
  · simp [hbuf, strings]
  · rw [if_neg hbuf, countArgs_eq]
    by_cases hstring : stringAt buf = []
    · have hnone : strings buf = [] := by rw [strings, if_neg hbuf, if_pos hstring]
      simp [hnone]
    · obtain ⟨next, hnext⟩ : ∃ next, next = strings (buf.drop ((stringAt buf).length + 1)) := ⟨_, rfl⟩
      have hstrings : strings buf = stringAt buf :: next := by
        rw [strings, if_neg hbuf, if_neg hstring, ← hnext]
      rw [hstrings, List.tail_cons, List.length_cons]
      by_cases honly : next = []
      · simp [honly]
      · have hpos := List.length_pos_of_ne_nil honly
        rw [if_neg (by omega), copyArgs]
        simp only [hbuf, hstring, List.length_eq_zero_iff, false_or, if_false, if_true]
        rw [if_neg (by omega), copyArgs_eq, ← hnext]
        simp

/-! ## What is left of the command line -/

theorem takeWhile_nul {arg : Text} (harg : nul ∉ arg) (rest : List Char) :
    stringAt (arg ++ rest) = arg ++ stringAt rest := by
  have hall : ∀ c ∈ arg, decide (c ≠ nul) = true := by
    intro c hc
    rw [decide_eq_true_eq]
    rintro rfl
    exact harg hc
  exact List.takeWhile_append_of_pos hall

theorem stringAt_append {arg : Text} (harg : nul ∉ arg) (rest : List Char) :
    stringAt (arg ++ nul :: rest) = arg := by
  rw [takeWhile_nul harg]
  simp [stringAt]

theorem stringAt_self {arg : Text} (harg : nul ∉ arg) : stringAt arg = arg := by
  have hself := takeWhile_nul harg []
  simpa [stringAt] using hself

theorem strings_nil : strings [] = [] := by rw [strings, if_pos rfl]

/-- An argument with its NUL. -/
theorem strings_append {arg : Text} (harg : nul ∉ arg) (rest : List Char) :
    strings (arg ++ nul :: rest) = if arg = [] then [] else arg :: strings rest := by
  rw [strings, if_neg (by simp), stringAt_append harg]
  have hdrop : (arg ++ nul :: rest).drop (arg.length + 1) = rest := by
    rw [List.drop_append]
    simp
  rw [hdrop]

/-- An argument that was cut. -/
theorem strings_self {arg : Text} (harg : nul ∉ arg) :
    strings arg = if arg = [] then [] else [arg] := by
  by_cases hempty : arg = []
  · rw [if_pos hempty, hempty, strings_nil]
  · rw [strings, if_neg hempty, stringAt_self harg, if_neg hempty, if_neg hempty,
      List.drop_eq_nil_of_le (by omega), strings_nil]

/-- **What the buffer shows of the arguments**, with room for `room` bytes. -/
def visible : Nat → List Text → List Text
  | _, [] => []
  | room, arg :: args =>
    if arg.length < room then
      if arg = [] then [] else arg :: visible (room - (arg.length + 1)) args
    else if room = 0 then [] else [arg.take room]

theorem visible_eq (room : Nat) (argv : List Text) (hargs : ∀ arg ∈ argv, nul ∉ arg) :
    strings ((cmdline argv).take room) = visible room argv := by
  induction argv generalizing room with
  | nil => simp [cmdline, visible, strings_nil]
  | cons arg argv ih =>
    have harg := hargs arg List.mem_cons_self
    have hrest := ih (room - (arg.length + 1)) fun a ha => hargs a (List.mem_cons_of_mem _ ha)
    have hcons : cmdline (arg :: argv) = arg ++ nul :: cmdline argv := by simp [cmdline]
    unfold visible
    rw [hcons]
    by_cases hfits : arg.length < room
    · have htake : (arg ++ nul :: cmdline argv).take room =
          arg ++ nul :: (cmdline argv).take (room - (arg.length + 1)) := by
        obtain ⟨k, rfl⟩ : ∃ k, room = arg.length + (k + 1) := ⟨room - (arg.length + 1), by omega⟩
        rw [List.take_length_add_append, List.take_succ_cons]
        congr 3
        omega
      rw [if_pos hfits, htake, strings_append harg, hrest]
    · have htake : (arg ++ nul :: cmdline argv).take room = arg.take room :=
        List.take_append_of_le_length (by omega)
      have hcut : nul ∉ arg.take room := fun h => harg (List.mem_of_mem_take h)
      rw [if_neg hfits, htake, strings_self hcut]
      by_cases hroom : room = 0
      · simp [hroom]
      · have hsome : arg.take room ≠ [] := by
          rw [ne_eq, List.take_eq_nil_iff]
          rintro (hzero | hempty)
          · exact hroom hzero
          · simp [hempty] at hfits
            exact hroom hfits
        rw [if_neg hsome, if_neg hroom]

/-! ## When the flags survive -/

/-- **The arguments survive** in a buffer with so much room left: up to the first one that
does not fit with its NUL none is empty, and that one lacks nothing but the NUL, or is not
seen at all, and only `--foreground` follows.

There is one more case.  Of a `--foreground` that was cut the beginning is kept; this is
right if that beginning is itself the only flag that follows. -/
def Survive : Nat → List Text → Prop
  | _, [] => True
  | room, arg :: args =>
    if arg.length < room then arg ≠ [] ∧ Survive (room - (arg.length + 1)) args
    else if room = 0 then withoutForeground (arg :: args) = []
    else
      (arg.length = room ∧ withoutForeground args = []) ∨
        (arg = foreground ∧ room < arg.length ∧ withoutForeground args = [arg.take room])

theorem withoutForeground_cons (arg : Text) (args : List Text) :
    withoutForeground (arg :: args) =
      if arg = foreground then withoutForeground args else arg :: withoutForeground args := by
  by_cases h : arg = foreground <;> simp [withoutForeground, h]

theorem foreground_ne_nil : foreground ≠ [] := by decide

/-- The argument that does not fit. -/
theorem cut_survive_iff {room : Nat} {arg : Text} (hcut : room ≤ arg.length) (args : List Text) :
    withoutForeground [arg.take room] = withoutForeground (arg :: args) ↔
      (arg.length = room ∧ withoutForeground args = []) ∨
        (arg = foreground ∧ room < arg.length ∧ withoutForeground args = [arg.take room]) := by
  have hnone : withoutForeground [] = [] := rfl
  rcases Nat.eq_or_lt_of_le hcut with hwhole | hcut
  · -- Only the NUL is missing.
    subst hwhole
    simp only [List.take_length, Nat.lt_irrefl, false_and, and_false, or_false, true_and]
    rw [withoutForeground_cons, withoutForeground_cons, hnone]
    by_cases hflag : arg = foreground
    · rw [if_pos hflag, if_pos hflag]
      exact eq_comm
    · rw [if_neg hflag, if_neg hflag, List.cons_inj_right]
      exact eq_comm
  · have hne : arg.take room ≠ arg := by
      intro htake
      have hlength := congrArg List.length htake
      rw [List.length_take] at hlength
      omega
    have hroom : arg.length ≠ room := by omega
    simp only [hroom, false_and, false_or, hcut, true_and]
    rw [withoutForeground_cons, withoutForeground_cons, hnone]
    by_cases hflag : arg = foreground
    · rw [if_neg (hflag ▸ hne), if_pos hflag]
      simp [hflag, eq_comm]
    · rw [if_neg hflag]
      simp only [hflag, false_and, iff_false]
      split
      · simp
      · simp [hne]

theorem visible_survive_iff (room : Nat) (args : List Text) :
    withoutForeground (visible room args) = withoutForeground args ↔ Survive room args := by
  induction args generalizing room with
  | nil => simp [visible, Survive]
  | cons arg args ih =>
    unfold visible Survive
    by_cases hfits : arg.length < room
    · rw [if_pos hfits, if_pos hfits]
      by_cases hempty : arg = []
      · subst hempty
        rw [if_pos rfl, withoutForeground_cons, if_neg foreground_ne_nil.symm]
        simp [withoutForeground]
      · rw [if_neg hempty, withoutForeground_cons, withoutForeground_cons, ← ih]
        by_cases hflag : arg = foreground
        · simp [hflag, foreground_ne_nil]
        · simp [hflag, hempty]
    · rw [if_neg hfits, if_neg hfits]
      by_cases hroom : room = 0
      · rw [if_pos hroom, if_pos hroom]
        exact eq_comm
      · rw [if_neg hroom, if_neg hroom]
        exact cut_survive_iff (Nat.le_of_not_lt hfits) args

/-- The original arguments after `argv[0]`, without `--foreground`. -/
def startFlags (argv : List Arg) : List Text := withoutForeground (argv.map Subtype.val).tail

/-- **The condition on the command line of the running daemon.**  If its name is empty or fills
the buffer, nothing else is seen of the arguments, and there must be none to keep; otherwise they
have to survive in the room that the name leaves. -/
def FlagsFit (argv : List Arg) : Prop :=
  match argv.map Subtype.val with
  | [] => True
  | name :: args =>
    if name = [] ∨ bufferSize ≤ name.length then withoutForeground args = []
    else Survive (bufferSize - (name.length + 1)) args

/-- What `cmd_start` gets. -/
theorem cmdRestart_eq (argv : List Arg) :
    cmdRestart false [] (some (cmdline (argv.map Subtype.val))) true =
      .start (withoutForeground (visible bufferSize (argv.map Subtype.val)).tail) := by
  have hargs : ∀ arg ∈ argv.map Subtype.val, nul ∉ arg := by
    intro arg harg
    obtain ⟨a, -, rfl⟩ := List.mem_map.mp harg
    exact a.2
  have hread : readRunningOffsdArgs (cmdline (argv.map Subtype.val)) =
      (visible bufferSize (argv.map Subtype.val)).tail := by
    rw [readRunningOffsdArgs_eq, visible_eq _ _ hargs]
  unfold cmdRestart
  simp only [Option.elim_some, hread, if_true, Bool.false_eq_true, if_false]
  split
  · rename_i hnone
    rw [hnone]
    rfl
  · rfl

/-- **A restart preserves the start flags exactly if they fit.**  What the buffer shows of the
command line (`visible`) ends at the first empty argument, which is taken for the end of the list,
or where the buffer is full.  The name of the program comes first and is dropped; if it is empty
or fills the buffer no flag is seen at all.  After it the flags have to survive in the room that
is left (`visible_survive_iff`), where a `--foreground` that is lost does no harm, as it is not
kept anyway. -/
theorem flags_preserved_iff (argv : List Arg) :
    cmdRestart false [] (some (cmdline (argv.map Subtype.val))) true = .start (startFlags argv) ↔
      FlagsFit argv := by
  rw [cmdRestart_eq]
  unfold startFlags FlagsFit
  rw [Outcome.start.injEq]
  generalize argv.map Subtype.val = args
  cases args with
  | nil => simp [visible]
  | cons name args =>
    have hnone : withoutForeground [] = [] := rfl
    dsimp only [List.tail_cons]
    unfold visible
    by_cases hlong : bufferSize ≤ name.length
    · rw [if_neg (by omega), if_neg (by decide), if_pos (.inr hlong), List.tail_cons, hnone]
      exact eq_comm
    · rw [if_pos (by omega)]
      by_cases hempty : name = []
      · rw [if_pos hempty, if_pos (.inl hempty), List.tail_nil, hnone]
        exact eq_comm
      · rw [if_neg hempty, if_neg (by simp [hempty, hlong]), List.tail_cons]
        exact visible_survive_iff _ args

/-! ## An empty argument -/

/-- `offsd --log-file '' --cache-dir /srv` -/
def emptyLogFile : List Arg :=
  [⟨lit "offsd", by decide⟩, ⟨lit "--log-file", by decide⟩, ⟨[], by decide⟩,
    ⟨lit "--cache-dir", by decide⟩, ⟨lit "/srv", by decide⟩]

/-- **The restarted daemon has another cache directory.** -/
theorem empty_argument_drops_flags :
    cmdRestart false [] (some (cmdline (emptyLogFile.map Subtype.val))) true =
        .start [lit "--log-file"] ∧
      cmdRestart false [] (some (cmdline (emptyLogFile.map Subtype.val))) true ≠
        .start (startFlags emptyLogFile) := by
  have hstart : cmdRestart false [] (some (cmdline (emptyLogFile.map Subtype.val))) true =
      .start [lit "--log-file"] := by
    rw [cmdRestart_eq]
    decide
  refine ⟨hstart, ?_⟩
  rw [hstart]
  decide

end Offs.Restart
