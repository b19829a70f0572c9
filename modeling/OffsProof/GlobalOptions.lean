import OffsProof.CText

/-! # The global options of the CLI

`main` takes `--socket` and `--lang` out of its arguments, wherever they stand, and moves the
other arguments together in the same array: one index reads, another one writes, and the reading
index is never behind.

`pieces` cuts the arguments the way they should be read, from left to right: an option with its
value, an option that lacks its value at the end, or an argument that is kept.  The loop over the
array does just that (`global_options_lifted`).

The loop is followed with its array as it is.  Its invariant has the arguments that were kept at
the front, whatever has been left behind between the two indices, and from the reading index on
the arguments as they were: since the writing index never overtakes the reading one, no place is
read after it has been overwritten.  What is left over is then a recursion over the arguments
alone, and lifting a second time changes nothing, since no option is left among them.
-/
namespace Offs.Main
open CText

inductive GlobalOption
  | socket
  | lang
  deriving DecidableEq, Repr

def GlobalOption.ofToken (t : Text) : Option GlobalOption :=
  if t = lit "--socket" then some .socket else if t = lit "--lang" then some .lang else none

/-! ## The loop -/

/-- `g_socket_path` and `g_lang` -/
structure Globals where
  socketPath : Text
  lang : Text
  deriving DecidableEq, Repr

/-- `cli_set_socket_path`, or the assignment to `g_lang`. -/
def Globals.set (g : Globals) : GlobalOption → Text → Globals
  | .socket, path => { g with socketPath := path }
  | .lang, lang => { g with lang := lang }

/-- The array, the two indices and what has been set. -/
structure Scan where
  argv : List Text
  readIdx : Nat
  writeIdx : Nat
  globals : Globals
  deriving DecidableEq, Repr

/-- The slot at an index below `argc`. -/
def Scan.slot (s : Scan) (i : Nat) : Text := s.argv.getD i []

/-- One round of the loop, `read_idx++` included. -/
def scanStep (s : Scan) : Scan :=
  match GlobalOption.ofToken (s.slot s.readIdx) with
  | some option =>
    if s.readIdx + 1 < s.argv.length then
      { s with
        globals := s.globals.set option (s.slot (s.readIdx + 1))
        readIdx := s.readIdx + 2 }
    else { s with readIdx := s.readIdx + 1 }
  | none =>
    { s with
      argv := s.argv.set s.writeIdx (s.slot s.readIdx)
      writeIdx := s.writeIdx + 1
      readIdx := s.readIdx + 1 }

/-- At most `rounds` rounds. -/
def scanLoop : Nat → Scan → Scan
  | 0, s => s
  | rounds + 1, s => if s.readIdx < s.argv.length then scanLoop rounds (scanStep s) else s

/-- Before the loop: `argv[0]` is kept. -/
def scanStart (argv : List Text) (g : Globals) : Scan := ⟨argv, 1, 1, g⟩

/-- The loop of `main`: `argv` up to the new `argc`, and what has been set. -/
def liftGlobals (argv : List Text) (g : Globals) : List Text × Globals :=
  let s := scanLoop argv.length (scanStart argv g)
  (s.argv.take s.writeIdx, s.globals)

/-! ## How the arguments should be read -/

/-- A piece of the arguments: a global option, with its value unless it is the last token,
or any other token. -/
inductive Piece
  | global (option : GlobalOption) (value : Option Text)
  | plain (t : Text)
  deriving DecidableEq, Repr

/-- The pieces, from left to right. -/
def pieces : List Text → List Piece
  | [] => []
  | [t] =>
    match GlobalOption.ofToken t with
    | some option => [.global option none]
    | none => [.plain t]
  | t :: value :: rest =>
    match GlobalOption.ofToken t with
    | some option => .global option (some value) :: pieces rest
    | none => .plain t :: pieces (value :: rest)

def Piece.kept : Piece → Option Text
  | .plain t => some t
  | .global _ _ => none

def Piece.value (option : GlobalOption) : Piece → Option Text
  | .global o value => if o = option then value else none
  | .plain _ => none

/-- The tokens that are kept. -/
def kept (args : List Text) : List Text := (pieces args).filterMap Piece.kept

/-- The value in the last pair of a kind. -/
def lastPair (option : GlobalOption) (args : List Text) : Option Text :=
  ((pieces args).filterMap (Piece.value option)).getLast?

/-- What the pairs set. -/
def settled (args : List Text) (g : Globals) : Globals where
  socketPath := (lastPair .socket args).getD g.socketPath
  lang := (lastPair .lang args).getD g.lang

/-! ### One piece at the front -/

section Pieces
variable {t value : Text} {rest : List Text} {option : GlobalOption} {g : Globals}

theorem pieces_plain (h : GlobalOption.ofToken t = none) (rest : List Text) :
    pieces (t :: rest) = .plain t :: pieces rest := by
  rcases rest with _ | ⟨value, rest⟩ <;> simp only [pieces, h]

theorem pieces_pair (h : GlobalOption.ofToken t = some option) :
    pieces (t :: value :: rest) = .global option (some value) :: pieces rest := by
  simp only [pieces, h]

theorem pieces_last (h : GlobalOption.ofToken t = some option) :
    pieces [t] = [.global option none] := by
  simp only [pieces, h]

theorem kept_plain (h : GlobalOption.ofToken t = none) : kept (t :: rest) = t :: kept rest := by
  rw [kept, pieces_plain h]
  rfl

theorem settled_plain (h : GlobalOption.ofToken t = none) :
    settled (t :: rest) g = settled rest g := by
  rw [settled, settled, lastPair, lastPair, pieces_plain h]
  rfl

theorem kept_pair (h : GlobalOption.ofToken t = some option) :
    kept (t :: value :: rest) = kept rest := by
  rw [kept, pieces_pair h]
  rfl

theorem settled_pair (h : GlobalOption.ofToken t = some option) :
    settled (t :: value :: rest) g = settled rest (g.set option value) := by
  have hlast : ∀ o, lastPair o (t :: value :: rest) =
      (lastPair o rest).or (if option = o then some value else none) := by
    intro o
    rw [lastPair, lastPair, pieces_pair h]
    by_cases ho : option = o
    · have hvalue : Piece.value o (.global option (some value)) = some value := if_pos ho
      rw [List.filterMap_cons_some hvalue, List.getLast?_cons, if_pos ho]
      rcases ((pieces rest).filterMap (Piece.value o)).getLast? with _ | last <;> rfl
    · have hvalue : Piece.value o (.global option (some value)) = none := if_neg ho
      rw [List.filterMap_cons_none hvalue, if_neg ho, Option.or_none]
  rw [settled, settled, hlast, hlast]
  cases option <;> simp [Globals.set]

/-- An option without a value is dropped, and sets nothing. -/
theorem kept_last (h : GlobalOption.ofToken t = some option) : kept [t] = [] := by
  rw [kept, pieces_last h]
  rfl

theorem settled_last (h : GlobalOption.ofToken t = some option) : settled [t] g = g := by
  rw [settled, lastPair, lastPair, pieces_last h]
  cases option <;> rfl

end Pieces

/-! ## The loop reads them so -/

/-- **What holds before each round**: the slots from the reading index on are the original ones,
and what has been written, with what is still to be kept, is what should be kept.  The reading
index is never behind, which is why the original slots are still there to be read; and the options
settled so far, with those still to come, are those of the whole vector. -/
structure Scanning (argv : List Text) (g : Globals) (s : Scan) : Prop where
  write_le : s.writeIdx ≤ s.readIdx
  unread : s.argv.drop s.readIdx = argv.drop s.readIdx
  length_eq : s.argv.length = argv.length
  kept_eq : s.argv.take s.writeIdx ++ kept (argv.drop s.readIdx) = argv.take 1 ++ kept argv.tail
  settled_eq : settled (argv.drop s.readIdx) s.globals = settled argv.tail g

theorem take_set_succ {l : List Text} {i : Nat} {t : Text} (hi : i < l.length) :
    (l.set i t).take (i + 1) = l.take i ++ [t] := by
  rw [← List.take_concat_get (by rwa [List.length_set]), List.take_set_of_le (Nat.le_refl i),
    List.getElem_set_self, List.concat_eq_append]

section Loop
variable {argv : List Text} {g : Globals} {s : Scan}

theorem scanning_start (argv : List Text) (g : Globals) : Scanning argv g (scanStart argv g) := by
  have hdrop : argv.drop 1 = argv.tail := List.drop_one
  refine ⟨Nat.le_refl 1, rfl, rfl, ?_, ?_⟩
  · rw [← hdrop]
    rfl
  · rw [← hdrop]
    rfl

namespace Scanning

/-- The slots from the reading index on are the original ones. -/
theorem getElem?_eq (h : Scanning argv g s) {i : Nat} (hi : s.readIdx ≤ i) :
    s.argv[i]? = argv[i]? := by
  have hsame := congrArg (fun l => l[i - s.readIdx]?) h.unread
  simpa [List.getElem?_drop, Nat.add_sub_cancel' hi] using hsame

theorem slot_eq (h : Scanning argv g s) {i : Nat} (hi : s.readIdx ≤ i) (hlt : i < argv.length) :
    s.slot i = argv[i] := by
  rw [Scan.slot, List.getD_eq_getElem?_getD, h.getElem?_eq hi, List.getElem?_eq_getElem hlt,
    Option.getD_some]

theorem unread_of_le (h : Scanning argv g s) {i : Nat} (hi : s.readIdx ≤ i) :
    s.argv.drop i = argv.drop i := by
  have hsame := congrArg (List.drop (i - s.readIdx)) h.unread
  simpa [List.drop_drop, Nat.add_sub_cancel' hi] using hsame

/-- **A round keeps the invariant**, with one piece less to read. -/
theorem step (h : Scanning argv g s) (hread : s.readIdx < argv.length) :
    Scanning argv g (scanStep s) := by
  have hslot := h.slot_eq (Nat.le_refl _) hread
  have hdrop : argv.drop s.readIdx = argv[s.readIdx] :: argv.drop (s.readIdx + 1) :=
    List.drop_eq_getElem_cons hread
  have hkept := h.kept_eq
  have hsettled := h.settled_eq
  have hwrite := h.write_le
  have hlength := h.length_eq
  rw [hdrop] at hkept hsettled
  rw [scanStep, hslot]
  rcases htoken : GlobalOption.ofToken argv[s.readIdx] with _ | option
  · dsimp only
    rw [kept_plain htoken] at hkept
    rw [settled_plain htoken] at hsettled
    refine ⟨Nat.succ_le_succ hwrite, ?_, ?_, ?_, hsettled⟩
    · -- The slot that is written is not ahead of the one that has just been read.
      rw [List.drop_set_of_lt (Nat.lt_succ_of_le hwrite)]
      exact h.unread_of_le (Nat.le_succ _)
    · rw [List.length_set, hlength]
    · rw [take_set_succ (by omega), List.append_assoc]
      exact hkept
  · by_cases hvalue : s.readIdx + 1 < s.argv.length
    · have hnext : s.readIdx + 1 < argv.length := hlength ▸ hvalue
      have hslot' := h.slot_eq (Nat.le_succ _) hnext
      have hdrop' : argv.drop (s.readIdx + 1) =
          argv[s.readIdx + 1] :: argv.drop (s.readIdx + 2) := List.drop_eq_getElem_cons hnext
      rw [hdrop', kept_pair htoken] at hkept
      rw [hdrop', settled_pair htoken] at hsettled
      dsimp only
      rw [if_pos hvalue, hslot']
      refine ⟨Nat.le_add_right_of_le hwrite, ?_, hlength, hkept, hsettled⟩
      exact h.unread_of_le (Nat.le_add_right _ _)
    · have hend : argv.drop (s.readIdx + 1) = [] := List.drop_eq_nil_of_le (by omega)
      rw [hend, kept_last htoken] at hkept
      rw [hend, settled_last htoken] at hsettled
      dsimp only
      rw [if_neg hvalue]
      refine ⟨Nat.le_succ_of_le hwrite, h.unread_of_le (Nat.le_succ _), hlength, ?_, ?_⟩
      · rw [hend]
        exact hkept
      · rw [hend]
        exact hsettled

end Scanning

/-- **The invariant along the loop**, after any number of rounds. -/
theorem scanning_loop (h : Scanning argv g s) (rounds : Nat) :
    Scanning argv g (scanLoop rounds s) := by
  induction rounds generalizing s with
  | zero => exact h
  | succ rounds ih =>
    rw [scanLoop]
    split
    · rename_i hread
      exact ih (h.step (h.length_eq ▸ hread))
    · exact h

theorem readIdx_lt_scanStep (s : Scan) : s.readIdx < (scanStep s).readIdx := by
  rw [scanStep]
  split
  · split
    · exact Nat.lt_add_of_pos_right (by decide)
    · exact Nat.lt_succ_self _
  · exact Nat.lt_succ_self _

/-- The rounds are enough to come to the end of the array. -/
theorem scanLoop_ends (h : Scanning argv g s) {rounds : Nat}
    (hrounds : argv.length ≤ s.readIdx + rounds) :
    argv.length ≤ (scanLoop rounds s).readIdx := by
  induction rounds generalizing s with
  | zero => exact hrounds
  | succ rounds ih =>
    rw [scanLoop]
    split
    · rename_i hread
      have hstep := readIdx_lt_scanStep s
      exact ih (h.step (h.length_eq ▸ hread)) (by omega)
    · rename_i hread
      exact h.length_eq ▸ Nat.not_lt.mp hread

theorem liftGlobals_eq (argv : List Text) (g : Globals) :
    liftGlobals argv g = (argv.take 1 ++ kept argv.tail, settled argv.tail g) := by
  have hinv := scanning_loop (scanning_start argv g) argv.length
  have hend : argv.drop (scanLoop argv.length (scanStart argv g)).readIdx = [] :=
    List.drop_eq_nil_of_le
      (scanLoop_ends (scanning_start argv g) (Nat.le_add_left _ _))
  have hkept := hinv.kept_eq
  have hsettled := hinv.settled_eq
  rw [hend] at hkept hsettled
  rw [liftGlobals, ← hkept, ← hsettled]
  exact Prod.ext (List.append_nil _).symm rfl

end Loop

/-! ## A second time -/

/-- No global option is kept. -/
theorem ofToken_of_mem_kept {args : List Text} {t : Text} (h : t ∈ kept args) :
    GlobalOption.ofToken t = none := by
  induction args using pieces.induct with
  | case1 => cases h
  | case2 u option hu =>
    rw [kept_last hu] at h
    cases h
  | case3 u hu =>
    rw [kept_plain hu] at h
    obtain rfl : t = u := by simpa [kept, pieces] using h
    exact hu
  | case4 u value rest option hu ih =>
    rw [kept_pair hu] at h
    exact ih h
  | case5 u value rest hu ih =>
    rw [kept_plain hu] at h
    rcases List.mem_cons.mp h with rfl | h
    · exact hu
    · exact ih h

theorem kept_of_plain {args : List Text} (h : ∀ t ∈ args, GlobalOption.ofToken t = none)
    (g : Globals) : kept args = args ∧ settled args g = g := by
  induction args with
  | nil => exact ⟨rfl, rfl⟩
  | cons t rest ih =>
    have ht := h t List.mem_cons_self
    obtain ⟨hkept, hsettled⟩ := ih fun t ht => h t (List.mem_cons_of_mem _ ht)
    rw [kept_plain ht, settled_plain ht, hkept, hsettled]
    exact ⟨rfl, rfl⟩

/-- **The loop of `main` takes the global options out**, as they should be read.  It reads every
slot before it is written to, and a second time it changes nothing.  The loop moves the arguments
within one array, and its invariant (`Scanning`) is about the two indices: the one to write to is
never ahead, so the slots from the other one on are the original ones, and what has been written
is what should be kept of the slots before. -/
theorem global_options_lifted (program : Text) (args : List Text) (g : Globals) :
    liftGlobals (program :: args) g = (program :: kept args, settled args g) ∧
    (∀ rounds, (scanLoop rounds (scanStart (program :: args) g)).writeIdx ≤
        (scanLoop rounds (scanStart (program :: args) g)).readIdx ∧
      ∀ i, (scanLoop rounds (scanStart (program :: args) g)).readIdx ≤ i →
        (scanLoop rounds (scanStart (program :: args) g)).argv[i]? = (program :: args)[i]?) ∧
    liftGlobals (program :: kept args) (settled args g) =
      (program :: kept args, settled args g) := by
  refine ⟨liftGlobals_eq _ g, fun rounds => ?_, ?_⟩
  · have hinv := scanning_loop (scanning_start (program :: args) g) rounds
    exact ⟨hinv.write_le, fun i hi => hinv.getElem?_eq hi⟩
  · obtain ⟨hkept, hsettled⟩ :=
      kept_of_plain (fun t ht => @ofToken_of_mem_kept args t ht) (settled args g)
    rw [liftGlobals_eq]
    exact Prod.ext (congrArg (program :: ·) hkept) hsettled

example : liftGlobals [lit "offs", lit "status", lit "--socket", lit "--lang", lit "--lang"]
    ⟨lit "/run/offs", lit "en"⟩ = ([lit "offs", lit "status"], ⟨lit "--lang", lit "en"⟩) := by
  decide

end Offs.Main
