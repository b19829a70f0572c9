import Mathlib.Data.List.Chain
import Mathlib.Logic.Relation
import OffsProof.MoveTree

/-! # The recursion of a move

`_move_tree` calls itself for every directory it finds.  `stat` follows links, so the directories
can form cycles, and no tree bounds the recursion.  The buffers do: a level is entered for paths
that both fit into 1024 bytes, and they are longer than those of the level above, by a separator
and a name.

Here the recursion is a machine with a stack of the levels that wait for a call to return
(`State`), without a bound on its steps or its stack.  The levels on the stack are nested
(`Nested`), so there are never more than 511 below the top one, and every run comes to an end
with what `moveTree` gives (`move_tree_terminates`).

The body of the loop is cut at its recursive call (`turn`, `afterCall`), so that a step of the
machine is what happens between two calls or returns.  That a call runs to its result goes by
induction over the levels that there is room for, and for each of them over the entries
(`runs_moveTree`, `runs_loop`), whatever waits below on the stack.  The bound on the depth is an
invariant of the machine (`Sound`): the entries that are still to come have names, so that a
level which is entered has longer paths than its caller.
-/
namespace Offs.MoveTree
open CText

/-! ## The loop body around its call -/

/-- What the body of the loop comes to before it calls `_move_tree`, or without it. -/
inductive Turn (σ : Type)
  | on (s : Level σ)
  | fail (s : Level σ)
  | recurse (src dst : Path) (s : Level σ)

section Turns
variable {σ : Type} (os : Os) (calls : Calls σ)

/-- The body of the loop up to the recursive call. -/
def turn (src dst : Path) (entry : Entry) (s : Level σ) : Turn σ :=
  if entry.dots then .on s
  else
    let srcChild := src.child os entry.name
    let dstChild := dst.child os entry.name
    if !srcChild.fits || !dstChild.fits then
      .fail { s with srcChild := cut bufferSize srcChild.text }
    else
      let s := { s with srcChild := srcChild.text }
      match kind os calls s.fs srcChild entry with
      | none => .fail { s with report := reportFailedPath s.report srcChild.text }
      | some true =>
        match calls.mkdirP s.fs dstChild with
        | (fs, false) => .fail { s with fs, report := reportFailedPath s.report dstChild.text }
        | (fs, true) => .recurse srcChild dstChild { s with fs }
      | some false =>
        match calls.fileMoveVerified s.fs srcChild dstChild with
        | (fs, false) => .fail { s with fs, report := reportFailedPath s.report srcChild.text }
        | (fs, true) => .on { s with fs }

/-- The body of the loop after the recursive call has returned. -/
def afterCall (child : Path) (s : Level σ) (m : Moved σ) : Level σ × Bool :=
  match m with
  | ⟨fs, report, false⟩ => ({ s with fs, report }, false)
  | ⟨fs, report, true⟩ =>
    match calls.rmRf fs child with
    | (fs, false) => ({ s with fs, report := reportFailedPath report child.text }, false)
    | (fs, true) => ({ s with fs, report }, true)

/-- The body of the loop, cut at its call. -/
theorem moveEntry_eq_turn (move : Path → Path → σ → Buffer → Moved σ) (src dst : Path)
    (entry : Entry) (s : Level σ) :
    moveEntry os calls move src dst entry s =
      match turn os calls src dst entry s with
      | .on s => (s, true)
      | .fail s => (s, false)
      | .recurse child dstChild s =>
        afterCall calls child s (move child dstChild s.fs s.report) := by
  unfold moveEntry turn
  split
  · rfl
  · dsimp only
    split
    · rfl
    · cases kind os calls s.fs (src.child os entry.name) entry with
      | none => rfl
      | some directory =>
        cases directory with
        | true =>
          dsimp only
          rcases calls.mkdirP s.fs (dst.child os entry.name) with ⟨fs, _ | _⟩
          · rfl
          · dsimp only
            rcases move (src.child os entry.name) (dst.child os entry.name) fs s.report with
              ⟨fs', report, _ | _⟩
            · rfl
            · rcases hrm : calls.rmRf fs' (src.child os entry.name) with ⟨fs'', _ | _⟩
              · simp only [afterCall, hrm]
              · simp only [afterCall, hrm]
        | false =>
          dsimp only
          rcases calls.fileMoveVerified s.fs (src.child os entry.name)
            (dst.child os entry.name) with ⟨fs, _ | _⟩ <;> rfl

end Turns

/-! ## The recursion as a machine -/

/-- A level that waits for the call for `child` to return. -/
structure Frame where
  src : Path
  dst : Path
  /-- The entries that come next, and whether the enumeration has come to its end then. -/
  rest : List Entry
  whole : Bool
  child : Path

/-- Where the innermost level is. -/
inductive Control
  | enter (src dst : Path)
  | loop (src dst : Path) (rest : List Entry) (whole : Bool) (srcChild : Text)
  /-- It has returned 0 or -1. -/
  | back (ok : Bool)

structure State (σ : Type) where
  control : Control
  /-- The levels that wait, the innermost first. -/
  stack : List Frame
  fs : σ
  report : Buffer

/-- The paths of a level that has not returned. -/
def Control.level : Control → Option (Path × Path)
  | .enter src dst => some (src, dst)
  | .loop src dst _ _ _ => some (src, dst)
  | .back _ => none

/-- The paths of all levels that have not returned, the innermost first. -/
def State.levels {σ : Type} (s : State σ) : List (Path × Path) :=
  s.control.level.toList ++ s.stack.map fun f => (f.src, f.dst)

section Machine
variable {σ : Type} (os : Os) (calls : Calls σ) (uninitialised : Text)

/-- One step: a level is entered, an entry is looked at, or a call returns.  The outermost level
has no step left after it has returned. -/
def State.step (s : State σ) : Option (State σ) :=
  match s.control, s.stack with
  | .enter src dst, stack =>
    match openSource os calls s.fs src with
    | none =>
      some ⟨.back false, stack, s.fs, reportFailedPath s.report (cut bufferSize src.text)⟩
    | some listing =>
      some ⟨.loop src dst listing.entries (listedWhole os listing) uninitialised, stack, s.fs,
        s.report⟩
  | .loop _ _ [] true _, stack => some ⟨.back true, stack, s.fs, s.report⟩
  | .loop _ _ [] false srcChild, stack =>
    some ⟨.back false, stack, s.fs, reportFailedPath s.report srcChild⟩
  | .loop src dst (entry :: rest) whole srcChild, stack =>
    match turn os calls src dst entry ⟨s.fs, s.report, srcChild⟩ with
    | .on l => some ⟨.loop src dst rest whole l.srcChild, stack, l.fs, l.report⟩
    | .fail l => some ⟨.back false, stack, l.fs, reportFailedPath l.report l.srcChild⟩
    | .recurse child dstChild l =>
      some ⟨.enter child dstChild, ⟨src, dst, rest, whole, child⟩ :: stack, l.fs, l.report⟩
  | .back _, [] => none
  | .back ok, f :: stack =>
    match afterCall calls f.child ⟨s.fs, s.report, f.child.text⟩ ⟨s.fs, s.report, ok⟩ with
    | (l, true) => some ⟨.loop f.src f.dst f.rest f.whole l.srcChild, stack, l.fs, l.report⟩
    | (l, false) => some ⟨.back false, stack, l.fs, reportFailedPath l.report l.srcChild⟩

/-- The states that a run comes to. -/
def Runs : State σ → State σ → Prop :=
  Relation.ReflTransGen fun s t => s.step os calls uninitialised = some t

/-- A call that has returned. -/
def State.returned (m : Moved σ) (stack : List Frame) : State σ :=
  ⟨.back m.ok, stack, m.fs, m.report⟩

end Machine

/-! ## The machine runs a call to its result -/

section Runs
variable {σ : Type} {os : Os} {calls : Calls σ} {uninitialised : Text}

theorem turn_recurse {src dst child dstChild : Path} {entry : Entry} {s s' : Level σ}
    (h : turn os calls src dst entry s = .recurse child dstChild s') :
    child = src.child os entry.name ∧ dstChild = dst.child os entry.name ∧
      child.fits = true ∧ dstChild.fits = true ∧ s'.srcChild = child.text ∧
      s'.report = s.report := by
  unfold turn at h
  split at h
  · cases h
  · dsimp only at h
    split at h
    · cases h
    · rename_i hfits
      simp only [Bool.or_eq_true, Bool.not_eq_true', not_or, Bool.not_eq_false] at hfits
      split at h
      · cases h
      · split at h <;> cases h
        exact ⟨rfl, rfl, hfits.1, hfits.2, rfl, rfl⟩
      · split at h <;> cases h

/-- Only the name in `src_child` is left of the level before the call. -/
theorem afterCall_congr (child : Path) {s s' : Level σ} (h : s.srcChild = s'.srcChild)
    (m : Moved σ) : afterCall calls child s m = afterCall calls child s' m := by
  rcases m with ⟨fs, report, _ | _⟩
  · simp only [afterCall, h]
  · simp only [afterCall, h]

/-- The end of a level, after its loop. -/
def closed (whole : Bool) : Level σ × Bool → Moved σ
  | (s, false) => ⟨s.fs, reportFailedPath s.report s.srcChild, false⟩
  | (s, true) =>
    if whole then ⟨s.fs, s.report, true⟩ else ⟨s.fs, reportFailedPath s.report s.srcChild, false⟩

theorem moveTree_succ (levels : Nat) (src dst : Path) (fs : σ) (report : Buffer) :
    moveTree os calls uninitialised (levels + 1) src dst fs report =
      match openSource os calls fs src with
      | none => ⟨fs, reportFailedPath report (cut bufferSize src.text), false⟩
      | some listing =>
        closed (listedWhole os listing) (moveEntries os calls
          (moveTree os calls uninitialised levels) src dst listing.entries
          ⟨fs, report, uninitialised⟩) := by
  rw [moveTree]
  cases openSource os calls fs src with
  | none => rfl
  | some listing =>
    dsimp only
    rcases moveEntries os calls (moveTree os calls uninitialised levels) src dst listing.entries
      ⟨fs, report, uninitialised⟩ with ⟨s, _ | _⟩ <;> rfl

theorem step_entry (src dst : Path) (entry : Entry) (rest : List Entry) (whole : Bool)
    (s : Level σ) (stack : List Frame) :
    State.step os calls uninitialised
        ⟨.loop src dst (entry :: rest) whole s.srcChild, stack, s.fs, s.report⟩ =
      match turn os calls src dst entry s with
      | .on l => some ⟨.loop src dst rest whole l.srcChild, stack, l.fs, l.report⟩
      | .fail l => some ⟨.back false, stack, l.fs, reportFailedPath l.report l.srcChild⟩
      | .recurse child dstChild l =>
        some ⟨.enter child dstChild, ⟨src, dst, rest, whole, child⟩ :: stack, l.fs, l.report⟩ :=
  rfl

theorem step_returned (m : Moved σ) {f : Frame} {l : Level σ} (hl : l.srcChild = f.child.text)
    (stack : List Frame) :
    State.step os calls uninitialised (.returned m (f :: stack)) =
      match afterCall calls f.child l m with
      | (l, true) => some ⟨.loop f.src f.dst f.rest f.whole l.srcChild, stack, l.fs, l.report⟩
      | (l, false) => some ⟨.back false, stack, l.fs, reportFailedPath l.report l.srcChild⟩ := by
  rw [afterCall_congr f.child (show l.srcChild = (⟨m.fs, m.report, f.child.text⟩ : Level σ).srcChild
    from hl) m]
  rfl

/-- The loop of a level runs to its end, if the calls it makes do. -/
theorem runs_loop {move : Path → Path → σ → Buffer → Moved σ} {src dst : Path}
    (hcalls : ∀ name fs report stack, (src.child os name).fits = true →
      Runs os calls uninitialised
        ⟨.enter (src.child os name) (dst.child os name), stack, fs, report⟩
        (.returned (move (src.child os name) (dst.child os name) fs report) stack))
    (entries : List Entry) (whole : Bool) (s : Level σ) (stack : List Frame) :
    Runs os calls uninitialised ⟨.loop src dst entries whole s.srcChild, stack, s.fs, s.report⟩
      (.returned (closed whole (moveEntries os calls move src dst entries s)) stack) := by
  induction entries generalizing s with
  | nil => cases whole <;> exact .single rfl
  | cons entry rest ih =>
    rw [moveEntries, moveEntry_eq_turn]
    cases hturn : turn os calls src dst entry s with
    | on l =>
      refine .head ?_ (ih l)
      rw [step_entry, hturn]
    | fail l =>
      refine .single ?_
      rw [step_entry, hturn]
      rfl
    | recurse child dstChild l =>
      obtain ⟨rfl, rfl, hfits, -, hchild, -⟩ := turn_recurse hturn
      have hcall := hcalls entry.name l.fs l.report
        (⟨src, dst, rest, whole, src.child os entry.name⟩ :: stack) hfits
      refine .head (by rw [step_entry, hturn]) (hcall.trans ?_)
      dsimp only
      generalize move (src.child os entry.name) (dst.child os entry.name) l.fs l.report = m
      have hback : State.step os calls uninitialised
          (.returned m (⟨src, dst, rest, whole, src.child os entry.name⟩ :: stack)) = _ :=
        step_returned m hchild stack
      dsimp only at hback
      rcases hafter : afterCall calls (src.child os entry.name) l m with ⟨l', _ | _⟩
      · rw [hafter] at hback
        exact .single hback
      · rw [hafter] at hback
        exact .head hback (ih l')

/-- There is a level for every call that a level can make. -/
def Room (levels : Nat) (src : Path) : Prop := 0 < levels ∧ bufferSize ≤ src.text.length + levels

theorem Room.child {levels : Nat} {src : Path} (h : Room (levels + 1) src) {name : Text}
    (hfits : (src.child os name).fits = true) : Room levels (src.child os name) := by
  have hlength : (src.child os name).text.length = src.text.length + (name.length + 1) := by
    simp [Path.child]
  have hshort : (src.child os name).text.length < bufferSize := by simpa [Path.fits] using hfits
  obtain ⟨-, hroom⟩ := h
  exact ⟨by omega, by omega⟩

/-- **The machine runs a call to what `moveTree` gives**, whatever waits below. -/
theorem runs_moveTree {levels : Nat} {src : Path} (hroom : Room levels src) (dst : Path) (fs : σ)
    (report : Buffer) (stack : List Frame) :
    Runs os calls uninitialised ⟨.enter src dst, stack, fs, report⟩
      (.returned (moveTree os calls uninitialised levels src dst fs report) stack) := by
  induction levels generalizing src dst fs report stack with
  | zero => exact absurd hroom.1 (Nat.lt_irrefl 0)
  | succ levels ih =>
    rw [moveTree_succ]
    cases hopen : openSource os calls fs src with
    | none =>
      refine .single ?_
      simp only [State.step, hopen]
      rfl
    | some listing =>
      refine .head ?_ (runs_loop (fun name fs report stack hfits =>
        ih (hroom.child hfits) _ fs report stack) listing.entries _ ⟨fs, report, uninitialised⟩
        stack)
      simp only [State.step, hopen]

end Runs

/-! ## How deep the recursion gets -/

/-- A level and the one that has called it: its paths are longer by two characters, and fit. -/
structure Inside (child parent : Path × Path) : Prop where
  src : parent.1.text.length + 2 ≤ child.1.text.length
  dst : parent.2.text.length + 2 ≤ child.2.text.length
  srcFits : child.1.fits = true
  dstFits : child.2.fits = true

/-- **Each level lies inside the one that has called it**: both of its paths are longer by two
characters at least, and fit into the buffers.  A chain of this kind cannot be longer than the
buffers allow, whatever the directories look like. -/
def Nested (levels : List (Path × Path)) : Prop := levels.IsChain Inside

/-- No enumeration gives a name without characters. -/
def NamesEntries {σ : Type} (calls : Calls σ) : Prop :=
  ∀ fs path listing, calls.opendir fs path = some listing → ∀ e ∈ listing.entries, e.name ≠ []

theorem inside_wellFounded : WellFounded Inside := by
  refine Subrelation.wf ?_ (measure fun p : Path × Path => bufferSize - p.1.text.length).wf
  intro child parent h
  have hfits : child.1.text.length < bufferSize := by simpa [Path.fits] using h.srcFits
  have hlonger := h.src
  show bufferSize - child.1.text.length < bufferSize - parent.1.text.length
  omega

/-- A path is longer than twice the number of levels around its own. -/
theorem Nested.length_le {level : Path × Path} {levels : List (Path × Path)}
    (h : Nested (level :: levels)) : 2 * levels.length ≤ level.1.text.length := by
  induction levels generalizing level with
  | nil => exact Nat.zero_le _
  | cons parent levels ih =>
    obtain ⟨hinside, hrest⟩ := List.isChain_cons_cons.mp h
    have hparent := ih hrest
    have hlonger := hinside.src
    rw [List.length_cons]
    omega

/-- **There are at most 511 levels below the first.** -/
theorem Nested.depth_le {levels : List (Path × Path)} (h : Nested levels) :
    levels.length ≤ 511 + 1 := by
  rcases levels with _ | ⟨level, _ | ⟨parent, levels⟩⟩
  · exact Nat.zero_le _
  · exact Nat.le_add_left 1 511
  · have hlength := h.length_le
    obtain ⟨hinside, -⟩ := List.isChain_cons_cons.mp h
    have hfits : level.1.text.length < bufferSize := by simpa [Path.fits] using hinside.srcFits
    have hsize : bufferSize = 1024 := rfl
    simp only [List.length_cons] at hlength ⊢
    omega

section Depth
variable {σ : Type} {os : Os} {calls : Calls σ} {uninitialised : Text}

/-- The entries that a level has before it have names. -/
def Control.Named : Control → Prop
  | .loop _ _ rest _ _ => ∀ e ∈ rest, e.name ≠ []
  | _ => True

/-- The levels are nested, and all entries that are still to come have names.  The second part is
what keeps the first: a level is entered for an entry of its caller, and its paths are longer by
the name of it. -/
structure Sound (s : State σ) : Prop where
  nested : Nested s.levels
  control : s.control.Named
  stack : ∀ f ∈ s.stack, ∀ e ∈ f.rest, e.name ≠ []

theorem inside_child {src dst : Path} {name : Text} (hname : name ≠ [])
    (hsrc : (src.child os name).fits = true) (hdst : (dst.child os name).fits = true) :
    Inside (src.child os name, dst.child os name) (src, dst) := by
  have hpos : 0 < name.length := List.length_pos_iff.mpr hname
  refine ⟨?_, ?_, hsrc, hdst⟩
  all_goals
    simp only [Path.child, List.length_append, List.length_cons]
    omega

theorem opendir_of_openSource {fs : σ} {src : Path} {listing : Listing}
    (h : openSource os calls fs src = some listing) : calls.opendir fs src = some listing := by
  unfold openSource at h
  split at h
  · cases h
  · exact h

/-- A step keeps the levels nested. -/
theorem Sound.step (hnames : NamesEntries calls) {s t : State σ} (h : Sound s)
    (hstep : s.step os calls uninitialised = some t) : Sound t := by
  obtain ⟨hnested, hcontrol, hstack⟩ := h
  obtain ⟨control, stack, fs, report⟩ := s
  cases control with
  | enter src dst =>
    simp only [State.step] at hstep
    cases hopen : openSource os calls fs src with
    | none =>
      rw [hopen] at hstep
      cases hstep
      exact ⟨hnested.tail, trivial, hstack⟩
    | some listing =>
      rw [hopen] at hstep
      cases hstep
      exact ⟨hnested, hnames fs src listing (opendir_of_openSource hopen), hstack⟩
  | loop src dst rest whole srcChild =>
    rcases rest with _ | ⟨entry, rest⟩
    · cases whole <;> cases hstep <;> exact ⟨hnested.tail, trivial, hstack⟩
    · obtain ⟨hname, hrest⟩ := List.forall_mem_cons.mp hcontrol
      rw [step_entry (s := ⟨fs, report, srcChild⟩)] at hstep
      cases hturn : turn os calls src dst entry ⟨fs, report, srcChild⟩ with
      | on l =>
        rw [hturn] at hstep
        cases hstep
        exact ⟨hnested, hrest, hstack⟩
      | fail l =>
        rw [hturn] at hstep
        cases hstep
        exact ⟨hnested.tail, trivial, hstack⟩
      | recurse child dstChild l =>
        rw [hturn] at hstep
        cases hstep
        obtain ⟨rfl, rfl, hsrc, hdst, -, -⟩ := turn_recurse hturn
        refine ⟨List.isChain_cons_cons.mpr ⟨inside_child hname hsrc hdst, hnested⟩, trivial, ?_⟩
        exact List.forall_mem_cons.mpr ⟨hrest, hstack⟩
  | back ok =>
    rcases stack with _ | ⟨f, stack⟩
    · cases hstep
    · obtain ⟨hrest, hbelow⟩ := List.forall_mem_cons.mp hstack
      simp only [State.step] at hstep
      split at hstep
      · -- the caller takes the place on top that its frame had
        cases hstep
        exact ⟨hnested, hrest, hbelow⟩
      · cases hstep
        exact ⟨hnested.tail, trivial, hbelow⟩

theorem Sound.runs (hnames : NamesEntries calls) {s t : State σ} (h : Sound s)
    (hruns : Runs os calls uninitialised s t) : Sound t := by
  induction hruns with
  | refl => exact h
  | tail _ hstep ih => exact ih.step hnames hstep

end Depth

/-- The outermost call. -/
def State.start {σ : Type} (src dst : Path) (fs : σ) (report : Buffer) : State σ :=
  ⟨.enter src dst, [], fs, report⟩

theorem sound_start {σ : Type} (src dst : Path) (fs : σ) (report : Buffer) :
    Sound (State.start src dst fs report) :=
  ⟨List.isChain_singleton _, trivial, fun _ h => absurd h List.not_mem_nil⟩

/-- **The move terminates on every directory graph, cycles or not.**  A level and its caller
stand in a well-founded relation.  In every state that a run comes to, each level lies inside
its caller and at most 511 levels lie below the first.  Every call returns, whatever waits below,
with the result that `moveTree` has for 1024 levels, and the run stops when the outermost has. -/
theorem move_tree_terminates {σ : Type} (os : Os) (calls : Calls σ) (hnames : NamesEntries calls)
    (uninitialised : Text) (src dst : Path) (fs : σ) (report : Buffer) :
    WellFounded Inside ∧
    (∀ s, Runs os calls uninitialised (.start src dst fs report) s →
      Nested s.levels ∧ s.levels.length ≤ 511 + 1) ∧
    (∀ stack, Runs os calls uninitialised ⟨.enter src dst, stack, fs, report⟩
      (.returned (moveTree os calls uninitialised bufferSize src dst fs report) stack)) ∧
    (State.returned (moveTree os calls uninitialised bufferSize src dst fs report) []).step os calls
      uninitialised = none := by
  refine ⟨inside_wellFounded, ?_, ?_, rfl⟩
  · intro s hruns
    have hnested := ((sound_start src dst fs report).runs hnames hruns).nested
    exact ⟨hnested, hnested.depth_le⟩
  · intro stack
    have hroom : Room bufferSize src := ⟨by decide, Nat.le_add_left _ _⟩
    exact runs_moveTree hroom dst fs report stack

/-- Every directory has the one entry `a`, and it leads to a directory. -/
def loopCalls : Calls Unit where
  opendir _ _ := some ⟨[⟨lit "a", true⟩], true⟩
  stat _ _ := some true
  mkdirP _ _ := ((), true)
  fileMoveVerified _ _ _ := ((), true)
  rmRf _ _ := ((), true)

theorem move_tree_terminates_loop :
    NamesEntries loopCalls ∧
    Runs .posix loopCalls [] (.start ⟨lit "/s", [lit "s"]⟩ ⟨lit "/d", [lit "d"]⟩ () none)
      (.returned (moveTree .posix loopCalls [] bufferSize ⟨lit "/s", [lit "s"]⟩
        ⟨lit "/d", [lit "d"]⟩ () none) []) := by
  have hnames : NamesEntries loopCalls := by
    intro fs path listing h
    cases h
    simp [lit]
  exact ⟨hnames, (move_tree_terminates .posix loopCalls hnames [] _ _ () none).2.2.1 []⟩

end Offs.MoveTree
