import OffsProof.MoveTree
import OffsProof.TreeWalk

/-! # A tree moved on a disk without links

A disk has files and directories at its places.  What the calls meet there is arbitrary
(`World`): each may fail at any path, and leave something behind if it does.  Every call is made
at most once for a path, so that a result for each path is a pattern of failures.

`file_move_verified` moves a file or leaves its source in place, `mkdir_p` makes the directories
that are not there, `rm_rf` deletes all that is below its argument; a failed `rm_rf` may have
deleted some of it.

The recursion is then a depth-first walk over the tree that stops at the first failure
(`cliCacheMoveTree_run`): the order of its visits is the order of the enumerations.

What each call does to the two trees is said by one lemma for each, seen from the source
(`inSrc`) and from the destination (`inDst`); a visit is one or two calls, and changes the source
only at its own path and below.  So a directory is, when the walk comes to it, as it was at the
beginning (`Untouched`), and the enumerations that the recursion reads are those of the first
disk.  With this the recursion and the walk go side by side, by induction over the levels
(`entryWalks`): one for the loop over the entries, one for an entry, one for a level.
-/
namespace Offs.MoveTree
open CText TreeWalk

/-! ## Disks -/

inductive Node
  | file (content : List UInt8)
  | dir
  deriving DecidableEq, Repr

def Node.isDir : Node → Bool
  | .file _ => false
  | .dir => true

abbrev Disk := Place → Option Node

/-- No file is in the way of a directory. -/
def Disk.free (d : Disk) (place : Place) : Bool :=
  place.inits.all fun q => (d q).all Node.isDir

/-- What the calls meet, by the place they are made for. -/
structure World where
  opens : Place → Bool
  listing : Place → Listing
  stats : Place → Bool
  mkdirs : Place → Bool
  /-- How many levels a failed `mkdir_p` has got to. -/
  made : Place → Nat
  moves : Place → Bool
  /-- What a failed move leaves at the destination. -/
  copied : Place → Option Node → Option Node
  removes : Place → Bool
  /-- What a failed `rm_rf` has deleted. -/
  removed : Place → Place → Bool

def World.calls (w : World) : Calls Disk where
  opendir d p :=
    if w.opens p.place ∧ d p.place = some .dir then some (w.listing p.place) else none
  stat d p := if w.stats p.place then (d p.place).map Node.isDir else none
  mkdirP d p :=
    if w.mkdirs p.place ∧ d.free p.place then
      (fun q => if q <+: p.place then some .dir else d q, true)
    else
      (fun q => if q <+: p.place ∧ q.length ≤ w.made p.place ∧ d q = none then some .dir else d q,
        false)
  fileMoveVerified d p q :=
    match d p.place with
    | some (.file content) =>
      if w.moves p.place ∧ d q.place ≠ some .dir then
        (fun r => if r = p.place then none else if r = q.place then some (.file content) else d r,
          true)
      else
        (fun r => if r = q.place ∧ d q.place ≠ some .dir then w.copied p.place (d r) else d r,
          false)
    | _ => (d, false)
  rmRf d p :=
    if w.removes p.place then (fun q => if p.place <+: q then none else d q, true)
    else (fun q => if p.place <+: q ∧ w.removed p.place q then none else d q, false)

/-- The names of an enumeration. -/
def Listing.names (l : Listing) : List Text := (l.entries.filter (!·.dots)).map Entry.name

/-- **A move**: two directories of which neither is in the other, on a disk that is a tree,
and enumerations of what is in the source. -/
structure Setting where
  os : Os
  src : Path
  dst : Path
  disk : Disk
  world : World
  apart : ¬src.place <+: dst.place ∧ ¬dst.place <+: src.place
  /-- Everything is in a directory. -/
  closed : ∀ p name, disk (p ++ [name]) ≠ none → disk p = some .dir
  listed_once : ∀ rel, (world.listing (src.place ++ rel)).names.Nodup
  listed_there : ∀ rel, ∀ e ∈ (world.listing (src.place ++ rel)).entries, e.dots = false →
    ∃ node, disk (src.place ++ rel ++ [e.name]) = some node ∧ e.directory = node.isDir
  /-- An enumeration that has come to its end has given every name. -/
  listed_all : ∀ rel name, (world.listing (src.place ++ rel)).complete = true →
    disk (src.place ++ rel ++ [name]) ≠ none → name ∈ (world.listing (src.place ++ rel)).names

namespace Setting
variable (s : Setting)

/-- What is below the source, on a disk. -/
def inSrc (d : Disk) (rel : Place) : Option Node := d (s.src.place ++ rel)

def inDst (d : Disk) (rel : Place) : Option Node := d (s.dst.place ++ rel)

def names (rel : Place) : List Text := (s.world.listing (s.src.place ++ rel)).names

def isDir (rel : Place) : Bool := s.inSrc s.disk rel = some .dir

/-- The visits of the walk, in the order of the enumerations. -/
def visits : List (Visit Text) := walk s.names s.isDir bufferSize []

/-- Both paths fit into their buffers. -/
def fits (rel : Place) : Bool := (s.src.below s.os rel).fits && (s.dst.below s.os rel).fits

/-- `stat`, where it is called. -/
def statable (rel : Place) : Bool := s.os = .windows || s.world.stats (s.src.place ++ rel)

/-- What is done at a visit. -/
def visit : Visit Text → Disk → Disk × Bool
  | .enter rel, d =>
    if rel ≠ [] ∧ ¬(s.fits rel ∧ s.statable rel) then (d, false)
    else
      match s.world.calls.mkdirP d (s.dst.below s.os rel) with
      | (d, false) => (d, false)
      | (d, true) => (d, (openSource s.os s.world.calls d (s.src.below s.os rel)).isSome)
  | .file rel, d =>
    if ¬(s.fits rel ∧ s.statable rel) then (d, false)
    else s.world.calls.fileMoveVerified d (s.src.below s.os rel) (s.dst.below s.os rel)
  | .leave rel, d =>
    if !listedWhole s.os (s.world.listing (s.src.place ++ rel)) then (d, false)
    else if rel = [] then (d, true)
    else s.world.calls.rmRf d (s.src.below s.os rel)

/-! ## Places -/

variable {s} {d : Disk} {rel q : Place} {v : Visit Text}

theorem not_src_isPrefix_dst (a b : Place) : ¬s.src.place ++ a <+: s.dst.place ++ b := by
  intro h
  rcases List.prefix_or_prefix_of_prefix ((List.prefix_append _ a).trans h)
    (List.prefix_append s.dst.place b) with hp | hp
  · exact s.apart.1 hp
  · exact s.apart.2 hp

theorem src_ne_dst (a b : Place) : s.src.place ++ a ≠ s.dst.place ++ b := by
  intro h
  have hnot := @not_src_isPrefix_dst s a b
  rw [h] at hnot
  exact hnot List.prefix_rfl

/-- Nothing above the destination is in the source. -/
theorem not_src_isPrefix_above {r : Place} (a : Place) (hr : r <+: s.dst.place) :
    ¬s.src.place ++ a <+: r := fun h =>
  s.apart.1 ((List.prefix_append _ a).trans (h.trans hr))

/-! ## What the calls do -/

section CallSpecs
variable (s)

theorem mkdirP_src (d : Disk) (rel q : Place) :
    s.inSrc (s.world.calls.mkdirP d (s.dst.below s.os rel)).1 q = s.inSrc d q := by
  have hnot : ¬s.src.place ++ q <+: s.dst.place ++ rel := not_src_isPrefix_dst q rel
  simp only [World.calls, below_place, inSrc]
  split <;> simp [hnot]

theorem mkdirP_ok (d : Disk) (rel : Place) :
    (s.world.calls.mkdirP d (s.dst.below s.os rel)).2 = true ↔
      s.world.mkdirs (s.dst.place ++ rel) = true ∧ d.free (s.dst.place ++ rel) = true := by
  simp only [World.calls, below_place]
  split <;> simp_all

theorem mkdirP_dst {d : Disk} {rel : Place}
    (h : (s.world.calls.mkdirP d (s.dst.below s.os rel)).2 = true) (q : Place) :
    s.inDst (s.world.calls.mkdirP d (s.dst.below s.os rel)).1 q =
      if q <+: rel then some .dir else s.inDst d q := by
  simp only [World.calls, below_place, inDst, if_pos ((mkdirP_ok s d rel).mp h),
    List.prefix_append_right_inj]

/-- A failed `mkdir_p` has at most made directories. -/
theorem mkdirP_dst_of_failure {d : Disk} {rel : Place}
    (h : (s.world.calls.mkdirP d (s.dst.below s.os rel)).2 = false) (q : Place) :
    s.inDst (s.world.calls.mkdirP d (s.dst.below s.os rel)).1 q = s.inDst d q ∨
      (q <+: rel ∧ s.inDst d q = none ∧
        s.inDst (s.world.calls.mkdirP d (s.dst.below s.os rel)).1 q = some .dir) := by
  have hnot : ¬(s.world.mkdirs (s.dst.place ++ rel) = true ∧
      d.free (s.dst.place ++ rel) = true) := by
    rw [← mkdirP_ok, h]
    simp
  simp only [World.calls, below_place, inDst, if_neg hnot, List.prefix_append_right_inj]
  by_cases hmade : q <+: rel ∧ (s.dst.place ++ q).length ≤ s.world.made (s.dst.place ++ rel) ∧
      d (s.dst.place ++ q) = none
  · rw [if_pos hmade]
    exact .inr ⟨hmade.1, hmade.2.2, rfl⟩
  · rw [if_neg hmade]
    exact .inl rfl

theorem mkdirP_dst_of_not_isPrefix (d : Disk) {rel q : Place} (h : ¬q <+: rel) :
    s.inDst (s.world.calls.mkdirP d (s.dst.below s.os rel)).1 q = s.inDst d q := by
  simp only [World.calls, below_place, inDst]
  split <;> simp [List.prefix_append_right_inj, h]

theorem free_iff (d : Disk) (place : Place) :
    d.free place = true ↔ ∀ q, q <+: place → ∀ content, d q ≠ some (.file content) := by
  simp only [Disk.free, List.all_eq_true, List.mem_inits]
  refine forall_congr' fun q => forall_congr' fun _ => ?_
  rcases d q with _ | content | _ <;> simp [Node.isDir]

/-- A move that succeeds. -/
theorem move_ok {d : Disk} {rel : Place}
    (h : (s.world.calls.fileMoveVerified d (s.src.below s.os rel) (s.dst.below s.os rel)).2 = true) :
    ∃ content, s.inSrc d rel = some (.file content) ∧ s.world.moves (s.src.place ++ rel) = true ∧
      s.inDst d rel ≠ some .dir ∧ ∀ q,
      s.inSrc (s.world.calls.fileMoveVerified d (s.src.below s.os rel)
        (s.dst.below s.os rel)).1 q = (if q = rel then none else s.inSrc d q) ∧
      s.inDst (s.world.calls.fileMoveVerified d (s.src.below s.os rel)
        (s.dst.below s.os rel)).1 q = (if q = rel then some (.file content) else s.inDst d q) := by
  simp only [World.calls, below_place] at h ⊢
  rcases hnode : d (s.src.place ++ rel) with _ | content | _ <;> simp only [hnode] at h ⊢
  · cases h
  · by_cases hmoves : s.world.moves (s.src.place ++ rel) = true ∧
        d (s.dst.place ++ rel) ≠ some .dir
    · refine ⟨content, hnode, hmoves.1, hmoves.2, fun q => ?_⟩
      rw [if_pos hmoves]
      have hsd : s.src.place ++ q ≠ s.dst.place ++ rel := src_ne_dst q rel
      have hds : s.dst.place ++ q ≠ s.src.place ++ rel := (src_ne_dst rel q).symm
      constructor
      · simp [inSrc, hsd]
      · simp [inDst, hds]
    · rw [if_neg hmoves] at h
      cases h
  · cases h

/-- A move that fails leaves the source, and changes its destination at most. -/
theorem move_failure {d : Disk} {rel : Place}
    (h : (s.world.calls.fileMoveVerified d (s.src.below s.os rel) (s.dst.below s.os rel)).2 =
      false) (q : Place) :
    s.inSrc (s.world.calls.fileMoveVerified d (s.src.below s.os rel)
      (s.dst.below s.os rel)).1 q = s.inSrc d q ∧
    (q ≠ rel → s.inDst (s.world.calls.fileMoveVerified d (s.src.below s.os rel)
      (s.dst.below s.os rel)).1 q = s.inDst d q) := by
  simp only [World.calls, below_place] at h ⊢
  rcases hnode : d (s.src.place ++ rel) with _ | content | _ <;> simp only [hnode] at h ⊢
  · simp
  · by_cases hmoves : s.world.moves (s.src.place ++ rel) = true ∧
        d (s.dst.place ++ rel) ≠ some .dir
    · rw [if_pos hmoves] at h
      cases h
    · rw [if_neg hmoves]
      have hsd : s.src.place ++ q ≠ s.dst.place ++ rel := src_ne_dst q rel
      constructor
      · simp [inSrc, hsd]
      · intro hq
        simp [inDst, hq]
  · simp

theorem move_elsewhere (d : Disk) (rel : Place) {r : Place} (hsrc : r ≠ s.src.place ++ rel)
    (hdst : r ≠ s.dst.place ++ rel) :
    (s.world.calls.fileMoveVerified d (s.src.below s.os rel) (s.dst.below s.os rel)).1 r = d r := by
  simp only [World.calls, below_place]
  rcases d (s.src.place ++ rel) with _ | content | _
  · rfl
  · dsimp only
    split <;> simp [hsrc, hdst]
  · rfl

theorem rmRf_elsewhere (d : Disk) (rel : Place) {r : Place} (h : ¬s.src.place ++ rel <+: r) :
    (s.world.calls.rmRf d (s.src.below s.os rel)).1 r = d r := by
  simp only [World.calls, below_place]
  split <;> simp [h]

theorem rmRf_ok (d : Disk) (rel : Place) :
    (s.world.calls.rmRf d (s.src.below s.os rel)).2 = s.world.removes (s.src.place ++ rel) := by
  simp only [World.calls, below_place]
  split <;> simp_all

theorem rmRf_src (d : Disk) (rel q : Place) :
    s.inSrc (s.world.calls.rmRf d (s.src.below s.os rel)).1 q =
      if rel <+: q ∧ (s.world.removes (s.src.place ++ rel) = true ∨
        s.world.removed (s.src.place ++ rel) (s.src.place ++ q) = true) then none
      else s.inSrc d q := by
  simp only [World.calls, below_place, inSrc]
  by_cases hremoves : s.world.removes (s.src.place ++ rel) = true
  · simp [hremoves, List.prefix_append_right_inj]
  · simp [hremoves, List.prefix_append_right_inj]

theorem rmRf_dst (d : Disk) (rel q : Place) :
    s.inDst (s.world.calls.rmRf d (s.src.below s.os rel)).1 q = s.inDst d q := by
  exact rmRf_elsewhere s d rel (not_src_isPrefix_dst rel q)

end CallSpecs

/-! ## Visits -/

/-- To enter a directory changes nothing in the source. -/
theorem enter_src (rel q : Place) : s.inSrc (s.visit (.enter rel) d).1 q = s.inSrc d q := by
  rw [visit]
  split
  · rfl
  · have hsrc := mkdirP_src s d rel q
    rcases hmkdir : s.world.calls.mkdirP d (s.dst.below s.os rel) with ⟨d', _ | _⟩ <;>
      simpa [hmkdir] using hsrc

/-- At the destination it changes its path and what is above. -/
theorem enter_dst_of_not_isPrefix (h : ¬q <+: rel) :
    s.inDst (s.visit (.enter rel) d).1 q = s.inDst d q := by
  rw [visit]
  split
  · rfl
  · have hdst := mkdirP_dst_of_not_isPrefix s d h
    rcases hmkdir : s.world.calls.mkdirP d (s.dst.below s.os rel) with ⟨d', _ | _⟩ <;>
      simpa [hmkdir] using hdst

/-- To leave a directory changes nothing at the destination. -/
theorem leave_dst (rel q : Place) : s.inDst (s.visit (.leave rel) d).1 q = s.inDst d q := by
  rw [visit]
  split
  · rfl
  · split
    · rfl
    · exact rmRf_dst s d rel q

/-- A visit changes the source only at its own path and below. -/
theorem visit_src_of_not_isPrefix (h : ¬v.path <+: q) :
    s.inSrc (s.visit v d).1 q = s.inSrc d q := by
  rcases v with rel | rel | rel
  · exact enter_src rel q
  · have hq : q ≠ rel := by
      rintro rfl
      exact h List.prefix_rfl
    rw [visit]
    split
    · rfl
    · by_cases hmove : (s.world.calls.fileMoveVerified d (s.src.below s.os rel)
          (s.dst.below s.os rel)).2 = true
      · obtain ⟨content, -, -, -, hafter⟩ := move_ok s hmove
        rw [(hafter q).1, if_neg hq]
      · exact (move_failure s (by simpa using hmove) q).1
  · rw [visit]
    split
    · rfl
    · split
      · rfl
      · rw [rmRf_src, if_neg fun hrel => h hrel.1]

theorem run_src_of_not_isPrefix {vs : List (Visit Text)} (h : ∀ v ∈ vs, ¬v.path <+: q) :
    s.inSrc (run s.visit vs d).1 q = s.inSrc d q := by
  induction vs generalizing d with
  | nil => rfl
  | cons v vs ih =>
    have hfirst : s.inSrc (s.visit v d).1 q = s.inSrc d q :=
      visit_src_of_not_isPrefix (h v List.mem_cons_self)
    by_cases hv : (s.visit v d).2 = true
    · rw [run_cons_of_ok hv, ih fun w hw => h w (List.mem_cons_of_mem v hw), hfirst]
    · rw [run_cons_of_failure (by simpa using hv), hfirst]

/-! ## The recursion is the walk -/

section Refinement
variable (s) (uninitialised : Text)

/-- The file system that is left, and whether all has been done. -/
def outcome (r : Level Disk × Bool) : Disk × Bool := (r.1.fs, r.2)

def result (r : Moved Disk) : Disk × Bool := (r.fs, r.ok)

/-- The disk is as it was at the beginning, at a place of the source and below.  When the walk
comes to a place, everything there is untouched, so that what the calls find is known beforehand.
-/
def Untouched (d : Disk) (rel : Place) : Prop := ∀ q, rel <+: q → s.inSrc d q = s.inSrc s.disk q

/-- `_move_tree` for the directories below. -/
def recursion (n : Nat) : Path → Path → Disk → Buffer → Moved Disk :=
  moveTree s.os s.world.calls uninitialised n

/-- What the body of the loop comes to, with so many levels below it: the walk of the entry, for
every directory that is deep enough for the levels to suffice, on every disk on which the entry is
still untouched.  This is the induction hypothesis of the recursion. -/
def EntryWalks (n : Nat) : Prop :=
  ∀ (rel : Place) (e : Entry) (l : Level Disk), e.dots = false →
    e ∈ (s.world.listing (s.src.place ++ rel)).entries → Untouched s l.fs (rel ++ [e.name]) →
    bufferSize ≤ n + rel.length + 1 →
    outcome (moveEntry s.os s.world.calls (s.recursion uninitialised n)
      (s.src.below s.os rel) (s.dst.below s.os rel) e l) =
      run s.visit (walkChild s.names s.isDir n rel e.name) l.fs

variable {s uninitialised} {n : Nat}

/-- What a child leaves alone. -/
theorem untouched_sibling {a b : Text} (hab : a ≠ b) (h : Untouched s d (rel ++ [b])) :
    Untouched s (run s.visit (walkChild s.names s.isDir n rel a) d).1 (rel ++ [b]) := by
  intro q hq
  rw [run_src_of_not_isPrefix, h q hq]
  intro v hv hvq
  exact hab (eq_of_isPrefix_child ((walkChild_below hv).trans hvq) hq)

/-- **The loop over the entries.** -/
theorem moveEntries_run (hentry : EntryWalks s uninitialised n)
    (hlevel : bufferSize ≤ n + rel.length + 1) {es : List Entry} {l : Level Disk}
    (hlisted : ∀ e ∈ es, e ∈ (s.world.listing (s.src.place ++ rel)).entries)
    (hnodup : ((es.filter (!·.dots)).map Entry.name).Nodup)
    (huntouched : ∀ e ∈ es, e.dots = false → Untouched s l.fs (rel ++ [e.name])) :
    outcome (moveEntries s.os s.world.calls (s.recursion uninitialised n)
      (s.src.below s.os rel) (s.dst.below s.os rel) es l) =
      run s.visit (((es.filter (!·.dots)).map Entry.name).flatMap
        (walkChild s.names s.isDir n rel)) l.fs := by
  induction es generalizing l with
  | nil => rfl
  | cons e es ih =>
    have hlisted' : ∀ e' ∈ es, e' ∈ (s.world.listing (s.src.place ++ rel)).entries :=
      fun e' he' => hlisted e' (List.mem_cons_of_mem e he')
    by_cases hdots : e.dots = true
    · have hskip : moveEntry s.os s.world.calls (s.recursion uninitialised n)
          (s.src.below s.os rel) (s.dst.below s.os rel) e l = (l, true) := by
        rw [moveEntry, if_pos hdots]
      rw [List.filter_cons_of_neg (by simp [hdots])] at hnodup ⊢
      rw [moveEntries, hskip]
      exact ih hlisted' hnodup fun e' he' => huntouched e' (List.mem_cons_of_mem e he')
    · have hdots' : e.dots = false := by simpa using hdots
      rw [List.filter_cons_of_pos (by simp [hdots'])] at hnodup ⊢
      rw [List.map_cons, List.nodup_cons] at hnodup
      rw [List.map_cons, List.flatMap_cons]
      have hone := hentry rel e l hdots' (hlisted e List.mem_cons_self)
        (huntouched e List.mem_cons_self hdots') hlevel
      rw [moveEntries]
      rcases hmove : moveEntry s.os s.world.calls (s.recursion uninitialised n)
        (s.src.below s.os rel) (s.dst.below s.os rel) e l with ⟨l', _ | _⟩
      · rw [hmove] at hone
        have hfailed : (run s.visit (walkChild s.names s.isDir n rel e.name) l.fs).2 = false := by
          rw [← hone]
          rfl
        rw [run_append_of_failure hfailed, ← hone]
      · rw [hmove] at hone
        have hok : (run s.visit (walkChild s.names s.isDir n rel e.name) l.fs).2 = true := by
          rw [← hone]
          rfl
        have hfs : (run s.visit (walkChild s.names s.isDir n rel e.name) l.fs).1 = l'.fs := by
          rw [← hone]
          rfl
        rw [run_append_of_ok hok, hfs]
        refine ih hlisted' hnodup.2 fun e' he' hd' => ?_
        rw [← hfs]
        refine untouched_sibling ?_ (huntouched e' (List.mem_cons_of_mem e he') hd')
        rintro heq
        refine hnodup.1 (heq ▸ List.mem_map_of_mem (List.mem_filter.mpr ⟨he', ?_⟩))
        simp [hd']

theorem kind_of_entry {e : Entry} {node : Node} (hnode : s.inSrc d rel = some node)
    (hkind : e.directory = node.isDir) :
    kind s.os s.world.calls d (s.src.below s.os rel) e =
      if s.statable rel then some node.isDir else none := by
  have hplace : d (s.src.place ++ rel) = some node := hnode
  rcases hos : s.os with _ | _
  · simp [kind, statable, hos, World.calls, hplace]
  · simp [kind, statable, hos, hkind]

/-- What is done to an entry, in the words of the visits. -/
theorem outcome_moveEntry {rec : Path → Path → Disk → Buffer → Moved Disk} {e : Entry}
    {l : Level Disk} {node : Node} (hdots : e.dots = false)
    (hnode : s.inSrc l.fs (rel ++ [e.name]) = some node) (hkind : e.directory = node.isDir) :
    outcome (moveEntry s.os s.world.calls rec (s.src.below s.os rel) (s.dst.below s.os rel) e l) =
      if ¬(s.fits (rel ++ [e.name]) ∧ s.statable (rel ++ [e.name])) then (l.fs, false)
      else if node.isDir then
        match s.world.calls.mkdirP l.fs (s.dst.below s.os (rel ++ [e.name])) with
        | (d, false) => (d, false)
        | (d, true) =>
          match result (rec (s.src.below s.os (rel ++ [e.name]))
              (s.dst.below s.os (rel ++ [e.name])) d l.report) with
          | (d, false) => (d, false)
          | (d, true) => s.world.calls.rmRf d (s.src.below s.os (rel ++ [e.name]))
      else s.world.calls.fileMoveVerified l.fs (s.src.below s.os (rel ++ [e.name]))
        (s.dst.below s.os (rel ++ [e.name])) := by
  have hsrc : (s.src.below s.os rel).child s.os e.name = s.src.below s.os (rel ++ [e.name]) :=
    (below_snoc _ _ _).symm
  have hdst : (s.dst.below s.os rel).child s.os e.name = s.dst.below s.os (rel ++ [e.name]) :=
    (below_snoc _ _ _).symm
  rw [moveEntry, if_neg (by simp [hdots])]
  simp only [hsrc, hdst]
  by_cases hfits : s.fits (rel ++ [e.name]) = true
  · have hfits' : ¬(!(s.src.below s.os (rel ++ [e.name])).fits ||
        !(s.dst.below s.os (rel ++ [e.name])).fits) = true := by
      simpa [fits] using hfits
    rw [if_neg hfits', kind_of_entry hnode hkind]
    by_cases hstat : s.statable (rel ++ [e.name]) = true
    · rw [if_pos hstat, if_neg (by simp [hfits, hstat])]
      rcases node with content | _
      · rcases hmove : s.world.calls.fileMoveVerified l.fs (s.src.below s.os (rel ++ [e.name]))
          (s.dst.below s.os (rel ++ [e.name])) with ⟨d, _ | _⟩ <;> simp [Node.isDir, outcome]
      · simp only [Node.isDir, if_true]
        rcases hmkdir : s.world.calls.mkdirP l.fs (s.dst.below s.os (rel ++ [e.name])) with
          ⟨d, _ | _⟩
        · rfl
        · dsimp only
          rcases hrec : rec (s.src.below s.os (rel ++ [e.name])) (s.dst.below s.os (rel ++ [e.name]))
            d l.report with ⟨d, report, _ | _⟩
          · rfl
          · dsimp only [result]
            rcases hrm : s.world.calls.rmRf d (s.src.below s.os (rel ++ [e.name])) with
              ⟨d, _ | _⟩ <;> rfl
    · rw [if_neg hstat, if_pos (by simp [hstat])]
      rfl
  · have hfits' : (!(s.src.below s.os (rel ++ [e.name])).fits ||
        !(s.dst.below s.os (rel ++ [e.name])).fits) = true := by
      rw [← Bool.not_and]
      show (!s.fits (rel ++ [e.name])) = true
      simpa using hfits
    rw [if_pos hfits', if_pos (by simp [hfits])]
    rfl

theorem openSource_listing {listing : Listing}
    (h : openSource s.os s.world.calls d (s.src.below s.os rel) = some listing) :
    listing = s.world.listing (s.src.place ++ rel) := by
  rw [openSource] at h
  split at h
  · cases h
  · simp only [World.calls, below_place] at h
    split at h
    · exact (Option.some.inj h).symm
    · cases h

/-- **A level of the recursion.** -/
theorem result_recursion (hentry : EntryWalks s uninitialised n)
    (hlevel : bufferSize ≤ n + rel.length + 1) (huntouched : Untouched s d rel)
    (report : Buffer) :
    result (s.recursion uninitialised (n + 1) (s.src.below s.os rel) (s.dst.below s.os rel) d
        report) =
      if (openSource s.os s.world.calls d (s.src.below s.os rel)).isSome then
        match run s.visit ((s.names rel).flatMap (walkChild s.names s.isDir n rel)) d with
        | (d, false) => (d, false)
        | (d, true) => (d, listedWhole s.os (s.world.listing (s.src.place ++ rel)))
      else (d, false) := by
  rw [recursion, moveTree]
  rcases hopen : openSource s.os s.world.calls d (s.src.below s.os rel) with _ | listing
  · rfl
  · obtain rfl := openSource_listing hopen
    have hentries := moveEntries_run hentry hlevel (l := ⟨d, report, uninitialised⟩)
      (fun e he => he) (s.listed_once rel)
      fun e _ _ q hq => huntouched q ((List.prefix_append rel [e.name]).trans hq)
    have hnames : ((s.world.listing (s.src.place ++ rel)).entries.filter (!·.dots)).map Entry.name =
        s.names rel := rfl
    rw [hnames, recursion] at hentries
    simp only [Option.isSome_some, if_true]
    rw [← hentries]
    rcases moveEntries s.os s.world.calls (moveTree s.os s.world.calls uninitialised n)
      (s.src.below s.os rel) (s.dst.below s.os rel) (s.world.listing (s.src.place ++ rel)).entries
      ⟨d, report, uninitialised⟩ with ⟨l, _ | _⟩
    · rfl
    · by_cases hwhole : listedWhole s.os (s.world.listing (s.src.place ++ rel)) = true <;>
        simp [outcome, result, hwhole]

/-- **A directory is walked** if its entries are. -/
theorem run_walk_succ (hentry : EntryWalks s uninitialised n)
    (hlevel : bufferSize ≤ n + rel.length + 1) (hrel : rel ≠ []) (huntouched : Untouched s d rel)
    (hfits : s.fits rel = true ∧ s.statable rel = true) (report : Buffer) :
    run s.visit (walk s.names s.isDir (n + 1) rel) d =
      match s.world.calls.mkdirP d (s.dst.below s.os rel) with
      | (d, false) => (d, false)
      | (d, true) =>
        match result (s.recursion uninitialised (n + 1) (s.src.below s.os rel)
            (s.dst.below s.os rel) d report) with
        | (d, false) => (d, false)
        | (d, true) => s.world.calls.rmRf d (s.src.below s.os rel) := by
  have hsrc : ∀ q, s.inSrc (s.world.calls.mkdirP d (s.dst.below s.os rel)).1 q = s.inSrc d q :=
    mkdirP_src s d rel
  have henter : s.visit (.enter rel) d =
      match s.world.calls.mkdirP d (s.dst.below s.os rel) with
      | (d, false) => (d, false)
      | (d, true) => (d, (openSource s.os s.world.calls d (s.src.below s.os rel)).isSome) := by
    rw [visit, if_neg fun h => h.2 hfits]
  rw [walk_succ, List.cons_append, run, henter]
  rcases hmkdir : s.world.calls.mkdirP d (s.dst.below s.os rel) with ⟨d', _ | _⟩
  · rfl
  · rw [hmkdir] at hsrc
    have huntouched' : Untouched s d' rel := fun q hq => (hsrc q).trans (huntouched q hq)
    dsimp only
    rw [result_recursion hentry hlevel huntouched' report]
    rcases hopen : (openSource s.os s.world.calls d' (s.src.below s.os rel)).isSome with _ | _
    · rfl
    · simp only [if_true]
      rw [run_snoc]
      rcases run s.visit ((s.names rel).flatMap (walkChild s.names s.isDir n rel)) d' with
        ⟨d'', _ | _⟩
      · rfl
      · dsimp only
        rw [visit]
        rcases listedWhole s.os (s.world.listing (s.src.place ++ rel)) with _ | _
        · rfl
        · simp [hrel]

/-- A file, and whatever cannot be visited. -/
theorem run_walkChild_of_failure {name : Text}
    (h : ¬(s.fits (rel ++ [name]) = true ∧ s.statable (rel ++ [name]) = true)) :
    run s.visit (walkChild s.names s.isDir n rel name) d = (d, false) := by
  rw [walkChild]
  split
  · have henter : s.visit (.enter (rel ++ [name])) d = (d, false) := by
      rw [visit, if_pos ⟨by simp, h⟩]
    rcases n with _ | n
    · rw [walk, run_singleton, henter]
    · rw [walk_succ, List.cons_append, run, henter]
  · rw [run_singleton, visit, if_pos h]

/-- **Every entry is walked**, as deep as paths fit. -/
theorem entryWalks (s : Setting) (uninitialised : Text) (n : Nat) :
    EntryWalks s uninitialised n := by
  induction n with
  | zero =>
    intro rel e l hdots hlisted huntouched hlevel
    obtain ⟨node, hnode, hkind⟩ := s.listed_there rel e hlisted hdots
    have hnode' : s.inSrc l.fs (rel ++ [e.name]) = some node := by
      rw [huntouched _ List.prefix_rfl, inSrc, ← List.append_assoc]
      exact hnode
    -- A path so deep does not fit.
    have hdeep : ¬(s.fits (rel ++ [e.name]) = true ∧ s.statable (rel ++ [e.name]) = true) := by
      intro h
      have hlength := @length_le_below s.os s.src (rel ++ [e.name])
      simp only [fits, Path.fits, Bool.and_eq_true, decide_eq_true_eq] at h
      rw [List.length_append, List.length_singleton] at hlength
      omega
    rw [outcome_moveEntry hdots hnode' hkind, if_pos hdeep, run_walkChild_of_failure hdeep]
  | succ n ih =>
    intro rel e l hdots hlisted huntouched hlevel
    obtain ⟨node, hnode, hkind⟩ := s.listed_there rel e hlisted hdots
    have hdisk : s.inSrc s.disk (rel ++ [e.name]) = some node := by
      rw [inSrc, ← List.append_assoc]
      exact hnode
    have hnode' : s.inSrc l.fs (rel ++ [e.name]) = some node :=
      (huntouched _ List.prefix_rfl).trans hdisk
    rw [outcome_moveEntry hdots hnode' hkind]
    by_cases hfits : s.fits (rel ++ [e.name]) = true ∧ s.statable (rel ++ [e.name]) = true
    · rw [if_neg (not_not.mpr hfits)]
      rcases node with content | _
      · have hfile : s.isDir (rel ++ [e.name]) = false := by simp [isDir, hdisk]
        rw [walkChild, hfile]
        simp only [Node.isDir, Bool.false_eq_true, if_false, run_singleton]
        rw [visit, if_neg (not_not.mpr hfits)]
      · have hdir : s.isDir (rel ++ [e.name]) = true := by simp [isDir, hdisk]
        rw [walkChild, if_pos hdir, run_walk_succ ih (by simp; omega) (by simp) huntouched hfits
          l.report]
        rfl
    · rw [if_pos hfits, run_walkChild_of_failure hfits]

/-- **The move is the walk**, up to the first failure. -/
theorem cliCacheMoveTree_run (s : Setting) (uninitialised : Text) (report : Buffer) :
    result (cliCacheMoveTree s.os s.world.calls uninitialised s.src s.dst s.disk report) =
      run s.visit s.visits s.disk := by
  obtain ⟨n, hn⟩ : ∃ n, bufferSize = n + 1 := ⟨1023, rfl⟩
  have hsrc : ∀ q, s.inSrc (s.world.calls.mkdirP s.disk (s.dst.below s.os [])).1 q =
      s.inSrc s.disk q := mkdirP_src s s.disk []
  have henter : s.visit (.enter []) s.disk =
      match s.world.calls.mkdirP s.disk s.dst with
      | (d, false) => (d, false)
      | (d, true) => (d, (openSource s.os s.world.calls d s.src).isSome) := by
    rw [visit, if_neg fun h => h.1 rfl]
    rfl
  rw [cliCacheMoveTree, visits, hn, walk_succ, List.cons_append, run, henter]
  rw [below_nil] at hsrc
  rcases hmkdir : s.world.calls.mkdirP s.disk s.dst with ⟨d, _ | _⟩
  · rfl
  · rw [hmkdir] at hsrc
    have huntouched : Untouched s d [] := fun q _ => hsrc q
    have hlevel := result_recursion (entryWalks s uninitialised n) (by simp [hn]) huntouched report
    rw [below_nil, below_nil, recursion] at hlevel
    dsimp only
    rw [hlevel]
    rcases hopen : (openSource s.os s.world.calls d s.src).isSome with _ | _
    · rfl
    · simp only [if_true]
      rw [run_snoc]
      rcases run s.visit ((s.names []).flatMap (walkChild s.names s.isDir n [])) d with
        ⟨d', _ | _⟩
      · rfl
      · dsimp only
        rw [visit]
        rcases listedWhole s.os (s.world.listing (s.src.place ++ [])) with _ | _ <;> rfl

theorem cliCacheMoveTree_fs (s : Setting) (uninitialised : Text) (report : Buffer) :
    (cliCacheMoveTree s.os s.world.calls uninitialised s.src s.dst s.disk report).fs =
      (run s.visit s.visits s.disk).1 :=
  congrArg Prod.fst (cliCacheMoveTree_run s uninitialised report)

end Refinement

end Setting

end Offs.MoveTree
