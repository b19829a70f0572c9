import OffsProof.MoveTree
import OffsProof.PathTree

/-! # A tree moved on a disk with links

`stat`, `opendir` and the calls of the move follow symbolic links, and `_move_tree` does not
ask for them.  A link in the source that leads to a directory elsewhere is gone through like a
subdirectory: what is in that directory is moved out of it, or removed with it.

A link has its target as the names from the root on.  A walk along a path follows every link
on the way, for at most so many links (`realpath`); what a name itself stands for is found
without following the last one (`locate`).

The calls are free in what they return and in how far they get, but not in what they touch and
tell (`Confined`).  Under them a move keeps every file outside of its two directories on a site
that is sealed (`Sealed`): whatever a path to an entry of the source leads to, and wherever the
path that the entry gets at the destination leads to, there is no file outside.  The condition
is about the disk before the move, and about the entries that are there.

The proof is an invariant over the move (`Kept`): the files outside are there, and no link is
new.  Links can disappear while the tree is moved, so that a path may lead elsewhere than at
the start, but never to an old file to which it did not lead then (`walkNames_kept`).  In the
other direction, where a path leads to a file outside, there are calls that take the move
there, entry by entry, and delete it (`guide`).

One thing the disk before the move does not show: where links connect the two trees, a file can
come into the reach of the source that the move itself has put there (`Met`).  Such a file may
lead the move out where nothing did before (`Returns`).
-/
namespace Offs.MoveTree
open CText

/-! ## Walks along links -/

inductive Item
  | file (content : List UInt8)
  | dir
  | link (target : Place)
  deriving DecidableEq, Repr

abbrev LinkDisk := Place → Option Item

/-- The walk along some names, up to the first link. -/
def walkNames (d : LinkDisk) (follow : Place → Option Place) : Place → Place → Option Place
  | cur, [] => some cur
  | cur, name :: rest =>
    match d (cur ++ [name]) with
    | some (.link target) => follow (target ++ rest)
    | _ => walkNames d follow (cur ++ [name]) rest

/-- The walk from a directory on, for at most so many links. -/
def walkLinks (d : LinkDisk) : Nat → Place → Place → Option Place
  | 0 => walkNames d fun _ => none
  | links + 1 => walkNames d (walkLinks d links [])

def Item.isFile : Item → Bool
  | .file _ => true
  | _ => false

/-- The flag that an enumeration has for it, on Windows: a link has the one it was made with. -/
def Item.Shows : Item → Bool → Prop
  | .file _, directory => directory = false
  | .dir, directory => directory = true
  | .link _, _ => True

/-- Where a path leads. -/
def realpath (links : Nat) (d : LinkDisk) (p : Place) : Option Place := walkLinks d links [] p

/-- Where the last name of a path is. -/
def locate (links : Nat) (d : LinkDisk) (p : Place) : Option Place :=
  match p.getLast? with
  | none => some []
  | some name => (realpath links d p.dropLast).map (· ++ [name])

theorem locate_snoc (links : Nat) (d : LinkDisk) (p : Place) (name : Text) :
    locate links d (p ++ [name]) = (realpath links d p).map (· ++ [name]) := by
  simp [locate]

section Walks
variable {d disk : LinkDisk} {f g : Place → Option Place} {cur rest p q r : Place} {links : Nat}

theorem walkNames_link {name : Text} {target : Place}
    (h : d (cur ++ [name]) = some (.link target)) :
    walkNames d f cur (name :: rest) = f (target ++ rest) := by
  simp only [walkNames, h]

theorem walkNames_pass {name : Text} (h : ∀ target, d (cur ++ [name]) ≠ some (.link target)) :
    walkNames d f cur (name :: rest) = walkNames d f (cur ++ [name]) rest := by
  rw [walkNames]
  split
  · rename_i target hlink
    exact absurd hlink (h target)
  · rfl

@[simp] theorem walkLinks_nil : walkLinks d links cur [] = some cur := by
  rcases links with _ | links <;> rfl

theorem walkLinks_pass {name : Text} (h : ∀ target, d (cur ++ [name]) ≠ some (.link target)) :
    walkLinks d links cur (name :: rest) = walkLinks d links (cur ++ [name]) rest := by
  rcases links with _ | links <;> exact walkNames_pass h

/-- Where there are no links a walk goes along the names. -/
theorem walkNames_eq_append (h : ∀ rel target, rel ≠ [] → d (cur ++ rel) ≠ some (.link target)) :
    walkNames d f cur rest = some (cur ++ rest) := by
  induction rest generalizing cur with
  | nil => simp [walkNames]
  | cons name rest ih =>
    rw [walkNames_pass fun target => h [name] target (by simp), ih]
    · simp
    · intro rel target hrel
      rw [List.append_assoc]
      exact h _ target (by simp)

theorem walkLinks_eq_append (h : ∀ rel target, rel ≠ [] → d (cur ++ rel) ≠ some (.link target)) :
    walkLinks d links cur rest = some (cur ++ rest) := by
  rcases links with _ | links <;> exact walkNames_eq_append h

/-- A walk along two paths ends the first of them, or it follows a link before that. -/
theorem walkNames_append {first : Place} (h : walkNames d f cur (first ++ rest) = some r) :
    (∃ mid, walkNames d f cur first = some mid ∧ walkNames d f mid rest = some r) ∨
    ∃ toward, walkNames d f cur first = f toward ∧ f (toward ++ rest) = some r := by
  induction first generalizing cur with
  | nil => exact .inl ⟨cur, rfl, h⟩
  | cons name first ih =>
    rw [List.cons_append] at h
    by_cases hlink : ∃ target, d (cur ++ [name]) = some (.link target)
    · obtain ⟨target, htarget⟩ := hlink
      rw [walkNames_link htarget, ← List.append_assoc] at h
      exact .inr ⟨target ++ first, walkNames_link htarget, h⟩
    · have hpass : ∀ target, d (cur ++ [name]) ≠ some (.link target) :=
        fun target htarget => hlink ⟨target, htarget⟩
      rw [walkNames_pass hpass] at h ⊢
      exact ih h

/-- A walk along a path is a walk along its first part and one from there. -/
theorem walkLinks_append {first : Place} (h : walkLinks d links cur (first ++ rest) = some r) :
    ∃ left mid, walkLinks d links cur first = some mid ∧ walkLinks d left mid rest = some r := by
  induction links generalizing cur first with
  | zero =>
    rcases walkNames_append h with ⟨mid, hfirst, hrest⟩ | ⟨_, _, hnone⟩
    · exact ⟨0, mid, hfirst, hrest⟩
    · cases hnone
  | succ links ih =>
    rcases walkNames_append h with ⟨mid, hfirst, hrest⟩ | ⟨toward, hfirst, hrest⟩
    · exact ⟨links + 1, mid, hfirst, hrest⟩
    · obtain ⟨left, mid, htoward, hmid⟩ := ih hrest
      exact ⟨left, mid, hfirst.trans htoward, hmid⟩

/-- A walk goes on to a name that is no link. -/
theorem walkNames_snoc {name : Text} (hpass : ∀ target, d (r ++ [name]) ≠ some (.link target))
    (hf : ∀ toward, f toward = some r → f (toward ++ [name]) = some (r ++ [name]))
    (h : walkNames d f cur rest = some r) :
    walkNames d f cur (rest ++ [name]) = some (r ++ [name]) := by
  induction rest generalizing cur with
  | nil =>
    obtain rfl := Option.some.inj h
    exact walkNames_pass hpass
  | cons next rest ih =>
    rw [List.cons_append]
    by_cases hlink : ∃ target, d (cur ++ [next]) = some (.link target)
    · obtain ⟨target, htarget⟩ := hlink
      rw [walkNames_link htarget] at h ⊢
      rw [← List.append_assoc]
      exact hf _ h
    · have hnext : ∀ target, d (cur ++ [next]) ≠ some (.link target) :=
        fun target htarget => hlink ⟨target, htarget⟩
      rw [walkNames_pass hnext] at h ⊢
      exact ih h

theorem walkLinks_snoc {name : Text} (hpass : ∀ target, d (r ++ [name]) ≠ some (.link target))
    (h : walkLinks d links cur rest = some r) :
    walkLinks d links cur (rest ++ [name]) = some (r ++ [name]) := by
  induction links generalizing cur rest with
  | zero =>
    refine walkNames_snoc hpass ?_ h
    intro toward hnone
    cases hnone
  | succ links ih => exact walkNames_snoc hpass (fun _ htoward => ih htoward) h

end Walks

/-! ## Sites -/

/-- **A move**, on a disk where everything is in a directory.  The two directories are paths as
they are given; where they really are depends on the links.  How many links a walk follows before
it gives up is left open, and so is the system, since an enumeration tells directories apart on
Windows and `stat` elsewhere. -/
structure Site where
  os : Os
  src : Path
  dst : Path
  disk : LinkDisk
  /-- How many links a walk may follow. -/
  links : Nat
  closed : ∀ p name, disk (p ++ [name]) ≠ none → disk p = some .dir

/-- **The calls touch no more than what they are made for**, and tell only what is there.

`opendir` opens directories, and lists entries of the directory it has opened; it may miss
some.  `stat` tells of what its path leads to.  `mkdir_p` makes directories that are not there,
on the way to where its path leads.  `file_move_verified` copies a file: if its first path
leads to one, it writes its second path, or the place that this leads to, and deletes the first
path itself.  `rm_rf` deletes what is in the directory that its path names, and may follow the
links in there.

All else is open, for every call anew: whether it succeeds, and how much of what it may do it
has done then, even where it reports the opposite. -/
structure Confined (links : Nat) (calls : Calls LinkDisk) : Prop where
  opendir : ∀ d p listing, calls.opendir d p = some listing →
    ∃ top, realpath links d p.place = some top ∧ d top = some .dir ∧
      ∀ e ∈ listing.entries, e.dots = false →
        ∃ item, d (top ++ [e.name]) = some item ∧ item.Shows e.directory
  stat : ∀ d p directory, calls.stat d p = some directory →
    ∃ q item, realpath links d p.place = some q ∧ d q = some item ∧
      (directory = true ↔ item = .dir)
  mkdirP : ∀ d p q, (calls.mkdirP d p).1 q = d q ∨
    d q = none ∧ (calls.mkdirP d p).1 q = some .dir ∧
      ∃ r, realpath links d p.place = some r ∧ q <+: r
  fileMoveVerified : ∀ d p p' q, (calls.fileMoveVerified d p p').1 q = d q ∨
    (∃ r content, realpath links d p.place = some r ∧ d r = some (.file content)) ∧
      ((calls.fileMoveVerified d p p').1 q = none ∧ locate links d p.place = some q ∨
      ((calls.fileMoveVerified d p p').1 q = none ∨
        ∃ content, (calls.fileMoveVerified d p p').1 q = some (.file content)) ∧
        (locate links d p'.place = some q ∨ realpath links d p'.place = some q))
  rmRf : ∀ d p q, (calls.rmRf d p).1 q = d q ∨
    (calls.rmRf d p).1 q = none ∧ ∃ below, locate links d (p.place ++ below) = some q

namespace Site
variable (s : Site)

/-- The place is in one of the two directories, wherever these really are. -/
def Inside (q : Place) : Prop :=
  (∃ top, realpath s.links s.disk s.src.place = some top ∧ top <+: q) ∨
  ∃ top, realpath s.links s.disk s.dst.place = some top ∧ top <+: q

/-- There is a file at the end of a path into the source, before the move. -/
def HasFile (rel : Place) : Prop :=
  ∃ r content, realpath s.links s.disk (s.src.place ++ rel) = some r ∧
    s.disk r = some (.file content)

/-- Where a file is written that an entry is moved to, on some disk. -/
def Writes (d : LinkDisk) (rel q : Place) : Prop :=
  locate s.links d (s.dst.place ++ rel) = some q ∨ realpath s.links d (s.dst.place ++ rel) = some q

/-- The paths of an entry of the source lead to the place: what is deleted there, what a file of
the source is moved to, and what a removal can get to. -/
def Leads (rel q : Place) : Prop :=
  locate s.links s.disk (s.src.place ++ rel) = some q ∨
  s.HasFile rel ∧ s.Writes s.disk rel q ∨
  sourceOpens s.os (s.src.below s.os rel) ∧
    ∃ below, locate s.links s.disk (s.src.place ++ rel ++ below) = some q

/-- **No link leads out**: where the paths of an entry of the source lead to a file, it is in one
of the two directories.  The entries are those whose paths fit the buffers, and only the ones that
are there matter: a path to nothing leads nowhere, what is written at the destination is asked of
an entry that leads to a file, and what is removed of one that leads to a directory. -/
def Sealed : Prop :=
  ∀ rel q content, rel ≠ [] → Reached s.os s.src s.dst rel → s.Leads rel q →
    s.disk q = some (.file content) → s.Inside q

/-- The disk has no link that the site has not. -/
def Fewer (d : LinkDisk) : Prop := ∀ q target, d q = some (.link target) →
  s.disk q = some (.link target)

/-- **The files that a move can meet**, by the names that lead to them: those of the source, and
those that it has put somewhere itself, where they are seen from the source through links. -/
inductive Met : Place → Prop
  | there {rel : Place} : s.HasFile rel → Met rel
  | back {rel first q : Place} (d d' : LinkDisk) : Met first → first ≠ [] →
    Reached s.os s.src s.dst first → s.Fewer d → s.Writes d first q →
    s.Fewer d' → realpath s.links d' (s.src.place ++ rel) = some q → Met rel

/-- **A file leads out that the move has put into the reach of the source itself.**  Its path at
the destination leads to a file outside already before the move, which does no harm as long as
nothing of that name is in the source.  It takes links between the two trees for a file of that
name to get there, and for the same links the destination has to have some
(`not_returns_of_unlinked`). -/
def Returns : Prop :=
  ∃ rel q content, rel ≠ [] ∧ Reached s.os s.src s.dst rel ∧ s.Met rel ∧ ¬s.HasFile rel ∧
    s.Writes s.disk rel q ∧ s.disk q = some (.file content) ∧ ¬s.Inside q

/-- There is no link in the destination, as in the empty or missing directory that
`_cmd_cache_move` asks for. -/
def Unlinked : Prop :=
  ∀ top below target, realpath s.links s.disk s.dst.place = some top →
    s.disk (top ++ below) ≠ some (.link target)

/-- **The move touches only its two trees**, whatever its calls do.  A file outside, by the place
where it really is, is there at the end with its content.  Nothing is said about directories that
are made or removed outside, nor about links, which are not files. -/
def Frame : Prop :=
  ∀ calls uninitialised report q content, Confined s.links calls →
    s.disk q = some (.file content) → ¬s.Inside q →
      (cliCacheMoveTree s.os calls uninitialised s.src s.dst s.disk report).fs q =
        some (.file content)

/-! ## Sealed sites -/

/-- The move has put a file there. -/
def Put (q : Place) : Prop :=
  ∃ first d, s.Met first ∧ first ≠ [] ∧ Reached s.os s.src s.dst first ∧ s.Fewer d ∧
    s.Writes d first q

/-- What a disk keeps of the site in the course of a move: no link is new, no file outside has
changed, and a file that was not there has been put there by the move. -/
structure Kept (d : LinkDisk) : Prop where
  links : s.Fewer d
  files : ∀ q content, s.disk q = some (.file content) → ¬s.Inside q → d q = some (.file content)
  put : ∀ q content, d q = some (.file content) →
    (∃ old, s.disk q = some (.file old)) ∨ s.Put q

variable {s} {d : LinkDisk} {p q r rest : Place} {content : List UInt8}

/-- At a link and below it there is no file. -/
theorem not_file_of_link {target : Place} (hlink : s.disk p = some (.link target)) (hp : p <+: q) :
    s.disk q ≠ some (.file content) := by
  intro hfile
  obtain ⟨rel, rfl⟩ := hp
  by_cases hrel : rel = []
  · subst hrel
    rw [List.append_nil, hlink] at hfile
    cases hfile
  · have hdir : s.disk p = some .dir := PathTree.dir_of_below s.closed hrel (by simp [hfile])
    rw [hlink] at hdir
    cases hdir

/-- **A walk leads where it led before, or to where a link has been.**  By induction on the names:
as long as the two disks agree on the next name the walks go on together.  Where the old disk has
a link and the new one has none, the walk on the new disk passes over the place; there has been
nothing below a link, and no link is new, so from there on it goes along the names. -/
theorem walkNames_kept (hd : s.Kept d) {f g : Place → Option Place}
    (hfg : ∀ toward, f toward = some r →
      g toward = some r ∨ ∃ p target, s.disk p = some (.link target) ∧ p <+: r)
    {cur : Place} (h : walkNames d f cur rest = some r) :
    walkNames s.disk g cur rest = some r ∨
      ∃ p target, s.disk p = some (.link target) ∧ p <+: r := by
  induction rest generalizing cur with
  | nil => exact .inl h
  | cons name rest ih =>
    by_cases hlink : ∃ target, d (cur ++ [name]) = some (.link target)
    · obtain ⟨target, htarget⟩ := hlink
      rw [walkNames_link htarget] at h
      rw [walkNames_link (hd.links _ _ htarget)]
      exact hfg _ h
    · rw [walkNames_pass fun target htarget => hlink ⟨target, htarget⟩] at h
      by_cases hwas : ∃ target, s.disk (cur ++ [name]) = some (.link target)
      · -- The link is gone, and there is nothing of the old disk below it.
        obtain ⟨target, htarget⟩ := hwas
        rw [walkNames_eq_append] at h
        · exact .inr ⟨_, target, htarget, ⟨rest, Option.some.inj h⟩⟩
        · intro rel target' hrel hnew
          have hthere : s.disk (cur ++ [name] ++ rel) ≠ none := by
            rw [hd.links _ _ hnew]
            exact Option.some_ne_none _
          have hdir := PathTree.dir_of_below s.closed hrel hthere
          rw [htarget] at hdir
          cases hdir
      · rw [walkNames_pass fun target htarget => hwas ⟨target, htarget⟩]
        exact ih h

theorem walkLinks_kept (hd : s.Kept d) {links : Nat} {cur : Place}
    (h : walkLinks d links cur rest = some r) :
    walkLinks s.disk links cur rest = some r ∨
      ∃ p target, s.disk p = some (.link target) ∧ p <+: r := by
  induction links generalizing cur rest with
  | zero =>
    refine walkNames_kept (f := fun _ => none) hd ?_ h
    intro toward hnone
    cases hnone
  | succ links ih => exact walkNames_kept hd (fun _ htoward => ih htoward) h

/-- A path that leads to a file of the old disk has led there before. -/
theorem realpath_of_kept (hd : s.Kept d) (hfile : s.disk q = some (.file content))
    (h : realpath s.links d p = some q) : realpath s.links s.disk p = some q := by
  rcases walkLinks_kept hd h with hsame | ⟨_, _, hlink, hbelow⟩
  · exact hsame
  · exact absurd hfile (not_file_of_link hlink hbelow)

theorem locate_of_kept (hd : s.Kept d) (hfile : s.disk q = some (.file content))
    (h : locate s.links d p = some q) : locate s.links s.disk p = some q := by
  rcases List.eq_nil_or_concat p with rfl | ⟨parent, name, rfl⟩
  · exact h
  · rw [List.concat_eq_append, locate_snoc] at h ⊢
    obtain ⟨top, htop, rfl⟩ := Option.map_eq_some_iff.mp h
    rcases walkLinks_kept hd htop with hsame | ⟨_, _, hlink, hbelow⟩
    · exact Option.map_eq_some_iff.mpr ⟨top, hsame, rfl⟩
    · exact absurd hfile (not_file_of_link hlink (hbelow.trans (List.prefix_append _ _)))

theorem kept_disk (s : Site) : s.Kept s.disk :=
  ⟨fun _ _ h => h, fun _ _ h _ => h, fun _ content h => .inl ⟨content, h⟩⟩

/-- A file that the move meets on its way is one of those that it can meet. -/
theorem met_of_kept {rel : Place} (hd : s.Kept d)
    (hreal : realpath s.links d (s.src.place ++ rel) = some r)
    (hfile : d r = some (.file content)) : s.Met rel := by
  rcases hd.put r content hfile with ⟨old, hold⟩ | ⟨first, d', hmet, hne, hreached, hfewer, hwrites⟩
  · exact .there ⟨r, old, realpath_of_kept hd hold hreal, hold⟩
  · exact .back d' d hmet hne hreached hfewer hwrites hd.links hreal

theorem writes_of_kept {rel : Place} (hd : s.Kept d) (hfile : s.disk q = some (.file content))
    (h : s.Writes d rel q) : s.Writes s.disk rel q :=
  h.imp (locate_of_kept hd hfile) (realpath_of_kept hd hfile)

/-- Where only some places change, no link is put there, and a file only where the move may put
one, the site is kept if no file outside is at one of them. -/
theorem Kept.of_changes {d' : LinkDisk} (hd : s.Kept d) (Touched : Place → Prop)
    (hchange : ∀ q, d' q = d q ∨ (∀ target, d' q ≠ some (.link target)) ∧ Touched q)
    (hput : ∀ q content, d' q = some (.file content) → d' q = d q ∨ s.Put q)
    (htouched : ∀ q content, Touched q → s.disk q = some (.file content) →
      d q = some (.file content) → s.Inside q) : s.Kept d' where
  links q target hlink := by
    rcases hchange q with hsame | ⟨hnolink, -⟩
    · exact hd.links q target (hsame.symm.trans hlink)
    · exact absurd hlink (hnolink target)
  files q content hfile houtside := by
    have hold := hd.files q content hfile houtside
    rcases hchange q with hsame | ⟨-, hq⟩
    · exact hsame.trans hold
    · exact absurd (htouched q content hq hfile hold) houtside
  put q content hfile := by
    rcases hput q content hfile with hsame | hq
    · exact hd.put q content (hsame.symm.trans hfile)
    · exact .inr hq

section Calls
variable {calls : Calls LinkDisk} {rel : Place}

theorem mkdirP_kept (hcalls : Confined s.links calls) (hd : s.Kept d) (path : Path) :
    s.Kept (calls.mkdirP d path).1 := by
  refine hd.of_changes (fun q => d q = none) (fun q => ?_) (fun q content hfile => ?_) ?_
  · rcases hcalls.mkdirP d path q with hsame | ⟨hnone, hdir, -⟩
    · exact .inl hsame
    · exact .inr ⟨fun target => by simp [hdir], hnone⟩
  · rcases hcalls.mkdirP d path q with hsame | ⟨-, hdir, -⟩
    · exact .inl hsame
    · rw [hdir] at hfile
      cases hfile
  · intro q content hnone _ hfile
    rw [hnone] at hfile
    cases hfile

theorem fileMoveVerified_kept (hsealed : s.Sealed) (hreturns : ¬s.Returns)
    (hcalls : Confined s.links calls) (hrel : rel ≠ []) (hreached : Reached s.os s.src s.dst rel)
    (hd : s.Kept d) :
    s.Kept (calls.fileMoveVerified d (s.src.below s.os rel) (s.dst.below s.os rel)).1 := by
  have hchange := hcalls.fileMoveVerified d (s.src.below s.os rel) (s.dst.below s.os rel)
  simp only [below_place] at hchange
  refine hd.of_changes (fun q => locate s.links d (s.src.place ++ rel) = some q ∨
    s.Met rel ∧ s.Writes d rel q) (fun q => ?_) (fun q content hfile => ?_) ?_
  · rcases hchange q with hsame | ⟨⟨r, old, hreal, hr⟩, ⟨hnone, hsrc⟩ | ⟨hnew, hdst⟩⟩
    · exact .inl hsame
    · exact .inr ⟨fun target => by simp [hnone], .inl hsrc⟩
    · refine .inr ⟨fun target => ?_, .inr ⟨met_of_kept hd hreal hr, hdst⟩⟩
      rcases hnew with hnone | ⟨content, hfile⟩
      · simp [hnone]
      · simp [hfile]
  · rcases hchange q with hsame | ⟨⟨r, old, hreal, hr⟩, ⟨hnone, -⟩ | ⟨-, hdst⟩⟩
    · exact .inl hsame
    · rw [hnone] at hfile
      cases hfile
    · exact .inr ⟨rel, d, met_of_kept hd hreal hr, hrel, hreached, hd.links, hdst⟩
  · intro q content htouched hfile _
    rcases htouched with hsrc | ⟨hmet, hdst⟩
    · exact hsealed rel q content hrel hreached (.inl (locate_of_kept hd hfile hsrc)) hfile
    · have hwrites := writes_of_kept hd hfile hdst
      by_cases hthere : s.HasFile rel
      · exact hsealed rel q content hrel hreached (.inr (.inl ⟨hthere, hwrites⟩)) hfile
      · by_contra houtside
        exact hreturns ⟨rel, q, content, hrel, hreached, hmet, hthere, hwrites, hfile, houtside⟩

theorem rmRf_kept (hsealed : s.Sealed) (hcalls : Confined s.links calls) (hrel : rel ≠ [])
    (hreached : Reached s.os s.src s.dst rel) (hopens : sourceOpens s.os (s.src.below s.os rel))
    (hd : s.Kept d) : s.Kept (calls.rmRf d (s.src.below s.os rel)).1 := by
  have hchange := hcalls.rmRf d (s.src.below s.os rel)
  simp only [below_place] at hchange
  refine hd.of_changes
    (fun q => ∃ below, locate s.links d (s.src.place ++ rel ++ below) = some q) (fun q => ?_)
    (fun q content hfile => ?_) ?_
  · rcases hchange q with hsame | ⟨hnone, hbelow⟩
    · exact .inl hsame
    · exact .inr ⟨fun target => by simp [hnone], hbelow⟩
  · rcases hchange q with hsame | ⟨hnone, -⟩
    · exact .inl hsame
    · rw [hnone] at hfile
      cases hfile
  · intro q content htouched hfile _
    obtain ⟨below, hbelow⟩ := htouched
    exact hsealed rel q content hrel hreached
      (.inr (.inr ⟨hopens, below, locate_of_kept hd hfile hbelow⟩)) hfile

/-- **On a sealed site a move keeps every file outside**, if none returns.  The three calls that
change the disk are taken one by one.  Each touches places that are named by paths of an entry on
the disk as it is then; if there is a file of the old disk at such a place, the same path led to
it from the start, and so it is inside. -/
theorem keeps_of_sealed (hsealed : s.Sealed) (hreturns : ¬s.Returns)
    (hcalls : Confined s.links calls) : Keeps s.os calls s.src s.dst s.Kept where
  mkdirP _ rel hd := mkdirP_kept hcalls hd (s.dst.below s.os rel)
  fileMoveVerified _ _ hrel hreached hd :=
    fileMoveVerified_kept hsealed hreturns hcalls hrel hreached hd
  rmRf _ _ hrel hreached hopens hd := rmRf_kept hsealed hcalls hrel hreached hopens hd

end Calls

/-! ## The way to a place -/

/-- A walk that ends at something passes only through what is there. -/
theorem exists_of_walkLinks {left : Nat} {cur : Place} {name : Text}
    (h : walkLinks s.disk left cur (name :: rest) = some r) (hr : s.disk r ≠ none) :
    s.disk (cur ++ [name]) ≠ none := by
  intro hnone
  have hempty : ∀ rel target, s.disk (cur ++ [name] ++ rel) ≠ some (.link target) := by
    intro rel target hlink
    by_cases hrel : rel = []
    · rw [hrel, List.append_nil, hnone] at hlink
      cases hlink
    · have hdir := PathTree.dir_of_below s.closed hrel (by rw [hlink]; exact Option.some_ne_none _)
      rw [hnone] at hdir
      cases hdir
  have hpass : walkLinks s.disk left cur (name :: rest) = some (cur ++ [name] ++ rest) := by
    have hname := hempty []
    rw [List.append_nil] at hname
    rw [walkLinks_pass hname]
    exact walkLinks_eq_append fun rel target _ => hempty rel target
  obtain rfl := Option.some.inj (hpass.symm.trans h)
  by_cases hrest : rest = []
  · rw [hrest, List.append_nil] at hr
    exact hr hnone
  · have hdir := PathTree.dir_of_below s.closed hrest hr
    rw [hnone] at hdir
    cases hdir

/-- Where a path leads to something, each part of it leads to a directory with the next name. -/
theorem enters_of_realpath {name : Text}
    (h : realpath s.links s.disk (p ++ name :: rest) = some r) (hr : s.disk r ≠ none) :
    ∃ top, realpath s.links s.disk p = some top ∧ s.disk top = some .dir ∧
      s.disk (top ++ [name]) ≠ none := by
  obtain ⟨left, top, htop, hrest⟩ := walkLinks_append h
  have hname := exists_of_walkLinks hrest hr
  exact ⟨top, htop, s.closed top name hname, hname⟩

/-- The last name is a link, or what the path leads to. -/
theorem last_of_realpath {name : Text} {top : Place}
    (h : realpath s.links s.disk (p ++ [name]) = some r)
    (htop : realpath s.links s.disk p = some top) :
    (∃ target, s.disk (top ++ [name]) = some (.link target)) ∨ r = top ++ [name] := by
  obtain ⟨left, mid, hmid, hlast⟩ := walkLinks_append h
  obtain rfl := Option.some.inj (hmid.symm.trans htop)
  by_cases hlink : ∃ target, s.disk (mid ++ [name]) = some (.link target)
  · exact .inl hlink
  · have hpass : ∀ target, s.disk (mid ++ [name]) ≠ some (.link target) :=
      fun target htarget => hlink ⟨target, htarget⟩
    rw [walkLinks_pass hpass] at hlast
    exact .inr (Option.some.inj (hlast.symm.trans walkLinks_nil))

/-- Where a file is, there the path to it leads. -/
theorem realpath_of_locate (h : locate s.links s.disk p = some q)
    (hfile : s.disk q = some (.file content)) : realpath s.links s.disk p = some q := by
  rcases List.eq_nil_or_concat p with rfl | ⟨parent, name, rfl⟩
  · exact walkLinks_nil.trans h
  · rw [List.concat_eq_append, locate_snoc] at h
    obtain ⟨top, htop, rfl⟩ := Option.map_eq_some_iff.mp h
    rw [List.concat_eq_append]
    exact walkLinks_snoc (fun target htarget => by simp [hfile] at htarget) htop

/-! ## Sites that are not sealed -/

/-- What is told of an item, where a link is wanted to be one or the other. -/
def shown (wanted : Bool) : Item → Bool
  | .file _ => false
  | .dir => true
  | .link _ => wanted

/-- Calls that take a move along the names of `rel`, and delete `q` at its end.  Of a directory
they list one name only, the next one; they make nothing on the way and remove nothing, until
the move has come to the end of the names. -/
def guide (s : Site) (rel : Place) (directory : Bool) (below q : Place) : Calls LinkDisk where
  opendir d p :=
    let depth := p.place.length - s.src.place.length
    match realpath s.links d p.place with
    | some top =>
      if d top = some .dir then
        some ⟨(rel[depth]?).toList.filterMap fun name => (d (top ++ [name])).map fun item =>
          ⟨name, shown (depth + 1 < rel.length || directory) item⟩, true⟩
      else none
    | none => none
  stat d p := ((realpath s.links d p.place).bind d).map fun item => item = .dir
  mkdirP d _ := (d, true)
  fileMoveVerified d p p' :=
    (fun r =>
      if ((realpath s.links d p.place).bind d).any Item.isFile ∧ r = q ∧
          (locate s.links d p.place = some q ∨ locate s.links d p'.place = some q ∨
            realpath s.links d p'.place = some q) then none
      else d r, true)
  rmRf d p :=
    (fun r => if r = q ∧ locate s.links d (p.place ++ below) = some q then none else d r, true)

section Guide
variable {rel below : Place} {directory : Bool}

theorem shows_shown (wanted : Bool) (item : Item) : item.Shows (shown wanted item) := by
  cases item <;> simp [Item.Shows, shown]

theorem shown_eq {wanted : Bool} {item : Item} (h : wanted = true ↔ item = .dir) :
    shown wanted item = wanted := by
  cases item <;> cases wanted <;> simp_all [shown]

theorem guide_confined : Confined s.links (s.guide rel directory below q) where
  opendir d p listing hopen := by
    simp only [guide] at hopen
    cases htop : realpath s.links d p.place with
    | none => simp [htop] at hopen
    | some top =>
      simp only [htop] at hopen
      split_ifs at hopen with hdir
      refine ⟨top, rfl, hdir, fun e he _ => ?_⟩
      obtain rfl := Option.some.inj hopen
      obtain ⟨name, -, hname⟩ := List.mem_filterMap.mp he
      obtain ⟨item, hitem, rfl⟩ := Option.map_eq_some_iff.mp hname
      exact ⟨item, hitem, shows_shown _ item⟩
  stat d p directory hstat := by
    simp only [guide] at hstat
    obtain ⟨item, hbind, rfl⟩ := Option.map_eq_some_iff.mp hstat
    obtain ⟨r, hr, hitem⟩ := Option.bind_eq_some_iff.mp hbind
    exact ⟨r, item, hr, hitem, decide_eq_true_iff⟩
  mkdirP _ _ _ := .inl rfl
  fileMoveVerified d p p' r := by
    dsimp only [guide]
    split_ifs with hq
    · obtain ⟨hfile, rfl, hplace⟩ := hq
      refine .inr ⟨?_, ?_⟩
      · obtain ⟨item, hbind, hitem⟩ := (Option.any_eq_true _ _).mp hfile
        obtain ⟨place, hreal, hplace⟩ := Option.bind_eq_some_iff.mp hbind
        cases item with
        | file content => exact ⟨place, content, hreal, hplace⟩
        | dir => cases hitem
        | link => cases hitem
      · rcases hplace with hsrc | hdst
        · exact .inl ⟨rfl, hsrc⟩
        · exact .inr ⟨.inl rfl, hdst⟩
    · exact .inl rfl
  rmRf d p r := by
    dsimp only [guide]
    split_ifs with hq
    · obtain ⟨rfl, hbelow⟩ := hq
      exact .inr ⟨rfl, below, hbelow⟩
    · exact .inl rfl

variable {pre rest : Place} {name : Text} {item : Item}

/-- **The guide takes the move on**, where the names lead to something: it lists the next name,
and says that it is a directory unless it is the last one, and no directory. -/
theorem guide_step (below q : Place) (hrel : rel = pre ++ name :: rest)
    (hopens : sourceOpens s.os (s.src.below s.os pre))
    (hreal : realpath s.links s.disk (s.src.place ++ rel) = some r) (hitem : s.disk r = some item)
    (hdirectory : directory = true ↔ item = .dir) :
    openSource s.os (s.guide rel directory below q) s.disk (s.src.below s.os pre) =
      some ⟨[⟨name, !rest.isEmpty || directory⟩], true⟩ ∧
    kind s.os (s.guide rel directory below q) s.disk ((s.src.below s.os pre).child s.os name)
      ⟨name, !rest.isEmpty || directory⟩ = some (!rest.isEmpty || directory) := by
  have hthere : s.disk r ≠ none := by simp [hitem]
  have hpath : s.src.place ++ rel = s.src.place ++ pre ++ name :: rest := by simp [hrel]
  rw [hpath] at hreal
  obtain ⟨top, htop, hdir, hname⟩ := enters_of_realpath hreal hthere
  obtain ⟨named, hnamed⟩ := Option.ne_none_iff_exists'.mp hname
  -- What the path to the next name leads to.
  obtain ⟨mid, reached, hmid, hreached, htells⟩ : ∃ mid reached,
      realpath s.links s.disk (s.src.place ++ pre ++ [name]) = some mid ∧
      s.disk mid = some reached ∧ ((!rest.isEmpty || directory) = true ↔ reached = .dir) := by
    cases rest with
    | nil => exact ⟨r, item, hreal, hitem, by simpa using hdirectory⟩
    | cons next rest =>
      have hnext : s.src.place ++ pre ++ name :: next :: rest =
          s.src.place ++ pre ++ [name] ++ next :: rest := by simp
      rw [hnext] at hreal
      obtain ⟨mid, hmid, hmiddir, -⟩ := enters_of_realpath hreal hthere
      exact ⟨mid, .dir, hmid, hmiddir, by simp⟩
  have hshown : shown (!rest.isEmpty || directory) named = (!rest.isEmpty || directory) := by
    rcases last_of_realpath hmid htop with ⟨target, hlink⟩ | rfl
    · obtain rfl := Option.some.inj (hnamed.symm.trans hlink)
      rfl
    · obtain rfl := Option.some.inj (hnamed.symm.trans hreached)
      exact shown_eq htells
  have hlong : (decide (pre.length + 1 < rel.length) : Bool) = !rest.isEmpty := by
    subst hrel
    rcases rest with _ | _ <;> simp
  have hnth : rel[pre.length]? = some name := by simp [hrel]
  constructor
  · rw [openSource, if_neg hopens]
    simp only [guide, below_place, htop, hdir, if_true, List.length_append, Nat.add_sub_cancel_left,
      hnth, hlong]
    simp [hnamed, hshown]
  · rw [← below_snoc]
    unfold kind
    split
    · rfl
    · simp only [guide, below_place]
      rw [← List.append_assoc, hmid, Option.bind_some, hreached, Option.map_some]
      exact congrArg some (Bool.eq_iff_iff.mpr (decide_eq_true_iff.trans htells.symm))

/-- **The guided move gets to the end of the names**, and deletes what it is sent for: the place
of the file that it moves or is moved to, or one below the directory that it removes. -/
theorem guide_deletes (hreached : Reached s.os s.src s.dst rel)
    (hreal : realpath s.links s.disk (s.src.place ++ rel) = some r) (hitem : s.disk r = some item)
    (hdirectory : directory = true ↔ item = .dir)
    (hfile : directory = false → item.isFile = true ∧
      (locate s.links s.disk (s.src.place ++ rel) = some q ∨ s.Writes s.disk rel q))
    (hremove : directory = true → sourceOpens s.os (s.src.below s.os rel) ∧
      locate s.links s.disk (s.src.place ++ rel ++ below) = some q)
    (hrel : rel = pre ++ name :: rest) (uninitialised : Text) {levels : Nat}
    (hlevels : rest.length + 1 < levels) (report : Buffer) :
    (moveTree s.os (s.guide rel directory below q) uninitialised levels (s.src.below s.os pre)
      (s.dst.below s.os pre) s.disk report).fs q = none := by
  induction rest generalizing pre name levels report with
  | nil =>
    obtain ⟨levels, rfl⟩ : ∃ n, levels = n + 2 := ⟨levels - 2, by simp at hlevels; omega⟩
    have hparent := (hrel ▸ hreached).parent
    obtain ⟨-, hopens, hdots, hsrc, hdst⟩ := hparent
    obtain ⟨hlist, hkind⟩ := guide_step below q hrel hopens hreal hitem hdirectory
    rw [below_snoc] at hsrc hdst
    rw [moveTree_single hlist]
    have hsrcPlace : ((s.src.below s.os pre).child s.os name).place = s.src.place ++ rel := by
      rw [← below_snoc, below_place, hrel]
    have hdstPlace : ((s.dst.below s.os pre).child s.os name).place = s.dst.place ++ rel := by
      rw [← below_snoc, below_place, hrel]
    rcases directory with _ | _
    · obtain ⟨hisFile, hplace⟩ := hfile rfl
      rw [moveEntry_file (hdots _) hsrc hdst hkind]
      simp only [guide, hsrcPlace, hdstPlace, hreal, Option.bind_some, hitem, Option.any_some]
      exact if_pos ⟨hisFile, trivial, hplace⟩
    · obtain ⟨hopens', hlocate⟩ := hremove rfl
      rw [moveEntry_directory (hdots _) hsrc hdst hkind rfl]
      have hempty : openSource s.os (s.guide rel true below q) s.disk
          ((s.src.below s.os pre).child s.os name) = some ⟨[], true⟩ := by
        rw [← below_snoc, ← hrel, openSource, if_neg hopens']
        simp [guide, hreal, hitem, hdirectory.mp rfl]
      rw [moveTree_empty hempty, if_pos rfl]
      simp only [guide, hsrcPlace]
      exact if_pos ⟨trivial, hlocate⟩
  | cons next rest ih =>
    obtain ⟨levels, rfl⟩ : ∃ n, levels = n + 1 := ⟨levels - 1, by omega⟩
    have hnext : rel = pre ++ [name] ++ next :: rest := by rw [hrel]; simp
    have hparent := (Reached.of_append (hnext ▸ hreached)).parent
    obtain ⟨-, hopens, hdots, hsrc, hdst⟩ := hparent
    obtain ⟨hlist, hkind⟩ := guide_step below q hrel hopens hreal hitem hdirectory
    rw [below_snoc] at hsrc hdst
    rw [moveTree_single hlist]
    rw [moveEntry_directory (hdots _) hsrc hdst hkind rfl]
    have hgone := ih hnext (Nat.lt_of_succ_lt_succ hlevels) report
    rw [below_snoc, below_snoc] at hgone
    split
    · simp only [guide] at hgone ⊢
      split
      · rfl
      · exact hgone
    · exact hgone

end Guide

theorem length_lt_of_reached {rel : Place} (hrel : rel ≠ [])
    (h : Reached s.os s.src s.dst rel) : rel.length < bufferSize := by
  obtain ⟨rel, name, rfl⟩ := List.eq_nil_or_concat rel |>.resolve_left hrel
  rw [List.concat_eq_append] at h ⊢
  have hfits : (s.src.below s.os (rel ++ [name])).text.length < bufferSize :=
    of_decide_eq_true h.parent.2.2.2.1
  exact Nat.lt_of_le_of_lt (length_le_below s.src _) hfits

/-- Where the way to a place goes through a path, that leads to a directory. -/
theorem dir_of_locate {below : Place} (hbelow : below ≠ [])
    (h : locate s.links s.disk (p ++ below) = some q) (hfile : s.disk q = some (.file content)) :
    ∃ top, realpath s.links s.disk p = some top ∧ s.disk top = some .dir := by
  obtain ⟨name, rest, rfl⟩ := List.exists_cons_of_ne_nil hbelow
  have hreal := realpath_of_locate h hfile
  obtain ⟨top, htop, hdir, -⟩ := enters_of_realpath hreal (by simp [hfile])
  exact ⟨top, htop, hdir⟩

/-- What the paths of an entry lead to can be deleted by the calls of some move. -/
theorem deletes_of_leads {rel : Place} (hrel : rel ≠ []) (hreached : Reached s.os s.src s.dst rel)
    (hleads : s.Leads rel q) (hfile : s.disk q = some (.file content)) :
    ∃ calls, Confined s.links calls ∧
      (cliCacheMoveTree s.os calls [] s.src s.dst s.disk none).fs q = none := by
  obtain ⟨name, rest, hcons⟩ := List.exists_cons_of_ne_nil hrel
  have hlevels : rest.length + 1 < bufferSize := by
    have hlength := length_lt_of_reached hrel hreached
    rwa [hcons] at hlength
  have hpath : rel = [] ++ name :: rest := hcons
  -- Either the entry is moved as a file, or it is removed as a directory.
  obtain ⟨directory, below, r, item, hreal, hitem, hdirectory, hmoved, hremoved⟩ :
      ∃ directory below r item, realpath s.links s.disk (s.src.place ++ rel) = some r ∧
        s.disk r = some item ∧ (directory = true ↔ item = .dir) ∧
        (directory = false → item.isFile = true ∧
          (locate s.links s.disk (s.src.place ++ rel) = some q ∨ s.Writes s.disk rel q)) ∧
        (directory = true → sourceOpens s.os (s.src.below s.os rel) ∧
          locate s.links s.disk (s.src.place ++ rel ++ below) = some q) := by
    rcases hleads with hsrc | ⟨⟨r, old, hreal, hold⟩, hwrites⟩ | ⟨hopens, below, hbelow⟩
    · exact ⟨false, [], q, .file content, realpath_of_locate hsrc hfile, hfile, by simp,
        fun _ => ⟨rfl, .inl hsrc⟩, by simp⟩
    · exact ⟨false, [], r, .file old, hreal, hold, by simp, fun _ => ⟨rfl, .inr hwrites⟩, by simp⟩
    · by_cases hnil : below = []
      · rw [hnil, List.append_nil] at hbelow
        exact ⟨false, [], q, .file content, realpath_of_locate hbelow hfile, hfile, by simp,
          fun _ => ⟨rfl, .inl hbelow⟩, by simp⟩
      · obtain ⟨top, htop, hdir⟩ := dir_of_locate hnil hbelow hfile
        exact ⟨true, below, top, .dir, htop, hdir, by simp, by simp, fun _ => ⟨hopens, hbelow⟩⟩
  refine ⟨s.guide rel directory below q, guide_confined, ?_⟩
  exact guide_deletes hreached hreal hitem hdirectory hmoved hremoved hpath [] hlevels none

/-- A site where no file outside is ever touched is sealed. -/
theorem sealed_of_frame (h : s.Frame) : s.Sealed := by
  intro rel q content hrel hreached hleads hfile
  by_contra houtside
  obtain ⟨calls, hcalls, hdeleted⟩ := deletes_of_leads hrel hreached hleads hfile
  have hkept := h calls [] none q content hcalls hfile houtside
  rw [hdeleted] at hkept
  cases hkept

/-! ## Trees without links -/

/-- Below a directory without links a path leads to where its names say. -/
theorem below_of_realpath {place rel : Place}
    (hlinks : ∀ top below target, realpath s.links s.disk place = some top →
      s.disk (top ++ below) ≠ some (.link target))
    (h : realpath s.links s.disk (place ++ rel) = some q) :
    ∃ top, realpath s.links s.disk place = some top ∧ top <+: q := by
  obtain ⟨left, top, htop, hrel⟩ := walkLinks_append h
  rw [walkLinks_eq_append fun below target _ => hlinks top below target htop] at hrel
  exact ⟨top, htop, ⟨rel, Option.some.inj hrel⟩⟩

theorem below_of_locate {place rel : Place} (hrel : rel ≠ [])
    (hlinks : ∀ top below target, realpath s.links s.disk place = some top →
      s.disk (top ++ below) ≠ some (.link target))
    (h : locate s.links s.disk (place ++ rel) = some q) :
    ∃ top, realpath s.links s.disk place = some top ∧ top <+: q := by
  obtain ⟨rel, name, rfl⟩ := List.eq_nil_or_concat rel |>.resolve_left hrel
  rw [List.concat_eq_append, ← List.append_assoc, locate_snoc] at h
  obtain ⟨parent, hparent, rfl⟩ := Option.map_eq_some_iff.mp h
  obtain ⟨top, htop, hbelow⟩ := below_of_realpath hlinks hparent
  exact ⟨top, htop, hbelow.trans (List.prefix_append _ _)⟩

/-- Without links in the destination, what is moved there stays there, and nothing returns. -/
theorem inside_of_writes {rel : Place} (hrel : rel ≠ []) (hdst : s.Unlinked)
    (h : s.Writes s.disk rel q) : s.Inside q := by
  rcases h with hlocate | hreal
  · exact .inr (below_of_locate hrel hdst hlocate)
  · exact .inr (below_of_realpath hdst hreal)

theorem not_returns_of_unlinked (hdst : s.Unlinked) : ¬s.Returns := by
  rintro ⟨rel, q, content, hrel, -, -, -, hwrites, -, houtside⟩
  exact houtside (inside_of_writes hrel hdst hwrites)

/-- **Two trees without links** are sealed.  Every path below one of the directories then leads to
where its names say, which is in that directory.  Links elsewhere, also those on the way to the
two directories, make no difference. -/
theorem sealed_of_no_links (h : ∀ q target, s.Inside q → s.disk q ≠ some (.link target)) :
    s.Sealed := by
  have hsrc : ∀ top below target, realpath s.links s.disk s.src.place = some top →
      s.disk (top ++ below) ≠ some (.link target) :=
    fun top below target htop => h _ target (.inl ⟨top, htop, List.prefix_append _ _⟩)
  have hdst : s.Unlinked :=
    fun top below target htop => h _ target (.inr ⟨top, htop, List.prefix_append _ _⟩)
  intro rel q content hrel _ hleads _
  rcases hleads with hlocate | ⟨-, hwrites⟩ | ⟨-, below, hlocate⟩
  · exact .inl (below_of_locate hrel hsrc hlocate)
  · exact inside_of_writes hrel hdst hwrites
  · rw [List.append_assoc] at hlocate
    exact .inl (below_of_locate (by simp [hrel]) hsrc hlocate)

/-- **A move touches only its two trees just if no link leads out of them.**  That no path leads
to a file outside before the move is needed on every site, and it is enough where no file of
the move's own returns; none does if there is no link in the destination. -/
theorem touches_only_its_trees_iff (s : Site) :
    (s.Frame → s.Sealed) ∧ (s.Sealed ∧ ¬s.Returns → s.Frame) ∧
      (s.Unlinked → (s.Frame ↔ s.Sealed)) := by
  have henough : s.Sealed ∧ ¬s.Returns → s.Frame := by
    rintro ⟨hsealed, hreturns⟩ calls uninitialised report q content hcalls hfile houtside
    have hkeeps := keeps_of_sealed hsealed hreturns hcalls
    have hkept := cliCacheMoveTree_keeps hkeeps uninitialised s.disk report (kept_disk s)
    exact hkept.files q content hfile houtside
  exact ⟨sealed_of_frame, henough, fun hdst =>
    ⟨sealed_of_frame, fun hsealed => henough ⟨hsealed, not_returns_of_unlinked hdst⟩⟩⟩

end Site

/-! ## A link that leads out -/

/-- The calls on a disk with links where none of them meets an error, for directories that
have some of these names. -/
def linkCalls (links : Nat) (names : List Text) : Calls LinkDisk where
  opendir d p :=
    match realpath links d p.place with
    | some q =>
      if d q = some .dir then
        some ⟨(names.filter fun name => d (q ++ [name]) ≠ none).map fun name =>
          ⟨name, d (q ++ [name]) = some .dir⟩, true⟩
      else none
    | none => none
  stat d p := ((realpath links d p.place).bind d).map fun item => item = .dir
  mkdirP d p :=
    match realpath links d p.place with
    | some q =>
      if q.inits.all fun r => d r = none ∨ d r = some .dir then
        (fun r => if r <+: q ∧ d r = none then some .dir else d r, true)
      else (d, false)
    | none => (d, false)
  fileMoveVerified d p p' :=
    match (realpath links d p.place).bind d, realpath links d p'.place with
    | some (.file content), some q =>
      if d q = some .dir then (d, false)
      else
        (fun r => if locate links d p.place = some r then none
          else if r = q then some (.file content) else d r, true)
    | _, _ => (d, false)
  rmRf d p :=
    match locate links d p.place with
    | some top =>
      -- Nothing that is behind a link.
      (fun r => if top <+: r ∧ locate links d (p.place ++ r.drop top.length) = some r then none
        else d r, true)
    | none => (d, true)

theorem linkCalls_confined (links : Nat) (names : List Text) :
    Confined links (linkCalls links names) where
  opendir d p listing hopen := by
    simp only [linkCalls] at hopen
    cases hq : realpath links d p.place with
    | none => simp [hq] at hopen
    | some q =>
      simp only [hq] at hopen
      split_ifs at hopen with hdir
      refine ⟨q, rfl, hdir, fun e he _ => ?_⟩
      obtain rfl := Option.some.inj hopen
      obtain ⟨name, hname, rfl⟩ := List.mem_map.mp he
      have hthere : d (q ++ [name]) ≠ none := of_decide_eq_true (List.mem_filter.mp hname).2
      obtain ⟨item, hitem⟩ := Option.ne_none_iff_exists'.mp hthere
      refine ⟨item, hitem, ?_⟩
      cases item <;> simp [Item.Shows, hitem]
  stat d p directory hstat := by
    simp only [linkCalls] at hstat
    obtain ⟨item, hbind, rfl⟩ := Option.map_eq_some_iff.mp hstat
    obtain ⟨r, hr, hitem⟩ := Option.bind_eq_some_iff.mp hbind
    exact ⟨r, item, hr, hitem, decide_eq_true_iff⟩
  mkdirP d p r := by
    simp only [linkCalls]
    split
    · split
      · dsimp only
        split
        · rename_i q hq _ hr
          exact .inr ⟨hr.2, rfl, q, hq, hr.1⟩
        · exact .inl rfl
      · exact .inl rfl
    · exact .inl rfl
  fileMoveVerified d p p' r := by
    simp only [linkCalls]
    split
    · rename_i content q hbind hq
      obtain ⟨place, hplace, hfile⟩ := Option.bind_eq_some_iff.mp hbind
      split
      · exact .inl rfl
      · dsimp only
        split
        · exact .inr ⟨⟨place, content, hplace, hfile⟩, .inl ⟨rfl, ‹_›⟩⟩
        · split
          · rename_i hr
            subst hr
            exact .inr ⟨⟨place, content, hplace, hfile⟩, .inr ⟨.inr ⟨content, rfl⟩, .inr hq⟩⟩
          · exact .inl rfl
    · exact .inl rfl
  rmRf d p r := by
    simp only [linkCalls]
    split
    · dsimp only
      split
      · rename_i hr
        exact .inr ⟨rfl, _, hr.2⟩
      · exact .inl rfl
    · exact .inl rfl

/-- The source `/s` has a link `l` to the directory `/o`, where there is a file `f`. -/
def strayDisk : LinkDisk := fun p =>
  if p = [] ∨ p = [lit "s"] ∨ p = [lit "o"] then some .dir
  else if p = [lit "s", lit "l"] then some (.link [lit "o"])
  else if p = [lit "o", lit "f"] then some (.file [7])
  else none

theorem strayDisk_closed (p : Place) (name : Text) (h : strayDisk (p ++ [name]) ≠ none) :
    strayDisk p = some .dir := by
  have htop : p = [] ∨ p = [lit "s"] ∨ p = [lit "o"] := by
    by_contra hp
    apply h
    rcases p with _ | ⟨first, _ | ⟨second, rest⟩⟩
    · simp at hp
    · simp only [List.cons.injEq, and_true, reduceCtorEq, false_or, not_or] at hp
      simp [strayDisk, hp.1, hp.2]
    · simp [strayDisk]
  rw [strayDisk, if_pos htop]

def strayLink : Site where
  os := .posix
  src := ⟨lit "/s", [lit "s"]⟩
  dst := ⟨lit "/d", [lit "d"]⟩
  disk := strayDisk
  links := 40
  closed := strayDisk_closed

def strayMove : Moved LinkDisk :=
  cliCacheMoveTree strayLink.os (linkCalls 40 [lit "l", lit "f"]) [] strayLink.src strayLink.dst
    strayLink.disk none

/-- **A file outside is moved**, from the directory that the link leads to. -/
theorem linked_file_moved :
    Confined strayLink.links (linkCalls 40 [lit "l", lit "f"]) ∧
    strayLink.disk [lit "o", lit "f"] = some (.file [7]) ∧
    ¬strayLink.Inside [lit "o", lit "f"] ∧
    strayMove.ok = true ∧ strayMove.fs [lit "o", lit "f"] = none ∧
    strayMove.fs [lit "d", lit "l", lit "f"] = some (.file [7]) := by
  refine ⟨linkCalls_confined 40 _, by decide, ?_, by decide, by decide, by decide⟩
  have hsrc : realpath strayLink.links strayLink.disk strayLink.src.place = some [lit "s"] := by
    decide
  have hdst : realpath strayLink.links strayLink.disk strayLink.dst.place = some [lit "d"] := by
    decide
  rintro (⟨top, htop, hbelow⟩ | ⟨top, htop, hbelow⟩)
  · obtain rfl : [lit "s"] = top := Option.some.inj (hsrc.symm.trans htop)
    revert hbelow
    decide
  · obtain rfl : [lit "d"] = top := Option.some.inj (hdst.symm.trans htop)
    revert hbelow
    decide

end Offs.MoveTree
