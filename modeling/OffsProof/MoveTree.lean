import Mathlib.Data.List.Infix
import OffsProof.CText

/-! # Moving a tree

`cli_cache_move_tree` makes the destination directory and moves the entries of the source one by
one: a file with `file_move_verified`, a directory by making it at the destination, moving what
is in it and removing it.  The first failure ends the move at every level.

The calls are a parameter (`Calls`), over file systems of any kind.  A path is kept with its text,
which the buffers of 1024 bytes hold, and with the names that lead to it.  A directory is read
through its enumeration: the entries in the order they come, and whether it came to its end or
broke off with an error.

`moveTree` is followed for so many levels, and `cliCacheMoveTree` gives it one for each length of
a path that fits, which is more than any run needs (`MoveStack`).

What every call keeps that a move can make, a move keeps (`cliCacheMoveTree_keeps`).  The calls
in question are those for entries that the move can get to (`Reached`), so that a property of the
file system has to be checked at these paths only; the modules on links and on lost files are
uses of this rule, with a property for each.
-/
namespace Offs.MoveTree
open CText

inductive Os
  | posix
  | windows
  deriving DecidableEq, Repr

def Os.separator : Os → Char
  | .posix => '/'
  | .windows => '\\'

/-- The names from the root on. -/
abbrev Place := List Text

structure Path where
  text : Text
  place : Place
  deriving DecidableEq, Repr

/-- `snprintf(child, size, "%s/%s", parent, name)`, before it is cut. -/
def Path.child (os : Os) (p : Path) (name : Text) : Path :=
  ⟨p.text ++ os.separator :: name, p.place ++ [name]⟩

/-- The path to what lies `rel` below. -/
def Path.below (os : Os) (p : Path) (rel : Place) : Path := rel.foldl (Path.child os) p

/-- The size of `src_child`, `dst_child` and `pattern`. -/
def bufferSize : Nat := 1024

def Path.fits (p : Path) : Bool := p.text.length < bufferSize

structure Entry where
  name : Text
  /-- `FILE_ATTRIBUTE_DIRECTORY`, which only Windows gives with the name. -/
  directory : Bool
  deriving DecidableEq, Repr

def Entry.dots (e : Entry) : Bool := e.name = lit "." ∨ e.name = lit ".."

structure Listing where
  entries : List Entry
  /-- The enumeration has come to its end, and not to an error. -/
  complete : Bool
  deriving DecidableEq, Repr

/-- The calls, with the file system they leave. -/
structure Calls (σ : Type) where
  /-- `opendir` and `readdir`, or `FindFirstFileA` and `FindNextFileA` -/
  opendir : σ → Path → Option Listing
  /-- `stat`: whether it is a directory -/
  stat : σ → Path → Option Bool
  mkdirP : σ → Path → σ × Bool
  fileMoveVerified : σ → Path → Path → σ × Bool
  rmRf : σ → Path → σ × Bool

/-- `failed_path`, with `failed_len` and what is in it. -/
abbrev Buffer := Option (Nat × Text)

/-- `_report_failed_path` -/
def reportFailedPath (buffer : Buffer) (path : Text) : Buffer :=
  match buffer with
  | some (size, []) => some (size, if 0 < size then cut size path else [])
  | buffer => buffer

/-- What a level of the recursion has: the file system, the report, and `src_child`. -/
structure Level (σ : Type) where
  fs : σ
  report : Buffer
  srcChild : Text

/-- What a level returns. -/
structure Moved (σ : Type) where
  fs : σ
  report : Buffer
  ok : Bool

section Code
variable {σ : Type} (os : Os) (calls : Calls σ)
-- What is in `src_child` before it is written to.
variable (uninitialised : Text)

/-- Whether the entry is a directory. -/
def kind (fs : σ) (child : Path) (entry : Entry) : Option Bool :=
  match os with
  | .windows => some entry.directory
  | .posix => calls.stat fs child

/-- The body of the loop: the level after it, and whether the loop goes on. -/
def moveEntry (moveTree : Path → Path → σ → Buffer → Moved σ) (src dst : Path) (entry : Entry)
    (s : Level σ) : Level σ × Bool :=
  if entry.dots then (s, true)
  else
    let srcChild := src.child os entry.name
    let dstChild := dst.child os entry.name
    if !srcChild.fits || !dstChild.fits then
      ({ s with srcChild := cut bufferSize srcChild.text }, false)
    else
      let s := { s with srcChild := srcChild.text }
      match kind os calls s.fs srcChild entry with
      | none => ({ s with report := reportFailedPath s.report srcChild.text }, false)
      | some true =>
        match calls.mkdirP s.fs dstChild with
        | (fs, false) => ({ s with fs, report := reportFailedPath s.report dstChild.text }, false)
        | (fs, true) =>
          match moveTree srcChild dstChild fs s.report with
          | ⟨fs, report, false⟩ => ({ s with fs, report }, false)
          | ⟨fs, report, true⟩ =>
            match calls.rmRf fs srcChild with
            | (fs, false) =>
              ({ s with fs, report := reportFailedPath report srcChild.text }, false)
            | (fs, true) => ({ s with fs, report }, true)
      | some false =>
        match calls.fileMoveVerified s.fs srcChild dstChild with
        | (fs, false) => ({ s with fs, report := reportFailedPath s.report srcChild.text }, false)
        | (fs, true) => ({ s with fs }, true)

def moveEntries (moveTree : Path → Path → σ → Buffer → Moved σ) (src dst : Path) :
    List Entry → Level σ → Level σ × Bool
  | [], s => (s, true)
  | entry :: rest, s =>
    match moveEntry os calls moveTree src dst entry s with
    | (s, false) => (s, false)
    | (s, true) => moveEntries moveTree src dst rest s

/-- `opendir(src)`, or `FindFirstFileA` with the pattern `src\*`. -/
def openSource (fs : σ) (src : Path) : Option Listing :=
  if os = .windows ∧ src.text.length + 2 ≥ bufferSize then none else calls.opendir fs src

/-- Only Windows tells an enumeration that broke off from one that came to its end. -/
def listedWhole (listing : Listing) : Bool := os = .posix || listing.complete

/-- `_move_tree`, for at most so many levels. -/
def moveTree : Nat → Path → Path → σ → Buffer → Moved σ
  | 0, _, _, fs, report => ⟨fs, report, false⟩
  | levels + 1, src, dst, fs, report =>
    match openSource os calls fs src with
    | none => ⟨fs, reportFailedPath report (cut bufferSize src.text), false⟩
    | some listing =>
      match moveEntries os calls (moveTree levels) src dst listing.entries
          ⟨fs, report, uninitialised⟩ with
      | (s, false) => ⟨s.fs, reportFailedPath s.report s.srcChild, false⟩
      | (s, true) =>
        if listedWhole os listing then ⟨s.fs, s.report, true⟩
        else ⟨s.fs, reportFailedPath s.report s.srcChild, false⟩

/-- `cli_cache_move_tree`.  There is a level for each length of a path that fits. -/
def cliCacheMoveTree (src dst : Path) (fs : σ) (report : Buffer) : Moved σ :=
  match calls.mkdirP fs dst with
  | (fs, false) => ⟨fs, reportFailedPath report dst.text, false⟩
  | (fs, true) => moveTree os calls uninitialised bufferSize src dst fs report

end Code

/-! ## Entries one by one -/

section Entry
variable {σ : Type} {os : Os} {calls : Calls σ} {move : Path → Path → σ → Buffer → Moved σ}
  {src dst : Path} {e : Entry} {s : Level σ}

theorem moveEntry_file (hdots : e.dots = false) (hsrc : (src.child os e.name).fits = true)
    (hdst : (dst.child os e.name).fits = true)
    (hkind : kind os calls s.fs (src.child os e.name) e = some false) :
    (moveEntry os calls move src dst e s).1.fs =
      (calls.fileMoveVerified s.fs (src.child os e.name) (dst.child os e.name)).1 := by
  rw [moveEntry, if_neg (by simp [hdots])]
  dsimp only
  rw [if_neg (by simp [hsrc, hdst])]
  simp only [hkind]
  split <;> rename_i hfile <;> rw [hfile]

theorem moveEntry_directory {fs : σ} (hdots : e.dots = false)
    (hsrc : (src.child os e.name).fits = true) (hdst : (dst.child os e.name).fits = true)
    (hkind : kind os calls s.fs (src.child os e.name) e = some true)
    (hmkdir : calls.mkdirP s.fs (dst.child os e.name) = (fs, true)) :
    (moveEntry os calls move src dst e s).1.fs =
      if (move (src.child os e.name) (dst.child os e.name) fs s.report).ok then
        (calls.rmRf (move (src.child os e.name) (dst.child os e.name) fs s.report).fs
          (src.child os e.name)).1
      else (move (src.child os e.name) (dst.child os e.name) fs s.report).fs := by
  rw [moveEntry, if_neg (by simp [hdots])]
  dsimp only
  rw [if_neg (by simp [hsrc, hdst])]
  simp only [hkind, hmkdir]
  rcases move (src.child os e.name) (dst.child os e.name) fs s.report with ⟨fs', report, _ | _⟩
  · rfl
  · dsimp only
    rw [if_pos rfl]
    split <;> rename_i hrm <;> rw [hrm]

/-- A directory with one entry. -/
theorem moveTree_single {uninitialised : Text} {levels : Nat} {fs : σ} {report : Buffer}
    {complete : Bool} (hopen : openSource os calls fs src = some ⟨[e], complete⟩) :
    (moveTree os calls uninitialised (levels + 1) src dst fs report).fs =
      (moveEntry os calls (moveTree os calls uninitialised levels) src dst e
        ⟨fs, report, uninitialised⟩).1.fs := by
  rw [moveTree, hopen]
  simp only [moveEntries]
  rcases moveEntry os calls (moveTree os calls uninitialised levels) src dst e
    ⟨fs, report, uninitialised⟩ with ⟨s, _ | _⟩
  · rfl
  · dsimp only
    split <;> rfl

/-- An empty directory. -/
theorem moveTree_empty {uninitialised : Text} {levels : Nat} {fs : σ} {report : Buffer}
    (hopen : openSource os calls fs src = some ⟨[], true⟩) :
    moveTree os calls uninitialised (levels + 1) src dst fs report = ⟨fs, report, true⟩ := by
  rw [moveTree, hopen]
  simp [moveEntries, listedWhole]

end Entry

/-! ## Paths -/

section Paths
variable {os : Os}

@[simp] theorem below_nil (p : Path) : p.below os [] = p := rfl

theorem below_append (p : Path) (a b : Place) :
    p.below os (a ++ b) = (p.below os a).below os b := List.foldl_append

theorem below_snoc (p : Path) (rel : Place) (name : Text) :
    p.below os (rel ++ [name]) = (p.below os rel).child os name := below_append p rel [name]

@[simp] theorem below_place (p : Path) (rel : Place) : (p.below os rel).place = p.place ++ rel := by
  induction rel generalizing p with
  | nil => simp
  | cons name rel ih =>
    have hcons : p.below os (name :: rel) = (p.child os name).below os rel := rfl
    rw [hcons, ih]
    simp [Path.child]

/-- A path is longer than the number of its names. -/
theorem length_le_below (p : Path) (rel : Place) : rel.length ≤ (p.below os rel).text.length := by
  induction rel using List.reverseRecOn with
  | nil => exact Nat.zero_le _
  | append_singleton rel name ih =>
    rw [below_snoc]
    simp only [Path.child, List.length_append, List.length_cons, List.length_nil]
    omega

end Paths

/-! ## What a move keeps -/

/-- The pattern of the enumeration fits into its buffer, which only Windows needs. -/
def sourceOpens (os : Os) (src : Path) : Prop :=
  ¬(os = .windows ∧ src.text.length + 2 ≥ bufferSize)

/-- **The entries that a move can get to**, by the names that lead to them: the directory itself,
and the entries, other than the two dots, of a directory that it can get to and open, as far as
both paths fit. -/
inductive Reached (os : Os) (src dst : Path) : Place → Prop
  | top : Reached os src dst []
  | entry {rel : Place} (e : Entry) :
    Reached os src dst rel → sourceOpens os (src.below os rel) → e.dots = false →
    (src.below os (rel ++ [e.name])).fits = true → (dst.below os (rel ++ [e.name])).fits = true →
    Reached os src dst (rel ++ [e.name])

theorem Reached.parent {os : Os} {src dst : Path} {rel : Place} {name : Text}
    (h : Reached os src dst (rel ++ [name])) :
    Reached os src dst rel ∧ sourceOpens os (src.below os rel) ∧
      (∀ directory, Entry.dots ⟨name, directory⟩ = false) ∧
      (src.below os (rel ++ [name])).fits = true ∧ (dst.below os (rel ++ [name])).fits = true := by
  generalize hpath : rel ++ [name] = path at h
  rcases h with _ | ⟨e, hrel, hopens, hdots, hsrc, hdst⟩
  · simp at hpath
  · obtain ⟨rfl, hname⟩ := List.append_inj' hpath rfl
    obtain rfl : name = e.name := List.singleton_inj.mp hname
    exact ⟨hrel, hopens, fun _ => hdots, hsrc, hdst⟩

theorem Reached.of_append {os : Os} {src dst : Path} {rel rest : Place}
    (h : Reached os src dst (rel ++ rest)) : Reached os src dst rel := by
  induction rest using List.reverseRecOn with
  | nil => rwa [List.append_nil] at h
  | append_singleton rest name ih =>
    rw [← List.append_assoc] at h
    exact ih h.parent.1

section Keeping
variable {σ : Type} {os : Os} {calls : Calls σ} {src dst : Path} {I : σ → Prop}

/-- **Every call keeps it** that a move from `src` to `dst` can make.  `mkdir_p` is called at the
destination only, and the other two only for entries that the move can get to; a directory is
removed only after it has been opened. -/
structure Keeps (os : Os) (calls : Calls σ) (src dst : Path) (I : σ → Prop) : Prop where
  mkdirP : ∀ fs rel, I fs → I (calls.mkdirP fs (dst.below os rel)).1
  fileMoveVerified : ∀ fs rel, rel ≠ [] → Reached os src dst rel → I fs →
    I (calls.fileMoveVerified fs (src.below os rel) (dst.below os rel)).1
  rmRf : ∀ fs rel, rel ≠ [] → Reached os src dst rel → sourceOpens os (src.below os rel) → I fs →
    I (calls.rmRf fs (src.below os rel)).1

theorem sourceOpens_of_openSource {fs : σ} {p : Path} {listing : Listing}
    (h : openSource os calls fs p = some listing) : sourceOpens os p := by
  intro hlong
  rw [openSource, if_pos hlong] at h
  cases h

theorem sourceOpens_of_moveTree_ok {uninitialised : Text} {levels : Nat} {p p' : Path} {fs : σ}
    {report : Buffer} (h : (moveTree os calls uninitialised levels p p' fs report).ok = true) :
    sourceOpens os p := by
  rcases levels with _ | levels
  · cases h
  · rw [moveTree] at h
    split at h
    · cases h
    · exact sourceOpens_of_openSource ‹_›

section Entries
variable {move : Path → Path → σ → Buffer → Moved σ} {rel : Place}

/-- One entry keeps it, if the levels below do. -/
theorem moveEntry_keeps (hI : Keeps os calls src dst I) (hrel : Reached os src dst rel)
    (hopens : sourceOpens os (src.below os rel))
    (hmove : ∀ rel fs report, Reached os src dst rel → I fs →
      I (move (src.below os rel) (dst.below os rel) fs report).fs)
    (hok : ∀ p p' fs report, (move p p' fs report).ok = true → sourceOpens os p)
    (entry : Entry) (s : Level σ) (hs : I s.fs) :
    I (moveEntry os calls move (src.below os rel) (dst.below os rel) entry s).1.fs := by
  rw [moveEntry, ← below_snoc, ← below_snoc]
  split
  · exact hs
  · rename_i hdots
    dsimp only
    split
    · exact hs
    · rename_i hfits
      simp only [Bool.or_eq_true, Bool.not_eq_true', not_or, Bool.not_eq_false] at hfits
      have hreached : Reached os src dst (rel ++ [entry.name]) :=
        .entry entry hrel hopens (by simpa using hdots) hfits.1 hfits.2
      have hne : rel ++ [entry.name] ≠ [] := by simp
      split
      · exact hs
      · have hmade := hI.mkdirP s.fs (rel ++ [entry.name]) hs
        split
        · rename_i hmkdir
          rwa [hmkdir] at hmade
        · rename_i fs hmkdir
          rw [hmkdir] at hmade
          have hbelow := hmove (rel ++ [entry.name]) fs s.report hreached hmade
          split
          · rename_i hlevel
            rwa [hlevel] at hbelow
          · rename_i fs' report' hlevel
            have hopened := hok _ _ fs s.report (by rw [hlevel])
            rw [hlevel] at hbelow
            have hremoved := hI.rmRf fs' _ hne hreached hopened hbelow
            split <;> rename_i hrm <;> rwa [hrm] at hremoved
      · have hmoved := hI.fileMoveVerified s.fs _ hne hreached hs
        split <;> rename_i hfile <;> rwa [hfile] at hmoved

theorem moveEntries_keeps (hI : Keeps os calls src dst I) (hrel : Reached os src dst rel)
    (hopens : sourceOpens os (src.below os rel))
    (hmove : ∀ rel fs report, Reached os src dst rel → I fs →
      I (move (src.below os rel) (dst.below os rel) fs report).fs)
    (hok : ∀ p p' fs report, (move p p' fs report).ok = true → sourceOpens os p)
    (entries : List Entry) (s : Level σ) (hs : I s.fs) :
    I (moveEntries os calls move (src.below os rel) (dst.below os rel) entries s).1.fs := by
  induction entries generalizing s with
  | nil => exact hs
  | cons entry rest ih =>
    have hentry := moveEntry_keeps hI hrel hopens hmove hok entry s hs
    rw [moveEntries]
    split
    · rename_i hfirst
      rwa [hfirst] at hentry
    · rename_i hfirst
      rw [hfirst] at hentry
      exact ih _ hentry

end Entries

theorem moveTree_keeps (hI : Keeps os calls src dst I) (uninitialised : Text) (levels : Nat)
    {rel : Place} (hrel : Reached os src dst rel) (fs : σ) (report : Buffer) (hfs : I fs) :
    I (moveTree os calls uninitialised levels (src.below os rel) (dst.below os rel) fs
      report).fs := by
  induction levels generalizing rel fs report with
  | zero => exact hfs
  | succ levels ih =>
    rw [moveTree]
    split
    · exact hfs
    · rename_i listing hopen
      have hentries := moveEntries_keeps hI hrel (sourceOpens_of_openSource hopen)
        (fun rel fs report hrel hfs => ih hrel fs report hfs)
        (fun p p' fs report h => sourceOpens_of_moveTree_ok h) listing.entries
        ⟨fs, report, uninitialised⟩ hfs
      split
      · rename_i hall
        rwa [hall] at hentries
      · rename_i hall
        rw [hall] at hentries
        split <;> exact hentries

/-- **A move keeps what all of its calls keep.** -/
theorem cliCacheMoveTree_keeps (hI : Keeps os calls src dst I) (uninitialised : Text) (fs : σ)
    (report : Buffer) (hfs : I fs) :
    I (cliCacheMoveTree os calls uninitialised src dst fs report).fs := by
  have hmade := hI.mkdirP fs [] hfs
  rw [below_nil] at hmade
  rw [cliCacheMoveTree]
  split
  · rename_i hmkdir
    rwa [hmkdir] at hmade
  · rename_i hmkdir
    rw [hmkdir] at hmade
    exact moveTree_keeps hI uninitialised bufferSize .top _ report hmade

end Keeping

end Offs.MoveTree
