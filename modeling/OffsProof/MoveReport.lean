import OffsProof.MoveStack
import OffsProof.Thrown

/-! # The entry that a move names

The first failure ends a move at every level.  What the caller should learn is where it was, as
if the call that failed threw its path through all levels: `tryMove` is the move said so.
`_move_tree` hands a buffer down instead, and every level writes to it on its way out, unless
there is something in it already.

The two come to the same (`cliCacheMoveTree_told`) if the buffer is empty at first and not longer
than those of the levels, and if no enumeration breaks off.  Any other buffer misses a failure of
some tree (`failed_move_named_iff`).

The move with exceptions is read as a specification: what it throws is what a failing call has in
its hands (`Thrown.Throws`), and the two are compared level by level.  A level that fails returns
with a report that is not empty, so that the levels above leave it alone.  A buffer with something
in it keeps that, and one longer than those of the levels can be told a path that was cut to one
of theirs; a buffer of one character has room for no name and learns nothing in any case.
-/
namespace Offs.MoveTree
open CText Thrown

/-! ## A move that throws -/

section Throwing
variable {σ : Type} (os : Os) (calls : Calls σ)

/-- One entry.  Nothing is caught: what the levels below throw goes on to the caller. -/
def tryEntry (move : Path → Path → EStateM Text σ Unit) (src dst : Path) (entry : Entry) :
    EStateM Text σ Unit := do
  let srcChild := src.child os entry.name
  let dstChild := dst.child os entry.name
  if entry.dots then return
  else if srcChild.fits && dstChild.fits then
    match kind os calls (← get) srcChild entry with
    | none => throw srcChild.text
    | some true =>
      orThrow dstChild.text (calls.mkdirP · dstChild)
      move srcChild dstChild
      orThrow srcChild.text (calls.rmRf · srcChild)
    | some false => orThrow srcChild.text (calls.fileMoveVerified · srcChild dstChild)
  else throw srcChild.text

/-- A directory.  It is what has failed if it cannot be opened or its enumeration breaks off. -/
def tryTree : Nat → Path → Path → EStateM Text σ Unit
  | 0, src, _ => throw src.text
  | levels + 1, src, dst => do
    match openSource os calls (← get) src with
    | none => throw src.text
    | some listing =>
      forM listing.entries (tryEntry os calls (tryTree levels) src dst)
      if listedWhole os listing then return else throw src.text

def tryMove (src dst : Path) : EStateM Text σ Unit := do
  orThrow dst.text (calls.mkdirP · dst)
  tryTree os calls bufferSize src dst

end Throwing

/-! ## No path that is thrown is empty -/

section Thrown
variable {σ : Type} {os : Os} {calls : Calls σ}

theorem child_text_ne_nil (os : Os) (p : Path) (name : Text) : (p.child os name).text ≠ [] := by
  simp [Path.child]

theorem throws_tryEntry {move : Path → Path → EStateM Text σ Unit} {src dst : Path}
    (hmove : ∀ name, Throws (· ≠ []) (move (src.child os name) (dst.child os name)))
    (entry : Entry) :
    Throws (· ≠ []) (tryEntry os calls move src dst entry) := by
  have hsrc := child_text_ne_nil os src entry.name
  have hdst := child_text_ne_nil os dst entry.name
  unfold tryEntry
  dsimp only
  split
  · exact throws_pure ()
  · split
    · refine throws_get.bind fun fs => ?_
      split
      · exact throws_throw hsrc
      · refine Throws.bind (throws_orThrow (P := (· ≠ [])) hdst _) fun _ => ?_
        exact (hmove entry.name).bind fun _ => throws_orThrow (P := (· ≠ [])) hsrc _
      · exact throws_orThrow (P := (· ≠ [])) hsrc _
    · exact throws_throw hsrc

theorem throws_tryTree (levels : Nat) {src : Path} (hsrc : src.text ≠ []) (dst : Path) :
    Throws (· ≠ []) (tryTree os calls levels src dst) := by
  induction levels generalizing src dst with
  | zero => exact throws_throw hsrc
  | succ levels ih =>
    refine throws_get.bind fun fs => ?_
    split
    · exact throws_throw hsrc
    · refine Throws.bind (throws_forM (throws_tryEntry fun name => ?_) _) fun _ => ?_
      · exact ih (child_text_ne_nil os src name) _
      · split
        · exact throws_pure ()
        · exact throws_throw hsrc

end Thrown

/-! ## What gets into the buffer -/

theorem reportFailedPath_empty (size : Nat) (path : Text) :
    reportFailedPath (some (size, [])) path = some (size, cut size path) := by
  rcases size with _ | size <;> simp [reportFailedPath, cut]

theorem reportFailedPath_filled (size : Nat) {content : Text} (h : content ≠ []) (path : Text) :
    reportFailedPath (some (size, content)) path = some (size, content) := by
  rcases content with _ | ⟨c, content⟩
  · exact absurd rfl h
  · rfl

/-- There is no room for a character, whatever the path. -/
theorem cut_small {size : Nat} (h : size ≤ 1) (path : Text) : cut size path = [] := by
  simp [cut, show size - 1 = 0 by omega]

/-- The levels above a failure do not write over its path. -/
theorem reportFailedPath_again (b : Buffer) {path : Text} (hpath : path ≠ []) (other : Text) :
    reportFailedPath (reportFailedPath b path) other = reportFailedPath b path := by
  rcases b with _ | ⟨size, content⟩
  · rfl
  · by_cases hcontent : content = []
    · rw [hcontent, reportFailedPath_empty]
      by_cases hsize : 1 < size
      · exact reportFailedPath_filled size (mt (cut_eq_nil hsize).mp hpath) other
      · have hsmall : size ≤ 1 := by omega
        rw [cut_small hsmall, reportFailedPath_empty, cut_small hsmall]
    · rw [reportFailedPath_filled size hcontent, reportFailedPath_filled size hcontent]

section Told
variable {σ : Type} {os : Os} {calls : Calls σ} {uninitialised : Text}

/-- What a move comes to with the buffer `b`, where the one that throws comes to this.  A move
that succeeds leaves the buffer as it was; one that fails leaves the same file system, and the
report is only as expected if `clear`. -/
def Told (clear : Prop) (b : Buffer) (m : Moved σ) : EStateM.Result Text σ Unit → Prop
  | .ok _ fs => m = ⟨fs, b, true⟩
  | .error path fs => m.fs = fs ∧ m.ok = false ∧ (clear → m.report = reportFailedPath b path)

/-- The buffer shows no difference between two paths. -/
def Blind (b : Buffer) : Prop := ∀ path other, reportFailedPath b path = reportFailedPath b other

/-- No enumeration breaks off. -/
def Enumerates (calls : Calls σ) : Prop :=
  ∀ fs path listing, calls.opendir fs path = some listing → listing.complete = true

/-- The buffer is not longer than those of the levels. -/
def Short : Buffer → Prop
  | none => True
  | some (size, _) => size ≤ bufferSize

/-- What a level writes into the buffer is the path of the failure. -/
def Clear (os : Os) (calls : Calls σ) (b : Buffer) : Prop :=
  Blind b ∨ Short b ∧ (os = .posix ∨ Enumerates calls)

theorem Clear.cut {b : Buffer} (h : Clear os calls b) (path : Text) :
    reportFailedPath b (cut bufferSize path) = reportFailedPath b path := by
  rcases h with hblind | ⟨hshort, -⟩
  · exact hblind _ _
  · rcases b with _ | ⟨size, content⟩
    · rfl
    · by_cases hcontent : content = []
      · have hsize : size ≤ bufferSize := hshort
        rw [hcontent, reportFailedPath_empty, reportFailedPath_empty]
        simp only [CText.cut, List.take_take]
        rw [Nat.min_eq_left (by omega)]
      · rw [reportFailedPath_filled size hcontent, reportFailedPath_filled size hcontent]

/-- An enumeration that breaks off is only reported to a blind buffer. -/
theorem Clear.brokenOff {b : Buffer} {fs : σ} {src : Path} {listing : Listing}
    (h : Clear os calls b) (hopen : openSource os calls fs src = some listing)
    (hbroken : listedWhole os listing = false) : Blind b := by
  rcases h with hblind | ⟨-, hposix | hcomplete⟩
  · exact hblind
  · simp [listedWhole, hposix] at hbroken
  · have hwhole := hcomplete fs src listing (opendir_of_openSource hopen)
    simp [listedWhole, hwhole] at hbroken

/-! ## The levels from the innermost on -/

/-- A failure that has been reported is the one the level returns with. -/
theorem told_reported {clear : Prop} {b : Buffer} {path : Text} (hpath : path ≠ []) (fs : σ)
    (srcChild : Text) :
    Told clear b (closed true (⟨fs, reportFailedPath b path, srcChild⟩, false)) (.error path fs) :=
  ⟨rfl, rfl, fun _ => reportFailedPath_again b hpath srcChild⟩

/-- A loop that is told has come to its end with the buffer as it was. -/
theorem Told.ended {clear : Prop} {b : Buffer} {res : Level σ × Bool} {u : Unit} {fs : σ}
    (h : Told clear b (closed true res) (.ok u fs)) :
    ∃ srcChild, res = (⟨fs, b, srcChild⟩, true) := by
  obtain ⟨⟨lfs, report, srcChild⟩, ok⟩ := res
  cases ok <;> cases h
  exact ⟨srcChild, rfl⟩

theorem Told.failed {clear : Prop} {b : Buffer} {res : Level σ × Bool} {path : Text} {fs : σ}
    (h : Told clear b (closed true res) (.error path fs)) : ∃ l, res = (l, false) := by
  obtain ⟨l, ok⟩ := res
  cases ok with
  | true => exact absurd h.2.1 Bool.noConfusion
  | false => exact ⟨l, rfl⟩

section Entries
variable {clear : Prop} {b : Buffer} {src dst : Path}
  {move : Path → Path → σ → Buffer → Moved σ} {tried : Path → Path → EStateM Text σ Unit}

/-- A path that did not fit is reported by the level itself, as far as `src_child` holds it. -/
theorem told_tooLong (hcut : clear → ∀ path, reportFailedPath b (cut bufferSize path) =
      reportFailedPath b path) (path : Text) (fs : σ) :
    Told clear b (closed true (⟨fs, b, cut bufferSize path⟩, false)) (.error path fs) :=
  ⟨rfl, rfl, fun h => hcut h path⟩

/-- The rest of the body after the recursive call. -/
theorem afterCall_told {child : Path} (hchild : child.text ≠ []) {m : Moved σ} {fs : σ}
    {x : EStateM Text σ Unit} (hm : Told clear b m (x.run fs))
    (hthrown : Throws (· ≠ []) x) (s : Level σ) :
    Told clear b (closed true (afterCall calls child s m))
      ((do x; orThrow child.text (calls.rmRf · child)).run fs) := by
  obtain ⟨mfs, report, ok⟩ := m
  rw [EStateM.run_bind]
  cases hx : x.run fs with
  | ok u fs' =>
    rw [hx] at hm
    cases hm
    simp only [afterCall, run_orThrow]
    rcases calls.rmRf mfs child with ⟨fs', _ | _⟩
    · exact told_reported hchild fs' _
    · rfl
  | error path fs' =>
    rw [hx] at hm
    obtain ⟨rfl, rfl, hreport⟩ := hm
    refine ⟨rfl, rfl, fun h => ?_⟩
    obtain rfl := hreport h
    exact reportFailedPath_again b (hthrown fs path mfs hx) _

-- The levels below are told.
variable (hcut : clear → ∀ path, reportFailedPath b (cut bufferSize path) = reportFailedPath b path)
  (hmove : ∀ name fs, (src.child os name).fits = true →
    Told clear b (move (src.child os name) (dst.child os name) fs b)
      ((tried (src.child os name) (dst.child os name)).run fs))
  (hthrown : ∀ name, Throws (· ≠ []) (tried (src.child os name) (dst.child os name)))
include hcut hmove hthrown

/-- One entry. -/
theorem moveEntry_told (entry : Entry) (fs : σ) (srcChild : Text) :
    Told clear b (closed true (moveEntry os calls move src dst entry ⟨fs, b, srcChild⟩))
      ((tryEntry os calls tried src dst entry).run fs) := by
  have hne := child_text_ne_nil os src entry.name
  have hneDst := child_text_ne_nil os dst entry.name
  unfold moveEntry tryEntry
  cases entry.dots with
  | true => rfl
  | false =>
    cases hsrc : (src.child os entry.name).fits with
    | false =>
      simp only [Bool.false_eq_true, ↓reduceIte, hsrc, Bool.not_false, Bool.true_or,
        Bool.false_and, EStateM.run_throw]
      exact told_tooLong hcut _ fs
    | true =>
      cases hdst : (dst.child os entry.name).fits with
      | false =>
        simp only [Bool.false_eq_true, ↓reduceIte, hsrc, Bool.not_true, hdst, Bool.not_false,
          Bool.or_true, Bool.and_false, EStateM.run_throw]
        exact told_tooLong hcut _ fs
      | true =>
        simp only [Bool.false_eq_true, ↓reduceIte, hsrc, Bool.not_true, hdst, Bool.or_self,
          Bool.and_self, EStateM.run_bind, EStateM.run_get]
        cases kind os calls fs (src.child os entry.name) entry with
        | none => exact told_reported hne fs _
        | some directory =>
          cases directory with
          | false =>
            simp only [run_orThrow]
            rcases calls.fileMoveVerified fs (src.child os entry.name) (dst.child os entry.name)
              with ⟨fs', _ | _⟩
            · exact told_reported hne fs' _
            · rfl
          | true =>
            simp only [EStateM.run_bind, run_orThrow]
            rcases calls.mkdirP fs (dst.child os entry.name) with ⟨fs', _ | _⟩
            · exact told_reported hneDst fs' _
            · exact afterCall_told hne (hmove entry.name fs' hsrc) (hthrown entry.name)
                ⟨fs', b, (src.child os entry.name).text⟩

theorem moveEntries_told (entries : List Entry) (fs : σ) (srcChild : Text) :
    Told clear b (closed true (moveEntries os calls move src dst entries ⟨fs, b, srcChild⟩))
      ((forM entries (tryEntry os calls tried src dst)).run fs) := by
  induction entries generalizing fs srcChild with
  | nil => rfl
  | cons entry rest ih =>
    have hentry : Told clear b
        (closed true (moveEntry os calls move src dst entry ⟨fs, b, srcChild⟩))
        ((tryEntry os calls tried src dst entry).run fs) :=
      moveEntry_told hcut hmove hthrown entry fs srcChild
    rw [moveEntries, List.forM_cons, EStateM.run_bind]
    cases hfirst : (tryEntry os calls tried src dst entry).run fs with
    | ok u fs' =>
      rw [hfirst] at hentry
      obtain ⟨srcChild', hlevel⟩ := hentry.ended
      rw [hlevel]
      exact ih fs' srcChild'
    | error path fs' =>
      rw [hfirst] at hentry
      obtain ⟨l, hlevel⟩ := hentry.failed
      rw [hlevel] at hentry ⊢
      exact hentry

end Entries

/-- **A level tells of its failure as one that throws.** -/
theorem moveTree_told {levels : Nat} {src : Path} (hroom : Room levels src) (dst : Path) (fs : σ)
    (b : Buffer) :
    Told (Clear os calls b) b (moveTree os calls uninitialised levels src dst fs b)
      ((tryTree os calls levels src dst).run fs) := by
  induction levels generalizing src dst fs with
  | zero => exact absurd hroom.1 (Nat.lt_irrefl 0)
  | succ levels ih =>
    rw [moveTree_succ, tryTree, EStateM.run_bind, EStateM.run_get]
    dsimp only
    cases hopen : openSource os calls fs src with
    | none => exact ⟨rfl, rfl, fun h => h.cut src.text⟩
    | some listing =>
      have hentries : Told (Clear os calls b) b
          (closed true (moveEntries os calls (moveTree os calls uninitialised levels) src dst
            listing.entries ⟨fs, b, uninitialised⟩))
          ((forM listing.entries (tryEntry os calls (tryTree os calls levels) src dst)).run fs) :=
        moveEntries_told (fun h => h.cut)
          (fun name fs hfits => ih (hroom.child hfits) (dst.child os name) fs)
          (fun name => throws_tryTree levels (child_text_ne_nil os src name) _)
          listing.entries fs uninitialised
      dsimp only
      rw [EStateM.run_bind]
      cases hrun : (forM listing.entries (tryEntry os calls (tryTree os calls levels) src dst)).run
        fs with
      | ok u fs' =>
        rw [hrun] at hentries
        obtain ⟨srcChild, hloop⟩ := hentries.ended
        rw [hloop]
        cases hwhole : listedWhole os listing with
        | true => rfl
        | false => exact ⟨rfl, rfl, fun h => h.brokenOff hopen hwhole _ _⟩
      | error path fs' =>
        rw [hrun] at hentries
        obtain ⟨l, hloop⟩ := hentries.failed
        rw [hloop] at hentries ⊢
        exact hentries

/-- **A move comes to what the one that throws comes to, whatever the buffer,** but for what is
written into it if that is not clear. -/
theorem cliCacheMoveTree_told (src dst : Path) (fs : σ) (b : Buffer) :
    Told (Clear os calls b) b (cliCacheMoveTree os calls uninitialised src dst fs b)
      ((tryMove os calls src dst).run fs) := by
  rw [cliCacheMoveTree, tryMove, EStateM.run_bind, run_orThrow]
  rcases calls.mkdirP fs dst with ⟨fs', _ | _⟩
  · exact ⟨rfl, rfl, fun _ => rfl⟩
  · have hroom : Room bufferSize src := ⟨by decide, Nat.le_add_left _ _⟩
    exact moveTree_told hroom dst fs' b

/-- Neither what is left on the disk nor the result depends on the buffer. -/
theorem cliCacheMoveTree_buffer (src dst : Path) (fs : σ) (b b' : Buffer) :
    (cliCacheMoveTree os calls uninitialised src dst fs b).fs =
        (cliCacheMoveTree os calls uninitialised src dst fs b').fs ∧
      (cliCacheMoveTree os calls uninitialised src dst fs b).ok =
        (cliCacheMoveTree os calls uninitialised src dst fs b').ok := by
  have htold : ∀ b, Told (Clear os calls b) b
      (cliCacheMoveTree os calls uninitialised src dst fs b) ((tryMove os calls src dst).run fs) :=
    cliCacheMoveTree_told src dst fs
  cases hrun : (tryMove os calls src dst).run fs with
  | ok u fs' =>
    simp only [hrun, Told] at htold
    rw [htold b, htold b']
    exact ⟨rfl, rfl⟩
  | error path fs' =>
    simp only [hrun, Told] at htold
    obtain ⟨hfs, hok, -⟩ := htold b
    obtain ⟨hfs', hok', -⟩ := htold b'
    exact ⟨hfs.trans hfs'.symm, hok.trans hok'.symm⟩

end Told

/-! ## Which buffers learn of a failure -/

/-- **A failed move names the entry that has failed**: the buffer holds its path, cut to the size
of the buffer, and nothing of the result depends on what was in the buffer before.  Which entry
this is, is said by the move that throws. -/
def NamesFailure {σ : Type} (os : Os) (calls : Calls σ) (uninitialised : Text) (src dst : Path)
    (fs : σ) (size : Nat) (content : Text) : Prop :=
  (cliCacheMoveTree os calls uninitialised src dst fs (some (size, content))).ok = false →
    ∃ path fs', (tryMove os calls src dst).run fs = .error path fs' ∧
      cliCacheMoveTree os calls uninitialised src dst fs (some (size, content)) =
        ⟨fs', some (size, cut size path), false⟩

theorem namesFailure_of_clear {σ : Type} {os : Os} {calls : Calls σ} {size : Nat}
    (hclear : Clear os calls (some (size, []))) (uninitialised : Text) (src dst : Path) (fs : σ) :
    NamesFailure os calls uninitialised src dst fs size [] := by
  intro hfailed
  have htold : Told (Clear os calls (some (size, []))) (some (size, []))
      (cliCacheMoveTree os calls uninitialised src dst fs (some (size, [])))
      ((tryMove os calls src dst).run fs) := cliCacheMoveTree_told src dst fs _
  generalize cliCacheMoveTree os calls uninitialised src dst fs (some (size, [])) = m
    at htold hfailed
  cases hrun : (tryMove os calls src dst).run fs with
  | ok u fs' =>
    rw [hrun] at htold
    obtain rfl : m = ⟨fs', _, true⟩ := htold
    cases hfailed
  | error path fs' =>
    rw [hrun] at htold
    obtain ⟨hfs, hok, hreport⟩ := htold
    have hpath := (hreport hclear).trans (reportFailedPath_empty size path)
    obtain ⟨mfs, report, ok⟩ := m
    obtain rfl : mfs = fs' := hfs
    obtain rfl : ok = false := hok
    obtain rfl : report = some (size, cut size path) := hpath
    exact ⟨path, mfs, rfl, rfl⟩

/-- Every directory is listed as this, and every file fails to move. -/
def listingCalls (listing : Option Listing) : Calls Unit where
  opendir _ _ := listing
  stat _ _ := some false
  mkdirP _ _ := ((), true)
  fileMoveVerified _ _ _ := ((), false)
  rmRf _ _ := ((), true)

theorem openSource_none (os : Os) (src : Path) :
    openSource os (listingCalls none) () src = none := by
  unfold openSource
  split <;> rfl

theorem move_unopened (os : Os) (uninitialised : Text) (src dst : Path) (b : Buffer) :
    cliCacheMoveTree os (listingCalls none) uninitialised src dst () b =
      ⟨(), reportFailedPath b (cut bufferSize src.text), false⟩ := by
  show moveTree os (listingCalls none) uninitialised (1023 + 1) src dst () b = _
  rw [moveTree_succ, openSource_none]

theorem tryMove_unopened (os : Os) (src dst : Path) :
    (tryMove os (listingCalls none) src dst).run () = .error src.text () := by
  show (tryTree os (listingCalls none) (1023 + 1) src dst).run () = _
  rw [tryTree, EStateM.run_bind, EStateM.run_get]
  dsimp only
  rw [openSource_none]
  rfl

/-- The buffer keeps what is in it. -/
theorem content_eq_nil (os : Os) {size : Nat} {content : Text}
    (h : ∀ src, NamesFailure os (listingCalls none) [] src src () size content) : content = [] := by
  by_contra hcontent
  obtain ⟨path, fs', hthrown, hmoved⟩ := h ⟨[], []⟩ (by rw [move_unopened])
  rw [tryMove_unopened] at hthrown
  cases hthrown
  rw [move_unopened, reportFailedPath_filled size hcontent, cut_nil] at hmoved
  cases hmoved
  exact hcontent rfl

/-- `src_child` holds 1023 characters of the path. -/
theorem size_le_bufferSize (os : Os) {size : Nat}
    (h : ∀ src, NamesFailure os (listingCalls none) [] src src () size []) : size ≤ bufferSize := by
  obtain ⟨path, fs', hthrown, hmoved⟩ :=
    h ⟨List.replicate bufferSize 'a', []⟩ (by rw [move_unopened])
  rw [tryMove_unopened] at hthrown
  cases hthrown
  rw [move_unopened, reportFailedPath_empty] at hmoved
  have hcut : cut size (cut bufferSize (List.replicate bufferSize 'a')) =
      cut size (List.replicate bufferSize 'a') := by
    injection hmoved with hfs hreport
    injection hreport with hpair
    exact (Prod.mk.inj hpair).2
  have hlength := congrArg List.length hcut
  have hsize : bufferSize = 1024 := rfl
  simp only [cut, List.length_take, List.length_replicate] at hlength
  omega

def brokenListing : Listing := ⟨[⟨lit ".", true⟩], false⟩

/-- `src_child` does not hold the path of the directory. -/
theorem size_le_one {size : Nat}
    (h : ∀ src, NamesFailure .windows (listingCalls (some brokenListing)) [] src src () size []) :
    size ≤ 1 := by
  have hmove : cliCacheMoveTree .windows (listingCalls (some brokenListing)) [] ⟨lit "s", []⟩
      ⟨lit "s", []⟩ () (some (size, [])) = ⟨(), reportFailedPath (some (size, [])) [], false⟩ := rfl
  have htry : (tryMove .windows (listingCalls (some brokenListing)) ⟨lit "s", []⟩
      ⟨lit "s", []⟩).run () = .error (lit "s") () := rfl
  obtain ⟨path, fs', hthrown, hmoved⟩ := h ⟨lit "s", []⟩ (by rw [hmove])
  rw [htry] at hthrown
  cases hthrown
  rw [hmove, reportFailedPath_empty, cut_nil] at hmoved
  injection hmoved with hfs hreport
  injection hreport with hpair
  by_contra hsize
  have hnil := (cut_eq_nil (by omega)).mp (Prod.mk.inj hpair).2.symm
  exact absurd hnil (by decide)

/-- **A buffer learns of every failure if and only if** it is empty at first and its size is at
most 1024, with no enumeration that breaks off on Windows.  (A buffer of one character learns
nothing in any case.)  That this is needed is shown by two kinds of moves.  A source that cannot
be opened is not reported where the buffer has a text already, and is cut to 1023 bytes where the
buffer has room for more; and an enumeration that breaks off without an entry reports what is in
`src_child`, which nothing has been written to. -/
theorem failed_move_named_iff (os : Os) (breaksOff : Bool) (size : Nat) (content : Text) :
    (∀ (σ : Type) (calls : Calls σ), (breaksOff = false → Enumerates calls) →
      ∀ uninitialised src dst fs,
        NamesFailure os calls uninitialised src dst fs size content) ↔
      content = [] ∧ (size ≤ 1 ∨ size ≤ bufferSize ∧ (os = .posix ∨ breaksOff = false)) := by
  constructor
  · intro h
    have hunopened := fun src => h Unit (listingCalls none)
      (fun _ => fun _ _ _ hopen => absurd hopen (by simp [listingCalls])) [] src src ()
    obtain rfl := content_eq_nil os hunopened
    refine ⟨rfl, ?_⟩
    cases os with
    | posix => exact .inr ⟨size_le_bufferSize _ hunopened, .inl rfl⟩
    | windows =>
      cases breaksOff with
      | false => exact .inr ⟨size_le_bufferSize _ hunopened, .inr rfl⟩
      | true =>
        exact .inl (size_le_one fun src => h Unit (listingCalls (some brokenListing))
          (fun hfalse => Bool.noConfusion hfalse) [] src src ())
  · rintro ⟨rfl, hroom⟩ σ calls henumerates uninitialised src dst fs
    apply namesFailure_of_clear
    rcases hroom with hsmall | ⟨hsize, hposix | hwhole⟩
    · refine .inl fun path other => ?_
      rw [reportFailedPath_empty, reportFailedPath_empty, cut_small hsmall, cut_small hsmall]
    · exact .inr ⟨hsize, .inl hposix⟩
    · exact .inr ⟨hsize, .inr (henumerates hwhole)⟩

/-- The file `/s/f` cannot be moved, and the buffer of the caller starts with `x`. -/
theorem filled_buffer_not_told :
    ¬ NamesFailure .posix (listingCalls (some ⟨[⟨lit "f", false⟩], true⟩)) []
      ⟨lit "/s", [lit "s"]⟩ ⟨lit "/d", [lit "d"]⟩ () 1024 (lit "x") := by
  intro h
  obtain ⟨path, fs', hthrown, hmoved⟩ := h rfl
  obtain rfl : path = lit "/s/f" := by
    cases hthrown
    rfl
  injection hmoved with hfs hreport
  exact absurd hreport (by decide)

end Offs.MoveTree
