import OffsProof.MoveDisk
import OffsProof.PathTree

/-! # What a move leaves

A walk that has passed some visits has moved the files among them, has made the directories that
it entered and has removed those that it left (`Done`).  Whether a visit passes is decided by
what was on the disk at the beginning and by what the calls meet (`Passes`), since no visit
touches what a later one is about.

A visit that succeeds is added to what has been done (`done_visit`), and so is every visit of a
run (`done_run`); how far a run comes is therefore known beforehand (`run_ok_iff`).  At the visit
that fails, nothing is taken away from the source but by a removal, and at the destination its
own path is changed and directories are made on the way there.

What has been visited when a directory is left, or at the end, is everything below, as long as
the enumerations have come to their end (`Enumerated`).  From these follow the two halves of
the law of the move (`exact_relocation`): a tree that is moved as a whole is an empty directory
where it was and lies over what was at the destination; and after a first failure the files that
were visited before it are at the destination, and all others are where they were.
-/
namespace Offs.MoveTree
open CText TreeWalk

namespace Setting
variable (s : Setting)

/-! ## After some visits -/

/-- The visit takes this away from the source. -/
def takes : Visit Text → Place → Bool
  | .enter _, _ => false
  | .file r, q => r = q
  | .leave r, q => r ≠ [] ∧ r <+: q

/-- The visit makes this a directory of the destination. -/
def makes : Visit Text → Place → Bool
  | .enter r, q => q <+: r
  | _, _ => false

def srcAfter (done : List (Visit Text)) (q : Place) : Option Node :=
  if done.any (takes · q) then none else s.inSrc s.disk q

def dstAfter (done : List (Visit Text)) (q : Place) : Option Node :=
  if .file q ∈ done then s.inSrc s.disk q
  else if done.any (makes · q) then some .dir
  else s.inDst s.disk q

/-- **What has been done** on the disk `d` by the visits `done`: what is left in the source, what
is at the destination, and which directories above it have been made.  All of it is told by the
disk at the beginning and the list of visits, so that it does not matter in which order they came.
-/
structure Done (done : List (Visit Text)) (d : Disk) : Prop where
  src_eq : ∀ q, s.inSrc d q = s.srcAfter done q
  dst_eq : ∀ q, s.inDst d q = s.dstAfter done q
  /-- The directories above the destination. -/
  above_eq : ∀ q, q <+: s.dst.place → q ≠ s.dst.place →
    d q = if done.any (makes · []) then some .dir else s.disk q
  moved : ∀ q, .file q ∈ done → ∃ content, s.inSrc s.disk q = some (.file content)
  entered : ∀ r, .enter r ∈ done → s.disk.free (s.dst.place ++ r) = true

variable {s} {done : List (Visit Text)} {d : Disk} {rel q : Place} {v : Visit Text}

theorem done_nil : Done s [] s.disk where
  src_eq _ := rfl
  dst_eq _ := rfl
  above_eq _ _ _ := rfl
  moved q h := by cases h
  entered r h := by cases h

/-- What is not settled is still in the source. -/
theorem src_eq_of_settled (hdone : Done s done d) (hsettled : ∀ u ∈ done, Settled u v) :
    s.inSrc d v.path = s.inSrc s.disk v.path := by
  rw [hdone.src_eq, srcAfter, if_neg]
  intro hany
  obtain ⟨u, hu, htakes⟩ := List.any_eq_true.mp hany
  have hsettled := hsettled u hu
  rcases u with r | r | r
  · cases htakes
  · obtain rfl : r = v.path := by simpa [takes] using htakes
    exact hsettled List.prefix_rfl
  · have hr : r ≠ [] ∧ r <+: v.path := by simpa [takes] using htakes
    exact hsettled hr.2

theorem above_or_below (h : q <+: s.dst.place ++ rel) :
    (∃ r, q = s.dst.place ++ r ∧ r <+: rel) ∨ (q <+: s.dst.place ∧ q ≠ s.dst.place) := by
  rcases List.prefix_or_prefix_of_prefix h (List.prefix_append s.dst.place rel) with habove | hbelow
  · by_cases hq : q = s.dst.place
    · exact .inl ⟨[], by simpa using hq, List.nil_prefix⟩
    · exact .inr ⟨habove, hq⟩
  · obtain ⟨r, rfl⟩ := hbelow
    exact .inl ⟨r, rfl, (List.prefix_append_right_inj _).mp h⟩

/-- A directory that has been made was free. -/
theorem free_of_makes (hdone : Done s done d) (hmakes : done.any (makes · q) = true) :
    ∀ r, r <+: s.dst.place ++ q → ∀ content, s.disk r ≠ some (.file content) := by
  obtain ⟨u, hu, hq⟩ := List.any_eq_true.mp hmakes
  rcases u with r | r | r
  · have hqr : q <+: r := by simpa [makes] using hq
    intro r' hr'
    refine (free_iff s.disk _).mp (hdone.entered r hu) r' (hr'.trans ?_)
    exact (List.prefix_append_right_inj _).mpr hqr
  · cases hq
  · cases hq

/-- **Whether a directory can be made** depends on the disk at the beginning. -/
theorem free_of_done (hdone : Done s done d) (hsettled : ∀ u ∈ done, Settled u (.enter rel)) :
    d.free (s.dst.place ++ rel) = true ↔ s.disk.free (s.dst.place ++ rel) = true := by
  rw [free_iff, free_iff]
  constructor
  · intro h q hq content hfile
    have hd := h q hq
    rcases above_or_below hq with ⟨r, rfl, hr⟩ | ⟨habove, hne⟩
    · have hdst : s.inDst d r = s.dstAfter done r := hdone.dst_eq r
      rw [dstAfter] at hdst
      split at hdst
      · rename_i hmoved
        obtain ⟨content', hcontent'⟩ := hdone.moved r hmoved
        exact hd content' (hdst.trans hcontent')
      · split at hdst
        · rename_i hmakes
          exact free_of_makes hdone hmakes _ List.prefix_rfl content hfile
        · exact hd content (hdst.trans hfile)
    · have hq' := hdone.above_eq q habove hne
      split at hq'
      · rename_i hmakes
        exact free_of_makes hdone hmakes q (habove.trans (List.prefix_append _ _)) content hfile
      · exact hd content (hq'.trans hfile)
  · intro h q hq content hfile
    have hdisk := h q hq
    rcases above_or_below hq with ⟨r, rfl, hr⟩ | ⟨habove, hne⟩
    · have hdst : s.inDst d r = s.dstAfter done r := hdone.dst_eq r
      rw [dstAfter] at hdst
      split at hdst
      · rename_i hmoved
        exact hsettled _ hmoved hr
      · split at hdst
        · cases hfile.symm.trans hdst
        · exact hdisk content (hdst.symm.trans hfile)
    · have hq' := hdone.above_eq q habove hne
      split at hq'
      · cases hfile.symm.trans hq'
      · exact hdisk content (hq'.symm.trans hfile)

/-! ## Which visits pass -/

/-- There is a file at this path of the source. -/
def isFile (s : Setting) (rel : Place) : Bool := (s.inSrc s.disk rel).any (!·.isDir)

/-- **The visit succeeds**, by what is on the disk at the beginning and by what its calls
meet. -/
def passes (s : Setting) : Visit Text → Bool
  | .enter rel => (rel = [] || s.fits rel && s.statable rel) &&
      s.world.mkdirs (s.dst.place ++ rel) && s.disk.free (s.dst.place ++ rel) &&
      (openSource s.os s.world.calls s.disk (s.src.below s.os rel)).isSome
  | .file rel => s.fits rel && s.statable rel && s.isFile rel &&
      s.world.moves (s.src.place ++ rel) && s.inDst s.disk rel ≠ some .dir
  | .leave rel => listedWhole s.os (s.world.listing (s.src.place ++ rel)) &&
      (rel = [] || s.world.removes (s.src.place ++ rel))

theorem openSource_congr {d' : Disk} (h : s.inSrc d rel = s.inSrc d' rel) :
    openSource s.os s.world.calls d (s.src.below s.os rel) =
      openSource s.os s.world.calls d' (s.src.below s.os rel) := by
  have hplace : d (s.src.place ++ rel) = d' (s.src.place ++ rel) := h
  simp [openSource, World.calls, hplace]

/-- What a directory that can be entered comes to. -/
theorem visit_enter_ok :
    (s.visit (.enter rel) d).2 = true ↔ (rel = [] ∨ (s.fits rel = true ∧ s.statable rel = true)) ∧
      (s.world.mkdirs (s.dst.place ++ rel) = true ∧ d.free (s.dst.place ++ rel) = true) ∧
      (openSource s.os s.world.calls d (s.src.below s.os rel)).isSome = true := by
  rw [visit, ← mkdirP_ok]
  by_cases hblocked : rel ≠ [] ∧ ¬(s.fits rel = true ∧ s.statable rel = true)
  · rw [if_pos hblocked]
    simp only [Bool.false_eq_true, false_iff]
    rintro ⟨hfits, -⟩
    exact hfits.elim hblocked.1 hblocked.2
  · have hfits : rel = [] ∨ (s.fits rel = true ∧ s.statable rel = true) := by
      by_cases hrel : rel = []
      · exact .inl hrel
      · exact .inr (not_not.mp fun h => hblocked ⟨hrel, h⟩)
    rw [if_neg hblocked]
    have hsrc : s.inSrc (s.world.calls.mkdirP d (s.dst.below s.os rel)).1 rel = s.inSrc d rel :=
      mkdirP_src s d rel rel
    rcases hmkdir : s.world.calls.mkdirP d (s.dst.below s.os rel) with ⟨d', _ | _⟩
    · simp
    · rw [hmkdir] at hsrc
      simp [hfits, openSource_congr hsrc]

theorem visit_file_ok :
    (s.visit (.file rel) d).2 = true ↔ (s.fits rel = true ∧ s.statable rel = true) ∧
      (∃ content, s.inSrc d rel = some (.file content)) ∧
      s.world.moves (s.src.place ++ rel) = true ∧ s.inDst d rel ≠ some .dir := by
  rw [visit]
  by_cases hfits : s.fits rel = true ∧ s.statable rel = true
  · rw [if_neg (not_not.mpr hfits)]
    simp only [hfits, true_and]
    constructor
    · intro h
      obtain ⟨content, hcontent, hmoves, hdst, -⟩ := move_ok s h
      exact ⟨⟨content, hcontent⟩, hmoves, hdst⟩
    · rintro ⟨⟨content, hcontent⟩, hmoves, hdst⟩
      have hsrc : d (s.src.place ++ rel) = some (.file content) := hcontent
      have hdst' : d (s.dst.place ++ rel) ≠ some .dir := hdst
      simp [World.calls, hsrc, hmoves, hdst']
  · rw [if_pos hfits]
    simp [hfits]

theorem visit_leave_ok :
    (s.visit (.leave rel) d).2 = true ↔
      listedWhole s.os (s.world.listing (s.src.place ++ rel)) = true ∧
      (rel = [] ∨ s.world.removes (s.src.place ++ rel) = true) := by
  rw [visit]
  rcases hwhole : listedWhole s.os (s.world.listing (s.src.place ++ rel)) with _ | _
  · simp
  · by_cases hrel : rel = []
    · simp [hrel]
    · simp [hrel, rmRf_ok]

/-- Whatever has something below it is a directory. -/
theorem dir_of_isPrefix {p r : Place} (h : s.disk r ≠ none) (hp : p <+: r) (hne : p ≠ r) :
    s.disk p = some .dir := by
  obtain ⟨t, rfl⟩ := hp
  exact PathTree.dir_of_below s.closed (by rintro rfl; simp at hne) h

/-- Nothing below a file is entered. -/
theorem not_isPrefix_of_file {content : List UInt8} (hfile : s.inSrc s.disk rel = some (.file content))
    (hrel : rel ≠ []) {r : Place} (hr : .enter r ∈ s.visits) : ¬rel <+: r := by
  intro hp
  rcases walk_ofKind hr with rfl | hdir
  · exact hrel (List.prefix_nil.mp hp)
  · have hdir' : s.disk (s.src.place ++ r) = some .dir := of_decide_eq_true hdir
    have hfile' : s.disk (s.src.place ++ rel) = some (.file content) := hfile
    by_cases hne : rel = r
    · subst hne
      rw [hdir'] at hfile'
      cases hfile'
    · have habove := dir_of_isPrefix (s := s) (p := s.src.place ++ rel)
        (by rw [hdir']; simp) ((List.prefix_append_right_inj _).mpr hp) (by simpa using hne)
      rw [habove] at hfile'
      cases hfile'

theorem isFile_iff : s.isFile rel = true ↔ ∃ content, s.inSrc s.disk rel = some (.file content) := by
  rw [isFile]
  rcases s.inSrc s.disk rel with _ | content | _ <;> simp [Node.isDir]

/-- What has not been moved and lies below no directory of the source is as it was. -/
theorem dst_eq_of_file (hdone : Done s done d) (hsub : ∀ u ∈ done, u ∈ s.visits)
    {content : List UInt8} (hfile : s.inSrc s.disk rel = some (.file content)) (hrel : rel ≠ [])
    (hmoved : .file rel ∉ done) : s.inDst d rel = s.inDst s.disk rel := by
  rw [hdone.dst_eq, dstAfter, if_neg hmoved, if_neg]
  intro hany
  obtain ⟨u, hu, hmakes⟩ := List.any_eq_true.mp hany
  rcases u with r | r | r
  · exact not_isPrefix_of_file hfile hrel (hsub _ hu) (by simpa [makes] using hmakes)
  · cases hmakes
  · cases hmakes

section Steps
variable {before after : List (Visit Text)}

theorem settled_of_visits (hvisits : s.visits = before ++ v :: after) :
    ∀ u ∈ before, Settled u v := by
  intro u hu
  have hpairwise : s.visits.Pairwise Settled := walk_settled s.listed_once bufferSize []
  rw [hvisits, List.pairwise_append] at hpairwise
  exact hpairwise.2.2 u hu v List.mem_cons_self

/-- **A visit succeeds just if it passes.** -/
theorem visit_ok_iff (hvisits : s.visits = before ++ v :: after) (hdone : Done s before d) :
    (s.visit v d).2 = true ↔ s.passes v = true := by
  have hsettled := settled_of_visits hvisits
  have hsrc := src_eq_of_settled hdone hsettled
  rcases v with rel | rel | rel
  · have hsrc : s.inSrc d rel = s.inSrc s.disk rel := hsrc
    rw [visit_enter_ok, free_of_done hdone hsettled, openSource_congr hsrc]
    simp [passes, and_assoc]
  · rw [visit_file_ok]
    have hsrc : s.inSrc d rel = s.inSrc s.disk rel := hsrc
    by_cases hfile : ∃ content, s.inSrc s.disk rel = some (.file content)
    · obtain ⟨content, hcontent⟩ := hfile
      have hmem : .file rel ∈ s.visits := by rw [hvisits]; simp
      have hdst : s.inDst d rel = s.inDst s.disk rel := by
        refine dst_eq_of_file hdone ?_ hcontent (walk_file_ne hmem) ?_
        · intro u hu
          rw [hvisits]
          exact List.mem_append_left _ hu
        · intro hmoved
          exact hsettled _ hmoved List.prefix_rfl
      have hisFile : s.isFile rel = true := isFile_iff.mpr ⟨content, hcontent⟩
      rw [hsrc, hdst]
      simp [passes, hisFile, hcontent, and_assoc]
    · have hisFile : s.isFile rel = false := by
        rw [← Bool.not_eq_true, isFile_iff]
        exact hfile
      rw [hsrc]
      simp [passes, hisFile, hfile]
  · rw [visit_leave_ok]
    simp [passes]

theorem any_snoc (f : Visit Text → Bool) (done : List (Visit Text)) (v : Visit Text) :
    (done ++ [v]).any f = (done.any f || f v) := by simp

theorem done_enter (hdone : Done s done d) (hsettled : ∀ u ∈ done, Settled u (.enter rel))
    (hok : (s.visit (.enter rel) d).2 = true) :
    Done s (done ++ [.enter rel]) (s.visit (.enter rel) d).1 := by
  obtain ⟨hfits, ⟨hmkdirs, hfree⟩, hopen⟩ := visit_enter_ok.mp hok
  have hmkdir := (mkdirP_ok s d rel).mpr ⟨hmkdirs, hfree⟩
  have hafter : (s.visit (.enter rel) d).1 = (s.world.calls.mkdirP d (s.dst.below s.os rel)).1 := by
    rw [visit, if_neg]
    · rcases s.world.calls.mkdirP d (s.dst.below s.os rel) with ⟨d', _ | _⟩ <;> rfl
    · rintro ⟨hrel, hnot⟩
      exact hfits.elim hrel hnot
  have hno : ∀ q, (Visit.file q ∈ done ++ [Visit.enter rel]) = (Visit.file q ∈ done) := by simp
  refine ⟨fun q => ?_, fun q => ?_, fun q hq hne => ?_, fun q hq => ?_, fun r hr => ?_⟩
  · rw [enter_src, hdone.src_eq, srcAfter, srcAfter, any_snoc]
    simp [takes]
  · rw [hafter, mkdirP_dst s hmkdir]
    simp only [dstAfter, hno, any_snoc]
    by_cases hmoved : .file q ∈ done
    · rw [if_pos hmoved, if_neg, hdone.dst_eq, dstAfter, if_pos hmoved]
      exact hsettled _ hmoved
    · by_cases hq : q <+: rel
      · simp [hmoved, hq, makes]
      · rw [if_neg hq, hdone.dst_eq, dstAfter]
        simp [hmoved, hq, makes]
  · have hfalse : q <+: s.dst.place ++ rel := hq.trans (List.prefix_append _ _)
    rw [hafter]
    simp only [World.calls, below_place, if_pos (⟨hmkdirs, hfree⟩ : _ ∧ _), if_pos hfalse, any_snoc]
    simp [makes]
  · exact hdone.moved q (by simpa using hq)
  · rcases List.mem_append.mp hr with hold | hnew
    · exact hdone.entered r hold
    · obtain rfl : r = rel := by simpa using hnew
      exact (free_of_done hdone hsettled).mp hfree

theorem done_file (hdone : Done s done d) (hsettled : ∀ u ∈ done, Settled u (.file rel))
    (hok : (s.visit (.file rel) d).2 = true) :
    Done s (done ++ [.file rel]) (s.visit (.file rel) d).1 := by
  obtain ⟨hfits, -, -, -⟩ := visit_file_ok.mp hok
  have hvisit : s.visit (.file rel) d =
      s.world.calls.fileMoveVerified d (s.src.below s.os rel) (s.dst.below s.os rel) := by
    rw [visit, if_neg (not_not.mpr hfits)]
  rw [hvisit] at hok ⊢
  obtain ⟨content, hcontent, hmoves, hdst, hafter⟩ := move_ok s hok
  have hdisk : s.inSrc s.disk rel = some (.file content) :=
    (src_eq_of_settled hdone hsettled).symm.trans hcontent
  refine ⟨fun q => ?_, fun q => ?_, fun q hq hne => ?_, fun q hq => ?_, fun r hr => ?_⟩
  · rw [(hafter q).1, hdone.src_eq, srcAfter, srcAfter, any_snoc]
    by_cases hq : q = rel
    · simp [hq, takes]
    · simp [hq, Ne.symm hq, takes]
  · rw [(hafter q).2, hdone.dst_eq, dstAfter, dstAfter, any_snoc]
    by_cases hq : q = rel
    · simp [hq, hdisk]
    · simp [hq, makes]
  · have hsrc : q ≠ s.src.place ++ rel := by
      rintro rfl
      exact not_src_isPrefix_above rel hq List.prefix_rfl
    have hdst : q ≠ s.dst.place ++ rel := by
      rintro rfl
      refine hne ?_
      have hlength := hq.length_le
      rw [List.length_append] at hlength
      rw [List.eq_nil_of_length_eq_zero (by omega : rel.length = 0), List.append_nil]
    rw [move_elsewhere s d rel hsrc hdst, hdone.above_eq q hq hne, any_snoc]
    simp [makes]
  · rcases List.mem_append.mp hq with hold | hnew
    · exact hdone.moved q hold
    · obtain rfl : q = rel := by simpa using hnew
      exact ⟨content, hdisk⟩
  · exact hdone.entered r (by simpa using hr)

/-- The root is left as it is. -/
theorem visit_leave_nil (hwhole : listedWhole s.os (s.world.listing (s.src.place ++ [])) = true) :
    s.visit (.leave []) d = (d, true) := by
  rw [visit, hwhole]
  rfl

theorem visit_leave (hwhole : listedWhole s.os (s.world.listing (s.src.place ++ rel)) = true)
    (hrel : rel ≠ []) :
    s.visit (.leave rel) d = s.world.calls.rmRf d (s.src.below s.os rel) := by
  rw [visit, hwhole]
  simp [hrel]

theorem done_of_leave {d' : Disk} (hdone : Done s done d)
    (hsrc : ∀ q, s.inSrc d' q = s.srcAfter (done ++ [.leave rel]) q)
    (hdst : ∀ q, s.inDst d' q = s.inDst d q)
    (habove : ∀ q, q <+: s.dst.place → q ≠ s.dst.place → d' q = d q) :
    Done s (done ++ [.leave rel]) d' := by
  have hmem : ∀ q, (Visit.file q ∈ done ++ [Visit.leave rel]) = (Visit.file q ∈ done) := by simp
  have hmakes : ∀ q, (done ++ [Visit.leave rel]).any (makes · q) = done.any (makes · q) := by
    simp [makes]
  refine ⟨hsrc, fun q => ?_, fun q hq hne => ?_, fun q hq => ?_, fun r hr => ?_⟩
  · simp only [hdst, hdone.dst_eq, dstAfter, hmem, hmakes]
  · rw [habove q hq hne, hdone.above_eq q hq hne, hmakes]
  · exact hdone.moved q (by simpa using hq)
  · exact hdone.entered r (by simpa using hr)

theorem done_leave (hdone : Done s done d) (hok : (s.visit (.leave rel) d).2 = true) :
    Done s (done ++ [.leave rel]) (s.visit (.leave rel) d).1 := by
  obtain ⟨hwhole, hremoves⟩ := visit_leave_ok.mp hok
  by_cases hrel : rel = []
  · subst hrel
    rw [visit_leave_nil hwhole]
    refine done_of_leave hdone (fun q => ?_) (fun _ => rfl) (fun _ _ _ => rfl)
    rw [hdone.src_eq, srcAfter, srcAfter, any_snoc]
    simp [takes]
  · have hremoves : s.world.removes (s.src.place ++ rel) = true := hremoves.resolve_left hrel
    rw [visit_leave hwhole hrel]
    refine done_of_leave hdone (fun q => ?_) (fun q => ?_) (fun q hq _ => ?_)
    · rw [rmRf_src, hdone.src_eq, srcAfter, srcAfter, any_snoc]
      by_cases hq : rel <+: q
      · simp [hq, hremoves, takes, hrel]
      · simp [hq, takes]
    · exact rmRf_dst s d rel q
    · exact rmRf_elsewhere s d rel (not_src_isPrefix_above rel hq)

/-- **A visit that succeeds is added to what has been done.** -/
theorem done_visit (hvisits : s.visits = before ++ v :: after) (hdone : Done s before d)
    (hok : (s.visit v d).2 = true) : Done s (before ++ [v]) (s.visit v d).1 := by
  have hsettled := settled_of_visits hvisits
  rcases v with rel | rel | rel
  · exact done_enter hdone hsettled hok
  · exact done_file hdone hsettled hok
  · exact done_leave hdone hok

/-- **So is every visit of a run.** -/
theorem done_run (hvisits : s.visits = before ++ after)
    (hok : (run s.visit before s.disk).2 = true) : Done s before (run s.visit before s.disk).1 :=
  run_invariant done_nil (fun hsplit hdone hv => done_visit hsplit hdone hv) hvisits hok

/-- **How far a run comes** is known beforehand. -/
theorem run_ok_iff (hvisits : s.visits = before ++ after) :
    (run s.visit before s.disk).2 = true ↔ ∀ v ∈ before, s.passes v = true := by
  induction before using List.reverseRecOn generalizing after with
  | nil => simp
  | append_singleton before v ih =>
    have hsplit : s.visits = before ++ v :: after := by simpa using hvisits
    have hbefore := ih hsplit
    by_cases hok : (run s.visit before s.disk).2 = true
    · rw [run_append_of_ok hok, run_singleton, visit_ok_iff hsplit (done_run hsplit hok)]
      have hall := hbefore.mp hok
      constructor
      · intro hv u hu
        rcases List.mem_append.mp hu with hu | hu
        · exact hall u hu
        · rw [List.mem_singleton.mp hu]
          exact hv
      · intro h
        exact h v (by simp)
    · rw [run_append_of_failure (by simpa using hok)]
      constructor
      · intro h
        exact absurd h hok
      · intro h
        exact hbefore.mpr fun u hu => h u (List.mem_append_left _ hu)

/-! ## The visit that fails -/

/-- It takes nothing away from the source, unless it is a removal. -/
theorem src_of_failure (h : (s.visit v d).2 = false) (q : Place) :
    s.inSrc (s.visit v d).1 q = s.inSrc d q ∨
      ∃ rel, v = .leave rel ∧ rel ≠ [] ∧ rel <+: q ∧
        listedWhole s.os (s.world.listing (s.src.place ++ rel)) = true ∧
        s.world.removed (s.src.place ++ rel) (s.src.place ++ q) = true ∧
        s.inSrc (s.visit v d).1 q = none := by
  rcases v with rel | rel | rel
  · exact .inl (enter_src rel q)
  · refine .inl ?_
    rw [visit] at h ⊢
    split at h
    · rw [if_pos ‹_›]
    · rw [if_neg ‹_›]
      exact (move_failure s h q).1
  · by_cases hwhole : listedWhole s.os (s.world.listing (s.src.place ++ rel)) = true
    · by_cases hrel : rel = []
      · subst hrel
        rw [visit_leave_nil hwhole] at h
        cases h
      · rw [visit_leave hwhole hrel, rmRf_ok] at h
        rw [visit_leave hwhole hrel, rmRf_src]
        split
        · rename_i hremoved
          have hremoved' := hremoved.2.resolve_left (by simp [h])
          exact .inr ⟨rel, rfl, hrel, hremoved.1, hwhole, hremoved', rfl⟩
        · exact .inl rfl
    · refine .inl ?_
      rw [visit, if_pos (by simpa using hwhole)]

/-- At the destination it changes its own path, and makes directories on the way there. -/
theorem dst_of_failure (h : (s.visit v d).2 = false) (hq : q ≠ v.path) :
    s.inDst (s.visit v d).1 q = s.inDst d q ∨
      (q <+: v.path ∧ s.inDst d q = none ∧ s.inDst (s.visit v d).1 q = some .dir) := by
  rcases v with rel | rel | rel
  · rw [visit]
    split
    · exact .inl rfl
    · by_cases hmkdir : (s.world.calls.mkdirP d (s.dst.below s.os rel)).2 = true
      · have hafter := mkdirP_dst s hmkdir q
        obtain ⟨-, hfree⟩ := (mkdirP_ok s d rel).mp hmkdir
        rcases hresult : s.world.calls.mkdirP d (s.dst.below s.os rel) with ⟨d', _ | _⟩
        · rw [hresult] at hmkdir
          cases hmkdir
        · rw [hresult] at hafter
          dsimp only
          by_cases hqrel : q <+: rel
          · rw [if_pos hqrel] at hafter
            have hnofile := (free_iff d _).mp hfree (s.dst.place ++ q)
              ((List.prefix_append_right_inj _).mpr hqrel)
            rcases hnode : s.inDst d q with _ | content | _
            · exact .inr ⟨hqrel, rfl, hafter⟩
            · exact absurd hnode (hnofile content)
            · exact .inl hafter
          · rw [if_neg hqrel] at hafter
            exact .inl hafter
      · have hfailed := mkdirP_dst_of_failure s (by simpa using hmkdir) q
        rcases hresult : s.world.calls.mkdirP d (s.dst.below s.os rel) with ⟨d', _ | _⟩ <;>
          rw [hresult] at hfailed <;> exact hfailed
  · refine .inl ?_
    rw [visit] at h ⊢
    split at h
    · rw [if_pos ‹_›]
    · rw [if_neg ‹_›]
      exact (move_failure s h q).2 hq
  · exact .inl (leave_dst rel q)

end Steps

/-! ## What has been visited -/

/-- Every directory has been enumerated to its end. -/
def Enumerated (s : Setting) : Prop :=
  ∀ rel, s.isDir rel = true → (s.world.listing (s.src.place ++ rel)).complete = true

section Visited
variable {before after : List (Visit Text)} {r : Place}

theorem dir_of_passes (h : s.passes (.enter r) = true) : s.inSrc s.disk r = some .dir := by
  have hopen : (openSource s.os s.world.calls s.disk (s.src.below s.os r)).isSome = true := by
    simp only [passes, Bool.and_eq_true] at h
    exact h.2
  simp only [openSource, World.calls, below_place] at hopen
  split at hopen
  · cases hopen
  · split at hopen
    · rename_i hdir
      exact hdir.2
    · cases hopen

/-- A path that has been entered is not too deep. -/
theorem length_lt_of_passes (h : s.passes (.enter r) = true) : r.length < bufferSize := by
  simp only [passes, Bool.and_eq_true, Bool.or_eq_true, decide_eq_true_eq] at h
  rcases h.1.1.1 with rfl | ⟨hfits, -⟩
  · exact Nat.zero_lt_succ _
  · have hlength := @length_le_below s.os s.src r
    simp only [fits, Path.fits, Bool.and_eq_true, decide_eq_true_eq] at hfits
    omega

/-- **All that is below a directory has been visited**, if its visits are done and the
enumerations have come to their end. -/
theorem visited_below (hcomplete : ∀ p, r <+: p → .enter p ∈ before → s.isDir p = true →
      (s.world.listing (s.src.place ++ p)).complete = true)
    (hpasses : ∀ u ∈ before, s.passes u = true) (hr : .enter r ∈ before)
    (hclosed : ∀ u ∈ s.visits, r <+: u.path → u ≠ .leave r → u ∈ before)
    (hsub : ∀ u ∈ before, u ∈ s.visits) (t : Place) (ht : s.inSrc s.disk (r ++ t) ≠ none) :
    t = [] ∨ if s.isDir (r ++ t) then .enter (r ++ t) ∈ before else .file (r ++ t) ∈ before := by
  induction t using List.reverseRecOn with
  | nil => exact .inl rfl
  | append_singleton t name ih =>
    refine .inr ?_
    rw [← List.append_assoc] at ht ⊢
    have hplace : s.disk (s.src.place ++ (r ++ t) ++ [name]) ≠ none := by
      rw [List.append_assoc]
      exact ht
    have hparent : s.inSrc s.disk (r ++ t) = some .dir := s.closed _ name hplace
    have hdir : s.isDir (r ++ t) = true := by simp [isDir, hparent]
    have henter : .enter (r ++ t) ∈ before := by
      rcases ih (by simp [hparent]) with rfl | hmem
      · rw [List.append_nil]
        exact hr
      · rwa [if_pos hdir] at hmem
    have hname : name ∈ s.names (r ++ t) :=
      s.listed_all (r ++ t) name (hcomplete _ (List.prefix_append r t) henter hdir) hplace
    have hlevel : (r ++ t).length < ([] : Place).length + bufferSize := by
      have := length_lt_of_passes (hpasses _ henter)
      simpa using this
    have hchild := walk_child (hsub _ henter) hlevel hname
    have hbelow : r <+: r ++ t ++ [name] := by
      rw [List.append_assoc]
      exact List.prefix_append r _
    split at hchild
    · rw [if_pos ‹_›]
      exact hclosed _ hchild hbelow (by simp)
    · rw [if_neg ‹_›]
      exact hclosed _ hchild hbelow (by simp)

/-- What is below a directory comes before it is left. -/
theorem mem_before_leave (hvisits : s.visits = before ++ .leave r :: after) {u : Visit Text}
    (hu : u ∈ s.visits) (hbelow : r <+: u.path) (hne : u ≠ .leave r) : u ∈ before := by
  have hpairwise : s.visits.Pairwise Settled := walk_settled s.listed_once bufferSize []
  rw [hvisits, List.pairwise_append, List.pairwise_cons] at hpairwise
  rw [hvisits] at hu
  rcases List.mem_append.mp hu with hu | hu
  · exact hu
  · rcases List.mem_cons.mp hu with rfl | hu
    · exact absurd rfl hne
    · exact absurd hbelow (hpairwise.2.1.1 u hu)

/-- **A directory is left when its files have been moved.** -/
theorem file_mem_of_leave (hcomplete : ∀ p, r <+: p → .enter p ∈ before → s.isDir p = true →
      (s.world.listing (s.src.place ++ p)).complete = true)
    (hvisits : s.visits = before ++ .leave r :: after)
    (hpasses : ∀ u ∈ before, s.passes u = true) (hq : r <+: q) {content : List UInt8}
    (hfile : s.inSrc s.disk q = some (.file content)) : .file q ∈ before := by
  obtain ⟨t, rfl⟩ := hq
  have hleave : .leave r ∈ s.visits := by rw [hvisits]; simp
  have henter : .enter r ∈ before :=
    mem_before_leave hvisits (walk_enter hleave) List.prefix_rfl (by simp)
  rcases visited_below hcomplete hpasses henter
    (fun u hu hbelow hne => mem_before_leave hvisits hu hbelow hne)
    (fun u hu => by rw [hvisits]; exact List.mem_append_left _ hu) t (by simp [hfile]) with
    rfl | hvisited
  · rw [List.append_nil, dir_of_passes (hpasses _ henter)] at hfile
    cases hfile
  · rwa [if_neg (by simp [isDir, hfile])] at hvisited

/-- **All has been visited** when all visits have passed. -/
theorem visited_of_passes (hcomplete : s.Enumerated) (hpasses : ∀ u ∈ s.visits, s.passes u = true)
    (hq : s.inSrc s.disk q ≠ none) :
    if s.isDir q then .enter q ∈ s.visits else .file q ∈ s.visits := by
  have hroot : .enter [] ∈ s.visits := enter_mem_walk
  rcases visited_below (fun p _ _ => hcomplete p) hpasses hroot (fun u hu _ _ => hu)
    (fun u hu => hu) q hq with rfl | hvisited
  · have hdir : s.isDir [] = true := by simp [isDir, dir_of_passes (hpasses _ hroot)]
    rwa [if_pos hdir]
  · exact hvisited

end Visited

/-! ## Moves that succeed -/

section Success
variable (hcomplete : s.Enumerated) (hpasses : ∀ u ∈ s.visits, s.passes u = true)
include hcomplete hpasses

/-- The source is an empty directory. -/
theorem srcAfter_visits (q : Place) :
    s.srcAfter s.visits q = if q = [] then some .dir else none := by
  have hroot : s.inSrc s.disk [] = some .dir := dir_of_passes (hpasses _ enter_mem_walk)
  rw [srcAfter]
  by_cases hq : q = []
  · subst hq
    rw [if_pos rfl, if_neg, hroot]
    intro hany
    obtain ⟨u, hu, htakes⟩ := List.any_eq_true.mp hany
    rcases u with r | r | r
    · cases htakes
    · exact walk_file_ne hu (of_decide_eq_true htakes)
    · have hr : r ≠ [] ∧ r <+: [] := of_decide_eq_true htakes
      exact hr.1 (List.prefix_nil.mp hr.2)
  · rw [if_neg hq]
    by_cases hnone : s.inSrc s.disk q = none
    · rw [hnone, ite_self]
    · rw [if_pos]
      have hvisited := visited_of_passes hcomplete hpasses hnone
      refine List.any_eq_true.mpr ?_
      split at hvisited
      · have hlevel : q.length < ([] : Place).length + bufferSize := by
          have := length_lt_of_passes (hpasses _ hvisited)
          simpa using this
        exact ⟨.leave q, walk_leave hvisited hlevel, by simp [takes, hq]⟩
      · exact ⟨.file q, hvisited, by simp [takes]⟩

/-- The destination is what it was, and over it the source. -/
theorem dstAfter_visits (q : Place) :
    s.dstAfter s.visits q = (s.inSrc s.disk q).or (s.inDst s.disk q) := by
  have hroot : s.inSrc s.disk [] = some .dir := dir_of_passes (hpasses _ enter_mem_walk)
  rw [dstAfter]
  rcases hnode : s.inSrc s.disk q with _ | content | _
  · have hfile : .file q ∉ s.visits := by
      intro hfile
      have hpass := hpasses _ hfile
      simp [passes, isFile, hnode] at hpass
    rw [if_neg hfile, if_neg]
    · rfl
    · intro hany
      obtain ⟨u, hu, hmakes⟩ := List.any_eq_true.mp hany
      rcases u with r | r | r
      · have hqr : q <+: r := by simpa [makes] using hmakes
        have hdir := dir_of_passes (hpasses _ hu)
        by_cases hne : q = r
        · rw [hne, hdir] at hnode
          cases hnode
        · have habove : s.disk (s.src.place ++ q) = some .dir :=
            dir_of_isPrefix (r := s.src.place ++ r) (by rw [show s.disk _ = _ from hdir]; simp)
              ((List.prefix_append_right_inj _).mpr hqr) (by simpa using hne)
          cases hnode.symm.trans habove
      · cases hmakes
      · cases hmakes
  · have hvisited := visited_of_passes hcomplete hpasses (q := q) (by simp [hnode])
    rw [if_neg (by simp [isDir, hnode])] at hvisited
    rw [if_pos hvisited]
    rfl
  · have hdir : s.isDir q = true := by simp [isDir, hnode]
    have hvisited := visited_of_passes hcomplete hpasses (q := q) (by simp [hnode])
    rw [if_pos hdir] at hvisited
    have hfile : .file q ∉ s.visits := by
      intro hfile
      have hkind : s.isDir q = false := walk_ofKind hfile
      simp [hdir] at hkind
    rw [if_neg hfile, if_pos]
    · rfl
    · exact List.any_eq_true.mpr ⟨.enter q, hvisited, by simp [makes]⟩

end Success

/-! ## Moves that fail -/

section Failure
variable {before after : List (Visit Text)} (hvisits : s.visits = before ++ v :: after)
  (hdone : Done s before d) (hfailure : (s.visit v d).2 = false)
include hdone hfailure

include hvisits in
/-- What has been moved stays moved. -/
theorem moved_of_failure (hq : .file q ∈ before) :
    s.inSrc (s.visit v d).1 q = none ∧ s.inDst (s.visit v d).1 q = s.inSrc s.disk q := by
  obtain ⟨content, hcontent⟩ := hdone.moved q hq
  have hsrc : s.inSrc d q = none := by
    rw [hdone.src_eq, srcAfter, if_pos]
    exact List.any_eq_true.mpr ⟨.file q, hq, by simp [takes]⟩
  have hdst : s.inDst d q = s.inSrc s.disk q := by
    rw [hdone.dst_eq, dstAfter, if_pos hq]
  have hpath : q ≠ v.path := by
    rintro rfl
    exact settled_of_visits hvisits _ hq List.prefix_rfl
  constructor
  · rcases src_of_failure hfailure q with hsame | ⟨_, _, _, _, _, _, hnone⟩
    · exact hsame.trans hsrc
    · exact hnone
  · rcases dst_of_failure hfailure hpath with hsame | ⟨-, hnone, -⟩
    · exact hsame.trans hdst
    · rw [hdst, hcontent] at hnone
      cases hnone

/-- The destination has nothing but what has been done, and directories on the way. -/
theorem dstAfter_of_failure (hq : q ≠ v.path) :
    s.inDst (s.visit v d).1 q = s.dstAfter before q ∨
      (q <+: v.path ∧ s.inDst s.disk q = none ∧ s.inDst (s.visit v d).1 q = some .dir) := by
  rcases dst_of_failure hfailure hq with hsame | ⟨hqrel, hnone, hdir⟩
  · exact .inl (hsame.trans (hdone.dst_eq q))
  · refine .inr ⟨hqrel, ?_, hdir⟩
    rw [hdone.dst_eq, dstAfter] at hnone
    split at hnone
    · rename_i hmoved
      obtain ⟨content, hcontent⟩ := hdone.moved q hmoved
      cases hcontent.symm.trans hnone
    · split at hnone
      · cases hnone
      · exact hnone

include hvisits in
/-- What has not been moved is still there. -/
theorem kept_of_failure (hcomplete : s.Enumerated) (hpasses : ∀ u ∈ before, s.passes u = true)
    {content : List UInt8} (hfile : s.inSrc s.disk q = some (.file content))
    (hq : .file q ∉ before) : s.inSrc (s.visit v d).1 q = some (.file content) := by
  have hsrc : s.inSrc d q = some (.file content) := by
    rw [hdone.src_eq, srcAfter, if_neg, hfile]
    intro hany
    obtain ⟨u, hu, htakes⟩ := List.any_eq_true.mp hany
    rcases u with r | r | r
    · cases htakes
    · obtain rfl : r = q := of_decide_eq_true htakes
      exact hq hu
    · have hr : r ≠ [] ∧ r <+: q := of_decide_eq_true htakes
      obtain ⟨a, b, hsplit⟩ := List.append_of_mem hu
      have hvisits' : s.visits = a ++ .leave r :: (b ++ v :: after) := by
        rw [hvisits, hsplit]
        simp
      have hmem := file_mem_of_leave (fun p _ _ => hcomplete p) hvisits'
        (fun u hu => hpasses u (by rw [hsplit]; exact List.mem_append_left _ hu)) hr.2 hfile
      exact hq (by rw [hsplit]; exact List.mem_append_left _ hmem)
  rcases src_of_failure hfailure q with hsame | ⟨r, rfl, -, hr, -, -, -⟩
  · exact hsame.trans hsrc
  · exact absurd (file_mem_of_leave (fun p _ _ => hcomplete p) hvisits hpasses hr hfile) hq

end Failure

/-! ## The law of the move -/

/-- **A tree is moved as a whole, or up to the first failure.**  The visits before the one
that fails have moved their files and made their directories; all other files are where they
were, and nothing else has changed at the destination but the path of the failing visit, and
directories on the way to it. -/
theorem exact_relocation (s : Setting) (hcomplete : s.Enumerated) (uninitialised : Text)
    (report : Buffer) (moved : Moved Disk)
    (hmoved : cliCacheMoveTree s.os s.world.calls uninitialised s.src s.dst s.disk report = moved) :
    (moved.ok = true →
      (∀ q, s.inSrc moved.fs q = if q = [] then some .dir else none) ∧
      ∀ q, s.inDst moved.fs q = (s.inSrc s.disk q).or (s.inDst s.disk q)) ∧
    (moved.ok = false →
      ∃ before v after, s.visits = before ++ v :: after ∧
        (∀ u ∈ before, s.passes u = true) ∧ s.passes v = false ∧
        (∀ q, .file q ∈ before → s.inSrc moved.fs q = none ∧
          s.inDst moved.fs q = s.inSrc s.disk q) ∧
        (∀ q content, s.inSrc s.disk q = some (.file content) → .file q ∉ before →
          s.inSrc moved.fs q = some (.file content)) ∧
        ∀ q, q ≠ v.path → s.inDst moved.fs q = s.dstAfter before q ∨
          (q <+: v.path ∧ s.inDst s.disk q = none ∧ s.inDst moved.fs q = some .dir)) := by
  have hrun : (moved.fs, moved.ok) = run s.visit s.visits s.disk := by
    rw [← cliCacheMoveTree_run s uninitialised report, hmoved]
    rfl
  have hfs : moved.fs = (run s.visit s.visits s.disk).1 := congrArg Prod.fst hrun
  have hok : moved.ok = (run s.visit s.visits s.disk).2 := congrArg Prod.snd hrun
  constructor
  · intro hsuccess
    have hall : (run s.visit s.visits s.disk).2 = true := hok.symm.trans hsuccess
    have hsplit : s.visits = s.visits ++ [] := (List.append_nil _).symm
    have hpasses := (run_ok_iff hsplit).mp hall
    have hdone := done_run hsplit hall
    rw [hfs]
    refine ⟨fun q => ?_, fun q => ?_⟩
    · rw [hdone.src_eq, srcAfter_visits hcomplete hpasses]
    · rw [hdone.dst_eq, dstAfter_visits hcomplete hpasses]
  · intro hfailure
    rcases run_cases s.visit s.visits s.disk with hall | ⟨before, v, after, hvisits, hbefore, hv, hend⟩
    · rw [hok, hall] at hfailure
      cases hfailure
    · have hdone := done_run hvisits hbefore
      have hpasses := (run_ok_iff hvisits).mp hbefore
      have hfs : moved.fs = (s.visit v (run s.visit before s.disk).1).1 := by
        rw [hfs, hend]
      refine ⟨before, v, after, hvisits, hpasses, ?_, ?_, ?_, ?_⟩
      · rw [← Bool.not_eq_true, ← visit_ok_iff hvisits hdone, hv]
        simp
      · rw [hfs]
        exact fun q hq => moved_of_failure hvisits hdone hv hq
      · rw [hfs]
        exact fun q content hfile hq => kept_of_failure hvisits hdone hv hcomplete hpasses hfile hq
      · rw [hfs]
        exact fun q hq => dstAfter_of_failure hdone hv hq

end Setting

/-! ## A small tree -/

/-- A directory `s` with a subdirectory `u` and two files in it. -/
def smallDisk : Disk
  | [] => some .dir
  | [a] => if a = lit "s" then some .dir else none
  | [a, b] => if a = lit "s" ∧ b = lit "u" then some .dir else none
  | [a, b, c] =>
    if a = lit "s" ∧ b = lit "u" then
      if c = lit "a" then some (.file [1])
      else if c = lit "b" then some (.file [2])
      else none
    else none
  | _ => none

/-- The enumerations; that of `u` may break off after the first file. -/
def smallListing (whole : Bool) (p : Place) : Listing :=
  if p = [lit "s"] then ⟨[⟨lit ".", true⟩, ⟨lit "..", true⟩, ⟨lit "u", true⟩], true⟩
  else if p = [lit "s", lit "u"] then
    if whole then ⟨[⟨lit "a", false⟩, ⟨lit "b", false⟩], true⟩ else ⟨[⟨lit "a", false⟩], false⟩
  else ⟨[], true⟩

/-- Every call succeeds. -/
def smallWorld (whole : Bool) : World where
  opens := fun _ => true
  listing := smallListing whole
  stats := fun _ => true
  mkdirs := fun _ => true
  made := fun _ => 0
  moves := fun _ => true
  copied := fun _ node => node
  removes := fun _ => true
  removed := fun _ _ => false

theorem smallDisk_closed (p : Place) (name : Text) (h : smallDisk (p ++ [name]) ≠ none) :
    smallDisk p = some .dir := by
  rcases p with _ | ⟨a, _ | ⟨b, _ | ⟨c, t⟩⟩⟩
  · rfl
  · have hs : a = lit "s" ∧ name = lit "u" := by
      by_contra hnot
      exact h (if_neg hnot)
    exact if_pos hs.1
  · have hs : a = lit "s" ∧ b = lit "u" := by
      by_contra hnot
      exact h (if_neg hnot)
    exact if_pos hs
  · rcases t with _ | ⟨e, t⟩ <;> exact absurd rfl h

def smallTree (whole : Bool) : Setting where
  os := .posix
  src := ⟨lit "/s", [lit "s"]⟩
  dst := ⟨lit "/d", [lit "d"]⟩
  disk := smallDisk
  world := smallWorld whole
  apart := by decide
  closed := smallDisk_closed
  listed_once := by
    intro rel
    simp only [smallWorld, smallListing]
    repeat' split
    all_goals decide
  listed_there := by
    intro rel e he hdots
    simp only [smallWorld, smallListing] at he
    split at he
    · rename_i hrel
      obtain rfl : e = ⟨lit "u", true⟩ := by
        simp only [List.mem_cons, List.not_mem_nil, or_false] at he
        rcases he with rfl | rfl | rfl
        · cases hdots
        · cases hdots
        · rfl
      exact ⟨.dir, by rw [hrel]; rfl, rfl⟩
    · split at he
      · rename_i hrel
        have he' : e = ⟨lit "a", false⟩ ∨ e = ⟨lit "b", false⟩ := by
          split at he <;> simp only [List.mem_cons, List.not_mem_nil, or_false] at he
          · exact he
          · exact .inl he
        rcases he' with rfl | rfl
        · exact ⟨.file [1], by rw [hrel]; rfl, rfl⟩
        · exact ⟨.file [2], by rw [hrel]; rfl, rfl⟩
      · cases he
  listed_all := by
    intro rel name hcomplete hname
    simp only [smallWorld] at hcomplete ⊢
    rcases rel with _ | ⟨b, _ | ⟨c, t⟩⟩
    · have hs : lit "s" = lit "s" ∧ name = lit "u" := by
        by_contra hnot
        exact hname (if_neg hnot)
      rw [hs.2]
      rcases whole with _ | _ <;> decide
    · have hs : lit "s" = lit "s" ∧ b = lit "u" := by
        by_contra hnot
        exact hname (if_neg hnot)
      obtain ⟨-, rfl⟩ := hs
      rcases whole with _ | _
      · cases hcomplete
      · have hname' : name = lit "a" ∨ name = lit "b" := by
          by_contra hnot
          rw [not_or] at hnot
          refine hname ?_
          simp [smallDisk, hnot.1, hnot.2]
        rcases hname' with rfl | rfl <;> decide
    · rcases t with _ | ⟨e, t⟩ <;> exact absurd rfl hname

theorem smallTree_enumerated : (smallTree true).Enumerated := by
  intro rel _
  simp only [smallTree, smallWorld, smallListing]
  split
  · rfl
  · split <;> rfl

/-- The small tree is moved as a whole. -/
theorem exact_relocation_small :
    (cliCacheMoveTree .posix (smallWorld true).calls [] ⟨lit "/s", [lit "s"]⟩ ⟨lit "/d", [lit "d"]⟩
      smallDisk none).ok = true ∧
    ∀ q, (smallTree true).inSrc (cliCacheMoveTree .posix (smallWorld true).calls []
      ⟨lit "/s", [lit "s"]⟩ ⟨lit "/d", [lit "d"]⟩ smallDisk none).fs q =
        if q = [] then some .dir else none :=
  have hok : (cliCacheMoveTree .posix (smallWorld true).calls [] ⟨lit "/s", [lit "s"]⟩
      ⟨lit "/d", [lit "d"]⟩ smallDisk none).ok = true := by decide
  ⟨hok, ((Setting.exact_relocation (smallTree true) smallTree_enumerated [] none _ rfl).1 hok).1⟩

end Offs.MoveTree
