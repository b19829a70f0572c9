import OffsProof.MoveExact

/-! # Files that a move loses

`readdir` returns NULL at the end of a directory and at an error alike, and the POSIX branch of
`_move_tree` does not tell them apart.  A subdirectory whose enumeration broke off counts as
moved, and `rm_rf` then deletes what has not been moved.  Windows looks at `GetLastError`, and
loses nothing.

A file is lost if it is neither where it was nor where it should go.  No visit puts anything into
the source, and a file that no enumeration lists is not moved by any visit; so such a file is
lost if a directory above it is removed, which on POSIX does not ask whether the enumeration was
whole.  In the other direction, a file that is listed below a directory that is removed has been
moved before.  So the condition is about the setting: which directories are removed, by the
visits that pass before (`Deletes`), and which files below them have been listed or are at the
destination already (`nothing_lost_iff`).
-/
namespace Offs.MoveTree
open CText TreeWalk

namespace Setting
variable {s : Setting} {d : Disk} {q r : Place} {v : Visit Text} {vs : List (Visit Text)}

/-! ## What no visit does -/

/-- No visit puts anything into the source. -/
theorem visit_src_none (h : s.inSrc d q = none) : s.inSrc (s.visit v d).1 q = none := by
  by_cases hok : (s.visit v d).2 = true
  · rcases v with rel | rel | rel
    · rw [enter_src, h]
    · rw [visit] at hok ⊢
      split at hok
      · cases hok
      · rw [if_neg ‹_›]
        obtain ⟨content, -, -, -, hafter⟩ := move_ok s hok
        rw [(hafter q).1, h, ite_self]
    · obtain ⟨hwhole, -⟩ := visit_leave_ok.mp hok
      by_cases hrel : rel = []
      · subst hrel
        rw [visit_leave_nil hwhole]
        exact h
      · rw [visit_leave hwhole hrel, rmRf_src, h, ite_self]
  · rcases src_of_failure (by simpa using hok) q with hsame | ⟨_, _, _, _, _, _, hnone⟩
    · exact hsame.trans h
    · exact hnone

theorem run_src_none (h : s.inSrc d q = none) : s.inSrc (run s.visit vs d).1 q = none := by
  induction vs generalizing d with
  | nil => exact h
  | cons v vs ih =>
    by_cases hv : (s.visit v d).2 = true
    · rw [run_cons_of_ok hv]
      exact ih (visit_src_none h)
    · rw [run_cons_of_failure (by simpa using hv)]
      exact visit_src_none h

/-- Where a file of the source has not been listed, the destination stays as it is. -/
theorem visit_dst_unlisted {content : List UInt8} (hfile : s.inSrc s.disk q = some (.file content))
    (hq : q ≠ []) (hunlisted : .file q ∉ s.visits) (hv : v ∈ s.visits) :
    s.inDst (s.visit v d).1 q = s.inDst d q := by
  rcases v with rel | rel | rel
  · exact enter_dst_of_not_isPrefix (not_isPrefix_of_file hfile hq hv)
  · have hne : q ≠ rel := by
      rintro rfl
      exact hunlisted hv
    rw [visit]
    split
    · rfl
    · by_cases hok : (s.world.calls.fileMoveVerified d (s.src.below s.os rel)
          (s.dst.below s.os rel)).2 = true
      · obtain ⟨content, -, -, -, hafter⟩ := move_ok s hok
        rw [(hafter q).2, if_neg hne]
      · exact (move_failure s (by simpa using hok) q).2 hne
  · exact leave_dst rel q

theorem run_dst_unlisted {content : List UInt8} (hfile : s.inSrc s.disk q = some (.file content))
    (hq : q ≠ []) (hunlisted : .file q ∉ s.visits) (hvs : ∀ v ∈ vs, v ∈ s.visits) :
    s.inDst (run s.visit vs d).1 q = s.inDst d q := by
  induction vs generalizing d with
  | nil => rfl
  | cons v vs ih =>
    have hfirst : s.inDst (s.visit v d).1 q = s.inDst d q :=
      visit_dst_unlisted hfile hq hunlisted (hvs v List.mem_cons_self)
    by_cases hv : (s.visit v d).2 = true
    · rw [run_cons_of_ok hv, ih fun w hw => hvs w (List.mem_cons_of_mem v hw), hfirst]
    · rw [run_cons_of_failure (by simpa using hv), hfirst]

/-! ## Removals -/

/-- **The file is deleted with its directory**: all visits before the directory is left
succeed, its enumeration is taken to be at its end, and `rm_rf` gets to the file. -/
def Deletes (s : Setting) (r q : Place) : Prop :=
  r ≠ [] ∧ r <+: q ∧
    (∃ before after, s.visits = before ++ .leave r :: after ∧ ∀ u ∈ before, s.passes u = true) ∧
    listedWhole s.os (s.world.listing (s.src.place ++ r)) = true ∧
    (s.world.removes (s.src.place ++ r) = true ∨
      s.world.removed (s.src.place ++ r) (s.src.place ++ q) = true)

theorem Deletes.ne_nil (h : s.Deletes r q) : q ≠ [] := by
  rintro rfl
  exact h.1 (List.prefix_nil.mp h.2.1)

/-- What is deleted is gone in the end. -/
theorem src_of_deletes (h : s.Deletes r q) :
    s.inSrc (run s.visit s.visits s.disk).1 q = none := by
  obtain ⟨hr, hq, ⟨before, after, hvisits, hpasses⟩, hwhole, hremoved⟩ := h
  have hok := (run_ok_iff hvisits).mpr hpasses
  have hnone : s.inSrc (s.visit (.leave r) (run s.visit before s.disk).1).1 q = none := by
    rw [visit_leave hwhole hr, rmRf_src, if_pos ⟨hq, hremoved⟩]
  rw [hvisits, run_append_of_ok hok]
  by_cases hleave : (s.visit (.leave r) (run s.visit before s.disk).1).2 = true
  · rw [run_cons_of_ok hleave]
    exact run_src_none hnone
  · rw [run_cons_of_failure (by simpa using hleave)]
    exact hnone

section Survival
variable {before after : List (Visit Text)} {content : List UInt8}

/-- A removal that is reached deletes what has not been listed. -/
theorem deletes_of_leave (hvisits : s.visits = before ++ .leave r :: after)
    (hpasses : ∀ u ∈ before, s.passes u = true) (hr : r ≠ []) (hq : r <+: q)
    (hwhole : listedWhole s.os (s.world.listing (s.src.place ++ r)) = true)
    (hremoved : s.world.removes (s.src.place ++ r) = true ∨
      s.world.removed (s.src.place ++ r) (s.src.place ++ q) = true) :
    .file q ∈ before ∨ (s.Deletes r q ∧ .file q ∉ s.visits) := by
  by_cases hlisted : .file q ∈ s.visits
  · exact .inl (mem_before_leave hvisits hlisted hq (by simp))
  · exact .inr ⟨⟨hr, hq, ⟨before, after, hvisits, hpasses⟩, hwhole, hremoved⟩, hlisted⟩

/-- After some visits a file is where it was, or it has been moved, or deleted. -/
theorem src_or_moved_or_deleted (hvisits : s.visits = before ++ after)
    (hpasses : ∀ u ∈ before, s.passes u = true) (hdone : Done s before d)
    (hfile : s.inSrc s.disk q = some (.file content)) :
    s.inSrc d q = some (.file content) ∨ .file q ∈ before ∨
      ∃ r, s.Deletes r q ∧ .file q ∉ s.visits := by
  by_cases hany : before.any (takes · q) = true
  · obtain ⟨u, hu, htakes⟩ := List.any_eq_true.mp hany
    rcases u with r | r | r
    · cases htakes
    · obtain rfl : r = q := of_decide_eq_true htakes
      exact .inr (.inl hu)
    · have hr : r ≠ [] ∧ r <+: q := of_decide_eq_true htakes
      obtain ⟨a, b, rfl⟩ := List.append_of_mem hu
      have hvisits' : s.visits = a ++ .leave r :: (b ++ after) := by
        rw [hvisits]
        simp
      have hleave := hpasses _ hu
      simp only [passes, Bool.and_eq_true, Bool.or_eq_true, decide_eq_true_eq] at hleave
      rcases deletes_of_leave hvisits' (fun u hu => hpasses u (List.mem_append_left _ hu)) hr.1
        hr.2 hleave.1 (.inl (hleave.2.resolve_left hr.1)) with hmoved | hdeleted
      · exact .inr (.inl (List.mem_append_left _ hmoved))
      · exact .inr (.inr ⟨r, hdeleted⟩)
  · refine .inl ?_
    rw [hdone.src_eq, srcAfter, if_neg hany, hfile]

/-- **In the end a file is where it was, or it has been moved, or deleted.** -/
theorem kept_or_deleted (hfile : s.inSrc s.disk q = some (.file content)) :
    s.inSrc (run s.visit s.visits s.disk).1 q = some (.file content) ∨
      s.inDst (run s.visit s.visits s.disk).1 q = some (.file content) ∨
      ∃ r, s.Deletes r q ∧ .file q ∉ s.visits := by
  rcases run_cases s.visit s.visits s.disk with hall | ⟨before, v, after, hvisits, hbefore, hv, hend⟩
  · have hsplit : s.visits = s.visits ++ [] := (List.append_nil _).symm
    have hdone := done_run hsplit hall
    rcases src_or_moved_or_deleted hsplit ((run_ok_iff hsplit).mp hall) hdone hfile with
      hkept | hmoved | hdeleted
    · exact .inl hkept
    · refine .inr (.inl ?_)
      rw [hdone.dst_eq, dstAfter, if_pos hmoved, hfile]
    · exact .inr (.inr hdeleted)
  · have hdone := done_run hvisits hbefore
    have hpasses := (run_ok_iff hvisits).mp hbefore
    have hmoved : .file q ∈ before →
        s.inDst (s.visit v (run s.visit before s.disk).1).1 q = some (.file content) :=
      fun hmem => ((moved_of_failure hvisits hdone hv hmem).2).trans hfile
    rw [hend]
    rcases src_or_moved_or_deleted hvisits hpasses hdone hfile with hkept | hmem | hdeleted
    · rcases src_of_failure hv q with hsame | ⟨r, rfl, hr, hq, hwhole, hremoved, -⟩
      · exact .inl (hsame.trans hkept)
      · rcases deletes_of_leave hvisits hpasses hr hq hwhole (.inr hremoved) with hmem | hdeleted
        · exact .inr (.inl (hmoved hmem))
        · exact .inr (.inr ⟨r, hdeleted⟩)
    · exact .inr (.inl (hmoved hmem))
    · exact .inr (.inr hdeleted)

end Survival

/-- **Windows deletes only what has been listed.** -/
theorem listed_of_windows (hos : s.os = .windows) {content : List UInt8} (h : s.Deletes r q)
    (hfile : s.inSrc s.disk q = some (.file content)) : .file q ∈ s.visits := by
  obtain ⟨-, hq, ⟨before, after, hvisits, hpasses⟩, hwhole, -⟩ := h
  have hsub : ∀ u ∈ before, u ∈ s.visits := by
    intro u hu
    rw [hvisits]
    exact List.mem_append_left _ hu
  refine hsub _ (file_mem_of_leave ?_ hvisits hpasses hq hfile)
  intro p hp henter _
  -- A directory below has been left, which needs an enumeration that came to its end.
  have hlisted : listedWhole s.os (s.world.listing (s.src.place ++ p)) = true := by
    by_cases hpr : p = r
    · rwa [hpr]
    · have hlevel : p.length < ([] : Place).length + bufferSize := by
        have hlength := length_lt_of_passes (hpasses _ henter)
        simpa using hlength
      have hleave := mem_before_leave hvisits (walk_leave (hsub _ henter) hlevel) hp
        (by simpa using hpr)
      have hpass := hpasses _ hleave
      simp only [passes, Bool.and_eq_true] at hpass
      exact hpass.1
  simpa [listedWhole, hos] using hlisted

/-- **Nothing is lost just if every file that is deleted with its directory has been listed, or is
at the destination already.**  A file of the source is there at the end, or has been moved, or has
been deleted unlisted with a directory above it (`kept_or_deleted`); and what has not been listed
has not been written to the destination (`run_dst_unlisted`), so that it is there only if it was
there before. -/
theorem nothing_lost_iff (s : Setting) (uninitialised : Text) (report : Buffer) :
    (∀ q content, s.inSrc s.disk q = some (.file content) →
      s.inSrc (cliCacheMoveTree s.os s.world.calls uninitialised s.src s.dst s.disk report).fs q =
        some (.file content) ∨
      s.inDst (cliCacheMoveTree s.os s.world.calls uninitialised s.src s.dst s.disk report).fs q =
        some (.file content)) ↔
    ∀ r q content, s.Deletes r q → s.inSrc s.disk q = some (.file content) →
      .file q ∈ s.visits ∨ s.inDst s.disk q = some (.file content) := by
  rw [cliCacheMoveTree_fs]
  constructor
  · intro h r q content hdeletes hfile
    by_cases hlisted : .file q ∈ s.visits
    · exact .inl hlisted
    · refine .inr ?_
      have hdst := run_dst_unlisted (d := s.disk) hfile hdeletes.ne_nil hlisted (fun v hv => hv)
      rcases h q content hfile with hsrc | hmoved
      · rw [src_of_deletes hdeletes] at hsrc
        cases hsrc
      · exact hdst.symm.trans hmoved
  · intro h q content hfile
    rcases kept_or_deleted hfile with hkept | hmoved | ⟨r, hdeletes, hunlisted⟩
    · exact .inl hkept
    · exact .inr hmoved
    · refine .inr ?_
      rw [run_dst_unlisted hfile hdeletes.ne_nil hunlisted (fun v hv => hv)]
      exact (h r q content hdeletes hfile).resolve_left hunlisted

/-- **On Windows nothing is lost.** -/
theorem nothing_lost_on_windows (hos : s.os = .windows) (uninitialised : Text) (report : Buffer)
    {content : List UInt8} (hfile : s.inSrc s.disk q = some (.file content)) :
    let moved := cliCacheMoveTree s.os s.world.calls uninitialised s.src s.dst s.disk report
    s.inSrc moved.fs q = some (.file content) ∨ s.inDst moved.fs q = some (.file content) := by
  dsimp only
  rw [cliCacheMoveTree_fs]
  rcases kept_or_deleted hfile with hkept | hmoved | ⟨r, hdeletes, hunlisted⟩
  · exact .inl hkept
  · exact .inr hmoved
  · exact absurd (listed_of_windows hos hdeletes hfile) hunlisted

end Setting

/-- The move of the small tree, with the enumeration of `u` broken off after `a`. -/
def brokenOff : Moved Disk :=
  cliCacheMoveTree (smallTree false).os (smallTree false).world.calls [] (smallTree false).src
    (smallTree false).dst (smallTree false).disk none

/-- **A file is lost.**  The move succeeds, and `b` is neither here nor there. -/
theorem unlisted_file_lost :
    brokenOff.ok = true ∧
    (smallTree false).inSrc (smallTree false).disk [lit "u", lit "b"] = some (.file [2]) ∧
    (smallTree false).inSrc brokenOff.fs [lit "u", lit "b"] = none ∧
    (smallTree false).inDst brokenOff.fs [lit "u", lit "b"] = none := by
  refine ⟨by decide, by decide, by decide, by decide⟩

end Offs.MoveTree
