import OffsProof.PathConflict

/-! # Normal forms of paths

`_normalize_path` collapses repeated separators and strips the trailing ones.  What is left of a
path is whether it begins with a separator, and its components: the output is made from these
alone (`stripped_rooted`, `stripped_relative`), and has them itself (`rooted_stripped`,
`components_stripped`).  So the output is canonical (`normalizePath_canonical`).

A path that begins with a separator is rendered with a `/` before each component, another one
with a `/` between them, and in both cases the components can be taken out again
(`components_joined`).  Idempotence and the comparison of two paths follow without another look
at the loop: normalising a normal form is writing down the same components in the same way
(`stripped_stripped`), and two paths have the same normal form just if they begin alike and have
the same components (`stripped_eq_iff`).

The buffer is checked against the collapsed path, before its end is stripped: a path that fits
only without its trailing separators is refused.
-/
namespace Offs.CliCache
open CText

/-! ## Relative paths -/

/-- The components with a `/` between them. -/
def joined : List Text → Text
  | [] => []
  | c :: cs => c ++ render cs

/-- **The normal form of a path** that does not begin with a separator. -/
theorem stripped_relative {p : Text} (h : ¬Rooted p) :
    stripped (collapse false p) = joined (components p) := by
  rcases p with _ | ⟨c, p⟩
  · rfl
  · have hc : isSeparator c = false := by
      by_contra hc
      exact h ⟨c, p, rfl, by simpa using hc⟩
    obtain ⟨first, rest, hsplit⟩ :=
      List.exists_cons_of_ne_nil (List.splitOnP_ne_nil isSeparator p)
    have hcons : (c :: p).splitOnP isSeparator = (c :: first) :: rest := by
      rw [List.splitOnP_cons_eq_if_modifyHead, if_neg (by simp [hc]), hsplit]
      rfl
    have htrim := (trim_collapse (c :: p)).2 [] rfl _ _ hcons
    have hcomponents : components (c :: p) = (c :: first) :: rest.filter (· ≠ []) := by
      rw [components, hcons]
      simp
    rw [List.nil_append, List.nil_append] at htrim
    rw [stripped, htrim, if_neg (by simp), hcomponents]
    rfl

/-! ## What the normal form keeps -/

theorem render_cons (c : Text) (cs : List Text) : render (c :: cs) = '/' :: joined (c :: cs) := rfl

/-- What is joined is split again. -/
theorem components_joined {cs : List Text} (hne : ∀ c ∈ cs, c ≠ [])
    (hcs : ∀ c ∈ cs, ∀ x ∈ c, isSeparator x = false) : components (joined cs) = cs := by
  induction cs with
  | nil => rfl
  | cons c cs ih =>
    obtain ⟨hc, hne⟩ := List.forall_mem_cons.mp hne
    obtain ⟨hchars, hcs⟩ := List.forall_mem_cons.mp hcs
    have hrest := ih hne hcs
    rcases cs with _ | ⟨d, cs⟩
    · have hsingle : joined [c] = c := by simp [joined, render]
      rw [hsingle, components, List.splitOnP_eq_singleton hchars]
      simpa using hc
    · rw [joined, render_cons, components, List.splitOnP_append_cons_of_forall_mem hchars '/' rfl,
        List.filter_cons_of_pos (by simpa using hc)]
      exact congrArg (c :: ·) hrest

theorem ne_nil_of_mem {p c : Text} (h : c ∈ components p) : c ≠ [] := (isComponent_of_mem h).1

theorem not_isSeparator {p c : Text} (h : c ∈ components p) : ∀ x ∈ c, isSeparator x = false :=
  not_isSeparator_of_mem (List.mem_filter.mp h).1

theorem components_stripped (p : Text) :
    components (stripped (collapse false p)) = components p := by
  have hjoined : components (joined (components p)) = components p :=
    components_joined (fun c => ne_nil_of_mem) (fun c => not_isSeparator)
  by_cases hp : Rooted p
  · rw [stripped_rooted hp]
    by_cases hroot : components p = []
    · rw [if_pos hroot, components_separator rfl, hroot]
      rfl
    · obtain ⟨c, cs, hcs⟩ := List.exists_cons_of_ne_nil hroot
      rw [if_neg hroot, hcs, render_cons, components_separator rfl, ← hcs, hjoined]
  · rw [stripped_relative hp, hjoined]

theorem rooted_stripped (p : Text) : Rooted (stripped (collapse false p)) ↔ Rooted p := by
  by_cases hp : Rooted p
  · refine iff_of_true ?_ hp
    rw [stripped_rooted hp]
    by_cases hroot : components p = []
    · rw [if_pos hroot]
      exact ⟨'/', [], rfl, rfl⟩
    · obtain ⟨c, cs, hcs⟩ := List.exists_cons_of_ne_nil hroot
      rw [if_neg hroot, hcs, render_cons]
      exact ⟨'/', _, rfl, rfl⟩
  · refine iff_of_false ?_ hp
    rw [stripped_relative hp]
    rintro ⟨x, rest, hjoined, hx⟩
    rcases hcs : components p with _ | ⟨c, cs⟩
    · rw [hcs] at hjoined
      cases hjoined
    · have hmem : c ∈ components p := hcs ▸ List.mem_cons_self
      obtain ⟨y, c', rfl⟩ := List.exists_cons_of_ne_nil (ne_nil_of_mem hmem)
      rw [hcs, joined, List.cons_append] at hjoined
      cases hjoined
      rw [not_isSeparator hmem x List.mem_cons_self] at hx
      cases hx

/-! ## The shape of the normal form -/

theorem backslash_not_mem_collapse (after : Bool) (p : Text) : '\\' ∉ collapse after p := by
  fun_induction collapse after p with
  | case1 => simp
  | case2 after c p _ ih => exact ih
  | case3 after c p _ ih =>
    rw [List.mem_cons, not_or]
    refine ⟨?_, ih⟩
    rw [normalChar]
    split
    · decide
    · rename_i hc
      rintro rfl
      exact hc rfl

/-- After a separator comes no other. -/
theorem head_collapse_true (p : Text) : (collapse true p).head? ≠ some '/' := by
  induction p with
  | nil => simp [collapse]
  | cons c p ih =>
    by_cases hc : isSeparator c = true
    · rw [collapse_skip hc]
      exact ih
    · rw [collapse_keep (fun h => hc h.1), List.head?_cons, Ne, Option.some.injEq,
        normalChar_eq_slash]
      exact hc

theorem slashes_not_infix_collapse (after : Bool) (p : Text) :
    ¬['/', '/'] <:+: collapse after p := by
  fun_induction collapse after p with
  | case1 => simp
  | case2 after c p _ ih => exact ih
  | case3 after c p _ ih =>
    rw [List.infix_cons_iff, not_or]
    refine ⟨fun hinitial => ?_, ih⟩
    obtain ⟨hc, hrest⟩ := List.cons_prefix_cons.mp hinitial
    rw [normalChar_eq_slash.mp hc.symm] at hrest
    obtain ⟨rest, hrest⟩ := hrest
    refine head_collapse_true p ?_
    rw [← hrest]
    rfl

theorem stripped_prefix (p : Text) : stripped p <+: p := by
  rw [stripped]
  split
  · exact List.take_prefix 1 p
  · exact List.rdropWhile_prefix _ p

/-- No separator is left at the end, but that of the root. -/
theorem last_stripped (p : Text) : stripped p = ['/'] ∨ (stripped p).getLast? ≠ some '/' := by
  rw [stripped]
  split
  · rename_i hall
    rcases p with _ | ⟨c, p⟩
    · exact .inr (by simp)
    · have hc := List.rdropWhile_eq_nil_iff.mp hall c List.mem_cons_self
      exact .inl (by simpa using hc)
  · rename_i hne
    refine .inr fun hlast => ?_
    have hnot := List.rdropWhile_last_not _ _ hne
    rw [List.getLast?_eq_some_getLast hne, Option.some.injEq] at hlast
    exact hnot (by simpa [trim] using hlast)

theorem length_collapse_le (after : Bool) (p : Text) : (collapse after p).length ≤ p.length := by
  fun_induction collapse after p with
  | case1 => exact Nat.le_refl _
  | case2 after c p _ ih => exact Nat.le_succ_of_le ih
  | case3 after c p _ ih => exact Nat.succ_le_succ ih

/-! ## The normal form is canonical -/

/-- A normal form is its own normal form. -/
theorem stripped_stripped (p : Text) :
    stripped (collapse false (stripped (collapse false p))) = stripped (collapse false p) := by
  by_cases hp : Rooted p
  · rw [stripped_rooted ((rooted_stripped p).mpr hp), components_stripped, stripped_rooted hp]
  · rw [stripped_relative (fun h => hp ((rooted_stripped p).mp h)), components_stripped,
      stripped_relative hp]

/-- Two paths have the same normal form just if they begin alike and have the same
components. -/
theorem stripped_eq_iff (p q : Text) :
    stripped (collapse false p) = stripped (collapse false q) ↔
      (Rooted p ↔ Rooted q) ∧ components p = components q := by
  constructor
  · intro h
    rw [← rooted_stripped p, ← rooted_stripped q, ← components_stripped p, ← components_stripped q,
      h]
    exact ⟨Iff.rfl, rfl⟩
  · rintro ⟨hrooted, hcomponents⟩
    by_cases hp : Rooted p
    · rw [stripped_rooted hp, stripped_rooted (hrooted.mp hp), hcomponents]
    · rw [stripped_relative hp, stripped_relative (fun hq => hp (hrooted.mpr hq)), hcomponents]

/-- **`_normalize_path` is canonical.**  It succeeds just if the collapsed path fits; what it
gives is in normal form, stays as it is when normalised again, and is the same for another path
just if the two begin alike and have the same components.  All of it is proved of two pure
functions that the loop over the buffer comes to (`normalizePath_collapse`): `collapse`, which
makes one slash of each run of separators, and `stripped`, which takes off the one at the end. -/
theorem normalizePath_canonical {size : Nat} (hsize : 0 < size) (p : Text) :
    ((normalizePath size p).isSome = true ↔ (collapse false p).length < size) ∧
    ∀ out, normalizePath size p = some out →
      '\\' ∉ out ∧ ¬['/', '/'] <:+: out ∧ (out = ['/'] ∨ out.getLast? ≠ some '/') ∧
      normalizePath size out = some out ∧
      ∀ q out', normalizePath size q = some out' →
        (out = out' ↔ (Rooted p ↔ Rooted q) ∧ components p = components q) := by
  have hsuccess : ∀ {q out}, normalizePath size q = some out →
      (collapse false q).length < size ∧ out = stripped (collapse false q) := by
    intro q out hq
    rw [normalizePath_collapse hsize] at hq
    split at hq
    · rename_i hfits
      exact ⟨hfits, (Option.some.inj hq).symm⟩
    · cases hq
  refine ⟨?_, fun out hout => ?_⟩
  · rw [normalizePath_collapse hsize]
    split <;> simp [*]
  · obtain ⟨hfits, rfl⟩ := hsuccess hout
    have hinitial := stripped_prefix (collapse false p)
    have hlength := length_collapse_le false (stripped (collapse false p))
    have hshorter := hinitial.length_le
    refine ⟨fun h => backslash_not_mem_collapse false p (hinitial.subset h),
      fun h => slashes_not_infix_collapse false p (h.trans hinitial.isInfix),
      last_stripped _, ?_, fun q out' hout' => ?_⟩
    · rw [normalizePath_collapse hsize, if_pos (by omega), stripped_stripped]
    · obtain ⟨-, rfl⟩ := hsuccess hout'
      exact stripped_eq_iff p q

/-- A path with a doubled, a foreign and a trailing separator. -/
theorem normalizePath_canonical_doubled :
    normalizePath 1024 (lit "/a//b\\") = some (lit "/a/b") ∧
    normalizePath 1024 (lit "/a/b") = some (lit "/a/b") := by
  have hform : normalizePath 1024 (lit "/a//b\\") = some (lit "/a/b") := by decide
  exact ⟨hform, ((normalizePath_canonical (by decide) (lit "/a//b\\")).2 _ hform).2.2.2.1⟩

end Offs.CliCache
