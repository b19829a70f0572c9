import Mathlib.Data.List.DropRight
import OffsProof.CachePaths

/-! # Paths that conflict

`cli_cache_paths_conflict` writes two paths in one form and compares them character by character.
What it is for is a question about their components: whether they are the same, or the one list
begins with the other.

A path that begins with a separator is normalised to its components with a `/` before each
(`render`), and there the two comparisons agree.  The root has no components and is `/` all the
same: the comparison with it stops after that character and misses that everything lies below
(`paths_conflict_exact_iff`).

The proof has two halves.  The loop of `_normalize_path` collapses separators as long as the
result fits (`normalizeLoop_eq`), and what is left of a collapsed path without its trailing
separators is its components (`trim_collapse`), by an induction that goes on either after a
separator or in the middle of a component.  The comparison of two rendered paths then goes
component by component: since what follows a component is nothing or a separator, two components
agree character by character just if they are the same (`comparePaths_component`), and the end of
the shorter list decides as it should (`comparePaths_render`).
-/
namespace Offs.CliCache
open CText

/-! ## Components -/

/-- The non-empty pieces of a path between its separators. -/
def components (p : Text) : List Text := (p.splitOnP isSeparator).filter (· ≠ [])

/-- The path begins with a separator, as `_absolutize` makes sure. -/
def Rooted (p : Text) : Prop := ∃ c rest, p = c :: rest ∧ isSeparator c = true

/-- Every separator is written `/`. -/
def normalChar (c : Char) : Char := if isSeparator c then '/' else c

/-- The path with repeated separators collapsed, after a separator or not. -/
def collapse : Bool → Text → Text
  | _, [] => []
  | after, c :: p =>
    if isSeparator c ∧ after = true then collapse true p
    else normalChar c :: collapse (isSeparator c) p

/-- The collapsed path and a NUL fit into the buffers. -/
def Fits (p : Text) : Prop := (collapse false p).length ≤ 1023

instance (p : Text) : Decidable (Fits p) := inferInstanceAs (Decidable (_ ≤ _))

/-- How two lists of components are related. -/
def relation (as bs : List Text) : Conflict :=
  if as = bs then .same
  else if as <+: bs ∨ bs <+: as then .nested
  else .disjoint

/-- **What the comparison is for.**  A path that does not fit counts as a conflict. -/
def conflictOf (a b : Text) : Conflict :=
  if Fits a ∧ Fits b then relation (components a) (components b) else .nested

/-- The components with a `/` before each. -/
def render (cs : List Text) : Text := cs.flatMap fun c => '/' :: c

/-! ## The normal form -/

theorem normalChar_eq_slash {c : Char} : normalChar c = '/' ↔ isSeparator c = true := by
  rw [normalChar]
  split
  · simp [*]
  · rename_i h
    refine iff_of_false ?_ h
    rintro rfl
    exact h rfl

theorem normalChar_of_not {c : Char} (h : isSeparator c = false) : normalChar c = c := by
  simp [normalChar, h]

theorem collapse_skip {c : Char} {p : Text} (h : isSeparator c = true) :
    collapse true (c :: p) = collapse true p := by
  rw [collapse, if_pos ⟨h, rfl⟩]

theorem collapse_keep {c : Char} {p : Text} {after : Bool}
    (h : ¬(isSeparator c = true ∧ after = true)) :
    collapse after (c :: p) = normalChar c :: collapse (isSeparator c) p := by
  rw [collapse, if_neg h]

/-- The loop collapses its path, as long as the result fits. -/
theorem normalizeLoop_eq {size : Nat} (p : Text) {out : List Char} (hout : out.length < size) :
    normalizeLoop size out p =
      let whole := (collapse (out.head? = some '/') p).reverse ++ out
      if whole.length < size then some whole else none := by
  induction p generalizing out with
  | nil => simp [normalizeLoop, collapse, hout]
  | cons c p ih =>
    rw [normalizeLoop]
    by_cases hskip : isSeparator c = true ∧ out.head? = some '/'
    · have hafter : decide (out.head? = some '/') = true := by simpa using hskip.2
      rw [if_pos hskip, ih hout, hafter, collapse_skip hskip.1]
    · rw [if_neg hskip, collapse_keep (by simpa using hskip)]
      have hhead : decide ((normalChar c :: out).head? = some '/') = isSeparator c := by
        rw [List.head?_cons, Bool.eq_iff_iff, decide_eq_true_eq, Option.some.injEq]
        exact normalChar_eq_slash
      by_cases hroom : out.length + 1 ≥ size
      · rw [if_pos hroom]
        dsimp only
        rw [if_neg]
        simp only [List.length_append, List.length_reverse, List.length_cons]
        omega
      · have hnext := @ih (normalChar c :: out) (by simp only [List.length_cons]; omega)
        rw [hhead] at hnext
        rw [if_neg hroom]
        exact hnext.trans (by simp)

/-- The path without its trailing separators. -/
def trim (p : Text) : Text := p.rdropWhile (· == '/')

theorem trim_slash (p : Text) : trim (p ++ ['/']) = trim p := by
  simp [trim]

theorem trim_of_ne {p : Text} {c : Char} (h : c ≠ '/') : trim (p ++ [c]) = p ++ [c] := by
  simp [trim, h]

theorem components_separator {c : Char} (h : isSeparator c = true) (p : Text) :
    components (c :: p) = components p := by
  simp [components, List.splitOnP_cons_eq_if_modifyHead, h]

/-- **A collapsed path is its components**, up to trailing separators: after a separator, and
in the middle of a component. -/
theorem trim_collapse (p : Text) :
    (∀ z : Text, trim z = z → trim (z ++ '/' :: collapse true p) = z ++ render (components p)) ∧
    ∀ z : Text, trim z = z → ∀ first rest, p.splitOnP isSeparator = first :: rest →
      trim (z ++ collapse false p) = z ++ first ++ render (rest.filter (· ≠ [])) := by
  induction p with
  | nil =>
    refine ⟨fun z hz => ?_, fun z hz first rest hsplit => ?_⟩
    · rw [collapse, trim_slash, hz]
      simp [components, render]
    · obtain ⟨rfl, rfl⟩ : [] = first ∧ [] = rest := by simpa using hsplit
      simpa [collapse, render] using hz
  | cons c p ih =>
    by_cases hc : isSeparator c = true
    · have hslash : normalChar c = '/' := normalChar_eq_slash.mpr hc
      refine ⟨fun z hz => ?_, fun z hz first rest hsplit => ?_⟩
      · rw [collapse_skip hc, components_separator hc]
        exact ih.1 z hz
      · rw [List.splitOnP_cons_eq_if_modifyHead, if_pos hc] at hsplit
        obtain ⟨rfl, rfl⟩ := List.cons.inj hsplit
        rw [collapse_keep (by simp), hc, hslash, List.append_nil]
        exact ih.1 z hz
    · have hkeep : ∀ after, collapse after (c :: p) = c :: collapse false p := by
        intro after
        rw [collapse_keep (fun h => hc h.1), normalChar_of_not (by simpa using hc)]
        simp [hc]
      have hne : c ≠ '/' := by
        rintro rfl
        exact hc rfl
      obtain ⟨first, rest, hsplit⟩ :=
        List.exists_cons_of_ne_nil (List.splitOnP_ne_nil isSeparator p)
      have hcons : (c :: p).splitOnP isSeparator = (c :: first) :: rest := by
        rw [List.splitOnP_cons_eq_if_modifyHead, if_neg hc, hsplit]
        rfl
      refine ⟨fun z hz => ?_, fun z hz first' rest' hsplit' => ?_⟩
      · have hnext := ih.2 (z ++ ['/'] ++ [c]) (trim_of_ne hne) first rest hsplit
        rw [hkeep, components, hcons]
        simpa [render] using hnext
      · obtain ⟨rfl, rfl⟩ := List.cons.inj (hcons.symm.trans hsplit')
        have hnext := ih.2 (z ++ [c]) (trim_of_ne hne) first rest hsplit
        rw [hkeep]
        simpa using hnext

/-- The path without its trailing separators, except for one at its beginning. -/
def stripped (p : Text) : Text := if trim p = [] then p.take 1 else trim p

/-- `stripTrailing` leaves the first separator. -/
theorem stripTrailing_reverse (p : Text) : (stripTrailing p.reverse).reverse = stripped p := by
  induction p using List.reverseRecOn with
  | nil => rfl
  | append_singleton p c ih =>
    rw [List.reverse_append, List.reverse_singleton, List.singleton_append, stripped]
    by_cases hc : c = '/'
    · subst hc
      rw [trim_slash]
      rcases p.eq_nil_or_concat with rfl | ⟨q, d, rfl⟩
      · rfl
      · rw [List.take_append_of_le_length (by simp), ← stripped, ← ih, List.concat_eq_append,
          List.reverse_append]
        rfl
    · rw [trim_of_ne hc, if_neg (by simp)]
      simp [stripTrailing, hc]

/-- **`_normalize_path` collapses and strips**, as long as the collapsed path fits. -/
theorem normalizePath_collapse {size : Nat} (hsize : 0 < size) (p : Text) :
    normalizePath size p =
      if (collapse false p).length < size then some (stripped (collapse false p)) else none := by
  have hloop := normalizeLoop_eq p (show ([] : List Char).length < size from hsize)
  simp only [List.head?_nil, reduceCtorEq, decide_false, List.append_nil, List.length_reverse]
    at hloop
  rw [normalizePath, hloop]
  split
  · rw [Option.map_some, stripTrailing_reverse]
  · rfl

/-- **The normal form of a path** that begins with a separator. -/
theorem stripped_rooted {p : Text} (h : Rooted p) :
    stripped (collapse false p) =
      if components p = [] then ['/'] else render (components p) := by
  obtain ⟨c, p, rfl, hc⟩ := h
  have hcollapse : collapse false (c :: p) = '/' :: collapse true p := by
    rw [collapse_keep (by simp), hc, normalChar_eq_slash.mpr hc]
  have htrim := (trim_collapse p).1 [] rfl
  rw [List.nil_append, List.nil_append] at htrim
  have hnil : render (components p) = [] ↔ components p = [] := by
    rcases components p with _ | _ <;> simp [render]
  rw [hcollapse, stripped, htrim, components_separator hc]
  by_cases hroot : components p = []
  · rw [if_pos hroot, if_pos (hnil.mpr hroot)]
    rfl
  · rw [if_neg hroot, if_neg fun h => hroot (hnil.mp h)]

theorem normalizePath_eq {p : Text} (h : Rooted p) :
    normalizePath 1024 p =
      if Fits p then some (if components p = [] then ['/'] else render (components p))
      else none := by
  have hfits : (collapse false p).length < 1024 ↔ Fits p := Nat.lt_succ_iff
  rw [normalizePath_collapse (by decide), stripped_rooted h]
  simp only [hfits]

/-! ## The comparison -/

/-- A component: not empty, and without a separator. -/
def IsComponent (c : Text) : Prop := c ≠ [] ∧ '/' ∉ c

/-- No piece of a path has a separator in it. -/
theorem not_isSeparator_of_mem {p c : Text} (h : c ∈ p.splitOnP isSeparator) :
    ∀ x ∈ c, isSeparator x = false := by
  induction p generalizing c with
  | nil =>
    obtain rfl : c = [] := by simpa using h
    simp
  | cons d p ih =>
    obtain ⟨first, rest, hsplit⟩ :=
      List.exists_cons_of_ne_nil (List.splitOnP_ne_nil isSeparator p)
    rw [List.splitOnP_cons_eq_if_modifyHead] at h
    rw [hsplit] at ih h
    split at h
    · rcases List.mem_cons.mp h with rfl | h
      · simp
      · exact ih h
    · rename_i hd
      rcases List.mem_cons.mp h with rfl | h
      · exact List.forall_mem_cons.mpr ⟨by simpa using hd, ih List.mem_cons_self⟩
      · exact ih (List.mem_cons_of_mem _ h)

theorem isComponent_of_mem {p c : Text} (h : c ∈ components p) : IsComponent c := by
  have hmem := List.mem_filter.mp h
  refine ⟨by simpa using hmem.2, fun hslash => ?_⟩
  exact absurd (not_isSeparator_of_mem hmem.1 _ hslash) (by decide)

/-- What follows a component: nothing, or a separator. -/
def Follows (x : Text) : Prop := x = [] ∨ ∃ y, x = '/' :: y

theorem follows_render (cs : List Text) : Follows (render cs) := by
  rcases cs with _ | ⟨c, cs⟩
  · exact .inl rfl
  · exact .inr ⟨c ++ render cs, rfl⟩

theorem comparePaths_nil_left {c : Char} (x : Text) (h : c ≠ '/') :
    comparePaths [] (c :: x) = .disjoint := by
  simp [comparePaths, h]

theorem comparePaths_nil_right {c : Char} (x : Text) (h : c ≠ '/') :
    comparePaths (c :: x) [] = .disjoint := by
  simp [comparePaths, h]

theorem comparePaths_cons_of_ne {c d : Char} (x y : Text) (h : c ≠ d) :
    comparePaths (c :: x) (d :: y) = .disjoint := by
  simp [comparePaths, h]

theorem comparePaths_cons_self (c : Char) (x y : Text) :
    comparePaths (c :: x) (c :: y) = comparePaths x y := by
  simp [comparePaths]

/-- **Two components are compared as a whole.** -/
theorem comparePaths_component {a b x y : Text} (ha : '/' ∉ a) (hb : '/' ∉ b) (hx : Follows x)
    (hy : Follows y) :
    comparePaths (a ++ x) (b ++ y) = if a = b then comparePaths x y else .disjoint := by
  induction a generalizing b with
  | nil =>
    rcases b with _ | ⟨d, b⟩
    · simp
    · have hd : d ≠ '/' := fun h => hb (h ▸ List.mem_cons_self)
      rw [if_neg (by simp), List.nil_append, List.cons_append]
      rcases hx with rfl | ⟨x, rfl⟩
      · exact comparePaths_nil_left _ hd
      · exact comparePaths_cons_of_ne _ _ hd.symm
  | cons c a ih =>
    have hc : c ≠ '/' := fun h => ha (h ▸ List.mem_cons_self)
    rcases b with _ | ⟨d, b⟩
    · rw [if_neg (by simp), List.nil_append, List.cons_append]
      rcases hy with rfl | ⟨y, rfl⟩
      · exact comparePaths_nil_right _ hc
      · exact comparePaths_cons_of_ne _ _ hc
    · rw [List.cons_append, List.cons_append]
      by_cases hcd : c = d
      · subst hcd
        rw [comparePaths_cons_self, ih (fun h => ha (List.mem_cons_of_mem _ h))
          (fun h => hb (List.mem_cons_of_mem _ h))]
        simp
      · rw [comparePaths_cons_of_ne _ _ hcd, if_neg (by simp [hcd])]

theorem relation_cons (a b : Text) (as bs : List Text) :
    relation (a :: as) (b :: bs) = if a = b then relation as bs else .disjoint := by
  by_cases hab : a = b
  · subst hab
    simp [relation]
  · simp [relation, hab, Ne.symm hab, List.cons_prefix_cons]

/-- **The comparison of two rendered paths** is that of their components. -/
theorem comparePaths_render {as bs : List Text} (ha : ∀ c ∈ as, IsComponent c)
    (hb : ∀ c ∈ bs, IsComponent c) : comparePaths (render as) (render bs) = relation as bs := by
  induction as generalizing bs with
  | nil =>
    rcases bs with _ | ⟨b, bs⟩
    · rfl
    · simp [render, comparePaths, relation]
  | cons a as ih =>
    rcases bs with _ | ⟨b, bs⟩
    · simp [render, comparePaths, relation]
    · have hstep : comparePaths (render (a :: as)) (render (b :: bs)) =
          comparePaths (a ++ render as) (b ++ render bs) := comparePaths_cons_self '/' _ _
      rw [hstep, relation_cons, comparePaths_component (ha a List.mem_cons_self).2
        (hb b List.mem_cons_self).2 (follows_render as) (follows_render bs),
        ih (fun c hc => ha c (List.mem_cons_of_mem _ hc))
          (fun c hc => hb c (List.mem_cons_of_mem _ hc))]

/-- Below the root nothing is found. -/
theorem comparePaths_root {cs : List Text} (hcs : ∀ c ∈ cs, IsComponent c) (hne : cs ≠ []) :
    comparePaths ['/'] (render cs) = .disjoint ∧ comparePaths (render cs) ['/'] = .disjoint := by
  obtain ⟨c, cs, rfl⟩ := List.exists_cons_of_ne_nil hne
  obtain ⟨hnonempty, hslash⟩ := hcs c List.mem_cons_self
  obtain ⟨d, c, rfl⟩ := List.exists_cons_of_ne_nil hnonempty
  have hd : d ≠ '/' := fun h => hslash (h ▸ List.mem_cons_self)
  have hrender : render ((d :: c) :: cs) = '/' :: d :: (c ++ render cs) := rfl
  rw [hrender, comparePaths_cons_self, comparePaths_cons_self]
  exact ⟨comparePaths_nil_left _ hd, comparePaths_nil_right _ hd⟩

theorem components_eq_nil_iff (p : Text) :
    components p = [] ↔ ∀ c ∈ p, isSeparator c = true := by
  induction p with
  | nil => simp [components]
  | cons c p ih =>
    by_cases hc : isSeparator c = true
    · rw [components_separator hc, ih]
      simp [hc]
    · obtain ⟨first, rest, hsplit⟩ :=
        List.exists_cons_of_ne_nil (List.splitOnP_ne_nil isSeparator p)
      have hcons : (c :: p).splitOnP isSeparator = (c :: first) :: rest := by
        rw [List.splitOnP_cons_eq_if_modifyHead, if_neg hc, hsplit]
        rfl
      refine iff_of_false ?_ fun h => hc (h c List.mem_cons_self)
      rw [components, hcons]
      simp

/-! ## Exactness -/

theorem pathsConflict_of_not_fits {a b : Text} (ha : Rooted a) (hb : Rooted b)
    (h : ¬(Fits a ∧ Fits b)) : pathsConflict a b = .nested := by
  rw [pathsConflict, normalizePath_eq ha, normalizePath_eq hb]
  by_cases hfits : Fits a
  · rw [if_neg fun hfits' => h ⟨hfits, hfits'⟩]
    split <;> trivial
  · rw [if_neg hfits]

theorem pathsConflict_of_fits {a b : Text} (ha : Rooted a) (hb : Rooted b)
    (h : Fits a ∧ Fits b) :
    pathsConflict a b =
      comparePaths (if components a = [] then ['/'] else render (components a))
        (if components b = [] then ['/'] else render (components b)) := by
  rw [pathsConflict, normalizePath_eq ha, normalizePath_eq hb, if_pos h.1, if_pos h.2]

/-- **Conflicts are found exactly**, unless just one of the paths is the root.  The comparison is
one of normal forms, and of two lists of components it finds the relation that they have
(`comparePaths_render`).  The root has no components and is written with a separator none the
less, and that is where the test on the next character goes wrong (`comparePaths_root`).  A path
that does not fit its buffer counts as a conflict on both sides. -/
theorem paths_conflict_exact_iff {a b : Text} (ha : Rooted a) (hb : Rooted b) :
    pathsConflict a b = conflictOf a b ↔
      (Fits a → Fits b → ((∀ c ∈ a, isSeparator c = true) ↔ ∀ c ∈ b, isSeparator c = true)) := by
  rw [← components_eq_nil_iff, ← components_eq_nil_iff, conflictOf]
  by_cases hfits : Fits a ∧ Fits b
  · have hcomponents : ∀ p : Text, ∀ c ∈ components p, IsComponent c :=
      fun p c hc => isComponent_of_mem hc
    rw [if_pos hfits, pathsConflict_of_fits ha hb hfits]
    simp only [hfits, forall_const]
    by_cases hroot : components a = [] <;> by_cases hroot' : components b = []
    · simp [hroot, hroot', relation, comparePaths]
    · rw [if_pos hroot, if_neg hroot', (comparePaths_root (hcomponents b) hroot').1]
      simp [hroot, hroot', relation, Ne.symm hroot']
    · rw [if_neg hroot, if_pos hroot', (comparePaths_root (hcomponents a) hroot).2]
      simp [hroot, hroot', relation]
    · rw [if_neg hroot, if_neg hroot', comparePaths_render (hcomponents a) (hcomponents b)]
      simp [hroot, hroot']
  · rw [if_neg hfits, pathsConflict_of_not_fits ha hb hfits]
    exact iff_of_true rfl fun h h' => absurd ⟨h, h'⟩ hfits

/-- The theorem for a directory and one below it. -/
theorem paths_conflict_exact_iff_nested :
    pathsConflict (lit "/offs/") (lit "//offs/blocks") = .nested ∧
    conflictOf (lit "/offs/") (lit "//offs/blocks") = .nested := by
  have hnames : ¬(∀ c ∈ lit "/offs/", isSeparator c = true) ∧
      ¬∀ c ∈ lit "//offs/blocks", isSeparator c = true :=
    ⟨fun h => absurd (h 'o' (by decide)) (by decide),
      fun h => absurd (h 'o' (by decide)) (by decide)⟩
  have hexact := (paths_conflict_exact_iff (a := lit "/offs/") (b := lit "//offs/blocks")
    ⟨_, _, rfl, rfl⟩ ⟨_, _, rfl, rfl⟩).mpr fun _ _ => iff_of_false hnames.1 hnames.2
  have hconflict : pathsConflict (lit "/offs/") (lit "//offs/blocks") = .nested := by decide
  exact ⟨hconflict, hexact.symm.trans hconflict⟩

/-- **The root and a directory below it** are taken to be disjoint. -/
theorem root_conflict_missed :
    Rooted (lit "/") ∧ Rooted (lit "/offs") ∧ pathsConflict (lit "/") (lit "/offs") = .disjoint ∧
    components (lit "/") = [] ∧ components (lit "/offs") = [lit "offs"] ∧
    conflictOf (lit "/") (lit "/offs") = .nested := by
  refine ⟨⟨_, _, rfl, rfl⟩, ⟨_, _, rfl, rfl⟩, by decide, ?_, ?_, ?_⟩
  · simp [components, lit, List.splitOnP_cons_eq_if_modifyHead, isSeparator]
  · simp [components, lit, List.splitOnP_cons_eq_if_modifyHead, isSeparator]
  · have hfits : Fits (lit "/") ∧ Fits (lit "/offs") := by decide
    rw [conflictOf, if_pos hfits]
    simp [components, lit, List.splitOnP_cons_eq_if_modifyHead, isSeparator, relation]

end Offs.CliCache
