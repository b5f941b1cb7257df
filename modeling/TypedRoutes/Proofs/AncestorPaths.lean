import TypedRoutes.Proofs.LexicalPaths
import Mathlib.Data.List.Infix
import Mathlib.Data.List.TakeWhile

/-! # The way up from a path

The parent of a path has all its components but the last.  So a path and those above it are its
beginnings, each once and the longest first, down to the root or to the empty path.
-/

namespace TypedRoutes.Path
open TypedRoutes.Text

/-! ## Beginnings -/

/-- The component that a text begins with if it is the root or a dot. -/
def headOf (cs : List Char) : List Component :=
  if cs.head? = some '/' then [.root]
  else if cs.takeWhile (· != '/') = ['.'] then [.current] else []

theorem head?_splitChars (cs : List Char) :
    (splitChars '/' cs).head? = some (cs.takeWhile (· != '/')) := by
  induction cs with
  | nil => rfl
  | cons c cs ih =>
    obtain ⟨piece, pieces, hsplit⟩ := List.exists_cons_of_ne_nil (splitChars_ne_nil '/' cs)
    rw [hsplit, List.head?_cons, Option.some.injEq] at ih
    unfold splitChars
    split
    · rename_i hslash
      simp [hslash]
    · rename_i hc
      simp [hsplit, hc, ih]

def componentsOfChars (cs : List Char) : List Component := headOf cs ++ stepsOfChars cs

theorem components_eq (path : String) : components path = componentsOfChars path.toList := by
  have hdot : (splitOn '/' path).head? = some "." ↔ path.toList.takeWhile (· != '/') = ['.'] := by
    rw [splitOn, List.head?_map, head?_splitChars, Option.map_some, Option.some.injEq,
      ← String.toList_inj, String.toList_ofList]
    rfl
  simp only [components, filterMap_component?_splitOn, componentsOfChars, headOf, isAbsolute_iff,
    hdot, steps]

theorem takeWhile_slash (a b : List Char) :
    (a ++ '/' :: b).takeWhile (· != '/') = a.takeWhile (· != '/') := by
  rw [List.takeWhile_append]
  split
  · rename_i hlength
    rw [(List.takeWhile_prefix _).eq_of_length hlength]
    simp
  · rfl

/-- What a text begins with is before its first slash, or that slash. -/
theorem headOf_slash (a b : List Char) : headOf (a ++ '/' :: b) = headOf (a ++ ['/']) := by
  rw [headOf, headOf, takeWhile_slash, takeWhile_slash]
  cases a <;> rfl

theorem headOf_slash_end {a : List Char} (h : a ≠ []) : headOf (a ++ ['/']) = headOf a := by
  rw [headOf, headOf, takeWhile_slash, List.head?_append_of_ne_nil _ h]

theorem componentsOfChars_dropEmptyEnd (cs : List Char) :
    componentsOfChars (dropEmptyEnd cs).reverse = componentsOfChars cs.reverse := by
  have hhead : headOf (dropEmptyEnd cs).reverse = headOf cs.reverse := by
    fun_induction dropEmptyEnd cs with
    | case1 cs h =>
      obtain rfl : cs = [] := by simpa using h
      rfl
    | case2 cs h ih =>
      have hne : cs.reverse ≠ [] := by simpa using h
      rw [ih, List.reverse_cons, headOf_slash_end hne]
    | case3 cs h =>
      obtain rfl : cs = [] := by simpa using h
      rfl
    | case4 cs h ih =>
      have hne : cs.reverse ≠ [] := by simpa using h
      have hsplit : ('.' :: '/' :: cs).reverse = cs.reverse ++ '/' :: ['.'] := by simp
      rw [ih, hsplit, headOf_slash, headOf_slash_end hne]
    | case5 => rfl
  rw [componentsOfChars, componentsOfChars, hhead, (stepsOfChars_dropEmptyEnd cs).1]

/-! ## Parents -/

theorem exists_stepsOfChars {piece : List Char} (hslash : '/' ∉ piece) (hne : piece ≠ [])
    (hdot : piece ≠ ['.']) : ∃ c, stepsOfChars piece = [c] := by
  have hname : ¬(String.ofList piece = "" ∨ String.ofList piece = ".") := by
    rw [← String.toList_inj, ← String.toList_inj, String.toList_ofList]
    exact not_or.2 ⟨hne, hdot⟩
  rw [stepsOfChars_of_notMem hslash, component?, if_neg (by simpa using hname)]
  split
  · exact ⟨_, rfl⟩
  · exact ⟨_, rfl⟩

theorem exists_componentsOfChars {piece : List Char} (hslash : '/' ∉ piece) (hne : piece ≠ []) :
    ∃ c, componentsOfChars piece = [c] := by
  have hwhole : piece.takeWhile (· != '/') = piece :=
    List.takeWhile_eq_self_iff.2 fun c hc => bne_iff_ne.2 (ne_of_mem_of_not_mem hc hslash)
  have hhead : piece.head? ≠ some '/' := fun heq => hslash (List.mem_of_head? heq)
  rw [componentsOfChars, headOf, hwhole, if_neg hhead]
  by_cases hdot : piece = ['.']
  · subst hdot
    exact ⟨.current, by decide⟩
  · rw [if_neg hdot]
    exact exists_stepsOfChars hslash hne hdot

/-- The last component of a text, given in reverse, stands after its last slash. -/
theorem componentsOfChars_cut {kept : List Char} (hne : kept ≠ [])
    (hslash : ∀ rest, kept ≠ '/' :: rest) (hdot : ∀ rest, kept ≠ '.' :: '/' :: rest) :
    ∃ c, componentsOfChars kept.reverse =
      componentsOfChars (kept.dropWhile (· != '/')).reverse ++ [c] := by
  have hwhole := List.takeWhile_append_dropWhile (p := (· != '/')) (l := kept)
  have hplain : '/' ∉ (kept.takeWhile (· != '/')).reverse := by
    simpa using slash_notMem_takeWhile kept
  generalize kept.takeWhile (· != '/') = piece at hwhole hplain
  obtain hnil | ⟨rest, hrest⟩ := dropWhile_slash kept
  · rw [hnil, List.append_nil] at hwhole
    subst hwhole
    rw [hnil]
    exact exists_componentsOfChars hplain (by simpa using hne)
  · rw [hrest] at hwhole ⊢
    have hsome : piece.reverse ≠ [] := by
      intro hnil
      rw [List.reverse_eq_nil_iff.1 hnil] at hwhole
      exact hslash rest hwhole.symm
    have hmore : piece.reverse ≠ ['.'] := by
      intro heq
      rw [List.reverse_eq_iff.1 heq] at hwhole
      exact hdot rest hwhole.symm
    obtain ⟨c, hc⟩ := exists_stepsOfChars hplain hsome hmore
    have hsplit : kept.reverse = rest.reverse ++ '/' :: piece.reverse := by
      rw [← hwhole]
      simp
    refine ⟨c, ?_⟩
    rw [componentsOfChars, componentsOfChars, hsplit, List.reverse_cons, headOf_slash,
      stepsOfChars_slash, stepsOfChars_slash, stepsOfChars_nil, List.append_nil, hc,
      List.append_assoc]

/-- A path without its last component: all before the slash that it stands after. -/
theorem components_parent? {path up : String} (h : parent? path = some up) :
    ∃ c, c ≠ .root ∧ components path = components up ++ [c] := by
  let kept := dropEmptyEnd path.toList.reverse
  obtain ⟨hup, hlast⟩ : up = String.ofList (dropEmptyEnd (kept.dropWhile (· != '/'))).reverse ∧
      (components path).getLast? ≠ none ∧ (components path).getLast? ≠ some .root := by
    unfold parent? at h
    split at h
    · cases h
    · cases h
    · rename_i c hroot hc
      rw [hc]
      exact ⟨(Option.some.inj h).symm, by simp, fun heq => hroot (Option.some.inj heq)⟩
  have hpath : components path = componentsOfChars kept.reverse := by
    rw [components_eq, componentsOfChars_dropEmptyEnd, List.reverse_reverse]
  have hparent : components up = componentsOfChars (kept.dropWhile (· != '/')).reverse := by
    rw [components_eq, hup, String.toList_ofList, componentsOfChars_dropEmptyEnd]
  rw [hpath] at hlast ⊢
  rw [hparent]
  obtain hroot | ⟨hslash, hdot⟩ := dropEmptyEnd_shape path.toList.reverse
  · have hkept : componentsOfChars kept.reverse = [.root] := by
      rw [show kept = ['/'] from hroot]
      decide
    rw [hkept] at hlast
    exact absurd rfl hlast.2
  · have hne : kept ≠ [] := by
      intro hnil
      rw [hnil] at hlast
      exact hlast.1 rfl
    obtain ⟨c, hc⟩ := componentsOfChars_cut hne hslash hdot
    refine ⟨c, ?_, hc⟩
    rintro rfl
    rw [hc, List.getLast?_concat] at hlast
    exact hlast.2 rfl

/-! ## Roots -/

theorem root_notMem_stepsOfChars (cs : List Char) : Component.root ∉ stepsOfChars cs := by
  intro hroot
  obtain ⟨piece, -, hpiece⟩ := List.mem_filterMap.1 hroot
  unfold component? at hpiece
  split at hpiece
  · cases hpiece
  · split at hpiece <;> cases hpiece

theorem isAbsolute_iff_components (path : String) :
    isAbsolute path = true ↔ (components path).head? = some .root := by
  rw [isAbsolute_iff, components_eq, componentsOfChars, headOf]
  split
  · rename_i hslash
    simp [hslash]
  · rename_i hslash
    refine iff_of_false hslash fun hroot => ?_
    split at hroot
    · cases hroot
    · exact root_notMem_stepsOfChars _ (List.mem_of_head? hroot)

theorem eq_root_of_getLast? {path : String} (h : (components path).getLast? = some .root) :
    components path = [.root] := by
  rw [components_eq, componentsOfChars] at h ⊢
  rcases List.eq_nil_or_concat' (stepsOfChars path.toList) with hsteps | ⟨before, c, hsteps⟩
  · rw [hsteps, List.append_nil] at h ⊢
    unfold headOf at h ⊢
    by_cases hslash : path.toList.head? = some '/'
    · rw [if_pos hslash]
    · rw [if_neg hslash] at h
      split at h <;> cases h
  · rw [hsteps, ← List.append_assoc, List.getLast?_concat] at h
    have hroot : Component.root ∈ stepsOfChars path.toList := by
      rw [hsteps, ← Option.some.inj h]
      simp
    exact absurd hroot (root_notMem_stepsOfChars _)

theorem components_of_parent?_eq_none {path : String} (h : parent? path = none) :
    components path = [] ∨ components path = [.root] := by
  unfold parent? at h
  split at h
  · rename_i hnone
    exact .inl (List.getLast?_eq_none_iff.1 hnone)
  · rename_i hroot
    exact .inr (eq_root_of_getLast? hroot)
  · cases h

/-! ## All that is above a path -/

/-- The beginnings of a path, the longest first: the root of an absolute path is the last, and of
any other path the empty one. -/
def beginnings (path : String) : List (List Component) :=
  ((components path).inits.filter fun cs => cs ≠ [] ∨ isAbsolute path = false).reverse

theorem beginnings_of_parent?_eq_none {path : String} (h : parent? path = none) :
    beginnings path = [components path] := by
  unfold beginnings
  have habsolute := isAbsolute_iff_components path
  obtain hnil | hroot := components_of_parent?_eq_none h
  · rw [hnil] at habsolute ⊢
    simp [Bool.eq_false_iff.2 (mt habsolute.1 (by simp))]
  · rw [hroot] at habsolute ⊢
    simp [habsolute.2 rfl]

theorem beginnings_of_parent? {path up : String} (h : parent? path = some up) :
    beginnings path = components path :: beginnings up := by
  obtain ⟨c, hc, hcomponents⟩ := components_parent? h
  have habsolute : isAbsolute path = isAbsolute up := by
    rw [Bool.eq_iff_iff, isAbsolute_iff_components, isAbsolute_iff_components, hcomponents]
    cases components up with
    | nil => simpa using hc
    | cons d rest => rfl
  unfold beginnings
  rw [hcomponents, habsolute, List.inits_append]
  simp

theorem map_components_ancestorsUpTo {n : Nat} {path : String}
    (h : (components path).length ≤ n) :
    (ancestorsUpTo n path).map components = beginnings path := by
  induction n generalizing path with
  | zero =>
    have hnil : components path = [] := List.eq_nil_of_length_eq_zero (Nat.le_zero.1 h)
    have hnone : parent? path = none := by
      rw [parent?, hnil]
      rfl
    rw [ancestorsUpTo, beginnings_of_parent?_eq_none hnone]
    rfl
  | succ n ih =>
    unfold ancestorsUpTo
    split
    · rename_i up hup
      obtain ⟨c, -, hc⟩ := components_parent? hup
      rw [hc, List.length_append, List.length_singleton] at h
      rw [List.map_cons, ih (Nat.le_of_succ_le_succ h), beginnings_of_parent? hup]
    · rename_i hnone
      rw [beginnings_of_parent?_eq_none hnone]
      rfl

theorem length_splitChars_le (separator : Char) (cs : List Char) :
    (splitChars separator cs).length ≤ cs.length + 1 := by
  induction cs with
  | nil => exact Nat.le_refl 1
  | cons c cs ih =>
    obtain ⟨piece, pieces, hsplit⟩ :=
      List.exists_cons_of_ne_nil (splitChars_ne_nil separator cs)
    rw [hsplit, List.length_cons] at ih
    rw [splitChars, hsplit]
    split
    · simp only [List.length_cons]
      omega
    · simp only [List.length_cons]
      omega

theorem length_components_le (path : String) : (components path).length ≤ path.length + 1 := by
  refine Nat.le_trans ?_ (length_splitChars_le '/' path.toList)
  have hhead := head?_splitChars path.toList
  obtain ⟨piece, pieces, hsplit⟩ :=
    List.exists_cons_of_ne_nil (splitChars_ne_nil '/' path.toList)
  rw [hsplit, List.head?_cons, Option.some.injEq] at hhead
  rw [components_eq, componentsOfChars, stepsOfChars, hsplit, List.length_append]
  let meaning (piece : List Char) := component? (String.ofList piece)
  have hpieces := List.length_filterMap_le meaning pieces
  -- the first piece is a component by itself or with what the path begins with, not both
  by_cases hnone : meaning piece = none
  · have hone : (headOf path.toList).length ≤ 1 := by
      unfold headOf
      split
      · exact Nat.le_refl 1
      · split <;> simp
    rw [List.filterMap_cons_none (f := meaning) hnone, List.length_cons]
    omega
  · have hplain : headOf path.toList = [] := by
      rw [headOf, ← hhead, if_neg, if_neg]
      · rintro rfl
        exact hnone rfl
      · intro hslash
        obtain ⟨rest, hrest⟩ := List.head?_eq_some_iff.1 hslash
        rw [hhead, hrest] at hnone
        exact hnone rfl
    rw [hplain, List.length_nil, Nat.zero_add]
    exact List.length_filterMap_le meaning (piece :: pieces)

/-- A path and all that is above it are its beginnings. -/
theorem map_components_ancestors (path : String) :
    (ancestors path).map components = beginnings path :=
  map_components_ancestorsUpTo (length_components_le path)

theorem pairwise_inits {α : Type} (l : List α) :
    l.inits.Pairwise fun a b => a <+: b ∧ a ≠ b := by
  induction l with
  | nil => exact List.pairwise_singleton _ _
  | cons x l ih =>
    rw [List.inits_cons, List.pairwise_cons, List.pairwise_map]
    refine ⟨?_, ih.imp fun h => ⟨List.cons_prefix_cons.2 ⟨rfl, h.1⟩, by simpa using h.2⟩⟩
    intro b hb
    obtain ⟨rest, -, rfl⟩ := List.mem_map.1 hb
    exact ⟨List.nil_prefix, by simp⟩

/-- Each path on the way up is a proper beginning of those before it. -/
theorem pairwise_ancestors (path : String) : (ancestors path).Pairwise fun d up =>
    components up <+: components d ∧ components up ≠ components d := by
  rw [← List.pairwise_map (f := components)
    (R := fun cs up : List Component => up <+: cs ∧ up ≠ cs), map_components_ancestors, beginnings,
    List.pairwise_reverse]
  exact (pairwise_inits _).filter _

end TypedRoutes.Path
