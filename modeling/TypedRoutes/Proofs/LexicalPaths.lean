import TypedRoutes.Path
import TypedRoutes.Proofs.TextPieces

/-! # Following paths from directory to directory

A path is followed component by component, on a stack of the components so far.  Following one path
and then another is following the two joined, a path without its last name leads to where that name
is found, and the text written for the way between two directories leads from the one to the other.
-/

namespace TypedRoutes.Path
open TypedRoutes.Text

/-! ## The pieces between slashes -/

/-- The components of a text but for a root or a dot that it begins with. -/
def stepsOfChars (cs : List Char) : List Component :=
  (splitChars '/' cs).filterMap fun piece => component? (String.ofList piece)

def steps (path : String) : List Component := stepsOfChars path.toList

theorem filterMap_component?_splitOn (path : String) :
    (splitOn '/' path).filterMap component? = steps path := by
  simp [splitOn, steps, stepsOfChars, List.filterMap_map]

theorem stepsOfChars_of_notMem {cs : List Char} (h : '/' ∉ cs) :
    stepsOfChars cs = (component? (String.ofList cs)).toList := by
  simp [stepsOfChars, splitChars_of_notMem h, List.filterMap_cons]
  cases component? (String.ofList cs) <;> rfl

theorem stepsOfChars_slash (a b : List Char) :
    stepsOfChars (a ++ '/' :: b) = stepsOfChars a ++ stepsOfChars b := by
  simp [stepsOfChars, splitChars_separator]

@[simp] theorem stepsOfChars_nil : stepsOfChars [] = [] := by
  simp [stepsOfChars_of_notMem, component?]

@[simp] theorem stepsOfChars_dot : stepsOfChars ['.'] = [] := by
  decide

theorem steps_slash (a b : String) : steps (a ++ "/" ++ b) = steps a ++ steps b := by
  simp [steps, stepsOfChars_slash]

theorem steps_of_notMem {piece : String} (h : '/' ∉ piece.toList) :
    steps piece = (component? piece).toList := by
  simp [steps, stepsOfChars_of_notMem h]

theorem steps_join {parts : List String} (h : ∀ p ∈ parts, '/' ∉ p.toList) :
    steps (Text.join "/" parts) = parts.filterMap component? := by
  induction parts with
  | nil => rfl
  | cons p parts ih =>
    have hp : steps p = (component? p).toList := steps_of_notMem (h p (.head _))
    have hrest := ih fun q hq => h q (.tail _ hq)
    have hcons : (p :: parts).filterMap component? =
        (component? p).toList ++ parts.filterMap component? := by
      rw [List.filterMap_cons]
      cases component? p <;> rfl
    rw [hcons]
    cases parts with
    | nil => simpa [Text.join] using hp
    | cons q parts =>
      have hjoin : Text.join "/" (p :: q :: parts) = p ++ "/" ++ Text.join "/" (q :: parts) :=
        String.intercalate_cons_cons
      rw [hjoin, steps_slash, hp, hrest]

/-! ## Following a path -/

/-- The components after a path is followed, the last first. -/
def follow (stack : List Component) (path : String) : List Component :=
  (components path).foldl step stack

def resolve (directory : List Component) (path : String) : List Component :=
  (follow directory.reverse path).reverse

theorem normalize_eq (base path : String) :
    normalize base path = (follow [] (join base path)).reverse := rfl

/-- Only the root that an absolute path begins with counts, and after it the steps. -/
theorem follow_eq (stack : List Component) (path : String) :
    follow stack path =
      (steps path).foldl step (if isAbsolute path then [.root] else stack) := by
  simp only [follow, components, filterMap_component?_splitOn, List.foldl_append]
  split
  · rfl
  · split <;> rfl

theorem follow_of_isAbsolute {path : String} (h : isAbsolute path = true)
    (stack stack' : List Component) : follow stack path = follow stack' path := by
  simp [follow_eq, h]

theorem isAbsolute_iff (path : String) : isAbsolute path = true ↔ path.toList.head? = some '/' := by
  unfold isAbsolute beginsWith
  cases path.toList with
  | nil => decide
  | cons c cs =>
    have hslash : "/".toList = ['/'] := rfl
    rw [hslash, List.isPrefixOf_cons_cons]
    simp only [List.isPrefixOf_nil_left, Bool.and_true, beq_iff_eq, List.head?_cons,
      Option.some.injEq]
    exact eq_comm

theorem isAbsolute_append {a : String} (b : String) (ha : a ≠ "") :
    isAbsolute (a ++ b) = isAbsolute a := by
  have hne : a.toList ≠ [] := by simpa using ha
  rw [Bool.eq_iff_iff, isAbsolute_iff, isAbsolute_iff, String.toList_append,
    List.head?_append_of_ne_nil _ hne]

theorem follow_slash (stack : List Component) (a b : String) :
    follow stack (a ++ "/" ++ b) = (steps b).foldl step (follow stack (a ++ "/")) := by
  have hslash : steps (a ++ "/") = steps a := by
    have h := steps_slash a ""
    rwa [String.append_empty, show steps "" = [] from rfl, List.append_nil] at h
  rw [follow_eq, follow_eq, steps_slash, hslash, List.foldl_append,
    isAbsolute_append _ (by simp)]

theorem follow_slash_end (stack : List Component) {path : String} (h : path ≠ "") :
    follow stack (path ++ "/") = follow stack path := by
  have hsteps := steps_slash path ""
  rw [String.append_empty, show steps "" = [] from rfl, List.append_nil] at hsteps
  rw [follow_eq, follow_eq, hsteps, isAbsolute_append _ h]

theorem follow_join (stack : List Component) (directory path : String) :
    follow stack (join directory path) = follow (follow stack directory) path := by
  unfold join
  by_cases habs : isAbsolute path = true
  · simpa [habs] using follow_of_isAbsolute habs _ _
  · by_cases hempty : directory = ""
    · have hstay : follow stack "" = stack := rfl
      simp [hempty, hstay]
    · have hrelative : follow (follow stack directory) path =
          (steps path).foldl step (follow stack directory) := by
        rw [follow_eq _ path, if_neg habs]
      rw [hrelative, if_neg (by simp [habs, hempty])]
      split
      · rename_i hslash
        obtain ⟨start, rfl⟩ := endsWith_iff.1 hslash
        exact follow_slash stack start path
      · rw [follow_slash, follow_slash_end stack hempty]

/-! ## The last name of a path -/

/-- Nothing that a path means is lost with the slashes and dots at its end. -/
theorem stepsOfChars_dropEmptyEnd (cs : List Char) :
    stepsOfChars (dropEmptyEnd cs).reverse = stepsOfChars cs.reverse ∧
      (dropEmptyEnd cs).getLast? = cs.getLast? := by
  fun_induction dropEmptyEnd cs with
  | case1 cs h =>
    obtain rfl : cs = [] := by simpa using h
    simp
  | case2 cs h ih =>
    obtain ⟨c, rest, rfl⟩ := List.exists_cons_of_ne_nil (by simpa using h : cs ≠ [])
    have hslash : stepsOfChars ('/' :: c :: rest).reverse = stepsOfChars (c :: rest).reverse := by
      rw [List.reverse_cons, stepsOfChars_slash, stepsOfChars_nil, List.append_nil]
    rw [hslash]
    exact ⟨ih.1, by rw [ih.2, List.getLast?_cons_cons]⟩
  | case3 cs h =>
    obtain rfl : cs = [] := by simpa using h
    exact ⟨by decide, by decide⟩
  | case4 cs h ih =>
    obtain ⟨c, rest, rfl⟩ := List.exists_cons_of_ne_nil (by simpa using h : cs ≠ [])
    have hdot : stepsOfChars ('.' :: '/' :: c :: rest).reverse =
        stepsOfChars (c :: rest).reverse := by
      have hsplit : ('.' :: '/' :: c :: rest).reverse = (c :: rest).reverse ++ '/' :: ['.'] := by
        simp
      rw [hsplit, stepsOfChars_slash]
      simp
    rw [hdot]
    exact ⟨ih.1, by rw [ih.2, List.getLast?_cons_cons, List.getLast?_cons_cons]⟩
  | case5 => exact ⟨rfl, rfl⟩

/-- What is left ends in a name, or is a root. -/
theorem dropEmptyEnd_shape (cs : List Char) :
    dropEmptyEnd cs = ['/'] ∨ (∀ rest, dropEmptyEnd cs ≠ '/' :: rest) ∧
      ∀ rest, dropEmptyEnd cs ≠ '.' :: '/' :: rest := by
  fun_induction dropEmptyEnd cs with
  | case1 => exact .inl rfl
  | case2 cs h ih => exact ih
  | case3 => exact .inl rfl
  | case4 cs h ih => exact ih
  | case5 cs hslash hdot => exact .inr ⟨fun rest h => hslash rest h, fun rest h => hdot rest h⟩

/-- What follows a piece is nothing or begins with a slash. -/
theorem dropWhile_slash (cs : List Char) :
    cs.dropWhile (· != '/') = [] ∨ ∃ rest, cs.dropWhile (· != '/') = '/' :: rest := by
  have hhead := List.head?_dropWhile_not (· != '/') cs
  cases h : cs.dropWhile (· != '/') with
  | nil => exact .inl rfl
  | cons c rest =>
    rw [h] at hhead
    obtain rfl : c = '/' := by simpa using hhead
    exact .inr ⟨rest, rfl⟩

theorem slash_notMem_takeWhile (cs : List Char) : '/' ∉ cs.takeWhile (· != '/') := by
  intro h
  have hall := List.all_takeWhile (p := (· != '/')) (l := cs)
  rw [List.all_eq_true] at hall
  simpa using hall _ h

theorem stepsOfChars_cut (cs : List Char) :
    stepsOfChars cs.reverse = stepsOfChars (cs.dropWhile (· != '/')).reverse ++
      stepsOfChars (cs.takeWhile (· != '/')).reverse := by
  have hwhole := List.takeWhile_append_dropWhile (p := (· != '/')) (l := cs)
  obtain hnil | ⟨rest, hrest⟩ := dropWhile_slash cs
  · rw [hnil, List.append_nil] at hwhole
    rw [hnil, hwhole]
    simp
  · have hsplit : cs.reverse = rest.reverse ++ '/' :: (cs.takeWhile (· != '/')).reverse := by
      conv => lhs; rw [← hwhole, hrest]
      simp
    rw [hsplit, stepsOfChars_slash, hrest, List.reverse_cons, stepsOfChars_slash, stepsOfChars_nil,
      List.append_nil]

theorem getLast?_dropWhile_slash (cs : List Char) :
    (cs.dropWhile (· != '/')).getLast? = some '/' ↔ cs.getLast? = some '/' := by
  have hwhole := List.takeWhile_append_dropWhile (p := (· != '/')) (l := cs)
  have hpiece : (cs.takeWhile (· != '/')).getLast? ≠ some '/' := fun h =>
    slash_notMem_takeWhile cs (List.mem_of_getLast? h)
  conv => rhs; rw [← hwhole, List.getLast?_append]
  cases (cs.dropWhile (· != '/')).getLast? with
  | none => simpa using hpiece
  | some c => simp

/-- The piece that a text ends in means something unless the whole text means nothing. -/
theorem stepsOfChars_eq_nil {cs : List Char}
    (h : stepsOfChars ((dropEmptyEnd cs).takeWhile (· != '/')).reverse = []) :
    stepsOfChars cs.reverse = [] := by
  rw [← (stepsOfChars_dropEmptyEnd cs).1]
  have hshape := dropEmptyEnd_shape cs
  generalize dropEmptyEnd cs = kept at *
  have hpiece : kept.takeWhile (· != '/') = [] ∨ kept.takeWhile (· != '/') = ['.'] := by
    have hplain : '/' ∉ (kept.takeWhile (· != '/')).reverse := by
      simpa using slash_notMem_takeWhile kept
    rw [stepsOfChars_of_notMem hplain, component?] at h
    split at h
    · rename_i hempty
      simpa [← String.toList_inj] using hempty
    · split at h <;> cases h
  have hwhole := List.takeWhile_append_dropWhile (p := (· != '/')) (l := kept)
  obtain hpiece | hpiece := hpiece <;> obtain hrest | ⟨rest, hrest⟩ := dropWhile_slash kept <;>
    rw [hpiece, hrest] at hwhole
  · rw [← hwhole]
    decide
  · obtain hroot | hshape := hshape
    · rw [hroot]
      decide
    · exact absurd hwhole.symm (hshape.1 rest)
  · rw [← hwhole]
    decide
  · obtain hroot | hshape := hshape
    · rw [hroot]
      decide
    · exact absurd hwhole.symm (hshape.2 rest)

theorem steps_of_fileName? {path name : String} (h : fileName? path = some name) :
    ∃ before, steps path = before ++ [.named name] := by
  have hlast : (components path).getLast? = some (.named name) := by
    unfold fileName? at h
    split at h
    · rename_i hlast
      rw [hlast, Option.some.inj h]
    · cases h
  rw [components, filterMap_component?_splitOn] at hlast
  rcases List.eq_nil_or_concat' (steps path) with hnil | ⟨before, c, hsteps⟩
  · rw [hnil, List.append_nil] at hlast
    split at hlast
    · simp at hlast
    · split at hlast <;> simp at hlast
  · refine ⟨before, ?_⟩
    rw [hsteps, List.getLast?_append] at hlast
    obtain rfl : c = .named name := by simpa using hlast
    exact hsteps

/-- A path that ends in a name leads to where its parent leads, and down by that name. -/
theorem follow_parent? {path name : String} (h : fileName? path = some name) :
    ∃ up, parent? path = some up ∧
      ∀ stack, follow stack path = .named name :: follow stack up := by
  obtain ⟨before, hsteps⟩ := steps_of_fileName? h
  let kept := dropEmptyEnd path.toList.reverse
  let up := String.ofList (dropEmptyEnd (kept.dropWhile (· != '/'))).reverse
  have hup : parent? path = some up := by
    unfold fileName? at h
    unfold parent?
    split at h
    · rename_i hlast
      rw [hlast]
    · cases h
  -- the piece at the end is the name, and the steps before it are those of the parent
  have hpiece : ∃ c, stepsOfChars (kept.takeWhile (· != '/')).reverse = [c] := by
    have hplain : '/' ∉ (kept.takeWhile (· != '/')).reverse := by
      simpa using slash_notMem_takeWhile kept
    have hne : stepsOfChars (kept.takeWhile (· != '/')).reverse ≠ [] := by
      intro hnil
      have hnone := stepsOfChars_eq_nil hnil
      rw [List.reverse_reverse] at hnone
      have : steps path = [] := hnone
      simp [hsteps] at this
    rw [stepsOfChars_of_notMem hplain] at hne ⊢
    cases hc : component? (String.ofList (kept.takeWhile (· != '/')).reverse) with
    | none => exact absurd (by rw [hc]; rfl) hne
    | some c => exact ⟨c, rfl⟩
  obtain ⟨c, hc⟩ := hpiece
  have hupsteps : steps path = steps up ++ [.named name] := by
    have hpath : steps path = stepsOfChars kept.reverse := by
      rw [(stepsOfChars_dropEmptyEnd path.toList.reverse).1, List.reverse_reverse, steps]
    have hparent : steps up = stepsOfChars (kept.dropWhile (· != '/')).reverse := by
      rw [← (stepsOfChars_dropEmptyEnd (kept.dropWhile (· != '/'))).1, steps,
        String.toList_ofList]
    rw [stepsOfChars_cut, hc, ← hparent] at hpath
    have hlast := congrArg List.getLast? (hpath.symm.trans hsteps)
    obtain rfl : c = .named name := by simpa using hlast
    exact hpath
  have habs : isAbsolute up = isAbsolute path := by
    rw [Bool.eq_iff_iff, isAbsolute_iff, isAbsolute_iff, String.toList_ofList, List.head?_reverse,
      (stepsOfChars_dropEmptyEnd _).2, getLast?_dropWhile_slash, (stepsOfChars_dropEmptyEnd _).2,
      List.getLast?_reverse]
  refine ⟨up, hup, fun stack => ?_⟩
  rw [follow_eq, follow_eq, hupsteps, habs, List.foldl_append]
  rfl

/-! ## Directories below the root -/

/-- A name that a path goes down by. -/
def IsOrdinary (name : String) : Prop :=
  name ≠ "" ∧ name ≠ "." ∧ name ≠ ".." ∧ '/' ∉ name.toList

instance : DecidablePred IsOrdinary := fun _ => inferInstanceAs (Decidable (_ ∧ _ ∧ _ ∧ _))

theorem IsOrdinary.component? {name : String} (h : IsOrdinary name) :
    component? name = some (.named name) := by
  simp [Path.component?, h.1, h.2.1, h.2.2.1]

theorem isOrdinary_of_mem_steps {path name : String} (h : .named name ∈ steps path) :
    IsOrdinary name := by
  obtain ⟨piece, hpiece, hc⟩ := List.mem_filterMap.1 h
  unfold Path.component? at hc
  split at hc
  · cases hc
  · rename_i hempty
    split at hc
    · cases hc
    · rename_i hparent
      obtain rfl : String.ofList piece = name := by simpa using hc
      simp only [Bool.or_eq_true, decide_eq_true_eq, not_or] at hempty
      exact ⟨hempty.1, hempty.2, hparent, by simpa using notMem_of_mem_splitChars hpiece⟩

/-- The directory that names lead down to from the root. -/
def belowRoot (names : List String) : List Component := .root :: names.map .named

/-- A directory below the root as a stack, the last name first. -/
inductive Descent : List Component → Prop where
  | root : Descent [.root]
  | down {name : String} {stack : List Component} (hname : IsOrdinary name)
      (hstack : Descent stack) : Descent (.named name :: stack)

namespace Descent
variable {stack : List Component}

theorem step {c : Component} (h : Descent stack)
    (hc : ∀ name, c = .named name → IsOrdinary name) : Descent (step stack c) := by
  cases c with
  | root => exact .root
  | current => exact h
  | named name => exact .down (hc name rfl) h
  | parent =>
    cases h with
    | root => exact .root
    | down hname hstack => exact hstack

theorem foldl_steps {cs : List Component} (h : Descent stack)
    (hcs : ∀ name, .named name ∈ cs → IsOrdinary name) : Descent (cs.foldl Path.step stack) := by
  induction cs generalizing stack with
  | nil => exact h
  | cons c cs ih =>
    have hc : Descent (Path.step stack c) :=
      h.step fun name heq => hcs name (by rw [heq]; exact .head _)
    exact ih hc fun name hmem => hcs name (.tail _ hmem)

theorem follow (h : Descent stack) (path : String) : Descent (follow stack path) := by
  rw [follow_eq]
  split
  · exact Descent.root.foldl_steps fun name => isOrdinary_of_mem_steps
  · exact h.foldl_steps fun name => isOrdinary_of_mem_steps

theorem exists_names (h : Descent stack) : ∃ names : List String,
    (∀ name ∈ names, IsOrdinary name) ∧ stack.reverse = belowRoot names := by
  induction h with
  | root => exact ⟨[], by simp, rfl⟩
  | @down name stack hname hstack ih =>
    obtain ⟨names, hnames, hreverse⟩ := ih
    have hdown : (.named name :: stack).reverse = belowRoot (names ++ [name]) := by
      rw [List.reverse_cons, hreverse, belowRoot, belowRoot, List.map_append]
      rfl
    refine ⟨names ++ [name], ?_, hdown⟩
    intro other hmem
    obtain hmem | hmem := List.mem_append.1 hmem
    · exact hnames other hmem
    · rwa [List.mem_singleton.1 hmem]

end Descent

/-- Whatever a path is joined to that begins at the root leads down from the root. -/
theorem descent_of_isAbsolute {path : String} (h : isAbsolute path = true) :
    Descent (follow [] path) := by
  rw [follow_of_isAbsolute h [] [.root]]
  exact Descent.root.follow path

theorem foldl_step_names (names : List String) (stack : List Component) :
    (names.map Component.named).foldl step stack =
      (names.map Component.named).reverse ++ stack := by
  induction names generalizing stack with
  | nil => rfl
  | cons name names ih =>
    rw [List.map_cons, List.foldl_cons, ih]
    simp [step]

theorem foldl_step_parents (names : List String) (stack : List Component) :
    (List.replicate names.length Component.parent).foldl step
      ((names.map Component.named).reverse ++ stack) = stack := by
  rw [← List.map_reverse, ← List.length_reverse]
  induction names.reverse with
  | nil => rfl
  | cons name names ih => exact ih

/-! ## The way from one directory to another -/

theorem take_commonLength {α : Type} [DecidableEq α] (as bs : List α) :
    as.take (commonLength as bs) = bs.take (commonLength as bs) := by
  fun_induction commonLength as bs with
  | case1 as b bs ih => simp [ih]
  | case2 => rfl
  | case3 => rfl

/-- The text of a way, which begins with a dot. -/
def wayText : List String → String
  | [] => "."
  | ".." :: parts => Text.join "/" (".." :: parts)
  | parts => "./" ++ Text.join "/" parts

theorem relativeSpecifier_eq (here there : List Component) :
    relativeSpecifier here there =
      wayText (List.replicate (here.length - commonLength here there) ".." ++
        (there.drop (commonLength here there)).map Component.text) := by
  simp only [relativeSpecifier]
  generalize List.replicate _ _ ++ _ = parts
  fun_cases wayText parts with
  | case1 => rfl
  | case2 => rfl
  | case3 parts hnil hparent =>
    split
    · exact absurd rfl hnil
    · exact absurd rfl (hparent _)
    · rfl

/-- The way between two directories goes up to the last one they share, and down from there. -/
theorem exists_way (here there : List String) : ∃ shared up down,
    here = shared ++ up ∧ there = shared ++ down ∧
      relativeSpecifier (belowRoot here) (belowRoot there) =
        wayText (List.replicate up.length ".." ++ down) := by
  let k := commonLength (here.map Component.named) (there.map Component.named)
  have hshared : here.take k = there.take k := by
    have h := take_commonLength (here.map Component.named) (there.map Component.named)
    rw [← List.map_take, ← List.map_take] at h
    exact List.map_injective_iff.2 (fun _ _ => Component.named.inj) h
  refine ⟨here.take k, here.drop k, there.drop k, (List.take_append_drop k here).symm, ?_, ?_⟩
  · rw [hshared, List.take_append_drop]
  · have hlength : commonLength (belowRoot here) (belowRoot there) = k + 1 := by
      rw [belowRoot, belowRoot, commonLength, if_pos rfl]
    have hdown : ((belowRoot there).drop (k + 1)).map Component.text = there.drop k := by
      rw [belowRoot, List.drop_succ_cons, ← List.map_drop, List.map_map]
      exact List.map_id _
    rw [relativeSpecifier_eq, hlength, hdown]
    simp [belowRoot]

def IsWay (parts : List String) : Prop := ∀ p ∈ parts, p ≠ "" ∧ '/' ∉ p.toList

theorem isWay_of_isOrdinary {n : Nat} {names : List String} (h : ∀ name ∈ names, IsOrdinary name) :
    IsWay (List.replicate n ".." ++ names) := by
  intro p hp
  obtain hp | hp := List.mem_append.1 hp
  · rw [List.eq_of_mem_replicate hp]
    decide
  · exact ⟨(h p hp).1, (h p hp).2.2.2⟩

theorem join_cons_cons (separator p q : String) (parts : List String) :
    Text.join separator (p :: q :: parts) = p ++ separator ++ Text.join separator (q :: parts) :=
  String.intercalate_cons_cons

theorem steps_wayText {parts : List String} (h : IsWay parts) :
    steps (wayText parts) = parts.filterMap component? := by
  have hjoin : steps (Text.join "/" parts) = parts.filterMap component? :=
    steps_join fun p hp => (h p hp).2
  fun_cases wayText parts with
  | case1 => rfl
  | case2 => exact hjoin
  | case3 =>
    have hdot : "./" ++ Text.join "/" parts = "." ++ "/" ++ Text.join "/" parts := rfl
    rw [hdot, steps_slash, hjoin]
    rfl

theorem wayText_slash (parts : List String) :
    ∃ rest, wayText parts ++ "/" = "./" ++ rest ∨ wayText parts ++ "/" = "../" ++ rest := by
  fun_cases wayText parts with
  | case1 => exact ⟨"", .inl rfl⟩
  | case2 parts =>
    cases parts with
    | nil => exact ⟨"", .inr rfl⟩
    | cons p parts =>
      refine ⟨Text.join "/" (p :: parts) ++ "/", .inr ?_⟩
      rw [join_cons_cons, String.append_assoc]
      rfl
  | case3 => exact ⟨Text.join "/" parts ++ "/", .inl (by rw [String.append_assoc])⟩

theorem isAbsolute_wayText (parts : List String) : isAbsolute (wayText parts ++ "/") = false := by
  rw [← Bool.not_eq_true, isAbsolute_iff]
  obtain ⟨rest, h | h⟩ := wayText_slash parts <;> simp [h]

theorem getLast?_join {parts : List String} (h : IsWay parts) (hne : parts ≠ []) :
    ∃ c, c ≠ '/' ∧ (Text.join "/" parts).toList.getLast? = some c := by
  induction parts with
  | nil => exact absurd rfl hne
  | cons p parts ih =>
    cases parts with
    | nil =>
      obtain ⟨hp, hslash⟩ := h p (.head _)
      obtain ⟨cs, c, hcs⟩ := (List.eq_nil_or_concat' p.toList).resolve_left (by simpa using hp)
      refine ⟨c, ?_, by simp [Text.join, hcs]⟩
      rintro rfl
      simp [hcs] at hslash
    | cons q parts =>
      obtain ⟨c, hc, hlast⟩ := ih (fun r hr => h r (.tail _ hr)) (by simp)
      exact ⟨c, hc, by rw [join_cons_cons, String.toList_append, List.getLast?_append, hlast]; rfl⟩

theorem dropEndChar_of_getLast? {s : String} {c d : Char} (h : s.toList.getLast? = some d)
    (hd : d ≠ c) : dropEndChar c s = s := by
  have hkept : ∀ a ∈ s.toList.getLast?, (a == c) = false := by simpa [h] using hd
  rw [dropEndChar, dropEndWhile_eq_self hkept, String.ofList_toList]

theorem dropEndChar_wayText {parts : List String} (h : IsWay parts) :
    dropEndChar '/' (wayText parts) = wayText parts := by
  fun_cases wayText parts with
  | case1 => rfl
  | case2 parts =>
    obtain ⟨c, hc, hlast⟩ := getLast?_join h (by simp)
    exact dropEndChar_of_getLast? hlast hc
  | case3 parts hnil =>
    obtain ⟨c, hc, hlast⟩ := getLast?_join h hnil
    refine dropEndChar_of_getLast? (d := c) ?_ hc
    rw [String.toList_append, List.getLast?_append, hlast]
    rfl

theorem filterMap_component?_names {names : List String} (h : ∀ name ∈ names, IsOrdinary name) :
    names.filterMap component? = names.map .named := by
  rw [← List.filterMap_eq_map]
  exact List.filterMap_congr fun name hmem => (h name hmem).component?

/-- A way leads from the one directory to the other, and on from there. -/
theorem resolve_relativeSpecifier {here there names : List String}
    (hthere : ∀ name ∈ there, IsOrdinary name) (hnames : ∀ name ∈ names, IsOrdinary name) :
    resolve (belowRoot here)
        (relativeSpecifier (belowRoot here) (belowRoot there) ++ "/" ++ Text.join "/" names) =
      belowRoot (there ++ names) := by
  obtain ⟨shared, up, down, rfl, rfl, hway⟩ := exists_way here there
  have hparts : IsWay (List.replicate up.length ".." ++ down) :=
    isWay_of_isOrdinary fun name hmem => hthere name (List.mem_append_right _ hmem)
  have hsteps : steps (relativeSpecifier (belowRoot (shared ++ up)) (belowRoot (shared ++ down)) ++
      "/" ++ Text.join "/" names) =
      List.replicate up.length .parent ++ (down ++ names).map .named := by
    rw [hway, steps_slash, steps_wayText hparts,
      steps_join fun name hmem => (hnames name hmem).2.2.2,
      List.filterMap_append, filterMap_component?_names hnames,
      filterMap_component?_names fun name hmem => hthere name (List.mem_append_right _ hmem),
      List.filterMap_replicate]
    simp [component?]
  have hrelative : isAbsolute (relativeSpecifier (belowRoot (shared ++ up))
      (belowRoot (shared ++ down)) ++ "/" ++ Text.join "/" names) = false := by
    rw [hway, isAbsolute_append _ (by simp), isAbsolute_wayText]
  have hhere : (belowRoot (shared ++ up)).reverse =
      (up.map Component.named).reverse ++ (belowRoot shared).reverse := by
    simp [belowRoot]
  rw [resolve, follow_eq, hsteps, hrelative, if_neg (by decide), List.foldl_append, hhere,
    foldl_step_parents, foldl_step_names]
  simp [belowRoot]

/-! ## Paths seen from a base -/

section Base
variable {base : String}

theorem normalize_eq_follow (base path : String) :
    normalize base path = (follow (follow [] base) path).reverse := by
  rw [normalize_eq, follow_join]

/-- Seen from an absolute base, every path is a directory below the root. -/
theorem exists_normalize (hbase : isAbsolute base = true) (path : String) :
    ∃ names, (∀ name ∈ names, IsOrdinary name) ∧ normalize base path = belowRoot names := by
  rw [normalize_eq_follow]
  exact ((descent_of_isAbsolute hbase).follow path).exists_names

theorem dropLast_normalize {path name : String} (h : fileName? path = some name) :
    ∃ up, parent? path = some up ∧ (normalize base path).dropLast = normalize base up := by
  obtain ⟨up, hup, hfollow⟩ := follow_parent? h
  refine ⟨up, hup, ?_⟩
  rw [normalize_eq_follow, normalize_eq_follow, hfollow, List.reverse_cons,
    List.dropLast_concat]

theorem isAbsolute_join {names : List String} (h : ∀ name ∈ names, IsOrdinary name) :
    isAbsolute (Text.join "/" names) = false := by
  cases names with
  | nil => rfl
  | cons name names =>
    obtain ⟨hne, -, -, hslash⟩ := h name (.head _)
    have hname : isAbsolute name = false := by
      rw [← Bool.not_eq_true, isAbsolute_iff]
      exact fun hhead => hslash (List.mem_of_head? hhead)
    cases names with
    | nil => simpa [Text.join] using hname
    | cons other names =>
      rwa [join_cons_cons, String.append_assoc, isAbsolute_append _ hne]

theorem normalize_join (directory : String) {names : List String}
    (hnames : ∀ name ∈ names, IsOrdinary name) :
    normalize base (join directory (Text.join "/" names)) =
      normalize base directory ++ names.map .named := by
  rw [normalize_eq_follow, normalize_eq_follow, follow_join, follow_eq _ (Text.join "/" names),
    isAbsolute_join hnames, steps_join fun name hmem => (hnames name hmem).2.2.2,
    filterMap_component?_names hnames, if_neg (by decide), foldl_step_names]
  simp

end Base

end TypedRoutes.Path
