import TypedRoutes.Proofs.NamedPlaces
import TypedRoutes.Route.Exclusion

/-! # What the standard patterns leave out

Each of the two patterns begins where a name begins.  The one goes on with a dot, and the other with
the name of packages up to the end; so a path is left out for the beginning of one of its names, or
for its last name.
-/

namespace TypedRoutes

namespace Pattern

/-! ## Where matches end -/

theorem mem_union {a b : List Nat} {j : Nat} : j ∈ union a b ↔ j ∈ a ∨ j ∈ b := by
  by_cases ha : j ∈ a <;> simp [union, ha]

theorem matchesIn_iff (p : Pattern) (text : String) : p.matchesIn text = true ↔
    ∃ j, j ∈ p.ends text.toList.toArray (List.range (text.toList.length + 1)) := by
  rw [matchesIn, Bool.not_eq_true', List.isEmpty_eq_false_iff_exists_mem]
  rfl

end Pattern

theorem Text.join_append {separator : String} {parts more : List String} (h : parts ≠ [])
    (hmore : more ≠ []) :
    join separator (parts ++ more) = join separator parts ++ separator ++ join separator more := by
  induction parts with
  | nil => exact absurd rfl h
  | cons p parts ih =>
    cases parts with
    | nil =>
      obtain ⟨q, more, rfl⟩ := List.exists_cons_of_ne_nil hmore
      exact Path.join_cons_cons separator p q more
    | cons q parts =>
      rw [List.cons_append, List.cons_append, Path.join_cons_cons, ← List.cons_append,
        ih (by simp), Path.join_cons_cons]
      simp [String.append_assoc]

namespace Route.Exclusion
open Pattern Text

variable {text : List Char} {starts : List Nat} {i j : Nat}

theorem mem_ends_exactly (c : Char) :
    j ∈ (exactly c).ends text.toArray starts ↔ ∃ i ∈ starts, text[i]? = some c ∧ j = i + 1 := by
  have hmember (c' : Option Char) : c'.any (fun d => d == c) = true ↔ c' = some c := by
    cases c' <;> simp
  simp only [exactly, ends, List.mem_map, List.mem_filter, List.getElem?_toArray, hmember,
    and_assoc, @eq_comm _ j]

/-- A text ends where a name can begin. -/
def BeforeName (text : List Char) : Prop := text = [] ∨ text.getLast? = some '/'

theorem beforeName_take_succ (h : i < text.length) :
    BeforeName (text.take (i + 1)) ↔ text[i]? = some '/' := by
  have hne : text.take i ++ [text[i]] ≠ [] := List.append_ne_nil_of_right_ne_nil _ (by simp)
  rw [List.take_succ_eq_append_getElem h, List.getElem?_eq_getElem h, BeforeName,
    List.getLast?_concat, or_iff_right hne]

theorem mem_ends_nameStart : j ∈ nameStart.ends text.toArray (List.range (text.length + 1)) ↔
    j ≤ text.length ∧ BeforeName (text.take j) := by
  have hstart : j ∈ (Pattern.anchor .textStart false).ends text.toArray
      (List.range (text.length + 1)) ↔ j = 0 := by
    simp [ends, Anchor.holds]
    omega
  rw [nameStart, ends, mem_union, hstart, mem_ends_exactly]
  cases j with
  | zero => simp [BeforeName]
  | succ i =>
    constructor
    · rintro (hzero | ⟨i', -, hslash, hi⟩)
      · cases hzero
      · obtain rfl : i = i' := by omega
        have hlt := (List.getElem?_eq_some_iff.1 hslash).1
        exact ⟨hlt, (beforeName_take_succ hlt).2 hslash⟩
    · rintro ⟨hlt, hbefore⟩
      exact .inr ⟨i, by rw [List.mem_range]; omega, (beforeName_take_succ hlt).1 hbefore, rfl⟩

theorem drop_eq_cons_iff {c : Char} {rest : List Char} :
    text.drop i = c :: rest ↔ text[i]? = some c ∧ text.drop (i + 1) = rest := by
  rw [← List.head?_drop, ← List.tail_drop]
  cases text.drop i <;> simp

def wordAtEnd (word : List Char) : Pattern :=
  word.foldr (fun c p => .sequence (exactly c) p) (.anchor .textEnd false)

theorem mem_ends_wordAtEnd (word : List Char) : j ∈ (wordAtEnd word).ends text.toArray starts ↔
    j = text.length ∧ ∃ i ∈ starts, i ≤ text.length ∧ text.drop i = word := by
  induction word generalizing starts with
  | nil =>
    have hend : j ∈ (wordAtEnd []).ends text.toArray starts ↔ j ∈ starts ∧ j = text.length := by
      simp [wordAtEnd, ends, Anchor.holds]
    rw [hend]
    constructor
    · rintro ⟨hj, rfl⟩
      exact ⟨rfl, _, hj, Nat.le_refl _, List.drop_length⟩
    · rintro ⟨rfl, i, hi, hle, hdrop⟩
      have hge := List.drop_eq_nil_iff.1 hdrop
      obtain rfl : i = text.length := by omega
      exact ⟨hi, rfl⟩
  | cons c word ih =>
    have hstep : (wordAtEnd (c :: word)).ends text.toArray starts =
      (wordAtEnd word).ends text.toArray ((exactly c).ends text.toArray starts) := rfl
    rw [hstep, ih]
    refine and_congr_right fun _ => ?_
    constructor
    · rintro ⟨i', hi', hle, hdrop⟩
      obtain ⟨i, hi, hc, rfl⟩ := (mem_ends_exactly c).1 hi'
      exact ⟨i, hi, by omega, drop_eq_cons_iff.2 ⟨hc, hdrop⟩⟩
    · rintro ⟨i, hi, -, hdrop⟩
      obtain ⟨hc, hrest⟩ := drop_eq_cons_iff.1 hdrop
      have hlt := (List.getElem?_eq_some_iff.1 hc).1
      exact ⟨i + 1, (mem_ends_exactly c).2 ⟨i, hi, hc, rfl⟩, hlt, hrest⟩

/-! ## Paths and names -/

theorem exists_position {P : List Char → List Char → Prop} :
    (∃ i, i ≤ text.length ∧ P (text.take i) (text.drop i)) ↔
      ∃ before after, text = before ++ after ∧ P before after := by
  constructor
  · rintro ⟨i, -, h⟩
    exact ⟨_, _, (List.take_append_drop i text).symm, h⟩
  · rintro ⟨before, after, rfl, h⟩
    exact ⟨before.length, by simp, by simpa using h⟩

/-- A path is left out for what begins somewhere where a name can begin: a dot, or the name of
packages up to the end. -/
theorem standard_covers_iff (path : String) : standard.covers path = true ↔
    ∃ before after, path.toList = before ++ after ∧ BeforeName before ∧
      (after.head? = some '.' ∨ after = "node_modules".toList) := by
  have hdot : (Pattern.sequence nameStart (exactly '.')).matchesIn path = true ↔
      ∃ i, i ≤ path.toList.length ∧ BeforeName (path.toList.take i) ∧
        (path.toList.drop i).head? = some '.' := by
    simp only [matchesIn_iff, ends, mem_ends_exactly, mem_ends_nameStart, List.head?_drop]
    constructor
    · rintro ⟨j, i, ⟨hle, hbefore⟩, hc, -⟩
      exact ⟨i, hle, hbefore, hc⟩
    · rintro ⟨i, hle, hbefore, hc⟩
      exact ⟨i + 1, i, ⟨hle, hbefore⟩, hc, rfl⟩
  have hpackages : (Pattern.sequence nameStart (wordAtEnd "node_modules".toList)).matchesIn path =
      true ↔ ∃ i, i ≤ path.toList.length ∧ BeforeName (path.toList.take i) ∧
        path.toList.drop i = "node_modules".toList := by
    simp only [matchesIn_iff, ends, mem_ends_wordAtEnd, mem_ends_nameStart]
    constructor
    · rintro ⟨j, -, i, ⟨hle, hbefore⟩, -, hword⟩
      exact ⟨i, hle, hbefore, hword⟩
    · rintro ⟨i, hle, hbefore, hword⟩
      exact ⟨_, rfl, i, ⟨hle, hbefore⟩, hle, hword⟩
  have hcovers : standard.covers path =
      ((Pattern.sequence nameStart (exactly '.')).matchesIn path ||
        (Pattern.sequence nameStart (wordAtEnd "node_modules".toList)).matchesIn path) := by
    simp [covers, standard, wordAtEnd]
  rw [hcovers, Bool.or_eq_true, hdot, hpackages,
    exists_position (P := fun before after => BeforeName before ∧ after.head? = some '.'),
    exists_position (P := fun before after => BeforeName before ∧ after = "node_modules".toList)]
  simp only [← exists_or, ← and_or_left]

theorem splitChars_of_beforeName {before : List Char} (h : BeforeName before) :
    ∃ pieces, ∀ after, splitChars '/' (before ++ after) = pieces ++ splitChars '/' after := by
  rcases h with rfl | hlast
  · exact ⟨[], fun _ => rfl⟩
  · obtain ⟨start, rfl⟩ := List.getLast?_eq_some_iff.1 hlast
    refine ⟨splitChars '/' start, fun after => ?_⟩
    rw [List.append_assoc, List.singleton_append, splitChars_separator]

theorem exists_beforeName (names : List String) : ∃ before, BeforeName before ∧
    ∀ more, more ≠ [] → (join "/" (names ++ more)).toList = before ++ (join "/" more).toList := by
  by_cases hnil : names = []
  · subst hnil
    exact ⟨[], .inl rfl, fun _ _ => rfl⟩
  · refine ⟨(join "/" names ++ "/").toList, .inr ?_, fun more hmore => ?_⟩
    · simp
    · rw [join_append hnil hmore, String.toList_append]

/-- By the standard patterns a place is left out exactly if one of its names begins with a dot, or
if the last one is that of packages. -/
theorem standard_covers_join_iff {names : List String} (h : ∀ name ∈ names, '/' ∉ name.toList)
    (hne : names ≠ []) : standard.covers (join "/" names) = true ↔
      (∃ name ∈ names, name.toList.head? = some '.') ∨ names.getLast? = some "node_modules" := by
  have hsplit : splitChars '/' (join "/" names).toList = names.map String.toList := by
    conv_rhs => rw [← Path.splitOn_join h hne]
    simp [splitOn]
  rw [standard_covers_iff]
  constructor
  · rintro ⟨before, after, hpath, hbefore, hafter⟩
    obtain ⟨pieces, hpieces⟩ := splitChars_of_beforeName hbefore
    rw [hpath, hpieces] at hsplit
    rcases hafter with hdot | rfl
    · obtain ⟨rest, rfl⟩ := List.head?_eq_some_iff.1 hdot
      have hdot : splitChars '/' ['.'] = [['.']] := splitChars_of_notMem (by decide)
      have hfirst := splitChars_append '/' ['.'] rest
      rw [hdot, List.singleton_append] at hfirst
      rw [hfirst] at hsplit
      have hmem : '.' :: (splitChars '/' rest).head?.getD [] ∈ names.map String.toList := by
        rw [← hsplit]
        simp
      obtain ⟨name, hname, hchars⟩ := List.mem_map.1 hmem
      exact .inl ⟨name, hname, by rw [hchars, List.head?_cons]⟩
    · rw [splitChars_of_notMem (by decide)] at hsplit
      have hlast := congrArg List.getLast? hsplit
      rw [List.getLast?_concat, List.getLast?_map] at hlast
      obtain ⟨name, hname, hchars⟩ := Option.map_eq_some_iff.1 hlast.symm
      exact .inr (String.toList_inj.1 hchars ▸ hname)
  · rintro (⟨name, hname, hdot⟩ | hlast)
    · obtain ⟨above, below, rfl⟩ := List.append_of_mem hname
      obtain ⟨before, hbefore, hjoin⟩ := exists_beforeName above
      refine ⟨before, _, hjoin _ (by simp), hbefore, .inl ?_⟩
      obtain ⟨rest, hrest⟩ := List.head?_eq_some_iff.1 hdot
      cases below with
      | nil => exact hdot
      | cons q below => simp [Path.join_cons_cons, hrest]
    · obtain ⟨above, rfl⟩ := List.getLast?_eq_some_iff.1 hlast
      obtain ⟨before, hbefore, hjoin⟩ := exists_beforeName above
      refine ⟨before, _, hjoin _ (by simp), hbefore, .inr ?_⟩
      rfl

def IsKeptName (name : String) : Prop := name.toList.head? ≠ some '.' ∧ name ≠ "node_modules"

/-- What the standard patterns keep has no name that begins with a dot, nor that of packages. -/
theorem isKeptName_of_kept {above : List String} {name : String}
    (hslash : ∀ other ∈ above ++ [name], '/' ∉ other.toList)
    (hkept : standard.covers (join "/" (above ++ [name])) = false) :
    IsKeptName name := by
  rw [← Bool.not_eq_true, standard_covers_join_iff hslash (by simp), not_or] at hkept
  constructor
  · exact fun hdot => hkept.1 ⟨name, by simp, hdot⟩
  · rintro rfl
    exact hkept.2 List.getLast?_concat

end Route.Exclusion

end TypedRoutes
