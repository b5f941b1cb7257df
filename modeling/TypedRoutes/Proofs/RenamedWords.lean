import TypedRoutes.Proofs.RenamedText
import TypedRoutes.Proofs.TextPieces
import Mathlib.Data.List.SplitBy

/-! # Renaming, word by word

A text consists of words and of the characters between them.  Renaming a word replaces some of its
occurrences among them and leaves all else in its place.  Which ones it replaces depends on
characters that it never touches, so renaming back finds and replaces the same ones.
-/

namespace TypedRoutes.Naming
open TypedRoutes.Text

/-! ## Runs of characters -/

/-- The longest runs of characters of a class in a text, and the other characters one by one. -/
def runs (inside : Char → Bool) (text : List Char) : List (List Char) :=
  text.splitBy fun c d => inside c && inside d

section Runs
variable {inside : Char → Bool}

theorem runs_cons {c : Char} (hc : inside c = false) (rest : List Char) :
    runs inside (c :: rest) = [c] :: runs inside rest := by
  have hsplit := List.splitBy_append (r := fun c d => inside c && inside d) (l := [c]) (m := rest)
    (by simp [hc])
  simpa [runs, List.splitBy_of_isChain] using hsplit

theorem runs_append {run rest : List Char} (hne : run ≠ []) (hrun : ∀ c ∈ run, inside c = true)
    (hend : rest.head?.any inside = false) :
    runs inside (run ++ rest) = run :: runs inside rest := by
  have hchain : run.IsChain fun c d => (inside c && inside d) = true := by
    apply List.Pairwise.isChain
    apply List.pairwise_of_forall_mem_list
    intro c hc d hd
    rw [hrun c hc, hrun d hd, Bool.and_self]
  have hstop : ∀ c ∈ run.getLast?, ∀ d ∈ rest.head?, (inside c && inside d) = false := by
    intro c _ d hd
    rw [Option.mem_def.1 hd, Option.any_some] at hend
    rw [hend, Bool.and_false]
  rw [runs, List.splitBy_append hstop, List.splitBy_of_isChain hne hchain]
  rfl

@[elab_as_elim]
theorem runs_induction (inside : Char → Bool) {motive : List Char → Prop} (nil : motive [])
    (outside : ∀ c rest, inside c = false → motive rest → motive (c :: rest))
    (run : ∀ word rest, word ≠ [] → (∀ c ∈ word, inside c = true) →
      rest.head?.any inside = false → motive rest → motive (word ++ rest))
    (text : List Char) : motive text := by
  induction hn : text.length using Nat.strong_induction_on generalizing text with
  | _ n ih =>
    cases text with
    | nil => exact nil
    | cons c cs =>
      rw [List.length_cons] at hn
      cases hc : inside c with
      | false => exact outside c cs hc (ih cs.length (by omega) cs rfl)
      | true =>
        have hdrop : (c :: cs).dropWhile inside = cs.dropWhile inside := by simp [hc]
        have hshort := (List.dropWhile_suffix (l := cs) inside).length_le
        rw [← List.takeWhile_append_dropWhile (p := inside) (l := c :: cs), hdrop]
        apply run
        · simp [hc]
        · exact List.all_eq_true.1 List.all_takeWhile
        · have hhead := List.head?_dropWhile_not inside cs
          cases hrest : (cs.dropWhile inside).head? with
          | none => rfl
          | some d =>
            rw [hrest] at hhead
            exact hhead
        · exact ih _ (by omega) _ rfl

end Runs

/-! ## Words -/

/-- The words of a text and the characters between them. -/
def wordRuns (text : List Char) : List (List Char) := runs isWordCharacter text

def IsPlainName (name : List Char) : Prop := name ≠ [] ∧ ∀ c ∈ name, isWordCharacter c = true

instance (name : List Char) : Decidable (IsPlainName name) :=
  decidable_of_iff (name ≠ [] ∧ name.all isWordCharacter = true) (by simp [IsPlainName])

def replacedRun (name replacement run : List Char) (kept : Bool) : List Char :=
  if run = name && !kept then replacement else run

/-- For each run after a character, whether an occurrence there is kept. -/
def keptRuns (before : Option Char) : List (List Char) → List Bool
  | [] => []
  | run :: rest => isKept before rest.flatten :: keptRuns run.getLast? rest

section Words
variable {name replacement : List Char}

theorem IsPlainName.isName (h : IsPlainName name) : IsName name :=
  ⟨h.1, fun c hc => by rw [isNamePart, h.2 c hc, Bool.true_or]⟩

theorem IsPlainName.head (h : IsPlainName name) (rest : List Char) :
    (name ++ rest).head?.any isWordCharacter = true := by
  obtain ⟨c, cs, rfl⟩ := List.exists_cons_of_ne_nil h.1
  exact h.2 c (.head _)

theorem IsPlainName.last (h : IsPlainName name) (before : Option Char) :
    (name.getLast?.or before).any isWordCharacter = true := by
  obtain ⟨last, hlast⟩ := Option.ne_none_iff_exists'.1 (mt List.getLast?_eq_none_iff.1 h.1)
  rw [hlast]
  exact h.2 last (List.mem_of_getLast? hlast)

/-- A plain name stands where no word ends and the next word is the name. -/
theorem standsAt_iff (hname : IsPlainName name) (before : Option Char) (text : List Char) :
    standsAt name before text = true ↔
      before.any isWordCharacter = false ∧ text.takeWhile isWordCharacter = name := by
  simp only [standsAt, isWordBoundary, Bool.and_eq_true, bne_iff_ne, List.isPrefixOf_iff_prefix]
  constructor
  · rintro ⟨⟨⟨rest, rfl⟩, hstart⟩, hend⟩
    rw [hname.head, ne_eq, Bool.not_eq_true] at hstart
    rw [hname.last, List.drop_left, ne_eq, eq_comm, Bool.not_eq_true] at hend
    refine ⟨hstart, takeWhile_append_of_stop hname.2 fun c hc => ?_⟩
    rwa [Option.mem_def.1 hc] at hend
  · rintro ⟨hbefore, hword⟩
    obtain ⟨run, rest, hrun, -, rfl, -⟩ := exists_longest_run isWordCharacter text
    obtain rfl : run = name := hrun.symm.trans hword
    have hstop : rest.head?.any isWordCharacter = false := by
      cases rest with
      | nil => rfl
      | cons c cs =>
        cases hc : isWordCharacter c with
        | false => exact hc
        | true =>
          rw [List.takeWhile_append_of_pos hname.2, List.takeWhile_cons, if_pos hc] at hword
          simpa using congrArg List.length hword
    refine ⟨⟨List.prefix_append run rest, ?_⟩, ?_⟩
    · rw [hname.head, hbefore]
      decide
    · rw [hname.last, List.drop_left, hstop]
      decide

theorem getLast?_cons_or (c : Char) (cs : List Char) (before : Option Char) :
    (c :: cs).getLast?.or before = cs.getLast?.or (some c) := by
  rw [List.getLast?_cons]
  cases cs.getLast? <;> rfl

theorem renameFrom_skip (before : Option Char) (skipped rest : List Char) :
    renameFrom name replacement before skipped.length (skipped ++ rest) =
      renameFrom name replacement (skipped.getLast?.or before) 0 rest := by
  induction skipped generalizing before with
  | nil => rfl
  | cons c cs ih =>
    rw [List.cons_append, List.length_cons, renameFrom, if_pos (Nat.succ_pos _),
      Nat.add_sub_cancel, ih, getLast?_cons_or]

theorem renameFrom_passed {before : Option Char} {c : Char} {cs : List Char}
    (hstands : standsAt name before (c :: cs) = false) :
    renameFrom name replacement before 0 (c :: cs) =
      c :: renameFrom name replacement (some c) 0 cs := by
  rw [renameFrom, if_neg (Nat.lt_irrefl 0), hstands, if_neg Bool.false_ne_true]

theorem renameFrom_found (hname : name ≠ []) {before : Option Char} {rest : List Char}
    (hstands : standsAt name before (name ++ rest) = true) :
    renameFrom name replacement before 0 (name ++ rest) =
      (if isKept before rest then name else replacement) ++
        renameFrom name replacement name.getLast? 0 rest := by
  obtain ⟨c, cs, rfl⟩ := List.exists_cons_of_ne_nil hname
  have hlast : (c :: cs).getLast? = cs.getLast?.or (some c) := by
    rw [← getLast?_cons_or c cs none, Option.or_none]
  rw [List.cons_append] at hstands ⊢
  rw [renameFrom, if_neg (Nat.lt_irrefl 0), if_pos hstands, List.isEmpty_cons,
    if_neg Bool.false_ne_true, ← List.cons_append, List.drop_left, List.length_cons,
    Nat.add_sub_cancel, renameFrom_skip, hlast]

/-- Within a word nothing is renamed. -/
theorem renameFrom_after_word {word rest : List Char}
    (hword : ∀ c ∈ word, isWordCharacter c = true) {before : Option Char}
    (hbefore : before.any isWordCharacter = true) :
    renameFrom name replacement before 0 (word ++ rest) =
      word ++ renameFrom name replacement (word.getLast?.or before) 0 rest := by
  induction word generalizing before with
  | nil => rfl
  | cons c cs ih =>
    have hnext : (some c).any isWordCharacter = true := hword c (.head _)
    have hstands : standsAt name before (c :: (cs ++ rest)) = false := by
      rw [standsAt, isWordBoundary, hbefore, List.head?_cons, hnext, bne_self_eq_false,
        Bool.and_false, Bool.false_and]
    rw [List.cons_append, renameFrom_passed hstands, ih (fun x hx => hword x (.tail _ hx)) hnext,
      List.cons_append, getLast?_cons_or]

theorem renameFrom_notMem (hname : name ≠ []) {c : Char} (hc : c ∉ name) (before : Option Char)
    (rest : List Char) : renameFrom name replacement before 0 (c :: rest) =
      c :: renameFrom name replacement (some c) 0 rest :=
  renameFrom_passed (not_standsAt_of_notMem hname hc before rest)

theorem renameFrom_outside (hname : IsPlainName name) {c : Char} (hc : isWordCharacter c = false)
    (before : Option Char) (rest : List Char) :
    renameFrom name replacement before 0 (c :: rest) =
      c :: renameFrom name replacement (some c) 0 rest := by
  refine renameFrom_notMem hname.1 (fun hmem => ?_) before rest
  rw [hname.2 c hmem] at hc
  cases hc

theorem renameFrom_run (hname : IsPlainName name) {word rest : List Char} (hne : word ≠ [])
    (hword : ∀ c ∈ word, isWordCharacter c = true)
    (hend : rest.head?.any isWordCharacter = false) {before : Option Char}
    (hbefore : before.any isWordCharacter = false) :
    renameFrom name replacement before 0 (word ++ rest) =
      replacedRun name replacement word (isKept before rest) ++
        renameFrom name replacement word.getLast? 0 rest := by
  have htake : (word ++ rest).takeWhile isWordCharacter = word :=
    takeWhile_append_of_stop hword fun c hc => by rwa [Option.mem_def.1 hc] at hend
  have hstands : standsAt name before (word ++ rest) = true ↔ word = name := by
    rw [standsAt_iff hname, htake]
    exact and_iff_right hbefore
  by_cases hsame : word = name
  · subst hsame
    rw [renameFrom_found hne (hstands.2 rfl), replacedRun]
    cases isKept before rest <;> simp
  · have hreplaced : replacedRun name replacement word (isKept before rest) = word := by
      simp [replacedRun, hsame]
    obtain ⟨c, cs, rfl⟩ := List.exists_cons_of_ne_nil hne
    have hnot : standsAt name before (c :: (cs ++ rest)) = false := by
      rw [Bool.eq_false_iff]
      exact mt hstands.1 hsame
    have hnext : (some c).any isWordCharacter = true := hword c (.head _)
    rw [List.cons_append, renameFrom_passed hnot,
      renameFrom_after_word (fun x hx => hword x (.tail _ hx)) hnext, hreplaced,
      List.cons_append, ← getLast?_cons_or, Option.or_none]

theorem IsPlainName.replacedRun (hreplacement : IsPlainName replacement) {word : List Char}
    (hword : IsPlainName word) (kept : Bool) :
    IsPlainName (replacedRun name replacement word kept) := by
  unfold Naming.replacedRun
  split
  · exact hreplacement
  · exact hword

def Apart (before : Option Char) (text : List Char) : Prop :=
  before.any isWordCharacter = false ∨ text.head?.any isWordCharacter = false

theorem Apart.before {before : Option Char} {word rest : List Char} (hword : IsPlainName word)
    (h : Apart before (word ++ rest)) : before.any isWordCharacter = false := by
  rcases h with h | h
  · exact h
  · rw [hword.head] at h
    cases h

theorem renameFrom_nil (hname : IsPlainName name) (before : Option Char) :
    renameFrom name replacement before 0 [] = [] := by
  simp [renameFrom, standsAt_nil hname.1]

/-- What a renamed text begins with: what the text begins with, or another word. -/
theorem head?_renameFrom (hname : IsPlainName name) (hreplacement : IsPlainName replacement)
    {before : Option Char} {text : List Char} (hapart : Apart before text) :
    (renameFrom name replacement before 0 text).head? = text.head? ∨
      text.head?.any isWordCharacter = true ∧
        (renameFrom name replacement before 0 text).head?.any isWordCharacter = true := by
  induction text using runs_induction isWordCharacter with
  | nil => exact .inl (congrArg List.head? (renameFrom_nil hname before))
  | outside c rest hc _ =>
    rw [renameFrom_outside hname hc]
    exact .inl rfl
  | run word rest hne hword hend _ =>
    have hplain : IsPlainName word := ⟨hne, hword⟩
    rw [renameFrom_run hname hne hword hend (hapart.before hplain)]
    exact .inr ⟨hplain.head rest, (hreplacement.replacedRun hplain _).head _⟩

/-! ## What keeps an occurrence -/

theorem ne_of_isNamePart {c d : Char} (hc : isNamePart c = true) (hd : isNamePart d = false) :
    c ≠ d := by
  rintro rfl
  rw [hc] at hd
  cases hd

/-- Whether an occurrence after a name is kept does not depend on the name. -/
theorem isKept_after_name {c : Char} (hc : isNamePart c = true) (after : List Char) :
    isKept (some c) after = isKept none after := by
  have hmarks : ['.', '\'', '"', '\x60'].any isNamePart = false := by decide
  have hmark : ['.', '\'', '"', '\x60'].contains c = false := by
    rw [← Bool.not_eq_true, List.contains_iff_mem]
    exact fun hmem => Bool.false_ne_true (hmarks.symm.trans (List.any_eq_true.2 ⟨c, hmem, hc⟩))
  simp only [isKept, Option.any_some, Option.any_none, hmark]

theorem isKept_cons_white {c : Char} (hc : isWhitespace c = true) (before : Option Char)
    (cs : List Char) : isKept before (c :: cs) = isKept before cs := by
  simp [isKept, trimStartChars, hc]

theorem isKept_cons {c : Char} (hc : isWhitespace c = false) (before : Option Char)
    (cs : List Char) :
    isKept before (c :: cs) =
      (isKept before [] || ':' == c || ('?' == c && cs.head?.any (':' == ·))) := by
  cases cs <;> simp [isKept, trimStartChars, hc, List.isPrefixOf]

theorem isKept_cons_name {c : Char} (hc : isNamePart c = true) (before : Option Char)
    (cs : List Char) : isKept before (c :: cs) = isKept before [] := by
  have hcolon : (':' == c) = false := beq_false_of_ne (ne_of_isNamePart hc (by decide)).symm
  have hquestion : ('?' == c) = false := beq_false_of_ne (ne_of_isNamePart hc (by decide)).symm
  rw [isKept_cons (isWhitespace_of_isNamePart hc), hcolon, hquestion, Bool.or_false, Bool.false_and,
    Bool.or_false]

theorem isKept_of_name_head {text : List Char} (h : text.head?.any isNamePart = true)
    (before : Option Char) : isKept before text = isKept before [] := by
  cases text with
  | nil => rfl
  | cons c cs => exact isKept_cons_name h before cs

theorem isKept_append_plain {word : List Char} (hword : IsPlainName word) (before : Option Char)
    (rest : List Char) : isKept before (word ++ rest) = isKept before [] := by
  obtain ⟨c, cs, rfl⟩ := List.exists_cons_of_ne_nil hword.1
  exact isKept_cons_name (hword.isName.2 c (.head _)) before (cs ++ rest)

theorem not_colon_of_word {text : List Char} (h : text.head?.any isWordCharacter = true) :
    text.head?.any (':' == ·) = false := by
  cases text with
  | nil => rfl
  | cons c cs =>
    have hc : isNamePart c = true := by
      rw [isNamePart, show isWordCharacter c = true from h, Bool.true_or]
    exact beq_false_of_ne (ne_of_isNamePart hc (by decide)).symm

/-- Whether an occurrence before a text is kept does not depend on the words of the text. -/
theorem isKept_renameFrom (hname : IsPlainName name) (hreplacement : IsPlainName replacement)
    (b : Option Char) {before : Option Char} {text : List Char} (hapart : Apart before text) :
    isKept b (renameFrom name replacement before 0 text) = isKept b text := by
  induction text using runs_induction isWordCharacter generalizing before with
  | nil => rw [renameFrom_nil hname]
  | outside c rest hc ih =>
    have hrest : Apart (some c) rest := .inl hc
    rw [renameFrom_outside hname hc]
    cases hwhite : isWhitespace c with
    | true => rw [isKept_cons_white hwhite, isKept_cons_white hwhite, ih hrest]
    | false =>
      have hcolon : (renameFrom name replacement (some c) 0 rest).head?.any (':' == ·) =
          rest.head?.any (':' == ·) := by
        rcases head?_renameFrom hname hreplacement hrest with h | ⟨h, h'⟩
        · rw [h]
        · rw [not_colon_of_word h, not_colon_of_word h']
      rw [isKept_cons hwhite, isKept_cons hwhite, hcolon]
  | run word rest hne hword hend _ =>
    have hplain : IsPlainName word := ⟨hne, hword⟩
    rw [renameFrom_run hname hne hword hend (hapart.before hplain),
      isKept_append_plain (hreplacement.replacedRun hplain _), isKept_append_plain hplain]

/-! ## The runs of a renamed text -/

theorem flatten_wordRuns (text : List Char) : (wordRuns text).flatten = text :=
  List.flatten_splitBy _ text

theorem wordRuns_cons {c : Char} (hc : isWordCharacter c = false) (rest : List Char) :
    wordRuns (c :: rest) = [c] :: wordRuns rest :=
  runs_cons hc rest

theorem wordRuns_append {word rest : List Char} (hword : IsPlainName word)
    (hend : rest.head?.any isWordCharacter = false) :
    wordRuns (word ++ rest) = word :: wordRuns rest :=
  runs_append hword.1 hword.2 hend

theorem keptRuns_after_name {c : Char} (hc : isNamePart c = true) (runs : List (List Char)) :
    keptRuns (some c) runs = keptRuns none runs := by
  cases runs with
  | nil => rfl
  | cons run rest => rw [keptRuns, keptRuns, isKept_after_name hc]

theorem keptRuns_after_plain {word : List Char} (hword : IsPlainName word)
    (runs : List (List Char)) : keptRuns word.getLast? runs = keptRuns none runs := by
  obtain ⟨last, hlast⟩ := Option.ne_none_iff_exists'.1 (mt List.getLast?_eq_none_iff.1 hword.1)
  rw [hlast, keptRuns_after_name (hword.isName.2 last (List.mem_of_getLast? hlast))]

/-- The runs of a renamed text are those of the text, of which some were replaced, and of each the
same is known as before. -/
theorem wordRuns_renameFrom (hname : IsPlainName name) (hreplacement : IsPlainName replacement)
    {before : Option Char} {text : List Char} (hapart : Apart before text) :
    wordRuns (renameFrom name replacement before 0 text) =
        List.zipWith (replacedRun name replacement) (wordRuns text)
          (keptRuns before (wordRuns text)) ∧
      keptRuns before (wordRuns (renameFrom name replacement before 0 text)) =
        keptRuns before (wordRuns text) := by
  induction text using runs_induction isWordCharacter generalizing before with
  | nil =>
    rw [renameFrom_nil hname]
    exact ⟨rfl, rfl⟩
  | outside c rest hc ih =>
    have hrest : Apart (some c) rest := .inl hc
    have hne : [c] ≠ name := by
      rintro rfl
      have := hname.2 c (.head _)
      rw [hc] at this
      cases this
    have hsame (kept : Bool) : replacedRun name replacement [c] kept = [c] := by
      simp [replacedRun, hne]
    obtain ⟨hruns, hkept⟩ := ih hrest
    rw [renameFrom_outside hname hc, wordRuns_cons hc, wordRuns_cons hc, keptRuns, keptRuns,
      flatten_wordRuns, flatten_wordRuns, isKept_renameFrom hname hreplacement before hrest,
      List.zipWith_cons_cons, hsame, List.getLast?_singleton, ← hruns, hkept]
    exact ⟨rfl, rfl⟩
  | run word rest hne hword hend ih =>
    have hplain : IsPlainName word := ⟨hne, hword⟩
    have hrest : Apart word.getLast? rest := .inr hend
    have hreplaced : IsPlainName (replacedRun name replacement word (isKept before rest)) :=
      hreplacement.replacedRun hplain _
    have hend' : (renameFrom name replacement word.getLast? 0 rest).head?.any isWordCharacter =
        false := by
      rcases head?_renameFrom hname hreplacement hrest with h | ⟨h, -⟩
      · rw [h, hend]
      · rw [hend] at h
        cases h
    obtain ⟨hruns, hkept⟩ := ih hrest
    rw [renameFrom_run hname hne hword hend (hapart.before hplain),
      wordRuns_append hreplaced hend', wordRuns_append hplain hend, keptRuns, keptRuns,
      flatten_wordRuns, flatten_wordRuns, isKept_renameFrom hname hreplacement before hrest,
      List.zipWith_cons_cons, ← hruns]
    refine ⟨rfl, congrArg _ ?_⟩
    rw [keptRuns_after_plain hreplaced, ← hkept, keptRuns_after_plain hplain]

end Words

/-! ## Renaming back -/

theorem length_keptRuns (before : Option Char) (runs : List (List Char)) :
    (keptRuns before runs).length = runs.length := by
  induction runs generalizing before with
  | nil => rfl
  | cons run rest ih => rw [keptRuns, List.length_cons, List.length_cons, ih]

theorem replacedRun_replacedRun {name replacement run : List Char} (hfree : run ≠ replacement)
    (kept : Bool) :
    replacedRun replacement name (replacedRun name replacement run kept) kept = run := by
  cases kept with
  | true => simp [replacedRun]
  | false =>
    by_cases h : run = name
    · simp [replacedRun, h]
    · simp [replacedRun, h, hfree]

theorem replacedRuns_replacedRuns {name replacement : List Char} {runs : List (List Char)}
    (hfree : replacement ∉ runs) {kept : List Bool} (hlength : kept.length = runs.length) :
    List.zipWith (replacedRun replacement name)
      (List.zipWith (replacedRun name replacement) runs kept) kept = runs := by
  induction runs generalizing kept with
  | nil => simp
  | cons run rest ih =>
    cases kept with
    | nil => simp at hlength
    | cons k ks =>
      rw [List.mem_cons, not_or] at hfree
      rw [List.zipWith_cons_cons, List.zipWith_cons_cons, replacedRun_replacedRun (Ne.symm hfree.1),
        ih hfree.2 (by simpa using hlength)]

theorem replacedRun_self (name run : List Char) (kept : Bool) :
    replacedRun name name run kept = run := by
  unfold replacedRun
  split
  · rename_i h
    simp only [Bool.and_eq_true, decide_eq_true_eq] at h
    exact h.1.symm
  · rfl

theorem replacedRuns_self (name : List Char) {runs : List (List Char)} {kept : List Bool}
    (hlength : kept.length = runs.length) :
    List.zipWith (replacedRun name name) runs kept = runs := by
  induction runs generalizing kept with
  | nil => simp
  | cons run rest ih =>
    cases kept with
    | nil => simp at hlength
    | cons k ks =>
      rw [List.zipWith_cons_cons, replacedRun_self, ih (by simpa using hlength)]

/-- Renaming to a word that a declaration does not have can be undone: of the runs of the text only
whole occurrences of the name are replaced, and each place is kept or not as it was before, so
renaming back replaces just those. -/
theorem renaming_undone {declaration name replacement : String}
    (hname : IsPlainName name.toList) (hreplacement : IsPlainName replacement.toList)
    (hfree : replacement.toList ∉ wordRuns declaration.toList) :
    let words := wordRuns declaration.toList
    let kept := keptRuns none words
    let renamed := renameDeclaredType declaration name replacement
    renameDeclaredType renamed replacement name = declaration ∧
      wordRuns renamed.toList =
        List.zipWith (replacedRun name.toList replacement.toList) words kept ∧
      keptRuns none (wordRuns renamed.toList) = kept := by
  intro words kept renamed
  have hlength : kept.length = words.length := length_keptRuns none words
  have hapart (text : List Char) : Apart none text := .inl rfl
  by_cases hsame : name = replacement
  · subst hsame
    have hrenamed : renamed = declaration := if_pos rfl
    rw [hrenamed, replacedRuns_self _ hlength]
    exact ⟨if_pos rfl, rfl, rfl⟩
  · have hrenamed : renamed.toList =
        renameFrom name.toList replacement.toList none 0 declaration.toList := by
      simp [renamed, renameDeclaredType, hsame]
    obtain ⟨hruns, hkept⟩ := wordRuns_renameFrom hname hreplacement (hapart declaration.toList)
    rw [← hrenamed] at hruns hkept
    refine ⟨?_, hruns, hkept⟩
    obtain ⟨hback, -⟩ := wordRuns_renameFrom hreplacement hname (hapart renamed.toList)
    rw [hkept, hruns, replacedRuns_replacedRuns hfree hlength] at hback
    have htext := congrArg List.flatten hback
    rw [flatten_wordRuns, flatten_wordRuns] at htext
    rw [renameDeclaredType, if_neg (Ne.symm hsame), htext, String.ofList_toList]

/-- A type that refers to itself beside a key, a member and a text of its name. -/
def nodeType : String :=
  "type Node = \x7b Node: Node | Node_; kind: 'Node'; next?: Node[]; all: models.Node \x7d;"

theorem nodeType_undone :
    IsPlainName "Node".toList ∧ IsPlainName "Node_2".toList ∧
      "Node_2".toList ∉ wordRuns nodeType.toList ∧
      renameDeclaredType nodeType "Node" "Node_2" =
        "type Node_2 = \x7b Node: Node_2 | Node_; kind: 'Node'; next?: Node_2[]; " ++
          "all: models.Node \x7d;" ∧
      renameDeclaredType (renameDeclaredType nodeType "Node" "Node_2") "Node_2" "Node" =
        nodeType := by
  have hname : IsPlainName "Node".toList := by decide +kernel
  have hreplacement : IsPlainName "Node_2".toList := by decide +kernel
  have hfree : "Node_2".toList ∉ wordRuns nodeType.toList := by decide +kernel
  exact ⟨hname, hreplacement, hfree, by decide +kernel,
    (renaming_undone hname hreplacement hfree).1⟩

end TypedRoutes.Naming
