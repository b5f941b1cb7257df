import TypedRoutes.Naming.Binding
import TypedRoutes.Proofs.TextPieces
import TypedRoutes.Script.Lexer

/-! # The clauses of imports

An import clause is made of parts with commas and braces between them, and each part binds its last
word.  So the names that a clause binds are found by its words, whatever whitespace is in it.
-/

namespace TypedRoutes.Text

/-! ## Words -/

@[simp] theorem words_nil : words [] = [] := rfl

theorem words_cons_blank {c : Char} (hc : isWhitespace c = true) (cs : List Char) :
    words (c :: cs) = words cs := if_pos hc

theorem words_singleton {c : Char} (hc : isWhitespace c = false) : words [c] = [[c]] :=
  if_neg (Bool.eq_false_iff.1 hc)

theorem words_cons_end {c d : Char} (hc : isWhitespace c = false) (hd : isWhitespace d = true)
    (cs : List Char) : words (c :: d :: cs) = [c] :: words (d :: cs) :=
  (if_neg (Bool.eq_false_iff.1 hc)).trans (if_pos hd)

theorem words_cons_word {c d : Char} (hc : isWhitespace c = false)
    (hd : isWhitespace d = false) (cs : List Char) : words (c :: d :: cs) =
      match words (d :: cs) with
      | [] => [[c]]
      | word :: more => (c :: word) :: more :=
  (if_neg (Bool.eq_false_iff.1 hc)).trans (if_neg (Bool.eq_false_iff.1 hd))

theorem words_ne_nil {c : Char} (hc : isWhitespace c = false) (cs : List Char) :
    words (c :: cs) ≠ [] := by
  cases cs with
  | nil => simp [words_singleton hc]
  | cons d cs =>
    cases hd : isWhitespace d with
    | true => simp [words_cons_end hc hd]
    | false =>
      rw [words_cons_word hc hd]
      split <;> exact List.cons_ne_nil _ _

theorem words_cons_visible {c d : Char} (hc : isWhitespace c = false)
    (hd : isWhitespace d = false) (cs : List Char) :
    words (c :: d :: cs) = (words (d :: cs)).modifyHead (c :: ·) := by
  obtain ⟨word, more, hwords⟩ := List.exists_cons_of_ne_nil (words_ne_nil hd cs)
  rw [words_cons_word hc hd, hwords, List.modifyHead_cons]

/-- Words are split at whitespace; all about them follows from this equation. -/
theorem words_append_blank {c : Char} (hc : isWhitespace c = true) (before after : List Char) :
    words (before ++ c :: after) = words before ++ words after := by
  induction before with
  | nil => exact words_cons_blank hc after
  | cons d before ih =>
    by_cases hd : isWhitespace d = true
    · rw [List.cons_append, words_cons_blank hd, words_cons_blank hd, ih]
    rw [Bool.not_eq_true] at hd
    cases before with
    | nil =>
      rw [List.singleton_append, words_cons_end hd hc, words_cons_blank hc, words_singleton hd]
      rfl
    | cons e before =>
      by_cases he : isWhitespace e = true
      · rw [List.cons_append, List.cons_append, words_cons_end hd he, words_cons_end hd he,
          ← List.cons_append, ih, List.cons_append]
      · rw [Bool.not_eq_true] at he
        rw [List.cons_append, List.cons_append, words_cons_visible hd he, words_cons_visible hd he,
          ← List.cons_append, ih]
        obtain ⟨word, more, hwords⟩ := List.exists_cons_of_ne_nil (words_ne_nil he before)
        rw [hwords]
        rfl

def EndsBlank (text : List Char) : Prop := ∀ c ∈ text.getLast?, isWhitespace c = true

theorem endsBlank_nil : EndsBlank [] := nofun

theorem words_append_of_endsBlank {before : List Char} (h : EndsBlank before) (after : List Char) :
    words (before ++ after) = words before ++ words after := by
  rcases List.eq_nil_or_concat before with rfl | ⟨before, c, rfl⟩
  · rfl
  · have hc : isWhitespace c = true := h c (by simp)
    rw [List.concat_eq_append, List.append_assoc, List.singleton_append, words_append_blank hc,
      words_append_blank hc]
    simp

theorem words_append_of_blank_head {after : List Char}
    (h : ∀ c ∈ after.head?, isWhitespace c = true) (before : List Char) :
    words (before ++ after) = words before ++ words after := by
  cases after with
  | nil => simp
  | cons c after => rw [words_append_blank (h c rfl), words_cons_blank (h c rfl)]

theorem words_blank {blanks : List Char} (h : ∀ c ∈ blanks, isWhitespace c = true) :
    words blanks = [] := by
  induction blanks with
  | nil => rfl
  | cons c blanks ih =>
    rw [words_cons_blank (h c (.head _)), ih fun d hd => h d (.tail _ hd)]

theorem words_visible {word : List Char} (h : IsVisible word) : words word = [word] := by
  induction word with
  | nil => exact absurd rfl h.1
  | cons c word ih =>
    cases word with
    | nil => exact words_singleton (h.2 c (.head _))
    | cons d word =>
      rw [words_cons_visible (h.2 c (.head _)) (h.2 d (.tail _ (.head _))),
        ih ⟨List.cons_ne_nil _ _, fun e he => h.2 e (.tail _ he)⟩]
      rfl

theorem exists_word_of_mem {c : Char} {text : List Char} (hmem : c ∈ text)
    (hc : isWhitespace c = false) : ∃ word ∈ words text, c ∈ word := by
  induction text with
  | nil => cases hmem
  | cons d text ih =>
    by_cases hd : isWhitespace d = true
    · rw [words_cons_blank hd]
      rcases List.mem_cons.1 hmem with rfl | hmem
      · rw [hd] at hc
        cases hc
      · exact ih hmem
    rw [Bool.not_eq_true] at hd
    cases text with
    | nil => exact ⟨[d], by simp [words_singleton hd], hmem⟩
    | cons e text =>
      by_cases he : isWhitespace e = true
      · rw [words_cons_end hd he]
        rcases List.mem_cons.1 hmem with rfl | hmem
        · exact ⟨[c], .head _, .head _⟩
        · obtain ⟨word, hword, hc⟩ := ih hmem
          exact ⟨word, .tail _ hword, hc⟩
      · rw [Bool.not_eq_true] at he
        rw [words_cons_visible hd he]
        obtain ⟨first, more, hwords⟩ := List.exists_cons_of_ne_nil (words_ne_nil he text)
        rw [hwords] at ih ⊢
        rcases List.mem_cons.1 hmem with rfl | hmem
        · exact ⟨c :: first, .head _, .head _⟩
        · obtain ⟨word, hword, hc⟩ := ih hmem
          rcases List.mem_cons.1 hword with rfl | hword
          · exact ⟨d :: word, .head _, .tail _ hc⟩
          · exact ⟨word, .tail _ hword, hc⟩

end TypedRoutes.Text

namespace TypedRoutes.Naming
open TypedRoutes.Text

/-! ## What a clause binds -/

/-- Words that bind a name: the name alone, the name after another one or a star, or one of these
after the word `type`. -/
inductive Binds : List (List Char) → List Char → Prop
  | name (name : List Char) : Binds [name] name
  | renamed (imported name : List Char) : Binds [imported, "as".toList, name] name
  | typed {words : List (List Char)} {name : List Char} (h : Binds words name) :
      Binds ("type".toList :: words) name

def IsClauseWord (word : List Char) : Prop := word = ['*'] ∨ ∀ c ∈ word, isIdentifierPart c = true

instance (word : List Char) : Decidable (IsClauseWord word) :=
  decidable_of_iff (word = ['*'] ∨ word.all isIdentifierPart = true) (by simp [IsClauseWord])

/-- A part of a clause that binds a name, with whitespace around its words. -/
structure PartBinds (part name : List Char) : Prop where
  binds : Binds (words part) name
  words : ∀ word ∈ words part, IsClauseWord word

/-- What stands in the braces of a clause: parts with commas between them, and perhaps one behind
the last. -/
inductive ListBinds : List Char → List (List Char) → Prop
  | blank {blanks : List Char} (h : ∀ c ∈ blanks, isWhitespace c = true) : ListBinds blanks []
  | last {part name : List Char} (h : PartBinds part name) : ListBinds part [name]
  | more {part name rest : List Char} {names : List (List Char)} (h : PartBinds part name)
      (hrest : ListBinds rest names) : ListBinds (part ++ ',' :: rest) (name :: names)

/-- An import clause and the names it binds: a part, a list in braces, or a part before either. -/
inductive ClauseBinds : List Char → List (List Char) → Prop
  | part {part name : List Char} (h : PartBinds part name) : ClauseBinds part [name]
  | list {before list after : List Char} {names : List (List Char)}
      (hbefore : ∀ c ∈ before, isWhitespace c = true) (h : ListBinds list names)
      (hafter : ∀ c ∈ after, isWhitespace c = true) :
      ClauseBinds (before ++ '\x7b' :: (list ++ '\x7d' :: after)) names
  | both {part name rest : List Char} {names : List (List Char)} (h : PartBinds part name)
      (hrest : ClauseBinds rest names) : ClauseBinds (part ++ ',' :: rest) (name :: names)

theorem Binds.getLast? {words : List (List Char)} {name : List Char} (h : Binds words name) :
    words.getLast? = some name := by
  induction h with
  | name name => rfl
  | renamed imported name => rfl
  | @typed words name h ih =>
    cases words with
    | nil => cases ih
    | cons word words => rwa [List.getLast?_cons_cons]

/-! ## Characters of clauses -/

def IsPartCharacter (c : Char) : Prop :=
  isWhitespace c = true ∨ c = '*' ∨ isIdentifierPart c = true

theorem PartBinds.characters {part name : List Char} (h : PartBinds part name) :
    ∀ c ∈ part, IsPartCharacter c := by
  intro c hc
  by_cases hblank : isWhitespace c = true
  · exact .inl hblank
  · obtain ⟨word, hword, hc⟩ := exists_word_of_mem hc (by simpa using hblank)
    rcases h.words word hword with rfl | hpart
    · exact .inr (.inl (List.mem_singleton.1 hc))
    · exact .inr (.inr (hpart c hc))

def clauseSeparators : List Char := [',', '\x7b', '\x7d']

/-- Neither separators nor signs of texts, statements and comments stand in parts. -/
theorem IsPartCharacter.notMem {c : Char} (h : IsPartCharacter c) :
    c ∉ clauseSeparators ++ ['\'', '"', ';', '/'] := by
  intro hmem
  have hall : (clauseSeparators ++ ['\'', '"', ';', '/']).all
      (fun c => !isWhitespace c && (c != '*' && !isIdentifierPart c)) = true := by
    decide +kernel
  have hnone := List.all_eq_true.1 hall c hmem
  simp only [Bool.and_eq_true, Bool.not_eq_true', bne_iff_ne] at hnone
  obtain ⟨hblank, hstar, hpart⟩ := hnone
  rcases h with h | h | h
  · rw [hblank] at h
    cases h
  · exact hstar h
  · rw [hpart] at h
    cases h

/-- Parts with separators between them have no other characters. -/
def IsClauseText (text : List Char) : Prop :=
  ∀ c ∈ text, IsPartCharacter c ∨ c ∈ clauseSeparators

theorem IsClauseText.notMem {text : List Char} (h : IsClauseText text) {c : Char} (hc : c ∈ text) :
    c ∉ ['\'', '"', ';', '/'] := by
  rcases h c hc with hpart | hseparator
  · exact fun hmem => hpart.notMem (List.mem_append_right _ hmem)
  · simp only [clauseSeparators, List.mem_cons, List.not_mem_nil, or_false] at hseparator
    rcases hseparator with rfl | rfl | rfl <;> decide

theorem IsClauseText.clauseCharacters {text : List Char} (h : IsClauseText text) :
    ∀ c ∈ text, isClauseCharacter c = true := by
  intro c hc
  have hnone := h.notMem hc
  simp only [List.mem_cons, List.not_mem_nil, or_false, not_or] at hnone
  simp [isClauseCharacter, hnone]

theorem isClauseText_of_blank {blanks : List Char} (h : ∀ c ∈ blanks, isWhitespace c = true) :
    IsClauseText blanks := fun c hc => .inl (.inl (h c hc))

theorem IsClauseText.separated {before after : List Char} (hbefore : IsClauseText before)
    (hafter : IsClauseText after) {c : Char} (hc : c ∈ clauseSeparators) :
    IsClauseText (before ++ c :: after) :=
  List.forall_mem_append.2 ⟨hbefore, List.forall_mem_cons.2 ⟨.inr hc, hafter⟩⟩

theorem PartBinds.isClauseText {part name : List Char} (h : PartBinds part name) :
    IsClauseText part := fun c hc => .inl (h.characters c hc)

theorem ListBinds.isClauseText {list : List Char} {names : List (List Char)}
    (h : ListBinds list names) : IsClauseText list := by
  induction h with
  | blank h => exact isClauseText_of_blank h
  | last h => exact h.isClauseText
  | more h _ ih => exact h.isClauseText.separated ih (by decide)

theorem ClauseBinds.isClauseText {clause : List Char} {names : List (List Char)}
    (h : ClauseBinds clause names) : IsClauseText clause := by
  induction h with
  | part h => exact h.isClauseText
  | list hbefore h hafter =>
    exact (isClauseText_of_blank hbefore).separated
      (h.isClauseText.separated (isClauseText_of_blank hafter) (by decide)) (by decide)
  | both h _ ih => exact h.isClauseText.separated ih (by decide)

/-! ## The names that are found -/

theorem clauseNames_separator {c : Char} (hc : c ∈ clauseSeparators) (before after : List Char) :
    clauseNames (before ++ c :: after) = clauseNames before ++ clauseNames after := by
  have hcomma : (if c = '\x7b' || c = '\x7d' then ',' else c) = ',' := by
    simp only [clauseSeparators, List.mem_cons, List.not_mem_nil, or_false] at hc
    rcases hc with rfl | rfl | rfl <;> rfl
  simp only [clauseNames, List.map_append, List.map_cons, hcomma, splitChars_separator,
    List.filterMap_append]

theorem clauseNames_part {part : List Char} (h : ∀ c ∈ part, c ∉ clauseSeparators) :
    clauseNames part = ((words part).getLast?.map String.ofList).toList := by
  have hsame : part.map (fun c => if c = '\x7b' || c = '\x7d' then ',' else c) = part := by
    conv_rhs => rw [← List.map_id part]
    refine List.map_congr_left fun c hc => if_neg fun hbrace => h c hc ?_
    rw [Bool.or_eq_true, decide_eq_true_eq, decide_eq_true_eq] at hbrace
    rcases hbrace with rfl | rfl <;> decide
  have hcomma : ',' ∉ part := fun hmem => h ',' hmem (by decide)
  rw [clauseNames]
  simp only [hsame, splitChars_of_notMem hcomma]
  cases hlast : (words part).getLast? <;> simp [hlast]

/-- The name of the last part is found, whatever is before it. -/
theorem PartBinds.mem_clauseNames {part name : List Char} (h : PartBinds part name)
    {before : List Char} (hbefore : EndsBlank before) :
    String.ofList name ∈ clauseNames (before ++ part) := by
  -- separators in the text before are passed one by one
  induction hlength : before.length using Nat.strongRecOn generalizing before with
  | ind length ih =>
    by_cases hseparator : ∃ c ∈ before, c ∈ clauseSeparators
    · obtain ⟨c, hmem, hc⟩ := hseparator
      obtain ⟨front, back, rfl⟩ := List.append_of_mem hmem
      rw [List.append_assoc, List.cons_append, clauseNames_separator hc]
      refine List.mem_append_right _ (ih back.length ?_ ?_ rfl)
      · simp only [List.length_append, List.length_cons] at hlength
        omega
      · cases back with
        | nil => nofun
        | cons d back =>
          rwa [EndsBlank, List.getLast?_append_cons, List.getLast?_cons_cons] at hbefore
    · rw [clauseNames_part, words_append_of_endsBlank hbefore, List.getLast?_append,
        h.binds.getLast?]
      · exact .head _
      · intro c hc
        rcases List.mem_append.1 hc with hc | hc
        · exact fun hmem => hseparator ⟨c, hc, hmem⟩
        · exact fun hmem => (h.characters c hc).notMem (List.mem_append_left _ hmem)

theorem ListBinds.mem_clauseNames {list : List Char} {names : List (List Char)}
    (h : ListBinds list names) : ∀ name ∈ names, String.ofList name ∈ clauseNames list := by
  induction h with
  | blank => nofun
  | last h => exact List.forall_mem_singleton.2 (h.mem_clauseNames endsBlank_nil)
  | more h _ ih =>
    rw [clauseNames_separator (by decide), List.forall_mem_cons]
    exact ⟨List.mem_append_left _ (h.mem_clauseNames endsBlank_nil),
      fun name hname => List.mem_append_right _ (ih name hname)⟩

/-- All names of a clause are found, whatever is before it. -/
theorem ClauseBinds.mem_clauseNames {clause : List Char} {names : List (List Char)}
    (h : ClauseBinds clause names) {before : List Char} (hbefore : EndsBlank before) :
    ∀ name ∈ names, String.ofList name ∈ clauseNames (before ++ clause) := by
  induction h generalizing before with
  | part h => exact List.forall_mem_singleton.2 (h.mem_clauseNames hbefore)
  | list _ h _ =>
    rw [← List.append_assoc, clauseNames_separator (by decide), clauseNames_separator (by decide)]
    exact fun name hname =>
      List.mem_append_right _ (List.mem_append_left _ (h.mem_clauseNames name hname))
  | both h _ ih =>
    rw [← List.append_assoc, clauseNames_separator (by decide), List.forall_mem_cons]
    exact ⟨List.mem_append_left _ (h.mem_clauseNames hbefore), fun name hname =>
      List.mem_append_right _ (ih endsBlank_nil name hname)⟩

end TypedRoutes.Naming
