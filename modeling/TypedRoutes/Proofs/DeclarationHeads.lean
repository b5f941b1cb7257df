import TypedRoutes.Proofs.LineStartScans
import Mathlib.Data.List.Infix

/-! # The heads of declarations

A declared name is what follows a heading: modifiers in a fixed order and a declaring word, each
with whitespace behind it.  The reader takes exactly the plain name after a heading, and nothing
else.
-/

namespace TypedRoutes.Naming
open TypedRoutes.Text TypedRoutes.Template

/-! ## Headings -/

/-- The words of all headings: modifiers, then a declaring word. -/
def headings : List (List String) :=
  [[], ["export"], ["export", "default"]].flatMap fun exports =>
    [[], ["declare"]].flatMap fun declares =>
      [[], ["async"]].flatMap fun asynchronous =>
        declaringWords.map fun word => exports ++ declares ++ asynchronous ++ [word]

def headingWords : List String := ["export", "default", "declare", "async"] ++ declaringWords

/-- Words, each with what stands between it and the next. -/
abbrev GappedWords := List (String × List Char)

def gapped (parts : GappedWords) : List Char :=
  parts.flatMap fun (word, gap) => word.toList ++ gap

@[simp] theorem gapped_nil : gapped [] = [] := rfl

@[simp] theorem gapped_cons (word : String) (gap : List Char) (parts : GappedWords) :
    gapped ((word, gap) :: parts) = word.toList ++ (gap ++ gapped parts) :=
  List.append_assoc _ _ _

@[simp] theorem gapped_append (parts more : GappedWords) :
    gapped (parts ++ more) = gapped parts ++ gapped more :=
  List.flatMap_append

/-- Words of headings with whitespace between them. -/
def IsSpaced (parts : GappedWords) : Prop :=
  ∀ p ∈ parts, p.1 ∈ headingWords ∧ IsGap p.2

/-- The words of a heading with whitespace after each. -/
structure IsHeading (parts : GappedWords) : Prop where
  words : parts.map Prod.fst ∈ headings
  gaps : ∀ p ∈ parts, IsGap p.2

theorem IsHeading.spaced {parts : GappedWords} (h : IsHeading parts) :
    IsSpaced parts := by
  have hwords : ∀ words ∈ headings, ∀ word ∈ words, word ∈ headingWords := by decide +kernel
  exact fun p hp => ⟨hwords _ h.words _ (List.mem_map_of_mem hp), h.gaps p hp⟩

/-- A heading goes on as a heading, but `default` begins none. -/
theorem IsHeading.of_append {parts more : GappedWords} (h : IsHeading (parts ++ more))
    (hne : more ≠ []) (hdefault : (more.map Prod.fst).head? ≠ some "default") : IsHeading more where
  words := by
    have htails : ∀ words ∈ headings, ∀ rest ∈ words.tails, rest ≠ [] →
        rest.head? ≠ some "default" → rest ∈ headings := by
      decide +kernel
    refine htails _ h.words _ ((List.mem_tails _ _).2 ?_) (by simpa using hne) hdefault
    exact ⟨parts.map Prod.fst, (List.map_append ..).symm⟩
  gaps p hp := h.gaps p (List.mem_append_right _ hp)

/-! ## Single words -/

theorem isVisible_of_mem_headingWords {word : String} (h : word ∈ headingWords) :
    IsVisible word.toList := by
  have hall : ∀ word ∈ headingWords, IsVisible word.toList := by decide +kernel
  exact hall word h

theorem word_gap_inj {word word' gap gap' rest rest' : List Char} (hword : IsVisible word)
    (hword' : IsVisible word') (hgap : IsGap gap) (hgap' : IsGap gap')
    (hrest : Flush rest) (hrest' : Flush rest')
    (h : word ++ (gap ++ rest) = word' ++ (gap' ++ rest')) :
    word = word' ∧ gap = gap' ∧ rest = rest' := by
  have hwords {word gap : List Char} (hword : IsVisible word) (hgap : IsGap gap)
      (rest : List Char) :
      (word ++ (gap ++ rest)).takeWhile (!isWhitespace ·) = word := by
    refine takeWhile_append_of_stop (fun c hc => by simp [hword.2 c hc]) ?_
    obtain ⟨c, cs, rfl⟩ := List.exists_cons_of_ne_nil hgap.1
    rintro _ ⟨⟩
    simp [hgap.2 c (.head _)]
  have hsame : word = word' := by
    rw [← hwords hword hgap rest, h, hwords hword' hgap']
  subst hsame
  have hgaps := List.append_cancel_left h
  have hsame : gap = gap' := by
    rw [← hgap.2.takeWhile hrest, hgaps, hgap'.2.takeWhile hrest']
  subst hsame
  exact ⟨rfl, rfl, List.append_cancel_left hgaps⟩

theorem flush_gapped {parts : GappedWords} (h : IsSpaced parts) {rest : List Char}
    (hrest : Flush rest) : Flush (gapped parts ++ rest) := by
  cases parts with
  | nil => exact hrest
  | cons p parts =>
    rw [gapped_cons, List.append_assoc]
    exact (isVisible_of_mem_headingWords (h p (.head _)).1).flush _

theorem wordAndBlanks_eq_some {word : String} {text rest : List Char} {n : Nat}
    (h : wordAndBlanks word text = some (n, rest)) :
    ∃ gap, IsGap gap ∧ text = word.toList ++ (gap ++ rest) ∧
      n = (word.toList ++ gap).length ∧ Flush rest := by
  simp only [wordAndBlanks, Option.bind_eq_bind, Option.bind_eq_some_iff] at h
  obtain ⟨after, hword, h⟩ := h
  split at h
  · cases h
  · rename_i hne
    rw [drop_length_takeWhile] at h
    cases h
    refine ⟨after.takeWhile isWhitespace, ⟨by simpa using hne,
      List.all_eq_true.1 List.all_takeWhile⟩, ?_, ?_, head_dropWhile _ _⟩
    · rw [List.takeWhile_append_dropWhile]
      exact dropBeginning?_eq_some hword
    · rw [List.length_append, String.length_toList]

theorem wordAndBlanks_append (word : String) {gap rest : List Char} (hgap : IsGap gap)
    (hrest : Flush rest) :
    wordAndBlanks word (word.toList ++ (gap ++ rest)) =
      some ((word.toList ++ gap).length, rest) := by
  have hne : ¬gap.length = 0 := by simpa using hgap.1
  simp only [wordAndBlanks, Option.bind_eq_bind, dropBeginning?_append, Option.bind_some,
    hgap.2.takeWhile hrest, if_neg hne, List.drop_left, List.length_append, String.length_toList]

theorem wordAndBlanks_gapped {word : String} (hword : word ∈ headingWords) {first : String}
    {gap : List Char} {parts : GappedWords} (h : IsSpaced ((first, gap) :: parts))
    {rest : List Char} (hrest : Flush rest) :
    wordAndBlanks word (gapped ((first, gap) :: parts) ++ rest) =
      if first = word then some ((word.toList ++ gap).length, gapped parts ++ rest) else none := by
  obtain ⟨hfirst, hgap⟩ := h _ (.head _)
  have hflush := flush_gapped (fun p hp => h p (.tail _ hp)) hrest
  have htext : gapped ((first, gap) :: parts) ++ rest =
      first.toList ++ (gap ++ (gapped parts ++ rest)) := by
    simp
  rw [htext]
  split
  · rename_i hsame
    rw [hsame, wordAndBlanks_append word hgap hflush]
  · rename_i hother
    by_contra hsome
    obtain ⟨⟨n, rest'⟩, hread⟩ := Option.ne_none_iff_exists'.1 hsome
    obtain ⟨gap', hgap', htext, -, hflush'⟩ := wordAndBlanks_eq_some hread
    have hsame := (word_gap_inj (isVisible_of_mem_headingWords hfirst)
      (isVisible_of_mem_headingWords hword) hgap hgap' hflush hflush' htext).1
    exact hother (String.toList_inj.1 hsame)

/-! ## Optional words -/

theorem optionalWord_of_none {word : String} {text : List Char}
    (h : wordAndBlanks word text = none) : optionalWord word text = (0, text) := by
  rw [optionalWord, h, Option.getD_none]

/-- What an optional word passes: the word with whitespace, or nothing. -/
theorem optionalWord_passed (word : String) (text : List Char) :
    ∃ parts, parts.map Prod.fst ∈ [[], [word]] ∧ (∀ p ∈ parts, IsGap p.2) ∧
      text = gapped parts ++ (optionalWord word text).2 ∧
      (optionalWord word text).1 = (gapped parts).length := by
  cases hread : wordAndBlanks word text with
  | none =>
    rw [optionalWord_of_none hread]
    exact ⟨[], by simp⟩
  | some read =>
    obtain ⟨n, rest⟩ := read
    obtain ⟨gap, hgap, rfl, rfl, -⟩ := wordAndBlanks_eq_some hread
    rw [optionalWord, hread, Option.getD_some]
    exact ⟨[(word, gap)], by simp, by simpa using hgap, by simp, by simp⟩

section
variable {word : String} (hword : word ∈ headingWords) {more : GappedWords}
  {rest : List Char} (hrest : Flush rest)
include hword hrest

theorem wordAndBlanks_gapped_some {gap : List Char} (h : IsSpaced ((word, gap) :: more)) :
    wordAndBlanks word (gapped ((word, gap) :: more) ++ rest) =
      some ((gapped [(word, gap)]).length, gapped more ++ rest) := by
  rw [wordAndBlanks_gapped hword h hrest, if_pos rfl]
  simp

variable (hne : more ≠ []) (hmore : word ∉ more.map Prod.fst)
include hne hmore

theorem wordAndBlanks_gapped_none (h : IsSpaced more) :
    wordAndBlanks word (gapped more ++ rest) = none := by
  obtain ⟨⟨first, gap⟩, parts, rfl⟩ := List.exists_cons_of_ne_nil hne
  rw [wordAndBlanks_gapped hword h hrest, if_neg]
  rintro rfl
  exact hmore (.head _)

theorem optionalWord_gapped {parts : GappedWords}
    (hparts : parts.map Prod.fst ∈ [[], [word]]) (h : IsSpaced (parts ++ more)) :
    optionalWord word (gapped (parts ++ more) ++ rest) =
      ((gapped parts).length, gapped more ++ rest) := by
  simp only [List.mem_cons, List.not_mem_nil, or_false, List.map_eq_nil_iff,
    List.map_eq_singleton_iff] at hparts
  rcases hparts with rfl | ⟨⟨first, gap⟩, rfl, hfirst⟩
  · rw [List.nil_append] at h ⊢
    exact optionalWord_of_none (wordAndBlanks_gapped_none hword hrest hne hmore h)
  · obtain rfl : first = word := hfirst
    rw [List.singleton_append] at h ⊢
    rw [optionalWord, wordAndBlanks_gapped_some hword hrest h, Option.getD_some]

end

/-- Where no reader gives anything else, the value that some reader gives is found. -/
theorem findSome?_eq_some_of_unlike {α β : Type} {f : α → Option β} {as : List α} {b : β}
    (hall : ∀ a ∈ as, ∀ other, f a = some other → other = b) (hsome : ∃ a ∈ as, f a = some b) :
    as.findSome? f = some b := by
  obtain ⟨a, ha, hb⟩ := hsome
  cases hfound : as.findSome? f with
  | none => rw [List.findSome?_eq_none_iff.1 hfound a ha] at hb; cases hb
  | some other =>
    obtain ⟨a', ha', hother⟩ := List.exists_of_findSome?_eq_some hfound
    rw [hall a' ha' other hother]

theorem declaringWord_gapped {word : String} (hword : word ∈ declaringWords) {gap rest : List Char}
    (h : IsSpaced [(word, gap)]) (hrest : Flush rest) :
    declaringWords.findSome? (wordAndBlanks · (gapped [(word, gap)] ++ rest)) =
      some ((gapped [(word, gap)]).length, rest) := by
  have hread (other : String) (hother : other ∈ declaringWords) :=
    wordAndBlanks_gapped (List.mem_append_right _ hother) h hrest
  refine findSome?_eq_some_of_unlike (fun other hother read hsome => ?_) ⟨word, hword, ?_⟩
  · rw [hread other hother] at hsome
    split at hsome
    · rename_i hsame
      cases hsome
      simp [hsame]
    · cases hsome
  · rw [hread word hword, if_pos rfl]
    simp

/-! ## Declared names -/

/-- A name that a declaration can be found by. -/
def IsDeclarable (name : List Char) : Prop :=
  name.head?.any isNameStart = true ∧ ∀ c ∈ name, isNamePart c = true

instance (name : List Char) : Decidable (IsDeclarable name) :=
  decidable_of_iff (name.head?.any isNameStart = true ∧ name.all isNamePart = true)
    (by simp [IsDeclarable])

theorem isNamePart_of_isNameStart {c : Char} (h : isNameStart c = true) : isNamePart c = true := by
  simp only [isNameStart, Bool.and_eq_true, Bool.or_eq_true] at h
  obtain ⟨hascii, h⟩ := h
  simp only [isNamePart, isWordCharacter, hascii, if_true, Char.isAlphanum, Bool.or_eq_true]
  tauto

theorem IsDeclarable.visible {name : List Char} (h : IsDeclarable name) : IsVisible name := by
  refine ⟨?_, fun c hc => isWhitespace_of_isNamePart (h.2 c hc)⟩
  rintro rfl
  cases h.1

/-- A text begins with the declaration of a name, which ends where no more characters of names
follow. -/
structure DeclaresAt (text : List Char) (parts : GappedWords) (name rest : List Char) :
    Prop where
  text_eq : text = gapped parts ++ (name ++ rest)
  heading : IsHeading parts
  name : IsDeclarable name
  stop : ∀ c ∈ rest.head?, isNamePart c = false

theorem exists_heading_parts {parts : GappedWords} (h : IsHeading parts) :
    ∃ exports declares asynchronous word gap,
      parts = exports ++ (declares ++ (asynchronous ++ [(word, gap)])) ∧
      exports.map Prod.fst ∈ [[], ["export"], ["export", "default"]] ∧
      declares.map Prod.fst ∈ [[], ["declare"]] ∧ asynchronous.map Prod.fst ∈ [[], ["async"]] ∧
      word ∈ declaringWords := by
  have hwords := h.words
  simp only [headings, List.mem_flatMap, List.mem_map] at hwords
  obtain ⟨exports, hexports, declares, hdeclares, asynchronous, hasynchronous, word, hword,
    hparts⟩ := hwords
  obtain ⟨front, last, rfl, hfront, hlast⟩ := List.map_eq_append_iff.1 hparts.symm
  obtain ⟨both, a, rfl, hboth, rfl⟩ := List.map_eq_append_iff.1 hfront
  obtain ⟨e, d, rfl, rfl, rfl⟩ := List.map_eq_append_iff.1 hboth
  obtain ⟨⟨first, gap⟩, rfl, hfirst⟩ := List.map_eq_singleton_iff.1 hlast
  obtain rfl : first = word := hfirst
  exact ⟨e, d, a, first, gap, by simp, hexports, hdeclares, hasynchronous, hword⟩

/-- The words of an export, where they may also be missing. -/
def exportWords (text : List Char) : Nat × List Char :=
  match wordAndBlanks "export" text with
  | none => (0, text)
  | some (n, rest) => (n + (optionalWord "default" rest).1, (optionalWord "default" rest).2)

theorem declaredName?_eq (text : List Char) :
    declaredName? text =
      let exports := exportWords text
      let declares := optionalWord "declare" exports.2
      let asynchronous := optionalWord "async" declares.2
      (declaringWords.findSome? (wordAndBlanks · asynchronous.2)).bind fun (n, rest) =>
        if rest.head?.any isNameStart then
          let name := rest.takeWhile isNamePart
          some (String.ofList name,
            exports.1 + declares.1 + asynchronous.1 + n + name.length)
        else none := by
  unfold declaredName? exportWords
  cases wordAndBlanks "export" text <;> dsimp only [Option.bind_eq_bind] <;> congr 1 <;>
    funext ⟨n, rest⟩ <;> cases rest <;> rfl

theorem exportWords_passed (text : List Char) :
    ∃ parts, parts.map Prod.fst ∈ [[], ["export"], ["export", "default"]] ∧
      (∀ p ∈ parts, IsGap p.2) ∧ text = gapped parts ++ (exportWords text).2 ∧
      (exportWords text).1 = (gapped parts).length := by
  unfold exportWords
  cases hread : wordAndBlanks "export" text with
  | none => exact ⟨[], by simp⟩
  | some read =>
    obtain ⟨n, rest⟩ := read
    obtain ⟨gap, hgap, htext, rfl, -⟩ := wordAndBlanks_eq_some hread
    obtain ⟨parts, hparts, hgaps, hrest, hlength⟩ := optionalWord_passed "default" rest
    refine ⟨("export", gap) :: parts, ?_, List.forall_mem_cons.2 ⟨hgap, hgaps⟩, ?_, ?_⟩
    · simp only [List.mem_cons, List.not_mem_nil, or_false, List.map_cons] at hparts ⊢
      rcases hparts with hparts | hparts <;> simp [hparts]
    · rw [htext, gapped_cons, List.append_assoc, List.append_assoc, ← hrest]
    · simp only [hlength, gapped_cons, List.length_append, Nat.add_assoc]

theorem exportWords_gapped {parts more : GappedWords}
    (hparts : parts.map Prod.fst ∈ [[], ["export"], ["export", "default"]])
    (h : IsSpaced (parts ++ more)) (hne : more ≠ []) (hexport : "export" ∉ more.map Prod.fst)
    (hdefault : "default" ∉ more.map Prod.fst) {rest : List Char} (hrest : Flush rest) :
    exportWords (gapped (parts ++ more) ++ rest) =
      ((gapped parts).length, gapped more ++ rest) := by
  cases parts with
  | nil =>
    rw [List.nil_append] at h ⊢
    rw [exportWords, wordAndBlanks_gapped_none (by decide) hrest hne hexport h]
    rfl
  | cons p parts =>
    obtain ⟨first, gap⟩ := p
    have hwords : first = "export" ∧ parts.map Prod.fst ∈ [[], ["default"]] := by
      simpa [← and_or_left] using hparts
    clear hparts
    obtain ⟨rfl, hparts⟩ := hwords
    have hdefaults := optionalWord_gapped (by decide) hrest hne hdefault hparts
      fun p hp => h p (.tail _ hp)
    rw [List.cons_append] at h ⊢
    rw [exportWords, wordAndBlanks_gapped_some (by decide) hrest h]
    dsimp only
    rw [hdefaults]
    simp only [gapped_cons, gapped_nil, List.append_nil, List.length_append, Nat.add_assoc]

theorem isHeading_of_parts {exports declares asynchronous : GappedWords} {word : String}
    {gap : List Char} (hexports : exports.map Prod.fst ∈ [[], ["export"], ["export", "default"]])
    (hdeclares : declares.map Prod.fst ∈ [[], ["declare"]])
    (hasynchronous : asynchronous.map Prod.fst ∈ [[], ["async"]]) (hword : word ∈ declaringWords)
    (hgaps : ∀ p ∈ exports ++ (declares ++ (asynchronous ++ [(word, gap)])),
      IsGap p.2) :
    IsHeading (exports ++ (declares ++ (asynchronous ++ [(word, gap)]))) where
  words := by
    simp only [headings, List.mem_flatMap, List.mem_map, List.map_append]
    exact ⟨_, hexports, _, hdeclares, _, hasynchronous, word, hword, by simp⟩
  gaps := hgaps

/-- Of the words of a heading none comes after a later one. -/
theorem words_of_parts {declares asynchronous : GappedWords} {word : String}
    (hdeclares : declares.map Prod.fst ∈ [[], ["declare"]])
    (hasynchronous : asynchronous.map Prod.fst ∈ [[], ["async"]]) (hword : word ∈ declaringWords)
    (gap : List Char) :
    (∀ earlier ∈ ["export", "default"],
      earlier ∉ (declares ++ (asynchronous ++ [(word, gap)])).map Prod.fst) ∧
    "declare" ∉ (asynchronous ++ [(word, gap)]).map Prod.fst ∧
    "async" ∉ [(word, gap)].map Prod.fst := by
  have hother : ∀ word ∈ declaringWords, ∀ declares ∈ [[], ["declare"]],
      ∀ asynchronous ∈ [[], ["async"]],
      (∀ earlier ∈ ["export", "default"], earlier ∉ declares ++ (asynchronous ++ [word])) ∧
        "declare" ∉ asynchronous ++ [word] ∧ "async" ∉ [word] := by
    decide +kernel
  simpa only [List.map_append, List.map_singleton] using
    hother word hword _ hdeclares _ hasynchronous

theorem exists_declaresAt {text : List Char} {name : String} {n : Nat}
    (h : declaredName? text = some (name, n)) :
    ∃ parts rest, DeclaresAt text parts name.toList rest ∧
      n = (gapped parts ++ name.toList).length := by
  rw [declaredName?_eq] at h
  obtain ⟨⟨k, rest⟩, hword, h⟩ := Option.bind_eq_some_iff.1 h
  obtain ⟨exports, hexports, hgapsE, htextE, hlengthE⟩ := exportWords_passed text
  obtain ⟨declares, hdeclares, hgapsD, htextD, hlengthD⟩ :=
    optionalWord_passed "declare" (exportWords text).2
  obtain ⟨asynchronous, hasynchronous, hgapsA, htextA, hlengthA⟩ :=
    optionalWord_passed "async" (optionalWord "declare" (exportWords text).2).2
  obtain ⟨word, hmem, hread⟩ := List.exists_of_findSome?_eq_some hword
  obtain ⟨gap, hgap, htextW, rfl, -⟩ := wordAndBlanks_eq_some hread
  dsimp only at h
  split at h
  · rename_i hstart
    cases h
    have hrest := List.takeWhile_append_dropWhile (p := isNamePart) (l := rest)
    have hname : IsDeclarable (rest.takeWhile isNamePart) := by
      refine ⟨?_, List.all_eq_true.1 List.all_takeWhile⟩
      cases rest with
      | nil => cases hstart
      | cons c rest => rwa [List.takeWhile_cons_of_pos (isNamePart_of_isNameStart hstart)]
    refine ⟨exports ++ (declares ++ (asynchronous ++ [(word, gap)])), rest.dropWhile isNamePart,
      ⟨?_, ?_, ?_, head_dropWhile _ _⟩, ?_⟩
    · rw [String.toList_ofList, hrest]
      conv_lhs => rw [htextE, htextD, htextA, htextW]
      simp
    · refine isHeading_of_parts hexports hdeclares hasynchronous hmem ?_
      simp only [List.forall_mem_append, List.forall_mem_singleton]
      exact ⟨hgapsE, hgapsD, hgapsA, hgap⟩
    · rwa [String.toList_ofList]
    · rw [hlengthE, hlengthD, hlengthA, String.toList_ofList]
      simp [Nat.add_assoc]
  · cases h

theorem DeclaresAt.read {text rest : List Char} {parts : GappedWords} {name : List Char}
    (h : DeclaresAt text parts name rest) :
    declaredName? text = some (String.ofList name, (gapped parts ++ name).length) := by
  obtain ⟨rfl, hheading, hname, hstop⟩ := h
  rw [declaredName?_eq]
  obtain ⟨exports, declares, asynchronous, word, gap, rfl, hexports, hdeclares, hasynchronous,
    hword⟩ := exists_heading_parts hheading
  have hspaced := hheading.spaced
  have hflush := hname.visible.flush rest
  have hafter (parts more : GappedWords) (h : IsSpaced (parts ++ more)) :
      IsSpaced more := fun p hp => h p (List.mem_append_right _ hp)
  have hspacedD := hafter _ _ hspaced
  have hspacedA := hafter _ _ hspacedD
  obtain ⟨hexport, hdeclare, hasync⟩ := words_of_parts hdeclares hasynchronous hword gap
  rw [exportWords_gapped hexports hspaced (by simp) (hexport _ (by decide))
    (hexport _ (by decide)) hflush]
  dsimp only
  rw [optionalWord_gapped (by decide) hflush (by simp) hdeclare hdeclares hspacedD]
  dsimp only
  rw [optionalWord_gapped (by decide) hflush (by simp) hasync hasynchronous hspacedA]
  dsimp only
  rw [declaringWord_gapped hword (hafter _ _ hspacedA) hflush, Option.bind_some]
  have hstart : (name ++ rest).head?.any isNameStart = true := by
    obtain ⟨c, cs, hc⟩ := List.exists_cons_of_ne_nil hname.visible.1
    simpa [hc] using hname.1
  dsimp only
  rw [if_pos hstart, takeWhile_append_of_stop hname.2 hstop]
  simp [Nat.add_assoc]

/-- At the head of a text exactly the plain name after a heading is read, if there is one. -/
theorem declaredName?_eq_some_iff {text : List Char} {name : String} {n : Nat} :
    declaredName? text = some (name, n) ↔
      ∃ parts rest, DeclaresAt text parts name.toList rest ∧
        n = (gapped parts ++ name.toList).length := by
  refine ⟨exists_declaresAt, ?_⟩
  rintro ⟨parts, rest, hdeclares, rfl⟩
  simpa using hdeclares.read

/-! ## Declarations at the starts of lines -/

/-- A text ends in a heading at the start of a line, so that a name may be expected after it. -/
def EndsHeading (text : List Char) : Prop :=
  ∃ front parts, LineBegins front ∧ IsHeading parts ∧ text = front ++ gapped parts

/-- Where a text with spaced words at its head is cut behind whitespace and before a visible
character, one of the words begins there, or else what comes after them is cut. -/
theorem gapped_cut {parts : GappedWords} (h : IsSpaced parts)
    {run rest more : List Char} (hrun : ∃ c ∈ run.getLast?, isWhitespace c = true)
    (hrest : Flush rest) (htext : run ++ rest = gapped parts ++ more) :
    (∃ front back, parts = front ++ back ∧ run = gapped front ∧ rest = gapped back ++ more) ∨
      ∃ front, front ≠ [] ∧ run = gapped parts ++ front ∧ more = front ++ rest := by
  obtain ⟨c, hlast, hblank⟩ := hrun
  induction parts generalizing run with
  | nil =>
    refine .inr ⟨run, ?_, rfl, htext.symm⟩
    rintro rfl
    cases hlast
  | cons p parts ih =>
    obtain ⟨word, gap⟩ := p
    obtain ⟨hword, -, hgap⟩ := h _ (.head _)
    rw [gapped_cons, ← List.append_assoc, List.append_assoc] at htext
    have hbehind (behind : List Char) (hrun : run = word.toList ++ gap ++ behind)
        (hbehind : behind ++ rest = gapped parts ++ more) :
        (∃ front back, (word, gap) :: parts = front ++ back ∧ run = gapped front ∧
          rest = gapped back ++ more) ∨
        ∃ front, front ≠ [] ∧ run = gapped ((word, gap) :: parts) ++ front ∧
          more = front ++ rest := by
      by_cases hne : behind = []
      · subst hne
        exact .inl ⟨[(word, gap)], parts, rfl, by simpa using hrun, hbehind⟩
      · rw [hrun, List.getLast?_append_of_ne_nil _ hne] at hlast
        rcases ih (fun p hp => h p (.tail _ hp)) hbehind hlast with
          ⟨front, back, rfl, rfl, hrest⟩ | ⟨front, hfront, rfl, hmore⟩
        · exact .inl ⟨(word, gap) :: front, back, rfl, by simp [hrun], hrest⟩
        · exact .inr ⟨front, hfront, by simp [hrun], hmore⟩
    rcases List.append_eq_append_iff.1 htext with ⟨cut, hcut, hrest'⟩ | ⟨behind, hrun, hbehind'⟩
    · by_cases hne : cut = []
      · subst hne
        exact hbehind [] (by simpa using hcut.symm) (by simpa using hrest')
      · -- the cut is neither within the word nor within the whitespace after it
        exfalso
        rcases List.append_eq_append_iff.1 hcut with ⟨after, hrun, hgap'⟩ | ⟨after, hword', -⟩
        · obtain ⟨d, cut, rfl⟩ := List.exists_cons_of_ne_nil hne
          have hd := hrest d (by rw [hrest']; rfl)
          rw [hgap d (by simp [hgap'])] at hd
          cases hd
        · have hc := (isVisible_of_mem_headingWords hword).2 c
            (by rw [hword']; exact List.mem_append_left _ (List.mem_of_getLast? hlast))
          rw [hblank] at hc
          cases hc
    · exact hbehind behind hrun hbehind'.symm

/-- Not all of a heading may stand before a place where another heading begins. -/
theorem DeclaresAt.of_append {text rest rest' name name' : List Char}
    {parts earlier later : GappedWords} (h : DeclaresAt text parts name rest)
    (hwhole : IsHeading (earlier ++ later)) (hne : later ≠ [])
    (htext : text = gapped later ++ (name' ++ rest')) (hname : IsDeclarable name')
    (hstop : ∀ c ∈ rest'.head?, isNamePart c = false) : DeclaresAt text later name' rest' where
  text_eq := htext
  name := hname
  stop := hstop
  heading := by
    refine hwhole.of_append hne ?_
    obtain ⟨⟨word, gap⟩, later, rfl⟩ := List.exists_cons_of_ne_nil hne
    obtain ⟨⟨first, gap'⟩, parts, rfl⟩ : ∃ p ps, parts = p :: ps := by
      cases parts with
      | nil => exact absurd h.heading.words (by decide +kernel)
      | cons p ps => exact ⟨p, ps, rfl⟩
    have hspaced := h.heading.spaced
    have hspaced' : IsSpaced ((word, gap) :: later) := fun p hp =>
      hwhole.spaced p (List.mem_append_right _ hp)
    have hsame : word = first := by
      have htexts := htext.symm.trans h.text_eq
      simp only [gapped_cons, List.append_assoc] at htexts
      refine String.toList_inj.1 (word_gap_inj ?_ ?_ (hspaced' _ (.head _)).2
        (hspaced _ (.head _)).2 ?_ ?_ htexts).1
      · exact isVisible_of_mem_headingWords (hspaced' _ (.head _)).1
      · exact isVisible_of_mem_headingWords (hspaced _ (.head _)).1
      · exact flush_gapped (fun p hp => hspaced' p (.tail _ hp)) (hname.visible.flush _)
      · exact flush_gapped (fun p hp => hspaced p (.tail _ hp)) (h.name.visible.flush _)
    have hdefault : ∀ words ∈ headings, words.head? ≠ some "default" := by decide +kernel
    rw [List.map_cons, List.head?_cons, hsame]
    exact hdefault _ h.heading.words

theorem lineBeginsAfter_true_iff {text : List Char} :
    lineBeginsAfter true text = true ↔ LineBegins text := by
  rcases List.eq_nil_or_concat text with rfl | ⟨front, c, rfl⟩
  · simp [LineBegins]
  · simp [LineBegins, lineBeginsAfter]

/-- What is read past the start of a declaration is the declaration too, unless a heading ends
there. -/
theorem DeclaresAt.readsPast {before text rest : List Char} {parts : GappedWords}
    {name : List Char} (h : DeclaresAt text parts name rest) (hbefore : LineBegins before)
    (hend : ¬EndsHeading before) {found : String}
    (hpast : ReadsPast declaredName? true before text found) : found = String.ofList name := by
  obtain ⟨front, run, n, rfl, hfront, hread, hlength⟩ := hpast
  obtain ⟨parts', rest', hfound, rfl⟩ := declaredName?_eq_some_iff.1 hread
  by_cases hrun : run = []
  · rw [hrun, List.nil_append, h.read] at hread
    exact (Prod.mk.inj (Option.some.inj hread)).1.symm
  have hlast : run.getLast? = some '\n' := by
    rcases hbefore with hnil | hlast
    · exact absurd (List.append_eq_nil_iff.1 hnil).2 hrun
    · rwa [List.getLast?_append_of_ne_nil _ hrun] at hlast
  have hflush : Flush text := by
    rw [h.text_eq]
    exact flush_gapped h.heading.spaced (h.name.visible.flush _)
  rcases gapped_cut hfound.heading.spaced ⟨'\n', hlast, by decide⟩ hflush hfound.text_eq with
    ⟨earlier, later, rfl, rfl, htext⟩ | ⟨cut, hne, rfl, hcut⟩
  · by_cases hlater : later = []
    · -- the heading ends where the declaration begins
      subst hlater
      have hheading := hfound.heading
      rw [List.append_nil] at hheading
      exact absurd ⟨front, earlier, lineBeginsAfter_true_iff.1 hfront, hheading, rfl⟩ hend
    · have hagain := h.of_append hfound.heading hlater htext hfound.name hfound.stop
      have hboth := hagain.read.symm.trans h.read
      rw [String.ofList_toList] at hboth
      exact (Prod.mk.inj (Option.some.inj hboth)).1
  · -- the name that is found would hold the line break
    exfalso
    rw [List.getLast?_append_of_ne_nil _ hne] at hlast
    rcases List.append_eq_append_iff.1 hcut with ⟨after, hcut', -⟩ | ⟨after, hname, -⟩
    · simp only [List.length_append, hcut'] at hlength
      omega
    · have hvisible := hfound.name.visible.2 '\n'
        (by rw [hname]; exact List.mem_append_left _ (List.mem_of_getLast? hlast))
      exact absurd hvisible (by decide)

/-- A declaration at the start of a line is found if no heading ends there. -/
theorem DeclaresAt.found {before text rest : List Char} {parts : GappedWords}
    {name : List Char} (h : DeclaresAt text parts name rest) (hbefore : LineBegins before)
    (hend : ¬EndsHeading before) :
    String.ofList name ∈ topLevelBindings (String.ofList (before ++ text)) := by
  have hne : text ≠ [] := by
    rw [h.text_eq]
    simp [h.name.visible.1]
  obtain ⟨found, hfound, rfl⟩ := exists_mem_scanLineStarts declaredName?
    (p := (· = String.ofList name)) (lineBeginsAfter_true_iff.2 hbefore) hne (by simp [h.read])
    (fun _ => h.readsPast hbefore hend) fun a n hread => by
      have hpos := List.length_pos_iff.2 h.name.visible.1
      rw [h.read] at hread
      cases hread
      rw [List.length_append]
      omega
  rw [topLevelBindings, String.toList_ofList]
  exact List.mem_append_right _ hfound

end TypedRoutes.Naming
