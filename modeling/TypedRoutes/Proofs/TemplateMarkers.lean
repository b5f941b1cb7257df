import TypedRoutes.Proofs.RenamedText
import TypedRoutes.Proofs.TextPieces
import TypedRoutes.Template.Document

/-! # Markers

What a marker is, without regard to how it is looked for: a comment around a name in double braces.
No two markers begin at one place, and the one that does is found there.
-/

namespace TypedRoutes.Template
open TypedRoutes.Text TypedRoutes.Naming

def IsBlank (cs : List Char) : Prop := ∀ c ∈ cs, isWhitespace c = true

instance (cs : List Char) : Decidable (IsBlank cs) :=
  decidable_of_iff (cs.all isWhitespace = true) (by simp [IsBlank])

def IsGap (cs : List Char) : Prop := cs ≠ [] ∧ IsBlank cs

instance (cs : List Char) : Decidable (IsGap cs) := decidable_of_iff (cs ≠ [] ∧ IsBlank cs) .rfl

def IsWord (name : List Char) : Prop := name ≠ [] ∧ ∀ c ∈ name, isWordCharacter c = true

/-- A comment that holds a name in double braces and nothing else but whitespace around the
parts. -/
def IsMarker (name : String) (marker : List Char) : Prop :=
  IsWord name.toList ∧ ∃ a b c d, IsBlank a ∧ IsBlank b ∧ IsBlank c ∧ IsBlank d ∧
    marker = ['/', '*'] ++ a ++ ['\x7b', '\x7b'] ++ b ++ name.toList ++ c ++ ['\x7d', '\x7d'] ++ d ++
      ['*', '/']

/-! ## Characters of words and whitespace -/

theorem isWhitespace_of_isWordCharacter {c : Char} (h : isWordCharacter c = true) :
    isWhitespace c = false :=
  isWhitespace_of_isNamePart (by simp [isNamePart, h])

theorem isWordCharacter_of_isWhitespace {c : Char} (h : isWhitespace c = true) :
    isWordCharacter c = false := by
  by_contra hword
  rw [isWhitespace_of_isWordCharacter (by simpa using hword)] at h
  cases h

/-- After whitespace a text can go on with anything that does not begin with whitespace. -/
theorem IsBlank.takeWhile {blanks : List Char} (h : IsBlank blanks) {rest : List Char}
    (hrest : ∀ c ∈ rest.head?, isWhitespace c = false) :
    (blanks ++ rest).takeWhile isWhitespace = blanks :=
  takeWhile_append_of_stop h hrest

namespace IsMarker
variable {name : String} {marker : List Char}

/-- A marker begins and ends with a slash. -/
theorem exists_inner (h : IsMarker name marker) : ∃ inner, marker = '/' :: (inner ++ ['/']) := by
  obtain ⟨-, a, b, c, d, -, -, -, -, rfl⟩ := h
  exact ⟨'*' :: (a ++ ['\x7b', '\x7b'] ++ b ++ name.toList ++ c ++ ['\x7d', '\x7d'] ++ d ++ ['*']),
    by simp⟩

/-- A marker at the head of a text is found, whatever follows it. -/
theorem marker?_append (h : IsMarker name marker) (rest : List Char) :
    marker? (marker ++ rest) = some (name, marker.length) := by
  obtain ⟨⟨hne, hword⟩, a, b, c, d, ha, hb, hc, hd, rfl⟩ := h
  obtain ⟨first, more, hname⟩ := List.exists_cons_of_ne_nil hne
  have hfirst : isWhitespace first = false :=
    isWhitespace_of_isWordCharacter (hword first (by simp [hname]))
  have hopen : (a ++ ('\x7b' :: '\x7b' :: (b ++ (name.toList ++ (c ++ ('\x7d' :: '\x7d' ::
      (d ++ '*' :: '/' :: rest))))))).takeWhile isWhitespace = a :=
    ha.takeWhile (by simp; decide)
  have hinner : (b ++ (name.toList ++ (c ++ ('\x7d' :: '\x7d' ::
      (d ++ '*' :: '/' :: rest))))).takeWhile isWhitespace = b :=
    hb.takeWhile (by simp [hname, hfirst])
  have hnameEnd : (name.toList ++ (c ++ ('\x7d' :: '\x7d' ::
      (d ++ '*' :: '/' :: rest)))).takeWhile isWordCharacter = name.toList := by
    refine takeWhile_append_of_stop hword ?_
    cases c with
    | nil => simp; decide
    | cons c cs => simpa using isWordCharacter_of_isWhitespace (hc c (.head _))
  have hclose : (c ++ ('\x7d' :: '\x7d' :: (d ++ '*' :: '/' :: rest))).takeWhile isWhitespace = c :=
    hc.takeWhile (by simp; decide)
  have hend : (d ++ '*' :: '/' :: rest).takeWhile isWhitespace = d :=
    hd.takeWhile (by simp; decide)
  have hempty : name.toList.isEmpty = false := by simpa using hne
  have htext : (['/', '*'] ++ a ++ ['\x7b', '\x7b'] ++ b ++ name.toList ++ c ++ ['\x7d', '\x7d'] ++ d ++
      ['*', '/']) ++ rest = ['/', '*'] ++ (a ++ ('\x7b' :: '\x7b' :: (b ++ (name.toList ++ (c ++
        ('\x7d' :: '\x7d' :: (d ++ '*' :: '/' :: rest))))))) := by
    simp
  have hbraces (cs : List Char) : dropBeginning? ['\x7b', '\x7b'] ('\x7b' :: '\x7b' :: cs) = some cs :=
    dropBeginning?_append ['\x7b', '\x7b'] cs
  have hclosing (cs : List Char) : dropBeginning? ['\x7d', '\x7d'] ('\x7d' :: '\x7d' :: cs) = some cs :=
    dropBeginning?_append ['\x7d', '\x7d'] cs
  have hstar (cs : List Char) : dropBeginning? ['*', '/'] ('*' :: '/' :: cs) = some cs :=
    dropBeginning?_append ['*', '/'] cs
  rw [htext]
  simp only [marker?, Option.bind_eq_bind, dropBeginning?_append, Option.bind_some, hopen,
    List.drop_left, hbraces, hinner, hnameEnd, hempty, Bool.false_eq_true, if_false, hclose,
    hclosing, hend, hstar, String.ofList_toList]
  simp
  omega

end IsMarker

theorem isMarker_of_marker? {text : List Char} {name : String} {n : Nat}
    (h : marker? text = some (name, n)) :
    ∃ marker rest, text = marker ++ rest ∧ marker.length = n ∧ IsMarker name marker := by
  simp only [marker?, Option.bind_eq_bind, Option.bind_eq_some_iff] at h
  obtain ⟨afterOpen, hopen, afterBraces, hbraces, h⟩ := h
  obtain ⟨a, afterA, hrun, hdrop, ha, hblankA⟩ := exists_longest_run isWhitespace afterOpen
  simp only [hrun, hdrop] at hbraces h
  obtain ⟨b, afterB, hrun, hdrop, hb, hblankB⟩ := exists_longest_run isWhitespace afterBraces
  simp only [hrun, hdrop] at h
  obtain ⟨word, afterWord, hrun, hdrop, hword, hletters⟩ := exists_longest_run isWordCharacter afterB
  simp only [hrun, hdrop] at h
  obtain ⟨c, afterC, hrun, hdrop, hc, hblankC⟩ := exists_longest_run isWhitespace afterWord
  simp only [hrun, hdrop] at h
  by_cases hempty : word.isEmpty = true
  · simp [hempty] at h
  simp only [hempty, Bool.false_eq_true, if_false, Option.bind_eq_some_iff] at h
  obtain ⟨afterName, hclosing, rest, hstar, h⟩ := h
  obtain ⟨d, afterD, hrun, hdrop, hd, hblankD⟩ := exists_longest_run isWhitespace afterName
  simp only [hrun, hdrop] at hstar h
  have hsplit := dropBeginning?_eq_some hopen
  rw [ha, dropBeginning?_eq_some hbraces, hb, hword, hc, dropBeginning?_eq_some hclosing, hd,
    dropBeginning?_eq_some hstar] at hsplit
  cases h
  refine ⟨['/', '*'] ++ a ++ ['\x7b', '\x7b'] ++ b ++ word ++ c ++ ['\x7d', '\x7d'] ++ d ++ ['*', '/'],
    rest, by simpa using hsplit, ?_, ⟨by simpa using hempty, by simpa using hletters⟩,
    a, b, c, d, hblankA, hblankB, hblankC, hblankD, by simp⟩
  simp
  omega

/-! ## Lines -/

def IsIndent (cs : List Char) : Prop := ∀ c ∈ cs, isIndentCharacter c = true

def LineBegins (before : List Char) : Prop := before = [] ∨ before.getLast? = some '\n'

def IsLineEnd (ending after : List Char) : Prop :=
  (ending = [] ∧ after = []) ∨
    ∃ blanks, IsIndent blanks ∧ (ending = blanks ++ ['\n'] ∨ ending = blanks ++ ['\r', '\n'])

theorem isLineEnd_of_lineEnd? {text : List Char} {n : Nat} (h : lineEnd? text = some n) :
    ∃ ending after, text = ending ++ after ∧ ending.length = n ∧ IsLineEnd ending after := by
  obtain ⟨blanks, rest, hrun, hdrop, htext, hblanks⟩ := exists_longest_run isIndentCharacter text
  unfold lineEnd? at h
  simp only [hrun, hdrop] at h
  split at h
  · cases h
    exact ⟨[], [], rfl, rfl, .inl ⟨rfl, rfl⟩⟩
  · split at h
    · rename_i after
      cases h
      exact ⟨blanks ++ ['\n'], after, by simpa using htext, by simp,
        .inr ⟨blanks, hblanks, .inl rfl⟩⟩
    · rename_i after
      cases h
      exact ⟨blanks ++ ['\r', '\n'], after, by simpa using htext, by simp,
        .inr ⟨blanks, hblanks, .inr rfl⟩⟩
    · cases h

theorem slash_notMem_of_isIndent {cs : List Char} (h : IsIndent cs) : '/' ∉ cs := by
  intro hmem
  have hslash := h '/' hmem
  revert hslash
  decide

theorem slash_notMem_of_isLineEnd {ending after : List Char} (h : IsLineEnd ending after) :
    '/' ∉ ending := by
  rcases h with ⟨rfl, -⟩ | ⟨blanks, hblanks, rfl | rfl⟩
  · simp
  · simpa using slash_notMem_of_isIndent hblanks
  · simpa using slash_notMem_of_isIndent hblanks

/-! ## Slots -/

/-- The marker in what a slot stands for: from the first slash to the last. -/
def Slot.marker (s : Slot) : List Char :=
  dropEndWhile (· != '/') (s.source.dropWhile (· != '/'))

/-- What a slot stands for between two texts: its marker, and for one that is alone on its line the
whole line. -/
def Slot.StandsFor (s : Slot) (before after : List Char) : Prop :=
  IsMarker s.name s.marker ∧
    match s.lineIndent with
    | none => s.source = s.marker
    | some indent => ∃ ending, s.source = indent ++ s.marker ++ ending ∧ IsIndent indent ∧
        LineBegins before ∧ IsLineEnd ending after

/-- The marker is all of a slot that has slashes in it. -/
theorem Slot.StandsFor.exists_ending {s : Slot} {before after : List Char}
    (h : s.StandsFor before after) : ∃ ending,
      s.source = s.lineIndent.getD [] ++ s.marker ++ ending ∧ '/' ∉ s.lineIndent.getD [] ∧
        '/' ∉ ending := by
  obtain ⟨-, hlines⟩ := h
  cases hindent : s.lineIndent with
  | none =>
    rw [hindent] at hlines
    exact ⟨[], by simpa using hlines, by simp, by simp⟩
  | some indent =>
    rw [hindent] at hlines
    obtain ⟨ending, hsource, hblank, -, hend⟩ := hlines
    exact ⟨ending, hsource, slash_notMem_of_isIndent hblank, slash_notMem_of_isLineEnd hend⟩

theorem Slot.StandsFor.source_ne_nil {s : Slot} {before after : List Char}
    (h : s.StandsFor before after) : s.source ≠ [] := by
  obtain ⟨ending, hsource, -, -⟩ := h.exists_ending
  obtain ⟨inner, hinner⟩ := h.1.exists_inner
  simp [hsource, hinner]

theorem Slot.marker_eq {s : Slot} {indent marker ending : List Char} (hm : IsMarker s.name marker)
    (hsource : s.source = indent ++ marker ++ ending) (hindent : '/' ∉ indent)
    (hending : '/' ∉ ending) : s.marker = marker := by
  obtain ⟨inner, rfl⟩ := hm.exists_inner
  have hrun {run : List Char} (h : '/' ∉ run) : ∀ c ∈ run, (c != '/') = true := by
    intro c hc
    rw [bne_iff_ne]
    rintro rfl
    exact h hc
  have hlast : ∀ c ∈ ('/' :: inner ++ ['/']).getLast?, (c != '/') = false := by
    rw [List.getLast?_concat]
    simp
  rw [marker, hsource, List.append_assoc, List.dropWhile_append_of_pos (hrun hindent),
    dropWhile_eq_self (by simp), dropEndWhile_append (hrun hending)]
  exact dropEndWhile_eq_self hlast

theorem slot?_eq_some {atLineStart : Bool} {text : List Char} {s : Slot}
    (h : slot? atLineStart text = some s) : ∃ after, text = s.source ++ after ∧
      ∀ before, (atLineStart = true → LineBegins before) → s.StandsFor before after := by
  rcases Option.or_eq_some_iff.1 h with h | ⟨-, h⟩
  · split at h
    · rename_i hstart
      obtain ⟨indent, rest, hrun, hdrop, rfl, hindent⟩ := exists_longest_run isIndentCharacter text
      simp only [standaloneSlot?, hrun, hdrop, Option.bind_eq_bind, Option.bind_eq_some_iff] at h
      obtain ⟨⟨name, n⟩, hmarker, k, hend, h⟩ := h
      obtain ⟨marker, afterMarker, rfl, rfl, hm⟩ := isMarker_of_marker? hmarker
      rw [← List.append_assoc, ← List.length_append, List.drop_left] at hend
      obtain ⟨ending, after, rfl, rfl, hlineEnd⟩ := isLineEnd_of_lineEnd? hend
      have htext : indent ++ (marker ++ (ending ++ after)) = indent ++ marker ++ ending ++ after := by
        simp
      have hlength : indent.length + marker.length + ending.length =
          (indent ++ marker ++ ending).length := by
        simp [Nat.add_assoc]
      rw [htext, hlength, List.take_left] at h
      cases h
      refine ⟨after, htext, fun before hbefore => ?_⟩
      have hmarkerEq := Slot.marker_eq (s := ⟨name, indent ++ marker ++ ending, some indent, []⟩) hm
        rfl (slash_notMem_of_isIndent hindent) (slash_notMem_of_isLineEnd hlineEnd)
      exact ⟨hmarkerEq.symm ▸ hm, ending, by rw [hmarkerEq], hindent, hbefore hstart, hlineEnd⟩
    · cases h
  · simp only [inlineSlot?, Option.bind_eq_bind, Option.bind_eq_some_iff] at h
    obtain ⟨⟨name, n⟩, hmarker, h⟩ := h
    obtain ⟨marker, after, rfl, rfl, hm⟩ := isMarker_of_marker? hmarker
    rw [List.take_left] at h
    cases h
    refine ⟨after, rfl, fun before _ => ?_⟩
    have hmarkerEq := Slot.marker_eq (s := ⟨name, marker, none, []⟩) hm
      (show marker = [] ++ marker ++ [] by simp) (by simp) (by simp)
    exact ⟨hmarkerEq.symm ▸ hm, hmarkerEq.symm⟩

theorem marker?_eq_none_of_slot? {atLineStart : Bool} {text : List Char}
    (h : slot? atLineStart text = none) : marker? text = none := by
  have hinline := (Option.or_eq_none_iff.1 h).2
  simp only [inlineSlot?, Option.bind_eq_bind] at hinline
  cases hm : marker? text with
  | none => rfl
  | some p => simp [hm] at hinline

end TypedRoutes.Template
