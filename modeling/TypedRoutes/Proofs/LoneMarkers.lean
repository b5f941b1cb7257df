import TypedRoutes.Proofs.SlotFilling

/-! # Markers alone on their lines

What a template becomes, told from its text only.  From left to right each marker gives way to the
texts for its name.  One that is alone on its line takes the whole line with it, and the lines of
the texts come in its place with its indentation; from around any other marker nothing is taken.
-/

namespace TypedRoutes.Template
open TypedRoutes.Text

/-! ## Templates and what becomes of them -/

/-- Between two texts a marker is alone on its line: a line begins, there are spaces and tabs up to
the marker, and what follows it is the end of a line. -/
def IsAlone (ends : List Char → List Char → Prop) (before behind : List Char) : Prop :=
  ∃ earlier indent ending after, before = earlier ++ indent ∧ behind = ending ++ after ∧
    LineBegins earlier ∧ IsIndent indent ∧ ends ending after

def NoneBefore (text : List Char) (n : Nat) : Prop :=
  ∀ other : MarkerSpan, other.In text → n ≤ other.start

/-- The lines of texts one after the other, those that are not empty with an indentation. -/
def IndentedLines (indent : List Char) (texts : List String) (filling : List Char) : Prop :=
  ∃ lines, List.Forall₂ (fun t ls => IsLines t.toList ls) texts lines ∧
    filling = lines.flatten.flatMap fun line =>
      if line = [] then ['\n'] else indent ++ line ++ ['\n']

/-- The texts that a marker gives way to: none if its name has been seen. -/
def ownTexts (texts : String → List String) (seen : List String) (name : String) : List String :=
  if name ∈ seen then [] else texts name

/-- What a text becomes that comes after another one: its first marker gives way to the texts for
the name, if that is not among the names already seen, and then the rest becomes what it does.  A
marker alone on its line, as far as what ends a line is concerned, takes the line with it. -/
inductive Replaced (ends : List Char → List Char → Prop) (texts : String → List String) :
    List Char → List String → List Char → List Char → Prop
  | rest {before behind : List Char} {seen : List String}
      (none : ∀ other : MarkerSpan, ¬other.In behind) :
      Replaced ends texts before seen behind behind
  | inline {before kept marker behind result : List Char} {seen : List String} {name : String}
      (word : IsMarker name marker) (first : NoneBefore (kept ++ marker ++ behind) kept.length)
      (apart : ¬IsAlone ends (before ++ kept) behind)
      (others : Replaced ends texts (before ++ kept ++ marker) (name :: seen) behind result) :
      Replaced ends texts before seen (kept ++ marker ++ behind)
        (kept ++ (ownTexts texts seen name).flatMap String.toList ++ result)
  | line {before kept indent marker ending behind filling result : List Char} {seen : List String}
      {name : String} (word : IsMarker name marker)
      (first : NoneBefore (kept ++ indent ++ marker ++ ending ++ behind) (kept ++ indent).length)
      (begins : LineBegins (before ++ kept)) (blank : IsIndent indent) (stops : ends ending behind)
      (lines : IndentedLines indent (ownTexts texts seen name) filling)
      (others : Replaced ends texts (before ++ kept ++ indent ++ marker ++ ending) (name :: seen)
        behind result) :
      Replaced ends texts before seen (kept ++ indent ++ marker ++ ending ++ behind)
        (kept ++ filling ++ result)

/-! ## Ends of lines -/

theorem lineEnd?_append {ending after : List Char} (h : IsLineEnd ending after) :
    lineEnd? (ending ++ after) = some ending.length := by
  obtain ⟨rfl, rfl⟩ | ⟨blanks, hblanks, rfl | rfl⟩ := h
  · rfl
  · have hrun : (blanks ++ '\n' :: after).takeWhile isIndentCharacter = blanks :=
      takeWhile_append_of_stop hblanks (by simp; decide)
    rw [List.append_assoc, List.singleton_append]
    unfold lineEnd?
    simp only [hrun, List.drop_left]
    split
    · rename_i hnil
      simp at hnil
    · simp
  · have hrun : (blanks ++ '\r' :: '\n' :: after).takeWhile isIndentCharacter = blanks :=
      takeWhile_append_of_stop hblanks (by simp; decide)
    rw [List.append_assoc, List.cons_append, List.singleton_append]
    unfold lineEnd?
    simp only [hrun, List.drop_left]
    split
    · rename_i hnil
      simp at hnil
    · simp

/-- A marker that is alone on the line that begins here is found as such. -/
theorem exists_standaloneSlot? {indent marker ending after : List Char} {name : String}
    (hindent : IsIndent indent) (hm : IsMarker name marker) (hend : IsLineEnd ending after) :
    ∃ s, standaloneSlot? (indent ++ (marker ++ (ending ++ after))) = some s ∧
      s.lineIndent = some indent := by
  have hrun : (indent ++ (marker ++ (ending ++ after))).takeWhile isIndentCharacter = indent := by
    obtain ⟨inner, rfl⟩ := hm.exists_inner
    exact takeWhile_append_of_stop hindent (by simp; decide)
  have hdrop : (indent ++ (marker ++ (ending ++ after))).drop (indent.length + marker.length) =
      ending ++ after := by
    rw [← List.append_assoc, ← List.length_append, List.drop_left]
  simp only [standaloneSlot?, hrun, List.drop_left, hm.marker?_append, hdrop, lineEnd?_append hend,
    Option.bind_eq_bind, Option.bind_some, Option.pure_def, Option.some.injEq, exists_eq_left']

/-! ## Places that have been passed -/

/-- From no place in the spaces and tabs before a text, after the beginning of their line, a marker
alone on that line has been found. -/
def Passed (before behind : List Char) : Prop :=
  ∀ earlier indent, before = earlier ++ indent → LineBegins earlier → IsIndent indent →
    indent ≠ [] → standaloneSlot? (indent ++ behind) = none

theorem passed_nil (behind : List Char) : Passed [] behind :=
  fun _ _ h _ _ hne => absurd (List.append_eq_nil_iff.1 h.symm).2 hne

theorem passed_concat {before : List Char} {c : Char} (h : isIndentCharacter c = false)
    (behind : List Char) : Passed (before ++ [c]) behind := by
  intro earlier indent hbefore _ hindent hne
  obtain ⟨front, last, rfl⟩ := (List.eq_nil_or_concat' indent).resolve_left hne
  rw [← List.append_assoc] at hbefore
  obtain rfl : c = last := by simpa using (List.append_inj' hbefore rfl).2
  rw [hindent c (by simp)] at h
  cases h

variable {atLineStart : Bool} {before behind : List Char}

theorem Passed.text (h : Passed before behind) {c : Char} {cs : List Char}
    (hbehind : behind = c :: cs) (hstart : LineBegins before → atLineStart = true)
    (hnone : slot? atLineStart behind = none) : Passed (before ++ [c]) cs := by
  subst hbehind
  intro earlier indent hbefore hbegins hindent hne
  obtain ⟨front, last, rfl⟩ := (List.eq_nil_or_concat' indent).resolve_left hne
  rw [← List.append_assoc] at hbefore
  obtain ⟨hfront, hlast⟩ := List.append_inj' hbefore rfl
  obtain rfl : c = last := by simpa using hlast
  rw [List.append_assoc, List.singleton_append]
  by_cases hempty : front = []
  · subst hempty
    rw [List.append_nil] at hfront
    have hstandalone := (Option.or_eq_none_iff.1 hnone).1
    rwa [if_pos (hstart (hfront ▸ hbegins))] at hstandalone
  · exact h earlier front hfront hbegins (fun d hd => hindent d (List.mem_append_left _ hd)) hempty

/-- Where no marker alone on its line has been found, the marker that comes is not alone. -/
theorem Passed.not_isAlone {name : String} {marker : List Char} (hm : IsMarker name marker)
    (h : Passed before (marker ++ behind)) (hstart : LineBegins before → atLineStart = true)
    {s : Slot} (hslot : slot? atLineStart (marker ++ behind) = some s)
    (hinline : s.lineIndent = none) :
    ¬IsAlone IsLineEnd before behind := by
  rintro ⟨earlier, indent, ending, after, rfl, rfl, hbegins, hindent, hend⟩
  obtain ⟨s', hs', hindent'⟩ := exists_standaloneSlot? hindent hm hend
  by_cases hne : indent = []
  · subst hne
    rw [List.append_nil] at hstart
    rw [List.nil_append] at hs'
    rw [slot?, if_pos (hstart hbegins), hs', Option.some_or] at hslot
    obtain rfl := Option.some.inj hslot
    rw [hinline] at hindent'
    cases hindent'
  · rw [h earlier indent rfl hbegins hindent hne] at hs'
    cases hs'

theorem IsMarker.exists_last {name : String} {marker ending after : List Char}
    (hm : IsMarker name marker) (hend : IsLineEnd ending after) :
    ∃ front last, marker ++ ending = front ++ [last] ∧ isIndentCharacter last = false := by
  obtain ⟨inner, rfl⟩ := hm.exists_inner
  obtain ⟨rfl, -⟩ | ⟨blanks, -, rfl | rfl⟩ := hend
  · exact ⟨'/' :: inner, '/', by simp, by decide⟩
  · exact ⟨'/' :: (inner ++ '/' :: blanks), '\n', by simp, by decide⟩
  · exact ⟨'/' :: (inner ++ '/' :: (blanks ++ ['\r'])), '\n', by simp, by decide⟩

theorem Slot.StandsFor.exists_last {s : Slot} {after : List Char} (h : s.StandsFor before after) :
    ∃ front last, s.source = front ++ [last] ∧ isIndentCharacter last = false := by
  obtain ⟨hm, hlines⟩ := h
  cases hindent : s.lineIndent with
  | none =>
    rw [hindent] at hlines
    obtain ⟨front, last, hlast, hblank⟩ := hm.exists_last (.inl ⟨rfl, rfl⟩)
    exact ⟨front, last, by rw [hlines, ← hlast, List.append_nil], hblank⟩
  | some indent =>
    rw [hindent] at hlines
    obtain ⟨ending, hsource, -, -, hend⟩ := hlines
    obtain ⟨front, last, hlast, hblank⟩ := hm.exists_last hend
    exact ⟨indent ++ front, last, by rw [hsource, List.append_assoc, hlast, List.append_assoc],
      hblank⟩

/-! ## From cutting to replacing -/

theorem lineBegins_concat {c : Char} : LineBegins (before ++ [c]) ↔ c = '\n' := by
  simp [LineBegins]

theorem lineBeginsAfter_iff (h : atLineStart = true ↔ LineBegins before) (cs : List Char) :
    lineBeginsAfter atLineStart cs = true ↔ LineBegins (before ++ cs) := by
  obtain rfl | ⟨cs, c, rfl⟩ := List.eq_nil_or_concat' cs
  · rw [List.append_nil]
    exact h
  · rw [← List.append_assoc, lineBegins_concat]
    simp [lineBeginsAfter]

section Filled
variable {texts : String → List String} {seen seen' : List String} {segments : List Segment}
  {result : List Char}

theorem Filled.of_consText {c : Char} (h : Filled texts seen (consText c segments) result) :
    ∃ rest, result = c :: rest ∧ Filled texts seen segments rest := by
  unfold consText at h
  split at h
  · cases h with
    | text others => exact ⟨_, rfl, .text others⟩
  · cases h with
    | text others => exact ⟨_, rfl, others⟩

/-- A slot gives way to the texts for its name, unless that has been seen. -/
theorem Filled.of_slot {s : Slot} (h : Filled texts seen (.slot s :: segments) result)
    (hseen : ∀ name, name ∈ seen' ↔ name ∈ seen) :
    ∃ filling rest seen'', result = filling ++ rest ∧
      s.Filling (ownTexts texts seen' s.name) filling ∧
      (∀ name, name ∈ s.name :: seen' ↔ name ∈ seen'') ∧ Filled texts seen'' segments rest := by
  cases h with
  | @first _ _ _ filling filled unseen own others =>
    refine ⟨filling, filled, s.name :: seen, rfl, ?_, fun name => by simp [hseen], others⟩
    rwa [ownTexts, if_neg (mt (hseen _).1 unseen)]
  | repeated known others =>
    refine ⟨[], result, seen, rfl, ?_, fun name => ?_, others⟩
    · rw [ownTexts, if_pos ((hseen _).2 known), Slot.filling_nil]
    · rw [List.mem_cons, hseen]
      exact or_iff_right_of_imp fun hname => hname ▸ known

end Filled

/-- No marker begins before a text with one at its head. -/
theorem NoneBefore.append {kept gap text : List Char}
    (h : NoneBefore (kept ++ (gap ++ text)) kept.length) (hgap : '/' ∉ gap) :
    NoneBefore (kept ++ (gap ++ text)) (kept ++ gap).length := by
  intro other hother
  have hstart := h other hother
  rw [← List.append_assoc] at hother
  exact hother.le_start hgap hstart

/-- A place in a text that is cut, after what has been kept of it since its last marker. -/
structure IsPlace (atLineStart : Bool) (before kept behind : List Char) : Prop where
  start : atLineStart = true ↔ LineBegins (before ++ kept)
  passed : Passed (before ++ kept) behind
  clear : NoneBefore (kept ++ behind) kept.length

theorem isPlace_nil (text : List Char) : IsPlace true [] [] text :=
  ⟨iff_of_true rfl (.inl rfl), passed_nil text, fun _ _ => Nat.zero_le _⟩

namespace IsPlace
variable {kept : List Char}

theorem after_text {c : Char} {cs : List Char} (h : IsPlace atLineStart before kept (c :: cs))
    (hnone : slot? atLineStart (c :: cs) = none) :
    IsPlace (c = '\n') before (kept ++ [c]) cs where
  start := by
    rw [← List.append_assoc, lineBegins_concat, decide_eq_true_iff]
  passed := by
    rw [← List.append_assoc]
    exact h.passed.text rfl h.start.2 hnone
  clear := by
    intro other hother
    rw [List.append_assoc, List.singleton_append] at hother
    rw [List.length_append, List.length_singleton]
    refine Nat.lt_of_le_of_ne (h.clear other hother) fun heq => ?_
    obtain ⟨found, hfound⟩ := hother.marker? heq
    rw [marker?_eq_none_of_slot? hnone] at hfound
    cases hfound

theorem after_slot {s : Slot} {rest : List Char}
    (h : IsPlace atLineStart before kept (s.source ++ rest))
    (hstands : s.StandsFor (before ++ kept) rest) :
    IsPlace (lineBeginsAfter atLineStart s.source) (before ++ kept ++ s.source) [] rest where
  start := by
    rw [List.append_nil]
    exact lineBeginsAfter_iff h.start s.source
  passed := by
    obtain ⟨front, last, hlast, hblank⟩ := hstands.exists_last
    rw [List.append_nil, hlast, ← List.append_assoc]
    exact passed_concat hblank rest
  clear := fun _ _ => Nat.zero_le _

end IsPlace

theorem Cuts.replaced {texts : String → List String} {segments : List Segment}
    (h : Cuts atLineStart behind segments) {kept : List Char} {seen seen' : List String}
    {result : List Char} (hplace : IsPlace atLineStart before kept behind)
    (hseen : ∀ name, name ∈ seen' ↔ name ∈ seen) (hfilled : Filled texts seen segments result) :
    Replaced IsLineEnd texts before seen' (kept ++ behind) (kept ++ result) := by
  induction h generalizing before kept seen seen' result with
  | nil =>
    cases hfilled
    refine .rest fun other hother => ?_
    obtain ⟨hlt, -⟩ := List.getElem?_eq_some_iff.1 hother.getElem?_start
    have hle := hplace.clear other hother
    simp only [List.length_append, List.length_nil] at hlt
    omega
  | @text atLineStart c cs segments none others ih =>
    obtain ⟨rest, rfl, hrest⟩ := hfilled.of_consText
    simpa using ih (hplace.after_text none) hseen hrest
  | @slot atLineStart s rest segments found others ih =>
    obtain ⟨filling, result', seen'', rfl, hfilling, hseen', hrest⟩ := hfilled.of_slot hseen
    have hstands := (Cuts.slot found others).standsFor (before ++ kept) hplace.start.1 [] rfl
    rw [sources_nil, List.append_nil, others.sources_eq] at hstands
    have hlater : Replaced IsLineEnd texts (before ++ kept ++ s.source) (s.name :: seen') rest
        result' := ih (hplace.after_slot hstands) hseen' hrest
    obtain ⟨hm, hlines⟩ := hstands
    have hfirst := hplace.clear
    cases hindent : s.lineIndent with
    | none =>
      rw [hindent] at hlines
      rw [Slot.Filling, hindent] at hfilling
      rw [hlines] at hfirst hlater found ⊢
      have hpassed := hplace.passed
      rw [hlines] at hpassed
      rw [← List.append_assoc] at hfirst
      have happ := Replaced.inline hm hfirst
        (hpassed.not_isAlone hm hplace.start.2 found hindent) hlater
      simpa [hfilling] using happ
    | some indent =>
      rw [hindent] at hlines
      obtain ⟨ending, hsource, hblank, hbegins, hend⟩ := hlines
      rw [Slot.Filling, hindent] at hfilling
      rw [hsource] at hfirst hlater ⊢
      simp only [List.append_assoc] at hfirst
      have hfirst' := hfirst.append (slash_notMem_of_isIndent hblank)
      simp only [← List.append_assoc] at hfirst' hlater ⊢
      exact .line hm hfirst' hbegins hblank hend hfilling hlater

/-- A document with texts in its slots is written out as what its template becomes. -/
theorem replaced_appendAll (title template : String) (texts : List (String × String)) :
    Replaced IsLineEnd (textsFor texts) [] [] template.toList
      ((Document.ofTemplate title template).appendAll texts).render.toList := by
  have hcuts := cuts_cut true 0 template.toList
  rw [List.drop_zero] at hcuts
  have hfresh : ∀ s, .slot s ∈ cut true 0 template.toList → s.chunks = [] :=
    fun s hs => chunks_of_slot_mem_cut hs
  have hfilled := filled_fill (textsFor texts) [] hfresh
  rw [appendAll_eq, Document.render, String.toList_ofList]
  exact hcuts.replaced (isPlace_nil _) (fun _ => .rfl) hfilled

end TypedRoutes.Template
