import TypedRoutes.Proofs.LoneMarkers

/-! # Markers on the last line

A marker that only spaces and tabs stand around, from the beginning of its line to the next line
break or to the end of the text, is alone on its line.  Of such markers one is taken for any other:
the one on the last line, if blanks follow it and no line break.
-/

namespace TypedRoutes.Template
open TypedRoutes.Text

/-- Spaces and tabs up to a line break, or up to the end of the whole text. -/
def IsLineRest (ending after : List Char) : Prop :=
  ∃ blanks, IsIndent blanks ∧
    (ending = blanks ++ ['\n'] ∨ ending = blanks ++ ['\r', '\n'] ∨ ending = blanks ∧ after = [])

/-- The last line of a text consists of a marker with spaces and tabs around it, at least one of
them behind it. -/
def Dangles (text : List Char) : Prop :=
  ∃ earlier indent name marker blanks, text = earlier ++ (indent ++ (marker ++ blanks)) ∧
    LineBegins earlier ∧ IsIndent indent ∧ IsMarker name marker ∧ IsIndent blanks ∧ blanks ≠ []

/-! ## Where no marker dangles -/

variable {texts : String → List String} {seen : List String} {before behind result : List Char}
  {name : String} {marker : List Char}

theorem IsLineEnd.isLineRest {ending after : List Char} (h : IsLineEnd ending after) :
    IsLineRest ending after := by
  obtain ⟨rfl, rfl⟩ | ⟨blanks, hblanks, hending | hending⟩ := h
  · exact ⟨[], by simp [IsIndent], .inr (.inr ⟨rfl, rfl⟩)⟩
  · exact ⟨blanks, hblanks, .inl hending⟩
  · exact ⟨blanks, hblanks, .inr (.inl hending)⟩

/-- A marker alone on its line is taken for one, or it dangles. -/
theorem IsAlone.lineEnd_or_dangles (h : IsAlone IsLineRest before behind)
    (hm : IsMarker name marker) :
    IsAlone IsLineEnd before behind ∨ Dangles (before ++ (marker ++ behind)) := by
  obtain ⟨earlier, indent, ending, after, rfl, rfl, hbegins, hindent, blanks, hblanks, hending⟩ := h
  by_cases hend : IsLineEnd ending after
  · exact .inl ⟨earlier, indent, ending, after, rfl, rfl, hbegins, hindent, hend⟩
  · obtain rfl | rfl | ⟨rfl, rfl⟩ := hending
    · exact absurd (.inr ⟨blanks, hblanks, .inl rfl⟩) hend
    · exact absurd (.inr ⟨blanks, hblanks, .inr rfl⟩) hend
    · refine .inr ⟨earlier, indent, name, marker, ending, by simp, hbegins, hindent, hm, hblanks,
        ?_⟩
      rintro rfl
      exact hend (.inl ⟨rfl, rfl⟩)

/-- Where no marker dangles, each one alone on its line is taken for one. -/
theorem Replaced.lineRest (h : Replaced IsLineEnd texts before seen behind result)
    (hnot : ¬Dangles (before ++ behind)) : Replaced IsLineRest texts before seen behind result := by
  induction h with
  | rest none => exact .rest none
  | inline word first apart others ih =>
    refine .inline word first (fun halone => ?_) (ih (by simpa using hnot))
    obtain hend | hdangles := halone.lineEnd_or_dangles word
    · exact apart hend
    · exact hnot (by simpa using hdangles)
  | line word first begins blank stops lines others ih =>
    exact .line word first begins blank stops.isLineRest lines (ih (by simpa using hnot))

/-! ## Where a marker dangles -/

theorem getLast?_after {front : List Char} {last c : Char} (hlast : isIndentCharacter last = false)
    (hc : isIndentCharacter c = true) (h : (front ++ [last] ++ behind).getLast? = some c) :
    behind.getLast? = some c := by
  by_cases hbehind : behind = []
  · rw [hbehind, List.append_nil, List.getLast?_concat] at h
    rw [Option.some.inj h, hc] at hlast
    cases hlast
  · rwa [List.getLast?_append_of_ne_nil _ hbehind] at h

/-- As a marker on the last line is taken for any other, the blanks behind it stay. -/
theorem Replaced.getLast?_eq (h : Replaced IsLineEnd texts before seen behind result) {c : Char}
    (hc : isIndentCharacter c = true) (hlast : behind.getLast? = some c) :
    result.getLast? = some c := by
  induction h with
  | rest none => exact hlast
  | inline word first apart others ih =>
    obtain ⟨front, last, hmarker, hblank⟩ := word.exists_last (.inl ⟨rfl, rfl⟩)
    rw [List.append_nil] at hmarker
    rw [hmarker, ← List.append_assoc] at hlast
    rw [List.getLast?_append, ih (getLast?_after hblank hc hlast), Option.some_or]
  | @line before kept indent marker ending behind _ _ _ _ word first begins blank stops lines others
      ih =>
    obtain ⟨front, last, hmarker, hblank⟩ := word.exists_last stops
    have hsplit : kept ++ indent ++ marker ++ ending ++ behind =
        kept ++ indent ++ front ++ [last] ++ behind := by
      rw [List.append_assoc (kept ++ indent), hmarker, ← List.append_assoc]
    rw [hsplit] at hlast
    rw [List.getLast?_append, ih (getLast?_after hblank hc hlast), Option.some_or]

theorem IsMarker.exists_middle (h : IsMarker name marker) :
    ∃ middle, marker = '/' :: (middle ++ ['*', '/']) ∧ '/' ∉ middle := by
  obtain ⟨⟨-, hword⟩, a, b, c, d, ha, hb, hc, hd, rfl⟩ := h
  have hblank : ∀ {cs}, IsBlank cs → '/' ∉ cs := by
    intro cs hcs hmem
    exact absurd (hcs '/' hmem) (by decide)
  have hname : '/' ∉ name.toList := fun hmem => absurd (hword '/' hmem) (by decide)
  refine ⟨'*' :: (a ++ ['\x7b', '\x7b'] ++ b ++ name.toList ++ c ++ ['\x7d', '\x7d'] ++ d),
    by simp, ?_⟩
  simp [hblank ha, hblank hb, hblank hc, hblank hd, hname]

theorem eq_of_append_slash {front front' rest : List Char} (h : '/' ∉ front)
    (heq : front ++ ['/'] = front' ++ '/' :: rest) : front' = front := by
  obtain ⟨as, hfront, has⟩ | ⟨bs, hfront, hbs⟩ := List.append_eq_append_iff.1 heq
  · obtain - | ⟨a, as⟩ := as
    · rw [hfront, List.append_nil]
    · simp at has
  · obtain - | ⟨b, bs⟩ := bs
    · rw [hfront, List.append_nil]
    · obtain ⟨rfl, -⟩ := List.cons.inj hbs
      exact absurd (by rw [hfront]; simp) h

theorem ne_star_of_lineBegins {earlier indent : List Char} (hbegins : LineBegins earlier)
    (hindent : IsIndent indent) (front : List Char) : earlier ++ indent ≠ front ++ ['*'] := by
  intro heq
  obtain rfl | ⟨more, last, rfl⟩ := List.eq_nil_or_concat' indent
  · rw [List.append_nil] at heq
    obtain rfl | hfeed := hbegins
    · simp at heq
    · rw [heq, List.getLast?_concat] at hfeed
      exact absurd (Option.some.inj hfeed) (by decide)
  · rw [← List.append_assoc] at heq
    obtain rfl : last = '*' := by simpa using (List.append_inj' heq rfl).2
    exact absurd (hindent '*' (by simp)) (by decide)

/-- A marker ends before another one begins behind it, if no star comes right before that one. -/
theorem IsMarker.ends_before {marker' gap post rest : List Char} {name' : String}
    (hm : IsMarker name marker) (hm' : IsMarker name' marker') (hgap : gap ≠ [])
    (hstar : ∀ front, gap ≠ front ++ ['*']) (htext : marker ++ post = gap ++ (marker' ++ rest)) :
    ∃ more, gap = marker ++ more ∧ post = more ++ (marker' ++ rest) := by
  obtain ⟨more, hmore, hpost⟩ | ⟨extra, hextra, hpost⟩ := List.append_eq_append_iff.1 htext
  · exact ⟨more, hmore, hpost⟩
  · obtain - | ⟨c, extra⟩ := extra
    · exact ⟨[], by rw [hextra]; simp, by simpa using hpost.symm⟩
    · -- the second one would begin with the last slash of the first
      exfalso
      obtain ⟨middle, hmiddle, hslash⟩ := hm.exists_middle
      obtain ⟨inner', hinner'⟩ := hm'.exists_inner
      obtain ⟨d, gap, rfl⟩ := List.exists_cons_of_ne_nil hgap
      obtain rfl : '/' = c := by
        rw [hinner'] at hpost
        exact (List.cons.inj hpost).1
      rw [hmiddle] at hextra
      obtain ⟨rfl, hinside⟩ := List.cons.inj hextra
      have hends : gap = middle ++ ['*'] :=
        eq_of_append_slash (by simp [hslash]) (by simpa using hinside)
      exact hstar ('/' :: middle) (by rw [hends]; rfl)

theorem IsMarker.ends_before_indent {front more earlier indent : List Char}
    (hm : IsMarker name marker) (hindent : IsIndent indent)
    (htext : earlier ++ indent = front ++ marker ++ more) :
    ∃ between, earlier = front ++ marker ++ between ∧ more = between ++ indent := by
  obtain ⟨extra, hextra, hindent'⟩ | hbetween := List.append_eq_append_iff.1 htext
  · obtain rfl | ⟨extra, last, rfl⟩ := List.eq_nil_or_concat' extra
    · exact ⟨[], by rw [hextra]; simp, by rw [hindent']; simp⟩
    · -- no slash stands in the indentation
      obtain ⟨inner, rfl⟩ := hm.exists_inner
      have hends : front ++ '/' :: inner ++ ['/'] = earlier ++ extra ++ [last] := by
        simpa using hextra
      obtain rfl : '/' = last := by simpa using (List.append_inj' hends rfl).2
      exact absurd (by rw [hindent']; simp) (slash_notMem_of_isIndent hindent)
  · exact hbetween

/-- A marker that begins before one that comes first on its line ends before that line. -/
theorem ends_before_line (front : List Char) {post earlier indent marker' blanks : List Char}
    {name' : String} (hm : IsMarker name marker) (hm' : IsMarker name' marker')
    (hbegins : LineBegins earlier) (hindent : IsIndent indent)
    (htext : front ++ (marker ++ post) = earlier ++ (indent ++ (marker' ++ blanks)))
    (hlt : front.length < (earlier ++ indent).length) :
    ∃ between, earlier = front ++ marker ++ between ∧
      post = between ++ (indent ++ (marker' ++ blanks)) := by
  rw [← List.append_assoc earlier] at htext
  obtain ⟨gap, hgap, hafter⟩ | ⟨extra, hextra, -⟩ := List.append_eq_append_iff.1 htext
  · have hne : gap ≠ [] := by
      rintro rfl
      rw [hgap, List.append_nil] at hlt
      exact Nat.lt_irrefl _ hlt
    have hstar : ∀ front', gap ≠ front' ++ ['*'] := by
      rintro front' rfl
      exact ne_star_of_lineBegins hbegins hindent (front ++ front') (by simpa using hgap)
    obtain ⟨more, rfl, rfl⟩ := hm.ends_before hm' hne hstar hafter
    obtain ⟨between, hbetween, rfl⟩ := hm.ends_before_indent hindent (by simpa using hgap)
    exact ⟨between, hbetween, List.append_assoc ..⟩
  · rw [hextra, List.length_append] at hlt
    omega

theorem IsLineRest.slash_notMem {ending after : List Char} (h : IsLineRest ending after) :
    '/' ∉ ending := by
  obtain ⟨blanks, hblanks, rfl | rfl | ⟨rfl, -⟩⟩ := h
  · simpa using slash_notMem_of_isIndent hblanks
  · simpa using slash_notMem_of_isIndent hblanks
  · exact slash_notMem_of_isIndent hblanks

theorem prefix_indent {indent blanks part post : List Char} (hm : IsMarker name marker)
    (hpart : '/' ∉ part) (htext : indent ++ (marker ++ blanks) = part ++ post) :
    part <+: indent := by
  obtain ⟨extra, hextra, hpost⟩ | ⟨more, hmore, -⟩ := List.append_eq_append_iff.1 htext
  · obtain - | ⟨c, extra⟩ := extra
    · exact ⟨[], by rw [hextra]; simp⟩
    · obtain ⟨inner, rfl⟩ := hm.exists_inner
      obtain ⟨rfl, -⟩ := List.cons.inj hpost
      exact absurd (by rw [hextra]; simp) hpart
  · exact ⟨more, hmore.symm⟩

theorem IsLineRest.ends_before_line {ending post between indent blanks : List Char}
    (h : IsLineRest ending post) (hm : IsMarker name marker) (hindent : IsIndent indent)
    (htext : ending ++ post = between ++ (indent ++ (marker ++ blanks))) :
    ∃ more, between = ending ++ more ∧ post = more ++ (indent ++ (marker ++ blanks)) := by
  obtain ⟨more, hmore, hpost⟩ | ⟨extra, hextra, hpost⟩ := List.append_eq_append_iff.1 htext
  · exact ⟨more, hmore, hpost⟩
  · obtain rfl | ⟨front, last, rfl⟩ := List.eq_nil_or_concat' extra
    · exact ⟨[], by rw [hextra]; simp, by simpa using hpost.symm⟩
    · have hslash : '/' ∉ front ++ [last] := fun hmem =>
        h.slash_notMem (by rw [hextra]; exact List.mem_append_right _ hmem)
      obtain ⟨more, rfl⟩ := prefix_indent hm hslash hpost
      have hblank : isIndentCharacter last = true := hindent last (by simp)
      obtain ⟨line, -, hline | hline | ⟨-, rfl⟩⟩ := h
      · rw [hextra, ← List.append_assoc] at hline
        obtain rfl : last = '\n' := by simpa using (List.append_inj' hline rfl).2
        exact absurd hblank (by decide)
      · have hends : between ++ front ++ [last] = line ++ ['\r'] ++ ['\n'] := by
          simpa using hextra.symm.trans hline
        obtain rfl : last = '\n' := by simpa using (List.append_inj' hends rfl).2
        exact absurd hblank (by decide)
      · obtain ⟨inner, rfl⟩ := hm.exists_inner
        rw [List.append_nil] at hpost
        exact absurd (by rw [← hpost]; simp) hslash

theorem IndentedLines.getLast? {indent filling : List Char} {chunks : List String}
    (h : IndentedLines indent chunks filling) : filling = [] ∨ filling.getLast? = some '\n' := by
  obtain ⟨lines, -, rfl⟩ := h
  obtain hnil | ⟨others, line, hlines⟩ := List.eq_nil_or_concat' lines.flatten
  · exact .inl (by rw [hnil]; rfl)
  · right
    rw [hlines, List.flatMap_append, List.flatMap_singleton]
    by_cases hline : line = []
    · rw [if_pos hline, List.getLast?_concat]
    · rw [if_neg hline, ← List.append_assoc, List.getLast?_concat]

/-- A text is empty and comes where a line begins, or ends with a line feed. -/
def Finishes (before result : List Char) : Prop :=
  (result = [] ∧ LineBegins before) ∨ result.getLast? = some '\n'

theorem Finishes.append {kept filling between : List Char} (h : Finishes between result)
    (hbegins : LineBegins (before ++ kept))
    (hfilling : filling = [] ∨ filling.getLast? = some '\n') :
    Finishes before (kept ++ filling ++ result) := by
  obtain ⟨rfl, -⟩ | hlast := h
  · rw [List.append_nil]
    obtain rfl | hlast := hfilling
    · rw [List.append_nil]
      obtain rfl | ⟨front, last, rfl⟩ := List.eq_nil_or_concat' kept
      · exact .inl ⟨rfl, by simpa using hbegins⟩
      · rw [← List.append_assoc, lineBegins_concat] at hbegins
        exact .inr (by rw [hbegins, List.getLast?_concat])
    · exact .inr (by rw [List.getLast?_append, hlast, Option.some_or])
  · exact .inr (by rw [List.getLast?_append, hlast, Option.some_or])

theorem Replaced.eq_nil {ends : List Char → List Char → Prop}
    (h : Replaced ends texts before seen behind result) (hbehind : behind = []) : result = [] := by
  cases h with
  | rest none => exact hbehind
  | inline word first apart others =>
    obtain ⟨inner, rfl⟩ := word.exists_inner
    simp at hbehind
  | line word first begins blank stops lines others =>
    obtain ⟨inner, rfl⟩ := word.exists_inner
    simp at hbehind

theorem in_line (between indent blanks : List Char) (hm : IsMarker name marker) :
    (⟨name, (between ++ indent).length, (between ++ indent ++ marker).length⟩ : MarkerSpan).In
      (between ++ (indent ++ (marker ++ blanks))) :=
  ⟨between ++ indent, marker, blanks, by simp, rfl, rfl, hm⟩

/-- At one place there is one marker. -/
theorem IsMarker.append_inj {marker' rest rest' : List Char} {name' : String}
    (hm : IsMarker name marker) (hm' : IsMarker name' marker')
    (h : marker ++ rest = marker' ++ rest') : marker = marker' ∧ rest = rest' := by
  have hfound := hm.marker?_append rest
  rw [h, hm'.marker?_append rest', Option.some.injEq, Prod.mk.injEq] at hfound
  exact List.append_inj h hfound.2.symm

/-- Were every marker alone on its line taken for one, a text whose last line is a marker with
blanks around it would end with a line. -/
theorem Replaced.finishes (h : Replaced IsLineRest texts before seen behind result)
    {between indent blanks : List Char} (hm : IsMarker name marker)
    (hbehind : behind = between ++ (indent ++ (marker ++ blanks)))
    (hbegins : LineBegins (before ++ between)) (hindent : IsIndent indent)
    (hblanks : IsIndent blanks) : Finishes before result := by
  induction h generalizing between with
  | rest none => exact absurd (hbehind ▸ in_line between indent blanks hm) (none _)
  | @inline before kept marker' behind result seen name' word first apart others ih =>
    have hle := first _ (hbehind ▸ in_line between indent blanks hm)
    obtain heq | hlt := Nat.eq_or_lt_of_le hle
    · -- the marker on the last line would be alone
      rw [List.append_assoc, ← List.append_assoc between] at hbehind
      obtain ⟨rfl, hmarker⟩ := List.append_inj hbehind heq
      obtain ⟨-, rfl⟩ := word.append_inj hm hmarker
      refine absurd ⟨before ++ between, indent, behind, [], by simp, by simp, hbegins, hindent,
        behind, hblanks, .inr (.inr ⟨rfl, rfl⟩)⟩ apart
    · obtain ⟨between', hbetween, hpost⟩ := Template.ends_before_line (before ++ kept) word hm
        hbegins hindent (by simpa using hbehind) (by simpa using hlt)
      obtain ⟨-, hslash⟩ | hlast := ih hpost (hbetween ▸ hbegins)
      · obtain ⟨inner, rfl⟩ := word.exists_inner
        rw [← List.cons_append, ← List.append_assoc, lineBegins_concat] at hslash
        exact absurd hslash (by decide)
      · exact .inr (by rw [List.getLast?_append, hlast, Option.some_or])
  | @line before kept indent' marker' ending behind filling result seen name' word first begins
      blank stops lines others ih =>
    have hle := first _ (hbehind ▸ in_line between indent blanks hm)
    obtain heq | hlt := Nat.eq_or_lt_of_le hle
    · -- nothing comes after the last line
      rw [List.append_assoc, List.append_assoc, ← List.append_assoc between] at hbehind
      obtain ⟨-, hmarker⟩ := List.append_inj hbehind heq
      obtain ⟨-, hrest⟩ := word.append_inj hm hmarker
      have hnil : behind = [] := by
        obtain ⟨line, -, rfl | rfl | ⟨-, hnil⟩⟩ := stops
        · exact absurd (hblanks '\n' (by rw [← hrest]; simp)) (by decide)
        · exact absurd (hblanks '\n' (by rw [← hrest]; simp)) (by decide)
        · exact hnil
      have hdone : Finishes [] result := .inl ⟨others.eq_nil hnil, .inl rfl⟩
      exact hdone.append begins lines.getLast?
    · obtain ⟨between', hbetween, hpost⟩ := Template.ends_before_line (before ++ kept ++ indent')
        word hm hbegins hindent (by simpa using hbehind) (by simpa using hlt)
      obtain ⟨more, rfl, hmore⟩ := stops.ends_before_line hm hindent hpost
      refine (ih hmore ?_).append begins lines.getLast?
      rw [List.append_assoc _ ending, ← hbetween]
      exact hbegins

/-! ## What a template becomes -/

/-- A template becomes what its markers stand for, where the end of the text is taken for the end of
a line only directly behind a marker.  So each marker that is alone on its line takes the line with
it, and nothing is taken from around any other, exactly if the last line of the template is not one
with a marker alone that blanks come behind. -/
theorem lone_markers_replaced_iff (title template : String) (texts : List (String × String)) :
    Replaced IsLineEnd (textsFor texts) [] [] template.toList
        ((Document.ofTemplate title template).appendAll texts).render.toList ∧
      (Replaced IsLineRest (textsFor texts) [] [] template.toList
          ((Document.ofTemplate title template).appendAll texts).render.toList ↔
        ¬Dangles template.toList) := by
  have hreplaced := replaced_appendAll title template texts
  generalize ((Document.ofTemplate title template).appendAll texts).render.toList = rendered
    at hreplaced ⊢
  refine ⟨hreplaced, fun hrest hdangles => ?_, fun hnot => hreplaced.lineRest hnot⟩
  obtain ⟨earlier, indent, name, marker, blanks, htemplate, hbegins, hindent, hm, hblanks, hne⟩ :=
    hdangles
  -- what the template becomes ends with the last of the blanks and with a line feed
  obtain ⟨front, last, rfl⟩ := (List.eq_nil_or_concat' blanks).resolve_left hne
  have hblank : isIndentCharacter last = true := hblanks last (by simp)
  have hlast : rendered.getLast? = some last := by
    refine hreplaced.getLast?_eq hblank ?_
    rw [htemplate, ← List.append_assoc, ← List.append_assoc, ← List.append_assoc,
      List.getLast?_concat]
  obtain ⟨hempty, -⟩ | hfeed := hrest.finishes hm htemplate hbegins hindent hblanks
  · rw [hempty] at hlast
    cases hlast
  · rw [hfeed] at hlast
    rw [← Option.some.inj hlast] at hblank
    cases hblank

/-- A marker with a tab before it and two blanks behind it, at the end of its template, leaves them
all; alone on its line it would give way to one line. -/
theorem blanks_left_on_last_line :
    let template := "start\n\t/* \x7b\x7broutes\x7d\x7d */  "
    let texts := textsFor [("routes", "r")]
    ((Document.ofTemplate "page" template).appendAll [("routes", "r")]).render = "start\n\tr  " ∧
      Replaced IsLineRest texts [] [] template.toList "start\n\tr\n".toList ∧
      ¬Replaced IsLineRest texts [] [] template.toList "start\n\tr  ".toList := by
  intro template texts
  let start := "start\n".toList
  let marker := "/* \x7b\x7broutes\x7d\x7d */".toList
  have hm : IsMarker "routes" marker :=
    ⟨⟨by decide, List.all_eq_true.1 (by decide)⟩, [' '], [], [], [' '], by decide, by decide,
      by decide, by decide, by decide⟩
  have hbegins : LineBegins start := .inr (by decide)
  have htab : IsIndent ['\t'] := by simp [IsIndent]; decide
  have hblanks : IsIndent [' ', ' '] := by simp [IsIndent]; decide
  refine ⟨by decide +kernel, ?_, fun hreplaced => ?_⟩
  · have hfirst : NoneBefore (start ++ ['\t'] ++ marker ++ [' ', ' '] ++ [])
        (start ++ ['\t']).length := by
      intro other hother
      have hsplit : start ++ ['\t'] ++ marker ++ [' ', ' '] ++ [] =
          [] ++ (start ++ ['\t']) ++ (marker ++ [' ', ' ']) := by simp
      rw [hsplit] at hother
      exact hother.le_start (by decide) (Nat.zero_le _)
    have hnone : ∀ other : MarkerSpan, ¬other.In [] := by
      intro other hother
      cases hother.getElem?_start
    have hlines : IndentedLines ['\t'] (ownTexts texts [] "routes") "\tr\n".toList :=
      ⟨[["r".toList]], .cons (.last (by decide) (by decide)) .nil, by decide⟩
    have hline : Replaced IsLineRest texts [] [] (start ++ ['\t'] ++ marker ++ [' ', ' '] ++ [])
        (start ++ "\tr\n".toList ++ []) :=
      .line hm hfirst hbegins htab ⟨_, hblanks, .inr (.inr ⟨rfl, rfl⟩)⟩ hlines (.rest hnone)
    have htemplate : template.toList = start ++ ['\t'] ++ marker ++ [' ', ' '] ++ [] := by decide
    rw [htemplate]
    exact hline
  · have htemplate : template.toList = start ++ (['\t'] ++ (marker ++ [' ', ' '])) := by decide
    obtain ⟨hempty, -⟩ | hfeed := hreplaced.finishes hm htemplate hbegins htab hblanks
    · simp at hempty
    · simp at hfeed

end TypedRoutes.Template
