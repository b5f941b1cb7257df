import TypedRoutes.Proofs.TemplateReading

/-! # Texts that no marker cuts

A piece of a template that begins a line with a word and has no slash in it is not cut: the text
between two slots holds it as a whole, whatever is before and behind it.
-/

namespace TypedRoutes.Template
open TypedRoutes.Text TypedRoutes.Naming

/-! ## Places in a text -/

theorem split_piece {piece more front back : List Char} {c : Char}
    (h : piece ++ more = front ++ c :: back) :
    (∃ rest, piece = front ++ c :: rest ∧ back = rest ++ more) ∨
      ∃ rest, front = piece ++ rest ∧ more = rest ++ c :: back := by
  rcases List.append_eq_append_iff.1 h with ⟨rest, hfront, hmore⟩ | ⟨rest, hpiece, hback⟩
  · exact .inr ⟨rest, hfront, hmore⟩
  · cases rest with
    | nil => exact .inr ⟨[], by simpa using hpiece.symm, hback.symm⟩
    | cons d rest =>
      obtain ⟨rfl, rfl⟩ := List.cons.inj hback
      exact .inl ⟨rest, hpiece, rfl⟩

/-- What is not in the first of two pieces is in the second. -/
theorem split_behind {piece more front back : List Char} {c : Char} (hc : c ∉ piece)
    (h : piece ++ more = front ++ c :: back) :
    ∃ rest, front = piece ++ rest ∧ more = rest ++ c :: back := by
  rcases split_piece h with ⟨rest, rfl, -⟩ | hbehind
  · simp at hc
  · exact hbehind

theorem IsBlank.notMem {blanks : List Char} (h : IsBlank blanks) {c : Char}
    (hc : isWhitespace c = false) : c ∉ blanks := by
  intro hmem
  rw [h c hmem] at hc
  cases hc

theorem LineBegins.of_append {before after : List Char} (h : LineBegins (before ++ after)) :
    LineBegins after := by
  by_cases hne : after = []
  · exact .inl hne
  · rcases h with hnil | hlast
    · exact .inl (List.append_eq_nil_iff.1 hnil).2
    · rw [List.getLast?_append_of_ne_nil _ hne] at hlast
      exact .inr hlast

/-! ## Pieces and markers -/

/-- A piece of a template that begins with a word, has no slash, does not end in whitespace, and
does not begin like a name and what closes it in a marker. -/
structure IsPiece (piece : List Char) : Prop where
  head : ∃ c ∈ piece.head?, isWordCharacter c = true
  slash : '/' ∉ piece
  last : ∀ c ∈ piece.getLast?, isWhitespace c = false
  begins : ∃ front rest, piece = front ++ rest ∧ '\x7d' ∉ front ∧
    (∃ c ∈ front, isWordCharacter c = false) ∧ ∀ c ∈ front.getLast?, isWhitespace c = false

theorem IsPiece.exists_head {piece : List Char} (h : IsPiece piece) :
    ∃ c rest, piece = c :: rest ∧ isWordCharacter c = true := by
  obtain ⟨c, hhead, hc⟩ := h.head
  obtain ⟨rest, rfl⟩ := List.head?_eq_some_iff.1 hhead
  exact ⟨c, rest, rfl, hc⟩

theorem IsPiece.ne_markerEnd {piece more name blanks rest : List Char} (h : IsPiece piece)
    (hname : IsWord name) (hblanks : IsBlank blanks) :
    piece ++ more ≠ name ++ (blanks ++ '\x7d' :: rest) := by
  intro htext
  obtain ⟨front, tail, rfl, hbrace, ⟨c, hmem, hc⟩, hlast⟩ := h.begins
  rw [List.append_assoc, ← List.append_assoc name] at htext
  obtain ⟨behind, hfront, -⟩ := split_behind hbrace htext
  rcases List.append_eq_append_iff.1 hfront with ⟨run, rfl, hrun⟩ | ⟨cut, rfl, -⟩
  · -- more than the name, and then the whitespace behind it ends the front
    have hne : run ≠ [] := by
      rintro rfl
      rw [List.append_nil] at hmem
      rw [hname.2 c hmem] at hc
      cases hc
    rw [List.getLast?_append_of_ne_nil _ hne, List.getLast?_eq_some_getLast hne] at hlast
    refine hblanks.notMem (hlast _ rfl) ?_
    rw [hrun]
    exact List.mem_append_left _ (List.getLast_mem hne)
  · rw [hname.2 c (List.mem_append_left _ hmem)] at hc
    cases hc

/-- Within a marker a line begins with a word only where the name does. -/
theorem IsMarker.line_begins {name : String} {marker front back : List Char} {c : Char}
    (h : IsMarker name marker) (hsplit : marker = front ++ c :: back)
    (hc : isWordCharacter c = true) (hline : LineBegins front) :
    ∃ blanks rest, IsBlank blanks ∧ c :: back = name.toList ++ (blanks ++ '\x7d' :: rest) := by
  obtain ⟨hname, a, b, d, e, ha, hb, hd, he, rfl⟩ := h
  have hnone {blanks : List Char} (hblanks : IsBlank blanks) : c ∉ blanks :=
    hblanks.notMem (isWhitespace_of_isWordCharacter hc)
  have hsigns : c ∉ ['/', '*', '\x7b', '\x7d'] := by
    intro hmem
    have hall : ['/', '*', '\x7b', '\x7d'].all (!isWordCharacter ·) = true := by decide
    have hnone := List.all_eq_true.1 hall c hmem
    simp [hc] at hnone
  simp only [List.mem_cons, List.not_mem_nil, or_false, not_or] at hsigns
  obtain ⟨hslash, hstar, hopen, hclose⟩ := hsigns
  have htext : (['/', '*'] ++ a ++ ['\x7b', '\x7b'] ++ b) ++
      (name.toList ++ (d ++ (['\x7d', '\x7d'] ++ (e ++ ['*', '/'])))) = front ++ c :: back := by
    simpa using hsplit
  obtain ⟨rest, rfl, hbehind⟩ := split_behind (by simp [hnone ha, hnone hb, *]) htext
  by_cases hrest : rest = []
  · subst hrest
    exact ⟨d, _, hd, hbehind.symm⟩
  exfalso
  rcases hline.of_append with hnil | hlast
  · exact hrest hnil
  have hbreak := List.mem_of_getLast? hlast
  rcases split_piece hbehind with ⟨more, hmore, -⟩ | ⟨more, -, hmore⟩
  · -- the line break would be in the name
    have hword := hname.2 '\n' (by rw [hmore]; exact List.mem_append_left _ hbreak)
    revert hword
    decide
  · have hmem : c ∈ d ++ (['\x7d', '\x7d'] ++ (e ++ ['*', '/'])) := by
      rw [hmore]
      simp
    simp [hnone hd, hnone he, *] at hmem

/-! ## Pieces and slots -/

theorem IsIndent.isBlank {indent : List Char} (h : IsIndent indent) : IsBlank indent := by
  intro c hc
  have hcharacter := h c hc
  simp only [isIndentCharacter, Bool.or_eq_true, beq_iff_eq] at hcharacter
  rcases hcharacter with rfl | rfl <;> decide

/-- What a slot stands for: its marker, with whitespace around it, up to the end of a line if there
is any behind it. -/
theorem Slot.StandsFor.exists_parts {s : Slot} {before after : List Char}
    (h : s.StandsFor before after) :
    ∃ indent ending, s.source = indent ++ (s.marker ++ ending) ∧ IsBlank indent ∧ IsBlank ending ∧
      (ending = [] ∨ ending.getLast? = some '\n') := by
  obtain ⟨-, hlines⟩ := h
  cases hindent : s.lineIndent with
  | none =>
    rw [hindent] at hlines
    exact ⟨[], [], by simpa using hlines, nofun, nofun, .inl rfl⟩
  | some indent =>
    rw [hindent] at hlines
    obtain ⟨ending, hsource, hblank, -, hend⟩ := hlines
    refine ⟨indent, ending, by simpa using hsource, hblank.isBlank, ?_, ?_⟩
    · rcases hend with ⟨rfl, -⟩ | ⟨blanks, hblanks, rfl | rfl⟩
      · nofun
      · exact List.forall_mem_append.2 ⟨hblanks.isBlank, (by decide : IsBlank ['\n'])⟩
      · exact List.forall_mem_append.2 ⟨hblanks.isBlank, (by decide : IsBlank ['\r', '\n'])⟩
    · rcases hend with ⟨rfl, -⟩ | ⟨blanks, -, rfl | rfl⟩
      · exact .inl rfl
      · exact .inr (by simp)
      · exact .inr (by simp)

/-- No slot reaches over the start of a line that a piece begins. -/
theorem IsPiece.not_across {piece post before rest front back : List Char} {s : Slot}
    (h : IsPiece piece) (hs : s.StandsFor before rest) (hsource : s.source = front ++ back)
    (hback : back ≠ []) (hline : LineBegins front) : back ++ rest ≠ piece ++ post := by
  intro htext
  obtain ⟨c, back, rfl⟩ := List.exists_cons_of_ne_nil hback
  obtain ⟨d, more, hpiece, hc⟩ := h.exists_head
  obtain rfl : c = d := by
    rw [hpiece] at htext
    exact (List.cons.inj htext).1
  obtain ⟨indent, ending, hparts, hindent, hending, -⟩ := hs.exists_parts
  have hvisible := isWhitespace_of_isWordCharacter hc
  obtain ⟨run, rfl, hmarker⟩ :=
    split_behind (hindent.notMem hvisible) (hparts.symm.trans hsource)
  rcases split_piece hmarker with ⟨after, hname, rfl⟩ | ⟨after, -, hafter⟩
  · obtain ⟨blanks, after', hblanks, hname⟩ := hs.1.line_begins hname hc hline.of_append
    have hend : piece ++ post =
        s.name.toList ++ (blanks ++ '\x7d' :: (after' ++ (ending ++ rest))) := by
      rw [← htext, ← List.cons_append, hname]
      simp
    exact h.ne_markerEnd hs.1.1 hblanks hend
  · exact hending.notMem hvisible (by simp [hafter])

/-- No slot begins within a text that has no slash and does not end in whitespace. -/
theorem slot?_eq_none {atLineStart : Bool} {text post : List Char} (hne : text ≠ [])
    (hslash : '/' ∉ text) (hlast : ∀ c ∈ text.getLast?, isWhitespace c = false) :
    slot? atLineStart (text ++ post) = none := by
  by_contra hsome
  obtain ⟨s, hs⟩ := Option.ne_none_iff_exists'.1 hsome
  obtain ⟨after, htext, hstands⟩ := slot?_eq_some hs
  obtain ⟨indent, ending, hparts, hindent, -, -⟩ := (hstands [] fun _ => .inl rfl).exists_parts
  obtain ⟨inner, hmarker⟩ := (hstands [] fun _ => .inl rfl).1.exists_inner
  rw [hparts, hmarker, List.append_assoc, List.cons_append, List.cons_append] at htext
  obtain ⟨rest, rfl, -⟩ := split_behind hslash htext
  have hmem := List.getLast_mem hne
  exact hindent.notMem (hlast _ (List.getLast?_eq_some_getLast hne))
    (List.mem_append_left _ hmem)

/-! ## Pieces and segments -/

theorem consText_head (c : Char) (segments : List Segment) :
    ∃ cs back, consText c segments = .text (c :: cs) :: back ∧ cs <+: sources segments := by
  unfold consText
  split
  · exact ⟨_, _, rfl, List.prefix_append _ _⟩
  · exact ⟨[], _, rfl, List.nil_prefix⟩

theorem consText_append (c : Char) (front : List Segment) (s : Slot) (back : List Segment) :
    ∃ front', consText c (front ++ .slot s :: back) = front' ++ .slot s :: back ∧
      sources front' = c :: sources front := by
  cases front with
  | nil => exact ⟨[.text [c]], rfl, rfl⟩
  | cons segment front =>
    cases segment with
    | text cs => exact ⟨.text (c :: cs) :: front, rfl, rfl⟩
    | slot s' => exact ⟨.text [c] :: .slot s' :: front, rfl, rfl⟩

theorem sources_append (front back : List Segment) :
    sources (front ++ back) = sources front ++ sources back := List.flatMap_append

/-- One text of a template holds a piece: a slot or nothing is before that text, and what follows
the piece in it is what follows in the template. -/
def HoldsPiece (segments : List Segment) (before piece after : List Char) : Prop :=
  ∃ front start rest back, segments = front ++ .text (start ++ (piece ++ rest)) :: back ∧
    before = sources front ++ start ∧ rest <+: after ∧
    (front = [] ∨ ∃ init s, front = init ++ [.slot s])

namespace Cuts
variable {atLineStart : Bool} {text : List Char} {segments : List Segment}

theorem text_head (h : Cuts atLineStart text segments) {piece post : List Char}
    (hne : piece ≠ []) (hslash : '/' ∉ piece)
    (hlast : ∀ c ∈ piece.getLast?, isWhitespace c = false) (htext : text = piece ++ post) :
    ∃ rest back, segments = .text (piece ++ rest) :: back ∧ rest <+: post := by
  induction h generalizing piece with
  | nil => exact absurd (List.append_eq_nil_iff.1 htext.symm).1 hne
  | slot found others ih =>
    rw [htext, slot?_eq_none hne hslash hlast] at found
    cases found
  | @text atLineStart c cs segments none others ih =>
    obtain ⟨d, piece, rfl⟩ := List.exists_cons_of_ne_nil hne
    obtain ⟨rfl, rfl⟩ := List.cons.inj htext
    by_cases hnil : piece = []
    · subst hnil
      obtain ⟨rest, back, hsegments, hrest⟩ := consText_head c segments
      rw [others.sources_eq] at hrest
      exact ⟨rest, back, hsegments, hrest⟩
    · have hbehind : ∀ d ∈ piece.getLast?, isWhitespace d = false := by
        rwa [← List.singleton_append, List.getLast?_append_of_ne_nil _ hnil] at hlast
      obtain ⟨rest, back, rfl, hrest⟩ :=
        ih hnil (fun hmem => hslash (.tail _ hmem)) hbehind rfl
      exact ⟨rest, back, rfl, hrest⟩

/-- A piece that begins a line is in one text. -/
theorem holdsPiece (h : Cuts atLineStart text segments) {before piece after : List Char}
    (hpiece : IsPiece piece) (hline : LineBegins before)
    (htext : text = before ++ (piece ++ after)) : HoldsPiece segments before piece after := by
  induction h generalizing before with
  | nil =>
    obtain ⟨hnil, -⟩ := List.append_eq_nil_iff.1 (List.append_eq_nil_iff.1 htext.symm).2
    obtain ⟨c, rest, hhead, -⟩ := hpiece.exists_head
    rw [hhead] at hnil
    cases hnil
  | @slot atLineStart s rest segments found others ih =>
    obtain ⟨more, rfl, hrest⟩ : ∃ more, before = s.source ++ more ∧
        rest = more ++ (piece ++ after) := by
      rcases List.append_eq_append_iff.1 htext with hmore | ⟨back, hsource, hpast⟩
      · exact hmore
      · by_cases hback : back = []
        · subst hback
          exact ⟨[], by simpa using hsource.symm, by simpa using hpast.symm⟩
        · obtain ⟨rest', hrest', hstands⟩ := slot?_eq_some found
          obtain rfl := List.append_cancel_left hrest'
          exact absurd hpast.symm
            (hpiece.not_across (hstands [] fun _ => .inl rfl) hsource hback hline)
    obtain ⟨front, start, rest', back, rfl, rfl, hprefix, hfront⟩ := ih hline.of_append hrest
    refine ⟨.slot s :: front, start, rest', back, rfl, by simp, hprefix, .inr ?_⟩
    rcases hfront with rfl | ⟨init, s', rfl⟩
    · exact ⟨[], s, rfl⟩
    · exact ⟨.slot s :: init, s', rfl⟩
  | @text atLineStart c cs segments none others ih =>
    cases before with
    | nil =>
      have hcuts := Cuts.text none others
      obtain ⟨d, tail, hhead, -⟩ := hpiece.exists_head
      obtain ⟨rest, back, hsegments, hrest⟩ :=
        hcuts.text_head (by simp [hhead]) hpiece.slash hpiece.last htext
      exact ⟨[], [], rest, back, hsegments, rfl, hrest, .inl rfl⟩
    | cons d before =>
      obtain ⟨rfl, hcs⟩ := List.cons.inj htext
      have hbefore : LineBegins ([c] ++ before) := hline
      obtain ⟨front, start, rest, back, rfl, rfl, hprefix, hfront⟩ := ih hbefore.of_append hcs
      rcases hfront with rfl | ⟨init, s, rfl⟩
      · exact ⟨[], c :: start, rest, back, rfl, rfl, hprefix, .inl rfl⟩
      · obtain ⟨front', hsegments, hsources⟩ :=
          consText_append c init s (.text (start ++ (piece ++ rest)) :: back)
        refine ⟨front' ++ [.slot s], start, rest, back, ?_, ?_, hprefix, .inr ⟨_, _, rfl⟩⟩
        · simpa using hsegments
        · rw [sources_append init, sources_append front', hsources]
          rfl

end Cuts

/-- Where a text may begin: at the start of a line, or behind a marker. -/
def TextBegins (before : List Char) : Prop :=
  LineBegins before ∨ ∃ name marker, IsMarker name marker ∧ marker <:+ before

theorem Slot.StandsFor.textBegins {s : Slot} {before after : List Char}
    (h : s.StandsFor before after) (front : List Char) : TextBegins (front ++ s.source) := by
  obtain ⟨indent, ending, hsource, -, -, rfl | hend⟩ := h.exists_parts
  · exact .inr ⟨s.name, s.marker, h.1, front ++ indent, by simp [hsource]⟩
  · have hne : ending ≠ [] := by
      rintro rfl
      cases hend
    refine .inl (.inr ?_)
    rw [hsource, ← List.append_assoc, ← List.append_assoc, List.getLast?_append_of_ne_nil _ hne,
      hend]

/-- A piece that begins a line of a template is in one of its texts. -/
theorem exists_text_of_piece (title : String) {template : String}
    {before piece after : List Char} (hpiece : IsPiece piece) (hline : LineBegins before)
    (htemplate : template.toList = before ++ (piece ++ after)) :
    ∃ front start rest, .text (start ++ (piece ++ rest)) ∈
        (Document.ofTemplate title template).segments ∧
      before = front ++ start ∧ TextBegins front ∧ rest <+: after := by
  have hcuts := cuts_cut true 0 template.toList
  rw [List.drop_zero] at hcuts
  obtain ⟨front, start, rest, back, hsegments, hbefore, hrest, hfront⟩ :=
    hcuts.holdsPiece hpiece hline htemplate
  refine ⟨sources front, start, rest, ?_, hbefore, ?_, hrest⟩
  · rw [Document.ofTemplate, hsegments]
    simp
  · rcases hfront with rfl | ⟨init, s, rfl⟩
    · exact .inl (.inl rfl)
    · have hstands := (cutInto_ofTemplate title template).standsFor init s
        _ (hsegments.trans (List.append_cons _ _ _).symm)
      rw [sources_append]
      simpa using hstands.textBegins (sources init)

end TypedRoutes.Template
