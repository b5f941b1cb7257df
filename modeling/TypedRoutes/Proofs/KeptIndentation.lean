import TypedRoutes.Config.Validation
import TypedRoutes.Proofs.CodeBlocks
import TypedRoutes.Proofs.SlotFilling

/-! # Indentation that is kept

Code is indented twice: each text by its depth when it is written, and all of it by the marker that
it takes the place of.  Both times the lines of whitespace only stay or become empty, and every
other line keeps what it begins with behind the new indentation.  No line is lost, split or joined
on the way, unless the unit of indentation has a line feed in it.
-/

namespace TypedRoutes.Template
open TypedRoutes.Text

/-! ## The lines of a text -/

namespace IsLines
variable {text : List Char} {lines : List (List Char)}

theorem lineFeed_notMem (h : IsLines text lines) : ∀ line ∈ lines, '\n' ∉ line := by
  induction h with
  | nil => simp
  | last whole _ => simpa using whole
  | feed whole _ _ ih => simpa [whole] using ih
  | returnFeed whole _ ih => simpa [whole] using ih

theorem subset (h : IsLines text lines) : ∀ line ∈ lines, line ⊆ text := by
  induction h with
  | nil => simp
  | last => simp
  | @feed line rest lines _ _ _ ih =>
    rw [List.forall_mem_cons]
    refine ⟨List.subset_append_left _ _, fun other hother c hc => ?_⟩
    simp [ih other hother hc]
  | @returnFeed line rest lines _ _ ih =>
    rw [List.forall_mem_cons]
    refine ⟨List.subset_append_left _ _, fun other hother c hc => ?_⟩
    simp [ih other hother hc]

/-- A text has its lines in one way only. -/
theorem eq_linesOfChars (h : IsLines text lines) : lines = linesOfChars text := by
  induction h with
  | nil => rfl
  | last whole nonempty => simp [linesOfChars, splitChars_of_notMem whole, nonempty]
  | feed whole bare _ ih => rw [linesOfChars_feed whole, dropReturn, if_neg bare, ih]
  | @returnFeed line rest _ whole _ ih =>
    have hreturn : '\n' ∉ line ++ ['\r'] := by simp [whole]
    have hlines := linesOfChars_feed hreturn rest
    rw [List.append_assoc, List.singleton_append] at hlines
    rw [hlines, dropReturn, if_pos (by simp), List.dropLast_concat, ih]

end IsLines

theorem isLines_flatMap {lines : List (List Char)} (hfeed : ∀ line ∈ lines, '\n' ∉ line)
    (hreturn : ∀ line ∈ lines, line.getLast? ≠ some '\r') :
    IsLines (lines.flatMap (· ++ ['\n'])) lines := by
  induction lines with
  | nil => exact .nil
  | cons line lines ih =>
    rw [List.forall_mem_cons] at hfeed hreturn
    rw [List.flatMap_cons, List.append_assoc, List.singleton_append]
    exact .feed hfeed.1 hreturn.1 (ih hfeed.2 hreturn.2)

/-! ## Deepened lines -/

def deepenedLine (indent : List Char) (unit : String) (depth : Nat) (line : List Char) :
    List Char :=
  if line.all isWhitespace then []
  else indent ++ (List.replicate depth unit.toList).flatten ++ line

/-- The lines of texts one after the other, each at the depth of its text. -/
def deepenedLines (indent : List Char) (unit : String) (texts : List (Nat × String)) :
    List (List Char) :=
  texts.flatMap fun (depth, text) =>
    (linesOfChars text.toList).map (deepenedLine indent unit depth)

section Deepened
variable {indent : List Char} {unit : String} {texts : List (Nat × String)}

theorem mem_deepenedLines {line : List Char} : line ∈ deepenedLines indent unit texts ↔
    ∃ depth text, (depth, text) ∈ texts ∧
      ∃ own ∈ linesOfChars text.toList, deepenedLine indent unit depth own = line := by
  simp [deepenedLines]

theorem lineFeed_notMem_deepenedLines (hindent : '\n' ∉ indent) (hunit : '\n' ∉ unit.toList) :
    ∀ line ∈ deepenedLines indent unit texts, '\n' ∉ line := by
  intro line hline
  obtain ⟨depth, text, -, own, hown, rfl⟩ := mem_deepenedLines.1 hline
  have hwhole := (isLines_linesOfChars text.toList).lineFeed_notMem own hown
  unfold deepenedLine
  split
  · exact List.not_mem_nil
  · simp [hindent, hunit, hwhole]

theorem getLast?_deepenedLines (htexts : ∀ p ∈ texts, '\r' ∉ p.2.toList) :
    ∀ line ∈ deepenedLines indent unit texts, line.getLast? ≠ some '\r' := by
  intro line hline
  obtain ⟨depth, text, htext, own, hown, rfl⟩ := mem_deepenedLines.1 hline
  have hbare : '\r' ∉ own := fun hmem =>
    htexts _ htext ((isLines_linesOfChars text.toList).subset own hown hmem)
  unfold deepenedLine
  split
  · simp
  · rename_i hblank
    have hne : own ≠ [] := by
      rintro rfl
      exact hblank rfl
    rw [List.getLast?_append_of_ne_nil _ hne]
    exact fun hlast => hbare (List.mem_of_getLast? hlast)

/-- An indentation before what a depth gives comes before it in the line. -/
theorem indentedLine_deepenedLine (depth : Nat) (line : List Char) :
    indentedLine indent (deepenedLine [] unit depth line) =
      deepenedLine indent unit depth line ++ ['\n'] := by
  unfold indentedLine deepenedLine
  split
  · rfl
  · rename_i hblank
    have hne : line ≠ [] := by
      rintro rfl
      exact hblank rfl
    simp [hne]

end Deepened

/-! ## Both passes -/

theorem CodeWriter.toList_lineAt_ofList (w : CodeWriter) (depth : Nat) (line : List Char) :
    (w.lineAt depth (String.ofList line)).toList =
      deepenedLine [] w.indent depth line ++ ['\n'] := by
  unfold lineAt deepenedLine
  rw [isBlankText, String.toList_ofList]
  split <;> simp [repeatText, String.toList_join, List.flatMap_replicate]

/-- What a writer has collected are the lines of the texts, each at the depth of its text. -/
theorem CodeWriter.toList_buffer (unit : String) (texts : List (Nat × String)) :
    (writeAll ⟨unit, ""⟩ texts).buffer.toList =
      (deepenedLines [] unit texts).flatMap (· ++ ['\n']) := by
  rw [writeAll_eq]
  simp [deepenedLines, block, lines, String.toList_join, List.flatMap_map, List.flatMap_assoc,
    toList_lineAt_ofList]

theorem Document.appendTo_of_first {front back : List Segment} {s : Slot} (content : String)
    (first : ∀ other, .slot other ∈ front → other.name ≠ s.name) :
    appendTo s.name content (front ++ .slot s :: back) =
      front ++ .slot { s with chunks := s.chunks ++ [content] } :: back := by
  induction front with
  | nil => simp
  | cons segment front ih =>
    have hrest := ih fun other hother => first other (.tail _ hother)
    cases segment with
    | text cs => simp [hrest]
    | slot other => simp [first other (.head _), hrest]

theorem Slot.render_concat {s : Slot} {indent : List Char} (h : s.lineIndent = some indent)
    (content : String) : Slot.render { s with chunks := s.chunks ++ [content] } =
      s.render ++ (linesOfChars content.toList).flatMap (indentedLine indent) := by
  simp [Slot.render, h]

theorem exists_slot_of_mem_fill {texts : String → List String} {seen : List String}
    {segments : List Segment} {s : Slot} (h : .slot s ∈ fill texts seen segments) :
    ∃ s', .slot s' ∈ segments ∧ s'.lineIndent = s.lineIndent := by
  induction segments generalizing seen with
  | nil => cases h
  | cons segment rest ih =>
    have hlater {seen : List String} (hmem : .slot s ∈ fill texts seen rest) :
        ∃ s', .slot s' ∈ segment :: rest ∧ s'.lineIndent = s.lineIndent := by
      obtain ⟨s', hs', hindent⟩ := ih hmem
      exact ⟨s', .tail _ hs', hindent⟩
    cases segment with
    | text cs =>
      rw [fill, List.mem_cons] at h
      exact hlater (h.resolve_left Segment.noConfusion)
    | slot other =>
      obtain ⟨chunks, seen', hfill⟩ : ∃ chunks seen', fill texts seen (.slot other :: rest) =
          .slot { other with chunks } :: fill texts seen' rest := by
        rw [fill]
        split <;> exact ⟨_, _, rfl⟩
      rw [hfill] at h
      rcases List.mem_cons.1 h with heq | hmem
      · cases heq
        exact ⟨other, .head _, rfl⟩
      · exact hlater hmem

theorem isIndent_of_mem_appendAll {title template : String} {earlier : List (String × String)}
    {s : Slot} {indent : List Char}
    (hs : .slot s ∈ ((Document.ofTemplate title template).appendAll earlier).segments)
    (h : s.lineIndent = some indent) : IsIndent indent := by
  rw [appendAll_eq] at hs
  obtain ⟨s', hs', hindent⟩ := exists_slot_of_mem_fill hs
  obtain ⟨front, back, hsegments⟩ := List.append_of_mem hs'
  obtain ⟨-, hlines⟩ := (cutInto_ofTemplate title template).standsFor front s' back hsegments
  rw [hindent.trans h] at hlines
  obtain ⟨-, -, hblank, -⟩ := hlines
  exact hblank

/-! ## Units -/

/-- Lines are those of texts one after the other, each at the depth of its text. -/
def Deepened (indent : List Char) (unit : String) (texts : List (Nat × String))
    (lines : List (List Char)) : Prop :=
  ∃ blocks, List.Forall₂ (fun (p : Nat × String) block => ∃ own, IsLines p.2.toList own ∧
      block = own.map (deepenedLine indent unit p.1)) texts blocks ∧ lines = blocks.flatten

theorem deepened_iff {indent : List Char} {unit : String} {texts : List (Nat × String)}
    {lines : List (List Char)} :
    Deepened indent unit texts lines ↔ lines = deepenedLines indent unit texts := by
  have hblock (p : Nat × String) (block : List (List Char)) :
      (∃ own, IsLines p.2.toList own ∧ block = own.map (deepenedLine indent unit p.1)) ↔
        (linesOfChars p.2.toList).map (deepenedLine indent unit p.1) = block := by
    constructor
    · rintro ⟨own, hown, rfl⟩
      rw [hown.eq_linesOfChars]
    · rintro rfl
      exact ⟨_, isLines_linesOfChars _, rfl⟩
  simp only [Deepened, hblock, ← List.forall₂_map_left_iff (f := fun (p : Nat × String) =>
    (linesOfChars p.2.toList).map (deepenedLine indent unit p.1)), List.forall₂_eq_eq_eq,
    exists_eq_left', deepenedLines, List.flatMap_def]

/-- A slot of a document that is alone on its line and the first of its name. -/
structure Document.TakesLines (d : Document) (front : List Segment) (s : Slot)
    (back : List Segment) (indent : List Char) : Prop where
  segments : d.segments = front ++ .slot s :: back
  first : ∀ other, .slot other ∈ front → other.name ≠ s.name
  standalone : s.lineIndent = some indent

/-- Whatever is written in a unit of indentation, and whichever marker alone on its line it is put
in the place of, behind what has been put there: the lines that come there are the lines of the
texts, those of whitespace only empty and the others behind the indentation of the marker and as
many units as their text is deep. -/
def KeepsLines (unit : String) : Prop :=
  ∀ (title template : String) (earlier : List (String × String)) (front : List Segment) (s : Slot)
    (back : List Segment) (indent : List Char) (texts : List (Nat × String)),
    let d := (Document.ofTemplate title template).appendAll earlier
    d.TakesLines front s back indent → (∀ p ∈ texts, '\r' ∉ p.2.toList) →
    ∃ filling lines,
      (d.append s.name (CodeWriter.writeAll ⟨unit, ""⟩ texts).buffer).render.toList =
        front.flatMap Segment.render ++ (s.render ++ filling) ++ back.flatMap Segment.render ∧
      IsLines filling lines ∧ Deepened indent unit texts lines

theorem keepsLines_of_notMem {unit : String} (hunit : '\n' ∉ unit.toList) : KeepsLines unit := by
  intro title template earlier front s back indent texts d hd htexts
  have hslot : .slot s ∈ d.segments := by
    rw [hd.segments]
    simp
  have hindent : '\n' ∉ indent := by
    intro hmem
    have hblank := isIndent_of_mem_appendAll hslot hd.standalone '\n' hmem
    revert hblank
    decide
  have hbuffer : linesOfChars (CodeWriter.writeAll ⟨unit, ""⟩ texts).buffer.toList =
      deepenedLines [] unit texts := by
    rw [CodeWriter.toList_buffer]
    exact (isLines_flatMap (lineFeed_notMem_deepenedLines List.not_mem_nil hunit)
      (getLast?_deepenedLines htexts)).eq_linesOfChars.symm
  have hfilling : (deepenedLines [] unit texts).flatMap (indentedLine indent) =
      (deepenedLines indent unit texts).flatMap (· ++ ['\n']) := by
    simp only [deepenedLines, List.flatMap_assoc, List.flatMap_map, indentedLine_deepenedLine]
  refine ⟨(deepenedLines indent unit texts).flatMap (· ++ ['\n']), _, ?_,
    isLines_flatMap (lineFeed_notMem_deepenedLines hindent hunit) (getLast?_deepenedLines htexts),
    deepened_iff.2 rfl⟩
  rw [Document.render, String.toList_ofList, Document.append_eq, hd.segments,
    Document.appendTo_of_first _ hd.first, List.flatMap_append, List.flatMap_cons, Segment.render,
    Slot.render_concat hd.standalone, hbuffer, hfilling]
  simp only [List.append_assoc]

/-- A line feed in the unit ends the line before its text. -/
theorem not_keepsLines_of_mem {unit : String} (hunit : '\n' ∈ unit.toList) : ¬KeepsLines unit := by
  intro h
  let s : Slot := ⟨"x", "/* \x7b\x7bx\x7d\x7d */".toList, some [], []⟩
  have hd : (Document.ofTemplate "" "/* \x7b\x7bx\x7d\x7d */").TakesLines [] s [] [] :=
    ⟨by decide +kernel, by simp, rfl⟩
  obtain ⟨filling, lines, -, hlines, hdeepened⟩ := h _ _ [] _ _ _ _ [(1, "a")] hd (by decide)
  have hline : unit.toList ++ ['a'] ∈ lines := by
    have hblank : isWhitespace 'a' = false := by decide
    have hown : linesOfChars ['a'] = [['a']] := by decide
    rw [deepened_iff.1 hdeepened]
    simp [deepenedLines, deepenedLine, hown, hblank]
  exact hlines.lineFeed_notMem _ hline (List.mem_append_left _ hunit)

/-- The lines of what is written are kept through both passes exactly if the unit of indentation
has no line feed, and so in every unit that settings admit. -/
theorem keepsLines_iff (unit : String) :
    (KeepsLines unit ↔ '\n' ∉ unit.toList) ∧ (Config.isIndent unit = true → KeepsLines unit) := by
  refine ⟨⟨fun h hmem => not_keepsLines_of_mem hmem h, keepsLines_of_notMem⟩, fun h => ?_⟩
  refine keepsLines_of_notMem fun hmem => ?_
  rw [Config.isIndent, Bool.and_eq_true, List.all_eq_true] at h
  exact absurd (h.2 '\n' hmem) (by decide)

theorem nestedType_keepsLines :
    let template := "\x7b\n  /* \x7b\x7btypes\x7d\x7d */\n\x7d\n"
    let d := (Document.ofTemplate "client" template).appendAll [("types", "// types")]
    let texts := [(0, "namespace a \x7b"),
      (1, "type A = \x7b\n\tid: string;\n \n\x7d;\n"), (0, "\x7d")]
    let d' := d.append "types" (CodeWriter.writeAll ⟨"\t", ""⟩ texts).buffer
    Config.isIndent "\t" = true ∧
      d'.render = "\x7b\n  // types\n  namespace a \x7b\n  \ttype A = \x7b\n" ++
        "  \t\tid: string;\n\n  \t\x7d;\n  \x7d\n\x7d\n" ∧
      ∃ filling lines,
        d'.render.toList =
          "\x7b\n".toList ++ ("  // types\n".toList ++ filling) ++ "\x7d\n".toList ∧
        IsLines filling lines ∧ Deepened [' ', ' '] "\t" texts lines := by
  intro template d texts d'
  let source := "  /* \x7b\x7btypes\x7d\x7d */\n".toList
  let s : Slot := ⟨"types", source, some [' ', ' '], ["// types"]⟩
  have hunit : Config.isIndent "\t" = true := by decide
  have hd : d.TakesLines [.text "\x7b\n".toList] s [.text "\x7d\n".toList] [' ', ' '] :=
    ⟨by decide +kernel, by simp, rfl⟩
  have hearlier : s.render = "  // types\n".toList := by decide +kernel
  obtain ⟨filling, lines, hrender, hlines⟩ :=
    (keepsLines_iff "\t").2 hunit "client" template [("types", "// types")] _ s _ _ texts hd
      (by decide)
  rw [hearlier, List.flatMap_singleton, List.flatMap_singleton] at hrender
  exact ⟨hunit, by decide +kernel, filling, lines, hrender, hlines⟩

theorem lineFeedUnit_splits_line :
    let d := Document.ofTemplate "client" "\t/* \x7b\x7btypes\x7d\x7d */\n"
    let texts := [(1, "type A = string;")]
    (d.append "types" (CodeWriter.writeAll ⟨"\n", ""⟩ texts).buffer).render =
        "\n\ttype A = string;\n" ∧
      Deepened ['\t'] "\n" texts ["\t\ntype A = string;".toList] ∧ ¬KeepsLines "\n" :=
  ⟨by decide +kernel, deepened_iff.2 (by decide +kernel), not_keepsLines_of_mem (by decide)⟩

end TypedRoutes.Template
