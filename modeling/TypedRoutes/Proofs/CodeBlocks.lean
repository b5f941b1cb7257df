import TypedRoutes.Template.CodeWriter
import TypedRoutes.Proofs.TextPieces

/-! # Blocks of code

What a writer has collected is a row of blocks, one for each text that was written.  A block ends
in what its text ends in, and keeps what stands in a line of it.
-/

namespace TypedRoutes.Template.CodeWriter
open TypedRoutes.Text

def block (indent : String) (depth : Nat) (text : String) : String :=
  String.join ((lines text).map (lineAt ⟨indent, ""⟩ depth))

def writeAll (w : CodeWriter) (texts : List (Nat × String)) : CodeWriter :=
  texts.foldl (fun w (depth, text) => w.write depth text) w

@[simp] theorem writeAll_nil (w : CodeWriter) : w.writeAll [] = w := rfl

@[simp] theorem writeAll_cons (w : CodeWriter) (p : Nat × String) (texts : List (Nat × String)) :
    w.writeAll (p :: texts) = (w.write p.1 p.2).writeAll texts := rfl

theorem writeAll_append (w : CodeWriter) (texts more : List (Nat × String)) :
    w.writeAll (texts ++ more) = (w.writeAll texts).writeAll more := by
  simp [writeAll]

theorem writeAll_eq (w : CodeWriter) (texts : List (Nat × String)) :
    w.writeAll texts = { w with
      buffer := w.buffer ++ String.join (texts.map fun p => block w.indent p.1 p.2) } := by
  induction texts generalizing w with
  | nil => simp
  | cons p texts ih =>
    rw [writeAll_cons, ih]
    simp only [write, List.map_cons, String.join_cons, String.append_assoc]
    rfl

/-! ## The end of a block -/

/-- What a block has before the text that ends the last line. -/
def lead (indent : String) (depth : Nat) (text : List Char) : List Char :=
  ((splitChars '\n' text).dropLast.flatMap fun line =>
      (lineAt ⟨indent, ""⟩ depth (String.ofList (dropReturn line))).toList) ++
    (repeatText depth indent).toList ++ (splitChars '\n' text).getLast?.getD []

theorem toList_lineAt (w : CodeWriter) (depth : Nat) {line : String}
    (h : isBlankText line = false) : (w.lineAt depth line).toList =
      (repeatText depth w.indent).toList ++ line.toList ++ ['\n'] := by
  simp [lineAt, h]

theorem toList_block_append (indent : String) (depth : Nat) (a : List Char) {b : List Char}
    {c : Char} (hn : '\n' ∉ b) (hc : c ∈ b) (hw : isWhitespace c = false) :
    (block indent depth (String.ofList (a ++ b))).toList = lead indent depth a ++ b ++ ['\n'] := by
  have hb : b ≠ [] := List.ne_nil_of_mem hc
  have hblank : isBlankText (String.ofList ((splitChars '\n' a).getLast?.getD [] ++ b)) =
      false := by
    simp only [isBlankText, String.toList_ofList, List.all_append, Bool.and_eq_false_iff]
    exact .inr (List.all_eq_false.2 ⟨c, hc, by simp [hw]⟩)
  rw [block, lines, String.toList_ofList, linesOfChars_append a hn hb,
    String.toList_join]
  simp only [List.map_append, List.map_map, List.map_cons, List.map_nil, List.flatMap_append,
    List.flatMap_map, List.flatMap_cons, List.flatMap_nil, toList_lineAt _ _ hblank, lead]
  simp [Function.comp_def]

theorem infix_lineAt (w : CodeWriter) (depth : Nat) {part line : List Char} {c : Char}
    (h : part <:+: line) (hc : c ∈ part) (hw : isWhitespace c = false) :
    part <:+: (w.lineAt depth (String.ofList line)).toList := by
  have hblank : isBlankText (String.ofList line) = false := by
    rw [isBlankText, String.toList_ofList, List.all_eq_false]
    exact ⟨c, h.subset hc, by simp [hw]⟩
  rw [toList_lineAt _ _ hblank, String.toList_ofList]
  exact List.infix_append_of_infix_left (List.infix_append_of_infix_right h)

theorem infix_lead (indent : String) (depth : Nat) (before after : List Char) {part : List Char}
    {c : Char} (hn : '\n' ∉ part) (hlast : part.getLast? = some c) (hw : isWhitespace c = false) :
    part <:+: lead indent depth (before ++ (part ++ after)) := by
  have hreturn : c ≠ '\r' := by
    rintro rfl
    revert hw
    decide
  have hc : c ∈ part := List.mem_of_getLast? hlast
  obtain ⟨first, more, hafter⟩ := List.exists_cons_of_ne_nil (splitChars_ne_nil '\n' after)
  have hpieces : splitChars '\n' (before ++ (part ++ after)) = (splitChars '\n' before).dropLast ++
      ((splitChars '\n' before).getLast?.getD [] ++ part ++ first) :: more := by
    rw [splitChars_append, splitChars_append, splitChars_of_notMem hn, hafter]
    simp
  rw [lead, hpieces]
  -- the line of the part is the last one, or one that is ended
  cases more with
  | nil =>
    refine List.infix_append_of_infix_right ?_
    simp
  | cons next more =>
    have hline : part <:+: (lineAt ⟨indent, ""⟩ depth (String.ofList (dropReturn
        ((splitChars '\n' before).getLast?.getD [] ++ part ++ first)))).toList :=
      infix_lineAt _ _ (infix_dropReturn hlast hreturn) hc hw
    rw [List.dropLast_append_of_ne_nil (by simp), List.dropLast_cons_of_ne_nil (by simp),
      List.flatMap_append, List.flatMap_cons]
    refine List.infix_append_of_infix_left (List.infix_append_of_infix_left ?_)
    exact List.infix_append_of_infix_right (List.infix_append_of_infix_left hline)

end TypedRoutes.Template.CodeWriter
