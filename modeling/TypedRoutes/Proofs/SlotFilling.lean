import TypedRoutes.Proofs.TemplateReading
import Mathlib.Data.List.Forall2

/-! # Filling the slots of a template

What a template becomes depends, for each name, on the texts put into its slot and on their order
only.  They take the place of the first marker of the name; all other markers disappear.
-/

namespace TypedRoutes.Template
open TypedRoutes.Text

/-! ## Texts by name -/

/-- The texts among some that are meant for a slot, in their order. -/
def textsFor (texts : List (String × String)) (name : String) : List String :=
  (texts.filter (·.1 = name)).map (·.2)

@[simp] theorem textsFor_nil (name : String) : textsFor [] name = [] := rfl

theorem textsFor_cons (name content : String) (texts : List (String × String)) :
    textsFor ((name, content) :: texts) =
      fun other => if other = name then content :: textsFor texts other else textsFor texts other := by
  funext other
  by_cases h : other = name
  · simp [textsFor, h]
  · simp [textsFor, h, Ne.symm h]

/-- Puts texts into slots, one after the other. -/
def Document.appendAll (d : Document) (texts : List (String × String)) : Document :=
  texts.foldl (fun d (name, content) => d.append name content) d

/-! ## The slots after all texts -/

/-- Puts into the first slot of each name, unless it has been seen, all its texts at once. -/
def fill (texts : String → List String) (seen : List String) : List Segment → List Segment
  | [] => []
  | .text cs :: rest => .text cs :: fill texts seen rest
  | .slot s :: rest =>
    if s.name ∈ seen then .slot s :: fill texts seen rest
    else .slot { s with chunks := s.chunks ++ texts s.name } :: fill texts (s.name :: seen) rest

theorem fill_nil (seen : List String) (segments : List Segment) :
    fill (fun _ => []) seen segments = segments := by
  induction segments generalizing seen with
  | nil => rfl
  | cons segment rest ih =>
    cases segment with
    | text cs => rw [fill, ih]
    | slot s => by_cases h : s.name ∈ seen <;> simp [fill, h, ih]

/-- Only the texts for the names of slots matter, and not those for names that have been seen. -/
theorem fill_congr {texts texts' : String → List String} {seen : List String}
    {segments : List Segment}
    (h : ∀ s, .slot s ∈ segments → s.name ∉ seen → texts s.name = texts' s.name) :
    fill texts seen segments = fill texts' seen segments := by
  induction segments generalizing seen with
  | nil => rfl
  | cons segment rest ih =>
    have hrest : ∀ s, .slot s ∈ rest → s.name ∉ seen → texts s.name = texts' s.name :=
      fun s hs => h s (.tail _ hs)
    cases segment with
    | text cs => rw [fill, fill, ih hrest]
    | slot s =>
      by_cases hs : s.name ∈ seen
      · rw [fill, fill, if_pos hs, if_pos hs, ih hrest]
      · have hunseen : ∀ other, .slot other ∈ rest → other.name ∉ s.name :: seen →
            texts other.name = texts' other.name :=
          fun other hother hname => hrest other hother fun hmem => hname (.tail _ hmem)
        rw [fill, fill, if_neg hs, if_neg hs, ih hunseen, h s (.head _) hs]

/-- A text put into a slot before all others is the first of the texts for it. -/
theorem fill_appendTo (texts : String → List String) {name : String} (content : String)
    {seen : List String} (h : name ∉ seen) (segments : List Segment) :
    fill texts seen (Document.appendTo name content segments) =
      fill (fun other => if other = name then content :: texts other else texts other) seen
        segments := by
  induction segments generalizing seen with
  | nil => rfl
  | cons segment rest ih =>
    cases segment with
    | text cs => rw [Document.appendTo_text, fill, fill, ih h]
    | slot s =>
      by_cases hname : s.name = name
      · have hseen : s.name ∉ seen := hname ▸ h
        have hrest : fill texts (s.name :: seen) rest = fill (fun other =>
            if other = name then content :: texts other else texts other) (s.name :: seen) rest := by
          refine fill_congr fun other _ hother => ?_
          have hne : other.name ≠ name := by
            rintro rfl
            exact hother (hname ▸ List.mem_cons_self)
          rw [if_neg hne]
        rw [Document.appendTo_slot_self content rest hname, fill, fill, if_neg hseen, if_neg hseen,
          if_pos hname, hrest, List.append_assoc, List.singleton_append]
      · rw [Document.appendTo_slot_of_ne content rest hname, fill, fill]
        by_cases hseen : s.name ∈ seen
        · rw [if_pos hseen, if_pos hseen, ih h]
        · have hrest : name ∉ s.name :: seen := by
            simpa [Ne.symm hname] using h
          rw [if_neg hseen, if_neg hseen, if_neg hname, ih hrest]

theorem appendAll_eq (d : Document) (texts : List (String × String)) :
    d.appendAll texts = { d with segments := fill (textsFor texts) [] d.segments } := by
  induction texts generalizing d with
  | nil =>
    change d = { d with segments := fill (fun _ => []) [] d.segments }
    rw [fill_nil]
  | cons text texts ih =>
    obtain ⟨name, content⟩ := text
    calc (d.append name content).appendAll texts
        = { d.append name content with
            segments := fill (textsFor texts) [] (d.append name content).segments } := ih _
      _ = { d with segments := fill (textsFor ((name, content) :: texts)) [] d.segments } := by
        rw [d.append_eq, fill_appendTo _ _ List.not_mem_nil, textsFor_cons]

theorem appendAll_congr {d : Document} {texts texts' : List (String × String)}
    (h : ∀ name, textsFor texts name = textsFor texts' name) :
    d.appendAll texts = d.appendAll texts' := by
  rw [appendAll_eq, appendAll_eq, funext h]

@[simp] theorem slotNames_appendAll (d : Document) (texts : List (String × String)) :
    (d.appendAll texts).slotNames = d.slotNames := by
  induction texts generalizing d with
  | nil => rfl
  | cons text texts ih => exact (ih _).trans (d.slotNames_append text.1 text.2)

/-- Texts for different names can be put into their slots in either order. -/
theorem append_comm (d : Document) {name name' : String} (h : name ≠ name')
    (content content' : String) :
    (d.append name content).append name' content' =
      (d.append name' content').append name content := by
  have htexts : ∀ other, textsFor [(name, content), (name', content')] other =
      textsFor [(name', content'), (name, content)] other := by
    intro other
    simp only [textsFor_cons, textsFor_nil]
    split
    · rename_i hname
      rw [if_neg (hname.trans_ne h), if_neg (hname.trans_ne h)]
    · rfl
  exact appendAll_congr htexts

/-! ## Whether there is a slot -/

namespace Document

theorem appendTo?_eq_none_iff {name content : String} {segments : List Segment} :
    appendTo? name content segments = none ↔ ∀ s, .slot s ∈ segments → s.name ≠ name := by
  induction segments with
  | nil => simp [appendTo?]
  | cons segment rest ih =>
    cases segment with
    | text cs => simp [appendTo?, ih]
    | slot s => by_cases h : s.name = name <;> simp [appendTo?, h, ih]

theorem mem_slotNames {d : Document} {name : String} :
    name ∈ d.slotNames ↔ ∃ s, .slot s ∈ d.segments ∧ s.name = name := by
  simp only [slotNames, slots, List.mem_map, List.mem_filterMap]
  constructor
  · rintro ⟨s, ⟨segment, hmem, hsegment⟩, rfl⟩
    cases segment with
    | text cs => cases hsegment
    | slot s' =>
      cases hsegment
      exact ⟨s, hmem, rfl⟩
  · rintro ⟨s, hmem, rfl⟩
    exact ⟨s, ⟨.slot s, hmem, rfl⟩, rfl⟩

/-- A text is refused exactly if no slot has the name. -/
theorem append?_eq_none_iff (d : Document) (name content : String) :
    d.append? name content = none ↔ name ∉ d.slotNames := by
  rw [append?, Option.map_eq_none_iff, appendTo?_eq_none_iff, mem_slotNames]
  simp

/-- The document stays as it is exactly if no slot has the name. -/
theorem append_eq_self_iff (d : Document) (name content : String) :
    d.append name content = d ↔ name ∉ d.slotNames := by
  constructor
  · intro heq hmem
    have hslot : d.hasSlot name = true := by simpa [hasSlot] using hmem
    have hchunks := d.chunks_append_self content hslot
    rw [heq] at hchunks
    simp at hchunks
  · intro h
    rw [append, (d.append?_eq_none_iff name content).2 h, Option.getD_none]

end Document

/-! ## Writing a filled document -/

/-- The lines of a text: each ends with a line feed, before which a carriage return may stand; the
last one need not if there is something in it. -/
inductive IsLines : List Char → List (List Char) → Prop where
  | nil : IsLines [] []
  | last {line : List Char} (whole : '\n' ∉ line) (nonempty : line ≠ []) : IsLines line [line]
  | feed {line rest : List Char} {lines : List (List Char)} (whole : '\n' ∉ line)
      (bare : line.getLast? ≠ some '\r') (others : IsLines rest lines) :
      IsLines (line ++ '\n' :: rest) (line :: lines)
  | returnFeed {line rest : List Char} {lines : List (List Char)} (whole : '\n' ∉ line)
      (others : IsLines rest lines) : IsLines (line ++ '\r' :: '\n' :: rest) (line :: lines)

/-- What texts become in the place of a slot: one text, or the lines of a marker alone on its line,
those that are not empty with its indentation. -/
def Slot.Filling (s : Slot) (texts : List String) (filling : List Char) : Prop :=
  match s.lineIndent with
  | none => filling = texts.flatMap String.toList
  | some indent => ∃ lines, List.Forall₂ (fun t ls => IsLines t.toList ls) texts lines ∧
      filling = lines.flatten.flatMap fun line =>
        if line = [] then ['\n'] else indent ++ line ++ ['\n']

/-- Nothing is left of a slot without texts; of a marker alone on its line, nothing of the line. -/
@[simp] theorem Slot.filling_nil (s : Slot) (filling : List Char) :
    s.Filling [] filling ↔ filling = [] := by
  unfold Slot.Filling
  cases s.lineIndent <;> simp

/-- What segments become when the first slot of each name, unless it has been seen, gives way to
the texts for it and every other slot disappears. -/
inductive Filled (texts : String → List String) : List String → List Segment → List Char → Prop where
  | nil {seen : List String} : Filled texts seen [] []
  | text {seen : List String} {cs : List Char} {rest : List Segment} {filled : List Char}
      (others : Filled texts seen rest filled) : Filled texts seen (.text cs :: rest) (cs ++ filled)
  | first {seen : List String} {s : Slot} {rest : List Segment} {filling filled : List Char}
      (unseen : s.name ∉ seen) (own : s.Filling (texts s.name) filling)
      (others : Filled texts (s.name :: seen) rest filled) :
      Filled texts seen (.slot s :: rest) (filling ++ filled)
  | repeated {seen : List String} {s : Slot} {rest : List Segment} {filled : List Char}
      (seen_before : s.name ∈ seen) (others : Filled texts seen rest filled) :
      Filled texts seen (.slot s :: rest) filled

theorem linesOfChars_feed {line : List Char} (h : '\n' ∉ line) (rest : List Char) :
    linesOfChars (line ++ '\n' :: rest) = dropReturn line :: linesOfChars rest := by
  obtain ⟨piece, pieces, hpieces⟩ := List.exists_cons_of_ne_nil (splitChars_ne_nil '\n' rest)
  simp [linesOfChars, splitChars_piece h, hpieces]

theorem isLines_linesOfChars (text : List Char) : IsLines text (linesOfChars text) := by
  -- the beginning of a line goes along until its end is met
  suffices ∀ start : List Char, '\n' ∉ start →
      IsLines (start ++ text) (linesOfChars (start ++ text)) by
    simpa using this [] List.not_mem_nil
  induction text with
  | nil =>
    intro start hstart
    cases start with
    | nil => exact .nil
    | cons c cs =>
      have hlines : linesOfChars (c :: cs) = [c :: cs] := by
        simp [linesOfChars, splitChars_of_notMem hstart]
      rw [List.append_nil, hlines]
      exact .last hstart (by simp)
  | cons c cs ih =>
    intro start hstart
    by_cases hc : c = '\n'
    · subst hc
      rw [linesOfChars_feed hstart, dropReturn]
      split
      · rename_i hreturn
        obtain ⟨line, rfl⟩ := List.getLast?_eq_some_iff.1 hreturn
        rw [List.dropLast_concat, List.append_assoc, List.singleton_append]
        exact .returnFeed (fun hmem => hstart (List.mem_append_left _ hmem)) (ih [] List.not_mem_nil)
      · rename_i hbare
        exact .feed hstart hbare (ih [] List.not_mem_nil)
    · have hmore := ih (start ++ [c]) (by simp [hstart, Ne.symm hc])
      rwa [List.append_assoc, List.singleton_append] at hmore

/-- A fresh slot is written out as what its texts become in its place. -/
theorem Slot.filling_render (s : Slot) (texts : List String) :
    s.Filling texts (Slot.render { s with chunks := texts }) := by
  unfold Slot.Filling Slot.render
  cases s.lineIndent with
  | none => rfl
  | some indent =>
    refine ⟨texts.map fun t => linesOfChars t.toList, ?_, ?_⟩
    · rw [List.forall₂_map_right_iff]
      exact List.forall₂_same.2 fun t _ => isLines_linesOfChars t.toList
    · dsimp only
      rw [← List.flatMap_def]
      congr 1
      funext line
      cases line <;> simp [indentedLine]

/-- Fresh slots are written out as what the texts for them become in their places. -/
theorem filled_fill (texts : String → List String) (seen : List String) {segments : List Segment}
    (hfresh : ∀ s, .slot s ∈ segments → s.chunks = []) :
    Filled texts seen segments ((fill texts seen segments).flatMap Segment.render) := by
  induction segments generalizing seen with
  | nil => exact .nil
  | cons segment rest ih =>
    have hrest := fun seen => ih seen fun s hs => hfresh s (.tail _ hs)
    cases segment with
    | text cs => exact .text (hrest seen)
    | slot s =>
      have hchunks := hfresh s (.head _)
      rw [fill]
      split
      · rename_i hseen
        have hempty : s.render = [] := by
          unfold Slot.render
          split <;> simp [hchunks]
        rw [List.flatMap_cons, Segment.render, hempty, List.nil_append]
        exact .repeated hseen (hrest seen)
      · rename_i hseen
        rw [List.flatMap_cons, Segment.render, hchunks, List.nil_append]
        exact .first hseen (s.filling_render _) (hrest _)

/-- Whatever texts are put into the slots of a template one after the other, each marker that is
the first of its name gives way to the texts for the name, and every other one disappears.  Only the
order of the texts under each name matters.  A text is refused, and nothing changes, exactly if no
marker has the name. -/
theorem slots_filled (title template : String) (texts : List (String × String)) :
    CutInto template.toList (Document.ofTemplate title template).segments ∧
      let d := Document.ofTemplate title template
      let filled := d.appendAll texts
      Filled (textsFor texts) [] d.segments filled.render.toList ∧
      (∀ texts', (∀ name, textsFor texts' name = textsFor texts name) →
        (d.appendAll texts').render = filled.render) ∧
      (∀ name name' content content', name ≠ name' →
        (filled.append name content).append name' content' =
          (filled.append name' content').append name content) ∧
      ∀ name content,
        (filled.append? name content = none ↔
          name ∉ (markerSpans 0 d.segments).map (·.name)) ∧
        (filled.append name content = filled ↔
          name ∉ (markerSpans 0 d.segments).map (·.name)) ∧
        filled.append name content = (filled.append? name content).getD filled := by
  refine ⟨cutInto_ofTemplate title template, ?_⟩
  intro d filled
  have hfresh : ∀ s, .slot s ∈ d.segments → s.chunks = [] := fun s hs => chunks_of_slot_mem_cut hs
  refine ⟨?_, fun texts' h => ?_,
    fun name name' content content' h => append_comm filled h content content',
    fun name content => ?_⟩
  · have hfilled := filled_fill (textsFor texts) [] hfresh
    have hall : filled = { d with segments := fill (textsFor texts) [] d.segments } :=
      appendAll_eq d texts
    rwa [Document.render, String.toList_ofList, hall]
  · rw [appendAll_congr h]
  · rw [map_name_markerSpans, ← slotNames_appendAll d texts]
    exact ⟨filled.append?_eq_none_iff name content, filled.append_eq_self_iff name content, rfl⟩

theorem interleaved_filled :
    let template := "\t/* \x7b\x7bx\x7d\x7d */\n/* \x7b\x7by\x7d\x7d */;/* \x7b\x7bx\x7d\x7d */\n"
    let d := Document.ofTemplate "page" template
    (d.appendAll [("x", "a\r\n\nb"), ("y", "1"), ("x", "c\n"), ("y", "2")]).render =
        "\ta\n\n\tb\n\tc\n12;\n" ∧
      (d.appendAll [("y", "1"), ("y", "2"), ("x", "a\r\n\nb"), ("x", "c\n")]).render =
        "\ta\n\n\tb\n\tc\n12;\n" ∧
      (d.appendAll []).append? "z" "" = none := by
  intro template d
  have hrender : (d.appendAll [("x", "a\r\n\nb"), ("y", "1"), ("x", "c\n"), ("y", "2")]).render =
      "\ta\n\n\tb\n\tc\n12;\n" := by
    decide +kernel
  refine ⟨hrender, ?_, ?_⟩
  · rw [← hrender]
    refine (slots_filled "page" template _).2.2.1 _ fun name => ?_
    by_cases hx : name = "x"
    · subst hx
      decide
    · by_cases hy : name = "y"
      · subst hy
        decide
      · simp [textsFor, Ne.symm hx, Ne.symm hy]
  · exact ((slots_filled "page" template []).2.2.2.2 "z" "").1.2 (by decide +kernel)

end TypedRoutes.Template
