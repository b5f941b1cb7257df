import TypedRoutes.Proofs.SlotFilling
import TypedRoutes.Render.Document

/-! # The texts of rendered documents

The text of a document is its template with the texts in its slots in the place of the markers.  So
whatever is known about the slots of a rendered document can be read in its text.
-/

namespace TypedRoutes.Template

namespace Document
variable {d d₀ : Document}

/-- Nothing but texts for its slots has been added to a document. -/
def FilledFrom (d₀ d : Document) : Prop := ∃ texts, d = d₀.appendAll texts

theorem FilledFrom.refl (d : Document) : d.FilledFrom d := ⟨[], rfl⟩

theorem FilledFrom.append (h : d₀.FilledFrom d) (name content : String) :
    d₀.FilledFrom (d.append name content) := by
  obtain ⟨texts, rfl⟩ := h
  exact ⟨texts ++ [(name, content)], by simp [appendAll]⟩

theorem FilledFrom.trans {d' : Document} (h : d₀.FilledFrom d) (h' : d.FilledFrom d') :
    d₀.FilledFrom d' := by
  obtain ⟨texts, rfl⟩ := h
  obtain ⟨texts', rfl⟩ := h'
  exact ⟨texts ++ texts', by simp [appendAll]⟩

theorem chunks_appendAll (d : Document) (texts : List (String × String)) {name : String}
    (h : d.hasSlot name = true) :
    (d.appendAll texts).chunks name = d.chunks name ++ textsFor texts name := by
  induction texts generalizing d with
  | nil => exact (List.append_nil _).symm
  | cons text texts ih =>
    obtain ⟨other, content⟩ := text
    change ((d.append other content).appendAll texts).chunks name = _
    rw [ih _ (by simpa using h), textsFor_cons]
    by_cases hname : name = other
    · subst hname
      simp [d.chunks_append_self content h]
    · simp [d.chunks_append_of_ne content hname, hname]

/-- A document is written out as its template with the texts in its slots. -/
theorem FilledFrom.filled {title template : String} (h : (ofTemplate title template).FilledFrom d) :
    Filled d.chunks [] (ofTemplate title template).segments d.render.toList := by
  obtain ⟨texts, rfl⟩ := h
  have hfresh : ∀ s, .slot s ∈ (ofTemplate title template).segments → s.chunks = [] :=
    fun s hs => chunks_of_slot_mem_cut hs
  have hown : fill ((ofTemplate title template).appendAll texts).chunks []
        (ofTemplate title template).segments =
      ((ofTemplate title template).appendAll texts).segments := by
    rw [appendAll_eq]
    refine fill_congr fun s hs _ => ?_
    have hslot : (ofTemplate title template).hasSlot s.name = true := by
      simpa [hasSlot] using mem_slotNames.2 ⟨s, hs, rfl⟩
    rw [← appendAll_eq, chunks_appendAll _ _ hslot, chunks_ofTemplate, List.nil_append]
  rw [render, String.toList_ofList, ← hown]
  exact filled_fill _ [] hfresh

end Document

end TypedRoutes.Template

namespace TypedRoutes.Render
open TypedRoutes.Text TypedRoutes.Naming TypedRoutes.Route TypedRoutes.Template

variable {options : Options} {tree : Tree} {template text : String} {d d' : Document}

theorem header_ok : ∃ text, header generatorName = .ok text := ⟨_, rfl⟩

theorem finish_ok (options : Options) (d : Document) : ∃ text, finish options d = .ok text := by
  obtain ⟨head, hhead⟩ := header_ok
  unfold finish
  split
  · exact ⟨_, by rw [hhead]; rfl⟩
  · exact ⟨_, rfl⟩

/-- A text is what a template becomes with the texts in the slots of a document, after the header
if it is wanted. -/
def IsTextOf (options : Options) (template : String) (d : Document) (text : String) : Prop :=
  ∃ segments body, CutInto template.toList segments ∧ Filled d.chunks [] segments body ∧
    if options.emitHeader then
      ∃ head, header generatorName = .ok head ∧
        text.toList = head.toList ++ '\n' :: '\n' :: body.dropWhile (· == '\n')
    else text.toList = body

theorem isTextOf_of_finish {title : String} (h : (Document.ofTemplate title template).FilledFrom d)
    (hfinish : finish options d = .ok text) : IsTextOf options template d text := by
  refine ⟨_, _, cutInto_ofTemplate title template, h.filled, ?_⟩
  unfold finish at hfinish
  cases hheader : options.emitHeader with
  | false =>
    rw [hheader] at hfinish
    obtain rfl := Except.ok.inj hfinish
    simp
  | true =>
    rw [hheader] at hfinish
    obtain ⟨head, hhead, hfinish⟩ := bind_eq_ok hfinish
    obtain rfl := Except.ok.inj hfinish
    exact ⟨head, hhead, by simp⟩

theorem filledFrom_of_fillClient (h : fillClient options tree d = .ok d') : d.FilledFrom d' := by
  obtain ⟨_, -, h⟩ := bind_eq_ok h
  obtain ⟨parts, -, h⟩ := bind_eq_ok h
  obtain rfl := Except.ok.inj h
  have htypes := (Document.FilledFrom.refl d).append "types" parts.types.buffer
  split
  · exact htypes.append _ _
  · exact (htypes.append _ _).append _ _

theorem filledFrom_of_addRoute {e : Endpoint} {name : String}
    (h : addRoute options d e name = .ok d') : d.FilledFrom d' := by
  obtain ⟨importText, -, h⟩ := bind_eq_ok h
  obtain ⟨routeText, -, h⟩ := bind_eq_ok h
  obtain rfl := Except.ok.inj h
  exact ((Document.FilledFrom.refl d).append _ _).append _ _

theorem filledFrom_of_addRoutes {named : List (Endpoint × String)}
    (h : named.foldlM (fun d (e, name) => addRoute options d e name) d = .ok d') :
    d.FilledFrom d' := by
  induction named generalizing d with
  | nil =>
    obtain rfl := Except.ok.inj h
    exact .refl d
  | cons p named ih =>
    rw [List.foldlM_cons] at h
    obtain ⟨d₁, hroute, h⟩ := bind_eq_ok h
    exact (filledFrom_of_addRoute hroute).trans (ih h)

theorem filledFrom_of_fillRouter (h : fillRouter options tree d = .ok d') : d.FilledFrom d' := by
  obtain ⟨_, -, h⟩ := bind_eq_ok h
  exact filledFrom_of_addRoutes h

end TypedRoutes.Render
