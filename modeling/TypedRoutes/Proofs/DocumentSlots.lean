import TypedRoutes.Template.Document
import Mathlib.Data.List.Basic

/-! # The texts in the slots of a document

A slot of a name is the first one of that name.  A document is seen through the texts in each of
its slots: a text that is put into one comes last there, and nothing else changes.
-/

namespace TypedRoutes.Template
open TypedRoutes.Text

namespace Document

/-- Segments after a text was put into the first slot of the name, if there is one. -/
def appendTo (name content : String) (segments : List Segment) : List Segment :=
  (appendTo? name content segments).getD segments

theorem append_eq (d : Document) (name content : String) :
    d.append name content = { d with segments := appendTo name content d.segments } := by
  rw [append, append?, appendTo]
  cases appendTo? name content d.segments <;> rfl

section AppendTo
variable (name content : String) (rest : List Segment)

@[simp] theorem appendTo_nil : appendTo name content [] = [] := rfl

@[simp] theorem appendTo_text (cs : List Char) :
    appendTo name content (.text cs :: rest) = .text cs :: appendTo name content rest := by
  rw [appendTo, appendTo, appendTo?]
  cases appendTo? name content rest <;> rfl

variable {name} {s : Slot}

@[simp] theorem appendTo_slot_self (h : s.name = name) :
    appendTo name content (.slot s :: rest) =
      .slot { s with chunks := s.chunks ++ [content] } :: rest := by
  rw [appendTo, appendTo?, if_pos h, Option.getD_some]

@[simp] theorem appendTo_slot_of_ne (h : ¬s.name = name) :
    appendTo name content (.slot s :: rest) = .slot s :: appendTo name content rest := by
  rw [appendTo, appendTo, appendTo?, if_neg h]
  cases appendTo? name content rest <;> rfl

end AppendTo

def chunks (d : Document) (name : String) : List String :=
  ((d.slots.find? (·.name = name)).map Slot.chunks).getD []

@[simp] theorem slotNames_append (d : Document) (name content : String) :
    (d.append name content).slotNames = d.slotNames := by
  obtain ⟨title, segments⟩ := d
  simp only [append_eq, slotNames, slots]
  induction segments with
  | nil => rfl
  | cons segment rest ih =>
    cases segment with
    | text cs => simpa using ih
    | slot s => by_cases h : s.name = name <;> simp [h, ih]

@[simp] theorem hasSlot_append (d : Document) (name content other : String) :
    (d.append name content).hasSlot other = d.hasSlot other := by
  simp [hasSlot]

theorem chunks_append_self (d : Document) {name : String} (content : String)
    (h : d.hasSlot name = true) :
    (d.append name content).chunks name = d.chunks name ++ [content] := by
  obtain ⟨title, segments⟩ := d
  simp only [append_eq, chunks, slots, hasSlot, slotNames] at h ⊢
  induction segments with
  | nil => simp at h
  | cons segment rest ih =>
    cases segment with
    | text cs => simpa using ih (by simpa using h)
    | slot s =>
      by_cases hs : s.name = name
      · simp [hs]
      · have hr := ih (by simpa [hs, Ne.symm hs] using h)
        simpa [hs] using hr

theorem chunks_append_of_ne (d : Document) {name other : String} (content : String)
    (h : other ≠ name) : (d.append name content).chunks other = d.chunks other := by
  obtain ⟨title, segments⟩ := d
  simp only [append_eq, chunks, slots]
  congr 2
  induction segments with
  | nil => rfl
  | cons segment rest ih =>
    cases segment with
    | text cs => simpa using ih
    | slot s =>
      by_cases hs : s.name = name
      · have ho : ¬s.name = other := fun he => h (he.symm.trans hs)
        simp [hs, h.symm]
      · rw [appendTo_slot_of_ne content rest hs]
        by_cases ho : s.name = other <;> simp [ho, ih]

theorem require_eq_ok_iff (d : Document) (markers : List String) :
    d.require markers = .ok () ↔ ∀ m ∈ markers, d.hasSlot m = true := by
  simp only [require]
  cases h : markers.find? fun m => !d.hasSlot m with
  | none => simpa using List.find?_eq_none.1 h
  | some m =>
    have hm := List.find?_some h
    have hmem := List.mem_of_find?_eq_some h
    simp only [reduceCtorEq, false_iff, not_forall]
    exact ⟨m, hmem, by simpa using hm⟩

end Document

/-! ## Fresh documents -/

theorem chunks_of_slot? {atLineStart : Bool} {text : List Char} {s : Slot}
    (h : slot? atLineStart text = some s) : s.chunks = [] := by
  rcases Option.or_eq_some_iff.1 h with h | ⟨-, h⟩
  · split at h
    · simp only [standaloneSlot?, Option.bind_eq_bind, Option.bind_eq_some_iff] at h
      obtain ⟨p, -, k, -, h⟩ := h
      cases h
      rfl
    · simp at h
  · simp only [inlineSlot?, Option.bind_eq_bind, Option.bind_eq_some_iff] at h
    obtain ⟨p, -, h⟩ := h
    cases h
    rfl

theorem slot_mem_consText {c : Char} {segments : List Segment} {s : Slot}
    (h : .slot s ∈ consText c segments) : .slot s ∈ segments := by
  unfold consText at h
  split at h <;> simp_all

theorem chunks_of_slot_mem_cut {atLineStart : Bool} {skip : Nat} {text : List Char} {s : Slot}
    (h : .slot s ∈ cut atLineStart skip text) : s.chunks = [] := by
  fun_induction cut atLineStart skip text with
  | case1 => simp at h
  | case2 _ skip c cs hskip ih => exact ih h
  | case3 _ skip c cs hskip slot hslot ih =>
    rcases List.mem_cons.1 h with h | h
    · cases h
      exact chunks_of_slot? hslot
    · exact ih h
  | case4 _ skip c cs hskip hslot ih => exact ih (slot_mem_consText h)

namespace Document

@[simp] theorem chunks_ofTemplate (title template name : String) :
    (ofTemplate title template).chunks name = [] := by
  simp only [chunks, ofTemplate, slots]
  cases hs : List.find? _ _ with
  | none => rfl
  | some s =>
    have hmem := List.mem_of_find?_eq_some hs
    simp only [List.mem_filterMap] at hmem
    obtain ⟨segment, hseg, hsome⟩ := hmem
    cases segment with
    | text cs => simp at hsome
    | slot s' =>
      cases hsome
      simpa using chunks_of_slot_mem_cut hseg

end Document

end TypedRoutes.Template
