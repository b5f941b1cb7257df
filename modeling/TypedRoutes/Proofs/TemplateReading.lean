import TypedRoutes.Proofs.DocumentSlots
import TypedRoutes.Proofs.TemplateMarkers

/-! # Reading a template

A template is cut into texts and slots.  Put back in order, the texts and what the slots stand for
are the template again.  The slots are its markers from left to right, each the first that begins
where the one before it has ended, and nothing is left of a marker in the texts.
-/

namespace TypedRoutes.Template
open TypedRoutes.Text

/-! ## Markers in a text -/

/-- A name between two positions of a text. -/
structure MarkerSpan where
  name : String
  start : Nat
  stop : Nat
  deriving DecidableEq, Repr

namespace MarkerSpan

/-- A marker of the name stands between the positions. -/
def In (span : MarkerSpan) (text : List Char) : Prop :=
  ∃ before marker after, text = before ++ marker ++ after ∧ before.length = span.start ∧
    (before ++ marker).length = span.stop ∧ IsMarker span.name marker

variable {span : MarkerSpan} {text : List Char}

theorem In.getElem?_start (h : span.In text) : text[span.start]? = some '/' := by
  obtain ⟨before, marker, after, rfl, hstart, -, hm⟩ := h
  obtain ⟨inner, rfl⟩ := hm.exists_inner
  simp [← hstart]

/-- No marker begins where there is no slash. -/
theorem In.le_start {before gap after : List Char} (h : span.In (before ++ gap ++ after))
    (hgap : '/' ∉ gap) (hstart : before.length ≤ span.start) :
    (before ++ gap).length ≤ span.start := by
  by_contra hlt
  simp only [List.length_append, Nat.not_le] at hlt
  have hslash := h.getElem?_start
  rw [List.append_assoc, List.getElem?_append_right hstart,
    List.getElem?_append_left (by omega)] at hslash
  exact hgap (List.mem_of_getElem? hslash)

theorem In.marker? {before rest : List Char} (h : span.In (before ++ rest))
    (hstart : before.length = span.start) : ∃ found, Template.marker? rest = some found := by
  obtain ⟨before', marker, after, htext, hstart', -, hm⟩ := h
  rw [List.append_assoc] at htext
  obtain ⟨-, rfl⟩ := List.append_inj htext (hstart.trans hstart'.symm)
  exact ⟨_, hm.marker?_append after⟩

end MarkerSpan

/-- All markers of a text from a position on, from left to right: each is the first that begins
where the one before it has ended, or later. -/
inductive Leftmost (text : List Char) : Nat → List MarkerSpan → Prop where
  | none {start : Nat} (none : ∀ other : MarkerSpan, other.In text → other.start < start) :
      Leftmost text start []
  | next {start : Nat} {span : MarkerSpan} {spans : List MarkerSpan} (marker : span.In text)
      (behind : start ≤ span.start)
      (first : ∀ other : MarkerSpan, other.In text → start ≤ other.start →
        span.start ≤ other.start)
      (others : Leftmost text span.stop spans) : Leftmost text start (span :: spans)

/-- Where no marker begins the search may begin as well. -/
theorem Leftmost.from_earlier {text : List Char} {start later : Nat} {spans : List MarkerSpan}
    (h : Leftmost text later spans) (hle : start ≤ later)
    (hnone : ∀ other : MarkerSpan, other.In text → start ≤ other.start → later ≤ other.start) :
    Leftmost text start spans := by
  cases h with
  | none none =>
    refine .none fun other hother => ?_
    by_contra hlt
    exact absurd (none other hother) (Nat.not_lt.2 (hnone other hother (Nat.not_lt.1 hlt)))
  | next marker behind first others =>
    refine .next marker (Nat.le_trans hle behind) (fun other hother hstart => ?_) others
    exact first other hother (hnone other hother hstart)

/-! ## Segments -/

def Segment.source : Segment → List Char
  | text cs => cs
  | slot s => s.source

def sources (segments : List Segment) : List Char := segments.flatMap Segment.source

@[simp] theorem sources_nil : sources [] = [] := rfl

@[simp] theorem sources_text (cs : List Char) (segments : List Segment) :
    sources (.text cs :: segments) = cs ++ sources segments := rfl

@[simp] theorem sources_slot (s : Slot) (segments : List Segment) :
    sources (.slot s :: segments) = s.source ++ sources segments := rfl

@[simp] theorem sources_consText (c : Char) (segments : List Segment) :
    sources (consText c segments) = c :: sources segments := by
  unfold consText
  split <;> simp

theorem consText_eq_append {c : Char} {segments front back : List Segment} {s : Slot}
    (h : consText c segments = front ++ .slot s :: back) :
    ∃ rest, segments = rest ++ .slot s :: back ∧ sources front = c :: sources rest := by
  unfold consText at h
  split at h
  · rename_i cs others
    cases front with
    | nil => cases h
    | cons segment front =>
      cases h
      exact ⟨.text cs :: front, rfl, rfl⟩
  · cases front with
    | nil => cases h
    | cons segment front =>
      cases h
      exact ⟨front, rfl, rfl⟩

/-- A text that a character was put before is the character and the text that follows it. -/
theorem text_mem_consText {c : Char} {cs : List Char} {segments : List Segment}
    (h : .text cs ∈ consText c segments) : .text cs ∈ segments ∨
      ∃ rest, cs = c :: rest ∧ rest <+: sources segments ∧ (rest = [] ∨ .text rest ∈ segments) := by
  unfold consText at h
  split at h
  · rename_i rest others
    rcases List.mem_cons.1 h with h | h
    · cases h
      exact .inr ⟨rest, rfl, List.prefix_append _ _, .inr (.head _)⟩
    · exact .inl (.tail _ h)
  · rcases List.mem_cons.1 h with h | h
    · cases h
      exact .inr ⟨[], rfl, List.nil_prefix, .inl rfl⟩
    · exact .inl h

/-- Where the markers of slots stand in what the segments stand for, counted from an offset. -/
def markerSpans (offset : Nat) : List Segment → List MarkerSpan
  | [] => []
  | .text cs :: rest => markerSpans (offset + cs.length) rest
  | .slot s :: rest =>
    let start := offset + (s.lineIndent.getD []).length
    ⟨s.name, start, start + s.marker.length⟩ :: markerSpans (offset + s.source.length) rest

theorem markerSpans_consText (offset : Nat) (c : Char) (segments : List Segment) :
    markerSpans offset (consText c segments) = markerSpans (offset + 1) segments := by
  unfold consText
  split
  · simp [markerSpans, Nat.add_comm, Nat.add_left_comm]
  · simp [markerSpans]

theorem map_name_markerSpans (d : Document) (offset : Nat) :
    (markerSpans offset d.segments).map (·.name) = d.slotNames := by
  obtain ⟨title, segments⟩ := d
  simp only [Document.slotNames, Document.slots]
  induction segments generalizing offset with
  | nil => rfl
  | cons segment rest ih =>
    cases segment with
    | text cs => simpa [markerSpans] using ih (offset + cs.length)
    | slot s => simpa [markerSpans] using ih (offset + s.source.length)

/-! ## Cutting a text -/

/-- Whether a line begins after a text, given whether one begins before it. -/
def lineBeginsAfter (atLineStart : Bool) (cs : List Char) : Bool :=
  cs.foldl (fun _ c => decide (c = '\n')) atLineStart

theorem lineBegins_append {atLineStart : Bool} {before : List Char}
    (hbefore : atLineStart = true → LineBegins before) (cs : List Char)
    (h : lineBeginsAfter atLineStart cs = true) : LineBegins (before ++ cs) := by
  rcases List.eq_nil_or_concat cs with rfl | ⟨cs, c, rfl⟩
  · simpa using hbefore h
  · right
    simpa [lineBeginsAfter] using h

/-- How a text is cut: at each place a slot is cut off if there is one, or else a character. -/
inductive Cuts : Bool → List Char → List Segment → Prop where
  | nil {atLineStart : Bool} : Cuts atLineStart [] []
  | slot {atLineStart : Bool} {s : Slot} {rest : List Char} {segments : List Segment}
      (found : slot? atLineStart (s.source ++ rest) = some s)
      (others : Cuts (lineBeginsAfter atLineStart s.source) rest segments) :
      Cuts atLineStart (s.source ++ rest) (.slot s :: segments)
  | text {atLineStart : Bool} {c : Char} {cs : List Char} {segments : List Segment}
      (none : slot? atLineStart (c :: cs) = none) (others : Cuts (c = '\n') cs segments) :
      Cuts atLineStart (c :: cs) (consText c segments)

/-- After the characters that belong to a slot already cut off, a text is cut that way. -/
theorem cuts_cut (atLineStart : Bool) (skip : Nat) (text : List Char) :
    Cuts (lineBeginsAfter atLineStart (text.take skip)) (text.drop skip)
      (cut atLineStart skip text) := by
  induction text generalizing atLineStart skip with
  | nil =>
    rw [List.drop_nil]
    exact .nil
  | cons c cs ih =>
    unfold cut
    split
    · rename_i hskip
      obtain ⟨n, rfl⟩ : ∃ n, skip = n + 1 := ⟨skip - 1, by omega⟩
      exact ih (c = '\n') n
    · rename_i hskip
      obtain rfl : skip = 0 := by omega
      change Cuts atLineStart (c :: cs) _
      cases hslot : slot? atLineStart (c :: cs) with
      | none => exact .text hslot (ih (c = '\n') 0)
      | some s =>
        obtain ⟨rest, htext, hstands⟩ := slot?_eq_some hslot
        obtain ⟨c', source, hsource⟩ :=
          List.exists_cons_of_ne_nil (hstands [] fun _ => .inl rfl).source_ne_nil
        rw [hsource, List.cons_append, List.cons.injEq] at htext
        obtain ⟨rfl, rfl⟩ := htext
        have hrest := ih (c = '\n') source.length
        rw [List.take_left, List.drop_left] at hrest
        have hcuts := Cuts.slot (s := s) (by rw [hsource]; exact hslot) (by rw [hsource]; exact hrest)
        dsimp only
        rw [hsource] at hcuts ⊢
        exact hcuts

namespace Cuts
variable {atLineStart : Bool} {text : List Char} {segments : List Segment}

/-- Nothing is lost, and nothing comes twice. -/
theorem sources_eq (h : Cuts atLineStart text segments) : sources segments = text := by
  induction h with
  | nil => rfl
  | slot found others ih => rw [sources_slot, ih]
  | text none others ih => rw [sources_consText, ih]

theorem standsFor (h : Cuts atLineStart text segments) (before : List Char)
    (hbefore : atLineStart = true → LineBegins before) (front : List Segment) {s : Slot}
    {back : List Segment} (hsegments : segments = front ++ .slot s :: back) :
    s.StandsFor (before ++ sources front) (sources back) := by
  induction h generalizing before front with
  | nil => simp at hsegments
  | @slot atLineStart s' rest segments found others ih =>
    obtain ⟨after, htext, hstands⟩ := slot?_eq_some found
    obtain rfl := List.append_cancel_left htext
    cases front with
    | nil =>
      cases hsegments
      rw [others.sources_eq]
      simpa using hstands before hbefore
    | cons segment front =>
      cases hsegments
      have hs := ih (before ++ s'.source) (lineBegins_append hbefore _) front rfl
      simpa using hs
  | @text atLineStart c cs segments none others ih =>
    obtain ⟨rest, hrest, hfront⟩ := consText_eq_append hsegments
    have hs := ih (before ++ [c]) (fun hc => .inr (by simpa using hc)) rest hrest
    simpa [hfront] using hs

theorem text_markerless (h : Cuts atLineStart text segments) {cs : List Char}
    (hcs : .text cs ∈ segments) {name : String} {marker : List Char} (hm : IsMarker name marker) :
    ¬ marker <:+: cs := by
  induction h generalizing cs with
  | nil => cases hcs
  | slot found others ih => exact ih ((List.mem_cons.1 hcs).resolve_left nofun)
  | @text atLineStart c text segments none others ih =>
    rcases text_mem_consText hcs with hcs | ⟨rest, rfl, hprefix, hrest⟩
    · exact ih hcs
    intro hinfix
    rcases List.infix_cons_iff.1 hinfix with hhead | hinfix
    · rw [others.sources_eq] at hprefix
      obtain ⟨after, hafter⟩ := hhead.trans ((List.prefix_cons_inj c).2 hprefix)
      have hfound := hm.marker?_append after
      rw [hafter, marker?_eq_none_of_slot? none] at hfound
      cases hfound
    · rcases hrest with rfl | hrest
      · obtain ⟨inner, rfl⟩ := hm.exists_inner
        cases List.eq_nil_of_infix_nil hinfix
      · exact ih hrest hinfix

theorem leftmost (h : Cuts atLineStart text segments) (before : List Char)
    (hbefore : atLineStart = true → LineBegins before) :
    Leftmost (before ++ text) before.length (markerSpans before.length segments) := by
  induction h generalizing before with
  | nil =>
    refine .none fun other hother => ?_
    obtain ⟨hlt, -⟩ := List.getElem?_eq_some_iff.1 hother.getElem?_start
    simpa using hlt
  | @slot atLineStart s rest segments found others ih =>
    have hstands := (Cuts.slot found others).standsFor before hbefore [] rfl
    obtain ⟨ending, hsource, hindent, hending⟩ := hstands.exists_ending
    have hrest := ih (before ++ s.source) (lineBegins_append hbefore _)
    rw [List.length_append, List.append_assoc] at hrest
    refine .next ⟨before ++ s.lineIndent.getD [], s.marker, ending ++ rest, ?_, ?_, ?_, hstands.1⟩
      (Nat.le_add_right _ _) (fun other hother hstart => ?_)
      (hrest.from_earlier ?_ fun other hother hstart => ?_)
    · simp [hsource]
    · simp
    · simp [Nat.add_assoc]
    · -- in the indentation no marker begins
      have hgap : other.In (before ++ s.lineIndent.getD [] ++ (s.marker ++ (ending ++ rest))) := by
        simpa [hsource] using hother
      simpa using hgap.le_start hindent hstart
    · simp only [hsource, List.length_append]
      omega
    · -- and none between the marker and the end of its line
      have hgap : other.In (before ++ s.lineIndent.getD [] ++ s.marker ++ ending ++ rest) := by
        simpa [hsource] using hother
      simpa [hsource, Nat.add_assoc] using
        hgap.le_start hending (by simpa [Nat.add_assoc] using hstart)
  | @text atLineStart c cs segments none others ih =>
    rw [markerSpans_consText]
    have hrest := ih (before ++ [c]) (fun hc => .inr (by simpa using hc))
    rw [List.length_append, List.length_singleton, List.append_assoc, List.singleton_append] at hrest
    refine hrest.from_earlier (Nat.le_succ _) fun other hother hstart => ?_
    rcases Nat.eq_or_lt_of_le hstart with hstart | hstart
    · obtain ⟨found, hfound⟩ := hother.marker? hstart
      rw [marker?_eq_none_of_slot? none] at hfound
      cases hfound
    · exact hstart

end Cuts

/-! ## Templates -/

/-- The segments that a template is cut into. -/
structure CutInto (template : List Char) (segments : List Segment) : Prop where
  /-- Put back in order, what they stand for is the template. -/
  sources_eq : sources segments = template
  /-- A slot stands for a marker, or for the line that a marker is alone on. -/
  standsFor : ∀ front s back, segments = front ++ .slot s :: back →
    s.StandsFor (sources front) (sources back)
  /-- No marker is in a text. -/
  markerless : ∀ cs, .text cs ∈ segments → ∀ name marker, IsMarker name marker → ¬ marker <:+: cs
  /-- The slots are the markers from left to right. -/
  leftmost : Leftmost template 0 (markerSpans 0 segments)

theorem cutInto_ofTemplate (title template : String) :
    CutInto template.toList (Document.ofTemplate title template).segments := by
  have hcuts := cuts_cut true 0 template.toList
  rw [List.drop_zero] at hcuts
  exact {
    sources_eq := hcuts.sources_eq
    standsFor := fun front s back h => hcuts.standsFor [] (fun _ => .inl rfl) front h
    markerless := fun cs hcs name marker hm => hcuts.text_markerless hcs hm
    leftmost := hcuts.leftmost [] fun _ => .inl rfl }

theorem CutInto.marker_infix {template : List Char} {segments : List Segment}
    (h : CutInto template segments) {s : Slot} (hs : .slot s ∈ segments) :
    IsMarker s.name s.marker ∧ s.marker <:+: template := by
  obtain ⟨front, back, hsegments⟩ := List.append_of_mem hs
  have hstands := h.standsFor front s back hsegments
  obtain ⟨ending, hsource, -, -⟩ := hstands.exists_ending
  refine ⟨hstands.1, sources front ++ s.lineIndent.getD [], ending ++ sources back, ?_⟩
  simp [← h.sources_eq, hsegments, sources, Segment.source, hsource]

/-- A template is read without loss: the texts and what the slots stand for are the template, no
text has a marker left in it, and the slots are all its markers from left to right.  A template
without markers is written out as it is. -/
theorem template_read (title template : String) :
    CutInto template.toList (Document.ofTemplate title template).segments ∧
      (markerSpans 0 (Document.ofTemplate title template).segments).map (·.name) =
        (Document.ofTemplate title template).slotNames ∧
      ((∀ name marker, IsMarker name marker → ¬ marker <:+: template.toList) →
        (Document.ofTemplate title template).render = template) := by
  have hcut := cutInto_ofTemplate title template
  refine ⟨hcut, map_name_markerSpans _ 0, fun hnone => ?_⟩
  have hsource : ∀ segment ∈ (Document.ofTemplate title template).segments,
      segment.render = segment.source := by
    intro segment hsegment
    cases segment with
    | text cs => rfl
    | slot s =>
      obtain ⟨hm, hinfix⟩ := hcut.marker_infix hsegment
      exact absurd hinfix (hnone _ _ hm)
  have hrender : (Document.ofTemplate title template).segments.flatMap Segment.render =
      template.toList := by
    rw [← hcut.sources_eq]
    exact List.flatMap_congr hsource
  rw [Document.render, hrender, String.ofList_toList]

theorem twoMarkers_read :
    let template := "a\n\t/* \x7b\x7bx\x7d\x7d */ \r\nb /*\x7b\x7by\x7d\x7d*/"
    let d := Document.ofTemplate "page" template
    CutInto template.toList d.segments ∧
      d.segments = [.text "a\n".toList,
        .slot ⟨"x", "\t/* \x7b\x7bx\x7d\x7d */ \r\n".toList, some ['\t'], []⟩, .text "b ".toList,
        .slot ⟨"y", "/*\x7b\x7by\x7d\x7d*/".toList, none, []⟩] ∧
      markerSpans 0 d.segments = [⟨"x", 3, 14⟩, ⟨"y", 19, 28⟩] ∧
      (Document.ofTemplate "page" "a * b\n").render = "a * b\n" := by
  refine ⟨(template_read "page" _).1, by decide +kernel, by decide +kernel,
    (template_read "page" "a * b\n").2.2 fun name marker hm hinfix => ?_⟩
  obtain ⟨inner, rfl⟩ := hm.exists_inner
  have hslash := hinfix.subset (List.mem_cons_self (a := '/'))
  revert hslash
  decide +kernel

end TypedRoutes.Template
