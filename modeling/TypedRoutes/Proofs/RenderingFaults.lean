import TypedRoutes.Proofs.ScopeNesting
import TypedRoutes.Proofs.TemplateReading

/-! # Why a document is not rendered

A document is refused for the first of its markers that the template lacks, and a client then also
for a directory without a name that has endpoints.  There is no other reason: the fragments take
whatever a tree and its options hold.
-/

namespace TypedRoutes.Template

/-! ## Markers that a template has -/

theorem MarkerSpan.In.unique {text : List Char} {span other : MarkerSpan} (h : span.In text)
    (hother : other.In text) (hstart : span.start = other.start) : span = other := by
  obtain ⟨before, marker, after, htext, hbefore, hstop, hm⟩ := h
  obtain ⟨before', marker', after', htext', hbefore', hstop', hm'⟩ := hother
  rw [htext, List.append_assoc, List.append_assoc] at htext'
  obtain ⟨rfl, hrest⟩ := List.append_inj htext' (by omega)
  have hfound := hm.marker?_append after
  rw [hrest, hm'.marker?_append after'] at hfound
  obtain ⟨hname, hlength⟩ := Prod.mk.inj (Option.some.inj hfound)
  obtain ⟨name, start, stop⟩ := span
  obtain ⟨name', start', stop'⟩ := other
  simp only [List.length_append] at hname hstop hstop' hstart
  simp only [MarkerSpan.mk.injEq]
  exact ⟨hname.symm, hstart, by omega⟩

theorem Leftmost.unique {text : List Char} {start : Nat} {spans others : List MarkerSpan}
    (h : Leftmost text start spans) (h' : Leftmost text start others) : spans = others := by
  induction h generalizing others with
  | none none =>
    cases h' with
    | none => rfl
    | next marker behind => exact absurd (none _ marker) (Nat.not_lt.2 behind)
  | next marker behind first rest ih =>
    cases h' with
    | none none => exact absurd (none _ marker) (Nat.not_lt.2 behind)
    | next marker' behind' first' rest' =>
      have hstart := Nat.le_antisymm (first _ marker' behind') (first' _ marker behind)
      obtain rfl := marker.unique marker' hstart
      rw [ih rest']

/-- One of the markers of a template, gone over from left to right, has the name. -/
def HasMarker (template name : String) : Prop :=
  ∃ spans, Leftmost template.toList 0 spans ∧ name ∈ spans.map (·.name)

theorem hasSlot_iff (title template name : String) :
    (Document.ofTemplate title template).hasSlot name = true ↔ HasMarker template name := by
  have hleftmost := (cutInto_ofTemplate title template).leftmost
  have hslot : (Document.ofTemplate title template).hasSlot name = true ↔
      name ∈ (markerSpans 0 (Document.ofTemplate title template).segments).map (·.name) := by
    rw [map_name_markerSpans, Document.hasSlot, List.contains_iff_mem]
  rw [hslot]
  constructor
  · intro hmem
    exact ⟨_, hleftmost, hmem⟩
  · rintro ⟨spans, hspans, hmem⟩
    rwa [hleftmost.unique hspans]

/-- The first of some names that a template has no marker of. -/
def LacksFirst (template : String) (names : List String) (name : String) : Prop :=
  ∃ before after, names = before ++ name :: after ∧
    (∀ other ∈ before, HasMarker template other) ∧ ¬HasMarker template name

/-- A document is refused for the first marker that its template lacks. -/
theorem require_eq_error_iff (title template : String) (names : List String) (fault : Fault) :
    (Document.ofTemplate title template).require names = .error fault ↔
      ∃ name, LacksFirst template names name ∧ fault = .missingMarker title name := by
  have hfind (name : String) :
      names.find? (fun m => !(Document.ofTemplate title template).hasSlot m) = some name ↔
        LacksFirst template names name := by
    rw [List.find?_eq_some_iff_append, LacksFirst]
    simp only [Bool.not_eq_true', Bool.not_not, ← hasSlot_iff title, Bool.not_eq_true]
    constructor
    · rintro ⟨hlacks, before, after, hnames, hbefore⟩
      exact ⟨before, after, hnames, hbefore, hlacks⟩
    · rintro ⟨before, after, hnames, hbefore, hlacks⟩
      exact ⟨hlacks, before, after, hnames, hbefore⟩
  simp only [← hfind]
  unfold Document.require
  cases names.find? fun m => !(Document.ofTemplate title template).hasSlot m with
  | none => simp
  | some name =>
    simp only [Except.error.injEq, Option.some.injEq, exists_eq_left']
    exact eq_comm

/-- Some marker is the first that is lacking exactly if one is lacking. -/
theorem exists_lacksFirst_iff (template : String) (names : List String) :
    (∃ name, LacksFirst template names name) ↔ ∃ name ∈ names, ¬HasMarker template name := by
  constructor
  · rintro ⟨name, before, after, rfl, -, hlacks⟩
    exact ⟨name, by simp, hlacks⟩
  · intro h
    induction names with
    | nil => simp at h
    | cons name names ih =>
      by_cases hname : HasMarker template name
      · have hothers : ∃ other ∈ names, ¬HasMarker template other := by simpa [hname] using h
        obtain ⟨first, before, after, rfl, hbefore, hlacks⟩ := ih hothers
        exact ⟨first, name :: before, after, rfl, by simpa [hname] using hbefore, hlacks⟩
      · exact ⟨name, [], names, rfl, by simp, hname⟩

end TypedRoutes.Template

namespace TypedRoutes.Route.Tree

def HasUnnamed (t : Tree) : Prop := ∃ u ∈ t.directories, u.endpointsInOrder ≠ [] ∧ u.name = none

theorem belowNamed_eq_false_iff (t : Tree) : t.belowNamed = false ↔ t.HasUnnamed := by
  have hempty (u : Tree) : u.isEmpty = false ↔ u.endpointsInOrder ≠ [] := by
    rw [← Bool.not_eq_true, isEmpty_iff]
  rw [← Bool.not_eq_true, belowNamed_iff, HasUnnamed]
  push Not
  simp only [hempty, Option.not_isSome_iff_eq_none]

end TypedRoutes.Route.Tree

namespace TypedRoutes.Render
open TypedRoutes.Route TypedRoutes.Template

theorem renderRouter_eq_error_iff (options : Options) (tree : Tree) (template : String)
    (fault : Fault) :
    renderRouter options tree template = .error fault ↔
      (Document.ofTemplate "server" template).require routerMarkers = .error fault := by
  cases hrequire : (Document.ofTemplate "server" template).require routerMarkers with
  | error e =>
    simp [renderRouter, fillRouter, hrequire, bind, Except.bind]
  | ok u =>
    obtain ⟨d, hfill, -⟩ := fillRouter_ok options tree "server" template
      ((Document.require_eq_ok_iff _ _).1 hrequire)
    obtain ⟨text, htext⟩ := finish_ok options d
    have hrender : renderRouter options tree template = .ok text := by
      rw [renderRouter, hfill, ← htext]
      rfl
    simp [hrender]

/-- A client is refused for its markers, and with all of them for a directory without a name. -/
theorem renderClient_eq_error_iff (options : Options) (tree : Tree) (template : String)
    (fault : Fault) :
    renderClient options tree template = .error fault ↔
      (Document.ofTemplate "client" template).require clientMarkers = .error fault ∨
        (Document.ofTemplate "client" template).require clientMarkers = .ok () ∧
          tree.HasUnnamed ∧ fault = unnamedFault := by
  rw [renderClient, fillClient_eq, ← Tree.belowNamed_eq_false_iff]
  cases (Document.ofTemplate "client" template).require clientMarkers with
  | error e => simp [bind, Except.bind]
  | ok u =>
    cases tree.belowNamed with
    | false => simp [bind, Except.bind, throw, throwThe, MonadExceptOf.throw, eq_comm]
    | true =>
      obtain ⟨text, htext⟩ :=
        finish_ok options (filledClient options tree (.ofTemplate "client" template))
      simp [bind, Except.bind, pure, Except.pure, htext]

/-- A router is refused exactly if its template lacks a marker, and a client exactly if its template
does or a directory with endpoints has no name.  A lacking marker comes before such a directory, and
the first one that is lacking is the fault.  No tree and no options make a fragment fail. -/
theorem rendering_fails_iff (options : Options) (tree : Tree) (template : String) :
    (∀ fault, renderRouter options tree template = .error fault ↔
      ∃ marker, LacksFirst template ["imports", "routes"] marker ∧
        fault = .missingMarker "server" marker) ∧
    (∀ fault, renderClient options tree template = .error fault ↔
      (∃ marker, LacksFirst template ["types", "functions"] marker ∧
        fault = .missingMarker "client" marker) ∨
      (HasMarker template "types" ∧ HasMarker template "functions") ∧ tree.HasUnnamed ∧
        fault = .codeGeneration "only the root of a route tree may be unnamed") ∧
    ((∃ fault, renderRouter options tree template = .error fault) ↔
      ¬HasMarker template "imports" ∨ ¬HasMarker template "routes") ∧
    ((∃ fault, renderClient options tree template = .error fault) ↔
      ¬HasMarker template "types" ∨ ¬HasMarker template "functions" ∨ tree.HasUnnamed) ∧
    ∀ message, renderRouter options tree template ≠ .error (.fragment message) ∧
      renderClient options tree template ≠ .error (.fragment message) := by
  have hrouter (fault : Fault) := (renderRouter_eq_error_iff options tree template fault).trans
    (require_eq_error_iff "server" template routerMarkers fault)
  have hclient : ∀ fault, renderClient options tree template = .error fault ↔
      (∃ marker, LacksFirst template clientMarkers marker ∧
        fault = .missingMarker "client" marker) ∨
      (HasMarker template "types" ∧ HasMarker template "functions") ∧ tree.HasUnnamed ∧
        fault = unnamedFault := by
    intro fault
    rw [renderClient_eq_error_iff, require_eq_error_iff, Document.require_eq_ok_iff]
    simp [clientMarkers, hasSlot_iff]
  refine ⟨hrouter, hclient, ?_, ?_, fun message => ⟨?_, ?_⟩⟩
  · simp only [hrouter]
    rw [exists_comm]
    simp only [exists_and_left, exists_eq, and_true, exists_lacksFirst_iff]
    simp [routerMarkers]
  · simp only [hclient, exists_or]
    rw [exists_comm]
    simp only [exists_and_left, exists_eq, and_true, exists_lacksFirst_iff]
    simp only [clientMarkers, List.mem_cons, List.not_mem_nil, or_false, exists_eq_or_imp,
      exists_eq_left]
    tauto
  · rw [Ne, hrouter]
    rintro ⟨marker, -, hfault⟩
    cases hfault
  · rw [Ne, hclient]
    rintro (⟨marker, -, hfault⟩ | ⟨-, -, hfault⟩)
    · cases hfault
    · cases hfault

end TypedRoutes.Render
