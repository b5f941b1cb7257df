import TypedRoutes.Route.Analysis
import Mathlib.Data.List.TakeWhile

/-! # What makes a module a handler

A module is a handler if its default export is a function with a name, and if the types of its first
parameter and of its promised result can be declared; where that is allowed it may be without
parameters.  Whatever comes of it, the module is released once, when all that is asked about it has
been answered.
-/

namespace TypedRoutes.Text

theorem trimChars_ne_nil {cs : List Char} (h : ∃ c ∈ cs, isWhitespace c = false) :
    trimChars cs ≠ [] := by
  intro hnil
  obtain ⟨c, hc, hvisible⟩ := h
  have hblank : ∀ d ∈ trimStartChars cs, isWhitespace d = true := by
    simpa [trimChars, trimEndChars, dropEndWhile, List.dropWhile_eq_nil_iff] using hnil
  -- what is left begins with a character that is none, unless it is empty
  have hnothing : trimStartChars cs = [] := by
    have hhead := List.head?_dropWhile_not isWhitespace cs
    cases hstart : trimStartChars cs with
    | nil => rfl
    | cons d ds =>
      have hd : isWhitespace d = true := hblank d (by simp [hstart])
      rw [← trimStartChars, hstart, List.head?_cons] at hhead
      simp [hd] at hhead
  have hall : ∀ d ∈ cs, isWhitespace d = true := by
    simpa [trimStartChars, List.dropWhile_eq_nil_iff] using hnothing
  rw [hall c hc] at hvisible
  cases hvisible

theorem isBlankText_eq_false_iff (s : String) :
    isBlankText s = false ↔ ∃ c ∈ s.toList, isWhitespace c = false := by
  simp [isBlankText]

end TypedRoutes.Text

namespace TypedRoutes.Naming
open TypedRoutes.Text

theorem lastSegment_ne_nil {name : List Char} (h : name ≠ []) : lastSegment name ≠ [] := by
  unfold lastSegment
  dsimp only
  split
  · exact h
  · rename_i hkept
    rw [Bool.or_eq_true, not_or] at hkept
    simpa using hkept.1

theorem stripQualifier_ne_empty {text : String}
    (h : ∃ c ∈ text.toList, isWhitespace c = false) : stripQualifier text ≠ "" := by
  intro hempty
  have hnil := congrArg String.toList hempty
  rw [stripQualifier, String.toList_ofList] at hnil
  exact lastSegment_ne_nil (trimChars_ne_nil h) hnil

theorem synthesizedName_ne_empty (functionName : String) (role : TypeRole) :
    synthesizedName functionName role ≠ "" := by
  intro hempty
  have hlength := congrArg (fun s : String => s.toList.length) hempty
  cases role <;> simp [synthesizedName, TypeRole.suffix] at hlength

end TypedRoutes.Naming

namespace TypedRoutes.Route
open TypedRoutes.Text TypedRoutes.Naming

namespace Analysis
variable {σ : Type} (a : Analysis σ)

/-! ## Types that can be declared -/

/-- A type is written out, and if it is a name there is a declaration for it. -/
structure Declarable (state : σ) (resolved : ResolvedType) : Prop where
  written : ∃ c ∈ resolved.text.toList, isWhitespace c = false
  declared : ∀ symbol, resolved.symbol = some symbol →
    ∃ text, a.declarationText symbol state = some text

/-- What a type is declared as: a name under its last part by its own declaration, anything else by
an alias that is named after the function. -/
structure Declares (state : σ) (functionName : String) (role : TypeRole) (resolved : ResolvedType)
    (info : TypeInfo) : Prop where
  name_ne_empty : info.name ≠ ""
  own : ∀ symbol, resolved.symbol = some symbol → info.name = stripQualifier resolved.text ∧
    a.declarationText symbol state = some info.declaration
  synthesized : resolved.symbol = none → info.name = synthesizedName functionName role ∧
    info.declaration = aliasDeclaration info.name resolved.text

variable {a} {state : σ} {functionName : String} {role : TypeRole} {resolved : ResolvedType}
  {info : TypeInfo}

theorem typeInfo_eq_some_iff : a.typeInfo state functionName role resolved = some info ↔
    a.Declarable state resolved ∧ a.Declares state functionName role resolved info := by
  obtain ⟨text, symbol⟩ := resolved
  obtain ⟨name, declaration⟩ := info
  cases hblank : isBlankText text with
  | true =>
    have hnone : ¬∃ c ∈ text.toList, isWhitespace c = false := by
      rw [← isBlankText_eq_false_iff, hblank]
      decide
    rw [typeInfo, hblank, if_pos rfl]
    exact ⟨nofun, fun h => absurd h.1.written hnone⟩
  | false =>
    have hwritten := (isBlankText_eq_false_iff text).1 hblank
    rw [typeInfo, hblank, if_neg Bool.false_ne_true]
    cases symbol with
    | none =>
      simp only [Option.some.injEq, TypeInfo.mk.injEq]
      constructor
      · rintro ⟨rfl, rfl⟩
        exact ⟨⟨hwritten, nofun⟩, synthesizedName_ne_empty functionName role, nofun,
          fun _ => ⟨rfl, rfl⟩⟩
      · rintro ⟨-, h⟩
        obtain ⟨hname, hdeclaration⟩ := h.synthesized rfl
        exact ⟨hname.symm, (hname ▸ hdeclaration).symm⟩
    | some s =>
      simp only [Option.map_eq_some_iff, TypeInfo.mk.injEq]
      constructor
      · rintro ⟨found, hfound, rfl, rfl⟩
        refine ⟨⟨hwritten, ?_⟩, stripQualifier_ne_empty hwritten, ?_, nofun⟩
        · rintro _ ⟨⟩
          exact ⟨found, hfound⟩
        · rintro _ ⟨⟩
          exact ⟨rfl, hfound⟩
      · rintro ⟨-, h⟩
        obtain ⟨hname, hfound⟩ := h.own s rfl
        exact ⟨declaration, hfound, hname.symm, rfl⟩

theorem Declarable.exists_typeInfo (h : a.Declarable state resolved) (functionName : String)
    (role : TypeRole) : ∃ info, a.typeInfo state functionName role resolved = some info := by
  have hwritten := (isBlankText_eq_false_iff _).2 h.written
  rw [typeInfo, hwritten, if_neg Bool.false_ne_true]
  cases hsymbol : resolved.symbol with
  | none => exact ⟨_, rfl⟩
  | some symbol =>
    obtain ⟨text, htext⟩ := h.declared symbol hsymbol
    exact ⟨⟨stripQualifier resolved.text, text⟩, by simp only [htext, Option.map_some]⟩

/-! ## Functions that handle requests -/

variable (a)

/-- What a default export has to be for its module to be a handler. -/
structure Handles (allow : Bool) (file : String) (state : σ) (f : FunctionRef) : Prop where
  named : ∃ name, f.name = some name ∧ name ≠ ""
  parameter : (∃ resolved, a.parameterType f 0 state = some resolved ∧
      a.Declarable state resolved) ∨
    a.parameterType f 0 state = none ∧ f.parameterCount = 0 ∧ allow = true
  result : ∃ resolved, a.returnTypeArgument f state = some resolved ∧ a.Declarable state resolved
  placed : ∃ name, Path.fileName? file = some name

/-- An endpoint says what a function is: it has a body exactly if there is a type of a first
parameter. -/
structure Describes (file : String) (segments : List String) (state : σ) (f : FunctionRef)
    (e : Endpoint) : Prop where
  segments_eq : e.pathSegments = segments
  name : f.name = some e.functionName
  source : Path.fileName? file = some e.sourceFileName
  body : e.body = none ∧ a.parameterType f 0 state = none ∨
    ∃ info resolved, e.body = some info ∧ a.parameterType f 0 state = some resolved ∧
      a.Declares state e.functionName .body resolved info
  returns : ∃ resolved, a.returnTypeArgument f state = some resolved ∧
    a.Declares state e.functionName .response resolved e.returns

variable {a} {allow : Bool} {file : String} {segments : List String} {f : FunctionRef}
  {e : Endpoint}

theorem bodyType_eq_typed_iff : a.bodyType allow state f functionName = .typed info ↔
    ∃ resolved, a.parameterType f 0 state = some resolved ∧
      a.typeInfo state functionName .body resolved = some info := by
  unfold bodyType
  cases a.parameterType f 0 state with
  | none => by_cases h : (allow && decide (f.parameterCount = 0)) = true <;> simp [h]
  | some resolved => cases h : a.typeInfo state functionName .body resolved <;> simp [h]

theorem bodyType_eq_parameterless_iff :
    a.bodyType allow state f functionName = .parameterless ↔
      a.parameterType f 0 state = none ∧ f.parameterCount = 0 ∧ allow = true := by
  unfold bodyType
  cases a.parameterType f 0 state with
  | none => cases allow <;> simp
  | some resolved => cases h : a.typeInfo state functionName .body resolved <;> simp [h]

private theorem completed_eq_some_iff (made : Option TypeInfo) :
    (do
      let returns ← (a.returnTypeArgument f state).bind (a.typeInfo state functionName .response)
      let sourceFileName ← Path.fileName? file
      return ({ pathSegments := segments, functionName, sourceFileName, body := made, returns } :
        Endpoint)) = some e ↔
      (∃ resolved, a.returnTypeArgument f state = some resolved ∧
        a.typeInfo state functionName .response resolved = some e.returns) ∧
      Path.fileName? file = some e.sourceFileName ∧ e.pathSegments = segments ∧
      e.functionName = functionName ∧ e.body = made := by
  simp only [Option.bind_eq_bind, Option.bind_eq_some_iff, Option.pure_def]
  constructor
  · rintro ⟨returns, hreturns, source, hsource, ⟨⟩⟩
    exact ⟨hreturns, hsource, rfl, rfl, rfl⟩
  · obtain ⟨pathSegments, functionName, sourceFileName, body, returns⟩ := e
    rintro ⟨hreturns, hsource, rfl, rfl, rfl⟩
    exact ⟨returns, hreturns, sourceFileName, hsource, rfl⟩

theorem endpointOf_eq_some_steps :
    a.endpointOf allow file segments state f = some e ↔
      f.name = some e.functionName ∧ e.functionName ≠ "" ∧
      (e.body = none ∧ a.bodyType allow state f e.functionName = .parameterless ∨
        ∃ info, e.body = some info ∧ a.bodyType allow state f e.functionName = .typed info) ∧
      (∃ resolved, a.returnTypeArgument f state = some resolved ∧
        a.typeInfo state e.functionName .response resolved = some e.returns) ∧
      Path.fileName? file = some e.sourceFileName ∧ e.pathSegments = segments := by
  have hcompleted (name : String) := @completed_eq_some_iff σ a state name file segments f e
  unfold endpointOf
  cases hname : f.name with
  | none => simp
  | some name =>
    by_cases hempty : name = ""
    · subst hempty
      constructor
      · intro h
        simp at h
      · rintro ⟨hsame, hne, -⟩
        exact absurd (Option.some.inj hsame).symm hne
    · have hfull : name.isEmpty = false := by simpa using hempty
      simp only [Option.bind_eq_bind, Option.bind_some, hfull, Bool.false_eq_true, if_false]
      constructor
      · intro h
        split at h
        · rename_i info hbody
          obtain ⟨hreturns, hsource, hsegments, rfl, hmade⟩ := (hcompleted _ _).1 h
          exact ⟨rfl, hempty, .inr ⟨info, hmade, hbody⟩, hreturns, hsource, hsegments⟩
        · rename_i hbody
          obtain ⟨hreturns, hsource, hsegments, rfl, hmade⟩ := (hcompleted _ _).1 h
          exact ⟨rfl, hempty, .inl ⟨hmade, hbody⟩, hreturns, hsource, hsegments⟩
        · cases h
      · rintro ⟨hsame, -, hbody, hreturns, hsource, hsegments⟩
        obtain rfl := Option.some.inj hsame
        rcases hbody with ⟨hmade, hbody⟩ | ⟨info, hmade, hbody⟩
        · rw [hbody]
          exact (hcompleted _ none).2 ⟨hreturns, hsource, hsegments, rfl, hmade⟩
        · rw [hbody]
          exact (hcompleted _ (some info)).2 ⟨hreturns, hsource, hsegments, rfl, hmade⟩

/-- A function has an endpoint exactly if it handles requests, and the endpoint is its
description. -/
theorem endpointOf_eq_some_iff : a.endpointOf allow file segments state f = some e ↔
    a.Handles allow file state f ∧ a.Describes file segments state f e := by
  rw [endpointOf_eq_some_steps]
  simp only [bodyType_eq_typed_iff, bodyType_eq_parameterless_iff, typeInfo_eq_some_iff]
  constructor
  · rintro ⟨hname, hne, hbody, ⟨result, hresult, hdeclarable, hreturns⟩, hsource, hsegments⟩
    refine ⟨⟨⟨_, hname, hne⟩, ?_, ⟨result, hresult, hdeclarable⟩, ⟨_, hsource⟩⟩,
      ⟨hsegments, hname, hsource, ?_, ⟨result, hresult, hreturns⟩⟩⟩
    · rcases hbody with ⟨-, hnone⟩ | ⟨info, -, resolved, hresolved, hparameter, -⟩
      · exact .inr hnone
      · exact .inl ⟨resolved, hresolved, hparameter⟩
    · rcases hbody with ⟨hmade, hnone, -⟩ | ⟨info, hmade, resolved, hresolved, -, hinfo⟩
      · exact .inl ⟨hmade, hnone⟩
      · exact .inr ⟨info, resolved, hmade, hresolved, hinfo⟩
  · rintro ⟨hhandles, hdescribes⟩
    obtain ⟨name, hname, hne⟩ := hhandles.named
    obtain rfl := Option.some.inj (hname.symm.trans hdescribes.name)
    obtain ⟨result, hresult, hreturns⟩ := hdescribes.returns
    obtain ⟨result', hresult', hdeclarable⟩ := hhandles.result
    obtain rfl := Option.some.inj (hresult.symm.trans hresult')
    refine ⟨hname, hne, ?_, ⟨result, hresult, hdeclarable, hreturns⟩, hdescribes.source,
      hdescribes.segments_eq⟩
    rcases hdescribes.body with ⟨hmade, hnone⟩ | ⟨info, resolved, hmade, hresolved, hinfo⟩
    · rcases hhandles.parameter with ⟨resolved, hresolved, -⟩ | hparameterless
      · cases hnone.symm.trans hresolved
      · exact .inl ⟨hmade, hparameterless⟩
    · rcases hhandles.parameter with ⟨resolved', hresolved', hparameter⟩ | ⟨hnone, -⟩
      · obtain rfl := Option.some.inj (hresolved.symm.trans hresolved')
        exact .inr ⟨info, hmade, resolved, hresolved, hparameter, hinfo⟩
      · cases hnone.symm.trans hresolved

theorem Handles.exists_endpointOf (h : a.Handles allow file state f) (segments : List String) :
    ∃ e, a.endpointOf allow file segments state f = some e := by
  obtain ⟨name, hname, hne⟩ := h.named
  obtain ⟨result, hresult, hdeclarable⟩ := h.result
  obtain ⟨source, hsource⟩ := h.placed
  obtain ⟨returns, hreturns⟩ := hdeclarable.exists_typeInfo name .response
  rcases h.parameter with ⟨parameter, hparameter, hbody⟩ | hnone
  · obtain ⟨info, hinfo⟩ := hbody.exists_typeInfo name .body
    exact ⟨⟨segments, name, source, some info, returns⟩, endpointOf_eq_some_steps.2
      ⟨hname, hne, .inr ⟨info, rfl, bodyType_eq_typed_iff.2 ⟨parameter, hparameter, hinfo⟩⟩,
        ⟨result, hresult, hreturns⟩, hsource, rfl⟩⟩
  · exact ⟨⟨segments, name, source, none, returns⟩, endpointOf_eq_some_steps.2
      ⟨hname, hne, .inl ⟨rfl, bodyType_eq_parameterless_iff.2 hnone⟩,
        ⟨result, hresult, hreturns⟩, hsource, rfl⟩⟩

/-! ## Inspections -/

theorem extract_eq_error_iff {fault : Fault} :
    (a.extract allow file segments state).1 = .error fault ↔
      (a.exportedDefault file state).1 = .error fault := by
  unfold extract
  rcases a.exportedDefault file state with ⟨fault' | _ | found, looked⟩
  · simp
  · simp
  · cases found <;> simp

theorem extract_eq_some_iff :
    (a.extract allow file segments state).1 = .ok (some e) ↔
      ∃ f, (a.exportedDefault file state).1 = .ok (some (.function f)) ∧
        a.endpointOf allow file segments (a.exportedDefault file state).2 f = some e := by
  unfold extract
  rcases a.exportedDefault file state with ⟨fault | _ | found, looked⟩
  · simp
  · simp
  · cases found <;> simp

theorem state_extract : (a.extract allow file segments state).2 =
    a.release file (a.exportedDefault file state).2 := rfl

variable (a)

/-- The analysis beside a list of the files that have been released; after the first of them it
knows nothing any more. -/
def watched : Analysis (σ × List String) where
  exportedDefault file s :=
    if s.2.isEmpty then ((a.exportedDefault file s.1).1, (a.exportedDefault file s.1).2, s.2)
    else (.ok none, s)
  parameterType f index s := if s.2.isEmpty then a.parameterType f index s.1 else none
  returnTypeArgument f s := if s.2.isEmpty then a.returnTypeArgument f s.1 else none
  declarationText symbol s := if s.2.isEmpty then a.declarationText symbol s.1 else none
  release file s := (a.release file s.1, s.2 ++ [file])

theorem extract_watched (allow : Bool) (file : String) (segments : List String) (state : σ) :
    a.watched.extract allow file segments (state, []) =
      ((a.extract allow file segments state).1, (a.extract allow file segments state).2,
        [file]) := by
  unfold extract
  simp only [watched, List.isEmpty_nil, if_true, List.nil_append]
  rfl

variable {a}

/-- Without leave to be without parameters there are the endpoints that have a body, and no
others. -/
theorem endpointOf_eq_filter : a.endpointOf false file segments state f =
    (a.endpointOf true file segments state f).filter (·.body.isSome) := by
  have htyped (e : Endpoint) :
      (e.body = none ∧ a.bodyType false state f e.functionName = .parameterless ∨
        ∃ info, e.body = some info ∧ a.bodyType false state f e.functionName = .typed info) ↔
      (e.body = none ∧ a.bodyType true state f e.functionName = .parameterless ∨
        ∃ info, e.body = some info ∧ a.bodyType true state f e.functionName = .typed info) ∧
      e.body.isSome = true := by
    simp only [bodyType_eq_typed_iff, bodyType_eq_parameterless_iff]
    cases e.body <;> simp
  apply Option.ext
  intro e
  rw [Option.filter_eq_some_iff, endpointOf_eq_some_steps, endpointOf_eq_some_steps, htyped]
  constructor
  · rintro ⟨hname, hne, ⟨hbody, hsome⟩, hrest⟩
    exact ⟨⟨hname, hne, hbody, hrest⟩, hsome⟩
  · rintro ⟨⟨hname, hne, hbody, hrest⟩, hsome⟩
    exact ⟨hname, hne, ⟨hbody, hsome⟩, hrest⟩

theorem extract_eq_filter : (a.extract false file segments state).1 =
    (a.extract true file segments state).1.map (·.filter (·.body.isSome)) := by
  unfold extract
  rcases a.exportedDefault file state with ⟨fault | _ | found, looked⟩
  · rfl
  · rfl
  · cases found with
    | function f => exact congrArg Except.ok endpointOf_eq_filter
    | _ => rfl

/-- A module is refused with the fault of reading it and with no other, and it holds an endpoint
exactly if its default export handles requests, the endpoint that describes it, with names for its
types.  Whatever comes of it, the module is released once and after that nothing is asked.  Without
leave to be without parameters the endpoints that have no body are left out, and nothing else
changes. -/
theorem extraction_exact (a : Analysis σ) (allow : Bool) (file : String) (segments : List String)
    (state : σ) :
    let found := (a.exportedDefault file state).1
    let looked := (a.exportedDefault file state).2
    let result := a.extract allow file segments state
    (∀ fault, result.1 = .error fault ↔ found = .error fault) ∧
    ((∃ e, result.1 = .ok (some e)) ↔
      ∃ f, found = .ok (some (.function f)) ∧ a.Handles allow file looked f) ∧
    (∀ e, result.1 = .ok (some e) ↔ ∃ f, found = .ok (some (.function f)) ∧
      a.Handles allow file looked f ∧ a.Describes file segments looked f e) ∧
    (result.2 = a.release file looked ∧
      a.watched.extract allow file segments (state, []) = (result.1, result.2, [file])) ∧
    ((a.extract false file segments state).1 =
        (a.extract true file segments state).1.map (·.filter (·.body.isSome)) ∧
      (a.extract false file segments state).2 = (a.extract true file segments state).2) := by
  intro found looked result
  have hdescribed (e : Endpoint) : result.1 = .ok (some e) ↔
      ∃ f, found = .ok (some (.function f)) ∧ a.Handles allow file looked f ∧
        a.Describes file segments looked f e := by
    simp only [result, extract_eq_some_iff, endpointOf_eq_some_iff, found, looked]
  refine ⟨fun fault => extract_eq_error_iff, ?_, hdescribed,
    ⟨state_extract, a.extract_watched allow file segments state⟩, extract_eq_filter, rfl⟩
  constructor
  · rintro ⟨e, he⟩
    obtain ⟨f, hfound, hhandles, -⟩ := (hdescribed e).1 he
    exact ⟨f, hfound, hhandles⟩
  · rintro ⟨f, hfound, hhandles⟩
    obtain ⟨e, he⟩ := hhandles.exists_endpointOf segments
    exact ⟨e, extract_eq_some_iff.2 ⟨f, hfound, he⟩⟩

end Analysis

end TypedRoutes.Route
