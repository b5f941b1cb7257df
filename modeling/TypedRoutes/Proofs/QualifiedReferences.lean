import TypedRoutes.Proofs.DeclarationLookup

/-! # References through a namespace

A reference to a type in a namespace is known by its last name only.  So it finds the declaration
in the module that the namespace stands for exactly if that one is also what the bare name reaches.
-/

namespace TypedRoutes.Route
open TypedRoutes.Naming

namespace Analysis
variable {σ : Type} (a : Analysis σ)

def typeAt (role : TypeRole) (f : FunctionRef) (state : σ) : Option ResolvedType :=
  match role with
  | .body => a.parameterType f 0 state
  | .response => a.returnTypeArgument f state

def Finds (state : σ) (resolved : ResolvedType) (text : String) : Prop :=
  ∃ symbol, resolved.symbol = some symbol ∧ a.declarationText symbol state = some text

/-- A type has a symbol for which there is no declaration. -/
def Misses (state : σ) (resolved : ResolvedType) : Prop :=
  ∃ symbol, resolved.symbol = some symbol ∧ a.declarationText symbol state = none

variable {a}

theorem typeInfo_of_misses {state : σ} {resolved : ResolvedType} (h : a.Misses state resolved)
    (functionName : String) (role : TypeRole) :
    a.typeInfo state functionName role resolved = none := by
  obtain ⟨symbol, hsymbol, hnone⟩ := h
  simp [typeInfo, hsymbol, hnone]

/-- A function one of whose types has no declaration is no handler. -/
theorem endpointOf_of_misses {role : TypeRole} {f : FunctionRef} {state : σ}
    {resolved : ResolvedType} (htype : a.typeAt role f state = some resolved)
    (h : a.Misses state resolved) (allow : Bool) (file : String) (segments : List String) :
    a.endpointOf allow file segments state f = none := by
  unfold endpointOf
  cases f.name with
  | none => rfl
  | some functionName =>
    simp only [Option.bind_eq_bind, Option.bind_some]
    split
    · rfl
    cases role with
    | body =>
      have hbody : a.bodyType allow state f functionName = .unusable := by
        simp only [typeAt] at htype
        simp [bodyType, htype, typeInfo_of_misses h]
      simp [hbody]
    | response =>
      simp only [typeAt] at htype
      simp only [htype, Option.bind_some, typeInfo_of_misses h, Option.bind_none]
      cases a.bodyType allow state f functionName <;> rfl

end Analysis

end TypedRoutes.Route

namespace TypedRoutes.Script
open TypedRoutes.Naming TypedRoutes.Route

def Signature.typeAt (s : Signature) : TypeRole → Option TypeNode
  | .body => s.handlerParameters.head?.bind fun p => p.annotation
  | .response => s.promisedType?

theorem file_of_findDefaultExport {m : ParsedModule} {file : String} {f : FunctionRef}
    {signature : Option Signature} (h : findDefaultExport m file = some (.function f, signature)) :
    f.file = file := by
  obtain ⟨item, -, hitem⟩ := List.exists_of_findSome?_eq_some h
  cases item with
  | defaultFunction name s => cases name <;> cases hitem; rfl
  | defaultExpression shape =>
    cases shape with
    | identifier name =>
      simp only at hitem
      split at hitem <;> cases hitem
      rfl
    | _ => cases hitem
  | exportNames names =>
    simp only at hitem
    split at hitem <;> cases hitem
  | _ => cases hitem

theorem Analyzer.factsOf_keep (a : Analyzer) (file : String) (facts : Facts) :
    (a.keep file facts).factsOf file = some facts := by
  simp [Analyzer.factsOf, Analyzer.keep]

section
variable {files : FileTree} {directory : Location} {file : String} {m : ParsedModule}
  {f : FunctionRef} {s : Signature}

/-- What the analysis knows of a function after it has read the module that exports it. -/
theorem exportedDefault_function (hm : loadModule files directory file = .ok m)
    (hf : findDefaultExport m file = some (.function f, some s)) (state : Analyzer) :
    let a := Analyzer.analysis files directory
    (a.exportedDefault file state).1 = .ok (some (.function f)) ∧
      (∀ role, a.typeAt role f (a.exportedDefault file state).2 =
        (s.typeAt role).map (resolveType m file (reachable files directory file m))) ∧
      ∀ name, a.declarationText ⟨file, name⟩ (a.exportedDefault file state).2 =
        reached? files directory file m name := by
  have hfile := file_of_findDefaultExport hf
  have hread : (Analyzer.analysis files directory).exportedDefault file state =
      (.ok (some (.function f)),
        state.keep file (exportFacts files directory file m (.function f) (some s))) := by
    simp only [Analyzer.analysis, Analyzer.exportedDefault, collect_eq hm hf, exportFacts]
  intro a
  rw [hread]
  refine ⟨rfl, fun role => ?_, fun name => ?_⟩
  · cases role with
    | body =>
      cases hp : s.handlerParameters <;>
        simp [a, Analysis.typeAt, Analyzer.analysis, Analyzer.parameterType, hfile,
          Analyzer.factsOf_keep, Signature.typeAt, exportFacts, hp]
    | response =>
      simp [a, Analysis.typeAt, Analyzer.analysis, Analyzer.returnTypeArgument, hfile,
        Analyzer.factsOf_keep, Signature.typeAt, exportFacts]
  · simp [a, Analyzer.analysis, Analyzer.declarationText, Analyzer.factsOf_keep, exportFacts,
      lookup_reachable]

/-- The type that a reference in a namespace is taken for. -/
theorem resolveType_qualified (span : Span) (qualifier name : String) :
    resolveType m file (reachable files directory file m)
        (.reference span [qualifier, name] none) =
      if isGlobalType name && (reached? files directory file m name).isNone then
        ⟨m.textOf span, none⟩
      else ⟨m.textOf span, some ⟨file, name⟩⟩ := by
  simp [resolveType, TypeNode.span, lookup_reachable]

/-- A reference in a namespace finds the declaration in the module that the namespace stands for
exactly if this declaration is the one that the bare name reaches.  A reference for which there is
none has a symbol without a declaration, and its function is no handler, exactly if the bare name
reaches nothing and is not one of the standard library. -/
theorem qualified_found_iff (hm : loadModule files directory file = .ok m)
    (hf : findDefaultExport m file = some (.function f, some s)) (role : TypeRole) {span : Span}
    {qualifier name : String} (htype : s.typeAt role = some (.reference span [qualifier, name] none))
    (allow : Bool) (segments : List String) (state : Analyzer) :
    let a := Analyzer.analysis files directory
    let known := (a.exportedDefault file state).2
    ∃ resolved, a.typeAt role f known = some resolved ∧ resolved.text = m.textOf span ∧
      (∀ target text, StandsFor files directory file m qualifier target →
        target.declared? name = some text →
        (a.Finds known resolved text ↔ reached? files directory file m name = some text)) ∧
      ((∀ target, StandsFor files directory file m qualifier target →
          target.declared? name = none) →
        (a.Misses known resolved ∧ (a.extract allow file segments state).1 = .ok none ↔
          reached? files directory file m name = none ∧ isGlobalType name = false)) := by
  intro a known
  obtain ⟨hexport, htypes, htexts⟩ := exportedDefault_function hm hf state
  have hresolved := htypes role
  rw [htype, Option.map_some, resolveType_qualified] at hresolved
  refine ⟨_, hresolved, by split <;> rfl, fun target text _ _ => ?_, fun _ => ⟨?_, ?_⟩⟩
  · constructor
    · rintro ⟨symbol, hsymbol, htext⟩
      split at hsymbol
      · cases hsymbol
      · cases hsymbol
        rwa [htexts] at htext
    · intro hreached
      exact ⟨⟨file, name⟩, by simp [hreached], by rw [htexts, hreached]⟩
  · rintro ⟨⟨symbol, hsymbol, hnone⟩, -⟩
    split at hsymbol
    · cases hsymbol
    · rename_i hglobal
      cases hsymbol
      rw [htexts] at hnone
      exact ⟨hnone, by simpa [hnone] using hglobal⟩
  · rintro ⟨hnone, hglobal⟩
    have hmisses : a.Misses known ⟨m.textOf span, some ⟨file, name⟩⟩ :=
      ⟨⟨file, name⟩, rfl, by rw [htexts, hnone]⟩
    rw [hglobal, Bool.false_and, if_neg Bool.false_ne_true] at hresolved ⊢
    refine ⟨hmisses, ?_⟩
    have hextract : (a.extract allow file segments state).1 =
        .ok (a.endpointOf allow file segments known f) := by
      simp only [Analysis.extract, a, known, hexport]
    rw [hextract, Analysis.endpointOf_of_misses hresolved hmisses]

end

/-! ## Two modules with a type of one name -/

/-- Two modules that declare a type of one name, and a handler that refers to both modules. -/
def sharedTypeName : FileTree where
  nodes :=
    [(["a.ts"], .file (.text "export type Item = A;\nexport type User = U;")),
     (["b.ts"], .file (.text "export type Item = B;")),
     (["list.ts"], .file (.text ("import * as a from './a';\nimport * as b from './b';\n" ++
       "export default async function list(body: b.Item): Promise<a.User> {}")))]

private def qualified? : TypeNode → Option (String × String)
  | .reference _ [qualifier, name] none => some (qualifier, name)
  | _ => none

private theorem qualified?_eq_some {type : TypeNode} {qualifier name : String}
    (h : qualified? type = some (qualifier, name)) :
    ∃ span, type = .reference span [qualifier, name] none := by
  unfold qualified? at h
  split at h
  · cases h
    exact ⟨_, rfl⟩
  · cases h

private theorem sharedTypeName_signature :
    ((loadModule sharedTypeName [] "list.ts").toOption.bind fun m =>
      (findDefaultExport m "list.ts").bind fun (found, signature) => signature.map fun s =>
        (found, (s.typeAt .body).bind qualified?, (s.typeAt .response).bind qualified?)) =
      some (.function ⟨"list.ts", some "list", 1⟩, some ("b", "Item"), some ("a", "User")) := by
  decide +kernel

private theorem sharedTypeName_imports :
    ((loadModule sharedTypeName [] "list.ts").toOption.map fun m =>
      (m.ownDeclarations, (imports sharedTypeName [] "list.ts" m).map fun (target, specifier) =>
        (specifier, target.ownDeclarations))) =
      some ([],
        [(.whole "a", [("User", "export type User = U;"), ("Item", "export type Item = A;")]),
         (.whole "b", [("Item", "export type Item = B;")])]) := by
  decide +kernel

private theorem sharedTypeName_module :
    ∃ m f s, loadModule sharedTypeName [] "list.ts" = .ok m ∧
      findDefaultExport m "list.ts" = some (.function f, some s) ∧
      (∃ span, s.typeAt .body = some (.reference span ["b", "Item"] none)) ∧
      (∃ span, s.typeAt .response = some (.reference span ["a", "User"] none)) ∧
      ∃ a b, StandsFor sharedTypeName [] "list.ts" m "a" a ∧
        StandsFor sharedTypeName [] "list.ts" m "b" b ∧
        a.declared? "User" = some "export type User = U;" ∧
        b.declared? "Item" = some "export type Item = B;" ∧
        reached? sharedTypeName [] "list.ts" m "User" = some "export type User = U;" ∧
        reached? sharedTypeName [] "list.ts" m "Item" = some "export type Item = A;" := by
  have hsignature := sharedTypeName_signature
  have himports := sharedTypeName_imports
  cases hm : loadModule sharedTypeName [] "list.ts" with
  | error e =>
    rw [hm] at himports
    cases himports
  | ok m =>
    rw [hm] at hsignature himports
    simp only [Except.toOption, Option.bind_some, Option.bind_eq_some_iff, Option.map_eq_some_iff,
      Prod.mk.injEq] at hsignature
    obtain ⟨⟨found, signature⟩, hfound, s, rfl, rfl, ⟨body, hbody, hbodyName⟩, response,
      hresponse, hresponseName⟩ := hsignature
    obtain ⟨bodySpan, rfl⟩ := qualified?_eq_some hbodyName
    obtain ⟨responseSpan, rfl⟩ := qualified?_eq_some hresponseName
    simp only [Except.toOption, Option.map_some, Option.some.injEq, Prod.mk.injEq] at himports
    obtain ⟨hown, himports⟩ := himports
    obtain ⟨⟨a, specifierA⟩, rest, himports, ha, hrest⟩ := List.map_eq_cons_iff.1 himports
    obtain ⟨⟨b, specifierB⟩, rest, rfl, hb, hrest⟩ := List.map_eq_cons_iff.1 hrest
    obtain rfl := List.map_eq_nil_iff.1 hrest
    obtain ⟨rfl, ha⟩ := Prod.mk.inj ha
    obtain ⟨rfl, hb⟩ := Prod.mk.inj hb
    refine ⟨m, _, s, rfl, hfound, ⟨bodySpan, hbody⟩, ⟨responseSpan, hresponse⟩, a, b, ?_⟩
    simp [StandsFor, reached?, himports, ImportSpecifier.provided?, ParsedModule.declared?, hown, ha,
      hb, List.lookup_cons]

theorem sharedTypeName_user_found :
    ∃ m f s span target,
      loadModule sharedTypeName [] "list.ts" = .ok m ∧
      findDefaultExport m "list.ts" = some (.function f, some s) ∧
      s.typeAt .response = some (.reference span ["a", "User"] none) ∧
      StandsFor sharedTypeName [] "list.ts" m "a" target ∧
      target.declared? "User" = some "export type User = U;" ∧
      let a := Analyzer.analysis sharedTypeName []
      let known := (a.exportedDefault "list.ts" {}).2
      ∃ resolved, a.typeAt .response f known = some resolved ∧
        a.Finds known resolved "export type User = U;" := by
  obtain ⟨m, f, s, hm, hf, -, ⟨span, htype⟩, target, -, hstands, -, hdeclared, -, hreached, -⟩ :=
    sharedTypeName_module
  obtain ⟨resolved, hresolved, -, hfound, -⟩ :=
    qualified_found_iff hm hf .response htype true [] {}
  exact ⟨m, f, s, span, target, hm, hf, htype, hstands, hdeclared, resolved, hresolved,
    (hfound target _ hstands hdeclared).2 hreached⟩

/-- The second namespace has the type too, but its reference finds the declaration in the first. -/
theorem sharedTypeName_item_mistaken :
    ∃ m f s span target,
      loadModule sharedTypeName [] "list.ts" = .ok m ∧
      findDefaultExport m "list.ts" = some (.function f, some s) ∧
      s.typeAt .body = some (.reference span ["b", "Item"] none) ∧
      StandsFor sharedTypeName [] "list.ts" m "b" target ∧
      target.declared? "Item" = some "export type Item = B;" ∧
      let a := Analyzer.analysis sharedTypeName []
      let known := (a.exportedDefault "list.ts" {}).2
      ∃ resolved, a.typeAt .body f known = some resolved ∧
        a.Finds known resolved "export type Item = A;" ∧
        ¬a.Finds known resolved "export type Item = B;" := by
  obtain ⟨m, f, s, hm, hf, ⟨span, htype⟩, -, -, target, -, hstands, -, hdeclared, -, hreached⟩ :=
    sharedTypeName_module
  obtain ⟨-, htypes, htexts⟩ := exportedDefault_function hm hf {}
  have hresolved := htypes .body
  rw [htype, Option.map_some, resolveType_qualified, hreached] at hresolved
  refine ⟨m, f, s, span, target, hm, hf, htype, hstands, hdeclared, _, hresolved,
    ⟨⟨"list.ts", "Item"⟩, rfl, by rw [htexts, hreached]⟩, ?_⟩
  rintro ⟨symbol, hsymbol, htext⟩
  cases hsymbol
  rw [htexts, hreached] at htext
  exact absurd htext (by decide)

end TypedRoutes.Script
