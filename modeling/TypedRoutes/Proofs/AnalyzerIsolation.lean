import TypedRoutes.Proofs.ListTables
import TypedRoutes.Proofs.QualifiedReferences

/-! # Files apart from each other

An analyzer answers calls about many files.  What it answers about a file, and what it keeps of it,
depends on the calls about that file only; so those about others can be left out.  The inspection of
a module begins with reading it, so that nothing kept before matters, and ends with forgetting it.
-/

namespace TypedRoutes.Route
open TypedRoutes.Naming

/-! ## Calls -/

/-- A call of one of the lookups of an analysis. -/
inductive Call where
  | exportedDefault (file : String)
  | parameterType (f : FunctionRef) (index : Nat)
  | returnTypeArgument (f : FunctionRef)
  | declarationText (symbol : SymbolRef)
  | release (file : String)

inductive Answer where
  | exported (found : Except Fault (Option DefaultExport))
  | type (found : Option ResolvedType)
  | text (found : Option String)
  | released

def Call.file : Call → String
  | exportedDefault file | release file => file
  | parameterType f _ | returnTypeArgument f => f.file
  | declarationText symbol => symbol.file

/-- Files are told apart by the components of their paths. -/
def Call.key (c : Call) : List Path.Component := Path.components c.file

namespace Analysis
variable {σ : Type} (a : Analysis σ)

def answer (state : σ) : Call → Answer × σ
  | .exportedDefault file =>
    let (found, state) := a.exportedDefault file state
    (.exported found, state)
  | .parameterType f index => (.type (a.parameterType f index state), state)
  | .returnTypeArgument f => (.type (a.returnTypeArgument f state), state)
  | .declarationText symbol => (.text (a.declarationText symbol state), state)
  | .release file => (.released, a.release file state)

def transcript (state : σ) : List Call → List (Call × Answer)
  | [] => []
  | c :: cs => (c, (a.answer state c).1) :: transcript (a.answer state c).2 cs

/-! ## Endpoints and what is known of a function -/

/-- Two states know the same types of a function's signature, and declarations of them. -/
structure Alike (f : FunctionRef) (state state' : σ) : Prop where
  types : ∀ role, a.typeAt role f state = a.typeAt role f state'
  declarations : ∀ role resolved symbol, a.typeAt role f state = some resolved →
    resolved.symbol = some symbol → a.declarationText symbol state = a.declarationText symbol state'

variable {a} {f : FunctionRef} {state state' : σ}

theorem Alike.typeInfo (h : a.Alike f state state') (role : TypeRole) {resolved : ResolvedType}
    (htype : a.typeAt role f state = some resolved) (functionName : String) :
    a.typeInfo state functionName role resolved = a.typeInfo state' functionName role resolved := by
  unfold Analysis.typeInfo
  cases hsymbol : resolved.symbol with
  | none => rfl
  | some symbol => simp only [h.declarations role resolved symbol htype hsymbol]

theorem Alike.endpointOf (h : a.Alike f state state') (allow : Bool) (file : String)
    (segments : List String) :
    a.endpointOf allow file segments state f = a.endpointOf allow file segments state' f := by
  have hbody (functionName : String) :
      a.bodyType allow state f functionName = a.bodyType allow state' f functionName := by
    have hsame : a.parameterType f 0 state = a.parameterType f 0 state' := h.types .body
    unfold bodyType
    rw [← hsame]
    cases htype : a.parameterType f 0 state with
    | none => rfl
    | some resolved => simp only [h.typeInfo .body htype]
  have hreturns (functionName : String) :
      (a.returnTypeArgument f state).bind (a.typeInfo state functionName .response) =
        (a.returnTypeArgument f state').bind (a.typeInfo state' functionName .response) := by
    have hsame : a.returnTypeArgument f state = a.returnTypeArgument f state' := h.types .response
    rw [← hsame]
    cases htype : a.returnTypeArgument f state with
    | none => rfl
    | some resolved => exact h.typeInfo .response htype functionName
  simp only [Analysis.endpointOf, hbody, hreturns]

end Analysis

end TypedRoutes.Route

namespace TypedRoutes.Script
open TypedRoutes.Naming TypedRoutes.Route

/-! ## What is kept of a file -/

/-- Facts that speak of functions and names in one file only. -/
structure Facts.OnlyOf (file : String) (facts : Facts) : Prop where
  function : ∀ f, facts.defaultExport = some (.function f) → f.file = file
  symbol : ∀ resolved symbol, some resolved ∈ facts.returnArgument :: facts.parameters →
    resolved.symbol = some symbol → symbol.file = file

theorem file_of_resolveType {m : ParsedModule} {file : String} {declarations : Declarations}
    {type : TypeNode} {symbol : SymbolRef}
    (h : (resolveType m file declarations type).symbol = some symbol) : symbol.file = file := by
  unfold resolveType at h
  split at h
  · dsimp only at h
    split at h <;> cases h
    rfl
  · cases h

theorem exists_type_of_mem_exportFacts {files : FileTree} {directory : Location} {file : String}
    {m : ParsedModule} {found : DefaultExport} {signature : Option Signature}
    {resolved : ResolvedType}
    (h : some resolved ∈ (exportFacts files directory file m found signature).returnArgument ::
      (exportFacts files directory file m found signature).parameters) :
    ∃ type, resolveType m file (reachable files directory file m) type = resolved := by
  rcases List.mem_cons.1 h with hreturn | hparameter
  · obtain ⟨type, -, htype⟩ := Option.map_eq_some_iff.1 hreturn.symm
    exact ⟨type, htype⟩
  · cases signature with
    | none => cases hparameter
    | some signature =>
      obtain ⟨parameter, -, hannotation⟩ := List.mem_map.1 hparameter
      obtain ⟨type, -, htype⟩ := Option.map_eq_some_iff.1 hannotation
      exact ⟨type, htype⟩

theorem onlyOf_collect {files : FileTree} {directory : Location} {file : String} {facts : Facts}
    (h : Facts.collect files directory file = .ok facts) : facts.OnlyOf file := by
  cases hm : loadModule files directory file with
  | error e =>
    rw [Facts.collect, hm] at h
    cases h
  | ok m =>
    cases hfound : findDefaultExport m file with
    | none =>
      rw [Facts.collect, hm] at h
      simp only [bind, Except.bind, hfound] at h
      cases h
      constructor
      · intro f hf
        cases hf
      · intro resolved symbol hmem
        simp at hmem
    | some p =>
      obtain ⟨found, signature⟩ := p
      rw [collect_eq hm hfound] at h
      cases h
      constructor
      · intro f hf
        obtain rfl := Option.some.inj hf
        exact file_of_findDefaultExport hfound
      · intro resolved symbol hmem hsymbol
        obtain ⟨type, rfl⟩ := exists_type_of_mem_exportFacts hmem
        exact file_of_resolveType hsymbol

namespace Analyzer

theorem lookup_release (a : Analyzer) (file : String) (key : List Path.Component) :
    (a.release file).cache.lookup key =
      if key = Path.components file then none else a.cache.lookup key := by
  split
  · rename_i h
    exact lookup_filter_fst_eq_none a.cache (· != Path.components file) (by simp [h])
  · rename_i h
    exact lookup_filter_fst a.cache (· != Path.components file) (by simpa using h)

theorem lookup_keep (a : Analyzer) (file : String) (facts : Facts) (key : List Path.Component) :
    (a.keep file facts).cache.lookup key =
      if key = Path.components file then some facts else a.cache.lookup key := by
  have hkept : (a.keep file facts).cache =
      (Path.components file, facts) :: (a.release file).cache := rfl
  by_cases h : key = Path.components file
  · simp [hkept, h]
  · have hother : (key == Path.components file) = false := by simpa using h
    rw [hkept, List.lookup_cons, hother, lookup_release, if_neg h, if_neg h]

theorem release_keep (a : Analyzer) (file : String) (facts : Facts) :
    (a.keep file facts).release file = a.release file := by
  simp [release, keep]

section
variable (files : FileTree) (directory : Location)

/-- The types of a function whose file's facts have just been kept. -/
theorem typeAt_keep {file : String} {f : FunctionRef} (hf : f.file = file) (facts : Facts)
    (a : Analyzer) (role : TypeRole) :
    (analysis files directory).typeAt role f (a.keep file facts) =
      match role with
      | .body => facts.parameters[0]?.bind id
      | .response => facts.returnArgument := by
  cases role <;>
    simp only [Analysis.typeAt, analysis, parameterType, returnTypeArgument, hf, factsOf_keep]
  · rfl
  · rfl

theorem alike_keep {file : String} {facts : Facts} (hfacts : facts.OnlyOf file) {f : FunctionRef}
    (hf : f.file = file) (a a' : Analyzer) :
    (analysis files directory).Alike f (a.keep file facts) (a'.keep file facts) := by
  constructor
  · intro role
    rw [typeAt_keep files directory hf, typeAt_keep files directory hf]
  · intro role resolved symbol htype hsymbol
    have hfile : symbol.file = file := by
      refine hfacts.symbol resolved symbol ?_ hsymbol
      rw [typeAt_keep files directory hf] at htype
      cases role with
      | body =>
        obtain ⟨_, hparameter, rfl⟩ := Option.bind_eq_some_iff.1 htype
        exact .tail _ (List.mem_of_getElem? hparameter)
      | response =>
        rw [← htype]
        exact .head _
    simp [analysis, declarationText, hfile, factsOf_keep]

theorem extract_eq (allow : Bool) (file : String) (segments : List String) (a : Analyzer) :
    (analysis files directory).extract allow file segments a =
      (((analysis files directory).extract allow file segments {}).1, a.release file) := by
  cases hfacts : Facts.collect files directory file with
  | error e => simp [Analysis.extract, analysis, exportedDefault, hfacts]
  | ok facts =>
    have honly := onlyOf_collect hfacts
    have hread (a : Analyzer) : (analysis files directory).exportedDefault file a =
        (.ok facts.defaultExport, a.keep file facts) := by
      simp only [analysis, exportedDefault, hfacts]
    have hrelease (a : Analyzer) : (analysis files directory).release file (a.keep file facts) =
        a.release file := a.release_keep file facts
    simp only [Analysis.extract, hread, hrelease]
    congr 1
    cases hexport : facts.defaultExport with
    | none => rfl
    | some found =>
      cases found with
      | function f =>
        have halike := alike_keep files directory honly (honly.function f hexport) a {}
        simp only [halike.endpointOf]
      | _ => rfl

/-! ## Calls about one file -/

/-- A call leaves what is kept of the files it is not about. -/
theorem lookup_answer_of_ne {key : List Path.Component} {c : Call} (h : key ≠ c.key)
    (a : Analyzer) :
    ((analysis files directory).answer a c).2.cache.lookup key = a.cache.lookup key := by
  cases c with
  | exportedDefault file =>
    simp only [Analysis.answer, analysis, exportedDefault]
    cases Facts.collect files directory file with
    | error e => rfl
    | ok facts => exact (a.lookup_keep file facts key).trans (if_neg h)
  | release file => exact (a.lookup_release file key).trans (if_neg h)
  | _ => rfl

/-- What a call gives back and what is then kept of its file come from what was kept of it. -/
theorem answer_eq_of_lookup_eq {a a' : Analyzer} {c : Call}
    (h : a.cache.lookup c.key = a'.cache.lookup c.key) :
    ((analysis files directory).answer a c).1 = ((analysis files directory).answer a' c).1 ∧
      ((analysis files directory).answer a c).2.cache.lookup c.key =
        ((analysis files directory).answer a' c).2.cache.lookup c.key := by
  cases c with
  | exportedDefault file =>
    simp only [Analysis.answer, analysis, exportedDefault]
    cases Facts.collect files directory file with
    | error e => exact ⟨rfl, h⟩
    | ok facts => exact ⟨rfl, by rw [lookup_keep, lookup_keep, h]⟩
  | release file =>
    refine ⟨rfl, ?_⟩
    simp only [Analysis.answer, analysis, lookup_release, h]
  | parameterType f index =>
    have hfacts : a.factsOf f.file = a'.factsOf f.file := h
    exact ⟨by simp only [Analysis.answer, analysis, parameterType, hfacts], h⟩
  | returnTypeArgument f =>
    have hfacts : a.factsOf f.file = a'.factsOf f.file := h
    exact ⟨by simp only [Analysis.answer, analysis, returnTypeArgument, hfacts], h⟩
  | declarationText symbol =>
    have hfacts : a.factsOf symbol.file = a'.factsOf symbol.file := h
    exact ⟨by simp only [Analysis.answer, analysis, declarationText, hfacts], h⟩

/-- What is answered about a file is what would be answered without the calls about others. -/
theorem filter_transcript (key : List Path.Component) (calls : List Call) {a a' : Analyzer}
    (h : a.cache.lookup key = a'.cache.lookup key) :
    ((analysis files directory).transcript a calls).filter (·.1.key = key) =
      (analysis files directory).transcript a' (calls.filter (·.key = key)) := by
  induction calls generalizing a a' with
  | nil => rfl
  | cons c calls ih =>
    rw [Analysis.transcript]
    by_cases hkey : c.key = key
    · subst hkey
      obtain ⟨hanswer, hkept⟩ := answer_eq_of_lookup_eq files directory h
      rw [List.filter_cons_of_pos (by simp), List.filter_cons_of_pos (by simp),
        Analysis.transcript, hanswer, ih hkept]
    · rw [List.filter_cons_of_neg (by simpa using hkey),
        List.filter_cons_of_neg (by simpa using hkey)]
      exact ih ((lookup_answer_of_ne files directory (Ne.symm hkey) a).trans h)

end

/-- Files do not get into each other's answers.  Of any calls, those about one file are answered as
if there had been no others.  A module is inspected as by an analyzer that has kept nothing, whether
it can be read or not; of it nothing is kept afterwards, and of other files all that was. -/
theorem files_apart (files : FileTree) (directory : Location) :
    let lookups := analysis files directory
    (∀ (a : Analyzer) (calls : List Call) (key : List Path.Component),
      (lookups.transcript a calls).filter (·.1.key = key) =
        lookups.transcript a (calls.filter (·.key = key))) ∧
    ∀ (a : Analyzer) (allow : Bool) (file : String) (segments : List String),
      (lookups.extract allow file segments a).1 = (lookups.extract allow file segments {}).1 ∧
        (lookups.extract allow file segments a).2.cache =
          a.cache.filter (·.1 != Path.components file) ∧
        ∀ other, (lookups.extract allow file segments a).2.factsOf other =
          if Path.components other = Path.components file then none else a.factsOf other := by
  intro lookups
  refine ⟨fun a calls key => filter_transcript files directory key calls rfl, ?_⟩
  intro a allow file segments
  rw [extract_eq]
  exact ⟨rfl, rfl, fun other => a.lookup_release file (Path.components other)⟩

end Analyzer

end TypedRoutes.Script
