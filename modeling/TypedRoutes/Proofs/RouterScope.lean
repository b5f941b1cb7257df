import TypedRoutes.Proofs.BuiltInTemplates

/-! # The module scope of the built-in router

Imported handlers stand in one scope with the router's own code.  Names that this code binds are
never given to a handler; a global name that it only refers to is, if a handler is called so.
-/

namespace TypedRoutes.Render
open TypedRoutes.Text TypedRoutes.Naming TypedRoutes.Route TypedRoutes.Template

def routerBindings : List String := ["http", "Handler", "routes", "port", "server"]

/-- The global names that the built-in router refers to without binding them. -/
def routerGlobals : List String := ["Number", "process", "JSON", "console"]

theorem declaredBindings_routerTemplate :
    (Document.ofTemplate "server" routerTemplate).declaredBindings = routerBindings := by
  simp only [Document.declaredBindings, topLevelBindings, String.toList_ofList]
  rw [Document.ofTemplate, routerTemplate, toList_ofLines]
  decide +kernel

def importedName? (line : String) : Option String := (readImport? line).map Prod.fst

/-- The imports of a filled router bind the names that its endpoints are imported under. -/
theorem importedNames_eq {options : Options} {tree : Tree} {template d : Document}
    (himports : d.chunks "imports" = (tree.endpointsInOrder.zip (importNames template tree)).map
      fun (e, name) => importLine name (importSource options.importsBase e)) :
    (d.chunks "imports").map importedName? = (importNames template tree).map some := by
  have hlength : (importNames template tree).length ≤ tree.endpointsInOrder.length := by
    simp [importNames]
  conv_rhs => rw [← List.map_snd_zip hlength]
  simp only [himports, List.map_map, Function.comp_def, importedName?, readImport?_importLine,
    Option.map_some]

theorem routerNames_unnumbered : ∀ name ∈ routerBindings ++ routerGlobals,
    ∀ c ∈ name.toList.getLast?, c.isDigit = false := by
  have hall : ∀ name ∈ routerBindings ++ routerGlobals,
      name.toList.getLast?.all (!·.isDigit) = true := by decide
  intro name hname c hc
  have hlast := hall name hname
  rw [Option.mem_def.1 hc] at hlast
  simpa using hlast

theorem mem_importNames_routerTemplate_iff (tree : Tree) {name : String}
    (h : name ∈ routerBindings ++ routerGlobals) :
    name ∈ importNames (.ofTemplate "server" routerTemplate) tree ↔
      name ∉ routerBindings ∧ ∃ e ∈ tree.endpointsInOrder, e.functionName = name := by
  rw [importNames, declaredBindings_routerTemplate,
    Registry.mem_claimAll_reserving_iff (routerNames_unnumbered name h), List.mem_map, and_comm]

/-- A handler never takes a name that the code of the built-in router binds, and it takes a global
name that this code refers to exactly if it is called so. -/
theorem router_scope_captured_iff (options : Options) (tree : Tree) :
    ∃ (d : Document) (names : List String),
      fillRouter options tree (.ofTemplate "server" routerTemplate) = .ok d ∧
      renderRouter options tree routerTemplate = finish options d ∧
      (d.chunks "imports").map importedName? = names.map some ∧
      names.length = tree.endpointCount ∧
      (∀ name ∈ routerBindings, name ∉ names) ∧
      ∀ name ∈ routerGlobals,
        name ∈ names ↔ ∃ e ∈ tree.endpointsInOrder, e.functionName = name := by
  obtain ⟨d, hfill, himports, -⟩ :=
    fillRouter_ok options tree "server" routerTemplate hasSlot_routerTemplate
  refine ⟨d, importNames (.ofTemplate "server" routerTemplate) tree, hfill, ?_,
    importedNames_eq himports, by simp [importNames], ?_, ?_⟩
  · rw [renderRouter, hfill]
    rfl
  · intro name hname hmem
    have hiff := mem_importNames_routerTemplate_iff tree (List.mem_append_left _ hname)
    exact (hiff.1 hmem).1 hname
  · intro name hname
    rw [mem_importNames_routerTemplate_iff tree (List.mem_append_right _ hname)]
    have hfree : name ∉ routerBindings := by
      revert name
      decide
    exact and_iff_right hfree

/-- Handlers that are called like bindings of the built-in router, one of them twice. -/
def boundNames : Tree :=
  .node none [oneHandler "a" "server", oneHandler "b" "server", oneHandler "c" "http"] []

theorem boundNames_apart :
    ∃ d, fillRouter {} boundNames (.ofTemplate "server" routerTemplate) = .ok d ∧
      (d.chunks "imports").map importedName? = [some "server_2", some "server_3", some "http_2"] ∧
      ∀ name ∈ routerBindings ++ routerGlobals,
        ∀ line ∈ d.chunks "imports", importedName? line ≠ some name := by
  obtain ⟨d, names, hfill, -, hnames, -, hbound, hglobal⟩ := router_scope_captured_iff {} boundNames
  obtain ⟨d', hfill', himports, -⟩ :=
    fillRouter_ok {} boundNames "server" routerTemplate hasSlot_routerTemplate
  obtain rfl : d = d' := Except.ok.inj (hfill.symm.trans hfill')
  refine ⟨d, hfill, ?_, fun name hname line hline himported => ?_⟩
  · rw [importedNames_eq himports, importNames, declaredBindings_routerTemplate]
    decide +kernel
  · have hmem : some name ∈ names.map some := by
      rw [← hnames, ← himported]
      exact List.mem_map_of_mem hline
    replace hmem : name ∈ names := by simpa using hmem
    obtain hname | hname := List.mem_append.1 hname
    · exact hbound name hname hmem
    · have hplain : ∀ e ∈ boundNames.endpointsInOrder, e.functionName ∉ routerGlobals := by decide
      obtain ⟨e, he, rfl⟩ := (hglobal name hname).1 hmem
      exact hplain e he hname

def globalName : Tree := .node none [oneHandler "orders" "process"] []

theorem globalName_captured :
    ∃ d, fillRouter {} globalName (.ofTemplate "server" routerTemplate) = .ok d ∧
      (d.chunks "imports").map readImport? = [some ("process", "../api/orders/process.ts")] ∧
      ¬∀ name ∈ routerBindings ++ routerGlobals,
        ∀ line ∈ d.chunks "imports", importedName? line ≠ some name := by
  obtain ⟨d, hfill, himports, -⟩ :=
    fillRouter_ok {} globalName "server" routerTemplate hasSlot_routerTemplate
  have hlines : d.chunks "imports" = ["import process from '../api/orders/process.ts';"] := by
    rw [himports, importNames, declaredBindings_routerTemplate]
    decide +kernel
  refine ⟨d, hfill, by rw [hlines]; decide +kernel, fun h => ?_⟩
  exact h "process" (by decide) _ (by rw [hlines]; exact .head _) (by decide +kernel)

end TypedRoutes.Render
