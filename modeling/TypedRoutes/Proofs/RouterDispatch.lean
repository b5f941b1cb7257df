import TypedRoutes.Render.Document
import TypedRoutes.Proofs.DocumentSlots
import TypedRoutes.Proofs.GeneratedFragments
import TypedRoutes.Proofs.NameRegistry
import TypedRoutes.Proofs.PlacedTrees

/-! # Where the routes of a router lead

A router has one import and one route for every endpoint, in order.  The names between them are
handed out by a registry that counts, so a route leads to its own handler unless a counted name is
spelled like a handler or like a name that the template binds.
-/

namespace TypedRoutes.Render
open TypedRoutes.Text TypedRoutes.Naming TypedRoutes.Route TypedRoutes.Template

/-! ## What is written -/

theorem assignNames_eq (registry : Registry) (es : List Endpoint) :
    assignNames registry es = es.zip (registry.claimAll (es.map (·.functionName))) := by
  induction es generalizing registry with
  | nil => rfl
  | cons e es ih => simp [assignNames, Registry.claimAll, ih]

theorem addRoute_eq (options : Options) (d : Document) (e : Endpoint) (name : String) :
    addRoute options d e name = .ok
      ((d.append "imports" (importLine name (importSource options.importsBase e))).append "routes"
        (routeLine options.routeStyle (e.httpPath options.endpointPathPrefix) name)) := by
  simp only [addRoute, renderFragment_import, renderFragment_route]
  rfl

private theorem addRoutes_ok (options : Options) (named : List (Endpoint × String))
    (d : Document) (hd : ∀ m ∈ routerMarkers, d.hasSlot m = true) :
    ∃ filled, named.foldlM (fun d (e, name) => addRoute options d e name) d = .ok filled ∧
      filled.chunks "imports" = d.chunks "imports" ++
        named.map (fun (e, name) => importLine name (importSource options.importsBase e)) ∧
      filled.chunks "routes" = d.chunks "routes" ++
        named.map (fun (e, name) =>
          routeLine options.routeStyle (e.httpPath options.endpointPathPrefix) name) := by
  induction named generalizing d with
  | nil => exact ⟨d, rfl, by simp, by simp⟩
  | cons p named ih =>
    obtain ⟨e, name⟩ := p
    have hi : d.hasSlot "imports" = true := hd _ (by simp [routerMarkers])
    have hr : d.hasSlot "routes" = true := hd _ (by simp [routerMarkers])
    have hne : "imports" ≠ "routes" := by decide
    obtain ⟨filled, hok, himports, hroutes⟩ := ih
      ((d.append "imports" (importLine name (importSource options.importsBase e))).append "routes"
        (routeLine options.routeStyle (e.httpPath options.endpointPathPrefix) name))
      (by simpa using hd)
    refine ⟨filled, ?_, ?_, ?_⟩
    · have hstep := addRoute_eq options d e name
      simp only [List.foldlM_cons, hstep]
      exact hok
    · rw [himports, Document.chunks_append_of_ne _ _ hne, Document.chunks_append_self _ _ hi]
      simp
    · rw [hroutes, Document.chunks_append_self _ _ (by simpa using hr),
        Document.chunks_append_of_ne _ _ hne.symm]
      simp

def importNames (d : Document) (tree : Tree) : List String :=
  (Registry.reserving d.declaredBindings).claimAll (tree.endpointsInOrder.map (·.functionName))

/-- A template with both markers is always filled: with one import and one route an endpoint. -/
theorem fillRouter_ok (options : Options) (tree : Tree) (title template : String)
    (h : ∀ m ∈ routerMarkers, (Document.ofTemplate title template).hasSlot m = true) :
    ∃ d, fillRouter options tree (Document.ofTemplate title template) = .ok d ∧
      d.chunks "imports" =
        (tree.endpointsInOrder.zip (importNames (.ofTemplate title template) tree)).map
          (fun (e, name) => importLine name (importSource options.importsBase e)) ∧
      d.chunks "routes" =
        (tree.endpointsInOrder.zip (importNames (.ofTemplate title template) tree)).map
          (fun (e, name) =>
            routeLine options.routeStyle (e.httpPath options.endpointPathPrefix) name) := by
  obtain ⟨d, hok, himports, hroutes⟩ := addRoutes_ok options
    (tree.endpointsInOrder.zip (importNames (.ofTemplate title template) tree)) _ h
  refine ⟨d, ?_, by simpa using himports, by simpa using hroutes⟩
  rw [fillRouter, (Document.require_eq_ok_iff _ _).2 h, assignNames_eq]
  exact hok

/-! ## Where it leads -/

/-- The route of an endpoint leads to a name that the template does not bind, and that is bound by
a single import, the one of the endpoint's module. -/
def Dispatches (options : Options) (bindings : List String) (d : Document) (i : Nat)
    (e : Endpoint) : Prop :=
  ∃ name, (d.chunks "routes")[i]?.bind (readRoute? options.routeStyle) =
      some (e.httpPath options.endpointPathPrefix, name) ∧
    name ∉ bindings ∧
    ∃ j : Nat, (d.chunks "imports")[j]?.bind readImport? =
        some (name, dropEndChar '/' options.importsBase ++ "/" ++ e.sourcePath) ∧
      ∀ (k : Nat) source, (d.chunks "imports")[k]?.bind readImport? = some (name, source) → k = j

private theorem getElem?_zip {α β : Type} {as : List α} {bs : List β} {i : Nat}
    (ha : i < as.length) (hb : i < bs.length) : (as.zip bs)[i]? = some (as[i], bs[i]) :=
  List.getElem?_zip_eq_some.2 ⟨List.getElem?_eq_getElem ha, List.getElem?_eq_getElem hb⟩

section Filled
variable {options : Options} {d : Document} {es : List Endpoint} {names : List String}

private theorem readImport?_chunk (himports : d.chunks "imports" =
      (es.zip names).map fun (e, name) => importLine name (importSource options.importsBase e))
    (k : Nat) : (d.chunks "imports")[k]?.bind readImport? =
      (es.zip names)[k]?.map fun (e, name) => (name, importSource options.importsBase e) := by
  rw [himports, List.getElem?_map]
  cases (es.zip names)[k]? <;> simp [readImport?_importLine]

private theorem readRoute?_chunk (hroutes : d.chunks "routes" = (es.zip names).map
      fun (e, name) => routeLine options.routeStyle (e.httpPath options.endpointPathPrefix) name)
    (k : Nat) : (d.chunks "routes")[k]?.bind (readRoute? options.routeStyle) =
      (es.zip names)[k]?.map fun (e, name) => (e.httpPath options.endpointPathPrefix, name) := by
  rw [hroutes, List.getElem?_map]
  cases (es.zip names)[k]? <;> simp [readRoute?_routeLine]

/-- A filled router dispatches every endpoint exactly if the names are unlike each other and unlike
what is bound already. -/
theorem dispatches_iff (himports : d.chunks "imports" =
      (es.zip names).map fun (e, name) => importLine name (importSource options.importsBase e))
    (hroutes : d.chunks "routes" = (es.zip names).map
      fun (e, name) => routeLine options.routeStyle (e.httpPath options.endpointPathPrefix) name)
    (bindings : List String) (hlen : names.length = es.length) :
    (∀ i e, es[i]? = some e → Dispatches options bindings d i e) ↔
      names.Nodup ∧ ∀ name ∈ names, name ∉ bindings := by
  have hroute := readRoute?_chunk hroutes
  have himport := readImport?_chunk himports
  constructor
  · intro h
    have hname : ∀ i (hi : i < names.length), names[i] ∉ bindings ∧
        ∃ j, ∀ k (hk : k < names.length), names[k] = names[i] → k = j := by
      intro i hi
      have he : i < es.length := hlen ▸ hi
      obtain ⟨name, hr, hfree, j, -, huniq⟩ := h i es[i] (List.getElem?_eq_getElem he)
      have hz : (es.zip names)[i]? = some (es[i], names[i]) :=
        getElem?_zip he hi
      rw [hroute, hz] at hr
      obtain rfl : names[i] = name := by simpa using hr
      refine ⟨hfree, j, fun k hk heq => huniq k (importSource options.importsBase es[k]) ?_⟩
      have hzk : (es.zip names)[k]? = some (es[k], names[k]) :=
        getElem?_zip (hlen ▸ hk) hk
      rw [himport, hzk, Option.map_some, heq]
    refine ⟨List.nodup_iff_getElem?_ne_getElem?.2 fun i j hij hj heq => ?_, fun name hmem => ?_⟩
    · obtain ⟨-, l, hl⟩ := hname j hj
      have hi : i < names.length := Nat.lt_trans hij hj
      rw [List.getElem?_eq_getElem hi, List.getElem?_eq_getElem hj] at heq
      have := hl i hi (Option.some.inj heq)
      have := hl j hj rfl
      omega
    · obtain ⟨i, hi, rfl⟩ := List.mem_iff_getElem.1 hmem
      exact (hname i hi).1
  · rintro ⟨hnodup, hfree⟩ i e he
    obtain ⟨hi, rfl⟩ := List.getElem?_eq_some_iff.1 he
    have hn : i < names.length := hlen ▸ hi
    have hz : (es.zip names)[i]? = some (es[i], names[i]) :=
      getElem?_zip hi hn
    refine ⟨names[i], by rw [hroute, hz, Option.map_some], hfree _ (List.getElem_mem hn), i,
      by rw [himport, hz]; rfl, fun k source hk => ?_⟩
    rw [himport, Option.map_eq_some_iff] at hk
    obtain ⟨⟨e', name⟩, hz', heq⟩ := hk
    have hname := (List.getElem?_zip_eq_some.1 hz').2
    simp only [Prod.mk.injEq] at heq
    rw [heq.1, ← List.getElem?_eq_getElem hn] at hname
    exact ((List.getElem?_inj hn hnodup).1 hname.symm).symm

end Filled

/-- Every endpoint of a router is dispatched to its own handler exactly if no counted name is
bound by the template or the name of a handler. -/
theorem router_dispatches_iff (options : Options) (tree : Tree) (template : String)
    (h : ∀ m ∈ routerMarkers, (Document.ofTemplate "server" template).hasSlot m = true) :
    ∃ d, fillRouter options tree (Document.ofTemplate "server" template) = .ok d ∧
      renderRouter options tree template = finish options d ∧
      (d.chunks "imports").length = tree.endpointCount ∧
      (d.chunks "routes").length = tree.endpointCount ∧
      ((∀ i e, tree.endpointsInOrder[i]? = some e → Dispatches options
          (Document.ofTemplate "server" template).declaredBindings d i e) ↔
        Registry.NoClash (Document.ofTemplate "server" template).declaredBindings
          (tree.endpointsInOrder.map (·.functionName))) := by
  obtain ⟨d, hok, himports, hroutes⟩ := fillRouter_ok options tree "server" template h
  have hlen : (importNames (.ofTemplate "server" template) tree).length =
      tree.endpointsInOrder.length := by simp [importNames]
  refine ⟨d, hok, ?_, ?_, ?_, ?_⟩
  · rw [renderRouter, hok]
    rfl
  · simp [himports, hlen]
  · simp [hroutes, hlen]
  · rw [dispatches_iff himports hroutes _ hlen]
    exact Registry.claimAll_unlike_iff _ _

def bareRouter : String := "/* \x7b\x7bimports\x7d\x7d */\n/* \x7b\x7broutes\x7d\x7d */\n"

def oneHandler (directory functionName : String) : Tree :=
  .node (some directory) []
    [{ pathSegments := [directory], functionName, sourceFileName := functionName ++ ".ts",
       body := none, returns := ⟨"Reply", "type Reply = string;"⟩ }]

def sharedName : Tree := .node none [oneHandler "a" "list", oneHandler "b" "list"] []

theorem sharedName_dispatches :
    (∀ m ∈ routerMarkers, (Document.ofTemplate "server" bareRouter).hasSlot m = true) ∧
      ∃ d, fillRouter {} sharedName (Document.ofTemplate "server" bareRouter) = .ok d ∧
        ∀ i e, sharedName.endpointsInOrder[i]? = some e →
          Dispatches {} (Document.ofTemplate "server" bareRouter).declaredBindings d i e := by
  have h : ∀ m ∈ routerMarkers,
      (Document.ofTemplate "server" bareRouter).hasSlot m = true := by decide +kernel
  obtain ⟨d, hok, -, -, -, hiff⟩ := router_dispatches_iff {} sharedName bareRouter h
  refine ⟨h, d, hok, hiff.2 ?_⟩
  have hnames : sharedName.endpointsInOrder.map (·.functionName) = ["list", "list"] := rfl
  have hb : (Document.ofTemplate "server" bareRouter).declaredBindings = [] := by decide +kernel
  rw [hnames, hb]
  intro x hx n hn hle
  obtain rfl : x = "list" := by simpa using hx
  obtain rfl : n = 2 := by simp at hle; omega
  decide +kernel

/-- Two handlers of one name, and one whose name is the second with its number. -/
def countedNameTaken : Tree :=
  .node none [oneHandler "a" "list", oneHandler "b" "list", oneHandler "c" "list_2"] []

theorem countedNameTaken_imported_twice :
    ∃ d, fillRouter {} countedNameTaken (Document.ofTemplate "server" bareRouter) = .ok d ∧
      (d.chunks "imports").map readImport? =
        [some ("list", "../api/a/list.ts"), some ("list_2", "../api/b/list.ts"),
         some ("list_2", "../api/c/list_2.ts")] ∧
      ¬∀ i e, countedNameTaken.endpointsInOrder[i]? = some e → Dispatches {}
        (Document.ofTemplate "server" bareRouter).declaredBindings d i e := by
  obtain ⟨d, hok, himports, hroutes⟩ :=
    fillRouter_ok {} countedNameTaken "server" bareRouter (by decide +kernel)
  have hnames : importNames (Document.ofTemplate "server" bareRouter) countedNameTaken =
      ["list", "list_2", "list_2"] := by decide +kernel
  refine ⟨d, hok, ?_, fun h => ?_⟩
  · rw [himports, hnames]
    decide +kernel
  · have hnodup := ((dispatches_iff himports hroutes _ (by simp [importNames])).1 h).1
    rw [hnames] at hnodup
    exact absurd hnodup (by decide)

end TypedRoutes.Render
