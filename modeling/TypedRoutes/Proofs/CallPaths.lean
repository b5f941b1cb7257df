import TypedRoutes.Proofs.ClientOutline
import TypedRoutes.Proofs.RenderedTexts
import TypedRoutes.Proofs.RouterDispatch

/-! # Clients call what routers serve

The text of a client's methods is the row of the blocks of its outline.  Reading the path out of
each block that calls one, and out of each route of the router, gives one list, the paths of the
tree's endpoints in order.
-/

namespace TypedRoutes.Render
open TypedRoutes.Text TypedRoutes.Naming TypedRoutes.Route TypedRoutes.Template

/-! ## Reading the blocks of an outline -/

def Item.block (options : Options) (i : Item) : String :=
  CodeWriter.block options.indent (i.functionText options).1 (i.functionText options).2

/-- A block whose text does not end as a call does is not read as one. -/
theorem readCall?_of_not_ended {indent : String} {depth : Nat} {text : String} {a b : List Char}
    {c : Char} (htext : text.toList = a ++ b) (hn : '\n' ∉ b) (hc : c ∈ b)
    (hw : isWhitespace c = false)
    (h : ∀ before, callEndings.firstM (dropEnding? · (before ++ b)) = none) :
    readCall? (CodeWriter.block indent depth text) = none := by
  obtain rfl : text = String.ofList (a ++ b) := String.toList_inj.1 (by simpa using htext)
  simp only [readCall?, CodeWriter.toList_block_append _ _ _ hn hc hw, dropEnding?_append,
    Option.bind_eq_bind, Option.bind_some, h, Option.bind_none]

theorem readCall?_block (options : Options) (i : Item) : readCall? (i.block options) =
    i.method?.map fun m => m.endpoint.httpPath options.endpointPathPrefix := by
  cases i with
  | method m => exact readCall?_methodText ..
  | opening namespaces identifier =>
    refine readCall?_of_not_ended (c := '\x7b') (b := ['\x7b'])
      (a := identifier.toList ++ if namespaces.length = 0 then " = ".toList else ": ".toList)
      ?_ (by decide) (by simp) (by decide) ?_
    · simp only [Item.functionText]
      split <;> simp
    · simp [callEndings, List.firstM, dropEnding?, dropBeginning?]
  | closing namespaces =>
    by_cases hl : namespaces.length = 0
    · refine readCall?_of_not_ended (c := '\x7d') (b := "\x7d;".toList) (a := [])
        (by simp [Item.functionText, hl]) (by decide) (by simp) (by decide) ?_
      simp [callEndings, List.firstM, dropEnding?, dropBeginning?]
    · refine readCall?_of_not_ended (c := '\x7d') (b := "\x7d,".toList) (a := [])
        (by simp [Item.functionText, hl]) (by decide) (by simp) (by decide) ?_
      simp [callEndings, List.firstM, dropEnding?, dropBeginning?]

theorem calls_outline (options : Options) (tree : Tree) :
    ((outline tree).map (·.block options)).filterMap readCall? =
      tree.endpointsInOrder.map (·.httpPath options.endpointPathPrefix) := by
  rw [← endpoints_outline, List.map_map, List.filterMap_map, List.map_filterMap]
  refine List.filterMap_congr fun i _ => ?_
  exact readCall?_block options i

/-! ## Filling a client -/

/-- A client with everything of a tree put into its slots. -/
def filledClient (options : Options) (tree : Tree) (d : Document) : Document :=
  let functions := String.join ((outline tree).map (·.block options))
  let d := d.append "types" (typesText options tree).buffer
  (if functions.isEmpty then d else d.append "functions" functions).append "clientName"
    options.clientName

theorem fillClient_eq (options : Options) (tree : Tree) (d : Document) :
    fillClient options tree d = (do
      d.require clientMarkers
      if tree.belowNamed then return filledClient options tree d else throw unnamedFault) := by
  have hfunctions : (CodeWriter.writeAll ⟨options.indent, ""⟩
      ((outline tree).map (Item.functionText options))).buffer =
        String.join ((outline tree).map (·.block options)) := by
    simp [CodeWriter.writeAll_eq, Item.block, Function.comp_def]
  simp only [fillClient, renderParts_eq]
  cases tree.belowNamed with
  | false => rfl
  | true =>
    simp only [if_true, bind, Except.bind, pure, Except.pure, CodeWriter.isEmpty, hfunctions,
      filledClient]

theorem join_chunks_filledClient (options : Options) (tree : Tree) {d : Document}
    (h : d.hasSlot "functions" = true) (hempty : d.chunks "functions" = []) :
    String.join ((filledClient options tree d).chunks "functions") =
      String.join ((outline tree).map (·.block options)) := by
  have hname : "functions" ≠ "clientName" := by decide
  have htypes : "functions" ≠ "types" := by decide
  simp only [filledClient]
  rw [Document.chunks_append_of_ne _ _ hname]
  split
  · rename_i hnone
    rw [Document.chunks_append_of_ne _ _ htypes, hempty, String.isEmpty_iff.1 hnone]
    rfl
  · rw [Document.chunks_append_self _ _ (by simpa using h),
      Document.chunks_append_of_ne _ _ htypes, hempty]
    simp

theorem chunks_types_filledClient (options : Options) (tree : Tree) {d : Document}
    (h : d.hasSlot "types" = true) (hempty : d.chunks "types" = []) :
    (filledClient options tree d).chunks "types" = [(typesText options tree).buffer] := by
  have hname : "types" ≠ "clientName" := by decide
  have hfunctions : "types" ≠ "functions" := by decide
  simp only [filledClient]
  rw [Document.chunks_append_of_ne _ _ hname]
  split
  · rw [Document.chunks_append_self _ _ h, hempty, List.nil_append]
  · rw [Document.chunks_append_of_ne _ _ hfunctions, Document.chunks_append_self _ _ h, hempty,
      List.nil_append]

/-- A client is rendered exactly if both slots are there and every directory that matters has a
name; then it is the filled document. -/
theorem renderClient_ok_iff (options : Options) (tree : Tree) (template client : String) :
    renderClient options tree template = .ok client ↔
      (∀ m ∈ clientMarkers, (Document.ofTemplate "client" template).hasSlot m = true) ∧
        tree.belowNamed = true ∧
        finish options (filledClient options tree (.ofTemplate "client" template)) =
          .ok client := by
  rw [← Document.require_eq_ok_iff, renderClient, fillClient_eq]
  cases Document.require _ clientMarkers with
  | error e => simp [bind, Except.bind]
  | ok u => cases tree.belowNamed <;> simp [bind, Except.bind, pure, Except.pure, throw, throwThe,
      MonadExceptOf.throw]

/-- A rendered client is the text of the filled document, which holds the types and the methods of
the outline. -/
theorem filled_of_renderClient {options : Options} {tree : Tree} {template client : String}
    (h : renderClient options tree template = .ok client) :
    ∃ c, fillClient options tree (.ofTemplate "client" template) = .ok c ∧
      finish options c = .ok client ∧ IsTextOf options template c client ∧
      c.chunks "types" = [(typesText options tree).buffer] ∧
      String.join (c.chunks "functions") =
        String.join ((outline tree).map (·.block options)) := by
  obtain ⟨hmarkers, hnamed, hfinish⟩ := (renderClient_ok_iff ..).1 h
  have htypes := hmarkers "types" (by simp [clientMarkers])
  have hfunctions := hmarkers "functions" (by simp [clientMarkers])
  have hfill : fillClient options tree (.ofTemplate "client" template) =
      .ok (filledClient options tree (.ofTemplate "client" template)) := by
    rw [fillClient_eq, (Document.require_eq_ok_iff _ _).2 hmarkers, hnamed]
    rfl
  refine ⟨_, hfill, hfinish, isTextOf_of_finish (filledFrom_of_fillClient hfill) hfinish,
    chunks_types_filledClient options tree htypes ?_,
    join_chunks_filledClient options tree hfunctions ?_⟩
  · exact Document.chunks_ofTemplate ..
  · exact Document.chunks_ofTemplate ..

/-- A rendered client calls the paths that the router of its tree serves: those of the endpoints,
in order.  Both texts are their templates with what was put into the slots. -/
theorem client_calls_router_paths (options : Options) (tree : Tree)
    {clientTemplate routerTemplate client : String}
    (hclient : renderClient options tree clientTemplate = .ok client)
    (hrouter : ∀ m ∈ routerMarkers,
      (Document.ofTemplate "server" routerTemplate).hasSlot m = true) :
    let paths := tree.endpointsInOrder.map (·.httpPath options.endpointPathPrefix)
    let blocks := (outline tree).map (·.block options)
    ∃ c r router,
      fillClient options tree (.ofTemplate "client" clientTemplate) = .ok c ∧
      finish options c = .ok client ∧
      IsTextOf options clientTemplate c client ∧
      String.join (c.chunks "functions") = String.join blocks ∧
      blocks.filterMap readCall? = paths ∧
      fillRouter options tree (.ofTemplate "server" routerTemplate) = .ok r ∧
      finish options r = .ok router ∧
      renderRouter options tree routerTemplate = .ok router ∧
      IsTextOf options routerTemplate r router ∧
      (r.chunks "routes").map (fun route => (readRoute? options.routeStyle route).map Prod.fst) =
        paths.map some ∧
      paths.length = tree.endpointCount := by
  intro paths blocks
  obtain ⟨c, hfill, hfinish, htextOf, -, hfunctions⟩ := filled_of_renderClient hclient
  obtain ⟨r, hr, -, hroutes⟩ := fillRouter_ok options tree "server" routerTemplate hrouter
  obtain ⟨router, htext⟩ := finish_ok options r
  refine ⟨c, r, router, hfill, hfinish, htextOf, hfunctions, calls_outline options tree, hr, htext,
    ?_, isTextOf_of_finish (filledFrom_of_fillRouter hr) htext, ?_, ?_⟩
  · rw [renderRouter, hr, ← htext]
    rfl
  · have hlen : tree.endpointsInOrder.length ≤
        (importNames (.ofTemplate "server" routerTemplate) tree).length := by
      simp [importNames]
    have hzip := List.map_fst_zip hlen
    rw [hroutes, List.map_map]
    simp only [Function.comp_def, readRoute?_routeLine, Option.map_some]
    conv_rhs => rw [List.map_map, ← hzip, List.map_map]
    rfl
  · simp [paths]

def bareClient : String := "/* \x7b\x7btypes\x7d\x7d */\n/* \x7b\x7bfunctions\x7d\x7d */\n"

theorem sharedName_calls :
    ∃ client c r,
      renderClient { endpointPathPrefix := "it's" } sharedName bareClient = .ok client ∧
      fillClient { endpointPathPrefix := "it's" } sharedName (.ofTemplate "client" bareClient) =
        .ok c ∧
      fillRouter { endpointPathPrefix := "it's" } sharedName (.ofTemplate "server" bareRouter) =
        .ok r ∧
      (r.chunks "routes").map (fun route => (readRoute? .table route).map Prod.fst) =
        [some "/it's/a/list", some "/it's/b/list"] := by
  have hmarkers : ∀ m ∈ clientMarkers,
      (Document.ofTemplate "client" bareClient).hasSlot m = true := by decide +kernel
  have hrouter : ∀ m ∈ routerMarkers,
      (Document.ofTemplate "server" bareRouter).hasSlot m = true := by decide +kernel
  obtain ⟨client, hfinish⟩ := finish_ok { endpointPathPrefix := "it's" }
    (filledClient { endpointPathPrefix := "it's" } sharedName (.ofTemplate "client" bareClient))
  have hclient : renderClient { endpointPathPrefix := "it's" } sharedName bareClient =
      .ok client := (renderClient_ok_iff ..).2 ⟨hmarkers, rfl, hfinish⟩
  obtain ⟨c, r, router, hc, -, -, -, -, hr, -, -, -, hroutes, -⟩ :=
    client_calls_router_paths { endpointPathPrefix := "it's" } sharedName hclient hrouter
  refine ⟨client, c, r, hclient, hc, hr, hroutes.trans ?_⟩
  decide +kernel

end TypedRoutes.Render
