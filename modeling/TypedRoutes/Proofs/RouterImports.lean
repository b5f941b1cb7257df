import TypedRoutes.Config.Basic
import TypedRoutes.Proofs.LexicalPaths
import TypedRoutes.Proofs.RenderedTexts
import TypedRoutes.Proofs.RouterDispatch

/-! # Where the imports of a router lead

Unless another module path is configured, a router imports its handlers by the way from its own
directory to the entry directory.  Followed from the router's directory, the import of a handler
leads to the handler's file, wherever the two directories are.
-/

namespace TypedRoutes.Config
open TypedRoutes.Text TypedRoutes.Route TypedRoutes.Render TypedRoutes.Template

def HasOrdinaryPath (e : Endpoint) : Prop :=
  ∀ name ∈ e.pathSegments ++ [e.sourceFileName], Path.IsOrdinary name

section Router
variable {base name : String} {c : Config}

/-- The way that a router's imports begin with leads from its directory to the entry directory. -/
theorem exists_importsBase (hbase : Path.isAbsolute base = true) (hunset : c.importsBase = none)
    (hrouter : Path.fileName? c.routerPath = some name) : ∃ here there,
      (∀ n ∈ there, Path.IsOrdinary n) ∧
      (Path.normalize base c.routerPath).dropLast = Path.belowRoot here ∧
      Path.normalize base c.entryDir = Path.belowRoot there ∧
      (c.renderOptions base).importsBase =
        Path.relativeSpecifier (Path.belowRoot here) (Path.belowRoot there) := by
  obtain ⟨up, hup, hdirectory⟩ : ∃ up, Path.parent? c.routerPath = some up ∧
      (Path.normalize base c.routerPath).dropLast = Path.normalize base up :=
    Path.dropLast_normalize hrouter
  obtain ⟨here, -, hhere⟩ := Path.exists_normalize hbase up
  obtain ⟨there, hthere, hentry⟩ := Path.exists_normalize hbase c.entryDir
  refine ⟨here, there, hthere, hdirectory.trans hhere, hentry, ?_⟩
  simp only [renderOptions, resolvedImportsBase, hunset, hup, Option.getD_some,
    Path.relativeModulePath, hhere, hentry]

/-- An import begins with a dot and leads to the file of its endpoint. -/
theorem importSource_reaches (hbase : Path.isAbsolute base = true) (hunset : c.importsBase = none)
    (hrouter : Path.fileName? c.routerPath = some name) {e : Endpoint} (he : HasOrdinaryPath e) :
    importSource (c.renderOptions base).importsBase e =
        (c.renderOptions base).importsBase ++ "/" ++ e.sourcePath ∧
      (beginsWith "./" (importSource (c.renderOptions base).importsBase e) ∨
        beginsWith "../" (importSource (c.renderOptions base).importsBase e)) ∧
      Path.resolve (Path.normalize base c.routerPath).dropLast
          (importSource (c.renderOptions base).importsBase e) =
        Path.normalize base (Path.join c.entryDir e.sourcePath) := by
  obtain ⟨here, there, hthere, hhere, hentry, himports⟩ := exists_importsBase hbase hunset hrouter
  obtain ⟨shared, up, down, -, rfl, hway⟩ := Path.exists_way here there
  have hdrop : dropEndChar '/' (c.renderOptions base).importsBase =
      (c.renderOptions base).importsBase := by
    rw [himports, hway]
    exact Path.dropEndChar_wayText (Path.isWay_of_isOrdinary fun n hn =>
      hthere n (List.mem_append_right _ hn))
  have hsource : importSource (c.renderOptions base).importsBase e =
      (c.renderOptions base).importsBase ++ "/" ++ e.sourcePath := by
    rw [importSource, hdrop]
  refine ⟨hsource, ?_, ?_⟩
  · rw [hsource, himports, hway]
    obtain ⟨rest, hrest | hrest⟩ :=
      Path.wayText_slash (List.replicate up.length ".." ++ down)
    · exact .inl (by simp [hrest, beginsWith])
    · exact .inr (by simp [hrest, beginsWith])
  · rw [hsource, himports, hhere, Endpoint.sourcePath, Path.normalize_join _ he, hentry,
      Path.resolve_relativeSpecifier hthere he]
    simp [Path.belowRoot]

/-- Every import of a router, read back from its text, begins with a dot and leads from the
router's directory to the file of its endpoint.  The imports stand in the text of the router, which
is its template with the slots filled in. -/
theorem router_imports_reach_handlers (hbase : Path.isAbsolute base = true)
    (hunset : c.importsBase = none) (hrouter : Path.fileName? c.routerPath = some name)
    (tree : Tree) (template : String)
    (h : ∀ m ∈ routerMarkers, (Document.ofTemplate "server" template).hasSlot m = true) :
    ∃ d text, fillRouter (c.renderOptions base) tree (Document.ofTemplate "server" template) =
        .ok d ∧
      renderRouter (c.renderOptions base) tree template = finish (c.renderOptions base) d ∧
      renderRouter (c.renderOptions base) tree template = .ok text ∧
      IsTextOf (c.renderOptions base) template d text ∧
      ∀ (i : Nat) e, tree.endpointsInOrder[i]? = some e → HasOrdinaryPath e →
        ∃ bound specifier,
          (d.chunks "imports")[i]?.bind readImport? = some (bound, specifier) ∧
          specifier = (c.renderOptions base).importsBase ++ "/" ++ e.sourcePath ∧
          (beginsWith "./" specifier ∨ beginsWith "../" specifier) ∧
          Path.resolve (Path.normalize base c.routerPath).dropLast specifier =
            Path.normalize base (Path.join c.entryDir e.sourcePath) := by
  obtain ⟨d, hok, himports, -⟩ := fillRouter_ok (c.renderOptions base) tree "server" template h
  obtain ⟨text, htext⟩ := finish_ok (c.renderOptions base) d
  have hrender : renderRouter (c.renderOptions base) tree template =
      finish (c.renderOptions base) d := by
    rw [renderRouter, hok]
    rfl
  refine ⟨d, text, hok, hrender, hrender.trans htext,
    isTextOf_of_finish (filledFrom_of_fillRouter hok) htext, fun i e hi he => ?_⟩
  have hlt : i < tree.endpointsInOrder.length := (List.getElem?_eq_some_iff.1 hi).1
  have hname : i < (importNames (.ofTemplate "server" template) tree).length := by
    simpa [importNames] using hlt
  have hzip : (tree.endpointsInOrder.zip (importNames (.ofTemplate "server" template) tree))[i]? =
      some (e, (importNames (.ofTemplate "server" template) tree)[i]) :=
    List.getElem?_zip_eq_some.2 ⟨hi, List.getElem?_eq_getElem hname⟩
  have hread : (d.chunks "imports")[i]?.bind readImport? =
      some ((importNames (.ofTemplate "server" template) tree)[i],
        importSource (c.renderOptions base).importsBase e) := by
    rw [himports, List.getElem?_map, hzip]
    exact readImport?_importLine _ _
  exact ⟨_, _, hread, importSource_reaches hbase hunset hrouter he⟩

end Router

private def distantHandlers : Config :=
  { entryDir := "../shared/./handlers/", routerPath := "src//gen/x/../router.ts/." }

theorem distantHandlers_reached :
    Path.isAbsolute "/work/./app" = true ∧ distantHandlers.importsBase = none ∧
      Path.fileName? distantHandlers.routerPath = some "router.ts" ∧
      (∀ m ∈ routerMarkers, (Document.ofTemplate "server" bareRouter).hasSlot m = true) ∧
      ∃ e, (oneHandler "users" "list").endpointsInOrder[0]? = some e ∧ HasOrdinaryPath e ∧
      ∃ d bound specifier, fillRouter (distantHandlers.renderOptions "/work/./app")
          (oneHandler "users" "list") (Document.ofTemplate "server" bareRouter) = .ok d ∧
        (d.chunks "imports")[0]?.bind readImport? = some (bound, specifier) ∧
        specifier = "../../../shared/handlers/users/list.ts" ∧
        Path.resolve [.root, .named "work", .named "app", .named "src", .named "gen"] specifier =
          [.root, .named "work", .named "shared", .named "handlers", .named "users",
            .named "list.ts"] := by
  have hbase : Path.isAbsolute "/work/./app" = true := by decide
  have hrouter : Path.fileName? distantHandlers.routerPath = some "router.ts" := by decide +kernel
  have h : ∀ m ∈ routerMarkers, (Document.ofTemplate "server" bareRouter).hasSlot m = true := by
    decide +kernel
  have he : HasOrdinaryPath
      { pathSegments := ["users"], functionName := "list", sourceFileName := "list.ts",
        body := none, returns := ⟨"Reply", "type Reply = string;"⟩ } := by
    unfold HasOrdinaryPath
    decide
  obtain ⟨d, text, hok, -, -, -, hreached⟩ :=
    router_imports_reach_handlers hbase rfl hrouter (oneHandler "users" "list") bareRouter h
  obtain ⟨bound, specifier, hread, rfl, -, hresolve⟩ := hreached 0 _ rfl he
  refine ⟨hbase, rfl, hrouter, h, _, rfl, he, d, bound, _, hok, hread, by decide +kernel, ?_⟩
  have hdirectory : (Path.normalize "/work/./app" distantHandlers.routerPath).dropLast =
      [.root, .named "work", .named "app", .named "src", .named "gen"] := by decide +kernel
  rw [← hdirectory, hresolve]
  decide +kernel

end TypedRoutes.Config
