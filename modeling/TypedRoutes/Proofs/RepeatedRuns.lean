import TypedRoutes.Proofs.ApartDocuments

/-! # Runs that are repeated

A second run finds the settings usable and can write where the first one wrote.  So it repeats the
first one if and only if it renders the same documents from what the first one left.  That it does
when the documents are apart from what is read; a client in place of its own template is not.
-/

namespace TypedRoutes
open TypedRoutes.Route TypedRoutes.Script

/-! ## Running again -/

namespace Action
variable {logger : Console.Logger} {c : Config} {site : Site} {s s' : Session} {summary : Summary}

/-- A run gives a summary and leaves both documents as they are. -/
def Repeats (logger : Console.Logger) (c : Config) (site : Site) (summary : Summary)
    (s : Session) : Prop :=
  ∃ s', (generate logger c).exec site s = (.ok summary, s') ∧
    ∀ path ∈ [c.clientPath, c.routerPath],
      s'.files.readText site.directory path = s.files.readText site.directory path

/-- The same documents are rendered again; the client may be another where the router takes its
place. -/
def RendersAgain (c : Config) (directory : Location) (tree : Tree) (documents : Documents)
    (files : FileTree) : Prop :=
  ∃ tree' documents', (c.buildTree files directory).1 = .ok tree' ∧
    c.renderDocuments tree' files directory = .ok documents' ∧
    tree'.endpointCount = tree.endpointCount ∧ documents'.router = documents.router ∧
    (documents'.client = documents.client ∨
      FileTree.locationOf directory c.clientPath = FileTree.locationOf directory c.routerPath)

section Repeats
variable {tree : Tree} {documents : Documents} {files₁ : FileTree}

theorem exec_generation_of_generate (h : (generate logger c).exec site s = (.ok summary, s')) :
    (c.generation site).exec s.files = (.ok summary, s'.files) := by
  rw [← acts_generate logger c s, h]

theorem Repeats.rendersAgain (hbundle : c.bundle = none)
    (hclient : writeDocument s.files site.directory c.clientPath documents.client =
      (.ok (), files₁))
    (hrouter : writeDocument files₁ site.directory c.routerPath documents.router =
      (.ok (), s'.files))
    (h : Repeats logger c site ⟨tree.endpointCount, [c.clientPath, c.routerPath], false⟩ s') :
    RendersAgain c site.directory tree documents s'.files := by
  obtain ⟨s'', hagain, hsame⟩ := h
  obtain ⟨tree', documents', files₂, -, htree', hrender', hclient', hrouter', hsummary⟩ :=
    (Config.exec_generation_eq_ok_iff hbundle).1 (exec_generation_of_generate hagain)
  obtain ⟨hreadRouter, hreadClient⟩ := readText_of_writeDocument hclient hrouter
  obtain ⟨hreadRouter', hreadClient'⟩ := readText_of_writeDocument hclient' hrouter'
  have hrouterSame := hsame c.routerPath (.tail _ (.head _))
  have hclientSame := hsame c.clientPath (.head _)
  rw [hreadRouter, hreadRouter', Except.ok.injEq] at hrouterSame
  rw [hreadClient, hreadClient', Except.ok.injEq] at hclientSame
  refine ⟨tree', documents', htree', hrender', ?_, hrouterSame, ?_⟩
  · exact (congrArg Summary.endpointCount hsummary).symm
  · by_cases hshared : FileTree.locationOf site.directory c.clientPath =
        FileTree.locationOf site.directory c.routerPath
    · exact .inr hshared
    · rw [if_neg hshared, if_neg hshared] at hclientSame
      exact .inl hclientSame

theorem RendersAgain.repeats (hbundle : c.bundle = none)
    (hvalid : c.validate s.files site.directory = .ok ())
    (hclient : writeDocument s.files site.directory c.clientPath documents.client =
      (.ok (), files₁))
    (hrouter : writeDocument files₁ site.directory c.routerPath documents.router =
      (.ok (), s'.files))
    (h : RendersAgain c site.directory tree documents s'.files) :
    Repeats logger c site ⟨tree.endpointCount, [c.clientPath, c.routerPath], false⟩ s' := by
  obtain ⟨tree', documents', htree', hrender', hcount, hsameRouter, hsameClient⟩ := h
  have hwrote₁ := wrote_writeDocument s.files site.directory c.clientPath documents.client
  have hwrote₂ := wrote_writeDocument files₁ site.directory c.routerPath documents.router
  rw [hclient] at hwrote₁
  rw [hrouter] at hwrote₂
  have hvalid' := Config.validate_of_keeps (hwrote₁.keeps.trans hwrote₂.keeps) hvalid
  obtain ⟨l₁, -, hclient'⟩ := writeDocument_again hclient hwrote₂.keeps documents'.client
  have hwrote₃ := wrote_writeDocument s'.files site.directory c.clientPath documents'.client
  rw [hclient'] at hwrote₃
  obtain ⟨l₂, -, hrouter'⟩ := writeDocument_again hrouter hwrote₃.keeps documents'.router
  have hgives : Gives site (generate logger c) s'.files _ _ :=
    (acts_generate logger c).gives <| (Config.exec_generation_eq_ok_iff hbundle).2
      ⟨tree', documents', _, hvalid', htree', hrender', hclient', hrouter', rfl⟩
  obtain ⟨said, hagain⟩ := hgives s'.said
  obtain ⟨hreadRouter, hreadClient⟩ := readText_of_writeDocument hclient hrouter
  obtain ⟨hreadRouter', hreadClient'⟩ := readText_of_writeDocument hclient' hrouter'
  rw [hcount] at hagain
  refine ⟨_, hagain, ?_⟩
  intro path hpath
  simp only [List.mem_cons, List.not_mem_nil, or_false] at hpath
  rcases hpath with rfl | rfl
  · rw [hreadClient, hreadClient', hsameRouter]
    rcases hsameClient with hsame | hshared
    · rw [hsame]
    · rw [if_pos hshared, if_pos hshared]
  · rw [hreadRouter, hreadRouter', hsameRouter]

end Repeats

/-- A run that succeeded is repeated if and only if the same documents are rendered from what it
left.  In files that are well-formed this is so if the documents are apart from all that is read. -/
theorem repeats_iff_renders_again (hbundle : c.bundle = none)
    (h : (generate logger c).exec site s = (.ok summary, s')) :
    ∃ tree documents, (c.buildTree s.files site.directory).1 = .ok tree ∧
      c.renderDocuments tree s.files site.directory = .ok documents ∧
      (Repeats logger c site summary s' ↔
        RendersAgain c site.directory tree documents s'.files) ∧
      (s.files.WellFormed → c.Apart site.directory s.files documents →
        Repeats logger c site summary s') := by
  have hgeneration := exec_generation_of_generate h
  obtain ⟨tree, documents, files₁, hvalid, htree, hrender, hclient, hrouter, rfl⟩ :=
    (Config.exec_generation_eq_ok_iff hbundle).1 hgeneration
  have hback : RendersAgain c site.directory tree documents s'.files → Repeats logger c site
      ⟨tree.endpointCount, [c.clientPath, c.routerPath], false⟩ s' :=
    RendersAgain.repeats hbundle hvalid hclient hrouter
  refine ⟨tree, documents, htree, hrender, ⟨?_, hback⟩, ?_⟩
  · exact Repeats.rendersAgain hbundle hclient hrouter
  · intro hfiles hapart
    have hleft := Config.left_of_generation hgeneration hclient hrouter
    obtain ⟨tree', htree', hrender', hcount⟩ := hapart.reads_again hfiles hleft htree hrender
    exact hback ⟨tree', documents, htree', hrender', hcount, rfl, .inl rfl⟩

/-- A handler that takes its types from a module beside the entry directory; both templates hold
little more than their markers. -/
def importingProject : Session := { files := ⟨[(["api"], .directory), (["shared"], .directory),
  (["api", "list.ts"], .file (.text
    "import \x7b Page \x7d from \"../shared/page\";\nexport default async function list(): Promise<Page> \x7b return []; \x7d\n")),
  (["shared", "page.ts"], .file (.text "export type Page = string[];\n")),
  (["client.txt"], .file (.text
    "/* \x7b\x7btypes\x7d\x7d */\nexport default class \x7b\n\t/* \x7b\x7bfunctions\x7d\x7d */\n\x7d\n")),
  (["router.txt"],
    .file (.text "/* \x7b\x7bimports\x7d\x7d */\n/* \x7b\x7broutes\x7d\x7d */\n"))]⟩ }

/-- The client goes into a directory below the entry directory that is not inspected. -/
def importingConfig : Config :=
  { entryDir := "api", clientOutDir := "api/.generated", clientName := "Rpc",
    routerPath := "srv/router.ts", clientTemplate := some "client.txt",
    serverTemplate := some "router.txt" }

theorem clear_importingProject :
    ((loadModule importingProject.files [] "api/list.ts").map fun m =>
      decide (∀ item ∈ m.items, ∀ path ∈ item.candidates "api",
        importingProject.files.Clear [] [importingConfig.clientPath, importingConfig.routerPath]
          path)) = .ok true := by decide +kernel

theorem importingProject_apart (documents : Documents) :
    importingConfig.Apart [] importingProject.files documents := by
  have hentry : FileTree.locationOf [] importingConfig.entryDir = ["api"] := rfl
  have hclient : FileTree.locationOf [] importingConfig.clientPath =
      ["api", ".generated", "Rpc.ts"] := rfl
  have hrouter : FileTree.locationOf [] importingConfig.routerPath = ["srv", "router.ts"] := rfl
  constructor
  · have hclientTemplate : FileTree.locationOf [] "client.txt" = ["client.txt"] := rfl
    have hrouterTemplate : FileTree.locationOf [] "router.txt" = ["router.txt"] := rfl
    rintro path (hpath | hpath)
    · obtain rfl := Option.some.inj hpath
      simp [hclientTemplate, hclient, hrouter]
    · obtain rfl := Option.some.inj hpath
      simp [hrouterTemplate, hclient, hrouter]
  · intro segments name hinspected output text hwritten hplace
    rw [hentry] at hplace
    rcases List.mem_cons.1 hwritten with hfirst | hsecond
    · obtain ⟨rfl, rfl⟩ := Prod.mk.inj hfirst
      rw [hclient, List.append_assoc] at hplace
      have hbelow : segments ++ [name] = [".generated"] ++ ["Rpc.ts"] :=
        List.append_cancel_left hplace
      have hincluded := hinspected.included .standard rfl [".generated"]
        (hbelow ▸ List.prefix_append _ _) (by simp)
      have hexcluded : Exclusion.standard.covers (Text.join "/" [".generated"]) = true := rfl
      rw [hexcluded] at hincluded
      cases hincluded
    · obtain ⟨rfl, rfl⟩ := Prod.mk.inj (List.mem_singleton.1 hsecond)
      rw [hrouter] at hplace
      simp at hplace
  · intro segments name content _ hnode _ m hm item hitem path hpath
    rw [hentry] at hnode
    have hbelow : segments ++ [name] = [] ++ ["list.ts"] := by
      rcases FileTree.mem_nodes_of_node? hnode with hnil | hmem
      · simp at hnil
      · simpa [importingProject] using hmem
    obtain ⟨rfl, hname⟩ := List.append_inj' hbelow rfl
    obtain rfl := List.singleton_inj.1 hname
    have hmodule : importingConfig.modulePath [] "list.ts" = "api/list.ts" := rfl
    have himporter : (Path.parent? "api/list.ts").getD "." = "api" := rfl
    have hclear := clear_importingProject
    rw [hmodule] at hm hpath
    rw [himporter] at hpath
    rw [hm] at hclear
    exact of_decide_eq_true (Except.ok.inj hclear) item hitem path hpath

/-- What is imported is the same in the next run, and a client that is passed over is no handler. -/
theorem importingProject_repeats :
    let site : Site := ⟨[], basicPrograms⟩
    let done := (generate {} importingConfig).exec site importingProject
    importingConfig.bundle = none ∧
      done.1 = .ok ⟨1, ["api/.generated/Rpc.ts", "srv/router.ts"], false⟩ ∧
      importingProject.files.WellFormed ∧
      (∀ documents, importingConfig.Apart site.directory importingProject.files documents) ∧
      Repeats {} importingConfig site ⟨1, ["api/.generated/Rpc.ts", "srv/router.ts"], false⟩
        done.2 := by
  intro site done
  have hresult : done.1 = .ok ⟨1, ["api/.generated/Rpc.ts", "srv/router.ts"], false⟩ := by
    decide +kernel
  have hfiles : importingProject.files.WellFormed := by decide +kernel
  obtain ⟨tree, documents, -, -, -, hrepeats⟩ :=
    repeats_iff_renders_again rfl (Prod.ext hresult rfl : done = (_, done.2))
  exact ⟨rfl, hresult, hfiles, importingProject_apart,
    hrepeats hfiles (importingProject_apart documents)⟩

/-- A client that takes the place of its own template has no markers: the next run fails. -/
theorem overwrittenTemplate_fails :
    let site : Site := ⟨[], basicPrograms⟩
    let c : Config :=
      { entryDir := "api", clientOutDir := "out", clientName := "Rpc",
        routerPath := "srv/router.ts", clientTemplate := some "out/Rpc.ts",
        serverTemplate := some "router.txt", emitHeader := some false }
    let session : Session := { files := ⟨[(["api"], .directory), (["out"], .directory),
      (["out", "Rpc.ts"],
        .file (.text "/* \x7b\x7btypes\x7d\x7d */\n/* \x7b\x7bfunctions\x7d\x7d */\n")),
      (["router.txt"],
        .file (.text "/* \x7b\x7bimports\x7d\x7d */\n/* \x7b\x7broutes\x7d\x7d */\n"))]⟩ }
    let done := (generate {} c).exec site session
    c.bundle = none ∧ session.files.WellFormed ∧
      done.1 = .ok ⟨0, ["out/Rpc.ts", "srv/router.ts"], false⟩ ∧
      ((generate {} c).exec site done.2).1 = .error (.missingMarker "client" "types") ∧
      ¬Repeats {} c site ⟨0, ["out/Rpc.ts", "srv/router.ts"], false⟩ done.2 := by
  intro site c session done
  have hfails : ((generate {} c).exec site done.2).1 = .error (.missingMarker "client" "types") := by
    decide +kernel
  refine ⟨rfl, by decide +kernel, by decide +kernel, hfails, ?_⟩
  rintro ⟨s', hagain, -⟩
  rw [hagain] at hfails
  cases hfails

end Action

end TypedRoutes
