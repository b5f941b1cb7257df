import TypedRoutes.Proofs.RelistedDirectories
import TypedRoutes.Proofs.RereadModules
import TypedRoutes.Proofs.StoredSettings
import TypedRoutes.Proofs.WrittenAgain

/-! # Documents apart from what is read

A run reads templates, the modules below the entry directory, and the files that their imports may
name.  If its documents are apart from all of these, the same documents are rendered from what the
run left.  It is not checked that they are.
-/

namespace TypedRoutes
open TypedRoutes.Route TypedRoutes.Script

/-! ## Parts of a run that read -/

theorem Route.Holdings.endpoint?_eq_none {holds : Holdings} {directory name : String}
    {segments : List String} (h : ∀ e, holds (Path.join directory name) segments ≠ .ok (some e)) :
    holds.endpoint? directory segments name = none := by
  unfold Holdings.endpoint?
  split
  · split
    · rename_i found hfound
      exact Option.eq_none_iff_forall_ne_some.2 fun e he => h e (he ▸ hfound)
    · rfl
  · rfl

namespace Config
variable {c : Config} {files files' : FileTree} {directory : Location}

theorem buildTree_eq {x : Exclusion} {top : Location} (hx : c.exclusion = .ok x)
    (htop : files.find directory c.entryDir = .ok (top, .directory)) :
    (c.buildTree files directory).1 =
      .ok (mirror (Analyzer.holdings files directory c.allowsParameterless) c.entryDir []
        (keptEntries x.covers (Analyzer.holdings files directory c.allowsParameterless) c.entryDir []
          (files.entries top))) := by
  unfold buildTree
  rw [hx]
  exact Builder.build_eq
    (Analyzer.extracts_moduleBuilder files directory c.allowsParameterless x) htop {}

theorem exists_of_buildTree {tree : Tree} (h : (c.buildTree files directory).1 = .ok tree) :
    ∃ x top, c.exclusion = .ok x ∧ files.find directory c.entryDir = .ok (top, .directory) := by
  unfold buildTree at h
  split at h
  · cases h
  · rename_i x hx
    obtain ⟨top, htop⟩ := Builder.exists_of_build h
    exact ⟨x, top, hx, htop⟩

theorem renderDocuments_congr {tree tree' : Tree} (htree : tree'.pruned = tree.pruned)
    (htemplates : ∀ builtIn path, path = c.clientTemplate ∨ path = c.serverTemplate →
      templateText files' directory builtIn path = templateText files directory builtIn path) :
    c.renderDocuments tree' files' directory = c.renderDocuments tree files directory := by
  have hclient (options : Render.Options) (template : String) :
      Render.renderClient options tree' template = Render.renderClient options tree template := by
    rw [Render.renderClient, ← Render.fillClient_pruned, htree, Render.fillClient_pruned,
      Render.renderClient]
  have hrouter (options : Render.Options) (template : String) :
      Render.renderRouter options tree' template = Render.renderRouter options tree template := by
    rw [Render.renderRouter, ← Render.fillRouter_pruned, htree, Render.fillRouter_pruned,
      Render.renderRouter]
  unfold renderDocuments
  rw [htemplates _ _ (.inl rfl), htemplates _ _ (.inr rfl)]
  simp only [hclient, hrouter]

theorem exists_template_of_renderDocuments {tree : Tree} {documents : Documents}
    (h : c.renderDocuments tree files directory = .ok documents) {path : String}
    (hpath : c.clientTemplate = some path ∨ c.serverTemplate = some path) :
    ∃ text, files.readText directory path = .ok text := by
  have htemplate {builtIn : String} {text : String}
      (h : templateText files directory builtIn (some path) = .ok text) :
      ∃ text, files.readText directory path = .ok text := by
    cases hread : files.readText directory path with
    | ok text => exact ⟨text, rfl⟩
    | error e =>
      rw [templateText, hread] at h
      cases h
  unfold renderDocuments at h
  obtain ⟨clientTemplate, hclient, h⟩ := bind_eq_ok h
  obtain ⟨routerTemplate, hrouter, -⟩ := bind_eq_ok h
  rcases hpath with hpath | hpath
  · rw [hpath] at hclient
    exact htemplate hclient
  · rw [hpath] at hrouter
    exact htemplate hrouter

/-! ## Documents apart from what is read -/

/-- The documents of a run, each with the path it is written at. -/
def written (c : Config) (documents : Documents) : List (String × String) :=
  [(c.clientPath, documents.client), (c.routerPath, documents.router)]

def modulePath (c : Config) (segments : List String) (name : String) : String :=
  Path.join (segments.foldl Path.join c.entryDir) name

/-- A place below the entry directory where a module is inspected: it has the name of a source, and
no pattern covers it or a directory on the way. -/
structure Inspected (c : Config) (segments : List String) (name : String) : Prop where
  source : isHandlerSource name = true
  included : ∀ x, c.exclusion = .ok x → Included x.covers (segments ++ [name])

/-- What a run writes is apart from what it reads.  No template is where a document goes.  Where a
document goes to a place that is inspected, no endpoint was there and the document exports no
function.  All other modules that are inspected import nothing by a path that documents are on. -/
structure Apart (c : Config) (directory : Location) (files : FileTree) (documents : Documents) :
    Prop where
  templates : ∀ path, c.clientTemplate = some path ∨ c.serverTemplate = some path →
    ∀ output ∈ [c.clientPath, c.routerPath],
      FileTree.locationOf directory path ≠ FileTree.locationOf directory output
  handlers : ∀ segments name, c.Inspected segments name →
    ∀ output text, (output, text) ∈ c.written documents →
      FileTree.locationOf directory c.entryDir ++ segments ++ [name] =
        FileTree.locationOf directory output →
      (Analyzer.holdings files directory c.allowsParameterless).endpoint?
          (segments.foldl Path.join c.entryDir) segments name = none ∧
        exportsFunction name (c.modulePath segments name) text = false
  imports : ∀ segments name content, c.Inspected segments name →
    files.node? (FileTree.locationOf directory c.entryDir ++ segments ++ [name]) =
      some (.file content) →
    (∀ output ∈ [c.clientPath, c.routerPath],
      FileTree.locationOf directory c.entryDir ++ segments ++ [name] ≠
        FileTree.locationOf directory output) →
    ∀ m, loadModule files directory (c.modulePath segments name) = .ok m → ∀ item ∈ m.items,
      ∀ path ∈ item.candidates ((Path.parent? (c.modulePath segments name)).getD "."),
        files.Clear directory [c.clientPath, c.routerPath] path

/-! ## What a run leaves -/

def places (c : Config) (directory : Location) : List Location :=
  [c.clientPath, c.routerPath].map (FileTree.locationOf directory)

/-- How files that a run has left differ from those that it found. -/
structure Left (c : Config) (directory : Location) (documents : Documents)
    (files files' : FileTree) : Prop where
  wrote : FileTree.Wrote directory [c.clientPath, c.routerPath] files files'
  made : FileTree.Made directory {up | ∃ path ∈ [c.clientPath, c.routerPath], Path.Above up path}
    files files'
  without : files'.without (files.vacant (c.places directory)) =
    files.without (files.vacant (c.places directory))
  wellFormed : files.StaysWellFormed files'
  documents : ∀ l ∈ c.places directory, ∃ path text, (path, text) ∈ c.written documents ∧
    l = FileTree.locationOf directory path ∧ files'.node? l = some (.file (.text text))

theorem left_of_generation {site : Site} {files₁ : FileTree} {summary : Summary}
    {documents : Documents} (h : (c.generation site).exec files = (.ok summary, files'))
    (hclient : writeDocument files site.directory c.clientPath documents.client =
      (.ok (), files₁))
    (hrouter : writeDocument files₁ site.directory c.routerPath documents.router =
      (.ok (), files')) :
    c.Left site.directory documents files files' := by
  have hfiles : files' = ((c.generation site).exec files).2 := by rw [h]
  obtain ⟨l₁, hleads₁, hl₁⟩ := leadsTo_of_writeDocument hclient
  obtain ⟨l₂, hleads₂, hl₂⟩ := leadsTo_of_writeDocument hrouter
  have hsame : (c.generation site).Relates
      (FileTree.SameBut files (c.places site.directory)) :=
    relates_generation fun path hpath text files =>
      sameBut_writeDocument (List.mem_map_of_mem hpath) text files
  have hwrote := wrote_writeDocument files₁ site.directory c.routerPath documents.router
  rw [hrouter] at hwrote
  constructor
  · rw [hfiles]
    exact c.wrote_generation files
  · rw [hfiles]
    exact c.made_generation files
  · rw [hfiles]
    exact (hsame files (.refl files)).2
  · rw [hfiles]
    exact c.staysWellFormed_generation site files
  · intro l hl
    rw [hleads₁.eq_locationOf] at hl₁
    rw [hleads₂.eq_locationOf] at hl₂
    have hrouterThere : ∃ path text, (path, text) ∈ c.written documents ∧
        FileTree.locationOf site.directory c.routerPath =
          FileTree.locationOf site.directory path ∧
        files'.node? (FileTree.locationOf site.directory c.routerPath) =
          some (.file (.text text)) :=
      ⟨c.routerPath, documents.router, .tail _ (.head _), rfl, hl₂⟩
    simp only [places, List.map_cons, List.map_nil, List.mem_cons, List.not_mem_nil,
      or_false] at hl
    rcases hl with rfl | rfl
    · by_cases hshared : FileTree.locationOf site.directory c.clientPath =
          FileTree.locationOf site.directory c.routerPath
      · rwa [hshared]
      · refine ⟨c.clientPath, documents.client, .head _, rfl, hwrote.unchanged hl₁ ?_⟩
        intro path hpath hleads
        rw [List.mem_singleton.1 hpath] at hleads
        exact hshared hleads.eq_locationOf
    · exact hrouterThere

/-! ## Reading again -/

section Again
variable {documents : Documents} {x : Exclusion} {top : Location}

theorem Apart.templateText_eq (h : c.Apart directory files documents)
    (hleft : c.Left directory documents files files') {tree : Tree}
    (hrender : c.renderDocuments tree files directory = .ok documents) (builtIn : String)
    {path : Option String} (hpath : path = c.clientTemplate ∨ path = c.serverTemplate) :
    templateText files' directory builtIn path = templateText files directory builtIn path := by
  cases path with
  | none => rfl
  | some path =>
    have htemplate : c.clientTemplate = some path ∨ c.serverTemplate = some path :=
      hpath.imp Eq.symm Eq.symm
    obtain ⟨text, htext⟩ := exists_template_of_renderDocuments hrender htemplate
    obtain ⟨l, hfind⟩ := FileTree.find_of_readText htext
    obtain ⟨-, -, hnode⟩ := FileTree.find_eq_ok.1 hfind
    have helsewhere : ∀ other ∈ [c.clientPath, c.routerPath],
        l ≠ FileTree.locationOf directory other := by
      rw [FileTree.eq_locationOf_of_find hfind]
      exact h.templates path htemplate
    have hfind' := hleft.wrote.keeps.find hfind
      ((hleft.wrote.file_of_elsewhere helsewhere).2 hnode)
    rw [templateText, templateText, htext, FileTree.readText_of_find hfind']

/-- A module that is no document holds what it held before. -/
theorem Apart.holdings_eq (h : c.Apart directory files documents) (hfiles : files.WellFormed)
    (hleft : c.Left directory documents files files') {segments : List String} {name : String}
    (hinspected : c.Inspected segments name) {content : Content}
    (hfind : files.find directory (c.modulePath segments name) =
      .ok (FileTree.locationOf directory c.entryDir ++ segments ++ [name], .file content))
    (helsewhere : ∀ output ∈ [c.clientPath, c.routerPath],
      FileTree.locationOf directory c.entryDir ++ segments ++ [name] ≠
        FileTree.locationOf directory output) :
    Analyzer.holdings files' directory c.allowsParameterless (c.modulePath segments name) segments =
      Analyzer.holdings files directory c.allowsParameterless (c.modulePath segments name)
        segments := by
  obtain ⟨-, -, hnode⟩ := FileTree.find_eq_ok.1 hfind
  have hfind' := hleft.wrote.keeps.find hfind
    ((hleft.wrote.file_of_elsewhere helsewhere).2 hnode)
  refine Analyzer.holdings_congr (collect_congr (hfind'.trans hfind.symm) ?_)
  intro m hm item hitem path hpath l content
  have hclear :=
    h.imports segments name _ hinspected hnode helsewhere m hm item hitem path hpath
  exact hclear.find_file_iff hfiles hleft.wrote hleft.made

theorem find_modulePath (ht : files.WellFormed)
    (htop : files.find directory c.entryDir = .ok (top, .directory)) {segments : List String}
    {name : String} {n : Node} (hn : files.node? (top ++ segments ++ [name]) = some n) :
    files.find directory (c.modulePath segments name) = .ok (top ++ segments ++ [name], n) := by
  rw [List.append_assoc] at hn ⊢
  have hfind := ht.find_below htop hn
  rwa [List.foldl_concat] at hfind

theorem Apart.relisted (h : c.Apart directory files documents) (hfiles : files.WellFormed)
    (hleft : c.Left directory documents files files') (hx : c.exclusion = .ok x)
    (htop : files.find directory c.entryDir = .ok (top, .directory)) :
    Relisted x.covers (Analyzer.holdings files directory c.allowsParameterless)
      (Analyzer.holdings files' directory c.allowsParameterless) files files'
      (c.places directory) c.entryDir top := by
  obtain rfl := FileTree.eq_locationOf_of_find htop
  have hkeeps := hleft.wrote.keeps
  have hinspected {segments : List String} {name : String}
      (hsource : isHandlerSource name = true)
      (hincluded : Included x.covers (segments ++ [name])) : c.Inspected segments name := by
    refine ⟨hsource, fun x' hx' => ?_⟩
    obtain rfl := Except.ok.inj (hx.symm.trans hx')
    exact hincluded
  refine ⟨hkeeps, hleft.without, hfiles.reached, ?_, ?_, ?_, ?_⟩
  · intro l hl
    obtain ⟨path, text, -, -, hnode⟩ := hleft.documents l hl
    exact ⟨.text text, hnode⟩
  · intro l content hnode hl
    refine (hleft.wrote.file_of_elsewhere fun other hother heq => hl ?_).1 hnode
    exact List.mem_map.2 ⟨other, hother, heq.symm⟩
  · intro segments name content hincluded hnode hplace
    unfold Holdings.endpoint?
    split
    · rename_i hsource
      have hsame := h.holdings_eq hfiles hleft (hinspected hsource hincluded)
        (find_modulePath hfiles htop hnode)
        fun output houtput heq => hplace (List.mem_map.2 ⟨output, houtput, heq.symm⟩)
      unfold modulePath at hsame
      rw [hsame]
    · rfl
  · intro segments name hincluded hplace
    by_cases hsource : isHandlerSource name = true
    · obtain ⟨path, text, hwritten, hl, hnode⟩ := hleft.documents _ hplace
      obtain ⟨hbefore, hplain⟩ :=
        h.handlers segments name (hinspected hsource hincluded) path text hwritten hl
      have hfind' := find_modulePath (hleft.wellFormed hfiles) (hkeeps.find_directory htop) hnode
      have hafter (e : Endpoint) : Analyzer.holdings files' directory c.allowsParameterless
          (c.modulePath segments name) segments ≠ .ok (some e) :=
        Analyzer.holdings_ne_some hfind' (by rwa [List.getLast?_concat]) e
      exact ⟨hbefore, Holdings.endpoint?_eq_none hafter⟩
    · exact ⟨if_neg hsource, if_neg hsource⟩

/-- The same documents are rendered from what a run left, and the same endpoints found. -/
theorem Apart.reads_again (h : c.Apart directory files documents) (hfiles : files.WellFormed)
    (hleft : c.Left directory documents files files') {tree : Tree}
    (htree : (c.buildTree files directory).1 = .ok tree)
    (hrender : c.renderDocuments tree files directory = .ok documents) :
    ∃ tree', (c.buildTree files' directory).1 = .ok tree' ∧
      c.renderDocuments tree' files' directory = .ok documents ∧
      tree'.endpointCount = tree.endpointCount := by
  obtain ⟨x, top, hx, htop⟩ := exists_of_buildTree htree
  have htop' := hleft.wrote.keeps.find_directory htop
  have hpruned := (h.relisted hfiles hleft hx htop).pruned_mirror
  rw [buildTree_eq hx htop] at htree
  obtain rfl := Except.ok.inj htree
  refine ⟨_, buildTree_eq hx htop', ?_, ?_⟩
  · rw [← hrender]
    exact renderDocuments_congr hpruned fun builtIn path =>
      h.templateText_eq hleft hrender builtIn
  · rw [Tree.endpointCount_eq, Tree.endpointCount_eq, ← Tree.endpointsInOrder_pruned, hpruned,
      Tree.endpointsInOrder_pruned]

end Again

end Config

end TypedRoutes
