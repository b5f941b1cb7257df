import TypedRoutes.Proofs.SuccessfulRuns
import TypedRoutes.Proofs.WrittenPlaces

/-! # Documents that arrive

The router is written after the client.  So the router is always found where it was written, and the
client unless both paths name the same location, however they are spelled.
-/

namespace TypedRoutes

/-! ## Locations that paths name -/

namespace FileTree

def stepTo (l : Location) (piece : String) : Location :=
  if piece = "" ∨ piece = "." then l
  else if piece = ".." then l.dropLast
  else l ++ [piece]

def locationOf (directory : Location) (path : String) : Location :=
  (startOf directory path).2.foldl stepTo (startOf directory path).1

section LocationOf
variable {t : FileTree} {directory l l' : Location} {path : String} {pieces : List String}

theorem foldl_stepTo_of_follow (h : t.follow l pieces = .ok l') : pieces.foldl stepTo l = l' := by
  induction pieces generalizing l with
  | nil => exact Except.ok.inj h
  | cons piece pieces ih =>
    obtain ⟨-, ⟨hstay, hrest⟩ | ⟨rfl, hrest⟩ | ⟨hname, -, hrest⟩⟩ := follow_cons_eq_ok.1 h
    · rw [List.foldl_cons, stepTo, if_pos hstay]
      exact ih hrest
    · exact ih hrest
    · rw [List.foldl_cons, stepTo, if_neg (by simp [hname]), if_neg hname.2.2]
      exact ih hrest

/-- A path leads nowhere but to the location that it names. -/
theorem LeadsTo.eq_locationOf (h : LeadsTo t directory path l) : l = locationOf directory path := by
  obtain ⟨above, last, l', hpieces, hfollow, -, hlast, rfl⟩ := h.way
  have hname : last ≠ "" ∧ last ≠ "." ∧ last ≠ ".." := by
    simpa [isDirectoryName, and_assoc] using hlast
  rw [locationOf, hpieces, List.foldl_append, foldl_stepTo_of_follow hfollow, List.foldl_cons,
    List.foldl_nil, stepTo, if_neg (by simp [hname]), if_neg hname.2.2]

theorem LeadsTo.readText (h : LeadsTo t directory path l) {text : String}
    (hl : t.node? l = some (.file (.text text))) : t.readText directory path = .ok text :=
  readText_of_find (h.find hl)

end LocationOf

end FileTree

/-! ## Written documents -/

section Documents
variable {files files' : FileTree} {directory : Location} {path text : String}

theorem leadsTo_of_writeDocument (h : writeDocument files directory path text = (.ok (), files')) :
    ∃ l, files'.LeadsTo directory path l ∧ files'.node? l = some (.file (.text text)) := by
  obtain ⟨made, -, hwrite⟩ := writeDocument_eq_ok.1 h
  obtain ⟨l, hleads, hl, rfl⟩ := FileTree.leadsTo_of_write hwrite
  exact ⟨l, (FileTree.keeps_setFile hl _).leadsTo hleads,
    FileTree.node?_setNode_self hleads.ne_nil⟩

/-- Of two documents the second is read where it was written, and the first unless the second was
written in the same location. -/
theorem readText_of_writeDocument {path₁ path₂ text₁ text₂ : String} {files₁ files₂ : FileTree}
    (h₁ : writeDocument files directory path₁ text₁ = (.ok (), files₁))
    (h₂ : writeDocument files₁ directory path₂ text₂ = (.ok (), files₂)) :
    files₂.readText directory path₂ = .ok text₂ ∧
      files₂.readText directory path₁ = .ok
        (if FileTree.locationOf directory path₁ = FileTree.locationOf directory path₂ then text₂
          else text₁) := by
  obtain ⟨l₁, hleads₁, hl₁⟩ := leadsTo_of_writeDocument h₁
  obtain ⟨l₂, hleads₂, hl₂⟩ := leadsTo_of_writeDocument h₂
  have hwrote := wrote_writeDocument files₁ directory path₂ text₂
  rw [h₂] at hwrote
  have hstill := hwrote.keeps.leadsTo hleads₁
  refine ⟨hleads₂.readText hl₂, hstill.readText ?_⟩
  rw [← hleads₁.eq_locationOf, ← hleads₂.eq_locationOf]
  split
  · rename_i heq
    rwa [heq]
  · rename_i hne
    refine hwrote.unchanged hl₁ fun path hpath hleads => hne ?_
    obtain rfl := List.mem_singleton.1 hpath
    rw [hleads.eq_locationOf, ← hleads₂.eq_locationOf]

end Documents

/-! ## Runs -/

namespace Action

/-- After a run that succeeds the router is read where it was written, and so is the client unless
the router has taken its place. -/
theorem documents_arrive_iff {logger : Console.Logger} {c : Config} {site : Site}
    {s s' : Session} {summary : Summary} (hbundle : c.bundle = none)
    (h : (generate logger c).exec site s = (.ok summary, s')) :
    ∃ tree documents, (c.buildTree s.files site.directory).1 = .ok tree ∧
      c.renderDocuments tree s.files site.directory = .ok documents ∧
      s'.files.readText site.directory c.routerPath = .ok documents.router ∧
      (s'.files.readText site.directory c.clientPath = .ok documents.client ↔
        FileTree.locationOf site.directory c.clientPath ≠
            FileTree.locationOf site.directory c.routerPath ∨
          documents.client = documents.router) := by
  have hgeneration : (c.generation site).exec s.files = (.ok summary, s'.files) := by
    rw [← acts_generate logger c s, h]
  obtain ⟨tree, documents, files', -, htree, hrender, hclient, hrouter, -⟩ :=
    (Config.exec_generation_eq_ok_iff hbundle).1 hgeneration
  obtain ⟨hreadRouter, hreadClient⟩ := readText_of_writeDocument hclient hrouter
  refine ⟨tree, documents, htree, hrender, hreadRouter, ?_⟩
  rw [hreadClient, Except.ok.injEq]
  split
  · rename_i heq
    simp [heq, eq_comm]
  · rename_i hne
    simp [hne]

def bareProject : Session := { files := ⟨[(["api"], .directory),
  (["client.txt"],
    .file (.text "/* \x7b\x7btypes\x7d\x7d */\n/* \x7b\x7bfunctions\x7d\x7d */\nclient\n")),
  (["router.txt"],
    .file (.text "/* \x7b\x7bimports\x7d\x7d */\n/* \x7b\x7broutes\x7d\x7d */\nrouter\n"))]⟩ }

/-- Both documents arrive where winding paths lead, in directories that are made for them. -/
theorem windingPaths_arrive :
    let site : Site := ⟨[], basicPrograms⟩
    let c : Config :=
      { entryDir := "api", clientOutDir := "web/../out", clientName := "Rpc",
        routerPath := "./out//Router.ts", clientTemplate := some "client.txt",
        serverTemplate := some "router.txt" }
    let done := (generate {} c).exec site bareProject
    c.bundle = none ∧ done.1 = .ok ⟨0, ["web/../out/Rpc.ts", "./out//Router.ts"], false⟩ ∧
      ∃ tree documents, (c.buildTree bareProject.files site.directory).1 = .ok tree ∧
        c.renderDocuments tree bareProject.files site.directory = .ok documents ∧
        done.2.files.readText site.directory c.routerPath = .ok documents.router ∧
        done.2.files.readText site.directory c.clientPath = .ok documents.client := by
  intro site c done
  have hresult : done.1 = .ok ⟨0, ["web/../out/Rpc.ts", "./out//Router.ts"], false⟩ := by
    decide +kernel
  have hplaces : FileTree.locationOf site.directory c.clientPath ≠
      FileTree.locationOf site.directory c.routerPath := by decide +kernel
  obtain ⟨tree, documents, htree, hrender, hrouter, hclient⟩ :=
    documents_arrive_iff rfl (Prod.ext hresult rfl : done = (_, done.2))
  exact ⟨rfl, hresult, tree, documents, htree, hrender, hrouter, hclient.2 (.inl hplaces)⟩

/-- The router takes the place of the client where both paths name one file. -/
theorem sharedPath_overwritten :
    let site : Site := ⟨[], basicPrograms⟩
    let c : Config :=
      { entryDir := "api", clientOutDir := "out", clientName := "Rpc",
        routerPath := "./out//Rpc.ts", clientTemplate := some "client.txt",
        serverTemplate := some "router.txt", emitHeader := some false }
    let done := (generate {} c).exec site bareProject
    c.bundle = none ∧ done.1 = .ok ⟨0, ["out/Rpc.ts", "./out//Rpc.ts"], false⟩ ∧
      (do let tree ← (c.buildTree bareProject.files site.directory).1
          c.renderDocuments tree bareProject.files site.directory) =
        .ok ⟨"client\n", "router\n"⟩ ∧
      done.2.files.readText site.directory c.clientPath = .ok "router\n" := by
  decide +kernel

end Action

end TypedRoutes
