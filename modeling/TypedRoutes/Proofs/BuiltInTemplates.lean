import TypedRoutes.Generation
import TypedRoutes.Proofs.CallPaths

/-! # The built-in templates

Both have the markers that templates are required to have, so documents are rendered from them
whatever the handlers are.  The header that goes before a document makes a comment its beginning.
-/

namespace TypedRoutes

namespace Template

theorem toList_ofLines (lines : List String) :
    (ofLines lines).toList = lines.flatMap fun line => line.toList ++ ['\n'] := by
  induction lines with
  | nil => rfl
  | cons line lines ih =>
    rw [ofLines, List.map_cons, String.join_cons, String.toList_append, String.toList_append,
      List.flatMap_cons, ← ih]
    rfl

theorem hasSlot_clientTemplate :
    ∀ m ∈ Render.clientMarkers, (Document.ofTemplate "client" clientTemplate).hasSlot m = true := by
  rw [Document.ofTemplate, clientTemplate, toList_ofLines]
  decide +kernel

theorem hasSlot_routerTemplate :
    ∀ m ∈ Render.routerMarkers, (Document.ofTemplate "server" routerTemplate).hasSlot m = true := by
  rw [Document.ofTemplate, routerTemplate, toList_ofLines]
  decide +kernel

theorem header_generatorName :
    header generatorName = .ok "// Generated by rpc-typegen v0.1.0. Do not edit by hand." := by
  decide +kernel

end Template

namespace Render
open TypedRoutes.Template TypedRoutes.Route

variable {options : Options} {tree : Tree}

theorem finish_header (h : options.emitHeader = true) (d : Document) :
    ∃ rest, finish options d = .ok ("/" ++ rest) := by
  refine ⟨"/ Generated by rpc-typegen v0.1.0. Do not edit by hand." ++ ("\n\n" ++
    String.ofList (d.render.toList.dropWhile (· == '\n'))), ?_⟩
  rw [finish, h, if_pos rfl, header_generatorName, ← String.append_assoc]
  change Except.ok (_ ++ "\n\n" ++ _) = _
  rw [String.append_assoc]
  rfl

theorem renderClient_builtIn (options : Options) (h : tree.belowNamed = true) :
    ∃ client, renderClient options tree clientTemplate = .ok client := by
  obtain ⟨client, hfinish⟩ :=
    finish_ok options (filledClient options tree (.ofTemplate "client" clientTemplate))
  exact ⟨client, (renderClient_ok_iff options tree clientTemplate client).2
    ⟨hasSlot_clientTemplate, h, hfinish⟩⟩

/-- A router is always rendered from the built-in template, and with its header it begins with a
comment. -/
theorem renderRouter_builtIn (options : Options) (h : options.emitHeader = true) (tree : Tree) :
    ∃ rest, renderRouter options tree routerTemplate = .ok ("/" ++ rest) := by
  obtain ⟨d, hfill, -⟩ := fillRouter_ok options tree "server" routerTemplate hasSlot_routerTemplate
  obtain ⟨rest, hfinish⟩ := finish_header h d
  exact ⟨rest, by rw [renderRouter, hfill, ← hfinish]; rfl⟩

end Render

namespace Config
open TypedRoutes.Render TypedRoutes.Route

theorem renderDocuments_builtIn {c : Config} {tree : Tree} (hclient : c.clientTemplate = none)
    (hserver : c.serverTemplate = none) (hheader : c.emitsHeader = true)
    (htree : tree.belowNamed = true) (files : FileTree) (directory : Location) :
    ∃ client rest, c.renderDocuments tree files directory = .ok ⟨client, "/" ++ rest⟩ := by
  obtain ⟨client, hclientText⟩ := renderClient_builtIn (c.renderOptions (pathOf directory)) htree
  obtain ⟨rest, hrouterText⟩ :=
    renderRouter_builtIn (c.renderOptions (pathOf directory)) hheader tree
  have hbuiltIn : ∀ builtIn, templateText files directory builtIn none = .ok builtIn := fun _ => rfl
  have hbind {α β : Type} (a : α) (f : α → Except Fault β) : Except.ok a >>= f = f a := rfl
  refine ⟨client, rest, ?_⟩
  unfold renderDocuments
  rw [hclient, hserver, hbuiltIn, hbuiltIn, hbind, hbind]
  dsimp only
  rw [hclientText, hbind, hrouterText, hbind]
  rfl

end Config

end TypedRoutes
