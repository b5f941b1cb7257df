import TypedRoutes.Proofs.HandlerSignatures
import TypedRoutes.Proofs.PlacedTrees
import TypedRoutes.Proofs.TextPieces

/-! # No two endpoints have one path

A path is cut at its slashes into the names that lead to an endpoint and the endpoint's own, so
endpoints of one tree that stand in different places have different paths, whatever the prefix.
-/

namespace TypedRoutes.Route
open TypedRoutes.Text

def IsPlainName (name : String) : Prop := name ≠ "" ∧ '/' ∉ name.toList

namespace Endpoint

/-- The path of an endpoint after its prefix. -/
def localPath (e : Endpoint) : List Char :=
  e.pathSegments.flatMap (fun s => s.toList ++ ['/']) ++ e.functionName.toList

theorem toList_httpPath (e : Endpoint) (pathPrefix : String) :
    (e.httpPath pathPrefix).toList = (normalizePrefix pathPrefix).toList ++ e.localPath := by
  simp [httpPath, localPath, List.flatMap_map]

theorem splitChars_localPath {e : Endpoint} (hs : ∀ s ∈ e.pathSegments, '/' ∉ s.toList)
    (hf : '/' ∉ e.functionName.toList) :
    splitChars '/' e.localPath = e.pathSegments.map String.toList ++ [e.functionName.toList] := by
  unfold localPath
  generalize e.pathSegments = segments at hs
  induction segments with
  | nil => simpa using splitChars_of_notMem hf
  | cons s segments ih =>
    have hrest := ih fun s hmem => hs s (.tail _ hmem)
    rw [List.flatMap_cons, List.append_assoc, List.append_assoc, List.singleton_append,
      splitChars_piece (hs s (.head _)), hrest, List.map_cons, List.cons_append]

theorem httpPath_inj {e e' : Endpoint} {pathPrefix : String}
    (hs : ∀ s ∈ e.pathSegments, '/' ∉ s.toList) (hf : '/' ∉ e.functionName.toList)
    (hs' : ∀ s ∈ e'.pathSegments, '/' ∉ s.toList) (hf' : '/' ∉ e'.functionName.toList)
    (h : e.httpPath pathPrefix = e'.httpPath pathPrefix) :
    e.pathSegments = e'.pathSegments ∧ e.functionName = e'.functionName := by
  have hlocal : e.localPath = e'.localPath := by
    have hl := congrArg String.toList h
    rwa [toList_httpPath, toList_httpPath, List.append_cancel_left_eq] at hl
  have hsplit := splitChars_localPath hs hf
  rw [hlocal, splitChars_localPath hs' hf'] at hsplit
  obtain ⟨hsegments, hfunction⟩ := List.append_inj' hsplit rfl
  refine ⟨?_, (String.toList_inj.1 (List.singleton_inj.1 hfunction)).symm⟩
  exact (List.map_injective_iff.2 (fun _ _ => String.toList_inj.1) hsegments).symm

end Endpoint

theorem Tree.Placed.nodup_httpPath {tree : Tree} (h : tree.Placed IsPlainName [])
    (pathPrefix : String) : (tree.endpointsInOrder.map (·.httpPath pathPrefix)).Nodup := by
  have hplain : ∀ e ∈ tree.endpointsInOrder,
      (∀ s ∈ e.pathSegments, '/' ∉ s.toList) ∧ '/' ∉ e.functionName.toList := by
    intro e he
    obtain ⟨more, hsegments, hmore, hf⟩ := h.mem_endpointsInOrder he
    rw [hsegments]
    exact ⟨fun s hs => (hmore s hs).2, hf.2⟩
  have hnodup := h.nodup_endpointsInOrder
  rw [List.Nodup, List.pairwise_map] at hnodup ⊢
  refine hnodup.imp_of_mem fun {e e'} he he' hne heq => hne ?_
  obtain ⟨hs, hf⟩ := hplain e he
  obtain ⟨hs', hf'⟩ := hplain e' he'
  obtain ⟨hsegments, hfunction⟩ := Endpoint.httpPath_inj hs hf hs' hf' heq
  rw [hsegments, hfunction]

namespace Analysis
variable {σ : Type} {a : Analysis σ} {allow : Bool} {file : String} {segments : List String}
  {state : σ} {e : Endpoint}

/-- An endpoint carries the directories that were given and its function's name. -/
theorem extract_eq_some (h : (a.extract allow file segments state).1 = .ok (some e)) :
    e.pathSegments = segments ∧ e.functionName ≠ "" ∧
      ∃ f, (a.exportedDefault file state).1 = .ok (some (.function f)) ∧
        f.name = some e.functionName := by
  obtain ⟨f, hfound, he⟩ := extract_eq_some_iff.1 h
  obtain ⟨hname, hne, -, -, -, hsegments⟩ := endpointOf_eq_some_steps.1 he
  exact ⟨hsegments, hne, f, hfound, hname⟩

/-- No function is reported under a name with a slash in it. -/
def ReportsPlainNames (a : Analysis σ) : Prop :=
  ∀ file state f name, (a.exportedDefault file state).1 = .ok (some (.function f)) →
    f.name = some name → '/' ∉ name.toList

theorem ReportsPlainNames.extractsPlaced (h : a.ReportsPlainNames) (allow : Bool)
    (excludes : String → Bool) :
    Builder.ExtractsPlaced { extract := a.extract allow, excludes } IsPlainName := by
  intro path segments state e he
  obtain ⟨hs, hne, f, hfound, hname⟩ := extract_eq_some he
  exact ⟨hs, hne, h path state f e.functionName hfound hname⟩

end Analysis

/-- Endpoints that are built from a directory have unlike paths, whatever is left out of it,
whatever the prefix, and in whatever order its entries come. -/
theorem built_paths_nodup {σ : Type} (a : Analysis σ) (ha : a.ReportsPlainNames) (allow : Bool)
    (excludes : String → Bool) (pathPrefix : String) :
    let b : Builder σ := { extract := a.extract allow, excludes }
    let paths (tree : Tree) := tree.endpointsInOrder.map (·.httpPath pathPrefix)
    (∀ directory entries state, Entry.Sound IsPlainName entries →
      (paths (b.ofEntries directory [] entries state).1).Nodup) ∧
    ∀ (files : FileTree) working root state tree, files.Sound IsPlainName →
      (b.build files working root state).1 = .ok tree → (paths tree).Nodup := by
  intro b paths
  have hb : b.ExtractsPlaced IsPlainName := ha.extractsPlaced allow excludes
  constructor
  · intro directory entries state hs
    exact (b.placed_ofEntries hb hs directory [] state).nodup_httpPath pathPrefix
  · intro files working root state tree hs h
    exact (b.placed_build hb hs h).nodup_httpPath pathPrefix

private def alike : Analysis Unit where
  exportedDefault file _ := (.ok (some (.function ⟨file, some "list", 0⟩)), ())
  parameterType _ _ _ := none
  returnTypeArgument _ _ := some ⟨"string", none⟩
  declarationText _ _ := none
  release _ _ := ()

private def threeModules : FileTree where
  nodes :=
    [(["src"], .directory), (["src", "a"], .directory), (["src", "list"], .directory),
     (["src", "list.ts"], .file (.text "")), (["src", "a", "list.ts"], .file (.text "")),
     (["src", "list", "list.ts"], .file (.text ""))]

private theorem entries_threeModules : threeModules.entries ["src"] =
    [.directory "a" [.file "list.ts"], .directory "list" [.file "list.ts"], .file "list.ts"] := by
  have hsrc : threeModules.namesIn ["src"] = ["a", "list", "list.ts"] :=
    FileTree.namesIn_of_sorted (by decide +kernel) (by decide +kernel)
  have ha : threeModules.namesIn (["src"] ++ ["a"]) = ["list.ts"] :=
    FileTree.namesIn_of_sorted (by decide +kernel) (by decide +kernel)
  have hlist : threeModules.namesIn (["src"] ++ ["list"]) = ["list.ts"] :=
    FileTree.namesIn_of_sorted (by decide +kernel) (by decide +kernel)
  have hdepth : threeModules.entries ["src"] = threeModules.entriesTo ["src"] 4 := rfl
  rw [hdepth, FileTree.entriesTo, hsrc]
  simp only [List.map_cons, List.map_nil, FileTree.entriesTo, ha, hlist]
  rfl

theorem threeModules_paths :
    alike.ReportsPlainNames ∧ threeModules.Sound IsPlainName ∧
    ∃ tree, (Builder.build { extract := alike.extract true, excludes := fun _ => false }
        threeModules [] "/src" ()).1 = .ok tree ∧
      tree.endpointsInOrder.map (·.httpPath "api") =
        ["/api/list", "/api/a/list", "/api/list/list"] ∧
      (tree.endpointsInOrder.map (·.httpPath "api")).Nodup := by
  have ha : alike.ReportsPlainNames := by
    intro file state f name hf hname
    cases hf
    cases hname
    decide
  have hs : threeModules.Sound IsPlainName := by
    refine ⟨by decide, ?_⟩
    unfold IsPlainName
    decide
  let b : Builder Unit := { extract := alike.extract true, excludes := fun _ => false }
  have hbuild : (b.build threeModules [] "/src" ()).1 =
      .ok (b.ofEntries "/src" [] (threeModules.entries ["src"]) ()).1 := by
    rfl
  refine ⟨ha, hs, _, hbuild, ?_, ?_⟩
  · rw [entries_threeModules]
    decide +kernel
  · exact (built_paths_nodup alike ha true (fun _ => false) "api").2 threeModules [] "/src" () _ hs
      hbuild

end TypedRoutes.Route
