import TypedRoutes.Proofs.CallPaths

/-! # Directories without endpoints

Neither document shows a directory that holds no endpoint: it claims no name, opens no scope and is
no reason to fail.  So a tree is rendered as the one that is left without such directories.
-/

namespace TypedRoutes.Route.Tree

mutual

/-- The tree without the directories below it that hold no endpoint. -/
def pruned : Tree → Tree
  | node name children endpoints => node name (prunedAll children) endpoints

def prunedAll : List Tree → List Tree
  | [] => []
  | t :: ts => if t.isEmpty then prunedAll ts else t.pruned :: prunedAll ts

end

mutual

def directories : Tree → List Tree
  | node _ children _ => directoriesOfAll children

def directoriesOfAll : List Tree → List Tree
  | [] => []
  | t :: ts => t :: t.directories ++ directoriesOfAll ts

end

theorem directories_eq (t : Tree) :
    t.directories = t.children.flatMap fun c => c :: c.directories := by
  obtain ⟨name, children, endpoints⟩ := t
  change directoriesOfAll children = children.flatMap _
  induction children with
  | nil => rfl
  | cons c cs ih => rw [directoriesOfAll, ih, List.flatMap_cons]

theorem mem_directories_of_mem_children {t u : Tree} (h : u ∈ t.children) :
    u ∈ t.directories := by
  rw [directories_eq]
  exact List.mem_flatMap.2 ⟨u, h, List.mem_cons_self⟩

theorem directories_subset_of_mem_children {t u : Tree} (h : u ∈ t.children) :
    u.directories ⊆ t.directories := by
  intro v hv
  rw [t.directories_eq]
  exact List.mem_flatMap.2 ⟨u, h, .tail _ hv⟩

@[simp] theorem name_pruned (t : Tree) : t.pruned.name = t.name := by
  cases t
  rfl

/-! ## What is left -/

mutual

@[simp] theorem endpointsInOrder_pruned : ∀ t : Tree,
    t.pruned.endpointsInOrder = t.endpointsInOrder
  | node name children endpoints => by
    rw [pruned, endpointsInOrder, endpointsInOrder, endpointsOfAll_prunedAll]

theorem endpointsOfAll_prunedAll : ∀ ts : List Tree,
    endpointsOfAll (prunedAll ts) = endpointsOfAll ts
  | [] => rfl
  | t :: ts => by
    by_cases hempty : t.isEmpty
    · simp [prunedAll, hempty, endpointsOfAll, t.isEmpty_iff.1 hempty, endpointsOfAll_prunedAll ts]
    · simp [prunedAll, hempty, endpointsOfAll, endpointsInOrder_pruned t,
        endpointsOfAll_prunedAll ts]

end

@[simp] theorem isEmpty_pruned (t : Tree) : t.pruned.isEmpty = t.isEmpty := by
  simp [isEmpty]

mutual

theorem isEmpty_of_mem_directories {u : Tree} : ∀ t : Tree,
    t.isEmpty = true → u ∈ t.directories → u.isEmpty = true
  | node _ children endpoints, hempty, hu =>
    isEmpty_of_mem_directoriesOfAll children ((isEmpty_node _ children endpoints).1 hempty).2 hu

theorem isEmpty_of_mem_directoriesOfAll {u : Tree} : ∀ ts : List Tree,
    (∀ t ∈ ts, t.isEmpty = true) → u ∈ directoriesOfAll ts → u.isEmpty = true
  | t :: ts, hempty, hu => by
    obtain ⟨ht, hts⟩ := List.forall_mem_cons.1 hempty
    obtain (rfl | hu) | hu := (List.mem_append.1 hu).imp_left List.mem_cons.1
    · exact ht
    · exact isEmpty_of_mem_directories t ht hu
    · exact isEmpty_of_mem_directoriesOfAll ts hts hu

end

mutual

/-- What is left below a tree are its directories with endpoints, each in turn with what is left
of it. -/
theorem directories_pruned : ∀ t : Tree,
    t.pruned.directories = (t.directories.filter (!·.isEmpty)).map pruned
  | node _ children _ => directoriesOfAll_prunedAll children

theorem directoriesOfAll_prunedAll : ∀ ts : List Tree,
    directoriesOfAll (prunedAll ts) = ((directoriesOfAll ts).filter (!·.isEmpty)).map pruned
  | [] => rfl
  | t :: ts => by
    by_cases hempty : t.isEmpty
    · have hnone : t.directories.filter (!·.isEmpty) = [] :=
        List.filter_eq_nil_iff.2 fun u hu => by simp [isEmpty_of_mem_directories t hempty hu]
      simp [prunedAll, hempty, directoriesOfAll, hnone, directoriesOfAll_prunedAll ts]
    · simp [prunedAll, hempty, directoriesOfAll, directories_pruned t,
        directoriesOfAll_prunedAll ts]

end

mutual

@[simp] theorem belowNamed_pruned : ∀ t : Tree, t.pruned.belowNamed = t.belowNamed
  | node _ children _ => allNamed_prunedAll children

theorem allNamed_prunedAll : ∀ ts : List Tree, allNamed (prunedAll ts) = allNamed ts
  | [] => rfl
  | t :: ts => by
    by_cases hempty : t.isEmpty
    · simp [prunedAll, hempty, allNamed, allNamed_prunedAll ts]
    · simp [prunedAll, hempty, allNamed, belowNamed_pruned t, allNamed_prunedAll ts]

end

end TypedRoutes.Route.Tree

namespace TypedRoutes.Render
open TypedRoutes.Naming TypedRoutes.Route TypedRoutes.Template

/-! ## The outline of what is left -/

mutual

theorem nodeItems_pruned (namespaces : List String) (types : Registry) : ∀ tree : Tree,
    nodeItems namespaces types tree.pruned = nodeItems namespaces types tree
  | .node name children endpoints => by
    simp only [Tree.pruned, nodeItems, childItems_prunedAll]

theorem childItems_prunedAll (namespaces : List String) (members types : Registry) :
    ∀ trees : List Tree, childItems namespaces members types (Tree.prunedAll trees) =
      childItems namespaces members types trees
  | [] => rfl
  | child :: rest => by
    by_cases hempty : child.isEmpty
    · simp only [Tree.prunedAll, childItems, hempty, if_true, childItems_prunedAll]
    · simp only [Tree.prunedAll, childItems, hempty, if_false, Tree.isEmpty_pruned,
        Tree.name_pruned, nodeItems_pruned, childItems_prunedAll, Bool.false_eq_true]

end

theorem outline_pruned (tree : Tree) : outline tree.pruned = outline tree := by
  rw [outline, nodeItems_pruned, outline]

theorem fillClient_pruned (options : Options) (tree : Tree) (d : Document) :
    fillClient options tree.pruned d = fillClient options tree d := by
  simp only [fillClient_eq, filledClient, typesText, outline_pruned, Tree.isEmpty_pruned,
    Tree.belowNamed_pruned]

theorem fillRouter_pruned (options : Options) (tree : Tree) (d : Document) :
    fillRouter options tree.pruned d = fillRouter options tree d := by
  simp only [fillRouter, Tree.endpointsInOrder_pruned]

/-- Both documents of a tree are those of the tree without its empty directories, and where one
cannot be rendered the other cannot for the same reason. -/
theorem rendering_passes_over_empty_directories (options : Options) (tree : Tree)
    (template : String) :
    renderClient options tree.pruned template = renderClient options tree template ∧
      renderRouter options tree.pruned template = renderRouter options tree template ∧
      tree.pruned.directories = (tree.directories.filter (!·.isEmpty)).map Tree.pruned := by
  refine ⟨?_, ?_, tree.directories_pruned⟩
  · rw [renderClient, fillClient_pruned, renderClient]
  · rw [renderRouter, fillRouter_pruned, renderRouter]

end TypedRoutes.Render
