import TypedRoutes.Proofs.NamedPlaces
import TypedRoutes.Proofs.RunOutcomes
import TypedRoutes.Proofs.WrittenPlaces
import Mathlib.Data.List.Infix

/-! # Well-formed file trees

All that there is stands in directories, under names that paths go down by.  No document that is
written changes this, and so no run does.  In such a tree every module is found by the path of its
directory with the names after it.
-/

namespace TypedRoutes

namespace FileTree
open TypedRoutes.Text
open TypedRoutes.Path (IsOrdinary)

/-- All that there is stands in directories, under names that paths go down by. -/
structure WellFormed (t : FileTree) : Prop where
  reached : ∀ l ∈ t.nodes.map Prod.fst, t.Reached l
  ordinary : ∀ l ∈ t.nodes.map Prod.fst, ∀ name ∈ l, IsOrdinary name

theorem reached_iff {t : FileTree} {l : Location} :
    t.Reached l ↔ ∀ l' ∈ l.inits, l' ≠ l → t.node? l' = some .directory := by
  simp only [Reached, List.mem_inits]

instance (t : FileTree) : DecidablePred t.Reached := fun _ => decidable_of_iff _ reached_iff.symm

instance : DecidablePred WellFormed := fun _ =>
  decidable_of_iff (_ ∧ _) ⟨fun h => ⟨h.1, h.2⟩, fun h => ⟨h.reached, h.ordinary⟩⟩

theorem mem_nodes_of_node? {t : FileTree} {l : Location} {n : Node} (h : t.node? l = some n) :
    l = [] ∨ l ∈ t.nodes.map Prod.fst := by
  unfold node? at h
  split at h
  · exact .inl ‹_›
  · obtain ⟨before, after, hnodes, -⟩ := List.lookup_eq_some_iff.1 h
    exact .inr (List.mem_map.2 ⟨(l, n), by rw [hnodes]; simp, rfl⟩)

section WellFormed
variable {t t' : FileTree} {directory l : Location} {path name : String} {n : Node}

theorem WellFormed.reached_of_node? (h : t.WellFormed) (hl : t.node? l = some n) :
    t.Reached l := by
  rcases mem_nodes_of_node? hl with rfl | hmem
  · exact reached_nil t
  · exact h.reached l hmem

theorem ordinary_of_node? (h : ∀ l ∈ t.nodes.map Prod.fst, ∀ name ∈ l, IsOrdinary name)
    (hl : t.node? l = some n) : ∀ name ∈ l, IsOrdinary name := by
  rcases mem_nodes_of_node? hl with rfl | hmem
  · intro name hname
    cases hname
  · exact h l hmem

theorem WellFormed.ordinary_of_node? (h : t.WellFormed) (hl : t.node? l = some n) :
    ∀ name ∈ l, IsOrdinary name := FileTree.ordinary_of_node? h.ordinary hl

/-! ## Trees that stay well-formed -/

theorem mem_nodes_setNode {l' : Location} :
    l' ∈ (t.setNode l n).nodes.map Prod.fst ↔
      l' = l ∨ l' ∈ t.nodes.map Prod.fst ∧ l' ≠ l := by
  simp only [setNode, List.map_cons, List.mem_cons, List.mem_map, List.mem_filter, ne_eq,
    decide_eq_true_eq]
  constructor
  · rintro (rfl | ⟨p, ⟨hp, hne⟩, rfl⟩)
    · exact .inl rfl
    · exact .inr ⟨⟨p, hp, rfl⟩, hne⟩
  · rintro (rfl | ⟨⟨p, hp, rfl⟩, hne⟩)
    · exact .inl rfl
    · exact .inr ⟨p, ⟨hp, hne⟩, rfl⟩

theorem WellFormed.setNode (h : t.WellFormed) (hl : t.node? l = some .directory)
    (hname : IsOrdinary name) (hnew : t.node? (l ++ [name]) ≠ some .directory) (n : Node) :
    (t.setNode (l ++ [name]) n).WellFormed := by
  have hreached {l' : Location} (hl' : t.Reached l') :
      (t.setNode (l ++ [name]) n).Reached l' := by
    intro above habove hne
    have hdirectory := hl' above habove hne
    rwa [node?_setNode_of_ne]
    rintro rfl
    exact hnew hdirectory
  constructor
  · intro l' hl'
    apply hreached
    rcases mem_nodes_setNode.1 hl' with rfl | ⟨hold, -⟩
    · exact (h.reached_of_node? hl).concat hl
    · exact h.reached l' hold
  · intro l' hl'
    rcases mem_nodes_setNode.1 hl' with rfl | ⟨hold, -⟩
    · intro other hother
      rcases List.mem_append.1 hother with hbelow | hlast
      · exact h.ordinary_of_node? hl other hbelow
      · rwa [List.mem_singleton.1 hlast]
    · exact h.ordinary l' hold

theorem isOrdinary_of_mem_startOf (hmem : name ∈ (startOf directory path).2)
    (hname : isDirectoryName name = false) : IsOrdinary name := by
  obtain ⟨piece, hpiece, rfl⟩ := List.mem_map.1 hmem
  have hslash : '/' ∉ (String.ofList piece).toList := by
    simpa using notMem_of_mem_splitChars hpiece
  simp only [isDirectoryName, Bool.or_eq_false_iff, decide_eq_false_iff_not] at hname
  exact ⟨hname.1.1, hname.1.2, hname.2, hslash⟩

def StaysWellFormed (t t' : FileTree) : Prop := t.WellFormed → t'.WellFormed

instance : IsPreorder FileTree StaysWellFormed where
  refl _ h := h
  trans _ _ _ h h' ht := h' (h ht)

theorem staysWellFormed_makeDirectory (h : t.makeDirectory directory path = .ok t') :
    StaysWellFormed t t' := by
  obtain ⟨-, l, above, last, k, hpieces, -, hdirectory, hlast, hnone, rfl⟩ :=
    eq_setNode_of_makeDirectory h
  have hmem : last ∈ (startOf directory path).2 := by
    rw [hpieces]
    simp
  intro ht
  exact ht.setNode hdirectory (isOrdinary_of_mem_startOf hmem hlast) (by simp [hnone]) _

theorem staysWellFormed_write {content : Content}
    (h : t.write directory path content = .ok t') : StaysWellFormed t t' := by
  obtain ⟨l, hleads, hl, rfl⟩ := leadsTo_of_write h
  obtain ⟨above, last, l', hpieces, -, hdirectory, hlast, rfl⟩ := hleads.way
  have hmem : last ∈ (startOf directory path).2 := by
    rw [hpieces]
    simp
  intro ht
  exact ht.setNode hdirectory (isOrdinary_of_mem_startOf hmem hlast) hl _

end WellFormed

/-! ## Places below a directory -/

section Below
variable {t : FileTree} {working l : Location} {directory : String}

/-- What stands below a directory is found by its path with all names after it. -/
theorem WellFormed.find_below (ht : t.WellFormed) {names : List String} {n : Node}
    (h : t.find working directory = .ok (l, .directory)) (hn : t.node? (l ++ names) = some n) :
    t.find working (names.foldl Path.join directory) = .ok (l ++ names, n) := by
  have hordinary := ht.ordinary_of_node? hn
  have hreached := ht.reached_of_node? hn
  induction names generalizing l directory with
  | nil =>
    rw [List.append_nil] at hn ⊢
    obtain ⟨-, -, hl⟩ := find_eq_ok.1 h
    obtain rfl := Option.some.inj (hl.symm.trans hn)
    exact h
  | cons name names ih =>
    have hstep : l ++ [name] ++ names = l ++ name :: names := by simp
    have hname : IsOrdinary name := hordinary name (by simp)
    rw [List.foldl_cons]
    rw [← hstep] at hn hordinary hreached ⊢
    by_cases hnil : names = []
    · subst hnil
      rw [List.append_nil] at hn ⊢
      exact find_join h hname hn
    · have hdirectory : t.node? (l ++ [name]) = some .directory :=
        hreached _ (List.prefix_append _ _) (by simpa using hnil)
      exact ih (find_join h hname hdirectory) hn hordinary hreached

end Below

end FileTree

/-! ## Documents and runs -/

theorem staysWellFormed_writeDocument (files : FileTree) (directory : Location)
    (path text : String) :
    files.StaysWellFormed (writeDocument files directory path text).2 :=
  relates_writeDocument (fun _ _ _ _ => FileTree.staysWellFormed_makeDirectory)
    FileTree.staysWellFormed_write files

/-- Whatever comes of a run, the files are well-formed if they were before. -/
theorem Config.staysWellFormed_generation (c : Config) (site : Site) :
    (c.generation site).Relates FileTree.StaysWellFormed :=
  relates_generation fun path _ text files =>
    staysWellFormed_writeDocument files site.directory path text

end TypedRoutes
