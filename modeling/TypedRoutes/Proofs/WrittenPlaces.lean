import TypedRoutes.Emission
import TypedRoutes.Proofs.StoredFiles
import Mathlib.Logic.Relation

/-! # What is written

A document is written where its path leads, and directories are made on the way.  Nothing else
changes, whether the document can be written or not.
-/

namespace TypedRoutes

namespace FileTree

/-- Files of one tree that are not in another as they are have places that some paths lead to;
directories may have been made. -/
structure Wrote (directory : Location) (paths : List String) (t t' : FileTree) : Prop where
  keeps : Keeps t t'
  file : ∀ l c, t'.node? l = some (.file c) → t.node? l = some (.file c) ∨
    ∃ path ∈ paths, t'.LeadsTo directory path l

section Wrote
variable {directory : Location} {paths : List String} {t t' t'' : FileTree}

theorem Wrote.refl (directory : Location) (paths : List String) (t : FileTree) :
    Wrote directory paths t t := ⟨.refl t, fun _ _ h => .inl h⟩

theorem Wrote.trans (h : Wrote directory paths t t') (h' : Wrote directory paths t' t'') :
    Wrote directory paths t t'' := by
  refine ⟨h.keeps.trans h'.keeps, fun l c hl => ?_⟩
  obtain hl | hpath := h'.file l c hl
  · obtain hl | ⟨path, hpath, hleads⟩ := h.file l c hl
    · exact .inl hl
    · exact .inr ⟨path, hpath, h'.keeps.leadsTo hleads⟩
  · exact .inr hpath

theorem Wrote.mono {paths' : List String} (h : Wrote directory paths t t') (hsub : paths ⊆ paths') :
    Wrote directory paths' t t' := by
  refine ⟨h.keeps, fun l c hl => (h.file l c hl).imp_right ?_⟩
  rintro ⟨path, hpath, hleads⟩
  exact ⟨path, hsub hpath, hleads⟩

theorem Wrote.unchanged (h : Wrote directory paths t t') {l : Location} {c : Content}
    (hl : t.node? l = some (.file c)) (hpaths : ∀ path ∈ paths, ¬t'.LeadsTo directory path l) :
    t'.node? l = some (.file c) := by
  obtain ⟨c', hl'⟩ := h.keeps.file l c hl
  obtain hsame | ⟨path, hpath, hleads⟩ := h.file l c' hl'
  · rw [hl', ← hsame, hl]
  · exact absurd hleads (hpaths path hpath)

end Wrote

instance (directory : Location) (paths : List String) :
    IsPreorder FileTree (Wrote directory paths) where
  refl := Wrote.refl directory paths
  trans _ _ _ := Wrote.trans

/-! ## Making directories -/

section Directories
variable {directory : Location} {path : String} {paths : List String} {t t' : FileTree}

theorem follow_blanks {l : Location} (h : t.node? l = some .directory) (n : Nat) :
    t.follow l (List.replicate n "") = .ok l := by
  induction n with
  | zero => rfl
  | succ n ih => exact follow_cons_eq_ok.2 ⟨h, .inl ⟨.inl rfl, ih⟩⟩

/-- A directory is made under the last name of its path, in a directory that is there. -/
theorem eq_setNode_of_makeDirectory (h : t.makeDirectory directory path = .ok t') :
    path ≠ "" ∧ ∃ l above last n,
      (startOf directory path).2 = above ++ [last] ++ List.replicate n "" ∧
        t.follow (startOf directory path).1 above = .ok l ∧ t.node? l = some .directory ∧
        isDirectoryName last = false ∧ t.node? (l ++ [last]) = none ∧
        t' = t.setNode (l ++ [last]) .directory := by
  unfold makeDirectory at h
  cases hplace : t.place directory path with
  | error e =>
    rw [hplace] at h
    cases h
  | ok s =>
    obtain ⟨l, last, slashed⟩ := s
    obtain ⟨hne, hdirectory, above, hsplit, hfollow⟩ := place_eq_ok hplace
    rw [hplace] at h
    simp only [Bind.bind, Except.bind] at h
    split at h
    · cases h
    · rename_i hlast
      rw [Bool.not_eq_true] at hlast
      split at h
      · cases h
      · rename_i hnone
        have hname : last ≠ "" := by
          rintro rfl
          cases hlast
        obtain ⟨n, hpieces, -⟩ := eq_append_of_splitLast hname hsplit
        exact ⟨hne, l, above, last, n, hpieces, hfollow, hdirectory, hlast, hnone,
          (Except.ok.inj h).symm⟩

theorem find_of_makeDirectory (h : t.makeDirectory directory path = .ok t') :
    ∃ l, t.node? l = none ∧ t' = t.setNode l .directory ∧
      t'.find directory path = .ok (l, .directory) := by
  obtain ⟨hne, l, above, last, n, hpieces, hfollow, hdirectory, hlast, hnone, rfl⟩ :=
    eq_setNode_of_makeDirectory h
  have hname : last ≠ "" ∧ last ≠ "." ∧ last ≠ ".." := by
    simpa [isDirectoryName, and_assoc] using hlast
  have hkeeps := keeps_setDirectory hnone
  have hmade : (t.setNode (l ++ [last]) .directory).node? (l ++ [last]) = some .directory :=
    node?_setNode_self (by simp)
  have hstep : (t.setNode (l ++ [last]) .directory).follow l [last] = .ok (l ++ [last]) :=
    follow_cons_eq_ok.2 ⟨hkeeps.directory l hdirectory,
      .inr (.inr ⟨hname, by rw [hmade]; rfl, rfl⟩)⟩
  refine ⟨l ++ [last], hnone, rfl, find_eq_ok.2 ⟨hne, ?_, hmade⟩⟩
  rw [hpieces, follow_append, follow_concat_eq_ok.2 ⟨l, hkeeps.follow hfollow, hstep⟩]
  exact follow_blanks hmade n

theorem wrote_makeDirectory (h : t.makeDirectory directory path = .ok t') :
    Wrote directory paths t t' := by
  obtain ⟨l, hnone, rfl, -⟩ := find_of_makeDirectory h
  refine ⟨keeps_setDirectory hnone, fun l' c hl' => .inl ?_⟩
  by_cases heq : l' = l
  · have hne : l ≠ [] := by
      rintro rfl
      cases hnone
    rw [heq, node?_setNode_self hne] at hl'
    cases hl'
  · rwa [node?_setNode_of_ne heq] at hl'

theorem relates_makeChain {R : FileTree → FileTree → Prop} [IsPreorder FileTree R]
    {chain : List String} (h : ∀ up ∈ chain, ∀ {t t' : FileTree},
      t.makeDirectory directory up = .ok t' → R t t') (t : FileTree) :
    R t (t.makeChain directory chain).2 := by
  induction chain generalizing t with
  | nil => exact refl_of R t
  | cons path above ih =>
    have hpath := @h path (.head _)
    unfold makeChain
    split
    · exact refl_of R t
    · split
      · rename_i hmake
        exact hpath hmake
      · have habove := ih (fun up hup => h up (.tail _ hup)) t
        split
        · rename_i hchain
          rw [hchain] at habove
          exact habove
        · rename_i hchain
          rw [hchain] at habove
          split
          · rename_i hmake
            exact trans_of R habove (hpath hmake)
          · exact habove
      · exact refl_of R t

end Directories

/-! ## Directories that were made -/

/-- Directories of one tree that are not in another are where some paths lead. -/
structure Made (directory : Location) (paths : Set String) (t t' : FileTree) : Prop where
  keeps : Keeps t t'
  directory : ∀ l, t'.node? l = some .directory → t.node? l = some .directory ∨
    ∃ path ∈ paths, t'.find directory path = .ok (l, .directory)

section Made
variable {directory : Location} {paths : Set String} {t t' t'' : FileTree}

theorem Made.refl (directory : Location) (paths : Set String) (t : FileTree) :
    Made directory paths t t := ⟨.refl t, fun _ h => .inl h⟩

theorem Made.trans (h : Made directory paths t t') (h' : Made directory paths t' t'') :
    Made directory paths t t'' := by
  refine ⟨h.keeps.trans h'.keeps, fun l hl => ?_⟩
  obtain hl | hpath := h'.directory l hl
  · obtain hl | ⟨path, hpath, hfind⟩ := h.directory l hl
    · exact .inl hl
    · exact .inr ⟨path, hpath, h'.keeps.find_directory hfind⟩
  · exact .inr hpath

theorem Made.mono {paths' : Set String} (h : Made directory paths t t') (hsub : paths ⊆ paths') :
    Made directory paths' t t' := by
  refine ⟨h.keeps, fun l hl => (h.directory l hl).imp_right ?_⟩
  rintro ⟨path, hpath, hfind⟩
  exact ⟨path, hsub hpath, hfind⟩

instance (directory : Location) (paths : Set String) :
    IsPreorder FileTree (Made directory paths) where
  refl := Made.refl directory paths
  trans _ _ _ := Made.trans

theorem made_makeDirectory {path : String} (hpath : path ∈ paths)
    (h : t.makeDirectory directory path = .ok t') : Made directory paths t t' := by
  obtain ⟨l, hnone, rfl, hfind⟩ := find_of_makeDirectory h
  refine ⟨keeps_setDirectory hnone, fun l' hl' => ?_⟩
  by_cases heq : l' = l
  · exact .inr ⟨path, hpath, heq ▸ hfind⟩
  · exact .inl (by rwa [node?_setNode_of_ne heq] at hl')

end Made

end FileTree

/-! ## Documents -/

namespace Path

/-- A path is above another if it is its parent, or the parent of that, and so on. -/
def Above : String → String → Prop := Relation.TransGen fun up path => parent? path = some up

theorem reflTransGen_of_mem_ancestorsUpTo {n : Nat} {up path : String}
    (h : up ∈ ancestorsUpTo n path) :
    Relation.ReflTransGen (fun up path => parent? path = some up) up path := by
  induction n generalizing path with
  | zero =>
    obtain rfl := List.mem_singleton.1 h
    exact .refl
  | succ n ih =>
    unfold ancestorsUpTo at h
    split at h
    · rename_i hparent
      obtain rfl | hmem := List.mem_cons.1 h
      · exact .refl
      · exact (ih hmem).tail hparent
    · obtain rfl := List.mem_singleton.1 h
      exact .refl

end Path

section Documents
variable {files files' : FileTree} {directory : Location} {path text : String}

theorem writeDocument_eq_ok : writeDocument files directory path text = (.ok (), files') ↔
    ∃ made, makeParents files directory path = (.ok (), made) ∧
      made.write directory path (.text text) = .ok files' := by
  unfold writeDocument
  rcases makeParents files directory path with ⟨fault | ⟨⟩, made⟩
  · simp
  · cases hwrite : made.write directory path (.text text) <;> simp [hwrite]

theorem relates_makeParents {R : FileTree → FileTree → Prop} [IsPreorder FileTree R]
    (h : ∀ up, Path.Above up path → ∀ {t t' : FileTree},
      t.makeDirectory directory up = .ok t' → R t t') (files : FileTree) :
    R files (makeParents files directory path).2 := by
  unfold makeParents
  split
  · exact refl_of R files
  · exact refl_of R files
  · rename_i hparent
    exact FileTree.relates_makeChain
      (fun up hup => h up (.tail' (Path.reflTransGen_of_mem_ancestorsUpTo hup) hparent)) files

/-- A document relates two trees as the directories above it do, and what is written at its path. -/
theorem relates_writeDocument {R : FileTree → FileTree → Prop} [IsPreorder FileTree R]
    (hmake : ∀ up, Path.Above up path → ∀ {t t' : FileTree},
      t.makeDirectory directory up = .ok t' → R t t')
    (hwrite : ∀ {t t' : FileTree}, t.write directory path (.text text) = .ok t' → R t t')
    (files : FileTree) : R files (writeDocument files directory path text).2 := by
  have hparents := relates_makeParents hmake files
  unfold writeDocument
  split
  · rename_i hmade
    rwa [hmade] at hparents
  · rename_i hmade
    rw [hmade] at hparents
    split
    · exact hparents
    · rename_i hwritten
      exact trans_of R hparents (hwrite hwritten)

theorem wrote_write (h : files.write directory path (.text text) = .ok files') :
    files.Wrote directory [path] files' := by
  obtain ⟨l, hleads, hl, rfl⟩ := FileTree.leadsTo_of_write h
  have hkeeps := FileTree.keeps_setFile hl (.text text)
  refine ⟨hkeeps, fun l' c hl' => ?_⟩
  by_cases heq : l' = l
  · exact .inr ⟨path, .head _, heq ▸ hkeeps.leadsTo hleads⟩
  · rw [FileTree.node?_setNode_of_ne heq] at hl'
    exact .inl hl'

/-- A document changes nothing but the file that its path leads to. -/
theorem wrote_writeDocument (files : FileTree) (directory : Location) (path text : String) :
    files.Wrote directory [path] (writeDocument files directory path text).2 :=
  relates_writeDocument (fun _ _ => FileTree.wrote_makeDirectory) wrote_write files

/-- No directory is made for a document but above it. -/
theorem made_writeDocument (files : FileTree) (directory : Location) (path text : String) :
    files.Made directory {up | Path.Above up path}
      (writeDocument files directory path text).2 := by
  refine relates_writeDocument (R := FileTree.Made directory {up | Path.Above up path})
    (fun up hup => FileTree.made_makeDirectory hup) (fun h => ?_) files
  obtain ⟨l, hleads, hl, rfl⟩ := FileTree.leadsTo_of_write h
  refine ⟨FileTree.keeps_setFile hl _, fun l' hl' => .inl ?_⟩
  by_cases heq : l' = l
  · rw [heq, FileTree.node?_setNode_self hleads.ne_nil] at hl'
    cases hl'
  · rwa [FileTree.node?_setNode_of_ne heq] at hl'

end Documents

end TypedRoutes
