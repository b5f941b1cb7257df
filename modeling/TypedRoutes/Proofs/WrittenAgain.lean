import TypedRoutes.Proofs.ArrivedDocuments
import Mathlib.Data.List.TakeWhile

/-! # Writing again

A document that was written can always be written again: the directories above it are there, and
nothing is made any more.
-/

namespace TypedRoutes

namespace FileTree
open TypedRoutes.Text

variable {t t' : FileTree} {directory : Location} {path : String}

/-! ## Directories that are there -/

theorem Keeps.isDirectory (h : Keeps t t') (hpath : t.isDirectory directory path = true) :
    t'.isDirectory directory path = true := by
  obtain ⟨l, hfind⟩ := isDirectory_iff.1 hpath
  exact isDirectory_iff.2 ⟨l, h.find_directory hfind⟩

theorem eq_append_cons_splitLast {pieces : List String} (h : pieces ≠ []) :
    ∃ more, pieces = (splitLast pieces).1 ++ (splitLast pieces).2.1 :: more := by
  obtain ⟨more, hmore, hmoreBlank⟩ := exists_run_dropEndWhile (· == "") pieces
  unfold splitLast
  dsimp only
  obtain hnil | ⟨above, last, hconcat⟩ := List.eq_nil_or_concat' (dropEndWhile (· == "") pieces)
  · have hblank : ∀ piece ∈ pieces, (piece == "") = true := by
      rw [hnil, List.nil_append] at hmore
      rwa [hmore]
    obtain ⟨piece, pieces, rfl⟩ := List.exists_cons_of_ne_nil h
    rw [hnil]
    exact ⟨pieces, by simpa using hblank piece (.head _)⟩
  · refine ⟨more, ?_⟩
    rw [hconcat] at hmore ⊢
    simpa using hmore

/-- A directory cannot be made again. -/
theorem makeDirectory_of_isDirectory (h : t.isDirectory directory path = true) :
    t.makeDirectory directory path = .error .alreadyExists := by
  obtain ⟨l, hfind⟩ := isDirectory_iff.1 h
  obtain ⟨hne, hfollow, hnode⟩ := find_eq_ok.1 hfind
  have hsome : (startOf directory path).2 ≠ [] := by
    simp [startOf, splitOn, splitChars_ne_nil]
  obtain ⟨more, hpieces⟩ := eq_append_cons_splitLast hsome
  rw [hpieces, follow_append] at hfollow
  cases habove : t.follow (startOf directory path).1 (splitLast (startOf directory path).2).1 with
  | error e =>
    rw [habove] at hfollow
    cases hfollow
  | ok above =>
    rw [habove] at hfollow
    obtain ⟨hdirectory, hstep⟩ := follow_cons_eq_ok.1 hfollow
    unfold makeDirectory
    rw [place_eq hne, habove]
    simp only [Bind.bind, Except.bind, hdirectory]
    split
    · rfl
    · rename_i hname
      obtain ⟨hpiece, -⟩ | ⟨hpiece, -⟩ | ⟨-, hthere, -⟩ := hstep
      · exact absurd (by simpa [isDirectoryName, or_assoc] using Or.inl hpiece) hname
      · simp [isDirectoryName, hpiece] at hname
      · obtain ⟨n, hn⟩ := Option.isSome_iff_exists.1 hthere
        rw [hn]
        rfl

theorem makeDirectories_of_isDirectory (h : t.isDirectory directory path = true) :
    t.makeDirectories directory path = (.ok (), t) := by
  have hchain : ∃ above, Path.ancestors path = path :: above := by
    unfold Path.ancestors Path.ancestorsUpTo
    split
    · exact ⟨_, rfl⟩
    · exact ⟨[], rfl⟩
  obtain ⟨above, habove⟩ := hchain
  rw [makeDirectories, habove, makeChain]
  split
  · rfl
  · rw [makeDirectory_of_isDirectory h]

theorem isDirectory_of_makeChain {above : List String} (hne : path ≠ "")
    (h : t.makeChain directory (path :: above) = (.ok (), t')) :
    t'.isDirectory directory path = true := by
  have hmade {t t' : FileTree} (h : t.makeDirectory directory path = .ok t') :
      t'.isDirectory directory path = true := by
    obtain ⟨l, -, -, hfind⟩ := find_of_makeDirectory h
    exact isDirectory_iff.2 ⟨l, hfind⟩
  unfold makeChain at h
  rw [if_neg hne] at h
  split at h
  next hmake =>
    obtain ⟨-, rfl⟩ := Prod.mk.inj h
    exact hmade hmake
  next =>
    split at h
    next => cases (Prod.mk.inj h).1
    next =>
      split at h
      next hmake =>
        obtain ⟨-, rfl⟩ := Prod.mk.inj h
        exact hmade hmake
      next =>
        obtain ⟨hresult, rfl⟩ := Prod.mk.inj h
        split at hresult
        · assumption
        · cases hresult
  next =>
    obtain ⟨hresult, rfl⟩ := Prod.mk.inj h
    split at hresult
    · assumption
    · cases hresult

end FileTree

/-! ## Documents -/

section Documents
variable {files files₁ files₂ : FileTree} {directory : Location} {path text : String}

theorem makeParents_again (h : makeParents files directory path = (.ok (), files₁))
    (hkeeps : FileTree.Keeps files₁ files₂) :
    makeParents files₂ directory path = (.ok (), files₂) := by
  unfold makeParents at h ⊢
  cases hparent : Path.parent? path with
  | none => rfl
  | some above =>
    rw [hparent] at h
    by_cases hne : above = ""
    · subst hne
      rfl
    · have hmade : files.makeDirectories directory above = (.ok (), files₁) := by
        split at h
        · cases ‹some above = none›
        · exact absurd (Option.some.inj ‹_›) hne
        · exact Option.some.inj ‹_› ▸ h
      have hthere : files₁.isDirectory directory above = true := by
        unfold FileTree.makeDirectories Path.ancestors Path.ancestorsUpTo at hmade
        split at hmade
        · exact FileTree.isDirectory_of_makeChain hne hmade
        · exact FileTree.isDirectory_of_makeChain hne hmade
      have hagain := FileTree.makeDirectories_of_isDirectory (hkeeps.isDirectory hthere)
      split
      · rfl
      · rfl
      · exact Option.some.inj ‹_› ▸ hagain

/-- A document that was written can be written again, and nothing else changes then. -/
theorem writeDocument_again (h : writeDocument files directory path text = (.ok (), files₁))
    (hkeeps : FileTree.Keeps files₁ files₂) (text' : String) :
    ∃ l, files₂.LeadsTo directory path l ∧
      writeDocument files₂ directory path text' =
        (.ok (), files₂.setNode l (.file (.text text'))) := by
  obtain ⟨l, hleads, hl⟩ := leadsTo_of_writeDocument h
  obtain ⟨c, hc⟩ := hkeeps.file l _ hl
  have hagain := hkeeps.leadsTo hleads
  obtain ⟨made, hmade, hwrite⟩ := writeDocument_eq_ok.1 h
  have hparents := makeParents_again hmade ((FileTree.readText_write hwrite).2.trans hkeeps)
  exact ⟨l, hagain, writeDocument_eq_ok.2
    ⟨files₂, hparents, hagain.write (by rw [hc]; exact nofun) (.text text')⟩⟩

end Documents

end TypedRoutes
