import TypedRoutes.Proofs.ArrivedDocuments
import TypedRoutes.Proofs.RunChanges
import TypedRoutes.Proofs.WellFormedTrees

/-! # Places that paths pass

What a path leads to depends on the places that it passes, and on nothing else.  Documents change
only places that their own paths pass; so a path that meets theirs in directories only leads to what
it led to before.
-/

namespace TypedRoutes

namespace Path
open TypedRoutes.Text

theorem dropEmptyEnd_suffix (cs : List Char) : dropEmptyEnd cs <:+ cs := by
  fun_induction dropEmptyEnd cs with
  | case1 cs hnil => rw [List.isEmpty_iff.1 hnil]
  | case2 cs _ ih => exact ih.trans (List.suffix_cons '/' cs)
  | case3 cs hnil =>
    rw [List.isEmpty_iff.1 hnil]
    exact List.suffix_cons '.' ['/']
  | case4 cs _ ih => exact ih.trans (List.suffix_append ['.', '/'] cs)
  | case5 cs => exact List.suffix_rfl

/-- What is left after a slash without its empty end is the root, or comes right after a slash. -/
theorem dropEmptyEnd_after_slash (cs : List Char) :
    dropEmptyEnd cs = ['/'] ∨ ∃ gone, '/' :: cs = gone ++ '/' :: dropEmptyEnd cs := by
  fun_induction dropEmptyEnd cs with
  | case1 => exact .inl rfl
  | case2 cs _ ih =>
    refine ih.imp_right ?_
    rintro ⟨gone, hgone⟩
    exact ⟨'/' :: gone, by rw [List.cons_append, ← hgone]⟩
  | case3 => exact .inl rfl
  | case4 cs _ ih =>
    refine ih.imp_right ?_
    rintro ⟨gone, hgone⟩
    exact ⟨'/' :: '.' :: gone, by rw [List.cons_append, List.cons_append, ← hgone]⟩
  | case5 cs => exact .inr ⟨[], rfl⟩

/-- A parent is what stands before a slash in the path, or the root. -/
theorem eq_append_of_parent? {path up : String} (h : parent? path = some up) (hne : up ≠ "") :
    up = "/" ∧ isAbsolute path = true ∨ ∃ rest, path = up ++ "/" ++ rest := by
  let kept := dropEmptyEnd path.toList.reverse
  have hup : up = String.ofList (dropEmptyEnd (kept.dropWhile (· != '/'))).reverse := by
    unfold parent? at h
    split at h
    · cases h
    · cases h
    · exact (Option.some.inj h).symm
  obtain hnil | ⟨cs, hcs⟩ := dropWhile_slash kept
  · rw [hnil] at hup
    exact absurd hup hne
  · obtain ⟨before, hbefore⟩ : '/' :: cs <:+ path.toList.reverse :=
      hcs ▸ (List.dropWhile_suffix _).trans (dropEmptyEnd_suffix path.toList.reverse)
    have hpath : path.toList = cs.reverse ++ '/' :: before.reverse := by
      rw [← List.reverse_reverse path.toList, ← hbefore]
      simp
    rw [hcs] at hup
    have hroot (hcut : dropEmptyEnd ('/' :: cs) = ['/']) :
        up = "/" ∧ isAbsolute path = true := by
      obtain ⟨gone, hgone⟩ := dropEmptyEnd_suffix ('/' :: cs)
      rw [hcut] at hup hgone
      refine ⟨hup, (isAbsolute_iff path).2 ?_⟩
      rw [← List.getLast?_reverse, ← hbefore, ← hgone, ← List.append_assoc, List.getLast?_concat]
    by_cases hempty : cs.isEmpty = true
    · exact .inl (hroot (by rw [dropEmptyEnd, if_pos hempty]))
    · have hcut : dropEmptyEnd ('/' :: cs) = dropEmptyEnd cs := by rw [dropEmptyEnd, if_neg hempty]
      refine (dropEmptyEnd_after_slash cs).imp (fun h => hroot (hcut.trans h)) ?_
      rintro ⟨gone, hgone⟩
      refine ⟨String.ofList (before ++ gone).reverse, String.toList_inj.1 ?_⟩
      have hwhole : path.toList.reverse = before ++ gone ++ '/' :: dropEmptyEnd cs := by
        rw [List.append_assoc, ← hgone, hbefore]
      rw [← List.reverse_reverse path.toList, hwhole, hup, hcut]
      simp

theorem Above.ne_empty {up path : String} (h : Above up path) : path ≠ "" := by
  rintro rfl
  cases h with
  | single hparent => cases hparent
  | tail _ hparent => cases hparent

end Path

namespace FileTree
open TypedRoutes.Text

/-- The locations that a path names one after another, whatever there is. -/
def passed (directory : Location) (path : String) : List Location :=
  (startOf directory path).2.inits.map fun pieces => pieces.foldl stepTo (startOf directory path).1

variable {t t' : FileTree} {directory l : Location} {path : String}

theorem mem_passed : l ∈ passed directory path ↔
    ∃ pieces, pieces <+: (startOf directory path).2 ∧
      pieces.foldl stepTo (startOf directory path).1 = l := by
  simp only [passed, List.mem_map, List.mem_inits]

theorem locationOf_mem_passed (directory : Location) (path : String) :
    locationOf directory path ∈ passed directory path :=
  mem_passed.2 ⟨_, List.prefix_rfl, rfl⟩

/-! ## Paths that are followed alike -/

theorem follow_congr {start : Location} {pieces : List String}
    (h : ∀ before, before <+: pieces →
      t'.node? (before.foldl stepTo start) = t.node? (before.foldl stepTo start)) :
    t'.follow start pieces = t.follow start pieces := by
  induction pieces generalizing start with
  | nil => rfl
  | cons piece pieces ih =>
    have hrest := @ih (stepTo start piece) fun before hbefore =>
      h (piece :: before) (List.cons_prefix_cons.2 ⟨rfl, hbefore⟩)
    have hstart : t'.node? start = t.node? start := h [] List.nil_prefix
    have hpiece : t'.node? (stepTo start piece) = t.node? (stepTo start piece) :=
      h [piece] (List.cons_prefix_cons.2 ⟨rfl, List.nil_prefix⟩)
    rw [FileTree.follow, FileTree.follow, hstart]
    cases t.node? start with
    | none => rfl
    | some n =>
      cases n with
      | file c => rfl
      | directory =>
        dsimp only
        split
        next hstay =>
          rwa [stepTo, if_pos (by simpa using hstay)] at hrest
        next hstay =>
          have hgoes : ¬(piece = "" ∨ piece = ".") := by simpa using hstay
          split
          next hup => rwa [stepTo, if_neg hgoes, if_pos hup] at hrest
          next hup =>
            rw [stepTo, if_neg hgoes, if_neg hup] at hrest hpiece
            rw [hpiece, hrest]

theorem find_congr (h : ∀ l ∈ passed directory path, t'.node? l = t.node? l) :
    t'.find directory path = t.find directory path := by
  by_cases hne : path = ""
  · subst hne
    rfl
  · rw [find_eq hne, find_eq hne, follow_congr fun before hbefore =>
      h _ (mem_passed.2 ⟨before, hbefore, rfl⟩)]
    cases hfollow : t.follow (startOf directory path).1 (startOf directory path).2 with
    | error e => rfl
    | ok l =>
      obtain rfl : locationOf directory path = l := foldl_stepTo_of_follow hfollow
      simp only [Bind.bind, Except.bind, h _ (locationOf_mem_passed directory path)]

theorem eq_locationOf_of_find {n : Node} (h : t.find directory path = .ok (l, n)) :
    l = locationOf directory path := by
  obtain ⟨-, hfollow, -⟩ := find_eq_ok.1 h
  exact (foldl_stepTo_of_follow hfollow).symm

/-! ## Places of documents -/

theorem passed_parent? {up : String} (h : Path.parent? path = some up) (hne : up ≠ "") :
    passed directory up ⊆ passed directory path := by
  intro l hl
  obtain ⟨pieces, hpieces, rfl⟩ := mem_passed.1 hl
  obtain ⟨rfl, habsolute⟩ | ⟨rest, rfl⟩ := Path.eq_append_of_parent? h hne
  · have hstart : (startOf directory path).1 = [] := if_pos habsolute
    have hroot : pieces.foldl stepTo (startOf directory "/").1 = [] := by
      have hmem : pieces ∈ [[], [""], ["", ""]] := (List.mem_inits _ _).2 hpieces
      simp only [List.mem_cons, List.not_mem_nil, or_false] at hmem
      obtain rfl | rfl | rfl := hmem
      all_goals rfl
    rw [hroot]
    exact mem_passed.2 ⟨[], List.nil_prefix, hstart⟩
  · have hstart : (startOf directory (up ++ "/" ++ rest)).1 = (startOf directory up).1 := by
      unfold startOf
      rw [Path.isAbsolute_append _ (by simp), Path.isAbsolute_append _ hne]
    refine mem_passed.2 ⟨pieces, hpieces.trans ?_, by rw [hstart]⟩
    unfold startOf
    rw [Path.splitOn_slash]
    exact List.prefix_append _ _

theorem passed_above {up : String} (h : Path.Above up path) (hne : up ≠ "") :
    passed directory up ⊆ passed directory path := by
  induction h with
  | single hparent => exact passed_parent? hparent hne
  | tail habove hparent ih =>
    exact List.Subset.trans ih (passed_parent? hparent (Path.Above.ne_empty habove))

/-- Documents change nothing but what their paths pass. -/
theorem mem_passed_of_touched (h : Touched directory path t t' l) :
    l ∈ passed directory path := by
  cases h with
  | document before after leads =>
    rw [leads.eq_locationOf]
    exact locationOf_mem_passed directory path
  | @above up before above leads =>
    rw [eq_locationOf_of_find leads]
    exact passed_above above (find_eq_ok.1 leads).1 (locationOf_mem_passed directory up)

/-! ## Paths clear of documents -/

/-- A path is clear of other paths if it ends elsewhere, and comes through places that they pass
only where directories are, or on the straight way to its end. -/
structure Clear (t : FileTree) (directory : Location) (others : List String) (path : String) :
    Prop where
  elsewhere : ∀ other ∈ others, locationOf directory path ≠ locationOf directory other
  way : ∀ l ∈ passed directory path, ∀ other ∈ others, l ∈ passed directory other →
    t.node? l = some .directory ∨ l <+: locationOf directory path

instance (t : FileTree) (directory : Location) (others : List String) (path : String) :
    Decidable (Clear t directory others path) :=
  decidable_of_iff (_ ∧ _) ⟨fun h => ⟨h.1, h.2⟩, fun h => ⟨h.elsewhere, h.way⟩⟩

variable {others : List String} {content : Content}

/-- A file where no document was written is the one that was there before. -/
theorem Wrote.file_of_elsewhere (h : Wrote directory others t t')
    (helsewhere : ∀ other ∈ others, l ≠ locationOf directory other) :
    t'.node? l = some (.file content) ↔ t.node? l = some (.file content) := by
  constructor
  · intro hl
    obtain hsame | ⟨other, hother, hleads⟩ := h.file l content hl
    · exact hsame
    · exact absurd hleads.eq_locationOf (helsewhere other hother)
  · intro hl
    exact h.unchanged hl fun other hother hleads =>
      helsewhere other hother hleads.eq_locationOf

/-- A path that is clear of documents leads to the same file as before they were written. -/
theorem Clear.find_file_iff (h : t.Clear directory others path) (ht : t.WellFormed)
    (hwrote : Wrote directory others t t')
    (hmade : Made directory {up | ∃ path ∈ others, Path.Above up path} t t') :
    t'.find directory path = .ok (l, .file content) ↔
      t.find directory path = .ok (l, .file content) := by
  have hfile (hl : l = locationOf directory path) :
      t'.node? l = some (.file content) ↔ t.node? l = some (.file content) :=
    hwrote.file_of_elsewhere (hl ▸ h.elsewhere)
  constructor
  · intro hfind
    have hl := eq_locationOf_of_find hfind
    obtain ⟨-, -, hnode⟩ := find_eq_ok.1 hfind
    have hbefore := (hfile hl).1 hnode
    rwa [find_congr (t := t') fun k hk => ?_]
    by_contra hne
    obtain ⟨other, hother, htouched⟩ := touched_of_ne hwrote hmade (Ne.symm hne)
    obtain hdirectory | hway := h.way k hk other hother (mem_passed_of_touched htouched)
    · exact hne (hdirectory.trans (hwrote.keeps.directory k hdirectory).symm)
    · by_cases hend : k = l
      · exact hne (hend ▸ hbefore.trans hnode.symm)
      · have hdirectory := ht.reached_of_node? hbefore k (hl ▸ hway) hend
        exact hne (hdirectory.trans (hwrote.keeps.directory k hdirectory).symm)
  · intro hfind
    obtain ⟨-, -, hnode⟩ := find_eq_ok.1 hfind
    exact hwrote.keeps.find hfind ((hfile (eq_locationOf_of_find hfind)).2 hnode)

end FileTree

end TypedRoutes
