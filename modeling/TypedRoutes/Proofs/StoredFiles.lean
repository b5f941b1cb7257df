import TypedRoutes.FileTree
import TypedRoutes.Proofs.ListTables
import TypedRoutes.Proofs.TextPieces

/-! # What is written is read

A path is followed over directories only, and writing neither removes a directory nor puts one in
place of a file.  So a path leads where it led before, and what was written stands where it was
written.
-/

namespace TypedRoutes.FileTree
open TypedRoutes.Text

/-! ## Nodes -/

section Nodes
variable {t t' : FileTree} {l l' : Location} {n : Node}

theorem node?_setNode_self (h : l ≠ []) : (t.setNode l n).node? l = some n := by
  simp [node?, setNode, h]

theorem node?_setNode_of_ne (h : l' ≠ l) : (t.setNode l n).node? l' = t.node? l' := by
  unfold node? setNode
  split
  · rfl
  · rw [List.lookup_cons, beq_eq_false_iff_ne.2 h]
    exact lookup_filter_fst t.nodes (fun k => decide (k ≠ l)) (by simpa using h)

/-- Directories stay directories, and files files. -/
structure Keeps (t t' : FileTree) : Prop where
  directory : ∀ l, t.node? l = some .directory → t'.node? l = some .directory
  file : ∀ l c, t.node? l = some (.file c) → ∃ c', t'.node? l = some (.file c')

theorem Keeps.refl (t : FileTree) : Keeps t t := ⟨fun _ h => h, fun _ c h => ⟨c, h⟩⟩

theorem Keeps.trans {t'' : FileTree} (h : Keeps t t') (h' : Keeps t' t'') : Keeps t t'' := by
  refine ⟨fun l hl => h'.directory l (h.directory l hl), fun l c hl => ?_⟩
  obtain ⟨c', hl⟩ := h.file l c hl
  exact h'.file l c' hl

theorem Keeps.isSome (h : Keeps t t') (hl : (t.node? l).isSome) : (t'.node? l).isSome := by
  obtain ⟨n, hn⟩ := Option.isSome_iff_exists.1 hl
  cases n with
  | directory => rw [h.directory l hn]; rfl
  | file c =>
    obtain ⟨c', hc'⟩ := h.file l c hn
    rw [hc']
    rfl

theorem keeps_setFile (h : t.node? l ≠ some .directory) (content : Content) :
    Keeps t (t.setNode l (.file content)) := by
  have hne : l ≠ [] := by
    rintro rfl
    exact h rfl
  refine ⟨fun l' hl' => ?_, fun l' c hl' => ?_⟩
  · have hother : l' ≠ l := by
      rintro rfl
      exact h hl'
    rwa [node?_setNode_of_ne hother]
  · by_cases hother : l' = l
    · subst hother
      exact ⟨content, node?_setNode_self hne⟩
    · exact ⟨c, by rwa [node?_setNode_of_ne hother]⟩

theorem keeps_setDirectory (h : t.node? l = none) : Keeps t (t.setNode l .directory) := by
  have hother : ∀ {l' n}, t.node? l' = some n → (t.setNode l .directory).node? l' = some n := by
    intro l' n hl'
    rwa [node?_setNode_of_ne]
    rintro rfl
    rw [h] at hl'
    cases hl'
  exact ⟨fun l' hl' => hother hl', fun l' c hl' => ⟨c, hother hl'⟩⟩

end Nodes

/-! ## Following paths -/

section Follow
variable {t t' : FileTree} {l l' : Location} {piece : String} {pieces : List String}

/-- One piece of a path is a step from a directory: none, to the one above, or to what is there. -/
theorem follow_cons_eq_ok : t.follow l (piece :: pieces) = .ok l' ↔
    t.node? l = some .directory ∧
      ((piece = "" ∨ piece = ".") ∧ t.follow l pieces = .ok l' ∨
        piece = ".." ∧ t.follow l.dropLast pieces = .ok l' ∨
        (piece ≠ "" ∧ piece ≠ "." ∧ piece ≠ "..") ∧ (t.node? (l ++ [piece])).isSome ∧
          t.follow (l ++ [piece]) pieces = .ok l') := by
  rw [follow]
  cases hl : t.node? l with
  | none => simp
  | some n =>
    cases n with
    | file c => simp
    | directory =>
      by_cases hstay : piece = "" ∨ piece = "."
      · obtain rfl | rfl := hstay <;> simp
      · by_cases hup : piece = ".."
        · subst hup
          simp
        · simp only [not_or] at hstay
          cases hnode : t.node? (l ++ [piece]) <;> simp [hstay, hup]

theorem follow_append (t : FileTree) (l : Location) (xs ys : List String) :
    t.follow l (xs ++ ys) = t.follow l xs >>= fun l' => t.follow l' ys := by
  induction xs generalizing l with
  | nil => rfl
  | cons piece xs ih =>
    rw [List.cons_append, follow, follow]
    split
    · rfl
    · rfl
    · split
      · exact ih l
      · split
        · exact ih l.dropLast
        · split
          · rfl
          · exact ih (l ++ [piece])

theorem Keeps.follow (h : Keeps t t') (hl : t.follow l pieces = .ok l') :
    t'.follow l pieces = .ok l' := by
  induction pieces generalizing l with
  | nil => exact hl
  | cons piece pieces ih =>
    obtain ⟨hdirectory, hstep⟩ := follow_cons_eq_ok.1 hl
    refine follow_cons_eq_ok.2 ⟨h.directory l hdirectory, ?_⟩
    obtain ⟨hpiece, hrest⟩ | ⟨hpiece, hrest⟩ | ⟨hpiece, hnode, hrest⟩ := hstep
    · exact .inl ⟨hpiece, ih hrest⟩
    · exact .inr (.inl ⟨hpiece, ih hrest⟩)
    · exact .inr (.inr ⟨hpiece, h.isSome hnode, ih hrest⟩)

theorem follow_concat_eq_ok {above : List String} {last : String} :
    t.follow l (above ++ [last]) = .ok l' ↔
      ∃ l₁, t.follow l above = .ok l₁ ∧ t.follow l₁ [last] = .ok l' := by
  rw [follow_append]
  cases t.follow l above with
  | error e => simp [Bind.bind, Except.bind]
  | ok l₁ => simp [Bind.bind, Except.bind]

/-- Everything on the way to a location is a directory. -/
def Reached (t : FileTree) (l : Location) : Prop :=
  ∀ l', l' <+: l → l' ≠ l → t.node? l' = some .directory

theorem reached_nil (t : FileTree) : t.Reached [] :=
  fun _ h hne => absurd (List.prefix_nil.1 h) hne

theorem Reached.dropLast (h : t.Reached l) : t.Reached l.dropLast := by
  intro l' hl' hne
  refine h l' (hl'.trans l.dropLast_prefix) fun heq => hne ?_
  subst heq
  exact List.IsPrefix.eq_of_length_le hl' (by simp)

theorem Reached.concat (h : t.Reached l) (hl : t.node? l = some .directory) :
    t.Reached (l ++ [piece]) := by
  intro l' hl' hne
  obtain heq | hl' := List.prefix_concat_iff.1 hl'
  · exact absurd heq hne
  · by_cases heq : l' = l
    · rwa [heq]
    · exact h l' hl' heq

theorem Reached.follow (h : t.Reached l) (hl : t.follow l pieces = .ok l') : t.Reached l' := by
  induction pieces generalizing l with
  | nil =>
    obtain rfl := Except.ok.inj hl
    exact h
  | cons piece pieces ih =>
    obtain ⟨hdirectory, ⟨-, hrest⟩ | ⟨-, hrest⟩ | ⟨-, -, hrest⟩⟩ := follow_cons_eq_ok.1 hl
    · exact ih h hrest
    · exact ih h.dropLast hrest
    · exact ih (h.concat hdirectory) hrest

theorem Reached.directory_above (h : t.Reached l) : t.node? l.dropLast = some .directory := by
  obtain rfl | ⟨above, last, rfl⟩ := List.eq_nil_or_concat' l
  · rfl
  · exact h _ (List.dropLast_prefix _) (by simp)

end Follow

/-! ## Files at paths -/

theorem splitLast_concat (above : List String) {last : String} (h : last ≠ "") :
    splitLast (above ++ [last]) = (above, last, false) := by
  have hkept : dropEndWhile (· == "") (above ++ [last]) = above ++ [last] :=
    dropEndWhile_eq_self (by simpa using h)
  simp [splitLast, hkept]

/-- The last name of a path, and the slashes that follow it. -/
theorem eq_append_of_splitLast {pieces above : List String} {last : String} {slashed : Bool}
    (h : last ≠ "") (hsplit : splitLast pieces = (above, last, slashed)) :
    ∃ n, pieces = above ++ [last] ++ List.replicate n "" ∧ (slashed = false → n = 0) := by
  have hblanks : ∃ n, pieces = dropEndWhile (· == "") pieces ++ List.replicate n "" := by
    obtain ⟨blanks, hwhole, hblank⟩ := exists_run_dropEndWhile (· == "") pieces
    have hall : ∀ b ∈ blanks, b = "" := fun b hb => eq_of_beq (hblank b hb)
    exact ⟨blanks.length, by rwa [← List.eq_replicate_length.2 hall]⟩
  obtain ⟨n, hpieces⟩ := hblanks
  unfold splitLast at hsplit
  generalize dropEndWhile (· == "") pieces = kept at hpieces hsplit
  simp only [Prod.mk.injEq] at hsplit
  obtain ⟨rfl, hlast, hslashed⟩ := hsplit
  have hkept : kept = kept.dropLast ++ [last] := by
    obtain rfl | ⟨above, last', rfl⟩ := List.eq_nil_or_concat' kept
    · simp at hlast
      exact absurd hlast.symm (Ne.symm h)
    · simp at hlast ⊢
      exact hlast
  refine ⟨n, by rw [← hkept, hpieces], ?_⟩
  rintro rfl
  rw [bne_eq_false_iff_eq, hpieces, List.length_append, List.length_replicate] at hslashed
  omega

theorem eq_concat_of_splitLast {pieces above : List String} {last : String} (h : last ≠ "")
    (hsplit : splitLast pieces = (above, last, false)) : pieces = above ++ [last] := by
  obtain ⟨n, hpieces, hn⟩ := eq_append_of_splitLast h hsplit
  obtain rfl := hn rfl
  simpa using hpieces

/-- A path leads to where a file at it stands or would stand: a name in a directory that is
there. -/
structure LeadsTo (t : FileTree) (directory : Location) (path : String) (l : Location) : Prop where
  ne_empty : path ≠ ""
  way : ∃ above last l', (startOf directory path).2 = above ++ [last] ∧
    t.follow (startOf directory path).1 above = .ok l' ∧ t.node? l' = some .directory ∧
      isDirectoryName last = false ∧ l = l' ++ [last]

section Files
variable {t t' : FileTree} {directory l : Location} {path : String}

theorem LeadsTo.ne_nil (h : LeadsTo t directory path l) : l ≠ [] := by
  obtain ⟨above, last, l', -, -, -, -, rfl⟩ := h.way
  simp

theorem Keeps.leadsTo (h : Keeps t t') (hl : LeadsTo t directory path l) :
    LeadsTo t' directory path l := by
  obtain ⟨above, last, l', hpieces, hfollow, hdirectory, hlast, rfl⟩ := hl.way
  exact ⟨hl.ne_empty, above, last, l', hpieces, h.follow hfollow, h.directory l' hdirectory, hlast,
    rfl⟩

theorem find_eq (h : path ≠ "") : t.find directory path =
    t.follow (startOf directory path).1 (startOf directory path).2 >>= fun l =>
      match t.node? l with
      | some n => .ok (l, n)
      | none => .error .notFound := by
  unfold FileTree.find
  rw [if_neg h]
  rfl

theorem find_eq_ok {n : Node} : t.find directory path = .ok (l, n) ↔ path ≠ "" ∧
    t.follow (startOf directory path).1 (startOf directory path).2 = .ok l ∧
      t.node? l = some n := by
  by_cases hne : path = ""
  · subst hne
    exact ⟨fun h => (nomatch h), fun h => absurd rfl h.1⟩
  · rw [find_eq hne]
    cases t.follow (startOf directory path).1 (startOf directory path).2 with
    | error e => simp [Bind.bind, Except.bind]
    | ok l' =>
      simp only [Bind.bind, Except.bind, Except.ok.injEq]
      cases hnode : t.node? l' with
      | none =>
        simp only [reduceCtorEq, false_iff, not_and]
        rintro - rfl
        simp [hnode]
      | some n' =>
        simp only [Except.ok.injEq, Prod.mk.injEq]
        constructor
        · rintro ⟨rfl, rfl⟩
          exact ⟨hne, rfl, hnode⟩
        · rintro ⟨-, rfl, h⟩
          exact ⟨rfl, Option.some.inj (hnode.symm.trans h)⟩

theorem isDirectory_iff : t.isDirectory directory path = true ↔
    ∃ l, t.find directory path = .ok (l, .directory) := by
  unfold isDirectory
  constructor
  · intro h
    split at h
    · exact ⟨_, ‹_›⟩
    · cases h
  · rintro ⟨l, h⟩
    rw [h]

theorem place_eq (h : path ≠ "") : t.place directory path =
    t.follow (startOf directory path).1 (splitLast (startOf directory path).2).1 >>= fun l =>
      match t.node? l with
      | none => .error .notFound
      | some (.file _) => .error .notDirectory
      | some .directory => .ok (l, (splitLast (startOf directory path).2).2) := by
  unfold FileTree.place
  rw [if_neg h]
  rfl

theorem LeadsTo.find (h : LeadsTo t directory path l) {n : Node} (hn : t.node? l = some n) :
    t.find directory path = .ok (l, n) := by
  obtain ⟨above, last, l', hpieces, hfollow, hdirectory, hlast, rfl⟩ := h.way
  have hname : last ≠ "" ∧ last ≠ "." ∧ last ≠ ".." := by
    simpa [isDirectoryName, and_assoc] using hlast
  have hend : t.follow l' [last] = .ok (l' ++ [last]) :=
    follow_cons_eq_ok.2 ⟨hdirectory, .inr (.inr ⟨hname, by rw [hn]; rfl, rfl⟩)⟩
  have hall : t.follow (startOf directory path).1 (startOf directory path).2 =
      .ok (l' ++ [last]) := by
    rw [hpieces]
    exact follow_concat_eq_ok.2 ⟨l', hfollow, hend⟩
  exact find_eq_ok.2 ⟨h.ne_empty, hall, hn⟩

theorem LeadsTo.write (h : LeadsTo t directory path l) (hl : t.node? l ≠ some .directory)
    (content : Content) :
    t.write directory path content = .ok (t.setNode l (.file content)) := by
  obtain ⟨above, last, l', hpieces, hfollow, hdirectory, hlast, rfl⟩ := h.way
  have hname : last ≠ "" := by
    rintro rfl
    cases hlast
  have hplace : t.place directory path = .ok (l', last, false) := by
    rw [place_eq h.ne_empty, hpieces, splitLast_concat above hname, hfollow]
    simp only [Bind.bind, Except.bind, hdirectory]
  unfold FileTree.write
  rw [hplace]
  simp only [Bind.bind, Except.bind, hlast, Bool.or_false, Bool.false_eq_true, if_false]
  rfl

theorem place_eq_ok {last : String} {slashed : Bool}
    (h : t.place directory path = .ok (l, last, slashed)) :
    path ≠ "" ∧ t.node? l = some .directory ∧
      ∃ above, splitLast (startOf directory path).2 = (above, last, slashed) ∧
        t.follow (startOf directory path).1 above = .ok l := by
  have hne : path ≠ "" := by
    rintro rfl
    cases h
  rw [place_eq hne] at h
  cases hfollow : t.follow (startOf directory path).1 (splitLast (startOf directory path).2).1 with
  | error e =>
    rw [hfollow] at h
    cases h
  | ok l' =>
    rw [hfollow] at h
    simp only [Bind.bind, Except.bind] at h
    split at h
    · cases h
    · cases h
    · rename_i hdirectory
      obtain ⟨rfl, hlast⟩ := Prod.mk.inj (Except.ok.inj h)
      exact ⟨hne, hdirectory, _, by rw [← hlast], hfollow⟩

theorem leadsTo_of_write {content : Content} (h : t.write directory path content = .ok t') :
    ∃ l, LeadsTo t directory path l ∧ t.node? l ≠ some .directory ∧
      t' = t.setNode l (.file content) := by
  unfold FileTree.write at h
  cases hplace : t.place directory path with
  | error e =>
    rw [hplace] at h
    cases h
  | ok s =>
    obtain ⟨l, last, slashed⟩ := s
    obtain ⟨hne, hdirectory, above, hsplit, hfollow⟩ := place_eq_ok hplace
    rw [hplace] at h
    simp only [Bind.bind, Except.bind] at h
    split at h
    · cases h
    · rename_i hordinary
      simp only [Bool.or_eq_true, not_or, Bool.not_eq_true] at hordinary
      obtain ⟨rfl, hlast⟩ := hordinary
      have hname : last ≠ "" := by
        rintro rfl
        cases hlast
      refine ⟨l ++ [last], ⟨hne, above, last, l, eq_concat_of_splitLast hname hsplit, hfollow,
        hdirectory, hlast, rfl⟩, ?_⟩
      split at h
      · cases h
      · rename_i hnode
        exact ⟨hnode, (Except.ok.inj h).symm⟩

theorem leadsTo_of_find (hreached : t.Reached directory) {content : Content}
    (h : t.find directory path = .ok (l, .file content)) :
    LeadsTo t directory path l ∧ t.node? l = some (.file content) := by
  obtain ⟨hne, hfollow, hnode⟩ := find_eq_ok.1 h
  have hstart : t.Reached (startOf directory path).1 := by
    unfold startOf
    split
    · exact reached_nil t
    · exact hreached
  refine ⟨⟨hne, ?_⟩, hnode⟩
  obtain hnil | ⟨above, last, hpieces⟩ := List.eq_nil_or_concat' (startOf directory path).2
  · exact absurd (List.map_eq_nil_iff.1 hnil) (splitChars_ne_nil _ _)
  · rw [hpieces] at hfollow
    obtain ⟨l₁, habove, hlast⟩ := follow_concat_eq_ok.1 hfollow
    obtain ⟨hdirectory, hstep⟩ := follow_cons_eq_ok.1 hlast
    obtain ⟨-, hend⟩ | ⟨-, hend⟩ | ⟨hname, -, hend⟩ := hstep
    · obtain rfl := Except.ok.inj hend
      rw [hdirectory] at hnode
      cases hnode
    · obtain rfl := Except.ok.inj hend
      rw [(hstart.follow habove).directory_above] at hnode
      cases hnode
    · refine ⟨above, last, l₁, hpieces, habove, hdirectory, ?_, (Except.ok.inj hend).symm⟩
      simpa [isDirectoryName, and_assoc] using hname

/-! ## Texts -/

theorem readText_of_find {s : String} (h : t.find directory path = .ok (l, .file (.text s))) :
    t.readText directory path = .ok s := by
  unfold readText FileTree.read
  rw [h]
  rfl

theorem find_of_readText {s : String} (h : t.readText directory path = .ok s) :
    ∃ l, t.find directory path = .ok (l, .file (.text s)) := by
  unfold readText FileTree.read at h
  cases hfind : t.find directory path with
  | error e =>
    rw [hfind] at h
    cases h
  | ok found =>
    obtain ⟨l, n⟩ := found
    rw [hfind] at h
    cases n with
    | directory => cases h
    | file content =>
      cases content with
      | bytes values => cases h
      | text s' =>
        obtain rfl : s' = s := Except.ok.inj h
        exact ⟨l, rfl⟩

/-- A path leads where it led before, to what is there now. -/
theorem Keeps.find (h : Keeps t t') {n n' : Node} (hfind : t.find directory path = .ok (l, n))
    (hn : t'.node? l = some n') : t'.find directory path = .ok (l, n') := by
  obtain ⟨hne, hfollow, -⟩ := find_eq_ok.1 hfind
  exact find_eq_ok.2 ⟨hne, h.follow hfollow, hn⟩

theorem Keeps.find_directory (h : Keeps t t') (hfind : t.find directory path = .ok (l, .directory)) :
    t'.find directory path = .ok (l, .directory) := by
  obtain ⟨-, -, hl⟩ := find_eq_ok.1 hfind
  exact h.find hfind (h.directory l hl)

theorem Keeps.isFile (h : Keeps t t') (hfile : t.isFile directory path = true) :
    t'.isFile directory path = true := by
  unfold FileTree.isFile at hfile
  split at hfile
  · rename_i l content hfind
    obtain ⟨-, -, hnode⟩ := find_eq_ok.1 hfind
    obtain ⟨content', hnode'⟩ := h.file l content hnode
    unfold FileTree.isFile
    rw [h.find hfind hnode']
  · cases hfile

theorem readText_write {s : String} (h : t.write directory path (.text s) = .ok t') :
    t'.readText directory path = .ok s ∧ Keeps t t' := by
  obtain ⟨l, hleads, hl, rfl⟩ := leadsTo_of_write h
  have hkeeps := keeps_setFile hl (.text s)
  exact ⟨readText_of_find ((hkeeps.leadsTo hleads).find (node?_setNode_self hleads.ne_nil)), hkeeps⟩

end Files

end TypedRoutes.FileTree
