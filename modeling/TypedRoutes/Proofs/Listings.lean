import TypedRoutes.Proofs.ListTables
import TypedRoutes.Proofs.StoredFiles

/-! # Listings of directories

A directory lists the names of all that lies in it.  How deep it is listed does not matter once that
is deep enough for everything below it.  What is deleted from a file tree is missing in its
listings, and the order of the rest stays.
-/

namespace TypedRoutes.FileTree
open TypedRoutes.Text

variable {t : FileTree} {gone : Location → Bool}

/-! ## Names -/

/-- The name under which a directory lists a location. -/
theorem listed_iff {l k : Location} {name : String} :
    (if k.dropLast = l then k.getLast? else none) = some name ↔ k = l ++ [name] := by
  constructor
  · intro h
    split at h
    · rename_i hl
      obtain ⟨ys, rfl⟩ := List.getLast?_eq_some_iff.1 h
      rw [← hl, List.dropLast_concat]
    · cases h
  · rintro rfl
    simp

theorem mem_namesIn {l : Location} {name : String} (h : name ∈ t.namesIn l) :
    l ++ [name] ∈ t.nodes.map Prod.fst := by
  simp only [namesIn, List.mem_mergeSort, List.mem_filterMap] at h
  obtain ⟨⟨k, n⟩, hk, hname⟩ := h
  rw [← listed_iff.1 hname]
  exact List.mem_map_of_mem hk

theorem namesIn_of_sorted {l : Location} {names : List String}
    (h : (t.nodes.filterMap fun p => if p.1.dropLast = l then p.1.getLast? else none) = names)
    (hsorted : names.Pairwise fun a b => decide (a ≤ b) = true) : t.namesIn l = names := by
  subst h
  exact List.mergeSort_of_pairwise hsorted

/-! ## Depth -/

/-- All nodes lie less than so many levels below a location. -/
def Within (t : FileTree) (l : Location) (depth : Nat) : Prop :=
  ∀ p ∈ t.nodes, p.1.length < l.length + depth

theorem length_le_foldl_max (nodes : List (Location × Node)) (n : Nat) :
    n ≤ nodes.foldl (fun n (k, _) => max n k.length) n ∧
      ∀ p ∈ nodes, p.1.length ≤ nodes.foldl (fun n (k, _) => max n k.length) n := by
  induction nodes generalizing n with
  | nil => simp
  | cons p nodes ih =>
    obtain ⟨hn, hnodes⟩ := ih (max n p.1.length)
    exact ⟨Nat.le_trans (Nat.le_max_left ..) hn,
      List.forall_mem_cons.2 ⟨Nat.le_trans (Nat.le_max_right ..) hn, hnodes⟩⟩

theorem within_maximum (t : FileTree) (l : Location) :
    t.Within l (t.nodes.foldl (fun n (k, _) => max n k.length) 0 + 1) := by
  intro p hp
  have := (length_le_foldl_max t.nodes 0).2 p hp
  omega

/-- Listing deeper than all nodes lie shows no more of them. -/
theorem entriesTo_eq {l : Location} {depth more : Nat} (h : t.Within l depth) (hle : depth ≤ more) :
    t.entriesTo l more = t.entriesTo l depth := by
  induction more generalizing l depth with
  | zero => rw [Nat.le_zero.1 hle]
  | succ more ih =>
    cases depth with
    | zero =>
      have hnames : t.namesIn l = [] := by
        rw [namesIn, List.filterMap_eq_nil_iff.2, List.mergeSort_nil]
        intro p hp
        rw [Option.eq_none_iff_forall_ne_some]
        intro name hname
        have hlength := h p hp
        rw [listed_iff.1 hname, List.length_append, List.length_singleton] at hlength
        omega
      simp [entriesTo, hnames]
    | succ depth =>
      rw [entriesTo, entriesTo]
      refine List.map_congr_left fun name _ => ?_
      have hwithin : t.Within (l ++ [name]) depth := by
        intro p hp
        have := h p hp
        rw [List.length_append, List.length_singleton]
        omega
      rw [ih hwithin (by omega)]

/-- What two file trees hold below a location can be listed equally deep. -/
theorem exists_entriesTo (t t' : FileTree) (l : Location) :
    ∃ depth, t.entries l = t.entriesTo l depth ∧ t'.entries l = t'.entriesTo l depth :=
  ⟨_, (entriesTo_eq (within_maximum t l) (Nat.le_max_left ..)).symm,
    (entriesTo_eq (within_maximum t' l) (Nat.le_max_right ..)).symm⟩

/-! ## Deleted nodes -/

/-- A file tree without the nodes at some locations. -/
def without (t : FileTree) (gone : Location → Bool) : FileTree :=
  ⟨t.nodes.filter fun p => !gone p.1⟩

theorem node?_without {l : Location} (h : gone l = false) :
    (t.without gone).node? l = t.node? l := by
  unfold node? without
  split
  · rfl
  · exact lookup_filter_fst t.nodes (fun k => !gone k) (by rw [h]; rfl)

theorem filter_mergeSort (names : List String) (p : String → Bool) :
    (names.filter p).mergeSort (fun a b => decide (a ≤ b)) =
      (names.mergeSort fun a b => decide (a ≤ b)).filter p := by
  have hsorted (names : List String) :
      (names.mergeSort fun a b => decide (a ≤ b)).Pairwise (· ≤ ·) := by
    have h := @List.pairwise_mergeSort String (fun a b => decide (a ≤ b))
      (by simpa using fun a b c => String.le_trans) (by simpa using String.le_total) names
    simpa only [decide_eq_true_eq] using h
  refine List.Perm.eq_of_pairwise (fun a b _ _ => String.le_antisymm) (hsorted _)
    ((hsorted names).filter p) ?_
  exact (List.mergeSort_perm _ _).trans ((List.mergeSort_perm names _).filter p).symm

theorem namesIn_without (t : FileTree) (gone : Location → Bool) (l : Location) :
    (t.without gone).namesIn l = (t.namesIn l).filter fun name => !gone (l ++ [name]) := by
  rw [namesIn, namesIn, ← filter_mergeSort, without, List.filterMap_filter, List.filter_filterMap]
  congr 1
  refine List.filterMap_congr fun p _ => ?_
  obtain ⟨k, n⟩ := p
  cases hname : (if k.dropLast = l then k.getLast? else none) with
  | none => simp [hname]
  | some name =>
    obtain rfl := listed_iff.1 hname
    simp [Option.filter]

/-! ## Paths past deleted nodes -/

/-- Without steps back, a path leads to somewhere below where it begins. -/
theorem prefix_of_follow {l l' : Location} {pieces : List String} (hback : ".." ∉ pieces)
    (h : t.follow l pieces = .ok l') : l <+: l' := by
  induction pieces generalizing l with
  | nil =>
    obtain rfl := Except.ok.inj h
    exact List.prefix_rfl
  | cons piece pieces ih =>
    simp only [List.mem_cons, not_or] at hback
    obtain ⟨-, ⟨-, hrest⟩ | ⟨hpiece, -⟩ | ⟨-, -, hrest⟩⟩ := follow_cons_eq_ok.1 h
    · exact ih hback.2 hrest
    · exact absurd hpiece.symm hback.1
    · exact (List.prefix_append l [piece]).trans (ih hback.2 hrest)

/-- A path without steps back leads to where it did as long as nothing on the way is deleted. -/
theorem follow_without {l l' : Location} {pieces : List String} (hback : ".." ∉ pieces)
    (hstay : ∀ k, k <+: l' → gone k = false) (h : t.follow l pieces = .ok l') :
    (t.without gone).follow l pieces = .ok l' := by
  induction pieces generalizing l with
  | nil => exact h
  | cons piece pieces ih =>
    have hl : (t.without gone).node? l = t.node? l :=
      node?_without (hstay l (prefix_of_follow hback h))
    simp only [List.mem_cons, not_or] at hback
    obtain ⟨hdirectory, hstep⟩ := follow_cons_eq_ok.1 h
    refine follow_cons_eq_ok.2 ⟨hl.trans hdirectory, ?_⟩
    obtain ⟨hpiece, hrest⟩ | ⟨hpiece, -⟩ | ⟨hpiece, hnode, hrest⟩ := hstep
    · exact .inl ⟨hpiece, ih hback.2 hrest⟩
    · exact absurd hpiece.symm hback.1
    · refine .inr (.inr ⟨hpiece, ?_, ih hback.2 hrest⟩)
      rwa [node?_without (hstay _ (prefix_of_follow hback.2 hrest))]

theorem find_without {working l : Location} {path : String} {n : Node}
    (hback : ".." ∉ splitOn '/' path) (hstay : ∀ k, k <+: l → gone k = false)
    (h : t.find working path = .ok (l, n)) : (t.without gone).find working path = .ok (l, n) := by
  obtain ⟨hne, hfollow, hnode⟩ := find_eq_ok.1 h
  exact find_eq_ok.2 ⟨hne, follow_without hback hstay hfollow,
    (node?_without (hstay l List.prefix_rfl)).trans hnode⟩

end TypedRoutes.FileTree
