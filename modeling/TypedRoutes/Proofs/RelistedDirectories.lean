import TypedRoutes.Proofs.EmptyDirectories
import TypedRoutes.Proofs.PassedPlaces
import TypedRoutes.Proofs.SkippedEntries

/-! # Directories that are listed again

After documents were written, directories list them and the directories that were made for them, and
all else as before.  A tree shows nothing of this as long as no document holds an endpoint, neither
before nor after it was written.
-/

namespace TypedRoutes

namespace FileTree

/-! ## Places where documents may have changed something -/

def vacant (t : FileTree) (places : List Location) (l : Location) : Bool :=
  (t.node? l).isNone || places.contains l

theorem vacant_eq_false_iff {t : FileTree} {places : List Location} {l : Location} :
    t.vacant places l = false ↔ (∃ n, t.node? l = some n) ∧ l ∉ places := by
  simp [vacant, Option.isSome_iff_exists]

/-- Where a name is listed there is something. -/
theorem isSome_of_mem_namesIn {t : FileTree} {l : Location} {name : String}
    (h : name ∈ t.namesIn l) : (t.node? (l ++ [name])).isSome = true := by
  rw [← Option.ne_none_iff_isSome, node?, if_neg (by simp), Ne, List.lookup_eq_none_iff]
  intro hmissing
  obtain ⟨p, hp, hl⟩ := List.mem_map.1 (mem_namesIn h)
  simpa [hl] using hmissing p hp

theorem without_setNode {t : FileTree} {gone : Location → Bool} {l : Location} (h : gone l = true)
    (n : Node) : (t.setNode l n).without gone = t.without gone := by
  have hnodes : (t.nodes.filter (·.1 ≠ l)).filter (fun p => !gone p.1) =
      t.nodes.filter fun p => !gone p.1 := by
    rw [List.filter_filter]
    refine List.filter_congr fun p _ => ?_
    by_cases hp : p.1 = l
    · simp [hp, h]
    · simp [hp]
  rw [without, setNode, List.filter_cons_of_neg (by simp [h]), hnodes, without]

/-- Two trees that follow each other after a first one differ in its vacant places only. -/
def SameBut (first : FileTree) (places : List Location) (t t' : FileTree) : Prop :=
  Keeps first t → Keeps first t' ∧ t'.without (first.vacant places) = t.without (first.vacant places)

instance (first : FileTree) (places : List Location) :
    IsPreorder FileTree (SameBut first places) where
  refl _ h := ⟨h, rfl⟩
  trans _ _ _ h h' hkeeps := by
    obtain ⟨hmiddle, hsame⟩ := h hkeeps
    obtain ⟨hlast, hsame'⟩ := h' hmiddle
    exact ⟨hlast, hsame'.trans hsame⟩

end FileTree

theorem sameBut_writeDocument {first : FileTree} {places : List Location} {directory : Location}
    {path : String} (hpath : FileTree.locationOf directory path ∈ places) (text : String)
    (files : FileTree) :
    first.SameBut places files (writeDocument files directory path text).2 := by
  refine relates_writeDocument (R := FileTree.SameBut first places) (fun up _ t t' hmake => ?_)
    (fun {t t'} hwrite => ?_) files
  · obtain ⟨l, hnone, rfl, -⟩ := FileTree.find_of_makeDirectory hmake
    intro hkeeps
    have hvacant : first.vacant places l = true := by
      rw [FileTree.vacant, Bool.or_eq_true, Option.isNone_iff_eq_none]
      refine .inl (Option.eq_none_iff_forall_ne_some.2 fun n hn => ?_)
      have hthere := hkeeps.isSome (l := l) (by rw [hn]; rfl)
      rw [hnone] at hthere
      cases hthere
    exact ⟨hkeeps.trans (FileTree.keeps_setDirectory hnone),
      FileTree.without_setNode hvacant .directory⟩
  · obtain ⟨l, hleads, hnode, rfl⟩ := FileTree.leadsTo_of_write hwrite
    intro hkeeps
    have hvacant : first.vacant places l = true := by
      rw [FileTree.vacant, hleads.eq_locationOf, List.contains_iff_mem.2 hpath, Bool.or_true]
    exact ⟨hkeeps.trans (FileTree.keeps_setFile hnode _), FileTree.without_setNode hvacant _⟩

namespace Route
open TypedRoutes.Text

/-! ## What a directory shows of its entries -/

namespace Tree

def shown? (t : Tree) : Option Tree := if t.isEmpty then none else some t.pruned

theorem prunedAll_eq (ts : List Tree) : prunedAll ts = ts.filterMap shown? := by
  induction ts with
  | nil => rfl
  | cons t ts ih =>
    rw [prunedAll, List.filterMap_cons, shown?]
    split
    · exact ih
    · rw [ih]

mutual

theorem pruned_pruned : ∀ t : Tree, t.pruned.pruned = t.pruned
  | node name children endpoints => by
    rw [pruned, pruned, prunedAll_prunedAll children]

theorem prunedAll_prunedAll : ∀ ts : List Tree, prunedAll (prunedAll ts) = prunedAll ts
  | [] => rfl
  | t :: ts => by
    by_cases hempty : t.isEmpty
    · simp [prunedAll, hempty, prunedAll_prunedAll ts]
    · simp [prunedAll, hempty, pruned_pruned t, prunedAll_prunedAll ts]

end

theorem shown?_prunedAll (name : Option String) (children : List Tree)
    (endpoints : List Endpoint) :
    shown? (node name (prunedAll children) endpoints) = shown? (node name children endpoints) := by
  have hpruned : node name (prunedAll children) endpoints = (node name children endpoints).pruned :=
    rfl
  rw [hpruned, shown?, shown?, isEmpty_pruned, pruned_pruned]

end Tree

section Shown
variable (excludes : String → Bool) (holds : Holdings) (files : FileTree)

/-- The directories with endpoints below a directory, down to a depth. -/
def treesTo (l : Location) (directory : String) (segments : List String) (depth : Nat) :
    List Tree :=
  Tree.prunedAll (mirrorEntries holds directory segments
    (keptEntries excludes holds directory segments (files.entriesTo l depth)))

def endpointsTo (l : Location) (directory : String) (segments : List String) (depth : Nat) :
    List Endpoint :=
  endpointsIn holds directory segments
    (keptEntries excludes holds directory segments (files.entriesTo l depth))

variable {excludes holds files} {l : Location} {directory : String} {segments : List String}

theorem mirrorEntries_keptEntries (entries : List Entry) :
    mirrorEntries holds directory segments (keptEntries excludes holds directory segments entries) =
      entries.filterMap fun e =>
        (keptEntry excludes holds directory segments e).bind (mirrorEntry holds directory segments) := by
  induction entries with
  | nil => rfl
  | cons e entries ih =>
    rw [keptEntries, mirrorEntries_append, ih, List.filterMap_cons]
    cases keptEntry excludes holds directory segments e with
    | none => rfl
    | some kept =>
      rw [Option.toList_some, mirrorEntries, mirrorEntries, List.append_nil, Option.bind_some]
      cases mirrorEntry holds directory segments kept <;> rfl

theorem treesTo_succ (depth : Nat) : treesTo excludes holds files l directory segments (depth + 1) =
    (files.namesIn l).filterMap fun name =>
      if excludes (Builder.place segments name) then none
      else if files.node? (l ++ [name]) = some .directory then
        Tree.shown? (.node (some name)
          (treesTo excludes holds files (l ++ [name]) (Path.join directory name)
            (segments ++ [name]) depth)
          (firstOfEach (endpointsTo excludes holds files (l ++ [name]) (Path.join directory name)
            (segments ++ [name]) depth)))
      else none := by
  rw [treesTo, FileTree.entriesTo, mirrorEntries_keptEntries, Tree.prunedAll_eq,
    List.filterMap_filterMap, List.filterMap_map]
  refine List.filterMap_congr fun name _ => ?_
  rw [Function.comp_apply]
  split
  next hnode =>
    rw [keptEntry]
    split
    next => rfl
    next =>
      rw [Option.bind_some, mirrorEntry, Option.bind_some, treesTo, Tree.shown?_prunedAll,
        endpointsTo]
  next hnode =>
    rw [keptEntry, if_neg hnode]
    split
    next => rfl
    next => split <;> rfl

theorem endpointsIn_keptEntries (entries : List Entry) :
    endpointsIn holds directory segments (keptEntries excludes holds directory segments entries) =
      entries.filterMap fun e => (keptEntry excludes holds directory segments e).bind fun
        | .file name => holds.endpoint? directory segments name
        | .directory _ _ => none := by
  induction entries with
  | nil => rfl
  | cons e entries ih =>
    rw [keptEntries, endpointsIn_append, ih, List.filterMap_cons]
    cases keptEntry excludes holds directory segments e with
    | none => rfl
    | some kept =>
      rw [Option.toList_some, Option.bind_some]
      cases kept with
      | directory name inner => rfl
      | file name => cases hfound : holds.endpoint? directory segments name <;>
          simp [endpointsIn, hfound]

theorem endpointsTo_succ (depth : Nat) :
    endpointsTo excludes holds files l directory segments (depth + 1) =
      (files.namesIn l).filterMap fun name =>
        if excludes (Builder.place segments name) then none
        else if files.node? (l ++ [name]) = some .directory then none
        else holds.endpoint? directory segments name := by
  rw [endpointsTo, FileTree.entriesTo, endpointsIn_keptEntries, List.filterMap_map]
  refine List.filterMap_congr fun name _ => ?_
  rw [Function.comp_apply]
  split
  next hnode =>
    rw [keptEntry, if_pos hnode]
    split <;> rfl
  next hnode =>
    rw [keptEntry, if_neg hnode]
    split
    next => rfl
    next =>
      cases hfound : holds.endpoint? directory segments name with
      | none => rfl
      | some e => exact hfound

end Shown

/-! ## Listing again -/

theorem filterMap_eq_of_filter {α β : Type} {keep : α → Bool} {as as' : List α}
    {f f' : α → Option β} (h : as'.filter keep = as.filter keep)
    (hkept : ∀ a ∈ as, keep a = true → f' a = f a)
    (hgone : ∀ a ∈ as, keep a = false → f a = none)
    (hgone' : ∀ a ∈ as', keep a = false → f' a = none) : as'.filterMap f' = as.filterMap f := by
  have hfilter {as : List α} {f : α → Option β} (h : ∀ a ∈ as, keep a = false → f a = none) :
      as.filterMap f = (as.filter keep).filterMap f := by
    rw [List.filterMap_filter]
    refine List.filterMap_congr fun a ha => ?_
    cases hkeep : keep a with
    | true => rfl
    | false => simpa using h a ha hkeep
  rw [hfilter hgone', hfilter hgone, h]
  refine List.filterMap_congr fun a ha => ?_
  obtain ⟨hmem, hkeep⟩ := List.mem_filter.1 ha
  exact hkept a hmem hkeep

/-- No directory on the way to an entry is left out, nor the entry itself. -/
def Included (excludes : String → Bool) (names : List String) : Prop :=
  ∀ shorter, shorter <+: names → shorter ≠ [] → excludes (join "/" shorter) = false

theorem Included.concat {excludes : String → Bool} {segments : List String} {name : String}
    (h : Included excludes segments) (hname : excludes (Builder.place segments name) = false) :
    Included excludes (segments ++ [name]) := by
  intro shorter hshorter hne
  rcases List.prefix_concat_iff.1 hshorter with rfl | hshorter
  · exact hname
  · exact h shorter hshorter hne

/-- Files before and after documents were written, and what their modules hold: the same where no
document is, and nothing where one is. -/
structure Relisted (excludes : String → Bool) (holds holds' : Holdings) (files files' : FileTree)
    (places : List Location) (root : String) (top : Location) : Prop where
  keeps : FileTree.Keeps files files'
  without : files'.without (files.vacant places) = files.without (files.vacant places)
  reached : ∀ l ∈ files.nodes.map Prod.fst, files.Reached l
  documents : ∀ l ∈ places, ∃ content, files'.node? l = some (.file content)
  others : ∀ l content, files'.node? l = some (.file content) → l ∉ places →
    files.node? l = some (.file content)
  same : ∀ segments name content, Included excludes (segments ++ [name]) →
    files.node? (top ++ segments ++ [name]) = some (.file content) →
    top ++ segments ++ [name] ∉ places →
    holds'.endpoint? (segments.foldl Path.join root) segments name =
      holds.endpoint? (segments.foldl Path.join root) segments name
  nothing : ∀ segments name, Included excludes (segments ++ [name]) →
    top ++ segments ++ [name] ∈ places →
    holds.endpoint? (segments.foldl Path.join root) segments name = none ∧
      holds'.endpoint? (segments.foldl Path.join root) segments name = none

section Relisted
variable {excludes : String → Bool} {holds holds' : Holdings} {files files' : FileTree}
  {places : List Location} {root : String} {top : Location}

theorem Relisted.entriesTo_eq_nil
    (h : Relisted excludes holds holds' files files' places root top) {l : Location}
    (hl : files.node? l = none) (depth : Nat) : files.entriesTo l depth = [] := by
  cases depth with
  | zero => rfl
  | succ depth =>
    rw [FileTree.entriesTo, List.map_eq_nil_iff, List.eq_nil_iff_forall_not_mem]
    intro name hname
    have habove := h.reached _ (FileTree.mem_namesIn hname) l (List.prefix_append l [name])
      (by simp)
    rw [hl] at habove
    cases habove

/-- A name that was listed before is one of a document if its place may have changed. -/
theorem Relisted.document_of_listed
    (h : Relisted excludes holds holds' files files' places root top) {l : Location}
    {name : String} (hname : name ∈ files.namesIn l)
    (hvacant : files.vacant places (l ++ [name]) = true) :
    l ++ [name] ∈ places ∧ files.node? (l ++ [name]) ≠ some .directory := by
  have hthere := FileTree.isSome_of_mem_namesIn hname
  have hplace : l ++ [name] ∈ places := by
    rw [FileTree.vacant, Bool.or_eq_true] at hvacant
    rcases hvacant with hnone | hplace
    · rw [Option.isNone_iff_eq_none.1 hnone] at hthere
      cases hthere
    · exact List.contains_iff_mem.1 hplace
  refine ⟨hplace, fun hdirectory => ?_⟩
  obtain ⟨content, hfile⟩ := h.documents _ hplace
  rw [h.keeps.directory _ hdirectory] at hfile
  cases hfile

/-- A name that is listed anew is one of a document, or of a directory where nothing was. -/
theorem Relisted.document_or_new
    (h : Relisted excludes holds holds' files files' places root top) {l : Location}
    (hvacant : files.vacant places l = true) :
    l ∈ places ∧ files'.node? l ≠ some .directory ∨
      l ∉ places ∧ files.node? l = none ∧
        ∀ content, files'.node? l ≠ some (.file content) := by
  by_cases hplace : l ∈ places
  · obtain ⟨content, hfile⟩ := h.documents l hplace
    exact .inl ⟨hplace, by rw [hfile]; exact nofun⟩
  · rw [FileTree.vacant, Bool.or_eq_true] at hvacant
    rcases hvacant with hnone | hcontains
    · rw [Option.isNone_iff_eq_none] at hnone
      refine .inr ⟨hplace, hnone, fun content hfile => ?_⟩
      rw [h.others l content hfile hplace] at hnone
      cases hnone
    · exact absurd (List.contains_iff_mem.1 hcontains) hplace

/-- The names that stay where they are listed are the same before and after. -/
theorem Relisted.namesIn_filter
    (h : Relisted excludes holds holds' files files' places root top) (l : Location) :
    (files'.namesIn l).filter (fun name => !files.vacant places (l ++ [name])) =
      (files.namesIn l).filter fun name => !files.vacant places (l ++ [name]) := by
  rw [← FileTree.namesIn_without, ← FileTree.namesIn_without, h.without]

theorem Relisted.node?_of_kept
    (h : Relisted excludes holds holds' files files' places root top) {l : Location}
    (hkept : (!files.vacant places l) = true) : files'.node? l = files.node? l := by
  rw [Bool.not_eq_true'] at hkept
  rw [← FileTree.node?_without hkept, h.without, FileTree.node?_without hkept]

/-- A directory has the same endpoints as before: a name that is listed anew is one of a document,
which holds none, or of a directory. -/
theorem Relisted.endpoints (h : Relisted excludes holds holds' files files' places root top)
    (depth : Nat) {segments : List String} (hincluded : Included excludes segments) :
    endpointsTo excludes holds' files' (top ++ segments) (segments.foldl Path.join root) segments
        depth =
      endpointsTo excludes holds files (top ++ segments) (segments.foldl Path.join root) segments
        depth := by
  cases depth with
  | zero => rfl
  | succ depth =>
    have hbelow (name : String) (hname : ¬excludes (Builder.place segments name) = true) :
        Included excludes (segments ++ [name]) :=
      hincluded.concat (Bool.eq_false_iff.2 hname)
    rw [endpointsTo_succ, endpointsTo_succ]
    refine filterMap_eq_of_filter (h.namesIn_filter _) ?_ ?_ ?_
    · intro name _ hkept
      rw [h.node?_of_kept hkept]
      by_cases hname : excludes (Builder.place segments name) = true
      · rw [if_pos hname, if_pos hname]
      · rw [if_neg hname, if_neg hname]
        rw [Bool.not_eq_true'] at hkept
        obtain ⟨⟨n, hn⟩, hplace⟩ := FileTree.vacant_eq_false_iff.1 hkept
        cases n with
        | directory => rw [if_pos hn, if_pos hn]
        | file content => rw [h.same segments name content (hbelow name hname) hn hplace]
    · intro name hlisted hvacant
      rw [Bool.not_eq_false'] at hvacant
      by_cases hname : excludes (Builder.place segments name) = true
      · rw [if_pos hname]
      · obtain ⟨hplace, -⟩ := h.document_of_listed hlisted hvacant
        rw [if_neg hname, (h.nothing segments name (hbelow name hname) hplace).1, ite_self]
    · intro name hlisted hvacant
      rw [Bool.not_eq_false'] at hvacant
      by_cases hname : excludes (Builder.place segments name) = true
      · rw [if_pos hname]
      · rw [if_neg hname]
        obtain ⟨hplace, -⟩ | ⟨-, -, hnew⟩ := h.document_or_new hvacant
        · rw [(h.nothing segments name (hbelow name hname) hplace).2, ite_self]
        · obtain ⟨n, hn⟩ := Option.isSome_iff_exists.1 (FileTree.isSome_of_mem_namesIn hlisted)
          cases n with
          | directory => rw [if_pos hn]
          | file content => exact absurd hn (hnew content)

/-- The same directories with endpoints are below a directory as before.  The induction is on the
depth: a name that is listed anew is a document or an empty directory. -/
theorem Relisted.trees (h : Relisted excludes holds holds' files files' places root top)
    (depth : Nat) {segments : List String} (hincluded : Included excludes segments) :
    treesTo excludes holds' files' (top ++ segments) (segments.foldl Path.join root) segments depth =
      treesTo excludes holds files (top ++ segments) (segments.foldl Path.join root) segments
        depth := by
  induction depth generalizing segments with
  | zero => rfl
  | succ depth ih =>
    have hbelow (name : String) (hname : ¬excludes (Builder.place segments name) = true) :
        Included excludes (segments ++ [name]) :=
      hincluded.concat (Bool.eq_false_iff.2 hname)
    have htrees (name : String) (hname : ¬excludes (Builder.place segments name) = true) :=
      ih (hbelow name hname)
    have hendpoints (name : String) (hname : ¬excludes (Builder.place segments name) = true) :=
      h.endpoints depth (hbelow name hname)
    simp only [← List.append_assoc, List.foldl_concat] at htrees hendpoints
    rw [treesTo_succ, treesTo_succ]
    refine filterMap_eq_of_filter (h.namesIn_filter _) ?_ ?_ ?_
    · intro name _ hkept
      rw [h.node?_of_kept hkept]
      by_cases hname : excludes (Builder.place segments name) = true
      · rw [if_pos hname, if_pos hname]
      · rw [if_neg hname, if_neg hname, htrees name hname, hendpoints name hname]
    · intro name hlisted hvacant
      rw [Bool.not_eq_false'] at hvacant
      obtain ⟨-, hfile⟩ := h.document_of_listed hlisted hvacant
      rw [if_neg hfile, ite_self]
    · intro name _ hvacant
      rw [Bool.not_eq_false'] at hvacant
      by_cases hname : excludes (Builder.place segments name) = true
      · rw [if_pos hname]
      · obtain ⟨-, hfile⟩ | ⟨-, hnone, -⟩ := h.document_or_new hvacant
        · rw [if_neg hfile, ite_self]
        · rw [if_neg hname, htrees name hname, hendpoints name hname, treesTo, endpointsTo,
            h.entriesTo_eq_nil hnone]
          split <;> rfl

theorem Relisted.pruned_mirror (h : Relisted excludes holds holds' files files' places root top) :
    (mirror holds' root [] (keptEntries excludes holds' root [] (files'.entries top))).pruned =
      (mirror holds root [] (keptEntries excludes holds root [] (files.entries top))).pruned := by
  obtain ⟨depth, hafter, hbefore⟩ := FileTree.exists_entriesTo files' files top
  have hentry : Included excludes [] := fun shorter hshorter hne =>
    absurd (List.prefix_nil.1 hshorter) hne
  have htrees := h.trees depth hentry
  have hendpoints := h.endpoints depth hentry
  rw [List.append_nil, List.foldl_nil] at htrees hendpoints
  rw [hafter, hbefore, mirror, mirror, Tree.pruned, Tree.pruned, ← treesTo, ← treesTo, ← endpointsTo,
    ← endpointsTo, htrees, hendpoints]

end Relisted

end Route

end TypedRoutes
