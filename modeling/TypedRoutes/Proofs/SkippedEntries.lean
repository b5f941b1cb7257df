import TypedRoutes.Proofs.PlacedTrees
import TypedRoutes.Proofs.SourceNames

/-! # Skipping entries of a directory

The tree of a directory is that of what is left of it when all that is skipped has been deleted
before: what the patterns cover, what is no source, and modules without an endpoint.  It shows the
directories and the first module of each function name, in the order of enumeration.
-/

namespace TypedRoutes.Route
open TypedRoutes.Text

/-- What modules hold, given their path and the directories that lead to them. -/
abbrev Holdings := String → List String → Except Fault (Option Endpoint)

/-- The endpoint in a file of a directory, if it is a source with one. -/
def Holdings.endpoint? (holds : Holdings) (directory : String) (segments : List String)
    (name : String) : Option Endpoint :=
  if isHandlerSource name then
    match holds (Path.join directory name) segments with
    | .ok found => found
    | .error _ => none
  else none

/-! ## Deleting entries -/

section Kept
variable (excludes : String → Bool) (holds : Holdings)

mutual

/-- An entry with all below it that is left when what is skipped has been deleted. -/
def keptEntry (directory : String) (segments : List String) : Entry → Option Entry
  | .file name =>
    if excludes (Builder.place segments name) then none
    else if (holds.endpoint? directory segments name).isSome then some (.file name)
    else none
  | .directory name entries =>
    if excludes (Builder.place segments name) then none
    else some (.directory name
      (keptEntries (Path.join directory name) (segments ++ [name]) entries))

def keptEntries (directory : String) (segments : List String) : List Entry → List Entry
  | [] => []
  | e :: es => (keptEntry directory segments e).toList ++ keptEntries directory segments es

end

theorem keptEntries_append (directory : String) (segments : List String) (es es' : List Entry) :
    keptEntries excludes holds directory segments (es ++ es') =
      keptEntries excludes holds directory segments es ++
        keptEntries excludes holds directory segments es' := by
  induction es with
  | nil => rfl
  | cons e es ih => rw [List.cons_append, keptEntries, keptEntries, ih, List.append_assoc]

end Kept

/-! ## Trees of directories without anything to skip -/

def firstOfEach : List Endpoint → List Endpoint
  | [] => []
  | e :: es => e :: (firstOfEach es).filter (·.functionName ≠ e.functionName)

section Mirror
variable (holds : Holdings)

def endpointsIn (directory : String) (segments : List String) (entries : List Entry) :
    List Endpoint :=
  entries.filterMap fun
    | .file name => holds.endpoint? directory segments name
    | .directory _ _ => none

mutual

/-- The tree of an entry that is a directory. -/
def mirrorEntry (directory : String) (segments : List String) : Entry → Option Tree
  | .file _ => none
  | .directory name entries =>
    some (.node (some name) (mirrorEntries (Path.join directory name) (segments ++ [name]) entries)
      (firstOfEach (endpointsIn holds (Path.join directory name) (segments ++ [name]) entries)))

def mirrorEntries (directory : String) (segments : List String) : List Entry → List Tree
  | [] => []
  | e :: es => (mirrorEntry directory segments e).toList ++ mirrorEntries directory segments es

end

theorem endpointsIn_append (directory : String) (segments : List String) (es es' : List Entry) :
    endpointsIn holds directory segments (es ++ es') =
      endpointsIn holds directory segments es ++ endpointsIn holds directory segments es' :=
  List.filterMap_append

theorem mirrorEntries_append (directory : String) (segments : List String) (es es' : List Entry) :
    mirrorEntries holds directory segments (es ++ es') =
      mirrorEntries holds directory segments es ++ mirrorEntries holds directory segments es' := by
  induction es with
  | nil => rfl
  | cons e es ih => rw [List.cons_append, mirrorEntries, mirrorEntries, ih, List.append_assoc]

/-- The tree of a directory: its directories in their order, and the first endpoint of each function
name in the order of the files. -/
def mirror (directory : String) (segments : List String) (entries : List Entry) : Tree :=
  .node segments.getLast? (mirrorEntries holds directory segments entries)
    (firstOfEach (endpointsIn holds directory segments entries))

end Mirror

/-! ## Gathering -/

def addNew (found : List Endpoint) (es : List Endpoint) : List Endpoint :=
  es.foldl (fun found e =>
    if found.any (·.functionName = e.functionName) then found else found ++ [e]) found

theorem addNew_append (found es es' : List Endpoint) :
    addNew found (es ++ es') = addNew (addNew found es) es' := by
  rw [addNew, List.foldl_append]
  rfl

theorem addNew_eq (found es : List Endpoint) :
    addNew found es = found ++
      (firstOfEach es).filter fun e => !found.any (·.functionName = e.functionName) := by
  induction es generalizing found with
  | nil => simp [addNew, firstOfEach]
  | cons e es ih =>
    rw [addNew, List.foldl_cons, ← addNew, ih, firstOfEach]
    by_cases h : found.any (·.functionName = e.functionName) = true
    · rw [if_pos h, List.filter_cons_of_neg (by simp [h]), List.filter_filter]
      congr 1
      refine List.filter_congr fun other _ => ?_
      by_cases hname : other.functionName = e.functionName
      · simp [hname, h]
      · simp [hname]
    · rw [if_neg h, List.filter_cons_of_pos (by simpa using h), List.filter_filter,
        List.append_assoc, List.singleton_append]
      congr 2
      refine List.filter_congr fun other _ => ?_
      rw [List.any_append, Bool.not_or]
      simp [eq_comm, Bool.and_comm]

theorem addNew_nil (es : List Endpoint) : addNew [] es = firstOfEach es := by
  simp [addNew_eq]

variable {σ : Type} {b : Builder σ} {holds : Holdings}

/-- Whatever has been extracted before, it is what modules hold that is extracted from them. -/
def Builder.Extracts (b : Builder σ) (holds : Holdings) : Prop :=
  ∀ path segments state, (b.extract path segments state).1 = holds path segments

namespace Gathered

/-- The children and endpoints gathered so far, and those of more entries. -/
def Adds (g g' : Gathered σ) (children : List Tree) (endpoints : List Endpoint) : Prop :=
  g'.children = g.children ++ children ∧ g'.endpoints = addNew g.endpoints endpoints

theorem Adds.trans {g g' g'' : Gathered σ} {children children' : List Tree}
    {endpoints endpoints' : List Endpoint} (h : g.Adds g' children endpoints)
    (h' : g'.Adds g'' children' endpoints') :
    g.Adds g'' (children ++ children') (endpoints ++ endpoints') := by
  obtain ⟨hchildren, hendpoints⟩ := h
  obtain ⟨hchildren', hendpoints'⟩ := h'
  constructor
  · rw [hchildren', hchildren, List.append_assoc]
  · rw [hendpoints', hendpoints, addNew_append]

end Gathered

namespace Builder

theorem adds_addEndpoint (path place : String) (e : Endpoint) (g : Gathered σ) :
    g.Adds (addEndpoint path place e g) [] [e] := by
  have hnew : addNew g.endpoints [e] =
      if g.endpoints.any (·.functionName = e.functionName) then g.endpoints
      else g.endpoints ++ [e] := rfl
  rw [Gathered.Adds, hnew, List.append_nil, addEndpoint]
  split <;> exact ⟨rfl, rfl⟩

theorem adds_gatherModule (hb : b.Extracts holds) (directory : String) (segments : List String)
    {name : String} (hsource : isHandlerSource name = true) (g : Gathered σ) :
    g.Adds (b.gatherModule directory segments name g) []
      (holds.endpoint? directory segments name).toList := by
  have hextract := hb (Path.join directory name) segments g.state
  rcases hx : b.extract (Path.join directory name) segments g.state with ⟨found, state⟩
  rw [hx] at hextract
  simp only [Holdings.endpoint?, hsource, if_true, ← hextract, gatherModule, hx]
  rcases found with fault | _ | e
  · exact ⟨by simp, rfl⟩
  · exact ⟨by simp, rfl⟩
  · exact adds_addEndpoint _ _ e { g with state }

mutual

/-- Gathering an entry adds what the entry that is left of it shows. -/
theorem adds_gatherEntry (hb : b.Extracts holds) (directory : String) (segments : List String)
    (g : Gathered σ) : ∀ e : Entry,
    g.Adds (b.gatherEntry directory segments g e)
      (mirrorEntries holds directory segments
        (keptEntry b.excludes holds directory segments e).toList)
      (endpointsIn holds directory segments
        (keptEntry b.excludes holds directory segments e).toList)
  | .file name => by
    unfold gatherEntry keptEntry
    split
    · exact ⟨by simp [mirrorEntries], rfl⟩
    · by_cases hsource : isHandlerSource name = true
      · rw [if_pos hsource]
        have hmodule := adds_gatherModule hb directory segments hsource g
        cases hfound : holds.endpoint? directory segments name with
        | none =>
          rw [hfound] at hmodule
          exact hmodule
        | some e =>
          rw [hfound] at hmodule
          have hshown : endpointsIn holds directory segments [.file name] = [e] := by
            simp [endpointsIn, hfound]
          simpa [mirrorEntries, mirrorEntry, hshown] using hmodule
      · have hnone : holds.endpoint? directory segments name = none := if_neg hsource
        rw [if_neg hsource, hnone]
        exact ⟨by simp [mirrorEntries], rfl⟩
  | .directory name entries => by
    unfold gatherEntry keptEntry
    split
    · exact ⟨by simp [mirrorEntries], rfl⟩
    · obtain ⟨hchildren, hendpoints⟩ := adds_gatherEntries hb (Path.join directory name)
        (segments ++ [name]) { notes := g.notes, state := g.state } entries
      refine ⟨?_, rfl⟩
      rw [addNew_nil] at hendpoints
      rw [List.nil_append] at hchildren
      simp [mirrorEntries, mirrorEntry, hchildren, hendpoints]

theorem adds_gatherEntries (hb : b.Extracts holds) (directory : String) (segments : List String)
    (g : Gathered σ) : ∀ es : List Entry,
    g.Adds (b.gatherEntries directory segments g es)
      (mirrorEntries holds directory segments
        (keptEntries b.excludes holds directory segments es))
      (endpointsIn holds directory segments (keptEntries b.excludes holds directory segments es))
  | [] => by
    unfold gatherEntries keptEntries
    exact ⟨by simp [mirrorEntries], rfl⟩
  | e :: es => by
    unfold gatherEntries keptEntries
    have hfirst := adds_gatherEntry hb directory segments g e
    have hothers := adds_gatherEntries hb directory segments
      (b.gatherEntry directory segments g e) es
    rw [mirrorEntries_append, endpointsIn_append]
    exact hfirst.trans hothers

end

theorem ofEntries_eq (hb : b.Extracts holds) (directory : String) (segments : List String)
    (entries : List Entry) (state : σ) :
    (b.ofEntries directory segments entries state).1 =
      mirror holds directory segments
        (keptEntries b.excludes holds directory segments entries) := by
  obtain ⟨hchildren, hendpoints⟩ := adds_gatherEntries hb directory segments { state } entries
  rw [ofEntries, mirror, hchildren, hendpoints, addNew_nil, List.nil_append]

end Builder

mutual

/-- What is left has nothing in it that would be skipped without patterns. -/
theorem keptEntries_keptEntry (excludes : String → Bool) (holds : Holdings) (directory : String)
    (segments : List String) : ∀ e : Entry,
    keptEntries (fun _ => false) holds directory segments
        (keptEntry excludes holds directory segments e).toList =
      (keptEntry excludes holds directory segments e).toList
  | .file name => by
    unfold keptEntry
    split
    · rfl
    · split
      · rename_i hfound
        simp [keptEntries, keptEntry, hfound]
      · rfl
  | .directory name entries => by
    unfold keptEntry
    split
    · rfl
    · simp [keptEntries, keptEntry, keptEntries_keptEntries excludes holds
        (Path.join directory name) (segments ++ [name]) entries]

theorem keptEntries_keptEntries (excludes : String → Bool) (holds : Holdings) (directory : String)
    (segments : List String) : ∀ es : List Entry,
    keptEntries (fun _ => false) holds directory segments
        (keptEntries excludes holds directory segments es) =
      keptEntries excludes holds directory segments es
  | [] => rfl
  | e :: es => by
    rw [keptEntries, keptEntries_append, keptEntries_keptEntry excludes holds directory segments e,
      keptEntries_keptEntries excludes holds directory segments es]

end

/-! ## Deleting nodes -/

section Deleted
variable (excludes : String → Bool) (holds : Holdings) (files : FileTree)

/-- Whether the node that some names lead to from a directory goes with what is skipped there. -/
def skips (l : Location) (directory : String) (segments : List String) : List String → Bool
  | [] => false
  | name :: names =>
    excludes (Builder.place segments name) ||
      if files.node? (l ++ [name]) = some .directory then
        skips (l ++ [name]) (Path.join directory name) (segments ++ [name]) names
      else (holds.endpoint? directory segments name).isNone

/-- The files without all that is skipped below an entry directory. -/
def deleted (l : Location) (root : String) : FileTree :=
  files.without fun k => l.isPrefixOf k && skips excludes holds files l root [] (k.drop l.length)

variable {excludes holds files}

/-- Deleting nodes leaves of the entries of a directory what deleting entries does. -/
theorem entriesTo_without {gone : Location → Bool} {l : Location} {directory : String}
    {segments : List String}
    (h : ∀ names, gone (l ++ names) = skips excludes holds files l directory segments names)
    (depth : Nat) : (files.without gone).entriesTo l depth =
      keptEntries excludes holds directory segments (files.entriesTo l depth) := by
  induction depth generalizing l directory segments with
  | zero => rfl
  | succ depth ih =>
    rw [FileTree.entriesTo, FileTree.entriesTo, FileTree.namesIn_without]
    induction files.namesIn l with
    | nil => rfl
    | cons name names ihnames =>
      have hgone := h [name]
      rw [List.map_cons, keptEntries, ← ihnames]
      by_cases hexcluded : excludes (Builder.place segments name) = true
      · rw [List.filter_cons_of_neg (by simp [hgone, skips, hexcluded])]
        split <;> simp [keptEntry, hexcluded]
      · by_cases hdirectory : files.node? (l ++ [name]) = some .directory
        · have hstays : gone (l ++ [name]) = false := by
            simp [hgone, skips, hexcluded, hdirectory]
          have hbelow := @ih (l ++ [name]) (Path.join directory name) (segments ++ [name])
            fun names => by simpa [skips, hexcluded, hdirectory] using h (name :: names)
          rw [List.filter_cons_of_pos (by simpa using hstays), List.map_cons,
            FileTree.node?_without hstays, hdirectory]
          simp [keptEntry, hexcluded, hbelow]
        · cases hfound : holds.endpoint? directory segments name with
          | none =>
            rw [List.filter_cons_of_neg (by simp [hgone, skips, hexcluded, hdirectory, hfound])]
            split
            · rename_i hnode
              exact absurd hnode hdirectory
            · simp [keptEntry, hfound]
          | some e =>
            have hstays : gone (l ++ [name]) = false := by
              simp [hgone, skips, hexcluded, hdirectory, hfound]
            rw [List.filter_cons_of_pos (by simpa using hstays), List.map_cons,
              FileTree.node?_without hstays]
            split
            · rename_i hnode
              exact absurd hnode hdirectory
            · simp [keptEntry, hexcluded, hfound]

theorem entries_deleted (l : Location) (root : String) :
    (deleted excludes holds files l root).entries l =
      keptEntries excludes holds root [] (files.entries l) := by
  obtain ⟨depth, hleft, hall⟩ :=
    FileTree.exists_entriesTo (deleted excludes holds files l root) files l
  rw [hleft, hall]
  exact entriesTo_without (fun names => by simp) depth

/-- The entry directory itself stays where it was, and what it lies in. -/
theorem find_deleted {working l : Location} {root : String} {n : Node}
    (hback : ".." ∉ splitOn '/' root) (h : files.find working root = .ok (l, n)) :
    (deleted excludes holds files l root).find working root = .ok (l, n) := by
  refine FileTree.find_without hback (fun k hk => ?_) h
  by_cases hl : l <+: k
  · obtain rfl := hk.eq_of_length_le hl.length_le
    simp [skips]
  · simp [hl]

end Deleted

/-! ## Skipping and deleting -/

theorem Builder.build_eq (hb : b.Extracts holds) {files : FileTree} {working l : Location}
    {root : String} (h : files.find working root = .ok (l, .directory)) (state : σ) :
    (b.build files working root state).1 =
      .ok (mirror holds root [] (keptEntries b.excludes holds root [] (files.entries l))) := by
  rw [b.build_of_find h, ← ofEntries_eq hb root [] (files.entries l) state]

/-- Building without what patterns cover, what is no source and what holds no endpoint is building
without patterns once all that has been deleted, and mirrors what is left.  It does not matter what
state extraction is in.  Entries may come in any order; in a file system it is that of its listings,
and the entry directory has to be found still, as it is by a path without steps back. -/
theorem skipping_eq_deleting {σ : Type}
    {extract : String → List String → σ → Except Fault (Option Endpoint) × σ} {holds : Holdings}
    (hextract : ∀ path segments state, (extract path segments state).1 = holds path segments)
    (x : Exclusion) :
    let skipping : Builder σ := { extract, excludes := x.covers }
    let plain : Builder σ := { extract, excludes := Exclusion.covers ⟨[]⟩ }
    (∀ directory segments entries state state',
      let left := keptEntries x.covers holds directory segments entries
      (skipping.ofEntries directory segments entries state).1 =
          (plain.ofEntries directory segments left state').1 ∧
        (plain.ofEntries directory segments left state').1 =
          mirror holds directory segments left) ∧
    (∀ (files : FileTree) working root l state state',
      let left := deleted x.covers holds files l root
      files.find working root = .ok (l, .directory) → left.find working root = .ok (l, .directory) →
        (skipping.build files working root state).1 = (plain.build left working root state').1 ∧
          (plain.build left working root state').1 =
            .ok (mirror holds root [] (left.entries l))) ∧
    ∀ name, '/' ∉ name.toList → (isHandlerSource name = true ↔ IsSourceName name) := by
  intro skipping plain
  have hskipping : skipping.Extracts holds := hextract
  have hplain : plain.Extracts holds := hextract
  have hleft : ∀ directory segments entries,
      keptEntries plain.excludes holds directory segments
          (keptEntries x.covers holds directory segments entries) =
        keptEntries x.covers holds directory segments entries :=
    keptEntries_keptEntries x.covers holds
  refine ⟨?_, ?_, fun name hname => isHandlerSource_iff hname⟩
  · intro directory segments entries state state' left
    have hmirror : (plain.ofEntries directory segments left state').1 =
        mirror holds directory segments left := by
      rw [Builder.ofEntries_eq hplain, hleft]
    exact ⟨(Builder.ofEntries_eq hskipping ..).trans hmirror.symm, hmirror⟩
  · intro files working root l state state' left hfiles hfound
    have hmirror : (plain.build left working root state').1 =
        .ok (mirror holds root [] (left.entries l)) := by
      rw [Builder.build_eq hplain hfound, entries_deleted, hleft]
    refine ⟨?_, hmirror⟩
    rw [Builder.build_eq hskipping hfiles, hmirror, entries_deleted]

theorem brokenBeside_deleted :
    let page : TypeInfo := ⟨"Page", "export type Page = string[];"⟩
    let holds : Holdings := fun path segments =>
      if path = "api/broken.ts" then .error (.parse path "the module is not well formed")
      else if path = "api/helper.ts" then .ok none
      else .ok (some ⟨segments, "list", path, none, page⟩)
    let extract := fun path segments (calls : Nat) => (holds path segments, calls + 1)
    let skipping : Builder Nat := { extract, excludes := Exclusion.standard.covers }
    let plain : Builder Nat := { extract, excludes := Exclusion.covers ⟨[]⟩ }
    let entries : List Entry := [.file "broken.ts", .file "helper.ts", .file "pages.ts",
      .directory "user" [.file "list.tsx", .file "list.d.ts"], .directory ".cache" [.file "x.ts"],
      .file "again.mts"]
    let files : FileTree := ⟨[(["api"], .directory), (["api", "pages.ts"], .file (.text "")),
      (["api", ".cache"], .directory), (["api", ".cache", "x.ts"], .file (.text "")),
      (["api", "broken.ts"], .file (.text ""))]⟩
    let left := deleted Exclusion.standard.covers holds files ["api"] "api"
    (∀ path segments state, (extract path segments state).1 = holds path segments) ∧
      (skipping.ofEntries "api" [] entries 0).1 =
        .node none [.node (some "user") [] [⟨["user"], "list", "api/user/list.tsx", none, page⟩]]
          [⟨[], "list", "api/pages.ts", none, page⟩] ∧
      (plain.ofEntries "api" []
          [.file "pages.ts", .directory "user" [.file "list.tsx"], .file "again.mts"] 3).1 =
        (skipping.ofEntries "api" [] entries 0).1 ∧
      files.find [] "api" = .ok (["api"], .directory) ∧
      left.nodes.map Prod.fst = [["api"], ["api", "pages.ts"]] ∧
      left.find [] "api" = .ok (["api"], .directory) ∧
      (skipping.build files [] "api" 0).1 = (plain.build left [] "api" 0).1 ∧
      ('/' ∉ "pages.ts".toList ∧ (isHandlerSource "pages.ts" = true ↔ IsSourceName "pages.ts")) := by
  intro page holds extract skipping plain entries files left
  have hextract : ∀ path segments state, (extract path segments state).1 = holds path segments :=
    fun _ _ _ => rfl
  obtain ⟨hentries, hfiles, hnames⟩ := skipping_eq_deleting hextract Exclusion.standard
  obtain ⟨hsame, hmirror⟩ := hentries "api" [] entries 0 3
  have hfound : files.find [] "api" = .ok (["api"], .directory) := by decide
  have hfound' : left.find [] "api" = .ok (["api"], .directory) := find_deleted (by decide) hfound
  exact ⟨hextract, hsame.trans (hmirror.trans rfl), hsame.symm, hfound, rfl, hfound',
    (hfiles files [] "api" ["api"] 0 0 hfound hfound').1, by decide, hnames "pages.ts" (by decide)⟩
end TypedRoutes.Route
