import TypedRoutes.Proofs.Listings
import TypedRoutes.Route.Builder
import Mathlib.Data.List.Nodup
import Mathlib.Data.List.Flatten

/-! # Trees that follow their directories

Every endpoint of a built tree carries the names of the directories that lead to it, every child is
named after its directory, and no directory has two children or two endpoints of one name.  The
walk keeps this entry by entry.
-/

namespace TypedRoutes.Route

namespace Tree

theorem endpointsOfAll_eq (ts : List Tree) : endpointsOfAll ts = ts.flatMap endpointsInOrder := by
  induction ts with
  | nil => rfl
  | cons t ts ih => simp [endpointsOfAll, ih]

@[simp] theorem endpointsInOrder_node (name : Option String) (children : List Tree)
    (endpoints : List Endpoint) : (node name children endpoints).endpointsInOrder =
      endpoints ++ children.flatMap endpointsInOrder := by
  rw [endpointsInOrder, endpointsOfAll_eq]

mutual

/-- The count goes along the tree as the list of what it counts does. -/
@[simp] theorem endpointCount_eq : ∀ t : Tree, t.endpointCount = t.endpointsInOrder.length
  | node _ children endpoints => by
    rw [endpointCount, endpointsInOrder, List.length_append, endpointCountOfAll_eq children]

theorem endpointCountOfAll_eq : ∀ ts : List Tree,
    endpointCountOfAll ts = (endpointsOfAll ts).length
  | [] => rfl
  | t :: ts => by
    rw [endpointCountOfAll, endpointsOfAll, List.length_append, endpointCount_eq t,
      endpointCountOfAll_eq ts]

end

/-- A tree stands in the directory that some names lead to; all names in it are of a kind. -/
inductive Placed (Kind : String → Prop) : List String → Tree → Prop where
  | node {segments : List String} {name : Option String} {children : List Tree}
      {endpoints : List Endpoint}
      (own : ∀ e ∈ endpoints, e.pathSegments = segments ∧ Kind e.functionName)
      (functions : (endpoints.map (·.functionName)).Nodup)
      (named : ∀ t ∈ children, ∃ n, t.name = some n ∧ Kind n)
      (names : (children.map Tree.name).Nodup)
      (below : ∀ t ∈ children, ∀ n, t.name = some n → Placed Kind (segments ++ [n]) t) :
      Placed Kind segments (node name children endpoints)

namespace Placed
variable {Kind : String → Prop} {segments : List String} {t : Tree}

theorem renamed {name other : Option String} {children : List Tree} {endpoints : List Endpoint}
    (h : Placed Kind segments (Tree.node name children endpoints)) :
    Placed Kind segments (Tree.node other children endpoints) := by
  cases h with
  | node own functions named names below => exact .node own functions named names below

/-- The names that lead to an endpoint are those that lead to its tree, and some more of the
kind. -/
theorem mem_endpointsInOrder (h : Placed Kind segments t) {e : Endpoint}
    (he : e ∈ t.endpointsInOrder) :
    ∃ more, e.pathSegments = segments ++ more ∧ (∀ n ∈ more, Kind n) ∧ Kind e.functionName := by
  induction h with
  | node own functions named names below ih =>
    rw [endpointsInOrder_node, List.mem_append, List.mem_flatMap] at he
    rcases he with he | ⟨t, ht, he⟩
    · exact ⟨[], by simp [(own e he).1], by simp, (own e he).2⟩
    · obtain ⟨n, hn, hkind⟩ := named t ht
      obtain ⟨more, hsegments, hmore, hf⟩ := ih t ht n hn he
      refine ⟨n :: more, by simp [hsegments], ?_, hf⟩
      simpa [hkind] using hmore

/-- An endpoint is known by the names that lead to it and its own. -/
theorem nodup_endpointsInOrder (h : Placed Kind segments t) :
    (t.endpointsInOrder.map fun e => (e.pathSegments, e.functionName)).Nodup := by
  induction h with
  | @node segments name children endpoints own functions named names below ih =>
    have hpath : ∀ t ∈ children, ∀ e ∈ t.endpointsInOrder, ∃ n more,
        t.name = some n ∧ e.pathSegments = segments ++ n :: more := by
      intro t ht e he
      obtain ⟨n, hn, -⟩ := named t ht
      obtain ⟨more, hsegments, -⟩ := (below t ht n hn).mem_endpointsInOrder he
      exact ⟨n, more, hn, by simp [hsegments]⟩
    rw [endpointsInOrder_node, List.map_append, List.nodup_append, List.map_flatMap,
      List.nodup_flatMap]
    refine ⟨?_, ⟨fun t ht => ?_, ?_⟩, ?_⟩
    · refine List.Nodup.of_map Prod.snd ?_
      simpa [List.map_map, Function.comp_def] using functions
    · obtain ⟨n, hn, -⟩ := named t ht
      exact ih t ht n hn
    · refine (List.pairwise_map.1 names).imp_of_mem fun {t u} ht hu hne => ?_
      intro p hp hq
      obtain ⟨e, he, rfl⟩ := List.mem_map.1 hp
      obtain ⟨e', he', heq⟩ := List.mem_map.1 hq
      obtain ⟨n, more, hn, hs⟩ := hpath t ht e he
      obtain ⟨n', more', hn', hs'⟩ := hpath u hu e' he'
      have hsame : e'.pathSegments = e.pathSegments := congrArg Prod.fst heq
      rw [hs, hs', List.append_cancel_left_eq] at hsame
      exact hne (hn.trans ((List.cons.inj hsame).1 ▸ hn'.symm))
    · intro p hp q hq heq
      obtain ⟨e, he, rfl⟩ := List.mem_map.1 hp
      obtain ⟨t, ht, hq⟩ := List.mem_flatMap.1 hq
      obtain ⟨e', he', rfl⟩ := List.mem_map.1 hq
      obtain ⟨n, more, -, hs⟩ := hpath t ht e' he'
      have hsame : e.pathSegments = e'.pathSegments := congrArg Prod.fst heq
      simp [(own e he).1, hs] at hsame

end Placed

end Tree

end TypedRoutes.Route

/-! ## What a directory may hold -/

namespace TypedRoutes

def Entry.name : Entry → String
  | file name => name
  | directory name _ => name

/-- Entries of a directory, down to the last: siblings have unlike names, and all names are of a
kind. -/
inductive Entry.Sound (Kind : String → Prop) : List Entry → Prop where
  | intro {entries : List Entry} (names : (entries.map Entry.name).Nodup)
      (kind : ∀ e ∈ entries, Kind e.name)
      (below : ∀ e ∈ entries, ∀ name inner, e = .directory name inner → Sound Kind inner) :
      Sound Kind entries

end TypedRoutes

namespace TypedRoutes.Route
open TypedRoutes.Text TypedRoutes.Console

namespace Gathered
variable {σ : Type}

@[simp] theorem children_note (g : Gathered σ) (n : Note) : (g.note n).children = g.children := rfl

@[simp] theorem endpoints_note (g : Gathered σ) (n : Note) : (g.note n).endpoints = g.endpoints :=
  rfl

/-- What has been gathered from a directory so far stands there, and no child has the name of an
entry that is still to come. -/
def Placed (Kind : String → Prop) (segments : List String) (ahead : List Entry)
    (g : Gathered σ) : Prop :=
  Tree.Placed Kind segments (.node none g.children g.endpoints) ∧
    ∀ e ∈ ahead, some e.name ∉ g.children.map Tree.name

end Gathered

namespace Builder
variable {σ : Type} {b : Builder σ} {Kind : String → Prop}

/-- Whatever is extracted from a module carries the names that lead to its directory. -/
def ExtractsPlaced (b : Builder σ) (Kind : String → Prop) : Prop :=
  ∀ path segments state e, (b.extract path segments state).1 = .ok (some e) →
    e.pathSegments = segments ∧ Kind e.functionName

theorem nodup_functionNames_concat {es : List Endpoint} {e : Endpoint}
    (h : (es.map (·.functionName)).Nodup)
    (hnew : ¬es.any (·.functionName = e.functionName) = true) :
    ((es ++ [e]).map (·.functionName)).Nodup := by
  simp only [List.map_append, List.map_cons, List.map_nil]
  refine List.nodup_append.2 ⟨h, by simp, ?_⟩
  intro f hf f' hf' heq
  obtain ⟨e', he', rfl⟩ := List.mem_map.1 hf
  obtain rfl : f' = e.functionName := by simpa using hf'
  exact hnew (List.any_eq_true.2 ⟨e', he', by simpa using heq⟩)

theorem placed_addEndpoint {segments : List String} {ahead : List Entry} {g : Gathered σ}
    (h : g.Placed Kind segments ahead) (path place : String) {e : Endpoint}
    (he : e.pathSegments = segments ∧ Kind e.functionName) :
    (addEndpoint path place e g).Placed Kind segments ahead := by
  unfold addEndpoint
  split
  · exact h
  · rename_i hnew
    obtain ⟨htree, hahead⟩ := h
    cases htree with
    | node own functions named names below =>
      refine ⟨.node ?_ (nodup_functionNames_concat functions hnew) named names below, hahead⟩
      intro e' he'
      rcases List.mem_append.1 he' with he' | he'
      · exact own e' he'
      · obtain rfl : e' = e := by simpa using he'
        exact he

theorem placed_gatherModule (hb : b.ExtractsPlaced Kind) {segments : List String}
    {ahead : List Entry} {g : Gathered σ} (h : g.Placed Kind segments ahead)
    (directory name : String) :
    (b.gatherModule directory segments name g).Placed Kind segments ahead := by
  have hextract := hb (Path.join directory name) segments g.state
  rcases hx : b.extract (Path.join directory name) segments g.state with ⟨found, state⟩
  rw [hx] at hextract
  simp only [gatherModule, hx]
  rcases found with fault | _ | e
  · exact h
  · exact h
  · exact placed_addEndpoint (g := { g with state }) h _ _ (hextract e rfl)

/-- One entry more keeps what has been gathered in its place. -/
theorem placed_gatherEntry (hb : b.ExtractsPlaced Kind) {segments : List String} {entry : Entry}
    {ahead : List Entry} {g : Gathered σ} (h : g.Placed Kind segments (entry :: ahead))
    (hnames : (entry.name :: ahead.map Entry.name).Nodup) (hkind : Kind entry.name)
    (hinner : ∀ name inner, entry = .directory name inner → ∀ directory notes state,
      (b.gatherEntries directory (segments ++ [name]) { notes, state } inner).Placed Kind
        (segments ++ [name]) []) (directory : String) :
    (b.gatherEntry directory segments g entry).Placed Kind segments ahead := by
  have hahead : g.Placed Kind segments ahead := ⟨h.1, fun e he => h.2 e (.tail _ he)⟩
  cases entry with
  | file name =>
    unfold gatherEntry
    split
    · exact hahead
    · split
      · exact placed_gatherModule hb hahead directory name
      · exact hahead
  | directory name inner =>
    unfold gatherEntry
    split
    · exact hahead
    · obtain ⟨htree, hfresh⟩ := h
      have hin := (hinner name inner rfl (Path.join directory name) g.notes g.state).1
      have hnew : some name ∉ g.children.map Tree.name := hfresh _ (.head _)
      cases htree with
      | node own functions named names below =>
        refine ⟨.node own functions ?_ ?_ ?_, ?_⟩
        · intro t ht
          rcases List.mem_append.1 ht with ht | ht
          · exact named t ht
          · obtain rfl : t = _ := List.mem_singleton.1 ht
            exact ⟨name, rfl, hkind⟩
        · simp only [List.map_append, List.map_cons, List.map_nil]
          refine List.nodup_append.2 ⟨names, by simp, fun n hn n' hn' heq => ?_⟩
          obtain rfl : n' = some name := List.mem_singleton.1 hn'
          exact hnew (heq ▸ hn)
        · intro t ht n hn
          rcases List.mem_append.1 ht with ht | ht
          · exact below t ht n hn
          · obtain rfl : t = _ := List.mem_singleton.1 ht
            obtain rfl : name = n := Option.some.inj hn
            exact hin.renamed
        · intro e he hmem
          simp only [List.map_append, List.map_cons, List.map_nil] at hmem
          rcases List.mem_append.1 hmem with hmem | hmem
          · exact hfresh e (.tail _ he) hmem
          · have hname : e.name = name := Option.some.inj (List.mem_singleton.1 hmem)
            have hsame := List.mem_map_of_mem (f := Entry.name) he
            rw [hname] at hsame
            exact (List.nodup_cons.1 hnames).1 hsame

/-- A directory whose entries are sound is gathered into a tree that stands in it. -/
theorem placed_gatherEntries (hb : b.ExtractsPlaced Kind) {entries : List Entry}
    (hs : Entry.Sound Kind entries) (directory : String) (segments : List String)
    (notes : List Note) (state : σ) :
    (b.gatherEntries directory segments { notes, state } entries).Placed Kind segments [] := by
  induction hs generalizing directory segments notes state with
  | @intro entries names kind below ih =>
    have hwalk : ∀ (rest : List Entry) (g : Gathered σ), (∀ e ∈ rest, e ∈ entries) →
        (rest.map Entry.name).Nodup → g.Placed Kind segments rest →
        (b.gatherEntries directory segments g rest).Placed Kind segments [] := by
      intro rest
      induction rest with
      | nil => exact fun g _ _ hg => hg
      | cons entry rest ihrest =>
        intro g hmem hnodup hg
        rw [gatherEntries]
        refine ihrest _ (fun e he => hmem e (.tail _ he)) (List.nodup_cons.1 hnodup).2 ?_
        exact placed_gatherEntry hb hg hnodup (kind entry (hmem entry (.head _)))
          (fun name inner heq directory notes state =>
            ih entry (hmem entry (.head _)) name inner heq directory _ notes state) directory
    refine hwalk entries _ (fun _ he => he) names ⟨?_, by simp⟩
    exact .node (by simp) (by simp) (by simp) (by simp) (by simp)

theorem placed_ofEntries (hb : b.ExtractsPlaced Kind) {entries : List Entry}
    (hs : Entry.Sound Kind entries) (directory : String) (segments : List String) (state : σ) :
    (b.ofEntries directory segments entries state).1.Placed Kind segments :=
  (placed_gatherEntries hb hs directory segments [] state).1.renamed

end Builder

end TypedRoutes.Route

/-! ## Directories of a file system -/

namespace TypedRoutes.FileTree

/-- No location is listed twice, and all names that lead to nodes are of a kind. -/
def Sound (t : FileTree) (Kind : String → Prop) : Prop :=
  (t.nodes.map Prod.fst).Nodup ∧ ∀ l ∈ t.nodes.map Prod.fst, ∀ name ∈ l, Kind name

variable {t : FileTree} {Kind : String → Prop}

theorem nodup_namesIn (h : t.Sound Kind) (l : Location) : (t.namesIn l).Nodup := by
  have hkeys : ((t.nodes.map Prod.fst).filterMap fun k =>
      if k.dropLast = l then k.getLast? else none) = t.nodes.filterMap fun p =>
        if p.1.dropLast = l then p.1.getLast? else none := by
    rw [List.filterMap_map]
    rfl
  rw [namesIn, (List.mergeSort_perm _ _).nodup_iff]
  refine Eq.subst (motive := List.Nodup) hkeys ?_
  refine h.1.filterMap fun k k' name hk hk' => ?_
  exact (listed_iff.1 hk).trans (listed_iff.1 hk').symm

/-- A listing has one entry a name, and a directory is listed a level less deep. -/
theorem entriesTo_succ (t : FileTree) (l : Location) (depth : Nat) :
    ∃ entry : String → Entry, t.entriesTo l (depth + 1) = (t.namesIn l).map entry ∧
      ∀ name, (entry name).name = name ∧
        ∀ name' inner, entry name = .directory name' inner →
          inner = t.entriesTo (l ++ [name]) depth := by
  refine ⟨_, rfl, fun name => ⟨?_, fun name' inner h => ?_⟩⟩
  · split <;> rfl
  · split at h <;> cases h
    rfl

theorem sound_entriesTo (h : t.Sound Kind) (depth : Nat) (l : Location) :
    Entry.Sound Kind (t.entriesTo l depth) := by
  induction depth generalizing l with
  | zero => exact ⟨by simp [entriesTo], by simp [entriesTo], by simp [entriesTo]⟩
  | succ depth ih =>
    obtain ⟨entry, hentries, hentry⟩ := entriesTo_succ t l depth
    rw [hentries]
    refine ⟨?_, ?_, ?_⟩
    · rw [List.map_map]
      simpa [Function.comp_def, (hentry _).1] using nodup_namesIn h l
    · intro e he
      obtain ⟨name, hmem, rfl⟩ := List.mem_map.1 he
      rw [(hentry name).1]
      exact h.2 _ (mem_namesIn hmem) name (by simp)
    · intro e he name inner heq
      obtain ⟨name', -, rfl⟩ := List.mem_map.1 he
      rw [(hentry name').2 name inner heq]
      exact ih _

theorem sound_entries (h : t.Sound Kind) (l : Location) : Entry.Sound Kind (t.entries l) :=
  sound_entriesTo h _ l

end TypedRoutes.FileTree

namespace TypedRoutes.Route.Builder
variable {σ : Type} {b : Builder σ} {Kind : String → Prop}

/-- A tree is built of a directory that is there. -/
theorem exists_of_build {files : FileTree} {working : Location} {root : String} {state : σ}
    {tree : Tree} (h : (b.build files working root state).1 = .ok tree) :
    ∃ l, files.find working root = .ok (l, .directory) := by
  unfold build at h
  split at h
  · exact FileTree.isDirectory_iff.1 ‹_›
  · cases h

theorem build_of_find (b : Builder σ) {files : FileTree} {working l : Location} {root : String}
    (h : files.find working root = .ok (l, .directory)) (state : σ) :
    b.build files working root state =
      let (tree, g) := b.ofEntries root [] (files.entries l) state
      (.ok tree, g.notes, g.state) := by
  have hdirectory : files.isDirectory working root = true := by
    rw [FileTree.isDirectory, h]
  have hentries : entriesBelow files working root = .ok (files.entries l) := by
    rw [entriesBelow, h]
  rw [build, if_pos hdirectory, buildFrom, List.foldl_nil]
  simp only [hentries]

/-- Whatever tree is built of an entry directory, it is that of sound entries. -/
theorem placed_build (hb : b.ExtractsPlaced Kind) {files : FileTree} (hf : files.Sound Kind)
    {working : Location} {root : String} {state : σ} {tree : Tree}
    (h : (b.build files working root state).1 = .ok tree) : tree.Placed Kind [] := by
  obtain ⟨l, hfind⟩ := exists_of_build h
  rw [b.build_of_find hfind] at h
  obtain rfl := Except.ok.inj h
  exact placed_ofEntries hb (files.sound_entries hf l) root [] state

end TypedRoutes.Route.Builder
