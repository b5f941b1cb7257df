import TypedRoutes.Proofs.EmptyDirectories
import TypedRoutes.Proofs.HandlerSignatures
import TypedRoutes.Proofs.RecordedWalks
import TypedRoutes.Proofs.StandardExclusion
import TypedRoutes.Proofs.WellFormedTrees

/-! # Where a tree comes from

The walk goes down a file system name by name, and its paths grow with the names.  So every node of
a built tree belongs to the directory that the same names lead to, and every endpoint to the module
that its own path leads to, which is the one that was inspected.
-/

namespace TypedRoutes.Path
open TypedRoutes.Text

/-! ## Paths that grow by names -/

variable {directory name : String}

theorem not_endsWith_slash_join (directory : String) (hname : IsOrdinary name) :
    endsWith "/" (join directory name) = false := by
  rw [← Bool.not_eq_true]
  intro hends
  obtain ⟨start, hstart⟩ := endsWith_iff.1 hends
  have hlast := getLast?_splitOn_join directory hname.2.2.2
  have hpieces := splitOn_slash start ""
  rw [String.append_empty] at hpieces
  rw [hstart, hpieces] at hlast
  exact hname.1 (Option.some.inj (List.getLast?_concat.symm.trans hlast)).symm

theorem join_of_relative {path : String} (hpath : isAbsolute path = false) (h : directory ≠ "") :
    join directory path =
      if endsWith "/" directory then directory ++ path else directory ++ "/" ++ path := by
  rw [join, hpath, if_neg (by simpa using h)]

theorem components_join (h : directory ≠ "") (hname : IsOrdinary name) :
    components (join directory name) = components directory ++ [.named name] := by
  obtain ⟨above, hsome, hpieces, hbefore⟩ := exists_splitOn_join hname.2.2.2 h
  have hdirectory : (splitOn '/' directory).head? = above.head? ∧
      (splitOn '/' directory).filterMap component? = above.filterMap component? := by
    rcases hbefore with hsame | hblank
    · rw [hsame]
      exact ⟨rfl, rfl⟩
    · rw [hblank, List.head?_append_of_ne_nil _ hsome, List.filterMap_append]
      exact ⟨rfl, List.append_nil _⟩
  simp only [components, isAbsolute_join_of_notMem hname.2.2.2 h, hpieces, hdirectory,
    List.head?_append_of_ne_nil _ hsome, List.filterMap_append, List.append_assoc]
  simp [hname.component?]

theorem fileName?_join (h : directory ≠ "") (hname : IsOrdinary name) :
    fileName? (join directory name) = some name := by
  rw [fileName?, components_join h hname, List.getLast?_concat]

theorem components_foldl_join (h : directory ≠ "") {names : List String}
    (hnames : ∀ name ∈ names, IsOrdinary name) :
    components (names.foldl join directory) = components directory ++ names.map .named := by
  induction names generalizing directory with
  | nil => simp
  | cons name names ih =>
    obtain ⟨hname, hrest⟩ := List.forall_mem_cons.1 hnames
    rw [List.foldl_cons, ih (join_ne_empty directory hname) hrest, components_join h hname]
    simp

theorem foldl_join (h : directory ≠ "") {names : List String}
    (hnames : ∀ name ∈ names, IsOrdinary name) (hne : names ≠ []) :
    names.foldl join directory = join directory (Text.join "/" names) := by
  induction names generalizing directory with
  | nil => exact absurd rfl hne
  | cons name names ih =>
    obtain ⟨hname, hrest⟩ := List.forall_mem_cons.1 hnames
    cases names with
    | nil => rfl
    | cons next names =>
      have hbelow : isAbsolute (Text.join "/" (next :: names)) = false := isAbsolute_join hrest
      have hwhole : isAbsolute (name ++ "/" ++ Text.join "/" (next :: names)) = false := by
        rw [isAbsolute_append _ (by simp), isAbsolute_append _ hname.1,
          isAbsolute_of_notMem hname.2.2.2]
      rw [List.foldl_cons, ih (join_ne_empty directory hname) hrest (by simp), join_cons_cons,
        join_of_relative hbelow (join_ne_empty directory hname), join_of_relative hwhole h,
        if_neg (Bool.eq_false_iff.1 (not_endsWith_slash_join directory hname)),
        join_of_relative (isAbsolute_of_notMem hname.2.2.2) h]
      split <;> simp only [String.append_assoc]

end TypedRoutes.Path

namespace TypedRoutes

/-! ## Entries of a file system -/

mutual

/-- An entry shows what stands under its name in a directory. -/
def Entry.Shows (files : FileTree) (l : Location) : Entry → Prop
  | .file name => ∃ content, files.node? (l ++ [name]) = some (.file content)
  | .directory name entries =>
    files.node? (l ++ [name]) = some .directory ∧ AllShow files (l ++ [name]) entries

def Entry.AllShow (files : FileTree) (l : Location) : List Entry → Prop
  | [] => True
  | e :: es => e.Shows files l ∧ AllShow files l es

end

theorem Entry.allShow_iff {files : FileTree} {l : Location} {es : List Entry} :
    AllShow files l es ↔ ∀ e ∈ es, e.Shows files l := by
  induction es with
  | nil => simp [AllShow]
  | cons e es ih => rw [AllShow, ih, List.forall_mem_cons]

namespace FileTree

theorem exists_node?_of_mem {t : FileTree} {l : Location} (h : l ∈ t.nodes.map Prod.fst) :
    ∃ n, t.node? l = some n := by
  unfold node?
  split
  · exact ⟨_, rfl⟩
  · obtain ⟨p, hp, rfl⟩ := List.mem_map.1 h
    cases hlookup : t.nodes.lookup p.1 with
    | none => exact absurd (List.lookup_eq_none_iff.1 hlookup p hp) (by simp)
    | some n => exact ⟨n, rfl⟩

theorem allShow_entriesTo (t : FileTree) (l : Location) (depth : Nat) :
    Entry.AllShow t l (t.entriesTo l depth) := by
  induction depth generalizing l with
  | zero => exact trivial
  | succ depth ih =>
    rw [Entry.allShow_iff, entriesTo]
    intro e he
    obtain ⟨name, hname, rfl⟩ := List.mem_map.1 he
    obtain ⟨n, hn⟩ := exists_node?_of_mem (mem_namesIn hname)
    rw [hn]
    cases n with
    | file content => exact ⟨content, hn⟩
    | directory => exact ⟨hn, ih _⟩

end FileTree

end TypedRoutes

namespace TypedRoutes.Route
open TypedRoutes.Text TypedRoutes.Console

/-! ## What holds at every node of a tree -/

namespace Tree

/-- The node that some names lead to, from child to child. -/
inductive Reached : List String → Tree → Tree → Prop where
  | here (t : Tree) : Reached [] t t
  | down {name : String} {names : List String} {t c u : Tree} (child : c ∈ t.children)
      (named : c.name = some name) (rest : Reached names c u) : Reached (name :: names) t u

theorem Reached.name_eq {names : List String} {t u : Tree} (h : Reached names t u)
    (hne : names ≠ []) : u.name = names.getLast? := by
  induction h with
  | here => exact absurd rfl hne
  | @down name names t c u child named rest ih =>
    by_cases hnil : names = []
    · subst hnil
      cases rest
      exact named
    · rw [ih hnil, List.getLast?_cons_of_ne_nil hnil]

/-- Something holds of the names that lead to any node, and of the endpoints there. -/
inductive Everywhere (P : List String → List Endpoint → Prop) : List String → Tree → Prop where
  | node {names : List String} {name : Option String} {children : List Tree}
      {endpoints : List Endpoint} (here : P names endpoints)
      (named : ∀ c ∈ children, ∃ n, c.name = some n)
      (below : ∀ c ∈ children, ∀ n, c.name = some n → Everywhere P (names ++ [n]) c) :
      Everywhere P names (node name children endpoints)

namespace Everywhere
variable {P Q : List String → List Endpoint → Prop} {names : List String} {t : Tree}

theorem mono (h : Everywhere P names t) (himp : ∀ names endpoints, P names endpoints →
    Q names endpoints) : Everywhere Q names t := by
  induction h with
  | node here named _ ih => exact .node (himp _ _ here) named ih

theorem of_reached {more : List String} {u : Tree} (hreached : Reached more t u)
    (h : Everywhere P names t) : P (names ++ more) u.endpoints := by
  induction hreached generalizing names with
  | here t =>
    cases h with
    | node here named below => rwa [List.append_nil]
  | @down name more t c u child named rest ih =>
    cases h with
    | node here _ below =>
      have hbelow := ih (below c child name named)
      rwa [List.append_assoc, List.singleton_append] at hbelow

theorem exists_reached (h : Everywhere P names t) {u : Tree} (hu : u ∈ t.directories) :
    ∃ more, Reached more t u := by
  induction h with
  | @node names name children endpoints here named below ih =>
    rw [directories_eq] at hu
    obtain ⟨c, hc, hu⟩ := List.mem_flatMap.1 hu
    obtain ⟨n, hn⟩ := named c hc
    rcases List.mem_cons.1 hu with rfl | hu
    · exact ⟨[n], .down hc hn (.here u)⟩
    · obtain ⟨more, hmore⟩ := ih c hc n hn hu
      exact ⟨n :: more, .down hc hn hmore⟩

end Everywhere

end Tree

/-! ## Where endpoints come from -/

/-- A walk over a directory that is there, among files that all have ordinary names. -/
structure Walk where
  files : FileTree
  working : Location
  root : String
  /-- Where the path of the directory leads to. -/
  top : Location
  excludes : String → Bool
  found : files.find working root = .ok (top, .directory)
  ordinary : ∀ l ∈ files.nodes.map Prod.fst, ∀ name ∈ l, Path.IsOrdinary name

namespace Walk
variable (w : Walk)

def directory (names : List String) : String := names.foldl Path.join w.root

/-- Names lead to a directory, and nothing on the way is left out. -/
structure Enters (names : List String) : Prop where
  found : w.files.find w.working (w.directory names) = .ok (w.top ++ names, .directory)
  kept : ∀ above, above <+: names → above ≠ [] → w.excludes (join "/" above) = false

/-- An endpoint has been found in the module that its path leads to. -/
structure Finds (log : List Inspection) (names : List String) (e : Endpoint) : Prop where
  segments : e.pathSegments = names
  file : ∃ content, w.files.find w.working (Path.join w.root e.sourcePath) =
    .ok (w.top ++ names ++ [e.sourceFileName], .file content)
  kept : w.excludes e.sourcePath = false
  inspected : ⟨Path.join w.root e.sourcePath, names, .ok (some e)⟩ ∈ log

/-- A directory with the endpoints in it, under unlike names. -/
structure Holds (log : List Inspection) (names : List String) (endpoints : List Endpoint) :
    Prop where
  enters : w.Enters names
  finds : ∀ e ∈ endpoints, w.Finds log names e
  unlike : (endpoints.map (·.functionName)).Nodup

variable {w} {log log' : List Inspection} {names : List String} {name : String}

theorem Finds.mono {e : Endpoint} (h : w.Finds log names e) (hlog : log ⊆ log') :
    w.Finds log' names e := ⟨h.segments, h.file, h.kept, hlog h.inspected⟩

theorem Holds.mono {endpoints : List Endpoint} (h : w.Holds log names endpoints)
    (hlog : log ⊆ log') : w.Holds log' names endpoints :=
  ⟨h.enters, fun e he => (h.finds e he).mono hlog, h.unlike⟩

theorem directory_concat (names : List String) (name : String) :
    w.directory (names ++ [name]) = Path.join (w.directory names) name := by
  rw [directory, List.foldl_append]
  rfl

theorem ordinary_of_node? {l : Location} {n : Node} (hn : w.files.node? l = some n) :
    ∀ name ∈ l, Path.IsOrdinary name := FileTree.ordinary_of_node? w.ordinary hn

/-- What stands under a name in a directory that was entered is found by the names to it. -/
theorem Enters.find_below (h : w.Enters names) {n : Node}
    (hn : w.files.node? (w.top ++ names ++ [name]) = some n) :
    w.files.find w.working (w.directory (names ++ [name])) =
      .ok (w.top ++ names ++ [name], n) := by
  rw [directory_concat]
  exact FileTree.find_join h.found (ordinary_of_node? hn name (by simp)) hn

theorem Enters.down (h : w.Enters names)
    (hn : w.files.node? (w.top ++ names ++ [name]) = some .directory)
    (hkept : w.excludes (Builder.place names name) = false) : w.Enters (names ++ [name]) := by
  constructor
  · rw [h.find_below hn, List.append_assoc]
  · intro above habove hne
    rcases List.prefix_concat_iff.1 habove with rfl | hbefore
    · exact hkept
    · exact h.kept above hbefore hne

/-- Whatever the inspection of a module gives, the path of the endpoint is that of the module. -/
theorem Enters.finds (h : w.Enters names) {content : Content}
    (hn : w.files.node? (w.top ++ names ++ [name]) = some (.file content))
    (hkept : w.excludes (Builder.place names name) = false) {e : Endpoint}
    (hsegments : e.pathSegments = names)
    (hsource : Path.fileName? (Path.join (w.directory names) name) = some e.sourceFileName)
    (hlog : ⟨Path.join (w.directory names) name, names, .ok (some e)⟩ ∈ log) :
    w.Finds log names e := by
  have hordinary : ∀ other ∈ names ++ [name], Path.IsOrdinary other := by
    intro other hother
    refine ordinary_of_node? hn other ?_
    rw [List.append_assoc]
    exact List.mem_append_right _ hother
  have hname : e.sourceFileName = name := by
    rw [Path.fileName?_join (FileTree.find_eq_ok.1 h.found).1 (hordinary name (by simp))] at hsource
    exact (Option.some.inj hsource).symm
  have hsourcePath : e.sourcePath = Builder.place names name := by
    rw [Endpoint.sourcePath, hsegments, hname, Builder.place]
  have hpath : Path.join w.root e.sourcePath = Path.join (w.directory names) name := by
    rw [hsourcePath, Builder.place,
      ← Path.foldl_join (FileTree.find_eq_ok.1 w.found).1 hordinary (by simp)]
    exact directory_concat names name
  refine ⟨hsegments, ⟨content, ?_⟩, by rw [hsourcePath, hkept], by rw [hpath]; exact hlog⟩
  rw [hpath, ← directory_concat, h.find_below hn, hname]

end Walk

/-! ## What a walk gathers -/

section Gathering
variable {σ : Type} {b : Builder σ} {w : Walk} {names : List String}

/-- What is extracted from a module is placed by the names that lead to it and by its own. -/
def Builder.ExtractsLocated (b : Builder σ) : Prop :=
  ∀ path segments state e, (b.extract path segments state).1 = .ok (some e) →
    e.pathSegments = segments ∧ Path.fileName? path = some e.sourceFileName

/-- What has been gathered in a directory came from there, as the record of inspections shows. -/
def Gathered.Held (w : Walk) (names : List String) (g : Gathered (σ × List Inspection)) : Prop :=
  Tree.Everywhere (w.Holds g.state.2) names (.node none g.children g.endpoints)

/-- With some more entries of a directory the record has grown, and what has been gathered came from
there if it did before. -/
structure Gathered.Advances (w : Walk) (names : List String)
    (g g' : Gathered (σ × List Inspection)) : Prop where
  log : g.state.2 ⊆ g'.state.2
  held : g.Held w names → g'.Held w names

namespace Gathered
variable {g g' g'' : Gathered (σ × List Inspection)}

theorem Advances.trans (h : g.Advances w names g') (h' : g'.Advances w names g'') :
    g.Advances w names g'' :=
  ⟨fun _ hcall => h'.log (h.log hcall), fun hheld => h'.held (h.held hheld)⟩

theorem advances_note (g : Gathered (σ × List Inspection)) (n : Note) :
    g.Advances w names (g.note n) := ⟨List.Subset.refl _, id⟩

theorem Held.here (h : g.Held w names) : w.Holds g.state.2 names g.endpoints := by
  cases h with
  | node here named below => exact here

theorem Held.grown (h : g.Held w names) {state : σ × List Inspection}
    (hlog : g.state.2 ⊆ state.2) : Held w names { g with state } :=
  h.mono fun _ _ hholds => hholds.mono hlog

theorem Held.addEndpoint (h : g.Held w names) {e : Endpoint} (he : w.Finds g.state.2 names e)
    (path place : String) : (Builder.addEndpoint path place e g).Held w names := by
  unfold Builder.addEndpoint
  split
  · exact h
  · rename_i hnew
    cases h with
    | node here named below =>
      have hunlike := Builder.nodup_functionNames_concat here.unlike hnew
      refine .node ⟨here.enters, ?_, hunlike⟩ named below
      intro e' he'
      rcases List.mem_append.1 he' with he' | he'
      · exact here.finds e' he'
      · obtain rfl : e' = e := by simpa using he'
        exact he

theorem Held.addChild (h : g.Held w names) {name : String} {inner : Gathered (σ × List Inspection)}
    (hinner : inner.Held w (names ++ [name])) (hlog : g.state.2 ⊆ inner.state.2) :
    Held w names { g with
      children := g.children ++ [.node (some name) inner.children inner.endpoints]
      notes := inner.notes
      state := inner.state } := by
  cases h.grown hlog with
  | node here named below =>
    refine .node here ?_ ?_
    · intro c hc
      rcases List.mem_append.1 hc with hc | hc
      · exact named c hc
      · obtain rfl := List.mem_singleton.1 hc
        exact ⟨name, rfl⟩
    · intro c hc n hn
      rcases List.mem_append.1 hc with hc | hc
      · exact below c hc n hn
      · obtain rfl := List.mem_singleton.1 hc
        obtain rfl : name = n := Option.some.inj hn
        cases hinner with
        | node here named below => exact .node here named below

end Gathered

namespace Builder

theorem state_addEndpoint {σ : Type} (path place : String) (e : Endpoint) (g : Gathered σ) :
    (addEndpoint path place e g).state = g.state := by
  unfold addEndpoint
  split <;> rfl

theorem advances_gatherModule (hb : b.ExtractsLocated) {name : String} {content : Content}
    (hn : w.files.node? (w.top ++ names ++ [name]) = some (.file content))
    (hkept : w.excludes (place names name) = false) (g : Gathered (σ × List Inspection)) :
    g.Advances w names (b.recording.gatherModule (w.directory names) names name g) := by
  have hextract := hb (Path.join (w.directory names) name) names g.state.1
  rcases hx : b.extract (Path.join (w.directory names) name) names g.state.1 with ⟨found, after⟩
  rw [hx] at hextract
  let inspected : Gathered (σ × List Inspection) := { g with
    state := (after, g.state.2 ++ [⟨Path.join (w.directory names) name, names, found⟩]) }
  have hgrown : g.Advances w names inspected :=
    have hlog := List.subset_append_left ..
    ⟨hlog, fun h => h.grown hlog⟩
  simp only [gatherModule, recording, hx]
  rcases found with fault | _ | e
  · exact hgrown.trans (inspected.advances_note _)
  · exact hgrown.trans (inspected.advances_note _)
  · obtain ⟨hsegments, hsource⟩ := hextract e rfl
    refine hgrown.trans ⟨?_, fun h => h.addEndpoint ?_ _ _⟩
    · rw [state_addEndpoint]
      exact List.Subset.refl _
    · exact h.here.enters.finds hn hkept hsegments hsource (by simp [inspected])

mutual

/-- Gathering an entry advances by what the entry shows. -/
theorem advances_gatherEntry (hb : b.ExtractsLocated) (hexcludes : b.excludes = w.excludes)
    (names : List String) (g : Gathered (σ × List Inspection)) :
    ∀ e : Entry, e.Shows w.files (w.top ++ names) →
      g.Advances w names (b.recording.gatherEntry (w.directory names) names g e)
  | .file name, hshows => by
    obtain ⟨content, hn⟩ := hshows
    unfold gatherEntry
    rw [excludes_recording, hexcludes]
    split
    · exact g.advances_note _
    · rename_i hkept
      split
      · exact advances_gatherModule hb hn (by simpa using hkept) g
      · exact ⟨List.Subset.refl _, id⟩
  | .directory name entries, hshows => by
    obtain ⟨hn, hbelow⟩ := hshows
    unfold gatherEntry
    rw [excludes_recording, hexcludes]
    split
    · exact g.advances_note _
    · rename_i hkept
      -- the paths below are those of the names with this one after them
      rw [List.append_assoc] at hbelow
      obtain ⟨hlog, hheld⟩ := advances_gatherEntries hb hexcludes (names ++ [name])
        { notes := g.notes, state := g.state } entries hbelow
      rw [Walk.directory_concat] at hlog hheld
      refine ⟨hlog, fun h => h.addChild (hheld ?_) hlog⟩
      have henters := h.here.enters.down hn (by simpa using hkept)
      exact .node ⟨henters, by simp, by simp⟩ (by simp) (by simp)

theorem advances_gatherEntries (hb : b.ExtractsLocated) (hexcludes : b.excludes = w.excludes)
    (names : List String) (g : Gathered (σ × List Inspection)) :
    ∀ es : List Entry, Entry.AllShow w.files (w.top ++ names) es →
      g.Advances w names (b.recording.gatherEntries (w.directory names) names g es)
  | [], _ => ⟨List.Subset.refl _, id⟩
  | e :: es, hshow => by
    rw [gatherEntries]
    exact (advances_gatherEntry hb hexcludes names g e hshow.1).trans
      (advances_gatherEntries hb hexcludes names _ es hshow.2)

end

end Builder

end Gathering

/-! ## Built trees -/

theorem Walk.enters_root (w : Walk) : w.Enters [] := by
  refine ⟨?_, fun above habove hne => absurd (List.prefix_nil.1 habove) hne⟩
  rw [List.append_nil]
  exact w.found

/-- Whatever entries of a directory are gathered, and in whatever order, each node of the tree holds
what was found in its place. -/
theorem Walk.holds_ofEntries {σ : Type} {b : Builder σ} (hb : b.ExtractsLocated) (w : Walk)
    (hexcludes : b.excludes = w.excludes) {entries : List Entry}
    (hshow : Entry.AllShow w.files w.top entries) (state : σ) :
    let recorded := b.recording.ofEntries w.root [] entries (state, [])
    recorded.1.Everywhere (w.Holds recorded.2.state.2) [] := by
  let start : Gathered (σ × List Inspection) := { state := (state, []) }
  have hstart : start.Held w [] :=
    .node ⟨w.enters_root, by simp [start], by simp [start]⟩ (by simp [start]) (by simp [start])
  rw [← List.append_nil w.top] at hshow
  exact (Builder.advances_gatherEntries hb hexcludes [] start _ hshow).held hstart

theorem Analysis.extractsLocated {σ : Type} (a : Analysis σ) (allow : Bool)
    (excludes : String → Bool) :
    Builder.ExtractsLocated { extract := a.extract allow, excludes } := by
  intro path segments state e he
  obtain ⟨f, -, hendpoint⟩ := Analysis.extract_eq_some_iff.1 he
  obtain ⟨-, -, -, -, hsource, hsegments⟩ := Analysis.endpointOf_eq_some_steps.1 hendpoint
  exact ⟨hsegments, hsource⟩

namespace Walk
variable {w : Walk} {log : List Inspection} {names : List String}

theorem Enters.ordinary (h : w.Enters names) : ∀ name ∈ names, Path.IsOrdinary name :=
  fun name hname => ordinary_of_node? (FileTree.find_eq_ok.1 h.found).2.2 name
    (List.mem_append_right _ hname)

theorem Enters.isKeptName (h : w.Enters names)
    (hstandard : w.excludes = Exclusion.standard.covers) :
    ∀ name ∈ names, Exclusion.IsKeptName name := by
  intro name hname
  obtain ⟨above, below, rfl⟩ := List.append_of_mem hname
  have hbefore : above ++ [name] <+: above ++ name :: below := ⟨below, by simp⟩
  have hkept := h.kept (above ++ [name]) hbefore (by simp)
  rw [hstandard] at hkept
  exact Exclusion.isKeptName_of_kept (fun other hother =>
    (h.ordinary other (hbefore.subset hother)).2.2.2) hkept

theorem Finds.isKeptName {e : Endpoint} (h : w.Finds log names e)
    (hstandard : w.excludes = Exclusion.standard.covers) :
    Exclusion.IsKeptName e.sourceFileName := by
  have hkept := h.kept
  rw [hstandard, Endpoint.sourcePath, h.segments] at hkept
  obtain ⟨content, hfile⟩ := h.file
  refine Exclusion.isKeptName_of_kept (fun other hother => ?_) hkept
  refine (ordinary_of_node? (FileTree.find_eq_ok.1 hfile).2.2 other ?_).2.2.2
  rw [List.append_assoc]
  exact List.mem_append_right _ hother

end Walk

/-- A tree stands in a directory: every node is named after the directory that its names lead to,
every endpoint came from the module that its path leads to, and no two of a directory have one
name.  By the standard patterns nothing is passed that begins with a dot, and no packages. -/
structure Tree.StandsIn (files : FileTree) (working : Location) (root : String) (top : Location)
    (excludes : String → Bool) (log : List Inspection) (tree : Tree) : Prop where
  unnamed : tree.name = none
  reached : ∀ u ∈ tree.directories, ∃ names, Reached names tree u
  nodes : ∀ names u, Reached names tree u →
    u.name = names.getLast? ∧
    files.find working (names.foldl Path.join root) = .ok (top ++ names, .directory) ∧
    Path.components (names.foldl Path.join root) = Path.components root ++ names.map .named ∧
    (u.endpoints.map (·.functionName)).Nodup ∧
    (∀ e ∈ u.endpoints, e.pathSegments = names ∧
      (∃ content, files.find working (Path.join root e.sourcePath) =
        .ok (top ++ names ++ [e.sourceFileName], .file content)) ∧
      ⟨Path.join root e.sourcePath, names, .ok (some e)⟩ ∈ log) ∧
    (excludes = Exclusion.standard.covers →
      ∀ name ∈ names ++ u.endpoints.map (·.sourceFileName),
        name.toList.head? ≠ some '.' ∧ name ≠ "node_modules")

theorem Walk.standsIn (w : Walk) {log : List Inspection} {tree : Tree} (hroot : tree.name = none)
    (h : tree.Everywhere (w.Holds log) []) :
    tree.StandsIn w.files w.working w.root w.top w.excludes log := by
  refine ⟨hroot, fun u hu => h.exists_reached hu, fun names u hreached => ?_⟩
  have hholds : w.Holds log names u.endpoints := h.of_reached hreached
  refine ⟨?_, hholds.enters.found, ?_, hholds.unlike, ?_, ?_⟩
  · cases hreached with
    | here => exact hroot
    | down child named rest => exact (Tree.Reached.down child named rest).name_eq (by simp)
  · exact Path.components_foldl_join (FileTree.find_eq_ok.1 w.found).1 hholds.enters.ordinary
  · intro e he
    have hfinds := hholds.finds e he
    exact ⟨hfinds.segments, hfinds.file, hfinds.inspected⟩
  · intro hstandard name hname
    rcases List.mem_append.1 hname with hname | hname
    · exact hholds.enters.isKeptName hstandard name hname
    · obtain ⟨e, he, rfl⟩ := List.mem_map.1 hname
      exact (hholds.finds e he).isKeptName hstandard

/-- The tree of any entries of a directory stands in it, in whatever order they are enumerated, and
so does the tree that is built of the directory; so it is for any analysis and whatever is left
out. -/
theorem built_tree_well_placed {σ : Type} (a : Analysis σ) (allow : Bool)
    (excludes : String → Bool) {files : FileTree}
    (hnames : ∀ l ∈ files.nodes.map Prod.fst, ∀ name ∈ l, Path.IsOrdinary name)
    (working : Location) (root : String) (state : σ) :
    let b : Builder σ := { extract := a.extract allow, excludes }
    (∀ top entries, files.find working root = .ok (top, .directory) →
      Entry.AllShow files top entries →
      let recorded := b.recording.ofEntries root [] entries (state, [])
      b.ofEntries root [] entries state = (recorded.1, recorded.2.forget) ∧
        recorded.1.StandsIn files working root top excludes recorded.2.state.2) ∧
    ∀ tree, (b.build files working root state).1 = .ok tree →
      ∃ top notes after log, files.find working root = .ok (top, .directory) ∧
        b.build files working root state = (.ok tree, notes, after) ∧
        b.recording.build files working root (state, []) = (.ok tree, notes, (after, log)) ∧
        tree.StandsIn files working root top excludes log := by
  intro b
  have hentries : ∀ top entries, files.find working root = .ok (top, .directory) →
      Entry.AllShow files top entries →
      let recorded := b.recording.ofEntries root [] entries (state, [])
      recorded.1.StandsIn files working root top excludes recorded.2.state.2 := by
    intro top entries hfound hshow
    let w : Walk := ⟨files, working, root, top, excludes, hfound, hnames⟩
    exact w.standsIn rfl (w.holds_ofEntries (a.extractsLocated allow excludes) rfl hshow state)
  refine ⟨fun top entries hfound hshow => ⟨?_, hentries top entries hfound hshow⟩,
    fun tree hbuilt => ?_⟩
  · exact b.ofEntries_recording root [] entries state []
  · obtain ⟨top, hfound⟩ := Builder.exists_of_build hbuilt
    have hrecorded := b.recording.build_of_find hfound (state, [])
    have hplain := b.build_recording files working root state []
    rw [hrecorded] at hplain
    rw [hplain] at hbuilt
    obtain rfl := Except.ok.inj hbuilt
    exact ⟨top, _, _, _, hfound, hplain, hrecorded,
      hentries top _ hfound (files.allShow_entriesTo top _)⟩

private def uniform : Analysis Unit where
  exportedDefault file _ := (.ok (some (.function ⟨file, some "ban", 0⟩)), ())
  parameterType _ _ _ := none
  returnTypeArgument f _ := some ⟨"Ban", some ⟨f.file, "Ban"⟩⟩
  declarationText _ _ := some "type Ban = boolean;"
  release _ _ := ()

private def mixedFiles : FileTree where
  nodes :=
    [(["src"], .directory), (["src", ".git"], .directory), (["src", "admin"], .directory),
     (["src", "ban.ts"], .file (.text "")), (["src", "old.ts"], .file (.text "")),
     (["src", ".git", "ban.ts"], .file (.text "")),
     (["src", "admin", "ban.ts"], .file (.text "")),
     (["src", "admin", "node_modules"], .directory)]

private theorem entries_mixedFiles : mixedFiles.entries ["src"] =
    [.directory ".git" [.file "ban.ts"],
     .directory "admin" [.file "ban.ts", .directory "node_modules" []],
     .file "ban.ts", .file "old.ts"] := by
  have hsrc : mixedFiles.namesIn ["src"] = [".git", "admin", "ban.ts", "old.ts"] :=
    FileTree.namesIn_of_sorted (by decide +kernel) (by decide +kernel)
  have hgit : mixedFiles.namesIn (["src"] ++ [".git"]) = ["ban.ts"] :=
    FileTree.namesIn_of_sorted (by decide +kernel) (by decide +kernel)
  have hadmin : mixedFiles.namesIn (["src"] ++ ["admin"]) = ["ban.ts", "node_modules"] :=
    FileTree.namesIn_of_sorted (by decide +kernel) (by decide +kernel)
  have hpackages : mixedFiles.namesIn (["src"] ++ ["admin"] ++ ["node_modules"]) = [] :=
    FileTree.namesIn_of_sorted (by decide +kernel) (by decide +kernel)
  have hdepth : mixedFiles.entries ["src"] = mixedFiles.entriesTo ["src"] 4 := rfl
  rw [hdepth, FileTree.entriesTo, hsrc]
  simp only [List.map_cons, List.map_nil, FileTree.entriesTo, hgit, hadmin, hpackages]
  rfl

theorem mixedFiles_well_placed :
    let b : Builder Unit :=
      { extract := uniform.extract true, excludes := Exclusion.standard.covers }
    (∀ l ∈ mixedFiles.nodes.map Prod.fst, ∀ name ∈ l, Path.IsOrdinary name) ∧
      ∃ tree u e log, (b.build mixedFiles [] "/src/" ()).1 = .ok tree ∧
        Tree.Reached ["admin"] tree u ∧ u.name = some "admin" ∧ u.endpoints = [e] ∧
        tree.endpoints.map Endpoint.sourcePath = ["ban.ts"] ∧
        Path.join "/src/" e.sourcePath = "/src/admin/ban.ts" ∧
        ⟨"/src/admin/ban.ts", ["admin"], .ok (some e)⟩ ∈ log ∧
        (b.recording.build mixedFiles [] "/src/" ((), [])).2.2.2 = log := by
  intro b
  have hnames : ∀ l ∈ mixedFiles.nodes.map Prod.fst, ∀ name ∈ l, Path.IsOrdinary name := by
    decide
  have hfound : mixedFiles.find [] "/src/" = .ok (["src"], .directory) := by decide
  let e (segments : List String) : Endpoint :=
    ⟨segments, "ban", "ban.ts", none, ⟨"Ban", "type Ban = boolean;"⟩⟩
  have hbuild : (b.build mixedFiles [] "/src/" ()).1 =
      .ok (.node none [.node (some "admin") [] [e ["admin"]]] [e []]) := by
    rw [b.build_of_find hfound, entries_mixedFiles]
    rfl
  obtain ⟨-, hbuilt⟩ :=
    built_tree_well_placed uniform true Exclusion.standard.covers hnames [] "/src/" ()
  obtain ⟨top, notes, after, log, -, -, hrecorded, hstands⟩ := hbuilt _ hbuild
  have hreached : Tree.Reached ["admin"] (.node none [.node (some "admin") [] [e ["admin"]]] [e []])
      (.node (some "admin") [] [e ["admin"]]) :=
    .down (List.mem_singleton.2 rfl) rfl (.here _)
  obtain ⟨hname, -, -, -, hends, -⟩ := hstands.nodes _ _ hreached
  have hpath : Path.join "/src/" (e ["admin"]).sourcePath = "/src/admin/ban.ts" := by decide
  refine ⟨hnames, _, _, _, log, hbuild, hreached, hname, rfl, by decide, hpath, ?_, ?_⟩
  · rw [← hpath]
    exact (hends (e ["admin"]) (List.mem_singleton.2 rfl)).2.2
  · rw [hrecorded]

end TypedRoutes.Route
