import TypedRoutes.Manifest
import TypedRoutes.Proofs.AncestorPaths
import TypedRoutes.Proofs.NamedPlaces
import TypedRoutes.Proofs.ReadableValues
import TypedRoutes.Proofs.RereadModules

/-! # The nearest manifest

A directory has a manifest if a file of that name stands in it.  On the way up from a directory the
first manifest counts, whatever is in it: if it cannot be used, none is.  The packages that it
names are kept once each, in the order in which its sections name them first.
-/

namespace TypedRoutes

namespace Manifest
open TypedRoutes.Json

/-! ## Packages -/

/-- The names of packages in all sections, one section after the other. -/
def mentioned (v : Value) : List String := dependencySections.flatMap (sectionNames v)

/-- Of some names those that come first, in their order. -/
structure Firsts (all names : List String) : Prop where
  mem_iff : ∀ name, name ∈ names ↔ name ∈ all
  ordered : names.Pairwise fun a b => all.idxOf a < all.idxOf b

theorem Firsts.add {all names : List String} (h : Firsts all names) (name : String) :
    Firsts (all ++ [name]) (if names.contains name then names else names ++ [name]) := by
  have hbefore {a : String} (ha : a ∈ names) : (all ++ [name]).idxOf a = all.idxOf a :=
    List.idxOf_append_of_mem ((h.mem_iff a).1 ha)
  have hordered : names.Pairwise fun a b => (all ++ [name]).idxOf a < (all ++ [name]).idxOf b :=
    h.ordered.imp_of_mem fun ha hb hlt => by rwa [hbefore ha, hbefore hb]
  split
  · rename_i hcontains
    have hmem := List.contains_iff_mem.1 hcontains
    refine ⟨fun other => ?_, hordered⟩
    rw [List.mem_append, List.mem_singleton, h.mem_iff]
    exact ⟨.inl, fun hother => hother.elim id fun heq => heq ▸ (h.mem_iff name).1 hmem⟩
  · rename_i hcontains
    have hnew : name ∉ names := fun hmem => hcontains (List.contains_iff_mem.2 hmem)
    refine ⟨fun other => ?_, List.pairwise_append.2 ⟨hordered, List.pairwise_singleton _ _, ?_⟩⟩
    · rw [List.mem_append, List.mem_append, h.mem_iff]
    · intro a ha b hb
      have hall : name ∉ all := fun hmem => hnew ((h.mem_iff name).2 hmem)
      rw [List.mem_singleton.1 hb, hbefore ha, List.idxOf_append_of_notMem hall]
      exact Nat.lt_of_lt_of_le (List.idxOf_lt_length_of_mem ((h.mem_iff a).1 ha))
        (Nat.le_add_right _ _)

theorem Firsts.addNew {all names : List String} (h : Firsts all names) (more : List String) :
    Firsts (all ++ more) (addNew names more) := by
  induction more generalizing all names with
  | nil => simpa [Manifest.addNew] using h
  | cons name more ih =>
    have hrest := ih (h.add name)
    rwa [List.append_assoc, List.singleton_append] at hrest

theorem Firsts.addSections {all names : List String} (h : Firsts all names) (v : Value)
    (keys : List String) :
    Firsts (all ++ keys.flatMap (sectionNames v))
      (keys.foldl (fun names key => Manifest.addNew names (sectionNames v key)) names) := by
  induction keys generalizing all names with
  | nil => simpa using h
  | cons key keys ih =>
    have hrest := ih (h.addNew (sectionNames v key))
    rwa [List.append_assoc] at hrest

theorem firsts_externalsOf (v : Value) : Firsts (mentioned v) (externalsOf v) :=
  have hnone : Firsts [] [] := ⟨fun _ => Iff.rfl, .nil⟩
  hnone.addSections v dependencySections

/-! ### Sections -/

theorem mem_sectionNames {v : Value} {key name : String} : name ∈ sectionNames v key ↔
    ∃ fields, v.field? key = some (.object fields) ∧ name ∈ fields.map Prod.fst := by
  unfold sectionNames
  constructor
  · intro h
    cases hfields : (v.field? key).bind (·.fields?) with
    | none =>
      rw [hfields] at h
      cases h
    | some fields =>
      obtain ⟨w, hw, hobject⟩ := Option.bind_eq_some_iff.1 hfields
      cases w <;> cases hobject
      rw [hfields] at h
      exact ⟨fields, hw, h⟩
  · rintro ⟨fields, hfields, h⟩
    rw [hfields]
    exact h

theorem ascending_sectionNames {depth : Nat} {v : Value} (h : Readable depth v) (key : String) :
    (sectionNames v key).Pairwise (· < ·) := by
  unfold sectionNames
  cases hfields : (v.field? key).bind (·.fields?) with
  | none => exact .nil
  | some section_ =>
    obtain ⟨w, hw, hobject⟩ := Option.bind_eq_some_iff.1 hfields
    cases w <;> cases hobject
    cases h with
    | object _ hreadable =>
      obtain ⟨before, after, rfl, -⟩ := List.lookup_eq_some_iff.1 hw
      cases hreadable (key, .object section_) (by simp) with
      | object hkeys _ => exact List.pairwise_map.2 hkeys
    | _ => cases hw

/-- The number of the first section that names a package. -/
def firstSection (v : Value) (name : String) : Nat :=
  dependencySections.findIdx fun key => (sectionNames v key).contains name

/-- Of two names the one that occurs first is in an earlier section, or it is the lesser in the same
one. -/
theorem section_or_name_lt {keys : List String} {names : String → List String} {a b : String}
    (h : ∀ key ∈ keys, (names key).Pairwise (· < ·)) (hb : b ∈ keys.flatMap names)
    (hlt : (keys.flatMap names).idxOf a < (keys.flatMap names).idxOf b) :
    let place (name : String) := keys.findIdx fun key => (names key).contains name
    place a < place b ∨ place a = place b ∧ a < b := by
  induction keys with
  | nil => cases hb
  | cons key keys ih =>
    intro place
    have hfirst {name : String} (hname : name ∈ names key) : place name = 0 := by
      simp [place, List.findIdx_cons, hname]
    have hlater {name : String} (hname : name ∉ names key) :
        place name = (keys.findIdx fun key => (names key).contains name) + 1 := by
      simp [place, List.findIdx_cons, hname]
    rw [List.flatMap_cons] at hb hlt
    by_cases hfirst_a : a ∈ names key <;> by_cases hfirst_b : b ∈ names key
    · rw [List.idxOf_append_of_mem hfirst_a, List.idxOf_append_of_mem hfirst_b] at hlt
      have hpair := List.pairwise_iff_getElem.1 (h key (.head _)) _ _
        (List.idxOf_lt_length_of_mem hfirst_a) (List.idxOf_lt_length_of_mem hfirst_b) hlt
      rw [List.getElem_idxOf, List.getElem_idxOf] at hpair
      exact .inr ⟨(hfirst hfirst_a).trans (hfirst hfirst_b).symm, hpair⟩
    · exact .inl (by rw [hfirst hfirst_a, hlater hfirst_b]; exact Nat.succ_pos _)
    · rw [List.idxOf_append_of_notMem hfirst_a, List.idxOf_append_of_mem hfirst_b] at hlt
      have hroom := List.idxOf_lt_length_of_mem hfirst_b
      omega
    · rw [List.idxOf_append_of_notMem hfirst_a, List.idxOf_append_of_notMem hfirst_b] at hlt
      have hrest := ih (fun other hother => h other (.tail _ hother))
        ((List.mem_append.1 hb).resolve_left hfirst_b) (Nat.lt_of_add_lt_add_left hlt)
      rw [hlater hfirst_a, hlater hfirst_b]
      exact hrest.imp Nat.succ_lt_succ (And.imp_left (congrArg Nat.succ))

/-- The packages of a manifest: each that a section names is there once, those of an earlier section
before those of a later one, and those of one section in ascending order. -/
structure Collects (v : Value) (externals : List String) : Prop where
  nodup : externals.Nodup
  mem_iff : ∀ name, name ∈ externals ↔ ∃ key ∈ dependencySections, ∃ fields,
    v.field? key = some (.object fields) ∧ name ∈ fields.map Prod.fst
  ordered : externals.Pairwise fun a b => (mentioned v).idxOf a < (mentioned v).idxOf b
  sections : externals.Pairwise fun a b =>
    firstSection v a < firstSection v b ∨ firstSection v a = firstSection v b ∧ a < b

theorem collects_externalsOf {text : String} {v : Value} (h : parse text = .ok v) :
    Collects v (externalsOf v) := by
  obtain ⟨hmem, hordered⟩ := firsts_externalsOf v
  refine ⟨?_, fun name => ?_, hordered, ?_⟩
  · exact hordered.imp fun hlt => ne_of_apply_ne (mentioned v).idxOf (Nat.ne_of_lt hlt)
  · rw [hmem, mentioned, List.mem_flatMap]
    simp only [mem_sectionNames]
  · refine hordered.imp_of_mem fun _ hb hlt => ?_
    exact section_or_name_lt (fun key _ => ascending_sectionNames (readable_of_parse h) key)
      ((hmem _).1 hb) hlt

/-! ## Manifests in directories -/

section Nearest
variable {files : FileTree} {working : Location} {start d : String} {content : Content}

def Holds (files : FileTree) (working : Location) (d : String) (content : Content) : Prop :=
  ∃ l, (d = "" ∧ l = working ∧ files.node? working = some .directory ∨
      files.find working d = .ok (l, .directory)) ∧
    files.node? (l ++ [fileName]) = some (.file content)

theorem holds_iff : Holds files working d content ↔
    ∃ l, files.find working (Path.join d fileName) = .ok (l, .file content) := by
  have hname : Path.IsOrdinary fileName := by decide
  by_cases hempty : d = ""
  · subst hempty
    have hjoin : Path.join "" fileName = fileName := rfl
    have hnowhere (l : Location) : files.find working "" ≠ .ok (l, .directory) := nofun
    rw [hjoin]
    simp only [FileTree.find_name hname, Holds, hnowhere, or_false, true_and]
    constructor
    · rintro ⟨l, ⟨rfl, hthere⟩, hnode⟩
      exact ⟨l ++ [fileName], hthere, rfl, hnode⟩
    · rintro ⟨l', hthere, rfl, hnode⟩
      exact ⟨working, ⟨rfl, hthere⟩, hnode⟩
  · simp only [FileTree.find_join_iff hname hempty, Holds, hempty, false_and, false_or]
    constructor
    · rintro ⟨l, hfind, hnode⟩
      exact ⟨l ++ [fileName], l, hfind, rfl, hnode⟩
    · rintro ⟨l', l, hfind, rfl, hnode⟩
      exact ⟨l, hfind, hnode⟩

theorem isFile_iff_holds : files.isFile working (Path.join d fileName) = true ↔
    ∃ content, Holds files working d content := by
  rw [FileTree.isFile_iff, exists_comm]
  simp only [holds_iff]

/-- The manifest nearest to a directory: all others on the way up are further up. -/
structure IsNearest (files : FileTree) (working : Location) (start d : String)
    (content : Content) : Prop where
  above : d ∈ Path.ancestors start
  holds : Holds files working d content
  further : ∀ d' ∈ Path.ancestors start, ∀ content', Holds files working d' content' →
    Path.components d' <+: Path.components d

theorem nearestRoot?_eq_none_iff : nearestRoot? files working start = none ↔
    ∀ d ∈ Path.ancestors start, ∀ content, ¬Holds files working d content := by
  simp only [nearestRoot?, List.find?_eq_none, isFile_iff_holds, not_exists]

theorem isNearest_of_nearestRoot? (h : nearestRoot? files working start = some d) :
    ∃ content, IsNearest files working start d content := by
  obtain ⟨hfile, before, after, hways, hbefore⟩ := List.find?_eq_some_iff_append.1 h
  obtain ⟨content, hholds⟩ := isFile_iff_holds.1 hfile
  refine ⟨content, by rw [hways]; simp, hholds, fun d' hd' content' hholds' => ?_⟩
  have hup := Path.pairwise_ancestors start
  rw [hways] at hd' hup
  obtain hd' | hd' := List.mem_append.1 hd'
  · have hnone := hbefore d' hd'
    rw [isFile_iff_holds.2 ⟨content', hholds'⟩] at hnone
    cases hnone
  · obtain rfl | hd' := List.mem_cons.1 hd'
    · exact List.prefix_rfl
    · exact (List.rel_of_pairwise_cons (List.pairwise_append.1 hup).2.1 hd').1

/-- Only one directory on the way up has the nearest manifest, and it is found. -/
theorem IsNearest.found (h : IsNearest files working start d content) :
    nearestRoot? files working start = some d := by
  cases hfound : nearestRoot? files working start with
  | none => exact absurd h.holds (nearestRoot?_eq_none_iff.1 hfound d h.above content)
  | some d' =>
    obtain ⟨content', h'⟩ := isNearest_of_nearestRoot? hfound
    have hsame : Path.components d' = Path.components d :=
      (h.further d' h'.above content' h'.holds).eq_of_length_le
        (h'.further d h.above content h.holds).length_le
    have hnodup : ((Path.ancestors start).map Path.components).Nodup :=
      List.pairwise_map.2 ((Path.pairwise_ancestors start).imp fun hup => hup.2.symm)
    rw [List.inj_on_of_nodup_map hnodup h'.above h.above hsame]

inductive Unusable (d : String) : Content → ManifestFault → Prop where
  | unreadable {content : Content} (h : content.text? = none) :
      Unusable d content (.file .notText)
  | malformed {text : String} {e : Failure} (h : parse text = .error e) :
      Unusable d (.text text) (.malformed (Path.join d fileName) e.message)

theorem Unusable.unique {fault fault' : ManifestFault} (h : Unusable d content fault)
    (h' : Unusable d content fault') : fault = fault' := by
  cases h with
  | unreadable h =>
    cases h' with
    | unreadable _ => rfl
    | malformed _ => cases h
  | malformed h =>
    cases h' with
    | unreadable h' => cases h'
    | malformed h' => rw [Except.error.inj (h.symm.trans h')]

theorem Unusable.parse_ne_ok {fault : ManifestFault} {text : String}
    (h : Unusable d (.text text) fault) (v : Value) : parse text ≠ .ok v := by
  cases h with
  | unreadable h => cases h
  | malformed h => simp [h]

/-- The nearest manifest is read, and nothing else counts. -/
theorem IsNearest.outcome (h : IsNearest files working start d content) :
    (∃ fault, Unusable d content fault ∧ nearest files working start = .error fault) ∨
      ∃ text v, content = .text text ∧ parse text = .ok v ∧
        nearest files working start = .ok (some
          { root := d, path := Path.join d fileName,
            name := (v.field? "name").bind (·.string?), externals := externalsOf v }) := by
  obtain ⟨l, hfind⟩ := holds_iff.1 h.holds
  rw [nearest, h.found]
  cases content with
  | bytes values =>
    have hread : files.readText working (Path.join d fileName) = .error .notText := by
      rw [FileTree.readText, FileTree.read, hfind]
      rfl
    refine .inl ⟨_, .unreadable rfl, ?_⟩
    simp only [read, hread]
    rfl
  | text text =>
    have hread := FileTree.readText_of_find hfind
    cases hparse : parse text with
    | error e =>
      refine .inl ⟨_, .malformed hparse, ?_⟩
      simp only [read, hread, Except.mapError, bind, Except.bind, hparse]
      rfl
    | ok v =>
      refine .inr ⟨text, v, rfl, hparse, ?_⟩
      simp only [read, hread, Except.mapError, bind, Except.bind, hparse]
      rfl

theorem Collects.unique {v : Value} {externals externals' : List String}
    (h : Collects v externals) (h' : Collects v externals') : externals = externals' := by
  have hperm : externals.Perm externals' :=
    (List.perm_ext_iff_of_nodup h.nodup h'.nodup).2 fun name =>
      (h.mem_iff name).trans (h'.mem_iff name).symm
  refine hperm.eq_of_pairwise (fun a b _ _ hab hba => ?_) h.ordered h'.ordered
  exact absurd hba (Nat.lt_asymm hab)

theorem nearest_eq_none_iff : nearest files working start = .ok none ↔
    ∀ d ∈ Path.ancestors start, ∀ content, ¬Holds files working d content := by
  rw [← nearestRoot?_eq_none_iff]
  constructor
  · intro hnone
    by_contra hsome
    obtain ⟨d, hd⟩ := Option.ne_none_iff_exists'.1 hsome
    obtain ⟨content, hnearest⟩ := isNearest_of_nearestRoot? hd
    obtain ⟨fault, -, hfault⟩ | ⟨text, v, -, -, hfound⟩ := hnearest.outcome
    · rw [hfault] at hnone
      cases hnone
    · rw [hfound] at hnone
      cases hnone
  · intro hroot
    rw [nearest, hroot]

theorem exists_isNearest (h : nearest files working start ≠ .ok none) :
    ∃ d content, IsNearest files working start d content := by
  cases hroot : nearestRoot? files working start with
  | none => exact absurd (by rw [nearest, hroot]) h
  | some d => exact ⟨d, isNearest_of_nearestRoot? hroot⟩

theorem nearest_eq_error_iff {fault : ManifestFault} :
    nearest files working start = .error fault ↔
      ∃ d content, IsNearest files working start d content ∧ Unusable d content fault := by
  constructor
  · intro hfault
    obtain ⟨d, content, hnearest⟩ := exists_isNearest (by rw [hfault]; nofun)
    obtain ⟨fault', hunusable, hfault'⟩ | ⟨text, v, -, -, hfound⟩ := hnearest.outcome
    · obtain rfl := Except.error.inj (hfault'.symm.trans hfault)
      exact ⟨d, content, hnearest, hunusable⟩
    · rw [hfound] at hfault
      cases hfault
  · rintro ⟨d, content, hnearest, hunusable⟩
    obtain ⟨fault', hunusable', hfault⟩ | ⟨text, v, rfl, hparse, -⟩ := hnearest.outcome
    · rw [hfault, hunusable.unique hunusable']
    · exact absurd hparse (hunusable.parse_ne_ok v)

theorem nearest_eq_some_iff {m : Manifest} : nearest files working start = .ok (some m) ↔
    ∃ text v, IsNearest files working start m.root (.text text) ∧ parse text = .ok v ∧
      m.path = Path.join m.root fileName ∧ m.name = (v.field? "name").bind (·.string?) ∧
      Collects v m.externals := by
  constructor
  · intro hm
    obtain ⟨d, content, hnearest⟩ := exists_isNearest (by rw [hm]; nofun)
    obtain ⟨fault, -, hfault⟩ | ⟨text, v, rfl, hparse, hfound⟩ := hnearest.outcome
    · rw [hfault] at hm
      cases hm
    · obtain rfl := Option.some.inj (Except.ok.inj (hfound.symm.trans hm))
      exact ⟨text, v, hnearest, hparse, rfl, rfl, collects_externalsOf hparse⟩
  · rintro ⟨text, v, hnearest, hparse, hpath, hname, hexternals⟩
    obtain ⟨fault, hunusable, -⟩ | ⟨text', v', htext, hparse', hfound⟩ := hnearest.outcome
    · exact absurd hparse (hunusable.parse_ne_ok v)
    · obtain rfl := Content.text.inj htext
      obtain rfl := Except.ok.inj (hparse.symm.trans hparse')
      rw [hfound, ← hpath, ← hname, (collects_externalsOf hparse).unique hexternals]

/-- On the way up from a directory, over its beginnings, nothing is found if no directory there has
a manifest.  Otherwise the nearest one decides: it is the cause of every failure, by being no text
or no JSON, and if there is no failure it is what is found, with its packages. -/
theorem nearest_manifest_decides (files : FileTree) (working : Location) (start : String) :
    (Path.ancestors start).map Path.components = Path.beginnings start ∧
    (nearest files working start = .ok none ↔
      ∀ d ∈ Path.ancestors start, ∀ content, ¬Holds files working d content) ∧
    (∀ fault, nearest files working start = .error fault ↔
      ∃ d content, IsNearest files working start d content ∧ Unusable d content fault) ∧
    ∀ m, nearest files working start = .ok (some m) ↔
      ∃ text v, IsNearest files working start m.root (.text text) ∧ parse text = .ok v ∧
        m.path = Path.join m.root fileName ∧ m.name = (v.field? "name").bind (·.string?) ∧
        Collects v m.externals :=
  ⟨Path.map_components_ancestors start, nearest_eq_none_iff, fun _ => nearest_eq_error_iff,
    fun _ => nearest_eq_some_iff⟩

/-- A directory of a manifest's name is passed over, and the next manifest up is read, with the
packages of its objects; if that one is broken, none further up is looked at. -/
theorem nested_manifest_decides :
    let project (text : String) : FileTree :=
      ⟨[(["a"], .directory), (["a", "b"], .directory), (["a", "b", "package.json"], .directory),
        (["a", "package.json"], .file (.text text)), (["package.json"], .file (.text "[]"))]⟩
    let text := "\x7b\"dependencies\": \x7b\"zod\": 1, \"axios\": 1\x7d, " ++
      "\"peerDependencies\": \x7b\"react\": 1, \"zod\": 1\x7d, \"devDependencies\": [\"x\"]\x7d"
    let m : Manifest :=
      { root := "a", path := "a/package.json", name := none, externals := ["axios", "zod", "react"] }
    nearest (project text) [] "a/b/" = .ok (some m) ∧
      (∃ read v, IsNearest (project text) [] "a/b/" m.root (.text read) ∧ parse read = .ok v ∧
        Collects v m.externals) ∧
      ∃ fault, nearest (project "[") [] "a/b/" = .error fault ∧
        ∃ d content, IsNearest (project "[") [] "a/b/" d content ∧ Unusable d content fault := by
  intro project text m
  have hfound : nearest (project text) [] "a/b/" = .ok (some m) := by decide +kernel
  have hbroken : nearest (project "[") [] "a/b/" = .error (.malformed "a/package.json"
      "EOF while parsing a list at line 1 column 1") := by decide +kernel
  obtain ⟨-, -, -, hsome⟩ := nearest_manifest_decides (project text) [] "a/b/"
  obtain ⟨-, -, herror, -⟩ := nearest_manifest_decides (project "[") [] "a/b/"
  obtain ⟨read, v, hnearest, hparse, -, -, hexternals⟩ := (hsome m).1 hfound
  exact ⟨hfound, ⟨read, v, hnearest, hparse, hexternals⟩, _, hbroken, (herror _).1 hbroken⟩

end Nearest

end Manifest

end TypedRoutes
