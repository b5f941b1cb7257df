import TypedRoutes.Config.Storage
import TypedRoutes.Proofs.LexicalPaths
import TypedRoutes.Proofs.StoredFiles

/-! # Places with a name in a directory

A path leads to one place at most, which has the name that the path ends in.  A name alone leads
into the working directory, and so does the directory's own path with the name after it.
-/

namespace TypedRoutes

namespace Path
open TypedRoutes.Text

/-! ## Pieces of joined paths -/

theorem splitOn_of_notMem {piece : String} (h : '/' ∉ piece.toList) :
    splitOn '/' piece = [piece] := by
  simp [splitOn, splitChars_of_notMem h]

theorem splitOn_slash (a b : String) :
    splitOn '/' (a ++ "/" ++ b) = splitOn '/' a ++ splitOn '/' b := by
  simp [splitOn, splitChars_separator]

theorem splitOn_join {parts : List String} (h : ∀ p ∈ parts, '/' ∉ p.toList) (hne : parts ≠ []) :
    splitOn '/' (Text.join "/" parts) = parts := by
  induction parts with
  | nil => exact absurd rfl hne
  | cons p parts ih =>
    have hp : splitOn '/' p = [p] := splitOn_of_notMem (h p (.head _))
    cases parts with
    | nil => simpa [Text.join] using hp
    | cons q parts =>
      rw [join_cons_cons, splitOn_slash, hp, ih (fun r hr => h r (.tail _ hr)) (by simp)]
      rfl

theorem isAbsolute_of_notMem {name : String} (h : '/' ∉ name.toList) : isAbsolute name = false := by
  rw [← Bool.not_eq_true, isAbsolute_iff]
  exact fun hhead => h (List.mem_of_head? hhead)

theorem isAbsolute_join_of_notMem {directory name : String} (h : '/' ∉ name.toList)
    (hne : directory ≠ "") : isAbsolute (join directory name) = isAbsolute directory := by
  unfold join
  rw [isAbsolute_of_notMem h, if_neg (by simpa using hne)]
  split
  · exact isAbsolute_append _ hne
  · rw [isAbsolute_append _ (by simp), isAbsolute_append _ hne]

/-- Joining a name adds a piece; a blank one, after a slash at the end, gives way to it. -/
theorem exists_splitOn_join {directory name : String} (h : '/' ∉ name.toList)
    (hne : directory ≠ "") : ∃ above, above ≠ [] ∧
      splitOn '/' (join directory name) = above ++ [name] ∧
      (splitOn '/' directory = above ∨ splitOn '/' directory = above ++ [""]) := by
  have hname : splitOn '/' name = [name] := splitOn_of_notMem h
  have hsome (path : String) : splitOn '/' path ≠ [] := by
    simp [splitOn, splitChars_ne_nil]
  unfold join
  rw [isAbsolute_of_notMem h, if_neg (by simpa using hne)]
  split
  · rename_i hends
    obtain ⟨start, rfl⟩ := endsWith_iff.1 hends
    have hblank := splitOn_slash start ""
    rw [String.append_empty] at hblank
    exact ⟨splitOn '/' start, hsome start, by rw [splitOn_slash, hname], .inr hblank⟩
  · exact ⟨splitOn '/' directory, hsome directory, by rw [splitOn_slash, hname], .inl rfl⟩

theorem getLast?_splitOn_join (directory : String) {name : String} (h : '/' ∉ name.toList) :
    (splitOn '/' (join directory name)).getLast? = some name := by
  have hname : splitOn '/' name = [name] := splitOn_of_notMem h
  unfold join
  split
  · rw [hname]
    rfl
  · split
    · rename_i hslash
      obtain ⟨start, rfl⟩ := endsWith_iff.1 hslash
      rw [splitOn_slash, hname, List.getLast?_concat]
    · rw [splitOn_slash, hname, List.getLast?_concat]

theorem join_ne_empty (directory : String) {name : String} (hname : IsOrdinary name) :
    join directory name ≠ "" := by
  intro hempty
  have hlast := getLast?_splitOn_join directory hname.2.2.2
  rw [hempty] at hlast
  exact hname.1 (Option.some.inj hlast).symm

end Path

namespace FileTree
open TypedRoutes.Text
open TypedRoutes.Path (IsOrdinary)

variable {t t' : FileTree} {directory l l' : Location} {path name : String}

theorem LeadsTo.unique (h : LeadsTo t directory path l) (h' : LeadsTo t directory path l') :
    l = l' := by
  obtain ⟨above, last, l₁, hpieces, hfollow, -, -, rfl⟩ := h.way
  obtain ⟨above', last', l₂, hpieces', hfollow', -, -, rfl⟩ := h'.way
  obtain ⟨rfl, hlast⟩ := List.append_inj' (hpieces.symm.trans hpieces') rfl
  obtain rfl := Except.ok.inj (hfollow.symm.trans hfollow')
  rw [hlast]

/-- Writing at a path puts a file where it leads, and nothing else anywhere. -/
theorem LeadsTo.eq_of_write {content : Content} (h : LeadsTo t directory path l)
    (hwrite : t.write directory path content = .ok t') :
    t' = t.setNode l (.file content) ∧ t.node? l ≠ some .directory := by
  obtain ⟨l', hleads, hnode, rfl⟩ := leadsTo_of_write hwrite
  obtain rfl := h.unique hleads
  exact ⟨rfl, hnode⟩

/-- A place has the name that the path to it ends in. -/
theorem LeadsTo.getLast? (h : LeadsTo t directory path l) :
    (splitOn '/' path).getLast? = l.getLast? := by
  obtain ⟨above, last, l₁, hpieces, -, -, -, rfl⟩ := h.way
  have hsplit : splitOn '/' path = above ++ [last] := hpieces
  rw [hsplit, List.getLast?_concat, List.getLast?_concat]

theorem LeadsTo.fileName? (h : LeadsTo t directory path (l ++ [name])) :
    Path.fileName? path = some name := by
  obtain ⟨above, last, l₁, hpieces, -, -, hlast, hl⟩ := h.way
  obtain rfl : name = last := by simpa using (List.append_inj' hl rfl).2
  have hsplit : splitOn '/' path = above ++ [name] := hpieces
  have hname : Path.component? name = some (.named name) := by
    simp only [isDirectoryName, Bool.or_eq_false_iff, decide_eq_false_iff_not] at hlast
    simp [Path.component?, hlast]
  have hend : (Path.components path).getLast? = some (.named name) := by
    rw [Path.components, hsplit, List.filterMap_append, List.filterMap_cons_some hname,
      List.filterMap_nil, ← List.append_assoc, List.getLast?_concat]
  rw [Path.fileName?, hend]

/-! ## Names in directories -/

section Names
variable {working : Location} {d : String} {n : Node}

theorem startOf_name (h : '/' ∉ name.toList) : startOf working name = (working, [name]) := by
  rw [startOf, Path.isAbsolute_of_notMem h, Path.splitOn_of_notMem h]
  rfl

theorem follow_name (hname : IsOrdinary name) : t.follow l [name] = .ok l' ↔
    t.node? l = some .directory ∧ l' = l ++ [name] ∧ (t.node? l').isSome := by
  obtain ⟨hblank, hdot, hparent, -⟩ := hname
  rw [follow_cons_eq_ok]
  constructor
  · rintro ⟨hl, ⟨hstay, -⟩ | ⟨hup, -⟩ | ⟨-, hnode, hend⟩⟩
    · exact absurd hstay (not_or.2 ⟨hblank, hdot⟩)
    · exact absurd hup hparent
    · obtain rfl := Except.ok.inj hend
      exact ⟨hl, rfl, hnode⟩
  · rintro ⟨hl, rfl, hnode⟩
    exact ⟨hl, .inr (.inr ⟨⟨hblank, hdot, hparent⟩, hnode, rfl⟩)⟩

theorem follow_blank : t.follow l [""] = .ok l' ↔ t.node? l = some .directory ∧ l' = l := by
  rw [follow_cons_eq_ok]
  constructor
  · rintro ⟨hl, ⟨-, hend⟩ | ⟨hup, -⟩ | ⟨⟨hblank, -⟩, -⟩⟩
    · exact ⟨hl, (Except.ok.inj hend).symm⟩
    · exact absurd hup (by decide)
    · exact absurd rfl hblank
  · rintro ⟨hl, rfl⟩
    exact ⟨hl, .inl ⟨.inl rfl, rfl⟩⟩

theorem find_name (hname : IsOrdinary name) : t.find working name = .ok (l', n) ↔
    t.node? working = some .directory ∧ l' = working ++ [name] ∧ t.node? l' = some n := by
  rw [find_eq_ok, startOf_name hname.2.2.2, follow_name hname]
  constructor
  · rintro ⟨-, ⟨hworking, hl, -⟩, hnode⟩
    exact ⟨hworking, hl, hnode⟩
  · rintro ⟨hworking, hl, hnode⟩
    exact ⟨hname.1, ⟨hworking, hl, by rw [hnode]; rfl⟩, hnode⟩

/-- Before a name that a path is joined to the path leads where it leads alone, also where it ends
in a slash. -/
theorem exists_startOf_join (t : FileTree) (working : Location) (h : '/' ∉ name.toList)
    (hne : d ≠ "") : ∃ above,
      startOf working (Path.join d name) = ((startOf working d).1, above ++ [name]) ∧
        ∀ l, t.node? l = some .directory →
          (t.follow (startOf working d).1 above = .ok l ↔
            t.follow (startOf working d).1 (startOf working d).2 = .ok l) := by
  obtain ⟨above, -, hpieces, hbefore⟩ := Path.exists_splitOn_join h hne
  refine ⟨above, ?_, fun l hl => ?_⟩
  · rw [startOf, Path.isAbsolute_join_of_notMem h hne, hpieces]
    rfl
  · have hsecond : (startOf working d).2 = splitOn '/' d := rfl
    obtain hsame | hblank := hbefore
    · rw [hsecond, hsame]
    · rw [hsecond, hblank, follow_concat_eq_ok]
      simp only [follow_blank]
      constructor
      · exact fun habove => ⟨l, habove, hl, rfl⟩
      · rintro ⟨l₁, habove, -, rfl⟩
        exact habove

/-- A name after a path leads into the directory that the path leads to. -/
theorem find_join_iff (hname : IsOrdinary name) (hne : d ≠ "") :
    t.find working (Path.join d name) = .ok (l', n) ↔
      ∃ l, t.find working d = .ok (l, .directory) ∧ l' = l ++ [name] ∧ t.node? l' = some n := by
  obtain ⟨above, hstart, hway⟩ := exists_startOf_join t working hname.2.2.2 hne
  rw [find_eq_ok, hstart, follow_concat_eq_ok]
  simp only [follow_name hname]
  constructor
  · rintro ⟨-, ⟨l, habove, hl, rfl, -⟩, hnode⟩
    exact ⟨l, find_eq_ok.2 ⟨hne, (hway l hl).1 habove, hl⟩, rfl, hnode⟩
  · rintro ⟨l, hfind, rfl, hnode⟩
    obtain ⟨-, hfollow, hl⟩ := find_eq_ok.1 hfind
    exact ⟨Path.join_ne_empty d hname, ⟨l, (hway l hl).2 hfollow, hl, rfl, by rw [hnode]; rfl⟩,
      hnode⟩

theorem find_join (h : t.find working d = .ok (l, .directory)) (hname : IsOrdinary name)
    (hn : t.node? (l ++ [name]) = some n) :
    t.find working (Path.join d name) = .ok (l ++ [name], n) :=
  (find_join_iff hname (find_eq_ok.1 h).1).2 ⟨l, h, rfl, hn⟩

end Names

/-! ## Directories by their names -/

/-- A directory is there with all above it, and a path can name each of them. -/
structure Grounded (t : FileTree) (directory : Location) : Prop where
  there : ∀ l, l <+: directory → t.node? l = some .directory
  ordinary : ∀ name ∈ directory, IsOrdinary name

theorem Keeps.grounded (h : Keeps t t') (hdirectory : Grounded t directory) :
    Grounded t' directory :=
  ⟨fun l hl => h.directory l (hdirectory.there l hl), hdirectory.ordinary⟩

theorem follow_names {names : List String} (hnames : ∀ name ∈ names, IsOrdinary name)
    (hthere : ∀ l', l' <+: l ++ names → t.node? l' = some .directory) :
    t.follow l names = .ok (l ++ names) := by
  induction names generalizing l with
  | nil => rw [List.append_nil, follow]
  | cons name names ih =>
    obtain ⟨hblank, hdot, hparent, -⟩ := hnames name (.head _)
    have hstep : l ++ [name] ++ names = l ++ name :: names := by simp
    have hnode := hthere (l ++ [name]) ⟨names, hstep⟩
    have hrest := ih (l := l ++ [name]) (fun other hmem => hnames other (.tail _ hmem))
      (by rwa [hstep])
    rw [hstep] at hrest
    exact follow_cons_eq_ok.2 ⟨hthere l (List.prefix_append l _),
      .inr (.inr ⟨⟨hblank, hdot, hparent⟩, by rw [hnode]; rfl, hrest⟩)⟩

section Grounded
variable (h : Grounded t directory)
include h

theorem Grounded.reached : t.Reached directory := fun l hl _ => h.there l hl

theorem Grounded.node? : t.node? directory = some .directory := h.there _ List.prefix_rfl

theorem Grounded.leadsTo_name (hname : IsOrdinary name) :
    LeadsTo t directory name (directory ++ [name]) := by
  have hstart : startOf directory name = (directory, [name]) := startOf_name hname.2.2.2
  obtain ⟨hblank, hdot, hparent, -⟩ := hname
  exact ⟨hblank, [], name, directory, by rw [hstart]; rfl, by rw [hstart]; rfl, h.node?,
    by simp [isDirectoryName, hblank, hdot, hparent], rfl⟩

/-- The path of a directory goes down to it from the root. -/
theorem Grounded.startOf_join_pathOf (hslash : '/' ∉ name.toList) (working : Location) :
    startOf working (Path.join (Config.pathOf directory) name) =
      ([], "" :: directory ++ [name]) := by
  have habsolute : Path.isAbsolute (Path.join (Config.pathOf directory) name) = true := by
    rw [Path.isAbsolute_join_of_notMem hslash (by simp [Config.pathOf]), Config.pathOf,
      Path.isAbsolute_append _ (by decide)]
    decide
  have hpieces : splitOn '/' (Path.join (Config.pathOf directory) name) =
      "" :: directory ++ [name] := by
    have hroot : Config.pathOf directory = "" ++ "/" ++ Text.join "/" directory := rfl
    have hname := Path.splitOn_of_notMem hslash
    unfold Path.join
    rw [Path.isAbsolute_of_notMem hslash, if_neg (by simp [Config.pathOf])]
    by_cases hnil : directory = []
    · subst hnil
      have hslashed : Config.pathOf [] ++ name = "" ++ "/" ++ name := rfl
      rw [if_pos (by decide), hslashed, Path.splitOn_slash, hname]
      rfl
    · have hbelow : splitOn '/' (Config.pathOf directory) = "" :: directory := by
        rw [hroot, Path.splitOn_slash,
          Path.splitOn_join (fun p hp => (h.ordinary p hp).2.2.2) hnil]
        rfl
      have hopen : ¬endsWith "/" (Config.pathOf directory) = true := by
        intro hends
        obtain ⟨start, hstart⟩ := Text.endsWith_iff.1 hends
        rw [hstart, ← String.append_empty (s := start ++ "/"), Path.splitOn_slash] at hbelow
        have hlast : ("" :: directory).getLast? = some "" := by
          rw [← hbelow]
          exact List.getLast?_concat
        rw [List.getLast?_cons_of_ne_nil hnil] at hlast
        exact (h.ordinary "" (List.mem_of_getLast? hlast)).1 rfl
      rw [if_neg hopen, Path.splitOn_slash, hbelow, hname]
  rw [startOf, habsolute, hpieces]
  rfl

theorem Grounded.leadsTo_pathOf (hname : IsOrdinary name) :
    LeadsTo t directory (Path.join (Config.pathOf directory) name) (directory ++ [name]) := by
  obtain ⟨hblank, hdot, hparent, hslash⟩ := hname
  have hstart := h.startOf_join_pathOf hslash directory
  have hdown : t.follow [] ("" :: directory) = .ok directory :=
    follow_cons_eq_ok.2 ⟨rfl, .inl ⟨.inl rfl, follow_names h.ordinary h.there⟩⟩
  refine ⟨fun hempty => ?_, "" :: directory, name, directory, by rw [hstart],
    by rw [hstart]; exact hdown, h.node?, by simp [isDirectoryName, hblank, hdot, hparent], rfl⟩
  rw [hempty] at hstart
  simp [startOf, splitOn, splitChars] at hstart

theorem Grounded.isFile_iff (hleads : LeadsTo t directory path l) :
    t.isFile directory path = true ↔ ∃ content, t.node? l = some (.file content) := by
  constructor
  · intro hfile
    unfold FileTree.isFile at hfile
    split at hfile
    · rename_i l' content hfind
      obtain ⟨hleads', hnode⟩ := leadsTo_of_find h.reached hfind
      exact ⟨content, hleads.unique hleads' ▸ hnode⟩
    · cases hfile
  · rintro ⟨content, hnode⟩
    rw [FileTree.isFile, hleads.find hnode]

end Grounded

end FileTree

end TypedRoutes
