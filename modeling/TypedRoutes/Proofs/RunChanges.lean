import TypedRoutes.Proofs.RunOutcomes
import TypedRoutes.Proofs.WrittenPlaces

/-! # What a run changes

A run that fails before it writes leaves the files as they were.  Whatever comes of it, a run that
does not bundle changes nothing but the client and the router, and makes no directory but above
them.
-/

namespace TypedRoutes

namespace FileTree

/-- How a location may be touched by a document at a path: the document is there, or a directory
above it was made there. -/
inductive Touched (directory : Location) (path : String) (t t' : FileTree) (l : Location) :
    Prop where
  | document {content : Content} (before : t.node? l ≠ some .directory)
      (after : t'.node? l = some (.file content)) (leads : t'.LeadsTo directory path l)
  | above {up : String} (before : t.node? l = none) (above : Path.Above up path)
      (leads : t'.find directory up = .ok (l, .directory))

/-- Where documents were written and directories made for them, nothing else differs. -/
theorem touched_of_ne {directory : Location} {paths : List String} {t t' : FileTree}
    (hwrote : Wrote directory paths t t')
    (hmade : Made directory {up | ∃ path ∈ paths, Path.Above up path} t t') {l : Location}
    (hne : t'.node? l ≠ t.node? l) : ∃ path ∈ paths, Touched directory path t t' l := by
  have hdocument {c : Content} (hbefore : t.node? l ≠ some .directory)
      (hafter : t'.node? l = some (.file c)) : ∃ path ∈ paths, Touched directory path t t' l := by
    obtain hsame | ⟨path, hpath, hleads⟩ := hwrote.file l c hafter
    · exact absurd (hafter.trans hsame.symm) hne
    · exact ⟨path, hpath, .document hbefore hafter hleads⟩
  cases ht : t.node? l with
  | none =>
    cases ht' : t'.node? l with
    | none => exact absurd (ht'.trans ht.symm) hne
    | some n =>
      cases n with
      | file c => exact hdocument (by simp [ht]) ht'
      | directory =>
        obtain hsame | ⟨up, ⟨path, hpath, habove⟩, hfind⟩ := hmade.directory l ht'
        · exact absurd (ht'.trans hsame.symm) hne
        · exact ⟨path, hpath, .above ht habove hfind⟩
  | some n =>
    cases n with
    | file c =>
      obtain ⟨c', ht'⟩ := hwrote.keeps.file l c ht
      exact hdocument (by simp [ht]) ht'
    | directory => exact absurd ((hwrote.keeps.directory l ht).trans ht.symm) hne

end FileTree

section Generation
variable {c : Config} {site : Site}

theorem Config.wrote_generation :
    (c.generation site).Relates (FileTree.Wrote site.directory [c.clientPath, c.routerPath]) := by
  refine relates_generation fun path hpath text files => ?_
  exact (wrote_writeDocument files site.directory path text).mono
    (List.cons_subset.2 ⟨hpath, List.nil_subset _⟩)

theorem Config.made_generation : (c.generation site).Relates (FileTree.Made site.directory
    {up | ∃ path ∈ [c.clientPath, c.routerPath], Path.Above up path}) := by
  refine relates_generation fun path hpath text files => ?_
  exact (made_writeDocument files site.directory path text).mono fun up hup => ⟨path, hpath, hup⟩

end Generation

namespace Action
variable {site : Site}

theorem relates_generateFrom (c : Config) :
    Relates site (FileTree.Wrote site.directory [c.clientPath, c.routerPath]) (generateFrom c) :=
  (acts_generate _ c).relates c.wrote_generation

/-- A run that fails before it writes leaves all as it was; otherwise its outcome is that of writing
the documents, whatever has been said.  Without a bundler nothing differs but what the documents
touch. -/
theorem generate_leaves_rest (logger : Console.Logger) (c : Config) (site : Site) (s : Session) :
    let done := (generate logger c).exec site s
    (∀ e, c.prepare s.files site.directory = .error e →
      done.1 = .error e ∧ done.2.files = s.files) ∧
    (∀ p, c.prepare s.files site.directory = .ok p → ∀ said,
      let emitted := (emit logger p.bundler p.documents.client p.documents.router
        ⟨c.clientPath, c.routerPath⟩).exec site ⟨s.files, said⟩
      done.1 = emitted.1.map (fun files => ⟨p.tree.endpointCount, files, p.bundler.isSome⟩) ∧
        done.2.files = emitted.2.files) ∧
    (c.bundle = none → ∀ l, done.2.files.node? l ≠ s.files.node? l →
      ∃ path ∈ [c.clientPath, c.routerPath],
        FileTree.Touched site.directory path s.files done.2.files l) := by
  intro done
  have hdone : (done.1, done.2.files) = (c.generation site).exec s.files :=
    acts_generate logger c s
  clear_value done
  refine ⟨?_, ?_, ?_⟩
  · intro e hprepare
    rw [Config.exec_generation, hprepare] at hdone
    exact Prod.mk.inj hdone
  · intro p hprepare said
    have hemit : Acts site (emit logger p.bundler p.documents.client p.documents.router
      ⟨c.clientPath, c.routerPath⟩) _ := acts_emit _ _ _ _
    have hemitted := hemit ⟨s.files, said⟩
    generalize (emit logger p.bundler p.documents.client p.documents.router
      ⟨c.clientPath, c.routerPath⟩).exec site ⟨s.files, said⟩ = emitted at hemitted ⊢
    rw [Config.exec_generation, hprepare] at hdone
    dsimp only at hdone hemitted
    rw [← hemitted] at hdone
    exact Prod.mk.inj hdone
  · intro _ l hne
    have hfiles : done.2.files = ((c.generation site).exec s.files).2 := congrArg Prod.snd hdone
    rw [hfiles] at hne ⊢
    exact FileTree.touched_of_ne (c.wrote_generation s.files) (c.made_generation s.files) hne

/-- Without a marker in the router's template the client of an earlier run stays; with it the run
replaces that client and makes the router's directory. -/
theorem missingMarker_leaves_rest :
    let site : Site := ⟨[], basicPrograms⟩
    let c : Config :=
      { entryDir := "api", clientOutDir := "out", clientName := "Rpc", routerPath := "srv/router.ts",
        clientTemplate := some "client.txt", serverTemplate := some "router.txt" }
    let session (routerTemplate : String) : Session := { files := ⟨[(["api"], .directory),
      (["out"], .directory), (["out", "Rpc.ts"], .file (.text "earlier")),
      (["client.txt"],
        .file (.text "/* \x7b\x7btypes\x7d\x7d */\n/* \x7b\x7bfunctions\x7d\x7d */\n")),
      (["router.txt"], .file (.text routerTemplate))]⟩ }
    let broken := session "router\n"
    let whole := session
      "/* \x7b\x7bimports\x7d\x7d */\n/* \x7b\x7broutes\x7d\x7d */\nrouter\n"
    let done := (generate {} c).exec site whole
    (((generate {} c).exec site broken).1 = .error (.missingMarker "server" "imports") ∧
      ((generate {} c).exec site broken).2.files = broken.files) ∧
    (∃ p, c.prepare whole.files site.directory = .ok p ∧ done.2.files =
      ((emit {} p.bundler p.documents.client p.documents.router
        ⟨c.clientPath, c.routerPath⟩).exec site ⟨whole.files, []⟩).2.files) ∧
    ∀ l ∈ [["out", "Rpc.ts"], ["srv"], ["srv", "router.ts"]],
      done.2.files.node? l ≠ whole.files.node? l ∧ ∃ path ∈ [c.clientPath, c.routerPath],
        FileTree.Touched site.directory path whole.files done.2.files l := by
  intro site c session broken whole done
  have hbroken : (c.prepare broken.files site.directory).map (·.documents) =
      .error (.missingMarker "server" "imports") := by decide +kernel
  have hwhole : ((c.prepare whole.files site.directory).map (·.tree.endpointCount)) = .ok 0 := by
    decide +kernel
  have hdiffer : ∀ l ∈ [["out", "Rpc.ts"], ["srv"], ["srv", "router.ts"]],
      done.2.files.node? l ≠ whole.files.node? l := by decide +kernel
  refine ⟨?_, ?_, fun l hl => ⟨hdiffer l hl,
    (generate_leaves_rest {} c site whole).2.2 rfl l (hdiffer l hl)⟩⟩
  · cases hprepare : c.prepare broken.files site.directory with
    | ok p =>
      rw [hprepare] at hbroken
      cases hbroken
    | error e =>
      rw [hprepare] at hbroken
      obtain rfl := Except.error.inj hbroken
      exact (generate_leaves_rest {} c site broken).1 _ hprepare
  · cases hprepare : c.prepare whole.files site.directory with
    | error e =>
      rw [hprepare] at hwhole
      cases hwhole
    | ok p =>
      obtain ⟨-, hfiles⟩ := (generate_leaves_rest {} c site whole).2.1 p hprepare []
      exact ⟨p, rfl, hfiles⟩

end Action

end TypedRoutes
