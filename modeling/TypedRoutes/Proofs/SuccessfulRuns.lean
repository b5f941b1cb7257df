import TypedRoutes.Proofs.RunOutcomes

/-! # Runs that succeed

A run succeeds when each of its parts does, and what was said before has no part in it: it gives a
result, and turns the files that were there into others.
-/

namespace TypedRoutes
open TypedRoutes.Console TypedRoutes.Route

/-! ## The parts of a run that succeeds -/

section Parts
variable {c : Config} {site : Site} {files files' files'' : FileTree}

theorem Config.prepare_eq_ok_iff (hbundle : c.bundle = none) {p : Prepared} :
    c.prepare files site.directory = .ok p ↔
      c.validate files site.directory = .ok () ∧
        (c.buildTree files site.directory).1 = .ok p.tree ∧
          c.renderDocuments p.tree files site.directory = .ok p.documents ∧ p.bundler = none := by
  cases hvalid : c.validate files site.directory with
  | error e =>
    rw [prepare, hvalid]
    constructor
    · intro h
      cases h
    · rintro ⟨h, -⟩
      cases h
  | ok _ =>
    obtain ⟨tree, documents, bundler⟩ := p
    rw [prepare_of_validate hvalid, Config.bundler, hbundle]
    cases (c.buildTree files site.directory).1 with
    | error e => simp [Bind.bind, Except.bind]
    | ok tree' =>
      simp only [Bind.bind, Except.bind]
      cases hrender : c.renderDocuments tree' files site.directory with
      | error e =>
        simp only [reduceCtorEq, true_and, Except.ok.injEq, false_iff, not_and]
        rintro rfl hok
        simp [hrender] at hok
      | ok documents' =>
        simp only [Pure.pure, Except.pure, Except.ok.injEq, Prepared.mk.injEq, true_and]
        constructor
        · rintro ⟨rfl, rfl, rfl⟩
          exact ⟨rfl, hrender, rfl⟩
        · rintro ⟨rfl, hok, rfl⟩
          exact ⟨rfl, Except.ok.inj (hrender.symm.trans hok), rfl⟩

theorem exec_emission_eq_ok_iff {client router : String} {d : Destinations}
    {written : List String} :
    (emission site none client router d).exec files = (.ok written, files'') ↔
      ∃ files', writeDocument files site.directory d.client client = (.ok (), files') ∧
        writeDocument files' site.directory d.router router = (.ok (), files'') ∧
          written = [d.client, d.router] := by
  constructor
  · intro h
    obtain ⟨_, files', hclient, h⟩ := FileAction.exec_bind_eq_ok h
    obtain ⟨_, _, hrouter, h⟩ := FileAction.exec_bind_eq_ok h
    cases h
    exact ⟨files', hclient, hrouter, rfl⟩
  · rintro ⟨files', hclient, hrouter, rfl⟩
    rw [emission, FileAction.exec_bind, FileAction.exec_alter, hclient]
    dsimp only
    rw [FileAction.exec_bind, FileAction.exec_alter, hrouter]
    rfl

/-- A run without a bundler succeeds if its settings can be used, the handlers are found, and both
documents are rendered and can be written, the router after the client. -/
theorem Config.exec_generation_eq_ok_iff (hbundle : c.bundle = none) {summary : Summary} :
    (c.generation site).exec files = (.ok summary, files'') ↔ ∃ tree documents files',
      c.validate files site.directory = .ok () ∧
        (c.buildTree files site.directory).1 = .ok tree ∧
        c.renderDocuments tree files site.directory = .ok documents ∧
        writeDocument files site.directory c.clientPath documents.client = (.ok (), files') ∧
        writeDocument files' site.directory c.routerPath documents.router = (.ok (), files'') ∧
        summary = ⟨tree.endpointCount, [c.clientPath, c.routerPath], false⟩ := by
  constructor
  · intro h
    obtain ⟨p, files₁, hlook, h⟩ := FileAction.exec_bind_eq_ok h
    obtain ⟨hprepare, rfl⟩ := Prod.mk.inj hlook
    obtain ⟨hvalid, htree, hrender, hbundler⟩ := (prepare_eq_ok_iff hbundle).1 hprepare
    obtain ⟨written, files₂, hemission, h⟩ := FileAction.exec_bind_eq_ok h
    rw [hbundler] at hemission h
    obtain ⟨files', hclient, hrouter, rfl⟩ := exec_emission_eq_ok_iff.1 hemission
    obtain ⟨hsummary, rfl⟩ := Prod.mk.inj h
    exact ⟨p.tree, p.documents, files', hvalid, htree, hrender, hclient, hrouter,
      (Except.ok.inj hsummary).symm⟩
  · rintro ⟨tree, documents, files', hvalid, htree, hrender, hclient, hrouter, rfl⟩
    have hprepare := (prepare_eq_ok_iff (c := c) hbundle (p := ⟨tree, documents, none⟩)).2
      ⟨hvalid, htree, hrender, rfl⟩
    have hemission : (emission site none documents.client documents.router
        ⟨c.clientPath, c.routerPath⟩).exec files = (.ok [c.clientPath, c.routerPath], files'') :=
      exec_emission_eq_ok_iff.2 ⟨files', hclient, hrouter, rfl⟩
    rw [Config.generation, FileAction.exec_look_bind, hprepare]
    dsimp only
    rw [FileAction.exec_bind, hemission]
    rfl

end Parts

/-! ## Runs whatever has been said -/

namespace Action
variable {α β : Type} {site : Site} {files files' files'' : FileTree}

/-- An action gives a result and leaves files, whatever has been said before. -/
def Gives (site : Site) (a : Action α) (files : FileTree) (x : α) (files' : FileTree) : Prop :=
  ∀ said, ∃ said', a.exec site ⟨files, said⟩ = (.ok x, ⟨files', said'⟩)

theorem gives_pure (x : α) : Gives site (pure x) files x files := fun said => ⟨said, rfl⟩

theorem gives_say (lines : List Line) : Gives site (say lines) files () files :=
  fun said => ⟨said ++ lines, rfl⟩

theorem Gives.bind {a : Action α} {f : α → Action β} {x : α} {y : β}
    (ha : Gives site a files x files') (hf : Gives site (f x) files' y files'') :
    Gives site (a >>= f) files y files'' := by
  intro said
  obtain ⟨said₁, ha⟩ := ha said
  obtain ⟨said₂, hf⟩ := hf said₁
  exact ⟨said₂, by rw [exec_bind, ha, ← hf]⟩

theorem Acts.gives {a : Action α} {m : FileAction α} {x : α} (h : Acts site a m)
    (hm : m.exec files = (.ok x, files')) : Gives site a files x files' := by
  intro said
  have hexec := (h ⟨files, said⟩).trans hm
  obtain ⟨hx, rfl⟩ := Prod.mk.inj hexec
  exact ⟨_, Prod.ext hx rfl⟩

theorem gives_generateFrom {c : Config} {tree : Tree} {documents : Documents}
    (hbundle : c.bundle = none) (hvalid : c.validate files site.directory = .ok ())
    (htree : (c.buildTree files site.directory).1 = .ok tree)
    (hrender : c.renderDocuments tree files site.directory = .ok documents)
    (hclient : writeDocument files site.directory c.clientPath documents.client = (.ok (), files'))
    (hrouter : writeDocument files' site.directory c.routerPath documents.router =
      (.ok (), files'')) :
    Gives site (generateFrom c) files ⟨tree.endpointCount, [c.clientPath, c.routerPath], false⟩
      files'' :=
  (acts_generate _ c).gives <| (Config.exec_generation_eq_ok_iff hbundle).2
    ⟨tree, documents, files', hvalid, htree, hrender, hclient, hrouter, rfl⟩

end Action

end TypedRoutes
