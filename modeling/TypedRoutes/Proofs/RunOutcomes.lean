import TypedRoutes.Generation
import Mathlib.Order.Defs.Unbundled

/-! # What comes of a run

What a run says has no part in what it does.  Apart from that a run is an action on files: all that
is needed is found out first, and only then are the documents written.
-/

namespace TypedRoutes
open TypedRoutes.Console TypedRoutes.Route

/-! ## Results of actions -/

namespace Action
variable {α β : Type}

def exec (a : Action α) (site : Site) (s : Session) : Except Fault α × Session :=
  ((a.run site).run).run s

theorem exec_bind (a : Action α) (f : α → Action β) (site : Site) (s : Session) :
    (a >>= f).exec site s = match a.exec site s with
      | (.ok x, s') => (f x).exec site s'
      | (.error e, s') => (.error e, s') := by
  change (match a.exec site s with
    | (r, s') => ExceptT.bindCont (fun x => (f x).run site) r s') = _
  obtain ⟨r, s'⟩ := a.exec site s
  cases r <;> rfl

theorem exec_bind_eq_ok {a : Action α} {f : α → Action β} {site : Site} {s s' : Session} {y : β}
    (h : (a >>= f).exec site s = (.ok y, s')) :
    ∃ x s₁, a.exec site s = (.ok x, s₁) ∧ (f x).exec site s₁ = (.ok y, s') := by
  rw [exec_bind] at h
  split at h
  · rename_i x s₁ hexec
    exact ⟨x, s₁, hexec, h⟩
  · cases h

theorem exec_tryCatch (a : Action α) (handle : Fault → Action α) (site : Site) (s : Session) :
    (tryCatch a handle).exec site s = match a.exec site s with
      | (.ok x, s') => (.ok x, s')
      | (.error e, s') => (handle e).exec site s' := by
  have hrun : (tryCatch a handle : Action α).run site =
      ExceptT.tryCatch (a.run site) fun e => (handle e).run site := rfl
  change (((tryCatch a handle : Action α).run site).run).run s = _
  rw [hrun, ExceptT.tryCatch, ExceptT.run_mk, StateT.run_bind]
  change Bind.bind (m := Id) (a.exec site s) _ = _
  obtain ⟨r, s'⟩ := a.exec site s
  cases r <;> rfl

theorem exec_inspect (f : FileTree → Location → Except Fault α) (site : Site) (s : Session) :
    (inspect f).exec site s = (f s.files site.directory, s) := by
  change (ofExcept (f s.files site.directory)).exec site s = _
  cases f s.files site.directory <;> rfl

theorem exec_change_eq_ok {f : FileTree → Location → Except Fault FileTree} {site : Site}
    {s s' : Session} {x : Unit} (h : (change f).exec site s = (.ok x, s')) :
    ∃ files, f s.files site.directory = .ok files ∧ s' = { s with files } := by
  obtain ⟨files, s₁, hinspect, hmodify⟩ := exec_bind_eq_ok h
  rw [exec_inspect] at hinspect
  obtain ⟨hfiles, rfl⟩ := Prod.mk.inj hinspect
  exact ⟨files, hfiles, (Prod.mk.inj hmodify).2.symm⟩

end Action

/-! ## Actions on files -/

/-- A part of a run as far as it is about files. -/
abbrev FileAction := ExceptT Fault (StateM FileTree)

namespace FileAction
variable {α β : Type}

def exec (m : FileAction α) (files : FileTree) : Except Fault α × FileTree :=
  (ExceptT.run m).run files

theorem exec_bind (m : FileAction α) (g : α → FileAction β) (files : FileTree) :
    (m >>= g).exec files = match m.exec files with
      | (.ok x, files') => (g x).exec files'
      | (.error e, files') => (.error e, files') := by
  change (match m.exec files with
    | (r, files') => ExceptT.bindCont g r files') = _
  obtain ⟨r, files'⟩ := m.exec files
  cases r <;> rfl

def alter (f : FileTree → Except Fault α × FileTree) : FileAction α := ExceptT.mk f

def look (f : FileTree → Except Fault α) : FileAction α := alter fun files => (f files, files)

theorem exec_alter (f : FileTree → Except Fault α × FileTree) (files : FileTree) :
    (alter f).exec files = f files := rfl

theorem exec_look (f : FileTree → Except Fault α) (files : FileTree) :
    (look f).exec files = (f files, files) := rfl

theorem exec_look_bind (f : FileTree → Except Fault α) (g : α → FileAction β) (files : FileTree) :
    (look f >>= g).exec files = match f files with
      | .ok x => (g x).exec files
      | .error e => (.error e, files) := by
  rw [exec_bind, exec_look]
  cases f files <;> rfl

theorem exec_bind_pure (m : FileAction α) (f : α → β) (files : FileTree) :
    (m >>= fun x => pure (f x)).exec files = ((m.exec files).1.map f, (m.exec files).2) := by
  rw [exec_bind]
  obtain ⟨r, files'⟩ := m.exec files
  cases r <;> rfl

/-- An action and another after it succeed only if both do. -/
theorem exec_bind_eq_ok {m : FileAction α} {g : α → FileAction β} {files files' : FileTree} {y : β}
    (h : (m >>= g).exec files = (.ok y, files')) :
    ∃ x files₁, m.exec files = (.ok x, files₁) ∧ (g x).exec files₁ = (.ok y, files') := by
  rw [exec_bind] at h
  split at h
  · rename_i x files₁ hexec
    exact ⟨x, files₁, hexec, h⟩
  · cases h

/-- Whatever an action does to files, it relates them to those it began with. -/
def Relates (R : FileTree → FileTree → Prop) (m : FileAction α) : Prop :=
  ∀ files, R files (m.exec files).2

section Relates
variable {R : FileTree → FileTree → Prop} [IsPreorder FileTree R]

theorem relates_pure (x : α) : Relates R (pure x : FileAction α) := fun files => refl_of R files

theorem relates_look (f : FileTree → Except Fault α) : Relates R (look f) :=
  fun files => refl_of R files

theorem Relates.bind {m : FileAction α} {g : α → FileAction β} (hm : Relates R m)
    (hg : ∀ x, Relates R (g x)) : Relates R (m >>= g) := by
  intro files
  have hm := hm files
  rw [exec_bind]
  split
  · rename_i x files' hexec
    rw [hexec] at hm
    exact trans_of R hm (hg x files')
  · rename_i hexec
    rw [hexec] at hm
    exact hm

end Relates

end FileAction

/-! ## The parts of a run -/

def Config.bundler (c : Config) (files : FileTree) (directory : Location) :
    Except Fault (Option Bundler) :=
  match c.bundle with
  | some bundle => do
    let manifest ← bundleManifest files directory
    return some { program := bundle.esbuild, outDir := bundle.outDir,
                  externals := (manifest.map (·.externals)).getD [] }
  | none => .ok none

/-- What a run has found out when it begins to write. -/
structure Prepared where
  tree : Tree
  documents : Documents
  bundler : Option Bundler

/-- All that a run does before it writes: nothing of it changes a file. -/
def Config.prepare (c : Config) (files : FileTree) (directory : Location) :
    Except Fault Prepared := do
  (c.validate files directory).mapError Fault.config
  let tree ← (c.buildTree files directory).1
  let documents ← c.renderDocuments tree files directory
  let bundler ← c.bundler files directory
  return { tree, documents, bundler }

theorem Config.prepare_of_validate {c : Config} {files : FileTree} {directory : Location}
    (h : c.validate files directory = .ok ()) :
    c.prepare files directory = (do
      let tree ← (c.buildTree files directory).1
      let documents ← c.renderDocuments tree files directory
      let bundler ← c.bundler files directory
      return { tree, documents, bundler }) := by
  rw [prepare, h]
  rfl

/-- Both documents are written, the client first, and bundled if that is asked for. -/
def emission (site : Site) (bundler : Option Bundler) (client router : String)
    (d : Destinations) : FileAction (List String) := do
  .alter (writeDocument · site.directory d.client client)
  .alter (writeDocument · site.directory d.router router)
  .look fun _ => match bundler with
    | some b => b.run site.programs (Bundler.targets d.client d.router)
    | none => .ok ()
  return [d.client, d.router]

/-- A whole run as far as it is about files. -/
def Config.generation (c : Config) (site : Site) : FileAction Summary := do
  let p ← .look (c.prepare · site.directory)
  let files ← emission site p.bundler p.documents.client p.documents.router
    ⟨c.clientPath, c.routerPath⟩
  return ⟨p.tree.endpointCount, files, p.bundler.isSome⟩

theorem Config.exec_generation {c : Config} {site : Site} {files : FileTree} :
    (c.generation site).exec files = match c.prepare files site.directory with
      | .error e => (.error e, files)
      | .ok p =>
        let emitted := (emission site p.bundler p.documents.client p.documents.router
          ⟨c.clientPath, c.routerPath⟩).exec files
        (emitted.1.map fun written => ⟨p.tree.endpointCount, written, p.bundler.isSome⟩,
          emitted.2) := by
  rw [generation, FileAction.exec_look_bind]
  cases c.prepare files site.directory with
  | error e => rfl
  | ok p => exact FileAction.exec_bind_pure _ _ files

/-- A run does nothing to files but what its two documents do. -/
theorem Config.relates_generation {c : Config} {site : Site} {R : FileTree → FileTree → Prop}
    [IsPreorder FileTree R] (h : ∀ path ∈ [c.clientPath, c.routerPath], ∀ text files,
      R files (writeDocument files site.directory path text).2) :
    (c.generation site).Relates R := by
  have hwrite {path : String} (hpath : path ∈ [c.clientPath, c.routerPath]) (text : String) :
      FileAction.Relates R (.alter (writeDocument · site.directory path text)) := h path hpath text
  refine (FileAction.relates_look _).bind fun p =>
    FileAction.Relates.bind ?_ fun files => FileAction.relates_pure _
  exact (hwrite (.head _) _).bind fun _ => (hwrite (.tail _ (.head _)) _).bind fun _ =>
    (FileAction.relates_look _).bind fun _ => FileAction.relates_pure _

/-! ## Actions without their words -/

namespace Action
variable {α β : Type} {site : Site}

/-- Whatever an action says, it does to the files what an action on files does, and has the same
result. -/
def Acts (site : Site) (a : Action α) (m : FileAction α) : Prop :=
  ∀ s, ((a.exec site s).1, (a.exec site s).2.files) = m.exec s.files

theorem acts_pure (x : α) : Acts site (pure x) (pure x) := fun _ => rfl

theorem acts_throw (e : Fault) : Acts site (throw e : Action α) (throw e) := fun _ => rfl

theorem acts_say (lines : List Line) : Acts site (say lines) (pure ()) := fun _ => rfl

theorem acts_read : Acts site (read : Action Site) (pure site) := fun _ => rfl

theorem acts_ofExcept (x : Except Fault α) : Acts site (ofExcept x) (.look fun _ => x) := by
  cases x <;> exact fun _ => rfl

theorem acts_inspect (f : FileTree → Location → Except Fault α) :
    Acts site (inspect f) (.look (f · site.directory)) := by
  intro s
  rw [exec_inspect]
  rfl

section
variable {a : Action α} {m : FileAction α}

theorem Acts.congr {m' : FileAction α} (h : Acts site a m)
    (hm : ∀ files, m.exec files = m'.exec files) : Acts site a m' :=
  fun s => (h s).trans (hm s.files)

theorem Acts.bind {f : α → Action β} {g : α → FileAction β} (ha : Acts site a m)
    (hf : ∀ x, Acts site (f x) (g x)) : Acts site (a >>= f) (m >>= g) := by
  intro s
  have ha := ha s
  rw [exec_bind, FileAction.exec_bind, ← ha]
  obtain ⟨r, s'⟩ := a.exec site s
  cases r with
  | ok x => exact hf x s'
  | error e => rfl

/-- A failure that is only talked about stays one. -/
theorem Acts.tryCatch {handle : Fault → Action α} (ha : Acts site a m)
    (hhandle : ∀ e, Acts site (handle e) (throw e)) : Acts site (tryCatch a handle) m := by
  intro s
  have ha := ha s
  rw [exec_tryCatch, ← ha]
  obtain ⟨r, s'⟩ := a.exec site s
  cases r with
  | ok x => rfl
  | error e => exact hhandle e s'

theorem Acts.step (ha : Acts site a m) (r : Reporter) (name : String)
    (outcome : α → Option String) :
    Acts site (step r name a outcome) (m >>= fun x => pure (x, (r.start name).1)) := by
  refine Acts.congr ((acts_say _).bind fun _ =>
    (ha.tryCatch fun e => (acts_say _).bind fun _ => acts_throw e).bind fun x =>
      (acts_say _).bind fun _ => acts_pure _) fun files => ?_
  rw [pure_bind]
  rfl

end

/-! ### Files before and after -/

/-- Whatever an action does to the files, it relates them to those it began with. -/
def Relates (site : Site) (R : FileTree → FileTree → Prop) (a : Action α) : Prop :=
  ∀ s, R s.files (a.exec site s).2.files

section Relates
variable {R : FileTree → FileTree → Prop} {a : Action α}

theorem Acts.relates {m : FileAction α} (h : Acts site a m) (hm : m.Relates R) :
    Relates site R a := by
  intro s
  have hfiles : (a.exec site s).2.files = (m.exec s.files).2 := congrArg Prod.snd (h s)
  rw [hfiles]
  exact hm s.files

variable [IsPreorder FileTree R]

theorem relates_pure (x : α) : Relates site R (pure x : Action α) := fun s => refl_of R s.files

theorem relates_say (lines : List Line) : Relates site R (say lines) :=
  fun s => refl_of R s.files

theorem Relates.bind {f : α → Action β} (ha : Relates site R a)
    (hf : ∀ x, Relates site R (f x)) : Relates site R (a >>= f) := by
  intro s
  have ha := ha s
  rw [exec_bind]
  split
  · rename_i x s' hexec
    rw [hexec] at ha
    exact trans_of R ha (hf x s')
  · rename_i e s' hexec
    rw [hexec] at ha
    exact ha

end Relates

/-! ### Generating -/

variable {logger : Logger} {c : Config}

/-- What is said of the handlers that were found. -/
def listHandlers (logger : Console.Logger) (c : Config) (tree : Route.Tree) :
    Action Route.Tree := do
  if tree.isEmpty then
    say (logger.log .warning ("No handlers found in " ++ c.entryDir ++
      ". A handler module default-exports a named async function."))
  say (tree.endpointsInOrder.flatMap fun e =>
    logger.log .verbose ("  - " ++ e.httpPath c.endpointPathPrefix ++ " (" ++ e.sourcePath ++ ")"))
  return tree

theorem exec_scanHandlers (s : Session) : (scanHandlers logger c).exec site s =
    (do say (Note.lines logger (c.buildTree s.files site.directory).2)
        listHandlers logger c (← ofExcept (c.buildTree s.files site.directory).1)
        : Action Route.Tree).exec site s :=
  exec_bind get _ site s

theorem acts_listHandlers (tree : Tree) : Acts site (listHandlers logger c tree) (pure tree) := by
  unfold listHandlers
  split
  · exact (acts_say _).bind fun _ => (acts_say _).bind fun _ => acts_pure tree
  · exact (acts_say _).bind fun _ => acts_pure tree

theorem acts_scanHandlers : Acts site (scanHandlers logger c)
    (.look fun files => (c.buildTree files site.directory).1) := by
  intro s
  have hrest : Acts site (do
      say (Note.lines logger (c.buildTree s.files site.directory).2)
      listHandlers logger c (← ofExcept (c.buildTree s.files site.directory).1)) _ :=
    (acts_say _).bind fun _ => (acts_ofExcept _).bind acts_listHandlers
  rw [exec_scanHandlers]
  refine (hrest s).trans ?_
  rw [pure_bind, bind_pure]
  rfl

theorem acts_configuredBundler :
    Acts site (configuredBundler logger c) (.look (c.bundler · site.directory)) := by
  unfold configuredBundler Config.bundler
  cases c.bundle with
  | none => exact acts_pure none
  | some bundle =>
    refine Acts.congr ((acts_inspect bundleManifest).bind (g := fun manifest =>
      pure (some { program := bundle.esbuild, outDir := bundle.outDir,
                   externals := (manifest.map (·.externals)).getD [] })) fun manifest => ?_)
      fun files => ?_
    · cases manifest with
      | none => exact acts_pure _
      | some manifest => exact (acts_say _).bind fun _ => acts_pure _
    · rw [FileAction.exec_bind, FileAction.exec_look, FileAction.exec_look]
      cases bundleManifest files site.directory <;> rfl

theorem exec_put (path text : String) (s : Session) : (put logger path text).exec site s =
    (do ofExcept (writeDocument s.files site.directory path text).1
        say (logger.log .verbose ("Wrote " ++ path)) : Action Unit).exec site
      { s with files := (writeDocument s.files site.directory path text).2 } :=
  exec_bind get _ site s

theorem acts_put (path text : String) : Acts site (put logger path text)
    (.alter (writeDocument · site.directory path text)) := by
  intro s
  have hrest : Acts site (do
      ofExcept (writeDocument s.files site.directory path text).1
      say (logger.log .verbose ("Wrote " ++ path))) _ :=
    (acts_ofExcept _).bind fun _ => acts_say _
  rw [exec_put]
  refine (hrest _).trans ?_
  rw [bind_pure]
  rfl

theorem acts_bundle (b : Bundler) (d : Destinations) : Acts site (bundle logger b d)
    (.look fun _ => b.run site.programs (Bundler.targets d.client d.router)) := by
  refine Acts.congr ((acts_say _).bind fun _ => acts_read.bind fun _ =>
    (acts_ofExcept _).bind fun _ => acts_say _) fun files => ?_
  rw [pure_bind, pure_bind, bind_pure]

theorem acts_emit (bundler : Option Bundler) (client router : String) (d : Destinations) :
    Acts site (emit logger bundler client router d) (emission site bundler client router d) := by
  refine (acts_put _ _).bind fun _ => (acts_put _ _).bind fun _ => ?_
  cases bundler with
  | none => exact acts_pure _
  | some b => exact (acts_bundle b d).bind fun _ => acts_pure _

theorem acts_generate (logger : Logger) (c : Config) :
    Acts site (generate logger c) (c.generation site) := by
  refine Acts.congr (((acts_inspect _).step _ _ _).bind fun _ =>
    (acts_scanHandlers.step _ _ _).bind fun found =>
      ((acts_inspect _).step _ _ _).bind fun rendered =>
        (Acts.step (acts_configuredBundler.bind fun bundler =>
          (acts_emit bundler rendered.1.client rendered.1.router _).bind fun files =>
            acts_pure (files, bundler.isSome)) _ _ _).bind fun _ =>
          (acts_say _).bind fun _ => acts_pure _) fun files => ?_
  simp only [Config.generation, bind_assoc, pure_bind, FileAction.exec_look_bind]
  cases hvalid : c.validate files site.directory with
  | error e =>
    rw [Config.prepare, hvalid]
    rfl
  | ok _ =>
    have husable : (Except.ok () : Except ConfigFault Unit).mapError Fault.config = .ok () := rfl
    rw [Config.prepare_of_validate hvalid, husable]
    dsimp only
    cases (c.buildTree files site.directory).1 with
    | error e => rfl
    | ok tree =>
      dsimp only [Bind.bind, Except.bind]
      cases c.renderDocuments tree files site.directory with
      | error e => rfl
      | ok documents =>
        dsimp only
        cases c.bundler files site.directory <;> rfl

end Action

end TypedRoutes
