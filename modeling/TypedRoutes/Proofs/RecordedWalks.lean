import TypedRoutes.Proofs.SkippedEntries

/-! # Walks that are recorded

A builder can keep a record of its inspections beside the state that extraction is in.  That changes
nothing about the tree, the notes and the state.
-/

namespace TypedRoutes.Route

/-- The inspection of a module, with what came of it. -/
structure Inspection where
  path : String
  segments : List String
  found : Except Fault (Option Endpoint)

variable {σ : Type}

/-- What has been gathered, without the record. -/
def Gathered.forget (g : Gathered (σ × List Inspection)) : Gathered σ where
  children := g.children
  endpoints := g.endpoints
  notes := g.notes
  state := g.state.1

namespace Builder

def recording (b : Builder σ) : Builder (σ × List Inspection) where
  extract path segments state :=
    let (found, after) := b.extract path segments state.1
    (found, (after, state.2 ++ [⟨path, segments, found⟩]))
  excludes := b.excludes

variable (b : Builder σ)

@[simp] theorem excludes_recording : b.recording.excludes = b.excludes := rfl

theorem forget_addEndpoint (path place : String) (e : Endpoint)
    (g : Gathered (σ × List Inspection)) :
    (addEndpoint path place e g).forget = addEndpoint path place e g.forget := by
  unfold addEndpoint
  split <;> simp_all [Gathered.forget, Gathered.note]

theorem forget_gatherModule (directory : String) (segments : List String) (name : String)
    (g : Gathered (σ × List Inspection)) :
    (b.recording.gatherModule directory segments name g).forget =
      b.gatherModule directory segments name g.forget := by
  rcases hx : b.extract (Path.join directory name) segments g.state.1 with ⟨found, after⟩
  have hstate : g.forget.state = g.state.1 := rfl
  simp only [gatherModule, recording, hstate, hx]
  rcases found with fault | _ | e
  · rfl
  · rfl
  · rw [forget_addEndpoint]
    rfl

mutual

theorem forget_gatherEntry (directory : String) (segments : List String)
    (g : Gathered (σ × List Inspection)) : ∀ e : Entry,
    (b.recording.gatherEntry directory segments g e).forget =
      b.gatherEntry directory segments g.forget e
  | .file name => by
    unfold gatherEntry
    rw [excludes_recording]
    split
    · rfl
    · split
      · exact b.forget_gatherModule directory segments name g
      · rfl
  | .directory name entries => by
    unfold gatherEntry
    rw [excludes_recording]
    split
    · rfl
    · have hinner := forget_gatherEntries (Path.join directory name) (segments ++ [name])
        { notes := g.notes, state := g.state } entries
      exact congrArg (fun inner : Gathered σ =>
        { g.forget with
          children := g.children ++ [Tree.node (some name) inner.children inner.endpoints]
          notes := inner.notes
          state := inner.state }) hinner

theorem forget_gatherEntries (directory : String) (segments : List String)
    (g : Gathered (σ × List Inspection)) : ∀ es : List Entry,
    (b.recording.gatherEntries directory segments g es).forget =
      b.gatherEntries directory segments g.forget es
  | [] => rfl
  | e :: es => by
    rw [gatherEntries, gatherEntries, forget_gatherEntries directory segments _ es,
      forget_gatherEntry directory segments g e]

end

theorem ofEntries_recording (directory : String) (segments : List String) (entries : List Entry)
    (state : σ) (log : List Inspection) :
    b.ofEntries directory segments entries state =
      let recorded := b.recording.ofEntries directory segments entries (state, log)
      (recorded.1, recorded.2.forget) := by
  have hforget := b.forget_gatherEntries directory segments { state := (state, log) } entries
  unfold ofEntries
  dsimp only
  exact congrArg (fun g : Gathered σ => (Tree.node segments.getLast? g.children g.endpoints, g))
    hforget.symm

theorem build_recording (files : FileTree) (working : Location) (root : String) (state : σ)
    (log : List Inspection) :
    b.build files working root state =
      let (built, notes, after) := b.recording.build files working root (state, log)
      (built, notes, after.1) := by
  unfold build
  split
  · dsimp only [buildFrom, List.foldl_nil]
    cases entriesBelow files working root with
    | error fault => rfl
    | ok entries =>
      dsimp only
      rw [b.ofEntries_recording root [] entries state log]
      rfl
  · rfl

end Builder

end TypedRoutes.Route
