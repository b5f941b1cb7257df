import TypedRoutes.Bundle
import Mathlib.Data.List.Perm.Basic

/-! # Programs that run at the same time

Every run of events comes to a verdict, whichever way it goes, and that is the one on all programs
in the order in which they end.
-/

namespace TypedRoutes.Bundler

variable {b : Bundler} {s s' s'' : Stage} {event : Event} {events events' : List Event}

theorem Run.append (h : Run b s events s') (h' : Run b s' events' s'') :
    Run b s (events ++ events') s'' := by
  induction h with
  | none => exact h'
  | cons step _ ih => exact .cons step (ih h')

/-! ## Every run comes to a verdict -/

/-- How many events there can be still. -/
def Stage.remaining : Stage → Nat
  | waiting running ended => 2 * running.length + ended.length + 1
  | decided _ => 0

theorem Step.remaining_lt (h : Step b s event s') : s'.remaining < s.remaining := by
  cases h with
  | ends build =>
    simp only [Stage.remaining, List.length_append, List.length_cons, List.length_nil]
    omega
  | passes h =>
    simp only [Stage.remaining, List.length_cons]
    omega
  | stops h => exact Nat.succ_pos _
  | completes => exact Nat.succ_pos _

theorem Run.length_le (h : Run b s events s') : events.length + s'.remaining ≤ s.remaining := by
  induction h with
  | none => simp
  | cons step _ ih =>
    have hstep := step.remaining_lt
    rw [List.length_cons]
    omega

theorem exists_step (running ended : List Build) :
    ∃ event s', Step b (.waiting running ended) event s' := by
  cases ended with
  | cons build ended =>
    cases hfailure : b.failure? build.1 build.2 with
    | none => exact ⟨_, _, .passes hfailure⟩
    | some message => exact ⟨_, _, .stops hfailure⟩
  | nil =>
    cases running with
    | nil => exact ⟨_, _, .completes⟩
    | cons build running => exact ⟨_, _, @Step.ends b [] running [] build⟩

/-! ## Verdicts -/

theorem failure?_eq_none_iff (t : BuildTarget) (outcome : Outcome) :
    b.failure? t outcome = none ↔ outcome = .succeeded := by
  cases outcome <;> simp [failure?]

theorem verdict_cons_of_passes {build : Build} (h : b.failure? build.1 build.2 = none)
    (more : List Build) : b.verdict (build :: more) = b.verdict more := by
  simp [verdict, h]

theorem verdict_cons_of_stops {build : Build} {message : String}
    (h : b.failure? build.1 build.2 = some message) (more : List Build) :
    b.verdict (build :: more) = .error (.bundle message) := by
  simp [verdict, h]

theorem eq_of_run_decided {result : Except Fault Unit} (h : Run b (.decided result) events s') :
    events = [] ∧ s' = .decided result := by
  cases h with
  | none => exact ⟨rfl, rfl⟩
  | cons step _ => cases step

/-- The verdict of a run is that on the programs that were not looked at yet, in the order of their
ends; those that are stopped count as if they ended later. -/
theorem Run.result_eq {running ended rest : List Build} {result : Except Fault Unit}
    (h : Run b (.waiting running ended) events (.decided result))
    (hrest : (endings events ++ rest).Perm running) :
    result = b.verdict (ended ++ (endings events ++ rest)) := by
  generalize hfirst : Stage.waiting running ended = first at h
  generalize hlast : Stage.decided result = last at h
  induction h generalizing running ended with
  | none =>
    rw [← hfirst] at hlast
    cases hlast
  | cons step tail ih =>
    subst hfirst
    cases step with
    | @ends before after _ build =>
      have hothers := (hrest.trans List.perm_middle).cons_inv
      have hresult := ih hothers rfl hlast
      rwa [List.append_assoc] at hresult
    | passes hnone =>
      rw [List.cons_append, verdict_cons_of_passes hnone]
      exact ih hrest rfl hlast
    | stops hsome =>
      subst hlast
      obtain ⟨-, hresult⟩ := eq_of_run_decided tail
      rw [List.cons_append, verdict_cons_of_stops hsome]
      exact Stage.decided.inj hresult
    | completes =>
      subst hlast
      obtain ⟨rfl, hresult⟩ := eq_of_run_decided tail
      obtain rfl : rest = [] := List.perm_nil.1 hrest
      exact Stage.decided.inj hresult

theorem Run.endings_perm {running ended : List Build}
    (h : Run b (.waiting running ended) events (.decided (.ok ()))) :
    (endings events).Perm running := by
  generalize hfirst : Stage.waiting running ended = first at h
  generalize hlast : Stage.decided (.ok ()) = last at h
  induction h generalizing running ended with
  | none =>
    rw [← hfirst] at hlast
    cases hlast
  | cons step tail ih =>
    subst hfirst
    cases step with
    | ends build => exact ((ih rfl hlast).cons build).trans List.perm_middle.symm
    | passes hnone => exact ih rfl hlast
    | stops hsome =>
      subst hlast
      cases (eq_of_run_decided tail).2
    | completes =>
      subst hlast
      obtain ⟨rfl, -⟩ := eq_of_run_decided tail
      exact .nil

/-! ## Every order is possible -/

theorem run_ends {order running : List Build} (h : order.Perm running) (ended : List Build) :
    Run b (.waiting running ended) (order.map .ends) (.waiting [] (ended ++ order)) := by
  induction order generalizing running ended with
  | nil =>
    obtain rfl := List.nil_perm.1 h
    rw [List.append_nil]
    exact .none
  | cons build order ih =>
    obtain ⟨before, after, rfl⟩ := List.append_of_mem (h.subset (.head _))
    have hothers := (h.trans List.perm_middle).cons_inv
    have hrest := ih hothers (ended ++ [build])
    rw [List.append_assoc] at hrest
    exact .cons (.ends build) hrest

theorem exists_run_looks (ended : List Build) :
    ∃ events, endings events = [] ∧
      Run b (.waiting [] ended) events (.decided (b.verdict ended)) := by
  induction ended with
  | nil => exact ⟨[.looks], rfl, .cons .completes .none⟩
  | cons build ended ih =>
    cases hfailure : b.failure? build.1 build.2 with
    | none =>
      obtain ⟨events, hendings, hrun⟩ := ih
      rw [verdict_cons_of_passes hfailure]
      exact ⟨.looks :: events, hendings, .cons (.passes hfailure) hrun⟩
    | some message =>
      rw [verdict_cons_of_stops hfailure]
      exact ⟨[.looks], rfl, .cons (.stops hfailure) .none⟩

theorem endings_append (events events' : List Event) :
    endings (events ++ events') = endings events ++ endings events' := by
  induction events with
  | nil => rfl
  | cons event events ih => cases event <;> simp [endings, ih]

theorem endings_ends (order : List Build) : endings (order.map .ends) = order := by
  induction order with
  | nil => rfl
  | cons build order ih => simp [endings, ih]

/-- Programs can end in any order, and then there is the verdict on them in that order. -/
theorem exists_run {order builds : List Build} (h : order.Perm builds) :
    ∃ events, endings events = order ∧
      Run b (.waiting builds []) events (.decided (b.verdict order)) := by
  obtain ⟨events, hendings, hlooks⟩ := exists_run_looks (b := b) order
  refine ⟨order.map .ends ++ events, ?_, (run_ends h []).append hlooks⟩
  rw [endings_append, endings_ends, hendings, List.append_nil]

/-! ## The first failure -/

def FailsFirst (b : Bundler) (order : List Build) (message : String) : Prop :=
  ∃ before build after, order = before ++ build :: after ∧
    (∀ earlier ∈ before, earlier.2 = .succeeded) ∧ b.failure? build.1 build.2 = some message

theorem verdict_cases (order : List Build) :
    (b.verdict order = .ok () ∧ ∀ build ∈ order, build.2 = .succeeded) ∨
      ∃ message, b.verdict order = .error (.bundle message) ∧ FailsFirst b order message := by
  induction order with
  | nil => exact .inl ⟨rfl, by simp⟩
  | cons build order ih =>
    cases hfailure : b.failure? build.1 build.2 with
    | none =>
      have hsucceeded := (failure?_eq_none_iff build.1 build.2).1 hfailure
      rw [verdict_cons_of_passes hfailure]
      refine ih.imp (And.imp_right fun h => List.forall_mem_cons.2 ⟨hsucceeded, h⟩) ?_
      rintro ⟨message, hverdict, before, failing, after, rfl, hbefore, hmessage⟩
      exact ⟨message, hverdict, build :: before, failing, after, rfl,
        List.forall_mem_cons.2 ⟨hsucceeded, hbefore⟩, hmessage⟩
    | some message =>
      exact .inr ⟨message, verdict_cons_of_stops hfailure order, [], build, order, rfl, by simp,
        hfailure⟩

/-- Events come to an end, and only with a verdict; making all targets is one way that they can go.
Whatever the order in which the programs would end, the verdict is that all succeeded if they do,
after all have ended, and else the message of the one that fails first in that order. -/
theorem first_failure_decides (b : Bundler) (builds : List Build) :
    (∀ events stage, Run b (.waiting builds []) events stage →
      events.length ≤ 2 * builds.length + 1 ∧
        ((∃ result, stage = .decided result) ∨ ∃ event stage', Step b stage event stage')) ∧
    (∀ programs all, builds = all.map (fun t => (t, programs b.program (b.arguments t))) →
      ∃ events, Run b (.waiting builds []) events (.decided (b.run programs all))) ∧
    ∀ order, order.Perm builds →
      (∃ events result, Run b (.waiting builds []) events (.decided result) ∧
        endings events <+: order) ∧
      ∀ events result, Run b (.waiting builds []) events (.decided result) →
        endings events <+: order →
        result = b.verdict order ∧
        (result = .ok () ↔ ∀ build ∈ builds, build.2 = .succeeded) ∧
        (result = .ok () → endings events = order) ∧
        (result ≠ .ok () →
          ∃ message, result = .error (.bundle message) ∧ FailsFirst b order message) := by
  refine ⟨fun events stage h => ⟨?_, ?_⟩, ?_, fun order horder => ⟨?_, ?_⟩⟩
  · exact Nat.le_trans (Nat.le_add_right _ _) h.length_le
  · cases stage with
    | waiting running ended => exact .inr (exists_step running ended)
    | decided result => exact .inl ⟨result, rfl⟩
  · rintro programs all rfl
    obtain ⟨events, -, hrun⟩ := exists_run (b := b) (List.Perm.refl _)
    exact ⟨events, hrun⟩
  · obtain ⟨events, hendings, hrun⟩ := exists_run (b := b) horder
    exact ⟨events, _, hrun, hendings ▸ List.prefix_rfl⟩
  · rintro events result hrun ⟨rest, rfl⟩
    obtain rfl : result = b.verdict (endings events ++ rest) := hrun.result_eq horder
    refine ⟨rfl, ?_⟩
    obtain ⟨hverdict, hall⟩ | ⟨message, hverdict, hfirst⟩ :=
      verdict_cases (b := b) (endings events ++ rest)
    · rw [hverdict] at hrun ⊢
      refine ⟨iff_of_true rfl fun build hbuild => hall build (horder.symm.subset hbuild),
        fun _ => ?_, fun hne => absurd rfl hne⟩
      have hlength := (hrun.endings_perm.trans horder.symm).length_eq
      rw [List.length_append, Nat.left_eq_add] at hlength
      rw [List.eq_nil_of_length_eq_zero hlength, List.append_nil]
    · rw [hverdict]
      refine ⟨iff_of_false nofun fun hall => ?_, nofun, fun _ => ⟨message, rfl, hfirst⟩⟩
      obtain ⟨before, build, after, horder', -, hmessage⟩ := hfirst
      have hbuild : build ∈ builds := horder.subset (by rw [horder']; simp)
      rw [(failure?_eq_none_iff build.1 build.2).2 (hall build hbuild)] at hmessage
      cases hmessage

/-- Of two failures the one that comes first is told, and the program that still runs is stopped. -/
theorem first_of_two_failures :
    let b : Bundler := { program := "esbuild", outDir := "dist" }
    let slow : Build := (⟨"a.ts", .browser, .esm⟩, .failed " no such module\n")
    let good : Build := (⟨"b.ts", .node, .esm⟩, .succeeded)
    let absent : Build := (⟨"b.ts", .node, .cjs⟩, .notStarted "not found")
    let events : List Event := [.ends good, .ends absent, .looks, .looks]
    let result : Except Fault Unit :=
      .error (.bundle "failed to run esbuild for b.ts (node, cjs): not found")
    [good, absent, slow].Perm [slow, good, absent] ∧
      Run b (.waiting [slow, good, absent] []) events (.decided result) ∧
      endings events <+: [good, absent, slow] ∧
      ∃ message, result = .error (.bundle message) ∧ FailsFirst b [good, absent, slow] message := by
  intro b slow good absent events result
  have hperm : [good, absent, slow].Perm [slow, good, absent] := by decide
  have hrun : Run b (.waiting [slow, good, absent] []) events (.decided result) :=
    .cons (@Step.ends b [slow] [absent] [] good) <| .cons (@Step.ends b [slow] [] [good] absent) <|
      .cons (.passes rfl) <| .cons (.stops rfl) .none
  have hprefix : endings events <+: [good, absent, slow] := ⟨[slow], rfl⟩
  obtain ⟨-, -, horders⟩ := first_failure_decides b [slow, good, absent]
  obtain ⟨-, -, -, hfirst⟩ := (horders _ hperm).2 events result hrun hprefix
  exact ⟨hperm, hrun, hprefix, hfirst nofun⟩

end TypedRoutes.Bundler
