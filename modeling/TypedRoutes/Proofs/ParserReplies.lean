import TypedRoutes.Proofs.TokenPositions
import TypedRoutes.Script.Parser

/-! # What parsers reply

A statement about a parser says what holds of each value that it gives from some cursor on, and of
where it stops then.  Such statements follow the parser step by step.  The steps that only look at
the token in front leave the cursor where it is, and any other is known not to go back.
-/

namespace TypedRoutes.Script.Parser

/-- Whatever the parser gives from the cursor on, and wherever it stops, has the property. -/
def Gives {α : Type} (p : Parser α) (c : Cursor) (P : α → Cursor → Prop) : Prop :=
  ∀ x a c', p.run x c = .ok a c' → P a c'

variable {α β : Type} {p : Parser α} {f : α → Parser β} {c : Cursor} {P : α → Cursor → Prop}
  {Q : β → Cursor → Prop}

theorem gives_pure {a : α} (h : P a c) : (pure a : Parser α).Gives c P := by
  rintro x a c' ⟨⟩
  exact h

theorem gives_fail : (fail : Parser α).Gives c P := by
  rintro x a c' ⟨⟩

theorem gives_bind (h : p.Gives c fun a c' => (f a).Gives c' Q) : (p >>= f).Gives c Q := by
  intro x b c'' hrun
  simp only [Bind.bind, Parser.bind] at hrun
  cases hfirst : p.run x c with
  | ok a c' =>
    rw [hfirst] at hrun
    exact h x a c' hfirst x b c'' hrun
  | fail c' =>
    rw [hfirst] at hrun
    cases hrun

theorem Gives.mono {P' : α → Cursor → Prop} (h : p.Gives c P) (himp : ∀ a c', P a c' → P' a c') :
    p.Gives c P' :=
  fun x a c' hrun => himp a c' (h x a c' hrun)

theorem Gives.and {P' : α → Cursor → Prop} (h : p.Gives c P) (h' : p.Gives c P') :
    p.Gives c fun a c' => P a c' ∧ P' a c' :=
  fun x a c' hrun => ⟨h x a c' hrun, h' x a c' hrun⟩

theorem gives_reaches (p : Parser α) (c : Cursor) : p.Gives c fun _ c' => c.Reaches c' := by
  intro x a c' hrun
  have hreaches := p.forward x c
  rwa [hrun] at hreaches

/-- In a text a parser goes on in the same text, and not before the place where it began. -/
theorem gives_forward (p : Parser α) {text : List Char} (hin : c.IsIn text) :
    p.Gives c fun _ c' => c'.IsIn text ∧ c.previousStop ≤ c'.previousStop :=
  (gives_reaches p c).mono fun _ _ hreaches => hreaches.forward hin

theorem gives_bind_forward {text : List Char} (hin : c.IsIn text)
    (h : ∀ a c', c'.IsIn text → c.previousStop ≤ c'.previousStop → (f a).Gives c' Q) :
    (p >>= f).Gives c Q :=
  gives_bind ((gives_forward p hin).mono fun a c' hc' => h a c' hc'.1 hc'.2)

theorem gives_within {change : Context → Context} (h : p.Gives c P) :
    (within change p).Gives c P :=
  fun x => h (change x)

theorem gives_ite {q : Parser α} {b : Prop} [Decidable b] (h : b → p.Gives c P)
    (h' : ¬ b → q.Gives c P) : (if b then p else q).Gives c P := by
  split
  · exact h ‹_›
  · exact h' ‹_›

theorem gives_attempt {P : Option α → Cursor → Prop} (h : p.Gives c fun a c' => P (some a) c')
    (hfail : P none c) : (attempt p).Gives c P := by
  intro x a c' hrun
  simp only [attempt] at hrun
  split at hrun
  · rename_i hfirst
    cases hrun
    exact h x _ _ hfirst
  · cases hrun
    exact hfail

theorem gives_unlessNone {p : Parser (Option α)} {P : Option α → Cursor → Prop}
    (h : p.Gives c fun a c' => a.isSome → P a c') (hnone : P none c) : p.unlessNone.Gives c P := by
  intro x a c' hrun
  simp only [unlessNone] at hrun
  split at hrun
  · rename_i hfirst
    cases hrun
    exact h x _ _ hfirst rfl
  · cases hrun
    exact hnone
  · cases hrun

theorem gives_lookahead {p : Parser Bool} {P : Bool → Cursor → Prop} (h : ∀ b, P b c) :
    (lookahead p).Gives c P := by
  intro x b c' hrun
  simp only [lookahead] at hrun
  split at hrun
  · cases hrun
    exact h _
  · cases hrun
    exact h _

/-! ## Repetition -/

theorem gives_repeatUpTo {p : Parser (Option α)} {text : List Char} {R : α → Prop}
    (h : ∀ c, c.IsIn text → p.Gives c fun a _ => ∀ b ∈ a, R b) (rounds : Nat)
    (hin : c.IsIn text) : (repeatUpTo p rounds).Gives c fun as _ => ∀ a ∈ as, R a := by
  induction rounds generalizing c with
  | zero => exact gives_fail
  | succ n ih =>
    apply gives_bind
    refine ((h c hin).and (gives_forward p hin)).mono fun a c' ⟨ha, hin', _⟩ => ?_
    cases a with
    | none => exact gives_pure (by simp)
    | some a =>
      apply gives_bind
      refine (ih hin').mono fun as c'' has => gives_pure ?_
      exact List.forall_mem_cons.2 ⟨ha a rfl, has⟩

theorem gives_many {p : Parser (Option α)} {text : List Char} {R : α → Prop}
    (h : ∀ c, c.IsIn text → p.Gives c fun a _ => ∀ b ∈ a, R b) (hin : c.IsIn text) :
    (many p).Gives c fun as _ => ∀ a ∈ as, R a :=
  gives_bind fun _ rounds _ hrun => by
    cases hrun
    exact gives_repeatUpTo h _ hin

/-! ## Looking at the token in front -/

section Looking

theorem gives_token {f : Token → Parser β} :
    (token >>= f).Gives c Q ↔ (f c.lexeme.token).Gives c Q := .rfl

theorem gives_peek {f : Lexeme → Parser β} :
    (peek >>= f).Gives c Q ↔ (f c.next.lexeme).Gives c Q := .rfl

theorem gives_position {f : Nat → Parser β} :
    (position >>= f).Gives c Q ↔ (f c.lexeme.start).Gives c Q := .rfl

theorem gives_previousStop {f : Nat → Parser β} :
    (previousStop >>= f).Gives c Q ↔ (f c.previousStop).Gives c Q := .rfl

theorem gives_newline {f : Bool → Parser β} :
    (newline >>= f).Gives c Q ↔ (f c.lexeme.newlineBefore).Gives c Q := .rfl

theorem gives_isWord {name : String} {f : Bool → Parser β} :
    (isWord name >>= f).Gives c Q ↔ (f (c.lexeme.token.isWord name)).Gives c Q := .rfl

theorem gives_isPunct {spelling : String} {f : Bool → Parser β} :
    (isPunct spelling >>= f).Gives c Q ↔ (f (c.lexeme.token.isPunct spelling)).Gives c Q := .rfl

theorem gives_advance {f : Unit → Parser β} :
    (advance >>= f).Gives c Q ↔ (f ()).Gives c.next Q := .rfl

theorem gives_typed {f : Bool → Parser β} (h : ∀ isTyped, (f isTyped).Gives c Q) :
    (typed >>= f).Gives c Q :=
  fun x => h x.dialect.typed x

theorem gives_eatIf {test : Token → Bool} {f : Bool → Parser β} :
    (eatIf test >>= f).Gives c Q ↔
      if test c.lexeme.token then (f true).Gives c.next Q else (f false).Gives c Q := by
  have hrun (x : Context) : (eatIf test >>= f).run x c =
      if test c.lexeme.token then (f true).run x c.next else (f false).run x c := by
    change ((if test c.lexeme.token then (do advance; return true) else pure false) >>= f).run x c =
      _
    cases test c.lexeme.token <;> rfl
  unfold Gives
  simp only [hrun]
  split <;> rfl

end Looking

end TypedRoutes.Script.Parser
