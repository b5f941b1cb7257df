import TypedRoutes.Proofs.FragmentTokens
import TypedRoutes.Proofs.TokenPositions

/-! # Blanks and comments

What stands between two tokens, as a grammar: blanks, ends of lines, comments up to the end of a
line or of the comment, and the two signs that hide a script from a page.  The lexer passes exactly
this before a token.
-/

namespace TypedRoutes.Script
open TypedRoutes.Text

/-- A text passed from a state on before a token; `broken` says whether a line has ended since the
token before. -/
inductive Trivia : TriviaState → Bool → List Char → Prop
  | nil {broken : Bool} : Trivia .blank broken []
  | lineComment {broken : Bool} {cs : List Char} (h : Trivia .line broken cs) :
      Trivia .blank broken ('/' :: '/' :: cs)
  | blockComment {broken : Bool} {cs : List Char} (h : Trivia .block broken cs) :
      Trivia .blank broken ('/' :: '*' :: cs)
  | pageComment {broken : Bool} {cs : List Char} (h : Trivia .line broken cs) :
      Trivia .blank broken ('<' :: '!' :: '-' :: '-' :: cs)
  | pageCommentEnd {cs : List Char} (h : Trivia .line true cs) :
      Trivia .blank true ('-' :: '-' :: '>' :: cs)
  | lineBreak {broken : Bool} {c : Char} {cs : List Char} (hc : isLineBreak c = true)
      (h : Trivia .blank true cs) : Trivia .blank broken (c :: cs)
  | blank {broken : Bool} {c : Char} {cs : List Char} (hbreak : isLineBreak c = false)
      (hc : isBlank c = true) (h : Trivia .blank broken cs) : Trivia .blank broken (c :: cs)
  | lineEnd {broken : Bool} {c : Char} {cs : List Char} (hc : isLineBreak c = true)
      (h : Trivia .blank true cs) : Trivia .line broken (c :: cs)
  | inLine {broken : Bool} {c : Char} {cs : List Char} (hc : isLineBreak c = false)
      (h : Trivia .line broken cs) : Trivia .line broken (c :: cs)
  | blockEnd {broken : Bool} {cs : List Char} (h : Trivia .blank broken cs) :
      Trivia .block broken ('*' :: '/' :: cs)
  | inBlock {broken : Bool} {c : Char} {cs : List Char} (hc : c = '*' → cs.head? ≠ some '/')
      (h : Trivia .block (broken || isLineBreak c) cs) : Trivia .block broken (c :: cs)

theorem not_comment_of_blank {c : Char} (h : isLineBreak c = true ∨ isBlank c = true) :
    c ∉ ['/', '<', '-'] := by
  intro hmem
  simp only [List.mem_cons, List.not_mem_nil, or_false] at hmem
  rcases hmem with rfl | rfl | rfl <;> exact absurd h (by decide)

theorem skipTrivia_blank {c : Char} (h : isLineBreak c = true ∨ isBlank c = true) (n : Nat)
    (broken : Bool) (cs : List Char) :
    skipTrivia .blank n broken (c :: cs) =
      skipTrivia .blank (n + 1) (broken || isLineBreak c) cs := by
  have hcomment := not_comment_of_blank h
  simp only [List.mem_cons, List.not_mem_nil, or_false, not_or] at hcomment
  rw [skipTrivia]
  · by_cases hbreak : isLineBreak c = true
    · rw [if_pos hbreak, hbreak, Bool.or_true]
    · rw [if_neg hbreak, if_pos (h.resolve_left hbreak), eq_false_of_ne_true hbreak,
        Bool.or_false]
  all_goals simp [hcomment]

theorem skipTrivia_inBlock {c : Char} {cs : List Char} (hc : c = '*' → cs.head? ≠ some '/')
    (n : Nat) (broken : Bool) : skipTrivia .block n broken (c :: cs) =
      skipTrivia .block (n + 1) (broken || isLineBreak c) cs := by
  rw [skipTrivia]
  rintro ds rfl rfl
  exact hc rfl rfl

theorem Trivia.passed {state : TriviaState} {broken : Bool} {gap : List Char}
    (h : Trivia state broken gap) {c : Char} (hc : OpensToken c) (cs : List Char) (n : Nat) :
    (skipTrivia state n broken (gap ++ c :: cs)).2.2 = c :: cs := by
  induction h generalizing n with
  | nil => rw [List.nil_append, skipTrivia_opensToken hc]
  | lineComment _ ih | blockComment _ ih | pageComment _ ih | pageCommentEnd _ ih
    | blockEnd _ ih =>
    simp only [List.cons_append]
    rw [skipTrivia]
    exact ih _
  | lineBreak hbreak _ ih =>
    rw [List.cons_append, skipTrivia_blank (.inl hbreak), hbreak, Bool.or_true]
    exact ih _
  | blank hbreak hblank _ ih =>
    rw [List.cons_append, skipTrivia_blank (.inr hblank), hbreak, Bool.or_false]
    exact ih _
  | lineEnd hbreak _ ih =>
    rw [List.cons_append, skipTrivia, if_pos hbreak]
    exact ih _
  | inLine hbreak _ ih =>
    rw [List.cons_append, skipTrivia, if_neg (by simp [hbreak])]
    exact ih _
  | @inBlock _ d ds hend _ ih =>
    rw [List.cons_append, skipTrivia_inBlock]
    · exact ih _
    · intro hstar
      cases ds with
      | nil => simpa using fun h : c = '/' => hc.2.2 (by simp [h])
      | cons e es => exact hend hstar

/-- What is passed first stands before what is passed from the state it leads to. -/
theorem trivia_after (passed : List Char) {n m : Nat} {state state' : TriviaState}
    {broken broken' : Bool} {text rest : List Char}
    (hrest : ∃ gap, text = gap ++ rest ∧ m = n + passed.length + gap.length ∧
      Trivia state' broken' gap)
    (htrivia : ∀ {gap}, Trivia state' broken' gap → Trivia state broken (passed ++ gap)) :
    ∃ gap, passed ++ text = gap ++ rest ∧ m = n + gap.length ∧ Trivia state broken gap := by
  obtain ⟨gap, rfl, rfl, hgap⟩ := hrest
  exact ⟨passed ++ gap, by rw [List.append_assoc], by rw [List.length_append, Nat.add_assoc],
    htrivia hgap⟩

/-- What the lexer passes before a token is trivia. -/
theorem trivia_of_skipTrivia {state : TriviaState} {n m : Nat} {broken b : Bool}
    {text cs : List Char} {c : Char}
    (h : skipTrivia state n broken text = (m, b, c :: cs)) :
    ∃ gap, text = gap ++ c :: cs ∧ m = n + gap.length ∧ Trivia state broken gap := by
  fun_induction skipTrivia state n broken text with
  | case1 => cases h
  | case2 _ _ _ ih => exact trivia_after ['/', '/'] (ih h) .lineComment
  | case3 _ _ _ ih => exact trivia_after ['/', '*'] (ih h) .blockComment
  | case4 _ _ _ ih => exact trivia_after ['<', '!', '-', '-'] (ih h) .pageComment
  | case5 _ _ ih => exact trivia_after ['-', '-', '>'] (ih h) .pageCommentEnd
  | case6 _ _ c' _ _ _ _ _ hbreak ih => exact trivia_after [c'] (ih h) (.lineBreak hbreak)
  | case7 _ _ c' _ _ _ _ _ hbreak hblank ih =>
    exact trivia_after [c'] (ih h) (.blank (eq_false_of_ne_true hbreak) hblank)
  | case8 =>
    cases h
    exact ⟨[], rfl, rfl, .nil⟩
  | case9 _ _ c' _ hbreak ih => exact trivia_after [c'] (ih h) (.lineEnd hbreak)
  | case10 _ _ c' _ hbreak ih => exact trivia_after [c'] (ih h) (.inLine (eq_false_of_ne_true hbreak))
  | case11 _ _ _ ih => exact trivia_after ['*', '/'] (ih h) .blockEnd
  | case12 _ _ c' _ hend ih =>
    obtain ⟨gap, rfl, rfl, hgap⟩ := ih h
    refine ⟨c' :: gap, rfl, by rw [List.length_cons]; omega, .inBlock (fun hstar hslash => ?_) hgap⟩
    obtain ⟨rest, rfl⟩ := List.head?_eq_some_iff.1 hslash
    exact hend _ hstar rfl

end TypedRoutes.Script
