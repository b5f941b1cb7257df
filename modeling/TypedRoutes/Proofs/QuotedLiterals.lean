import TypedRoutes.Template.Literal
import Mathlib.Data.List.Basic

/-! # Reading quoted literals

A literal is read from after its opening quote.  The longer escapes, by code point or over the end
of a line, are not read, so whatever is read is what the literal stands for.
-/

namespace TypedRoutes.Template
open TypedRoutes.Text

def escapedChar? : Char → Option Char
  | 'n' => some '\n'
  | 'r' => some '\r'
  | 't' => some '\t'
  | 'b' => some '\x08'
  | 'v' => some '\x0b'
  | 'f' => some '\x0c'
  | 'x' | 'u' | '\n' | '\r' | '\u2028' | '\u2029' => none
  | c => if c.isDigit then none else some c

/-- The text of a literal up to its closing quote, and what follows the quote. -/
def readLiteral (quote : Char) : List Char → Option (List Char × List Char)
  | [] => none
  | '\\' :: c :: cs => do
    let d ← escapedChar? c
    let (text, rest) ← readLiteral quote cs
    return (d :: text, rest)
  | c :: cs =>
    if c = quote then some ([], cs)
    else if c = '\\' || c = '\n' || c = '\r' then none
    else (readLiteral quote cs).map fun (text, rest) => (c :: text, rest)

def splitLastQuote (previous : Option Char) : List Char → Option (List Char × List Char)
  | [] => none
  | c :: cs =>
    match splitLastQuote (some c) cs with
    | some (before, inside) => some (c :: before, inside)
    | none => if c = '\'' && previous != some '\\' then some ([], cs) else none

theorem escapeLiteralChar_cases (c : Char) :
    (∃ d, escapeLiteralChar c = ['\\', d] ∧ escapedChar? d = some c) ∨
      escapeLiteralChar c = [c] ∧ c ≠ '\\' ∧ c ≠ '\'' ∧ c ≠ '"' ∧ c ≠ '\n' ∧ c ≠ '\r' := by
  unfold escapeLiteralChar
  split
  all_goals first | exact .inl ⟨_, rfl, rfl⟩ | simp_all

@[simp] theorem toList_escapeLiteral (s : String) :
    (escapeLiteral s).toList = s.toList.flatMap escapeLiteralChar := by
  simp [escapeLiteral, mapToText]

theorem lineBreak_notMem_escape (text : List Char) : '\n' ∉ text.flatMap escapeLiteralChar := by
  simp only [List.mem_flatMap, not_exists, not_and]
  intro c _ hmem
  rcases escapeLiteralChar_cases c with ⟨d, he, hd⟩ | ⟨he, -, -, -, hn, -⟩
  · obtain rfl : d = '\n' := by simpa [he, eq_comm] using hmem
    simp [escapedChar?] at hd
  · obtain rfl : '\n' = c := by simpa [he] using hmem
    exact hn rfl

theorem readLiteral_escape {quote : Char} (hq : quote = '\'' ∨ quote = '"')
    (text rest : List Char) :
    readLiteral quote (text.flatMap escapeLiteralChar ++ quote :: rest) = some (text, rest) := by
  induction text with
  | nil => rcases hq with rfl | rfl <;> simp [readLiteral]
  | cons c cs ih =>
    rw [List.flatMap_cons, List.append_assoc]
    rcases escapeLiteralChar_cases c with ⟨d, he, hd⟩ | ⟨he, hb, hs, hdq, hn, hr⟩
    · rw [he, List.cons_append, List.cons_append, List.nil_append, readLiteral]
      simp [hd, ih]
    · have hne : c ≠ quote := by rcases hq with rfl | rfl <;> assumption
      rw [he, List.cons_append, List.nil_append, readLiteral.eq_def]
      split <;> simp_all

/-- Every quote in an escaped text has a backslash before it. -/
theorem splitLastQuote_escape (previous : Option Char) (text : List Char) :
    splitLastQuote previous (text.flatMap escapeLiteralChar) = none := by
  induction text generalizing previous with
  | nil => rfl
  | cons c cs ih =>
    rw [List.flatMap_cons]
    rcases escapeLiteralChar_cases c with ⟨d, he, -⟩ | ⟨he, -, hs, -⟩
    · simp [he, splitLastQuote, ih]
    · simp [he, splitLastQuote, ih, hs]

theorem splitLastQuote_append (previous : Option Char) (before text : List Char)
    (h : before.getLast?.or previous ≠ some '\\') :
    splitLastQuote previous (before ++ '\'' :: text.flatMap escapeLiteralChar) =
      some (before, text.flatMap escapeLiteralChar) := by
  induction before generalizing previous with
  | nil =>
    have hp : previous ≠ some '\\' := by simpa using h
    simp [splitLastQuote, splitLastQuote_escape, hp]
  | cons c cs ih =>
    have hc : cs.getLast?.or (some c) ≠ some '\\' := by
      simpa [List.getLast?_cons] using h
    simp [splitLastQuote, ih _ hc]

end TypedRoutes.Template
