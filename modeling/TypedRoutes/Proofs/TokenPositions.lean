import TypedRoutes.Script.Cursor

/-! # Positions of tokens

Each reader of the lexer says how much text it takes and gives the text after that.  The two agree,
so from the positions of a token what stands there can be taken from the text.  What is read as a
word, and as a token, is said once, by the cases of `TakesWord` and `TakesToken`.
-/

namespace TypedRoutes.Script
open TypedRoutes.Text

theorem skipRun_rest (p : Char → Bool) (text : List Char) :
    (skipRun p text).2 = text.drop (skipRun p text).1 := by
  induction text with
  | nil => rfl
  | cons c cs ih =>
    rw [skipRun]
    split
    · exact ih
    · rfl

theorem rest_of_skipRun {p : Char → Bool} {text rest : List Char} {n : Nat}
    (h : skipRun p text = (n, rest)) : rest = text.drop n := by
  have hrest := skipRun_rest p text
  rwa [h] at hrest

theorem skipTrivia_rest (state : TriviaState) (n : Nat) (broken : Bool) (text : List Char) :
    ∃ k, (skipTrivia state n broken text).1 = n + k ∧
      (skipTrivia state n broken text).2.2 = text.drop k := by
  have step (passed : List Char) {m n : Nat} {rest text : List Char} :
      (∃ k, m = n + passed.length + k ∧ rest = text.drop k) →
        ∃ k, m = n + k ∧ rest = (passed ++ text).drop k := by
    rintro ⟨k, rfl, rfl⟩
    exact ⟨passed.length + k, by omega, by rw [List.drop_append]; simp⟩
  fun_induction skipTrivia state n broken text with
  | case1 => exact ⟨0, rfl, rfl⟩
  | case2 _ _ _ ih => exact step ['/', '/'] ih
  | case3 _ _ _ ih => exact step ['/', '*'] ih
  | case4 _ _ _ ih => exact step ['<', '!', '-', '-'] ih
  | case5 _ _ ih => exact step ['-', '-', '>'] ih
  | case6 _ _ c _ _ _ _ _ _ ih => exact step [c] ih
  | case7 _ _ c _ _ _ _ _ _ _ ih => exact step [c] ih
  | case8 => exact ⟨0, rfl, rfl⟩
  | case9 _ _ c _ _ ih => exact step [c] ih
  | case10 _ _ c _ _ ih => exact step [c] ih
  | case11 _ _ _ ih => exact step ['*', '/'] ih
  | case12 _ _ c _ _ ih => exact step [c] ih

theorem readUnicodeEscape_rest {text rest : List Char} {value n : Nat}
    (h : readUnicodeEscape text = some (value, n, rest)) : rest = text.drop n := by
  unfold readUnicodeEscape at h
  split at h
  · dsimp only at h
    split at h
    · rename_i hdrop
      split at h
      · cases h
      · cases h
        rw [List.drop_succ_cons, ← List.drop_drop, hdrop, List.drop_one, List.tail_cons]
    · cases h
  · split at h <;> cases h
    rfl
  · cases h

def admitsCharacter (first : Bool) (c : Char) : Bool :=
  if first then isIdentifierStart c else isIdentifierPart c

/-- How a word is read, from its first character on or from a later one: its name, whether it has an
escape in it, its length, and the text after it. -/
inductive TakesWord : Bool → List Char → List Char → Bool → Nat → List Char → Prop
  | stop {first : Bool} {text : List Char}
      (h : ∀ c ∈ text.head?, c ≠ '\\' ∧ admitsCharacter first c = false) :
      TakesWord first text [] false 0 text
  | plain {first escaped : Bool} {c : Char} {cs name rest : List Char} {n : Nat}
      (hc : admitsCharacter first c = true) (hmore : TakesWord false cs name escaped n rest) :
      TakesWord first (c :: cs) (c :: name) escaped (n + 1) rest
  | escape {first escaped : Bool} {cs tail name rest : List Char} {value m n : Nat}
      (hescape : readUnicodeEscape cs = some (value, m, tail))
      (hvalue : admitsCharacter first (Char.ofNat value) = true)
      (hmore : TakesWord false tail name escaped n rest) :
      TakesWord first ('\\' :: 'u' :: cs) (Char.ofNat value :: name) true (m + 2 + n) rest

/-- All that the reader of words does, if it is given enough fuel. -/
theorem takesWord {fuel : Nat} {first escaped : Bool} {text name rest : List Char} {n : Nat}
    (hfuel : text.length < fuel) (h : readWord fuel first text = some (name, escaped, n, rest)) :
    TakesWord first text name escaped n rest := by
  induction fuel generalizing first text name escaped n with
  | zero => exact absurd hfuel (Nat.not_lt_zero _)
  | succ fuel ih =>
    unfold readWord at h
    extract_lets admits at h
    split at h
    · rename_i cs
      obtain ⟨⟨value, m, tail⟩, hescape, h⟩ := Option.bind_eq_some_iff.1 h
      dsimp only at h
      split at h
      · rename_i hvalue
        obtain ⟨⟨more, _, k, _⟩, hmore, h⟩ := Option.bind_eq_some_iff.1 h
        cases h
        refine .escape hescape hvalue (ih ?_ hmore)
        rw [readUnicodeEscape_rest hescape, List.length_drop]
        simp only [List.length_cons] at hfuel
        omega
      · cases h
    · cases h
    · rename_i c cs _ hplain
      split at h
      · rename_i hc
        obtain ⟨⟨more, _, k, _⟩, hmore, h⟩ := Option.bind_eq_some_iff.1 h
        cases h
        exact .plain hc (ih (Nat.lt_of_succ_lt_succ hfuel) hmore)
      · rename_i hc
        cases h
        refine .stop ?_
        rintro _ ⟨⟩
        exact ⟨hplain, Bool.eq_false_iff.2 hc⟩
    · cases h
      exact .stop nofun

theorem TakesWord.rest_eq {first escaped : Bool} {text name rest : List Char} {n : Nat}
    (h : TakesWord first text name escaped n rest) : rest = text.drop n := by
  induction h with
  | stop => rfl
  | plain _ _ ih => rw [ih, List.drop_succ_cons]
  | escape hescape _ _ ih =>
    rw [ih, readUnicodeEscape_rest hescape, List.drop_drop, Nat.add_right_comm, List.drop_succ_cons,
      List.drop_succ_cons]

theorem readString_rest {quote : Char} {fuel : Nat} {text rest : List Char} {values : List Nat}
    {n : Nat} (h : readString quote fuel text = some (values, n, rest)) : rest = text.drop n := by
  induction fuel generalizing text values n with
  | zero => cases h
  | succ fuel ih =>
    have go {values values' : List Nat} {length n : Nat} {tail : List Char}
        (h : ((readString quote fuel tail).bind fun found =>
          some (values ++ found.1, length + found.2.1, found.2.2)) = some (values', n, rest))
        (htail : tail = text.drop length) : rest = text.drop n := by
      obtain ⟨⟨more, k, tail'⟩, hmore, h⟩ := Option.bind_eq_some_iff.1 h
      cases h
      rw [ih hmore, htail, List.drop_drop]
    unfold readString at h
    dsimp only at h
    split at h
    · cases h
      rfl
    · split at h
      · cases h
      · exact go h rfl
      · split at h
        · exact go h rfl
        · cases h
      · cases h
      · obtain ⟨⟨value, k, tail⟩, hescape, h⟩ := Option.bind_eq_some_iff.1 h
        refine go h ?_
        rw [readUnicodeEscape_rest hescape]
        rfl
      · split at h
        · exact go h rfl
        · split at h
          · exact go h rfl
          · exact go h rfl
    · split at h
      · cases h
        rfl
      · split at h
        · cases h
          rfl
        · exact go h rfl

theorem skipFraction_rest {text rest : List Char} {big : Bool} {n : Nat}
    (h : skipFraction text = some (big, n, rest)) : rest = text.drop n := by
  unfold skipFraction at h
  extract_lets digit at h
  split at h
  · cases h
    rfl
  · split at h
    rename_i m tail hfraction
    have htail : tail = text.drop m := by
      split at hfraction
      · cases hfraction
        exact skipRun_rest _ _
      · cases hfraction
        rfl
    extract_lets exponent at h
    have hexponent {cs : List Char} (mark : Nat) (hcs : cs = tail.drop mark)
        (h : exponent cs mark = some (big, n, rest)) : rest = text.drop n := by
      dsimp only [exponent] at h
      split at h
      · cases h
      · rename_i hskip
        cases h
        rw [rest_of_skipRun hskip, hcs, htail, List.drop_drop, List.drop_drop, Nat.add_assoc]
    split at h
    · split at h
      · exact hexponent 2 rfl h
      · cases h
        exact htail
    · split at h
      · exact hexponent 2 rfl h
      · cases h
        exact htail
    · split at h
      · exact hexponent 1 rfl h
      · cases h
        exact htail
    · cases h
      exact htail

theorem readNumber_rest {text rest : List Char} {big : Bool} {n : Nat}
    (h : readNumber text = some (big, n, rest)) : rest = text.drop n := by
  unfold readNumber at h
  extract_lets radix literal decimal marked at h
  have hradix {digit : Char → Bool} {m : Char} {cs : List Char}
      (h : radix digit cs = some (big, n, rest)) : rest = ('0' :: m :: cs).drop n := by
    dsimp only [radix] at h
    split at h
    · cases h
    · rename_i hskip
      cases h
      rw [List.drop_succ_cons, List.drop_succ_cons, ← List.drop_drop, ← rest_of_skipRun hskip]
      rfl
    · rename_i hskip
      cases h
      rw [List.drop_succ_cons, List.drop_succ_cons, rest_of_skipRun hskip]
  have hliteral (h : literal = some (big, n, rest)) : rest = text.drop n := by
    dsimp only [literal] at h
    split at h
    · split at h
      · exact hradix h
      · split at h
        · exact hradix h
        · split at h
          · exact hradix h
          · cases h
    · cases h
  have hdecimal (h : decimal = some (big, n, rest)) : rest = text.drop n := by
    dsimp only [decimal] at h
    split at h
    · cases h
      exact skipRun_rest _ text
    · obtain ⟨⟨_, m, tail⟩, hfraction, h⟩ := Option.bind_eq_some_iff.1 h
      cases h
      rw [skipFraction_rest hfraction, skipRun_rest, List.drop_drop]
  have hread : (if marked then literal else decimal) = some (big, n, rest) := by
    split at h
    · cases h
    · rename_i hread
      split at h
      · split at h
        · cases h
        · cases h
          exact hread
      · cases h
        exact hread
  split at hread
  · exact hliteral hread
  · exact hdecimal hread

/-! ## The token at the head of a text -/

inductive TakesToken : List Char → Token → Nat → List Char → Prop
  | endOfText : TakesToken [] .endOfText 0 []
  | number {text rest : List Char} {big : Bool} {n : Nat}
      (h : readNumber text = some (big, n, rest)) :
      TakesToken text (if big then .bigint else .number) n rest
  | string {quote : Char} {cs rest : List Char} {units : List Nat} {n : Nat}
      (h : readString quote (cs.length + 1) cs = some (units, n, rest)) :
      TakesToken (quote :: cs) (.string (String.ofList (joinUnits units))) (n + 1) rest
  | privateName {cs name rest : List Char} {c : Char} {escaped : Bool} {n : Nat}
      (h : TakesWord true cs (c :: name) escaped n rest) :
      TakesToken ('#' :: cs) (.privateName (String.ofList (c :: name))) (n + 1) rest
  /-- A word that no backslash follows stands as it is. -/
  | word {c : Char} {cs : List Char} (hopen : (isIdentifierStart c || c == '\\') = true)
      (hstop : ∀ tail,
        (c :: cs).drop ((c :: cs).takeWhile isIdentifierPart).length ≠ '\\' :: tail) :
      TakesToken (c :: cs) (.word (String.ofList ((c :: cs).takeWhile isIdentifierPart)) false)
        ((c :: cs).takeWhile isIdentifierPart).length
        ((c :: cs).drop ((c :: cs).takeWhile isIdentifierPart).length)
  | escapedWord {c : Char} {cs name rest tail : List Char} {escaped : Bool} {n : Nat}
      (hopen : (isIdentifierStart c || c == '\\') = true)
      (hstop : (c :: cs).drop ((c :: cs).takeWhile isIdentifierPart).length = '\\' :: tail)
      (h : TakesWord true (c :: cs) name escaped n rest) :
      TakesToken (c :: cs) (.word (String.ofList name) escaped) n rest
  /-- A reserved word with an escape in it is neither that word nor a name. -/
  | reserved {text name rest : List Char} {escaped : Bool} {n : Nat}
      (h : TakesWord true text name escaped n rest) : TakesToken text .invalid n rest
  | punctuator {text : List Char} {spelling : String} (h : spelling.toList <+: text) :
      TakesToken text (.punct spelling) spelling.length (text.drop spelling.length)
  | invalid (text : List Char) : TakesToken text .invalid 1 (text.drop 1)

section Taken
variable {text rest : List Char} {token : Token} {n : Nat}

theorem prefix_of_firstSpelling {spellings : List String} {spelling : String}
    (h : firstSpelling spellings text = some spelling) : spelling.toList <+: text := by
  have hbegins := List.find?_some h
  exact List.isPrefixOf_iff_prefix.1 hbegins

theorem takesToken_of_readPunctuator (h : readPunctuator text = (token, n, rest)) :
    TakesToken text token n rest := by
  unfold readPunctuator at h
  extract_lets found at h
  have hfound (spelling : String) (hs : found = some spelling) : spelling.toList <+: text := by
    dsimp only [found] at hs
    split at hs
    · split at hs
      · cases hs
        exact ⟨_, rfl⟩
      · exact prefix_of_firstSpelling hs
    · exact prefix_of_firstSpelling hs
  clear_value found
  cases found with
  | none =>
    cases h
    exact .invalid text
  | some spelling =>
    cases h
    exact .punctuator (hfound spelling rfl)

theorem takesToken (h : readBareToken text = (token, n, rest)) : TakesToken text token n rest := by
  unfold readBareToken at h
  extract_lets number quoted plain at h
  have hnumber (h : number () = (token, n, rest)) : TakesToken text token n rest := by
    dsimp only [number] at h
    split at h
    · rename_i hread
      cases h
      exact .number hread
    · rename_i hread
      cases h
      exact .number hread
    · cases h
      exact .invalid text
  have hquoted {quote : Char} {cs : List Char} (h : quoted quote cs = (token, n, rest)) :
      TakesToken (quote :: cs) token n rest := by
    dsimp only [quoted] at h
    split at h
    · rename_i hread
      cases h
      exact .string hread
    · cases h
      exact .invalid _
  split at h
  · cases h
    exact .endOfText
  · exact hquoted h
  · exact hquoted h
  · split at h
    · rename_i hread
      cases h
      exact .privateName (takesWord (Nat.lt_succ_self _) hread)
    · cases h
      exact .invalid _
  · split at h
    · exact hnumber h
    · exact takesToken_of_readPunctuator h
  · split at h
    · exact hnumber h
    · split at h
      · rename_i hopen
        split at h
        · rename_i hstop
          split at h
          · rename_i hread
            dsimp only at h
            split at h
            · cases h
              exact .reserved (takesWord (Nat.lt_succ_self _) hread)
            · cases h
              exact .escapedWord hopen hstop (takesWord (Nat.lt_succ_self _) hread)
          · cases h
            exact .invalid _
        · rename_i hstop
          cases h
          exact .word hopen hstop
      · exact takesToken_of_readPunctuator h

theorem readBareToken_rest (h : readBareToken text = (token, n, rest)) : rest = text.drop n := by
  cases takesToken h with
  | endOfText => rfl
  | number h => exact readNumber_rest h
  | string h => rw [List.drop_succ_cons, readString_rest h]
  | privateName h => rw [List.drop_succ_cons, h.rest_eq]
  | word => rfl
  | escapedWord _ _ h => exact h.rest_eq
  | reserved h => exact h.rest_eq
  | punctuator => rfl
  | invalid => rfl

end Taken

/-! ## Cursors in a text -/

namespace Cursor

/-- The positions of the cursor are positions in the text, and a word in front of it is there. -/
structure IsIn (c : Cursor) (text : List Char) : Prop where
  here : c.lexeme.here = text.drop c.lexeme.start
  after : c.lexeme.after = text.drop c.lexeme.stop
  previous : c.previousStop ≤ c.lexeme.start
  ordered : c.lexeme.start ≤ c.lexeme.stop
  word : c.lexeme.token.isName = true → readBareToken c.lexeme.here =
    (c.lexeme.token, c.lexeme.stop - c.lexeme.start, c.lexeme.after)

variable {c c' : Cursor} {text : List Char}

theorem isIn_readToken (position : Nat) (atStart : Bool) (text : List Char) :
    IsIn ⟨readToken position atStart (text.drop position), position⟩ text := by
  obtain ⟨k, hskipped, hhere⟩ := skipTrivia_rest .blank 0 atStart (text.drop position)
  rw [Nat.zero_add] at hskipped
  rw [List.drop_drop] at hhere
  unfold readToken
  dsimp only
  rw [hskipped, hhere]
  rcases hread : readBareToken (text.drop (position + k)) with ⟨token, length, rest⟩
  have hrest := readBareToken_rest hread
  rw [List.drop_drop] at hrest
  exact {
    here := rfl
    after := hrest
    previous := Nat.le_add_right _ _
    ordered := Nat.le_add_right _ _
    word := fun _ => by rw [Nat.add_sub_cancel_left, hread] }

theorem isIn_ofRest (position : Nat) (text : List Char) :
    (ofRest position (text.drop position)).IsIn text :=
  isIn_readToken position false text

theorem IsIn.next (h : c.IsIn text) : c.next.IsIn text := by
  rw [Cursor.next, h.after]
  exact isIn_ofRest _ text

theorem IsIn.stop_le_next (h : c.IsIn text) : c.lexeme.stop ≤ c.next.lexeme.stop :=
  Nat.le_trans h.next.previous h.next.ordered

theorem IsIn.le_stop_of_le (h : c.IsIn text) {n : Nat} (hn : n ≤ c.previousStop) :
    n ≤ c.lexeme.stop :=
  Nat.le_trans hn (Nat.le_trans h.previous h.ordered)

theorem IsIn.afterChars (h : c.IsIn text) (length : Nat) : (c.after length).IsIn text := by
  rw [Cursor.after, h.here, List.drop_drop]
  exact isIn_ofRest _ text

theorem IsIn.reread (h : c.IsIn text) {token : Token} (plain : token.isName = false)
    (length : Nat) : (c.reread token length).IsIn text := by
  refine ⟨h.here, ?_, h.previous, Nat.le_add_right _ _, ?_⟩
  · change c.lexeme.here.drop length = text.drop (c.lexeme.start + length)
    rw [h.here, List.drop_drop]
  · intro (hword : token.isName = true)
    rw [plain] at hword
    cases hword

/-- However a cursor moves, it stays in its text and does not go back. -/
theorem Reaches.forward (h : Reaches c c') (hin : c.IsIn text) :
    c'.IsIn text ∧ c.previousStop ≤ c'.previousStop := by
  induction h with
  | here c => exact ⟨hin, Nat.le_refl _⟩
  | next c => exact ⟨hin.next, Nat.le_trans hin.previous hin.ordered⟩
  | after c length =>
    exact ⟨hin.afterChars length, Nat.le_trans hin.previous (Nat.le_add_right _ _)⟩
  | reread c plain length => exact ⟨hin.reread plain length, Nat.le_refl _⟩
  | trans _ _ ihFirst ihRest =>
    obtain ⟨hin', hle⟩ := ihFirst hin
    obtain ⟨hin'', hle'⟩ := ihRest hin'
    exact ⟨hin'', Nat.le_trans hle hle'⟩

end Cursor

end TypedRoutes.Script
