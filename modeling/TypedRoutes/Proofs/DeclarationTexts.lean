import TypedRoutes.Proofs.DeclarationSpans
import TypedRoutes.Proofs.RenamedWords
import TypedRoutes.Proofs.TriviaGrammar

/-! # What the text of a declaration begins with

The text of a declaration begins as its span does: with a keyword, or with the word `export`, what
may stand between two tokens, and a keyword or a decorator.  A renaming may put one name in the
place of another there, but nothing else.
-/

namespace TypedRoutes.Script
open TypedRoutes.Text TypedRoutes.Naming

/-! ## Tokens as they stand -/

theorem EndsWord.beginning {rest front : List Char} (h : EndsWord rest) (hfront : front <+: rest) :
    EndsWord front := by
  obtain ⟨more, rfl⟩ := hfront
  cases front with
  | nil => exact nofun
  | cons c cs => exact h

theorem isIdentifierPart_of_admits {first : Bool} {c : Char}
    (h : admitsCharacter first c = true) : isIdentifierPart c = true := by
  cases first with
  | true => exact isIdentifierPart_of_start h
  | false => exact h

/-- A word that is read past a backslash is written with an escape. -/
theorem TakesWord.escaped_of_stop {first escaped : Bool} {text name rest tail : List Char} {n : Nat}
    (h : TakesWord first text name escaped n rest)
    (hfirst : first = true → ∀ c ∈ text.head?, isIdentifierStart c = true ∨ c = '\\')
    (hstop : text.drop (text.takeWhile isIdentifierPart).length = '\\' :: tail) :
    escaped = true := by
  induction h with
  | @stop first text h =>
    cases text with
    | nil => cases hstop
    | cons c cs =>
      obtain ⟨hplain, hc⟩ := h c rfl
      cases first with
      | true =>
        rcases hfirst rfl c rfl with hstart | hescape
        · cases hc.symm.trans hstart
        · exact absurd hescape hplain
      | false =>
        have hpart : isIdentifierPart c = false := hc
        rw [List.takeWhile_cons_of_neg (by simp [hpart])] at hstop
        exact absurd (List.cons.inj hstop).1 hplain
  | plain hc _ ih =>
    rw [List.takeWhile_cons_of_pos (isIdentifierPart_of_admits hc), List.length_cons,
      List.drop_succ_cons] at hstop
    exact ih nofun hstop
  | escape => rfl

/-- How a token stands in the text: a word without an escape, or a punctuator. -/
def Token.spelling? : Token → Option String
  | .word name false => some name
  | .punct spelling => some spelling
  | _ => none

theorem spelled_of_readBareToken {text rest : List Char} {t : Token} {n : Nat} {spelling : String}
    (h : readBareToken text = (t, n, rest)) (hspelling : t.spelling? = some spelling) :
    text = spelling.toList ++ rest ∧ n = spelling.toList.length ∧
      (t.isName = true → EndsWord rest) := by
  cases takesToken h with
  | @number _ _ big => cases big <;> cases hspelling
  | @word c cs _ hstop =>
    obtain rfl := Option.some.inj hspelling
    rw [String.toList_ofList]
    rw [drop_length_takeWhile] at hstop ⊢
    refine ⟨List.takeWhile_append_dropWhile.symm, rfl, fun _ d hd => ⟨?_, ?_⟩⟩
    · have hends := List.head?_dropWhile_not isIdentifierPart (c :: cs)
      rwa [Option.mem_def.1 hd] at hends
    · rintro rfl
      obtain ⟨tail, htail⟩ := List.head?_eq_some_iff.1 hd
      exact hstop tail htail
  | escapedWord hopen hstop hread =>
    have hescaped := hread.escaped_of_stop
      (fun _ d hd => by simpa [← Option.mem_some.1 hd] using hopen) hstop
    subst hescaped
    cases hspelling
  | punctuator hprefix =>
    obtain rfl := Option.some.inj hspelling
    exact ⟨(List.prefix_iff_eq_append.1 hprefix).symm, rfl, nofun⟩
  | endOfText | string | privateName | reserved | invalid => cases hspelling

/-! ## The text of a declaration -/

/-- A text that begins with a decorator or with a word, one of those allowed. -/
inductive Opens (P : String → Prop) : List Char → Prop
  | sign (rest : List Char) : Opens P ('@' :: rest)
  | word {name : String} {rest : List Char} (hname : P name) (hend : EndsWord rest) :
      Opens P (name.toList ++ rest)

/-- A text that begins so, or with the word `export` and then so. -/
inductive DeclarationText (P : String → Prop) : List Char → Prop
  | plain {text : List Char} (h : Opens P text) : DeclarationText P text
  | exported {gap rest : List Char} (hgap : Trivia .blank false gap) (hend : EndsWord (gap ++ rest))
      (h : Opens P rest) : DeclarationText P ("export".toList ++ (gap ++ rest))

theorem DeclarationText.mono {P Q : String → Prop} (hPQ : ∀ word, P word → Q word)
    {text : List Char} (h : DeclarationText P text) : DeclarationText Q text := by
  have hopens {text : List Char} (h : Opens P text) : Opens Q text := by
    cases h with
    | sign rest => exact .sign rest
    | word hname hend => exact .word (hPQ _ hname) hend
  cases h with
  | plain h => exact .plain (hopens h)
  | exported hgap hend h => exact .exported hgap hend (hopens h)

/-- With its first token a text is enough of a declaration. -/
theorem opens_take {text rest : List Char} {t : Token} {n k : Nat}
    (h : readBareToken text = (t, n, rest)) (ht : t.BeginsDeclaration) (hk : n ≤ k) :
    Opens (· ∈ declarationWords) (text.take k) := by
  rcases ht with rfl | ⟨name, hname, rfl⟩
  · obtain ⟨rfl, rfl, -⟩ := spelled_of_readBareToken h rfl
    obtain ⟨k, rfl⟩ := Nat.exists_eq_add_of_le' hk
    exact .sign (rest.take k)
  · obtain ⟨rfl, rfl, hend⟩ := spelled_of_readBareToken h rfl
    rw [List.take_append, List.take_of_length_le hk]
    exact .word hname ((hend rfl).beginning (List.take_prefix _ _))

theorem gap_of_readToken {position : Nat} {atStart : Bool} {text : List Char}
    (h : (readToken position atStart text).token ≠ .endOfText) :
    ∃ gap here n rest, text = gap ++ here ∧ Trivia .blank atStart gap ∧
      readBareToken here = ((readToken position atStart text).token, n, rest) ∧
      (readToken position atStart text).stop = position + gap.length + n := by
  unfold readToken at h ⊢
  rcases htrivia : skipTrivia .blank 0 atStart text with ⟨skipped, broken, here⟩
  rcases hread : readBareToken here with ⟨t, n, rest⟩
  rw [htrivia] at h
  dsimp only at h ⊢
  cases here with
  | nil => exact absurd rfl h
  | cons c cs =>
    obtain ⟨gap, rfl, rfl, hgap⟩ := trivia_of_skipTrivia htrivia
    rw [hread, Nat.zero_add]
    exact ⟨gap, c :: cs, n, rest, rfl, hgap, hread, rfl⟩

/-- What the span of a declaration covers is the text of a declaration. -/
theorem declarationText_of_declares {text : List Char} {span : Span} (h : span.Declares text) :
    DeclarationText (· ∈ declarationWords) (span.slice text) := by
  cases h with
  | @plain c name hin hname htoken hcovers =>
    have hread := hin.word (by rw [htoken]; rfl)
    have hstop := hcovers.le_stop
    rw [Span.slice, hcovers.start_eq, ← hin.here]
    refine .plain (opens_take hread (.inr ⟨name, hname, htoken⟩) ?_)
    omega
  | @exported c hin htoken hnext hcovers =>
    have hread := hin.word (by rw [htoken]; rfl)
    rw [htoken] at hread
    obtain ⟨hhere, hlength, hend⟩ := spelled_of_readBareToken hread rfl
    change (readToken c.lexeme.stop false c.lexeme.after).token.BeginsDeclaration at hnext
    have hne : (readToken c.lexeme.stop false c.lexeme.after).token ≠ .endOfText := by
      rintro hend
      rw [hend] at hnext
      rcases hnext with h | ⟨_, _, h⟩ <;> cases h
    obtain ⟨gap, here, n, rest, hafter, hgap, hbare, hnextStop⟩ := gap_of_readToken hne
    have hstop := hcovers.le_stop
    change (readToken c.lexeme.stop false c.lexeme.after).stop ≤ span.stop at hstop
    have hordered := hin.ordered
    rw [hafter] at hend
    rw [Span.slice, hcovers.start_eq, ← hin.here, hhere, hafter, List.take_append,
      List.take_of_length_le (by omega)]
    have hends := (hend rfl).beginning
      (List.take_prefix (span.stop - c.lexeme.start - "export".toList.length) _)
    rw [List.take_append, List.take_of_length_le (by omega)] at hends ⊢
    exact .exported hgap hends (opens_take hbare hnext (by omega))

/-! ## Characters of names -/

theorem isIdentifierPart_blankPoint :
    ∀ n ∈ blankPoints, isIdentifierPart (Char.ofNat n) = false := by
  simp only [isIdentifierPart, isIdentifierStart, isAlphabetic, isMark, isEnclosingMark,
    isDecimalDigit, inRanges_eq]
  decide +kernel

theorem not_part_of_blank {c : Char} (h : isLineBreak c = true ∨ isBlank c = true) :
    isIdentifierPart c = false := by
  have hpart := isIdentifierPart_blankPoint _ (mem_blankPoints h)
  rwa [Char.ofNat_toNat] at hpart

theorem not_part_of_whitespace {c : Char} (h : isWhitespace c = true) :
    isIdentifierPart c = false := by
  by_cases hnext : c = '\u0085'
  · subst hnext
    exact isIdentifierPart_blankPoint 0x85 (by decide)
  · exact not_part_of_blank (.inr (by simp [isBlank, h, hnext]))

theorem not_lineBreak_of_part {c : Char} (h : isIdentifierPart c = true) :
    isLineBreak c = false := by
  rw [← Bool.not_eq_true]
  intro hbreak
  rw [not_part_of_blank (.inl hbreak)] at h
  cases h

theorem ne_of_part {c d : Char} (hc : isIdentifierPart c = true) (hd : isIdentifierPart d = false) :
    c ≠ d := by
  rintro rfl
  rw [hc] at hd
  cases hd

/-- Some characters of identifiers, and no others. -/
def OfParts (chars : List Char) : Prop := chars ≠ [] ∧ ∀ c ∈ chars, isIdentifierPart c = true

theorem IsIdentifier.ofParts {name : String} (h : IsIdentifier name) : OfParts name.toList := by
  obtain ⟨c, cs, hchars, hstart, hparts⟩ := h
  rw [hchars]
  exact ⟨List.cons_ne_nil c cs,
    List.forall_mem_cons.2 ⟨isIdentifierPart_of_start hstart, hparts⟩⟩

theorem Trivia.after_parts {state : TriviaState} {broken : Bool} {gap : List Char}
    (h : Trivia state broken gap) (hstate : state ≠ .blank) {chars : List Char}
    (hchars : ∀ c ∈ chars, isIdentifierPart c = true) : Trivia state broken (chars ++ gap) := by
  induction chars with
  | nil => exact h
  | cons c cs ih =>
    have hrest := ih fun d hd => hchars d (.tail _ hd)
    have hc : isIdentifierPart c = true := hchars c (.head _)
    have hbreak := not_lineBreak_of_part hc
    cases state with
    | blank => exact absurd rfl hstate
    | line => exact .inLine hbreak hrest
    | block =>
      refine .inBlock (fun hstar => absurd hstar (ne_of_part hc (by decide))) ?_
      rwa [hbreak, Bool.or_false]

/-! ## Renaming what stands between tokens -/

theorem nothing_skipped {text : List Char} : ∀ d ∈ text.take 0, isIdentifierPart d = true := by
  simp

section Renaming
variable {name replacement : List Char} (hname : OfParts name)
include hname

/-- No name has the character, so it stays, and what follows is taken up anew. -/
theorem renameFrom_apart {c : Char} (hc : isIdentifierPart c = false) {cs : List Char} {skip : Nat}
    (hskip : ∀ d ∈ (c :: cs).take skip, isIdentifierPart d = true) (before : Option Char) :
    renameFrom name replacement before skip (c :: cs) =
      c :: renameFrom name replacement (some c) 0 cs := by
  cases skip with
  | zero => exact renameFrom_notMem hname.1 (fun hmem => ne_of_part (hname.2 c hmem) hc rfl) _ _
  | succ skip => exact absurd rfl (ne_of_part (hskip c (.head _)) hc)

theorem renameFrom_part (hreplacement : OfParts replacement) {c : Char}
    (hc : isIdentifierPart c = true) {cs : List Char} {skip : Nat}
    (hskip : ∀ d ∈ (c :: cs).take skip, isIdentifierPart d = true) (before : Option Char) :
    ∃ image skip', renameFrom name replacement before skip (c :: cs) =
        image ++ renameFrom name replacement (some c) skip' cs ∧
      (∀ d ∈ image, isIdentifierPart d = true) ∧ (skip = 0 → image ≠ []) ∧
      ∀ d ∈ cs.take skip', isIdentifierPart d = true := by
  cases skip with
  | zero =>
    cases hstands : standsAt name before (c :: cs) with
    | false => exact ⟨[c], 0, renameFrom_passed hstands, by simpa using hc, by simp, by simp⟩
    | true =>
      have hempty : name.isEmpty = false := by simpa using hname.1
      have hbegins := hstands
      simp only [standsAt, Bool.and_eq_true] at hbegins
      obtain ⟨rest, hrest⟩ := List.isPrefixOf_iff_prefix.1 hbegins.1.1
      refine ⟨if isKept before ((c :: cs).drop name.length) then name else replacement,
        name.length - 1, ?_, ?_, fun _ => ?_, ?_⟩
      · rw [renameFrom, if_neg (Nat.lt_irrefl 0), if_pos hstands, hempty,
          if_neg Bool.false_ne_true]
      · split
        · exact hname.2
        · exact hreplacement.2
      · split
        · exact hname.1
        · exact hreplacement.1
      · obtain ⟨d, ds, rfl⟩ := List.exists_cons_of_ne_nil hname.1
        obtain rfl := (List.cons.inj hrest).2
        simpa using fun x hx => hname.2 x (List.mem_cons_of_mem d hx)
  | succ skip =>
    refine ⟨[], skip, ?_, by simp, by simp, fun d hd => hskip d (.tail _ hd)⟩
    rw [renameFrom, if_pos (Nat.succ_pos _)]
    rfl

theorem head?_of_renameFrom (hreplacement : OfParts replacement) {before : Option Char}
    {text : List Char} {d : Char} (hd : isIdentifierPart d = false)
    (h : (renameFrom name replacement before 0 text).head? = some d) : text.head? = some d := by
  cases text with
  | nil => simp [renameFrom, standsAt_nil hname.1] at h
  | cons c cs =>
    cases hc : isIdentifierPart c with
    | false => rwa [renameFrom_apart hname hc (by simp)] at h
    | true =>
      obtain ⟨image, skip', heq, himage, hne, -⟩ :=
        renameFrom_part hname hreplacement hc nothing_skipped before
      obtain ⟨x, xs, rfl⟩ := List.exists_cons_of_ne_nil (hne rfl)
      rw [heq, List.cons_append, List.head?_cons, Option.some.injEq] at h
      exact absurd h (ne_of_part (himage x (.head _)) hd)

variable (replacement) in
theorem EndsWord.renamed {text : List Char} (h : EndsWord text) (before : Option Char) :
    EndsWord (renameFrom name replacement before 0 text) := by
  cases text with
  | nil => simp [renameFrom, standsAt_nil hname.1, EndsWord]
  | cons c cs =>
    rw [renameFrom_apart hname (h c rfl).1 (by simp)]
    exact endsWord_cons (h c rfl).1 (h c rfl).2 _

theorem renameFrom_apart_run {passed text : List Char} (hne : passed ≠ [])
    (hpassed : passed.any isIdentifierPart = false) {skip : Nat}
    (hskip : ∀ d ∈ (passed ++ text).take skip, isIdentifierPart d = true) (before : Option Char) :
    ∃ before', renameFrom name replacement before skip (passed ++ text) =
      passed ++ renameFrom name replacement before' 0 text := by
  induction passed generalizing skip before with
  | nil => exact absurd rfl hne
  | cons c cs ih =>
    rw [List.any_cons, Bool.or_eq_false_iff] at hpassed
    rw [List.cons_append] at hskip ⊢
    rw [renameFrom_apart hname hpassed.1 hskip]
    cases cs with
    | nil => exact ⟨some c, rfl⟩
    | cons d ds =>
      obtain ⟨before', heq⟩ :=
        ih (List.cons_ne_nil d ds) hpassed.2 nothing_skipped (some c)
      exact ⟨before', congrArg (c :: ·) heq⟩

theorem trivia_renamed_after (passed : List Char) {state state' : TriviaState}
    {broken broken' : Bool} {text rest : List Char} {skip : Nat}
    (hne : passed ≠ []) (hpassed : passed.any isIdentifierPart = false)
    (hskip : ∀ d ∈ (passed ++ text).take skip, isIdentifierPart d = true)
    (hrest : ∀ before, ∃ gap before', renameFrom name replacement before 0 text =
      gap ++ renameFrom name replacement before' 0 rest ∧ Trivia state' broken' gap)
    (htrivia : ∀ {gap}, Trivia state' broken' gap → Trivia state broken (passed ++ gap))
    (before : Option Char) :
    ∃ gap before', renameFrom name replacement before skip (passed ++ text) =
      gap ++ renameFrom name replacement before' 0 rest ∧ Trivia state broken gap := by
  obtain ⟨before', heq⟩ := renameFrom_apart_run hname hne hpassed hskip before
  obtain ⟨gap, before'', hgap, htrivia'⟩ := hrest before'
  exact ⟨passed ++ gap, before'', by rw [heq, hgap, List.append_assoc], htrivia htrivia'⟩

/-- Blanks and comments become blanks and comments. -/
theorem trivia_renamed (hreplacement : OfParts replacement) {state : TriviaState} {broken : Bool}
    {gap rest : List Char} (hgap : Trivia state broken gap) {skip : Nat}
    (hskip : ∀ d ∈ (gap ++ rest).take skip, isIdentifierPart d = true)
    (hblank : state = .blank → skip = 0) (before : Option Char) :
    ∃ gap' before', renameFrom name replacement before skip (gap ++ rest) =
        gap' ++ renameFrom name replacement before' 0 rest ∧ Trivia state broken gap' := by
  induction hgap generalizing skip before with
  | nil =>
    rw [hblank rfl]
    exact ⟨[], before, rfl, .nil⟩
  | lineComment _ ih =>
    exact trivia_renamed_after hname ['/', '/'] nofun (by decide) hskip (ih nothing_skipped nofun)
      .lineComment before
  | blockComment _ ih =>
    exact trivia_renamed_after hname ['/', '*'] nofun (by decide) hskip (ih nothing_skipped nofun)
      .blockComment before
  | pageComment _ ih =>
    exact trivia_renamed_after hname ['<', '!', '-', '-'] nofun (by decide) hskip
      (ih nothing_skipped nofun) .pageComment before
  | pageCommentEnd _ ih =>
    exact trivia_renamed_after hname ['-', '-', '>'] nofun (by decide) hskip (ih nothing_skipped nofun)
      .pageCommentEnd before
  | @lineBreak _ c _ hbreak _ ih =>
    exact trivia_renamed_after hname [c] nofun (by simpa using not_part_of_blank (.inl hbreak)) hskip
      (ih nothing_skipped fun _ => rfl) (.lineBreak hbreak) before
  | @blank _ c _ hbreak hc _ ih =>
    exact trivia_renamed_after hname [c] nofun (by simpa using not_part_of_blank (.inr hc)) hskip
      (ih nothing_skipped fun _ => rfl) (.blank hbreak hc) before
  | @lineEnd _ c _ hbreak _ ih =>
    exact trivia_renamed_after hname [c] nofun (by simpa using not_part_of_blank (.inl hbreak)) hskip
      (ih nothing_skipped fun _ => rfl) (.lineEnd hbreak) before
  | @inLine _ c _ hbreak _ ih =>
    rw [List.cons_append] at hskip ⊢
    cases hc : isIdentifierPart c with
    | false =>
      exact trivia_renamed_after hname [c] nofun (by simpa using hc) hskip (ih nothing_skipped nofun)
        (.inLine hbreak) before
    | true =>
      obtain ⟨image, skip', heq, himage, -, hskip'⟩ :=
        renameFrom_part hname hreplacement hc hskip before
      obtain ⟨gap, before', heq', hgap⟩ := ih hskip' nofun (some c)
      exact ⟨image ++ gap, before', by rw [heq, heq', List.append_assoc],
        hgap.after_parts nofun himage⟩
  | blockEnd _ ih =>
    exact trivia_renamed_after hname ['*', '/'] nofun (by decide) hskip (ih nothing_skipped fun _ => rfl)
      .blockEnd before
  | @inBlock _ c cs hend htail ih =>
    rw [List.cons_append] at hskip ⊢
    cases hc : isIdentifierPart c with
    | false =>
      obtain ⟨gap, before', heq, hgap⟩ := ih nothing_skipped nofun (some c)
      refine ⟨c :: gap, before', ?_, .inBlock (fun hstar hslash => ?_) hgap⟩
      · rw [renameFrom_apart hname hc hskip, heq, List.cons_append]
      · obtain ⟨gap, rfl⟩ := List.head?_eq_some_iff.1 hslash
        have hhead := head?_of_renameFrom hname hreplacement (d := '/') (by decide)
          (congrArg List.head? heq)
        cases cs with
        | nil => cases htail
        | cons e es => exact hend hstar hhead
    | true =>
      obtain ⟨image, skip', heq, himage, -, hskip'⟩ :=
        renameFrom_part hname hreplacement hc hskip before
      obtain ⟨gap, before', heq', hgap⟩ := ih hskip' nofun (some c)
      rw [not_lineBreak_of_part hc, Bool.or_false] at hgap
      exact ⟨image ++ gap, before', by rw [heq, heq', List.append_assoc],
        hgap.after_parts nofun himage⟩

/-- At the head of a word only the word as a whole is found. -/
theorem eq_of_standsAt {word rest : List Char} {before : Option Char} (hword : IsPlainName word)
    (hend : EndsWord rest) (h : standsAt name before (word ++ rest) = true) : name = word := by
  have hstop : rest.head?.any isIdentifierPart = false := by
    cases hhead : rest.head? with
    | none => rfl
    | some c => exact (hend c hhead).1
  simp only [standsAt, Bool.and_eq_true, isPrefixOf_append hname.2 hstop] at h
  obtain ⟨⟨hbegins, -⟩, hboundary⟩ := h
  obtain ⟨more, rfl⟩ := List.isPrefixOf_iff_prefix.1 hbegins
  cases more with
  | nil => rw [List.append_nil]
  | cons c cs =>
    have hplain : IsPlainName name := ⟨hname.1, fun d hd => hword.2 d (List.mem_append_left _ hd)⟩
    have hc : isWordCharacter c = true := hword.2 c (by simp)
    rw [List.append_assoc, List.drop_left, isWordBoundary, hplain.last, List.cons_append,
      List.head?_cons, Option.any_some, hc] at hboundary
    cases hboundary

variable (replacement) in
theorem renameFrom_plain {word rest : List Char} (hword : IsPlainName word) (hend : EndsWord rest)
    (before : Option Char) :
    ∃ word' before', renameFrom name replacement before 0 (word ++ rest) =
      word' ++ renameFrom name replacement before' 0 rest ∧ (word' = word ∨ word' = replacement) := by
  cases hstands : standsAt name before (word ++ rest) with
  | true =>
    obtain rfl := eq_of_standsAt hname hword hend hstands
    refine ⟨_, _, renameFrom_found hname.1 hstands, ?_⟩
    split
    · exact .inl rfl
    · exact .inr rfl
  | false =>
    obtain ⟨c, cs, rfl⟩ := List.exists_cons_of_ne_nil hword.1
    have hnext : (some c).any isWordCharacter = true := hword.2 c (.head _)
    refine ⟨c :: cs, cs.getLast?.or (some c), ?_, .inl rfl⟩
    rw [List.cons_append] at hstands ⊢
    rw [renameFrom_passed hstands,
      renameFrom_after_word (fun d hd => hword.2 d (.tail _ hd)) hnext, List.cons_append]

section Declarations
variable {P Q : String → Prop} (hP : ∀ s, P s → IsPlainName s.toList ∧ Q s)
  (hQ : Q (String.ofList replacement))
include hP hQ

theorem Opens.renamed {text : List Char} (h : Opens P text) (before : Option Char) :
    Opens Q (renameFrom name replacement before 0 text) := by
  cases h with
  | sign rest =>
    rw [renameFrom_apart hname (by decide) (by simp)]
    exact .sign _
  | @word s rest hs hend =>
    obtain ⟨word', before', heq, hword'⟩ :=
      renameFrom_plain replacement hname (hP s hs).1 hend before
    rw [heq]
    rcases hword' with rfl | rfl
    · exact .word (hP s hs).2 (hend.renamed replacement hname before')
    · have hopens := Opens.word hQ (hend.renamed word' hname before')
      rwa [String.toList_ofList] at hopens

/-- A renamed declaration begins as a declaration does, but for the names. -/
theorem DeclarationText.renamed (hreplacement : OfParts replacement) {text : List Char}
    (h : DeclarationText P text) :
    DeclarationText Q (renameFrom name replacement none 0 text) := by
  cases h with
  | plain h => exact .plain (h.renamed hname hP hQ none)
  | @exported gap rest hgap hend h =>
    have hexport : IsPlainName "export".toList := by decide
    obtain ⟨word', before', heq, hword'⟩ := renameFrom_plain replacement hname hexport hend none
    have hends := hend.renamed replacement hname before'
    rw [heq]
    rcases hword' with rfl | rfl
    · obtain ⟨gap', before'', heq', hgap'⟩ :=
        trivia_renamed hname hreplacement hgap nothing_skipped (fun _ => rfl) before'
      rw [heq'] at hends ⊢
      exact .exported hgap' hends (h.renamed hname hP hQ before'')
    · have hopens := Opens.word hQ hends
      rw [String.toList_ofList] at hopens
      exact .plain hopens

end Declarations
end Renaming

end TypedRoutes.Script
