import TypedRoutes.Script.Lexer
import TypedRoutes.Proofs.GeneratedFragments

/-! # The tokens of generated fragments

What is written between quotes is read back by the reader of scripts: an escaped text is one string
literal with the text as its value, whatever follows its closing quote.  So the fragments of a
router are a few tokens each, among them the path that they were made for.
-/

namespace TypedRoutes.Template
open TypedRoutes.Text

/-! ## Escapes one after another -/

def replaceChar (c : Char) (spelling : List Char) (text : List Char) : List Char :=
  text.flatMap fun d => if d = c then spelling else [d]

/-- How the characters that cannot stand in a literal are spelled, the backslash before the others
so that none of their backslashes is taken for one of the text. -/
def literalSpellings : List (Char × List Char) :=
  [('\\', ['\\', '\\']), ('\'', ['\\', '\'']), ('"', ['\\', '"']), ('\n', ['\\', 'n']),
   ('\r', ['\\', 'r']), ('\t', ['\\', 't'])]

/-- Replacing one character after the other escapes each character once. -/
theorem successive_replacements (text : List Char) :
    literalSpellings.foldl (fun text (c, spelling) => replaceChar c spelling text) text =
      text.flatMap escapeLiteralChar := by
  simp only [literalSpellings, List.foldl_cons, List.foldl_nil, replaceChar, List.flatMap_assoc]
  refine List.flatMap_congr fun c _ => ?_
  by_cases hc : c ∈ ['\\', '\'', '"', '\n', '\r', '\t']
  · simp only [List.mem_cons, List.not_mem_nil, or_false] at hc
    rcases hc with rfl | rfl | rfl | rfl | rfl | rfl <;> rfl
  · simp only [List.mem_cons, List.not_mem_nil, or_false, not_or] at hc
    simp [escapeLiteralChar, hc]

theorem length_le_escape (text : List Char) :
    text.length ≤ (text.flatMap escapeLiteralChar).length := by
  induction text with
  | nil => exact Nat.le_refl 0
  | cons c cs ih =>
    have hc : 1 ≤ (escapeLiteralChar c).length := by
      rcases escapeLiteralChar_cases c with ⟨d, he, -⟩ | ⟨he, -⟩ <;> simp [he]
    rw [List.flatMap_cons, List.length_append, List.length_cons]
    omega

/-! ## The closing quote -/

/-- How many characters stand before the first quote that no backslash escapes. -/
def closingQuote? (quote : Char) : List Char → Option Nat
  | '\\' :: _ :: cs => (closingQuote? quote cs).map (· + 2)
  | c :: cs => if c = quote then some 0 else (closingQuote? quote cs).map (· + 1)
  | [] => none

theorem closingQuote?_escape {quote : Char} (hq : quote = '\'' ∨ quote = '"')
    (text rest : List Char) :
    closingQuote? quote (text.flatMap escapeLiteralChar ++ quote :: rest) =
      some (text.flatMap escapeLiteralChar).length := by
  induction text with
  | nil => rcases hq with rfl | rfl <;> simp [closingQuote?]
  | cons c cs ih =>
    rw [List.flatMap_cons, List.append_assoc, List.length_append]
    rcases escapeLiteralChar_cases c with ⟨d, he, -⟩ | ⟨he, hb, hs, hdq, -⟩
    · rw [he, List.cons_append, List.cons_append, List.nil_append, closingQuote?, ih]
      simp [Nat.add_comm]
    · have hne : c ≠ quote := by rcases hq with rfl | rfl <;> assumption
      rw [he, List.cons_append, List.nil_append, closingQuote?.eq_def]
      split <;> simp_all [Nat.add_comm]

/-- A text without the two characters that end a line of a script and of a file. -/
def OneLine (text : List Char) : Prop := '\n' ∉ text ∧ '\r' ∉ text

instance (text : List Char) : Decidable (OneLine text) :=
  inferInstanceAs (Decidable ('\n' ∉ text ∧ '\r' ∉ text))

theorem oneLine_append {a b : List Char} : OneLine (a ++ b) ↔ OneLine a ∧ OneLine b := by
  simp only [OneLine, List.mem_append, not_or]
  tauto

theorem oneLine_escape (text : List Char) : OneLine (text.flatMap escapeLiteralChar) := by
  refine ⟨lineBreak_notMem_escape text, ?_⟩
  simp only [List.mem_flatMap, not_exists, not_and]
  intro c _ hmem
  rcases escapeLiteralChar_cases c with ⟨d, he, hd⟩ | ⟨he, -, -, -, -, hr⟩
  · obtain rfl : d = '\r' := by simpa [he, eq_comm] using hmem
    simp [escapedChar?] at hd
  · obtain rfl : '\r' = c := by simpa [he] using hmem
    exact hr rfl

end TypedRoutes.Template

namespace TypedRoutes.Script
open TypedRoutes.Text TypedRoutes.Template

/-! ## Literals -/

theorem joinUnits_toNat (cs : List Char) : joinUnits (cs.map Char.toNat) = cs := by
  have hscalar (c : Char) : ¬(0xD800 ≤ c.toNat ∧ c.toNat < 0xE000) := by
    have hvalid : c.toNat < 0xD800 ∨ 0xDFFF < c.toNat ∧ c.toNat < 0x110000 := c.valid
    omega
  induction cs with
  | nil => rfl
  | cons c cs ih =>
    have hc := hscalar c
    cases cs with
    | nil => simp [joinUnits, hc]
    | cons d cs =>
      rw [List.map_cons, List.map_cons, joinUnits, ← List.map_cons, ih, if_neg, if_neg,
        Char.ofNat_toNat]
      · simpa using hc
      · simp
        omega

theorem isOctalDigit_of_isDigit {c : Char} (h : c.isDigit = false) : isOctalDigit c = false := by
  rw [← Bool.not_eq_true, Char.isDigit_iff_toNat] at h
  rw [← Bool.not_eq_true, isOctalDigit, Bool.and_eq_true, decide_eq_true_eq, decide_eq_true_eq]
  rintro ⟨hlow, hhigh⟩
  exact h ⟨hlow, Nat.le_trans (m := '7'.toNat) hhigh (by decide)⟩

theorem readString_escaped {c d : Char} (h : escapedChar? d = some c) (quote : Char) (fuel : Nat)
    (cs : List Char) : readString quote (fuel + 1) ('\\' :: d :: cs) =
      (readString quote fuel cs).map fun (values, n, rest) => (c.toNat :: values, n + 2, rest) := by
  have hcontinue (value : Nat) : (do
      let (values, n, rest) ← readString quote fuel cs
      return ([value] ++ values, 2 + n, rest)) =
      (readString quote fuel cs).map fun (values, n, rest) => (value :: values, n + 2, rest) := by
    cases readString quote fuel cs <;> simp [Nat.add_comm]
  unfold escapedChar? at h
  split at h
  case h_13 hx hu hn hr hl hp =>
    split at h
    · cases h
    · rename_i hdigit
      obtain rfl := Option.some.inj h
      have hbreak : isLineBreak d = false := by
        simp only [isLineBreak, Bool.or_eq_false_iff, beq_eq_false_iff_ne]
        exact ⟨⟨⟨hn, hr⟩, hl⟩, hp⟩
      have hoctal : isOctalDigit d = false := isOctalDigit_of_isDigit (by simpa using hdigit)
      have hsimple : simpleEscape d = d := by
        unfold simpleEscape
        split <;> simp_all
      rw [readString, if_neg (by simp [hbreak]), if_neg (by simp [hoctal]), hsimple]
      · exact hcontinue _
      · exact fun _ h => absurd h hr
      · exact fun _ _ _ h => absurd h hx
      · exact hx
      · exact hu
  all_goals
    cases h <;> exact hcontinue _

theorem readString_plain {c quote : Char} (hq : c ≠ quote) (hb : c ≠ '\\') (hn : c ≠ '\n')
    (hr : c ≠ '\r') (fuel : Nat) (cs : List Char) : readString quote (fuel + 1) (c :: cs) =
      (readString quote fuel cs).map fun (values, n, rest) => (c.toNat :: values, n + 1, rest) := by
  rw [readString]
  · simp only [beq_iff_eq, hq, hn, hr, Bool.or_eq_true, or_self, if_false]
    cases readString quote fuel cs <;> simp [Nat.add_comm]
  all_goals simp [hb]

/-- A literal ends at the quote put after the escaped text, and its value is the text. -/
theorem readString_escape {quote : Char} (hq : quote = '\'' ∨ quote = '"')
    (text rest : List Char) {fuel : Nat} (hfuel : text.length < fuel) :
    readString quote fuel (text.flatMap escapeLiteralChar ++ quote :: rest) =
      some (text.map Char.toNat, (text.flatMap escapeLiteralChar).length + 1, rest) := by
  induction text generalizing fuel with
  | nil =>
    obtain ⟨fuel, rfl⟩ := Nat.exists_eq_succ_of_ne_zero (Nat.ne_zero_of_lt hfuel)
    rcases hq with rfl | rfl <;> simp [readString]
  | cons c cs ih =>
    obtain ⟨fuel, rfl⟩ := Nat.exists_eq_succ_of_ne_zero (Nat.ne_zero_of_lt hfuel)
    have hcs := ih (Nat.lt_of_succ_lt_succ hfuel)
    rw [List.flatMap_cons, List.append_assoc, List.length_append]
    rcases escapeLiteralChar_cases c with ⟨d, he, hd⟩ | ⟨he, hb, hs, hdq, hn, hr⟩
    · rw [he, List.cons_append, List.cons_append, List.nil_append, readString_escaped hd, hcs]
      simp [Nat.add_comm, Nat.add_left_comm]
    · have hne : c ≠ quote := by rcases hq with rfl | rfl <;> assumption
      rw [he, List.cons_append, List.nil_append, readString_plain hne hb hn hr, hcs]
      simp [Nat.add_comm]

/-- An escaped text between quotes is one literal, whatever follows its closing quote. -/
theorem readBareToken_literal {quote : Char} (hq : quote = '\'' ∨ quote = '"')
    (s : String) (rest : List Char) :
    readBareToken (quote :: (s.toList.flatMap escapeLiteralChar ++ quote :: rest)) =
      (.string s, (s.toList.flatMap escapeLiteralChar).length + 2, rest) := by
  have hfuel : s.toList.length <
      (s.toList.flatMap escapeLiteralChar ++ quote :: rest).length + 1 := by
    have hlength := length_le_escape s.toList
    rw [List.length_append]
    omega
  have hread := readString_escape hq s.toList rest hfuel
  rcases hq with rfl | rfl <;>
    simp only [readBareToken, hread, joinUnits_toNat, String.ofList_toList]

/-! ## Words -/

/-- A name that a script may use: a character that begins names, and others that continue them. -/
def IsIdentifier (name : String) : Prop :=
  ∃ c cs, name.toList = c :: cs ∧ isIdentifierStart c = true ∧
    ∀ d ∈ cs, isIdentifierPart d = true

theorem isIdentifier_of_cons {name : String} {c : Char} {cs : List Char}
    (hname : name.toList = c :: cs) (hstart : isIdentifierStart c = true)
    (hpart : cs.all isIdentifierPart = true) : IsIdentifier name :=
  ⟨c, cs, hname, hstart, List.all_eq_true.1 hpart⟩

def EndsWord (text : List Char) : Prop :=
  ∀ c ∈ text.head?, isIdentifierPart c = false ∧ c ≠ '\\'

theorem endsWord_cons {c : Char} (hpart : isIdentifierPart c = false) (hescape : c ≠ '\\')
    (cs : List Char) : EndsWord (c :: cs) := by
  rintro _ ⟨⟩
  exact ⟨hpart, hescape⟩

theorem isIdentifierPart_of_start {c : Char} (h : isIdentifierStart c = true) :
    isIdentifierPart c = true := by
  unfold isIdentifierPart
  split
  · rename_i hascii
    rw [isIdentifierStart, if_pos hascii] at h
    simp only [Bool.or_eq_true] at h ⊢
    exact h.imp_left (Or.imp_left fun halpha => by simp [Char.isAlphanum, halpha])
  · simp [h]

/-- The code points at which blanks and ends of lines stand. -/
def blankPoints : List Nat :=
  List.range' 0x09 5 ++ List.range' 0x2000 11 ++
    [0x20, 0x85, 0xA0, 0x1680, 0x2028, 0x2029, 0x202F, 0x205F, 0x3000, 0xFEFF]

theorem mem_blankPoints {c : Char} (h : isLineBreak c = true ∨ isBlank c = true) :
    c.toNat ∈ blankPoints := by
  simp only [blankPoints, List.mem_append, List.mem_range'_1, List.mem_cons, List.not_mem_nil,
    or_false]
  rcases h with h | h
  · simp only [isLineBreak, Bool.or_eq_true, beq_iff_eq] at h
    rcases h with ((rfl | rfl) | rfl) | rfl <;> decide
  · simp only [isBlank, isWhitespace, Bool.and_eq_true, Bool.or_eq_true, beq_iff_eq,
      decide_eq_true_eq] at h
    rcases h.2 with hspace | rfl
    · omega
    · decide

theorem isIdentifierStart_blankPoint :
    ∀ n ∈ blankPoints, isIdentifierStart (Char.ofNat n) = false := by
  -- the table is searched as a list, which is evaluated faster
  simp only [isIdentifierStart, isAlphabetic, inRanges, ← Array.any_toList]
  decide +kernel

/-- A token begins with the character: it is no blank, and no comment begins with it. -/
def OpensToken (c : Char) : Prop :=
  isLineBreak c = false ∧ isBlank c = false ∧ c ∉ ['/', '<', '-']

instance (c : Char) : Decidable (OpensToken c) :=
  inferInstanceAs (Decidable (isLineBreak c = false ∧ isBlank c = false ∧ c ∉ ['/', '<', '-']))

theorem opensToken_of_start {c : Char} (h : isIdentifierStart c = true) : OpensToken c := by
  have hvisible : ¬(isLineBreak c = true ∨ isBlank c = true) := by
    intro hblank
    have hfalse := isIdentifierStart_blankPoint _ (mem_blankPoints hblank)
    rw [Char.ofNat_toNat, h] at hfalse
    cases hfalse
  simp only [not_or, Bool.not_eq_true] at hvisible
  refine ⟨hvisible.1, hvisible.2, fun hmem => ?_⟩
  simp only [List.mem_cons, List.not_mem_nil, or_false] at hmem
  rcases hmem with rfl | rfl | rfl <;> exact absurd h (by decide)

theorem isDigit_of_start {c : Char} (h : isIdentifierStart c = true) : c.isDigit = false := by
  have hdigits : ∀ n ∈ List.range' 48 10, isIdentifierStart (Char.ofNat n) = false := by decide
  rw [← Bool.not_eq_true, Char.isDigit_iff_toNat]
  intro hc
  have hfalse := hdigits c.toNat (List.mem_range'_1.2 ⟨hc.1, Nat.lt_succ_of_le hc.2⟩)
  rw [Char.ofNat_toNat, h] at hfalse
  cases hfalse

theorem readBareToken_word {name : String} (hname : IsIdentifier name) {rest : List Char}
    (hrest : EndsWord rest) :
    readBareToken (name.toList ++ rest) = (.word name false, name.toList.length, rest) := by
  obtain ⟨c, cs, hchars, hstart, hparts⟩ := hname
  have hrun : (name.toList ++ rest).takeWhile isIdentifierPart = name.toList := by
    have hall : ∀ d ∈ name.toList, isIdentifierPart d = true := by
      rw [hchars, List.forall_mem_cons]
      exact ⟨isIdentifierPart_of_start hstart, hparts⟩
    rw [List.takeWhile_append_of_pos hall]
    cases rest with
    | nil => simp
    | cons d ds => simp [(hrest d rfl).1]
  have hother {d : Char} (hd : isIdentifierStart d = false) : c ≠ d := by
    rintro rfl
    exact absurd (hstart.symm.trans hd) (by decide)
  have hopen : (isIdentifierStart c || c == '\\') = true := by rw [hstart, Bool.true_or]
  rw [hchars, List.cons_append] at hrun ⊢
  rw [readBareToken, if_neg (by simp [isDigit_of_start hstart]), if_pos hopen]
  · dsimp only
    rw [hrun, ← List.cons_append, List.drop_left, ← hchars, String.ofList_toList]
    split
    · exact absurd rfl (hrest _ rfl).2
    · rfl
  · exact hother (by decide)
  · exact hother (by decide)
  · exact hother (by decide)
  · exact fun _ _ hdot => absurd hdot (hother (by decide))

/-! ## Lines of tokens -/

theorem skipTrivia_opensToken {c : Char} (h : OpensToken c) (n : Nat) (broken : Bool)
    (cs : List Char) : skipTrivia .blank n broken (c :: cs) = (n, broken, c :: cs) := by
  obtain ⟨hbreak, hblank, hcomment⟩ := h
  simp only [List.mem_cons, List.not_mem_nil, or_false, not_or] at hcomment
  rw [skipTrivia, hbreak, hblank]
  · rfl
  all_goals simp [hcomment]

/-- Wherever a text stands, it is read as these tokens up to its end. -/
inductive ReadsAs : List Char → List Token → Prop
  | done {text : List Char} (h : ∀ position atStart,
      (readToken position atStart text).token = .endOfText) : ReadsAs text []
  | next {text rest : List Char} {t : Token} {ts : List Token}
      (h : ∀ position atStart, (readToken position atStart text).token = t ∧
        (readToken position atStart text).after = rest)
      (ht : t ≠ .endOfText) (hrest : ReadsAs rest ts) : ReadsAs text (t :: ts)

def BeginsToken (text : List Char) : Prop := ∃ c cs, text = c :: cs ∧ OpensToken c

theorem readToken_beginsToken {text : List Char} (h : BeginsToken text) (position : Nat)
    (atStart : Bool) : (readToken position atStart text).token = (readBareToken text).1 ∧
      (readToken position atStart text).after = (readBareToken text).2.2 := by
  obtain ⟨c, cs, rfl, hc⟩ := h
  simp only [readToken, skipTrivia_opensToken hc, and_self]

theorem readToken_blank {text : List Char} (h : BeginsToken text) (position : Nat)
    (atStart : Bool) : readToken position atStart (' ' :: text) =
      readToken (position + 1) atStart text := by
  obtain ⟨c, cs, rfl, hc⟩ := h
  have hblank : skipTrivia .blank 0 atStart (' ' :: c :: cs) = (1, atStart, c :: cs) := by
    rw [skipTrivia, if_neg (by decide), if_pos (by decide), skipTrivia_opensToken hc]
    all_goals simp
  simp only [readToken, hblank, skipTrivia_opensToken hc, Nat.add_zero]

theorem beginsToken_word {name : String} (hname : IsIdentifier name) (rest : List Char) :
    BeginsToken (name.toList ++ rest) := by
  obtain ⟨c, cs, hchars, hstart, -⟩ := hname
  exact ⟨c, cs ++ rest, by rw [hchars, List.cons_append], opensToken_of_start hstart⟩

namespace ReadsAs
variable {text rest : List Char} {ts : List Token}

theorem nil : ReadsAs [] [] := .done fun _ _ => rfl

theorem unique {ts' : List Token} (h : ReadsAs text ts) (h' : ReadsAs text ts') : ts = ts' := by
  induction h generalizing ts' with
  | done hend =>
    cases h' with
    | done => rfl
    | next hnext ht => exact absurd ((hnext 0 true).1.symm.trans (hend 0 true)) ht
  | next hnext ht _ ih =>
    cases h' with
    | done hend => exact absurd ((hnext 0 true).1.symm.trans (hend 0 true)) ht
    | next hnext' _ hrest' =>
      obtain ⟨rfl, rfl⟩ := hnext 0 true
      obtain ⟨rfl, rfl⟩ := hnext' 0 true
      exact congrArg _ (ih hrest')

theorem token {t : Token} {n : Nat} (hbegins : BeginsToken text)
    (hbare : readBareToken text = (t, n, rest)) (ht : t ≠ .endOfText) (hrest : ReadsAs rest ts) :
    ReadsAs text (t :: ts) := by
  refine .next (fun position atStart => ?_) ht hrest
  have hread := readToken_beginsToken hbegins position atStart
  rwa [hbare] at hread

theorem blank (hbegins : BeginsToken text) (h : ReadsAs text ts) : ReadsAs (' ' :: text) ts := by
  cases h with
  | done h => exact .done fun _ _ => by rw [readToken_blank hbegins, h]
  | next h ht hrest =>
    refine .next (fun position atStart => ?_) ht hrest
    rw [readToken_blank hbegins]
    exact h _ _

theorem word {name : String} (hname : IsIdentifier name) (hends : EndsWord rest)
    (hrest : ReadsAs rest ts) : ReadsAs (name.toList ++ rest) (.word name false :: ts) :=
  token (beginsToken_word hname rest) (readBareToken_word hname hends) nofun hrest

theorem literal (value : String) (hrest : ReadsAs rest ts) :
    ReadsAs ('\'' :: (value.toList.flatMap escapeLiteralChar ++ '\'' :: rest))
      (.string value :: ts) :=
  token ⟨_, _, rfl, by decide⟩ (readBareToken_literal (.inl rfl) value rest) nofun hrest

theorem punct {c : Char} {spelling : String} (hc : OpensToken c)
    (hbare : readBareToken (c :: rest) = (.punct spelling, 1, rest)) (hrest : ReadsAs rest ts) :
    ReadsAs (c :: rest) (.punct spelling :: ts) :=
  token ⟨_, _, rfl, hc⟩ hbare nofun hrest

end ReadsAs

end TypedRoutes.Script

namespace TypedRoutes.Render
open TypedRoutes.Text TypedRoutes.Template TypedRoutes.Script

/-! ## Fragments -/

def importTokens (name source : String) : List Token :=
  [.word "import" false, .word name false, .word "from" false, .string source, .punct ";"]

/-- The tokens of the route that leads from a path to a name. -/
def RouteStyle.tokens (path name : String) : RouteStyle → List Token
  | table => [.string ("POST " ++ path), .punct ":", .word name false, .punct ","]
  | register =>
    [.word "app" false, .punct ".", .word "post" false, .punct "(", .string path, .punct ",",
     .word name false, .punct ")", .punct ";"]

section
variable {name : String} (hname : IsIdentifier name)
include hname

theorem readsAs_importLine (source : String) :
    ReadsAs (importLine name source).toList (importTokens name source) := by
  have hline : (importLine name source).toList =
      "import".toList ++ ' ' :: (name.toList ++ ' ' :: ("from".toList ++ ' ' ::
        '\'' :: (source.toList.flatMap escapeLiteralChar ++ '\'' :: [';']))) := by
    simp [importLine]
  have hblank (cs : List Char) : EndsWord (' ' :: cs) := endsWord_cons (by decide) (by decide) cs
  have himport : IsIdentifier "import" := isIdentifier_of_cons rfl (by decide) (by decide)
  have hfrom : IsIdentifier "from" := isIdentifier_of_cons rfl (by decide) (by decide)
  rw [hline]
  refine .word himport (hblank _) (.blank (beginsToken_word hname _) ?_)
  refine .word hname (hblank _) (.blank (beginsToken_word hfrom _) ?_)
  refine .word hfrom (hblank _) (.blank ⟨_, _, rfl, by decide⟩ ?_)
  exact .literal source (.punct (by decide) rfl .nil)

theorem readsAs_routeLine (style : RouteStyle) (path : String) :
    ReadsAs (routeLine style path name).toList (style.tokens path name) := by
  cases style with
  | table =>
    have hpost : "POST ".toList.flatMap escapeLiteralChar = "POST ".toList := by decide
    have hline : (routeLine .table path name).toList =
        '\'' :: (("POST " ++ path).toList.flatMap escapeLiteralChar ++
          '\'' :: ':' :: ' ' :: (name.toList ++ [','])) := by
      rw [String.toList_append, List.flatMap_append, hpost]
      simp [routeLine, RouteStyle.opening, RouteStyle.middle, RouteStyle.ending]
    rw [hline]
    refine .literal ("POST " ++ path) ?_
    refine .punct (by decide) rfl (.blank (beginsToken_word hname _) ?_)
    exact .word hname (endsWord_cons (by decide) (by decide) _) (.punct (by decide) rfl .nil)
  | register =>
    have hline : (routeLine .register path name).toList =
        "app".toList ++ '.' :: ("post".toList ++ '(' :: '\'' ::
          (path.toList.flatMap escapeLiteralChar ++ '\'' :: ',' :: ' ' ::
            (name.toList ++ [')', ';']))) := by
      simp [routeLine, RouteStyle.opening, RouteStyle.middle, RouteStyle.ending]
    have happ : IsIdentifier "app" := isIdentifier_of_cons rfl (by decide) (by decide)
    have hpost : IsIdentifier "post" := isIdentifier_of_cons rfl (by decide) (by decide)
    rw [hline]
    refine .word happ (endsWord_cons (by decide) (by decide) _) (.punct (by decide) rfl ?_)
    refine .word hpost (endsWord_cons (by decide) (by decide) _) (.punct (by decide) rfl ?_)
    refine .literal path (.punct (by decide) rfl (.blank (beginsToken_word hname _) ?_))
    refine .word hname (endsWord_cons (by decide) (by decide) _) (.punct (by decide) rfl ?_)
    exact .punct (by decide) rfl .nil

theorem oneLine_of_isIdentifier : OneLine name.toList := by
  obtain ⟨c, cs, hchars, hstart, hparts⟩ := hname
  have hall : ∀ d ∈ name.toList, isIdentifierPart d = true := by
    rw [hchars, List.forall_mem_cons]
    exact ⟨isIdentifierPart_of_start hstart, hparts⟩
  exact ⟨fun h => absurd (hall _ h) (by decide), fun h => absurd (hall _ h) (by decide)⟩

theorem oneLine_importLine (source : String) : OneLine (importLine name source).toList := by
  simp only [importLine, String.toList_append, oneLine_append, toList_escapeLiteral]
  exact ⟨⟨⟨⟨by decide, oneLine_of_isIdentifier hname⟩, by decide⟩, oneLine_escape _⟩, by decide⟩

theorem oneLine_routeLine (style : RouteStyle) (path : String) :
    OneLine (routeLine style path name).toList := by
  simp only [routeLine, String.toList_append, oneLine_append, toList_escapeLiteral]
  refine ⟨⟨⟨⟨⟨?_, oneLine_escape _⟩, by decide⟩, ?_⟩, oneLine_of_isIdentifier hname⟩, ?_⟩ <;>
    cases style <;> decide

end

/-- What is written between quotes is the text it is read as.  The escaped text is made by replacing
one character after the other; it takes one line, the quote put after it is the first that no
backslash escapes, and between two quotes of either kind it is a literal with the text as its value.
So the imports and routes of any path are single lines whose only literal holds that path. -/
theorem literals_read_back (s : String) :
    (escapeLiteral s).toList =
      literalSpellings.foldl (fun text (c, spelling) => replaceChar c spelling text) s.toList ∧
    OneLine (escapeLiteral s).toList ∧
    (∀ quote ∈ ['\'', '"'],
      closingQuote? quote ((escapeLiteral s).toList ++ [quote]) =
          some (escapeLiteral s).toList.length ∧
        ∀ rest, readBareToken (quote :: ((escapeLiteral s).toList ++ quote :: rest)) =
          (.string s, (escapeLiteral s).toList.length + 2, rest)) ∧
    ∀ name, IsIdentifier name →
      (∃ line, renderFragment importFragment [("alias", .string name), ("source", .string s)] =
          .ok line ∧ OneLine line.toList ∧ ReadsAs line.toList (importTokens name s)) ∧
      ∀ style : RouteStyle, ∃ line,
        renderFragment style.fragment [("alias", .string name), ("path", .string s)] = .ok line ∧
          OneLine line.toList ∧ ReadsAs line.toList (style.tokens s name) := by
  rw [toList_escapeLiteral]
  refine ⟨(successive_replacements _).symm, oneLine_escape _, fun quote hmem => ?_,
    fun name hname => ⟨?_, fun style => ?_⟩⟩
  · have hq : quote = '\'' ∨ quote = '"' := by simpa using hmem
    exact ⟨closingQuote?_escape hq s.toList [], readBareToken_literal hq s⟩
  · exact ⟨_, renderFragment_import name s, oneLine_importLine hname s,
      readsAs_importLine hname s⟩
  · exact ⟨_, renderFragment_route style s name, oneLine_routeLine hname style s,
      readsAs_routeLine hname style s⟩

/-- A path with everything that could end a literal or a line too early. -/
theorem awkwardPath_read_back :
    '"' ∈ ['\'', '"'] ∧ IsIdentifier "list" ∧
      readBareToken ('"' :: ((escapeLiteral "it's\\\"\r\n").toList ++ '"' :: ", 'x'".toList)) =
        (.string "it's\\\"\r\n", 15, ", 'x'".toList) ∧
      ∃ line, renderFragment importFragment
          [("alias", .string "list"), ("source", .string "it's\\\"\r\n")] = .ok line ∧
        OneLine line.toList ∧ ReadsAs line.toList (importTokens "list" "it's\\\"\r\n") := by
  have hname : IsIdentifier "list" := isIdentifier_of_cons rfl (by decide) (by decide)
  obtain ⟨-, -, hliteral, hfragment⟩ := literals_read_back "it's\\\"\r\n"
  have hdouble : '"' ∈ ['\'', '"'] := by decide
  refine ⟨hdouble, hname, ((hliteral '"' hdouble).2 _).trans ?_, (hfragment "list" hname).1⟩
  rw [show (escapeLiteral "it's\\\"\r\n").toList.length + 2 = 15 by decide]

end TypedRoutes.Render
