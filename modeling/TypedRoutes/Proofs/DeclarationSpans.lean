import TypedRoutes.Proofs.ParserReplies
import TypedRoutes.Script.Module

/-! # Where declarations of types stand

Each type that a module declares comes with the span of its declaration.  The span begins with a
keyword, or with the word `export` and then a keyword or a decorator; it ends after these.
-/

namespace TypedRoutes.Script

/-- The span of a declaration of a type, if the item is one. -/
def Item.span? : Item → Option Span
  | .typeDeclaration _ span => some span
  | _ => none

/-- Words that a declaration of a type may begin with. -/
def declarationWords : List String :=
  ["abstract", "const", "declare", "enum", "interface", "static", "type"]

/-- A declaration of a type may begin with the token after the word `export`. -/
def Token.BeginsDeclaration (t : Token) : Prop :=
  t = .punct "@" ∨ ∃ s ∈ declarationWords, t = .word s false

theorem Token.eq_punct {t : Token} {spelling : String} (h : t.isPunct spelling = true) :
    t = .punct spelling := by
  cases t <;> simp_all [Token.isPunct]

theorem Token.eq_word {t : Token} {name : String} (h : t.isWord name = true) :
    t = .word name false := by
  unfold Token.isWord at h
  split at h
  · rw [beq_iff_eq.1 h]
  · cases h

/-- Between the first cursor and the second nothing stands, or what a declaration begins with. -/
def Cursor.Begun (c c' : Cursor) : Prop :=
  c' = c ∨ c.lexeme.token.BeginsDeclaration ∧ c.lexeme.stop ≤ c'.previousStop

/-- The span begins at a position and goes on at least to another. -/
structure Span.Covers (span : Span) (start stop : Nat) : Prop where
  start_eq : span.start = start
  le_stop : stop ≤ span.stop

theorem Span.Covers.mono {span : Span} {start stop stop' : Nat} (h : span.Covers start stop')
    (hle : stop ≤ stop') : span.Covers start stop :=
  ⟨h.start_eq, Nat.le_trans hle h.le_stop⟩

/-- The span is one of a declaration in the text. -/
inductive Span.Declares (text : List Char) (span : Span) : Prop
  | plain {c : Cursor} {s : String} (hin : c.IsIn text) (hword : s ∈ declarationWords)
      (htoken : c.lexeme.token = .word s false)
      (hcovers : span.Covers c.lexeme.start c.lexeme.stop)
  | exported {c : Cursor} (hin : c.IsIn text) (htoken : c.lexeme.token = .word "export" false)
      (hnext : c.next.lexeme.token.BeginsDeclaration)
      (hcovers : span.Covers c.lexeme.start c.next.lexeme.stop)

theorem Span.declares_of_begins {text : List Char} {span : Span} {c : Cursor} (hin : c.IsIn text)
    (hbegins : c.lexeme.token.BeginsDeclaration) (hname : c.lexeme.token.isName = true)
    (hcovers : span.Covers c.lexeme.start c.lexeme.stop) : span.Declares text := by
  rcases hbegins with hsign | ⟨word, hword, htoken⟩
  · rw [hsign] at hname
    cases hname
  · exact .plain hin hword htoken hcovers

namespace Grammar
open TypedRoutes.Script.Parser

/-- The item declares a type only at such a span. -/
def Declaring (P : Span → Prop) (item : Item) (_ : Cursor) : Prop := ∀ span ∈ item.span?, P span

/-- So does the item, if there is one; else nothing was passed but what a declaration begins with. -/
structure MayDeclare (P : Span → Prop) (c : Cursor) (found : Option Item) (c' : Cursor) : Prop where
  declares : ∀ item ∈ found, Declaring P item c'
  begun : found = none → c.Begun c'

theorem MayDeclare.mono {P P' : Span → Prop} {c c' : Cursor} {found : Option Item}
    (h : MayDeclare P c found c') (himp : ∀ span, P span → P' span) : MayDeclare P' c found c' :=
  ⟨fun item hitem span hspan => himp span (h.declares item hitem span hspan), h.begun⟩

theorem gives_some {p : Parser Item} {c c' : Cursor} {P : Span → Prop}
    (h : p.Gives c' (Declaring P)) : (do return some (← p)).Gives c' (MayDeclare P c) :=
  gives_bind <| h.mono fun item _ hspans => gives_pure
    ⟨fun found hfound => by rwa [← Option.some.inj hfound], nofun⟩

theorem mayDeclare_none {c : Cursor} {P : Span → Prop} : MayDeclare P c none c :=
  ⟨nofun, fun _ => .inl rfl⟩

theorem gives_none {c : Cursor} {P : Span → Prop} :
    (pure none : Parser (Option Item)).Gives c (MayDeclare P c) :=
  gives_pure mayDeclare_none

def DeclaresNone (p : Parser Item) : Prop := ∀ c P, p.Gives c (Declaring P)

namespace DeclaresNone
variable {α : Type} {p q : Parser Item}

theorem pure {item : Item} (h : item.span? = none) : DeclaresNone (pure item) :=
  fun _ _ => gives_pure fun span hspan => by simp [h] at hspan

theorem fail : DeclaresNone fail := fun _ _ => gives_fail

theorem bind {p : Parser α} {f : α → Parser Item} (h : ∀ a, DeclaresNone (f a)) :
    DeclaresNone (p >>= f) :=
  fun _ P => gives_bind fun _ a c' _ => h a c' P

theorem ite {b : Prop} [Decidable b] (hp : DeclaresNone p) (hq : DeclaresNone q) :
    DeclaresNone (if b then p else q) := by
  split
  · exact hp
  · exact hq

end DeclaresNone

theorem gives_other {p : Parser Unit} {c c' : Cursor} {P : Span → Prop} :
    (do p; return some Item.other).Gives c' (MayDeclare P c) :=
  gives_bind fun _ _ _ _ => gives_some (DeclaresNone.pure rfl _ _)

variable (r : Recursion)

/-! ## Other items -/

theorem declaresNone_namedClass : DeclaresNone (namedClass r) :=
  .bind fun _ => .ite (.bind fun _ => .pure rfl) (.pure rfl)

theorem declaresNone_functionDeclaration (asynchronous : Bool) :
    DeclaresNone (functionDeclaration r asynchronous) :=
  .bind fun _ => .bind fun _ => .bind fun _ => .bind fun _ => .pure rfl

theorem declaresNone_exports : DeclaresNone (importRest r) ∧ DeclaresNone (exportDefault r) ∧
    DeclaresNone (exportFrom r) ∧ DeclaresNone (exportList r) ∧ DeclaresNone (exportAll r) := by
  unfold importRest exportDefault exportFrom exportList exportAll exportFromRest defaultFunction
  refine ⟨?_, ?_, ?_, ?_, ?_⟩
  all_goals repeat' first
    | exact .pure rfl
    | exact .fail
    | apply DeclaresNone.bind; intro _
    | apply DeclaresNone.ite
    | split
    | dsimp only

theorem declaresNone_labelOrExpression : DeclaresNone (labelOrExpression r) := by
  unfold labelOrExpression
  refine .bind fun _ => .bind fun _ => .ite (.bind fun _ => .pure rfl) ?_
  refine .bind fun _ => .bind fun _ => .ite (.bind fun _ => .pure rfl) ?_
  refine .bind fun _ => .ite (.pure rfl) ?_
  exact .bind fun _ => .ite (.bind fun _ => .pure rfl) .fail

/-! ## Declarations of types -/

section Declarations
variable {text : List Char} {c : Cursor} {start : Nat}

theorem gives_typeItem (name : String) {stop : Nat} (hstop : stop ≤ c.previousStop) :
    (typeItem start name).Gives c (Declaring (·.Covers start stop)) := by
  refine gives_previousStop.2 (gives_pure ?_)
  rintro _ ⟨⟩
  exact ⟨rfl, hstop⟩

variable (hin : c.IsIn text)
include hin

theorem gives_typeItem_rest (rest : Parser String) {stop : Nat} (hstop : stop ≤ c.previousStop) :
    (do typeItem start (← rest)).Gives c (Declaring (·.Covers start stop)) :=
  gives_bind_forward hin fun name _ _ hle => gives_typeItem name (Nat.le_trans hstop hle)

theorem gives_some_typeItem_rest {c' : Cursor} (rest : Parser String) {stop : Nat}
    (hstop : stop ≤ c.previousStop) :
    (do return some (← typeItem start (← rest))).Gives c (MayDeclare (·.Covers start stop) c') :=
  gives_bind_forward hin fun name _ _ hle =>
    gives_some (gives_typeItem name (Nat.le_trans hstop hle))

theorem gives_wordDeclaration (word : String) (declared : Bool) :
    (wordDeclaration r start word declared).Gives c (MayDeclare (fun span =>
      word ∈ declarationWords ∧ span.Covers start c.lexeme.stop) c) := by
  have htype (rest : Parser String) {word : String} (hword : word ∈ declarationWords) :
      (do advance; return some (← typeItem start (← rest))).Gives c (MayDeclare (fun span =>
        word ∈ declarationWords ∧ span.Covers start c.lexeme.stop) c) :=
    gives_advance.2 <| (gives_some_typeItem_rest hin.next rest (Nat.le_refl _)).mono
      fun _ _ hspans => hspans.mono fun _ hcovers => ⟨hword, hcovers⟩
  have hclass {P : Span → Prop} :
      (do advance; return some (← namedClass r)).Gives c (MayDeclare P c) :=
    gives_advance.2 (gives_some (declaresNone_namedClass r _ _))
  have hother {p : Parser Unit} {P : Span → Prop} :
      (do advance; p; return some Item.other).Gives c (MayDeclare P c) :=
    gives_advance.2 gives_other
  unfold wordDeclaration
  rw [gives_peek]
  dsimp only
  rw [gives_newline]
  split
  · exact gives_ite (fun _ => hclass) fun _ => gives_none
  · exact htype (enumRest r) (by decide)
  · exact gives_ite (fun _ => htype (interfaceRest r) (by decide)) fun _ => gives_none
  · exact gives_ite (fun _ => hother) fun _ => gives_none
  · refine gives_ite (fun _ => ?_) fun _ => gives_none
    split
    · exact hother
    · exact gives_ite (fun _ => hother) fun _ => gives_none
  · exact gives_ite (fun _ => htype (aliasRest r) (by decide)) fun _ => gives_none
  · exact gives_ite (fun _ => hother) fun _ => gives_none
  · exact gives_none

theorem gives_ambientDeclaration :
    (ambientDeclaration r start).Gives c (MayDeclare (·.Covers start c.lexeme.stop) c) := by
  apply gives_within
  rw [gives_token]
  split
  · exact gives_some (declaresNone_functionDeclaration r false _ _)
  · exact gives_some (declaresNone_namedClass r _ _)
  · refine gives_advance.2 (gives_bind_forward hin.next fun isEnum c' hin' hle => ?_)
    exact gives_ite (fun _ => gives_some_typeItem_rest hin' (enumRest r) hle) fun _ => gives_other
  · exact gives_advance.2 gives_other
  · exact gives_advance.2 gives_other
  · exact gives_advance.2 (gives_some (declaresNone_functionDeclaration r true _ _))
  · exact (gives_wordDeclaration r hin _ true).mono fun _ _ hspans => hspans.mono fun _ h => h.2
  · exact gives_none

theorem gives_declare (htoken : c.lexeme.token = .word "declare" false) :
    (do advance; ambientDeclaration r start).Gives c (MayDeclare (fun span =>
      c.lexeme.token.BeginsDeclaration ∧ span.Covers start c.lexeme.stop) c) := by
  have hbegins : c.lexeme.token.BeginsDeclaration := .inr ⟨"declare", by decide, htoken⟩
  rw [gives_advance]
  refine ((gives_ambientDeclaration r hin.next).and (gives_forward _ hin.next)).mono
    fun found c' ⟨hspans, _, hle⟩ => ⟨?_, fun _ => .inr ⟨hbegins, hle⟩⟩
  exact (hspans.mono fun span hcovers => ⟨hbegins, hcovers.mono hin.stop_le_next⟩).declares

theorem gives_exportedWord :
    (exportedWord r start).Gives c (MayDeclare (fun span =>
      c.lexeme.token.BeginsDeclaration ∧ span.Covers start c.lexeme.stop) c) := by
  unfold exportedWord
  rw [gives_token]
  split
  · rename_i word htoken
    refine gives_ite (fun _ => ?_) fun _ => gives_ite (fun hdeclare => ?_) fun _ => gives_none
    · refine gives_bind (gives_attempt ?_ gives_none)
      refine (gives_wordDeclaration r hin word true).mono fun found c' hspans => gives_pure ?_
      exact hspans.mono fun span h => ⟨.inr ⟨word, h.1, htoken⟩, h.2⟩
    · rw [beq_iff_eq.1 hdeclare] at htoken
      exact gives_declare r hin htoken
  · exact gives_none

/-- After what a declaration begins with, anything may be passed. -/
theorem gives_begun {α : Type} {c' : Cursor} (hbegins : c'.lexeme.token.BeginsDeclaration)
    (hle : c'.lexeme.stop ≤ c.previousStop) (p : Parser α) :
    p.Gives c fun _ c'' => c''.IsIn text ∧ c'.lexeme.stop ≤ c''.previousStop ∧ c'.Begun c'' :=
  (gives_forward p hin).mono fun _ _ h =>
    ⟨h.1, Nat.le_trans hle h.2, .inr ⟨hbegins, Nat.le_trans hle h.2⟩⟩

theorem gives_decorators : (decorators r).Gives c fun _ c' => c.Begun c' := by
  unfold decorators many
  apply gives_typed
  intro isTyped
  refine gives_bind (gives_bind fun x _ _ hcontext => ?_)
  cases hcontext
  generalize x.rounds = rounds
  cases rounds with
  | zero => exact gives_fail
  | succ rounds =>
    refine gives_bind (gives_eatIf.2 ?_)
    split
    · rename_i hsign
      have hbegins : c.lexeme.token.BeginsDeclaration := .inl (Token.eq_punct hsign)
      refine (gives_begun hin.next hbegins (Nat.le_refl _) _).mono fun _ _ ⟨hin', hle', _⟩ => ?_
      refine (gives_begun hin' hbegins hle' _).mono fun _ _ ⟨_, _, hbegun⟩ => gives_pure hbegun
    · rw [Bool.and_false]
      exact gives_pure (gives_pure (gives_pure (.inl rfl)))

theorem gives_exportedForm (isTyped : Bool) (next : Lexeme) :
    (exportedForm r start isTyped next).Gives c (Declaring fun span =>
      isTyped = true ∧ c.lexeme.token = .word "const" false ∧ span.Covers start c.lexeme.stop) := by
  obtain ⟨-, -, hfrom, hlist, hall⟩ := declaresNone_exports r
  have hclass := declaresNone_namedClass r
  have hfunction := declaresNone_functionDeclaration r
  have hvariable (kind : String) :
      DeclaresNone (do advance; variableStatement r kind; return Item.other) :=
    .bind fun _ => .bind fun _ => .pure rfl
  unfold exportedForm
  rw [gives_token]
  split
  · exact hall _ _
  · exact hlist _ _
  · exact hclass _ _
  · exact DeclaresNone.ite (.bind fun _ => hclass) hfrom _ _
  · exact hfunction false _ _
  · exact DeclaresNone.ite (.bind fun _ => hfunction true) hfrom _ _
  · rename_i htoken
    refine gives_advance.2 (gives_bind_forward hin.next fun isEnum c' hin' hle => ?_)
    refine gives_ite (fun henum => ?_) fun _ => DeclaresNone.bind (fun _ => .pure rfl) _ _
    refine (gives_typeItem_rest hin' (enumRest r) hle).mono fun _ _ hspans span hspan => ?_
    exact ⟨(Bool.and_eq_true_iff.1 henum).1, htoken, hspans span hspan⟩
  · exact hvariable "var" _ _
  · exact DeclaresNone.ite (hvariable "let") hfrom _ _
  · exact hfrom _ _

theorem gives_exportedItem (isTyped : Bool) (next : Lexeme) :
    (exportedItem r start isTyped next).Gives c (Declaring fun span =>
      isTyped = true ∧ c.lexeme.token.BeginsDeclaration ∧ span.Covers start c.lexeme.stop) := by
  have hform {c' : Cursor} (hin' : c'.IsIn text) (hbegun : c.Begun c') :
      (exportedForm r start isTyped next).Gives c' (Declaring fun span =>
        isTyped = true ∧ c.lexeme.token.BeginsDeclaration ∧ span.Covers start c.lexeme.stop) := by
    refine (gives_exportedForm r hin' isTyped next).mono fun _ _ hspans span hspan => ?_
    obtain ⟨htyped, htoken, hcovers⟩ := hspans span hspan
    rcases hbegun with rfl | ⟨hbegins, hle⟩
    · exact ⟨htyped, .inr ⟨"const", by decide, htoken⟩, hcovers⟩
    · exact ⟨htyped, hbegins, hcovers.mono (hin'.le_stop_of_le hle)⟩
  unfold exportedItem
  refine gives_bind (((gives_decorators r hin).and (gives_forward _ hin)).mono fun _ c' h => ?_)
  obtain ⟨hbegun, hin', -⟩ := h
  rw [gives_isWord]
  refine gives_ite (fun htype => gives_advance.2 (hform hin'.next ?_)) fun _ => hform hin' hbegun
  rcases hbegun with rfl | ⟨hbegins, hle⟩
  · simp only [Bool.and_eq_true] at htype
    exact .inr ⟨.inr ⟨"type", by decide, Token.eq_word htype.1.2⟩, Nat.le_refl _⟩
  · exact .inr ⟨hbegins, hin'.le_stop_of_le hle⟩

theorem gives_exportedRest (isTyped : Bool) :
    (exportedRest r start isTyped).Gives c (Declaring fun span =>
      isTyped = true ∧ c.lexeme.token.BeginsDeclaration ∧ span.Covers start c.lexeme.stop) := by
  have hitem (next : Lexeme) {c' : Cursor} (hin' : c'.IsIn text) (hbegun : c.Begun c') :
      (exportedItem r start isTyped next).Gives c' (Declaring fun span =>
        isTyped = true ∧ c.lexeme.token.BeginsDeclaration ∧ span.Covers start c.lexeme.stop) := by
    refine (gives_exportedItem r hin' isTyped next).mono fun _ _ hspans span hspan => ?_
    obtain ⟨htyped, hbegins', hcovers⟩ := hspans span hspan
    rcases hbegun with rfl | ⟨hbegins, hle⟩
    · exact ⟨htyped, hbegins', hcovers⟩
    · exact ⟨htyped, hbegins, hcovers.mono (hin'.le_stop_of_le hle)⟩
  unfold exportedRest
  rw [gives_peek]
  refine gives_ite (fun htyped => ?_) fun _ => gives_bind (gives_pure (hitem _ hin (.inl rfl)))
  refine gives_bind (((gives_exportedWord r hin).and (gives_forward _ hin)).mono ?_)
  rintro found c' ⟨hfound, hin', -⟩
  cases found with
  | none => exact hitem _ hin' (hfound.begun rfl)
  | some item =>
    exact gives_pure fun span hspan => ⟨htyped, hfound.declares item rfl span hspan⟩

/-- An export declares a type only where its declaration goes on from the word `export`. -/
theorem gives_exportRest :
    (exportRest r start).Gives c (Declaring fun span =>
      c.lexeme.token.BeginsDeclaration ∧ span.Covers start c.lexeme.stop) := by
  unfold exportRest
  apply gives_typed
  intro isTyped
  -- an equals sign that a script without types has here is passed, and then no type is declared
  have hrest {c' : Cursor} (hin' : c'.IsIn text) (hsame : isTyped = true → c' = c) :
      Parser.Gives (do
        if isTyped && (← isWord "as") && (← peek).token.isWord "namespace" then
          advance
          advance
          let _ ← name
          semicolon
          return Item.other
        else if ← eatWord "default" then exportDefault r
        else exportedRest r start isTyped) c' (Declaring fun span =>
      c.lexeme.token.BeginsDeclaration ∧ span.Covers start c.lexeme.stop) := by
    rw [gives_isWord, gives_peek]
    refine gives_ite (fun _ => ?_) fun _ => gives_eatIf.2 ?_
    · refine (?_ : DeclaresNone _) _ _
      exact .bind fun _ => .bind fun _ => .bind fun _ => .bind fun _ => .pure rfl
    · split
      · exact (declaresNone_exports r).2.1 _ _
      · refine (gives_exportedRest r hin' isTyped).mono fun _ _ hspans span hspan => ?_
        obtain ⟨htyped, hspan⟩ := hspans span hspan
        exact hsame htyped ▸ hspan
  rw [gives_isWord]
  refine gives_ite (fun _ => ?_) fun _ => gives_eatIf.2 ?_
  · refine (?_ : DeclaresNone _) _ _
    refine .bind fun _ => .bind fun _ => .bind fun _ => .ite (.bind fun _ => ?_) ?_
    · exact .bind fun _ => .bind fun _ => .pure rfl
    · exact .bind fun _ => .bind fun _ => .pure rfl
  · split
    · refine gives_ite (fun _ => ?_) fun huntyped => hrest hin.next fun htyped => ?_
      · exact DeclaresNone.bind (fun _ => .bind fun _ => .pure rfl) _ _
      · exact absurd (by rw [htyped]; rfl) huntyped
    · rw [Bool.and_false]
      exact hrest hin fun _ => rfl

theorem gives_expressionStatement :
    (expressionStatement r).Gives c (Declaring (Span.Declares text)) := by
  unfold expressionStatement
  rw [gives_position, gives_token]
  extract_lets finish
  have hfinish {found : Option Item} {c' : Cursor} (hin' : c'.IsIn text)
      (hfound : MayDeclare (Span.Declares text) c found c')
      (hname : c' ≠ c → c.lexeme.token.isName = true) :
      (finish found).Gives c' (Declaring (Span.Declares text)) := by
    cases found with
    | some item => exact gives_pure (hfound.declares item rfl)
    | none =>
      dsimp only [finish]
      rw [gives_peek, gives_isWord, gives_isWord]
      apply gives_typed
      intro isTyped
      refine gives_ite (fun hqualified => gives_advance.2 (gives_advance.2 ?_)) fun _ =>
        declaresNone_labelOrExpression r _ _
      refine (gives_typeItem_rest hin'.next.next (interfaceRest r) hin'.stop_le_next).mono
        fun _ _ hspans span hspan => ?_
      have hcovers := hspans span hspan
      by_cases hsame : c' = c
      · subst hsame
        simp only [Bool.and_eq_true, Bool.or_eq_true] at hqualified
        rcases hqualified.1.2 with hword | hword
        · exact .plain hin' (by decide) (Token.eq_word hword) hcovers
        · exact .plain hin' (by decide) (Token.eq_word hword) hcovers
      · have ⟨hbegins, hle⟩ := (hfound.begun rfl).resolve_left hsame
        exact Span.declares_of_begins hin hbegins (hname hsame)
          (hcovers.mono (hin'.le_stop_of_le hle))
  have hnothing : (finish none).Gives c (Declaring (Span.Declares text)) :=
    hfinish hin mayDeclare_none fun h => absurd rfl h
  split
  · rename_i word htoken
    have hname : c.lexeme.token.isName = true := by rw [htoken]; rfl
    apply gives_typed
    intro isTyped
    refine gives_ite (fun _ => gives_ite (fun hdeclare => ?_) fun _ => ?_) fun _ =>
      gives_bind (gives_pure hnothing)
    · rw [beq_iff_eq.1 hdeclare] at htoken
      refine gives_bind (gives_unlessNone ?_ hnothing)
      refine ((gives_declare r hin htoken).and (gives_forward _ hin)).mono
        fun found c' ⟨hfound, hin', _⟩ _ => ?_
      refine hfinish hin' (hfound.mono fun span h => ?_) fun _ => hname
      exact Span.declares_of_begins hin h.1 hname h.2
    · refine gives_bind (((gives_wordDeclaration r hin word false).and (gives_forward _ hin)).mono
        fun found c' ⟨hfound, hin', _⟩ => ?_)
      exact hfinish hin' (hfound.mono fun span h => .plain hin h.1 htoken h.2) fun _ => hname
  · exact gives_bind (gives_pure hnothing)

theorem gives_statement :
    (Grammar.statement r).Gives c (Declaring (Span.Declares text)) := by
  have hclass := declaresNone_namedClass r
  have hfunction := declaresNone_functionDeclaration r
  have hother : DeclaresNone (return Item.other) := .pure rfl
  have hone {p : Parser Unit} : DeclaresNone (do advance; p; return Item.other) :=
    .bind fun _ => .bind fun _ => hother
  have htwo {p q : Parser Unit} : DeclaresNone (do advance; p; q; return Item.other) :=
    .bind fun _ => .bind fun _ => .bind fun _ => hother
  unfold Grammar.statement
  refine gives_bind_forward hin fun _ c hin _ => ?_
  have hexpression := gives_expressionStatement r hin
  rw [gives_token]
  split
  · exact DeclaresNone.bind (fun _ => hother) _ _
  · exact DeclaresNone.bind (fun _ => hother) _ _
  · rename_i word htoken
    rw [gives_peek]
    split
    · exact hfunction false _ _
    · exact hclass _ _
    · exact DeclaresNone.ite (.bind fun _ => .bind fun _ => hother) .fail _ _
    · exact hone _ _
    · refine (?_ : DeclaresNone _) _ _
      exact .bind fun _ => .bind fun _ => .ite (.bind fun _ => .bind fun _ => hother) hother
    · exact hone _ _
    · exact htwo _ _
    · exact hone _ _
    · exact htwo _ _
    · have hrest : DeclaresNone (do let _ ← enclosed (expression r); semicolon; return Item.other) :=
        .bind fun _ => .bind fun _ => hother
      refine (?_ : DeclaresNone _) _ _
      exact .bind fun _ => .bind fun _ => .ite (.bind fun _ => hrest) hrest
    · exact hone _ _
    · exact htwo _ _
    · exact hone _ _
    · exact hone _ _
    · exact hone _ _
    · exact hone _ _
    · rw [gives_position, gives_advance]
      refine gives_typed fun isTyped => gives_bind_forward hin.next fun isEnum c' hin' hle => ?_
      refine gives_ite (fun _ => ?_) fun _ => DeclaresNone.bind (fun _ => hother) _ _
      refine (gives_typeItem_rest hin' (enumRest r) hle).mono fun _ _ hspans span hspan => ?_
      exact .plain hin (by decide) htoken (hspans span hspan)
    · exact gives_ite (fun _ => hone _ _) fun _ => hexpression
    · exact gives_ite (fun _ => hone _ _) fun _ => hexpression
    · refine gives_bind (gives_lookahead fun declares => ?_)
      exact gives_ite (fun _ => DeclaresNone.bind (fun _ => hone) _ _) fun _ => hexpression
    · exact gives_ite (fun _ => DeclaresNone.bind (fun _ => hfunction true) _ _) fun _ =>
        hexpression
    · exact hexpression
  · exact hexpression

theorem gives_moduleItem :
    (Grammar.moduleItem r).Gives c (Declaring (Span.Declares text)) := by
  unfold Grammar.moduleItem
  refine gives_bind_forward hin fun _ c' hin' _ => ?_
  rw [gives_peek, gives_position, gives_isWord]
  refine gives_ite (fun _ => gives_advance.2 ((declaresNone_exports r).1 _ _)) fun _ => ?_
  refine gives_eatIf.2 ?_
  split
  · rename_i hexport
    refine (gives_exportRest r hin'.next).mono fun _ _ hspans span hspan => ?_
    obtain ⟨hbegins, hcovers⟩ := hspans span hspan
    exact .exported hin' (Token.eq_word hexport) hbegins hcovers
  · exact gives_statement r hin'

end Declarations

theorem gives_atDepth (depth : Nat) {text : List Char} {c : Cursor} (hin : c.IsIn text) :
    (atDepth depth .moduleItem).Gives c (Declaring (Span.Declares text)) := by
  cases depth with
  | zero => exact gives_fail
  | succ depth => exact gives_moduleItem _ hin

end Grammar
open TypedRoutes.Script.Grammar TypedRoutes.Script.Parser

theorem gives_moduleItems (depth : Nat) {text : List Char} {c : Cursor} (hin : c.IsIn text) :
    (moduleItems depth).Gives c fun items _ => ∀ item ∈ items, ∀ span ∈ item.span?,
      span.Declares text := by
  refine gives_many (fun c' hin' => ?_) hin
  rw [gives_token]
  refine gives_ite (fun _ => gives_pure nofun) fun _ => ?_
  refine gives_bind ((gives_atDepth depth hin').mono fun item _ hspans => gives_pure ?_)
  rintro _ ⟨⟩
  exact hspans

/-- Each type that a module declares has the span of a declaration in its text. -/
theorem declares_of_readModule {dialect : Dialect} {text : List Char} {items : List Item}
    (hread : readModule dialect text = some items) {name : String} {span : Span}
    (hitem : .typeDeclaration name span ∈ items) : span.Declares text := by
  unfold readModule at hread
  dsimp only at hread
  split at hread
  · rename_i hrun
    cases hread
    exact gives_moduleItems _ (Cursor.isIn_readToken _ true text) _ _ _ hrun _ hitem span rfl
  · cases hread

end TypedRoutes.Script
