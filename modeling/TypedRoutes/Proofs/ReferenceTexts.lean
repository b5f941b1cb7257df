import TypedRoutes.Proofs.WordSpellings

/-! # The text of a reference to a type

The span of a reference without type arguments holds the names of its path in order, dots between
them, and blanks and comments around the dots.  No rule of the grammar that takes a type over from
another one changes this, so it holds of every type in the signatures of a module.
-/

namespace TypedRoutes.Script.Parser

/-! ## What a parser yields in a text -/

/-- Wherever the parser begins in the text, the value it gives has the property. -/
def Yields {α : Type} (text : List Char) (p : Parser α) (R : α → Prop) : Prop :=
  ∀ c, c.IsIn text → p.Gives c fun a _ => R a

namespace Yields
variable {α β : Type} {text : List Char} {p q : Parser α} {f : α → Parser β} {R : α → Prop}
  {S : β → Prop}

theorem pure {a : α} (h : R a) : Yields text (pure a) R := fun _ _ => gives_pure h

theorem fail : Yields text (fail : Parser α) R := fun _ _ => gives_fail

theorem bind (hp : Yields text p R) (hf : ∀ a, R a → Yields text (f a) S) :
    Yields text (p >>= f) S := fun c hin =>
  gives_bind <| ((hp c hin).and (gives_forward p hin)).mono fun a c' ⟨ha, hin', _⟩ =>
    hf a ha c' hin'

theorem after (hf : ∀ a, Yields text (f a) S) : Yields text (p >>= f) S := fun _ hin =>
  gives_bind_forward hin fun a c' hin' _ => hf a c' hin'

theorem ite {b : Prop} [Decidable b] (hp : Yields text p R) (hq : Yields text q R) :
    Yields text (if b then p else q) R := by
  split
  · exact hp
  · exact hq

theorem within {change : Context → Context} (h : Yields text p R) :
    Yields text (within change p) R := fun c hin => gives_within (h c hin)

theorem some (h : Yields text p R) :
    Yields text (do return some (← p)) fun found => ∀ a ∈ found, R a :=
  h.bind fun a ha => pure (by rintro _ ⟨⟩; exact ha)

theorem none : Yields text (Pure.pure Option.none) fun found => ∀ a ∈ found, R a := pure nofun

theorem attempt (h : Yields text p R) :
    Yields text (attempt p) fun found => ∀ a ∈ found, R a := fun c hin =>
  gives_attempt ((h c hin).mono fun a _ ha => by rintro _ ⟨⟩; exact ha) nofun

theorem unlessNone {p : Parser (Option α)} (h : Yields text p fun found => ∀ a ∈ found, R a) :
    Yields text p.unlessNone fun found => ∀ a ∈ found, R a := fun c hin =>
  gives_unlessNone ((h c hin).mono fun _ _ hfound _ => hfound) nofun

theorem commaList (h : Yields text p R) (close : String) :
    Yields text (commaList p close) fun as => ∀ a ∈ as, R a := by
  refine bind (fun c hin => gives_many (fun c' hin' => ?_) hin) fun as has =>
    after fun _ => pure has
  have hitem {a : α} (ha : R a) :
      Yields text (Pure.pure (Option.some a)) fun found => ∀ a ∈ found, R a :=
    pure (by rintro _ ⟨⟩; exact ha)
  refine (?_ : Yields text _ fun found => ∀ a ∈ found, R a) c' hin'
  refine after fun _ => ite none (h.bind fun a ha => after fun _ => ?_)
  dsimp only
  exact ite (after fun _ => hitem ha) (hitem ha)

end Yields

end TypedRoutes.Script.Parser

namespace TypedRoutes.Script
open TypedRoutes.Script.Parser TypedRoutes.Script.Grammar

/-! ## Stretches of a text -/

/-- From one position of a text to another stand these characters. -/
structure Stretch (text : List Char) (start stop : Nat) (chars : List Char) : Prop where
  drop : text.drop start = chars ++ text.drop stop
  stop_eq : stop = start + chars.length

namespace Stretch
variable {text chars more : List Char} {start middle stop : Nat}

theorem of_append (h : text.drop start = chars ++ more) (hstop : stop = start + chars.length) :
    Stretch text start stop chars where
  drop := by rw [hstop, ← List.drop_drop, h, List.drop_left]
  stop_eq := hstop

theorem nil : Stretch text start start [] := ⟨rfl, rfl⟩

theorem append (h : Stretch text start middle chars) (hmore : Stretch text middle stop more) :
    Stretch text start stop (chars ++ more) where
  drop := by rw [h.drop, hmore.drop, List.append_assoc]
  stop_eq := by rw [hmore.stop_eq, h.stop_eq, List.length_append, Nat.add_assoc]

theorem slice (h : Stretch text start stop chars) : Span.slice ⟨start, stop⟩ text = chars := by
  rw [Span.slice, h.drop, h.stop_eq, Nat.add_sub_cancel_left, List.take_left]

end Stretch

/-! ## Names after each other -/

/-- What follows the first name of a reference: each time a dot and a name, with blanks and comments
around the dot.  A dot may stand at the end too. -/
inductive Qualifies : List String → List Char → Prop
  | nil : Qualifies [] []
  | dot {gap : List Char} (hgap : Trivia .blank false gap) : Qualifies [] (gap ++ ['.'])
  | name {name : String} {names : List String} {before after word rest : List Char}
      (hbefore : Trivia .blank false before) (hafter : Trivia .blank false after)
      (hword : Spells name word) (hrest : Qualifies names rest) :
      Qualifies (name :: names) (before ++ '.' :: (after ++ (word ++ rest)))

/-- A text that consists of the names of a path, one after the other. -/
inductive WritesPath : List String → List Char → Prop
  | intro {name : String} {names : List String} {word rest : List Char} (hword : Spells name word)
      (hrest : Qualifies names rest) : WritesPath (name :: names) (word ++ rest)

/-- In a text each reference without type arguments stands as its path is written. -/
inductive TypeNode.WrittenIn (text : List Char) : TypeNode → Prop
  | other (span : Span) : WrittenIn text (.other span)
  | reference {span : Span} {path : List String} (h : WritesPath path (span.slice text)) :
      WrittenIn text (.reference span path none)
  | generic (span : Span) (path : List String) {arguments : List TypeNode}
      (h : ∀ a ∈ arguments, a.WrittenIn text) :
      WrittenIn text (.reference span path (some arguments))

/-- So do those in a signature. -/
structure Signature.WrittenIn (text : List Char) (s : Signature) : Prop where
  parameters : ∀ p ∈ s.parameters, ∀ t ∈ p.annotation, t.WrittenIn text
  returns : ∀ t ∈ s.returns, t.WrittenIn text

def Item.signature? : Item → Option Signature
  | .function _ signature | .defaultFunction _ signature => some signature
  | _ => none

def Item.WrittenIn (text : List Char) (item : Item) : Prop :=
  ∀ s ∈ item.signature?, s.WrittenIn text

section
variable {text : List Char} {c : Cursor}

theorem Cursor.IsIn.gap (hin : c.IsIn text) (h : c.next.lexeme.token ≠ .endOfText) :
    ∃ gap here n rest, Trivia .blank false gap ∧
      readBareToken here = (c.next.lexeme.token, n, rest) ∧
      ∀ word, here = word ++ rest → n = word.length →
        Stretch text c.lexeme.stop c.next.lexeme.stop (gap ++ word) := by
  obtain ⟨gap, here, n, rest, hafter, hgap, hread, hstop⟩ := gap_of_readToken h
  rw [hin.after] at hafter
  refine ⟨gap, here, n, rest, hgap, hread, ?_⟩
  rintro word rfl rfl
  refine .of_append (hafter.trans (List.append_assoc ..).symm) ?_
  rw [List.length_append, ← Nat.add_assoc]
  exact hstop

theorem Cursor.IsIn.next_dot (hin : c.IsIn text) (h : c.next.lexeme.token = .punct ".") :
    ∃ gap, Trivia .blank false gap ∧
      Stretch text c.lexeme.stop c.next.lexeme.stop (gap ++ ['.']) := by
  obtain ⟨gap, here, n, rest, hgap, hread, hstretch⟩ := hin.gap (by rw [h]; exact nofun)
  rw [h] at hread
  obtain ⟨hhere, hlength, -⟩ := spelled_of_readBareToken hread rfl
  exact ⟨gap, hgap, hstretch ['.'] hhere hlength⟩

theorem Cursor.IsIn.next_name (hin : c.IsIn text) {name : String}
    (h : c.next.lexeme.token.named? = some name) :
    ∃ gap word, Trivia .blank false gap ∧ Spells name word ∧
      Stretch text c.lexeme.stop c.next.lexeme.stop (gap ++ word) := by
  obtain ⟨gap, here, n, rest, hgap, hread, hstretch⟩ :=
    hin.gap (by rintro hend; rw [hend] at h; cases h)
  obtain ⟨word, rfl, rfl, -⟩ := written_of_readBareToken hread h
  exact ⟨gap, word, hgap, ⟨_, rest, h, hread⟩, hstretch word rfl rfl⟩

/-- The word in front of a cursor is the name that is read there. -/
theorem Cursor.IsIn.word_stretch (hin : c.IsIn text) {name : String} {escaped : Bool}
    (h : c.lexeme.token = .word name escaped) :
    ∃ word, Spells name word ∧ Stretch text c.lexeme.start c.lexeme.stop word := by
  have hread := hin.word (by rw [h]; rfl)
  have hnamed : c.lexeme.token.named? = some name := by rw [h]; rfl
  obtain ⟨word, hhere, hlength, -⟩ := written_of_readBareToken hread hnamed
  have hordered := hin.ordered
  refine ⟨word, ⟨_, c.lexeme.after, hnamed, ?_⟩, ?_⟩
  · rw [← hhere, hread, hlength]
  · exact .of_append (hin.here.symm.trans hhere) (by omega)

end

namespace Grammar

/-! ## References -/

section
variable {text : List Char} {c : Cursor}

/-- After the token in front of one cursor the text goes on with a dot and a name, up to the end of
the token in front of the other. -/
def NameFollows (text : List Char) (c last : Cursor) (name : String) : Prop :=
  ∃ before after word, Trivia .blank false before ∧ Trivia .blank false after ∧ Spells name word ∧
    Stretch text c.lexeme.stop last.lexeme.stop (before ++ '.' :: (after ++ word))

def nextName : Parser (Option String) := do
  if ← eat "." then
    match ← token with
    | .word s _ | .privateName s => advance; return some s
    | _ => return none
  else return none

theorem qualifiedRest_eq : qualifiedRest = many nextName := rfl

/-- After a name one more is read where it is written, or else there may be a dot. -/
theorem gives_nextName (hin : c.IsIn text) :
    nextName.Gives c.next fun found c' => match found with
      | some name => ∃ last : Cursor, last.IsIn text ∧ c' = last.next ∧
          NameFollows text c last name
      | none => ∃ chars, Qualifies [] chars ∧
          Stretch text c.lexeme.stop c'.previousStop chars := by
  refine gives_eatIf.2 ?_
  split
  · rename_i hdot
    obtain ⟨before, hbefore, hfirst⟩ := hin.next_dot (Token.eq_punct hdot)
    have hname {name : String} (h : c.next.next.lexeme.token.named? = some name) :
        NameFollows text c c.next.next name := by
      obtain ⟨after, word, hafter, hword, hsecond⟩ := hin.next.next_name h
      refine ⟨before, after, word, hbefore, hafter, hword, ?_⟩
      simpa using hfirst.append hsecond
    have hlast := hin.next.next
    rw [if_pos rfl, gives_token]
    split
    · rename_i htoken
      exact gives_advance.2 (gives_pure ⟨_, hlast, rfl, hname (by rw [htoken]; rfl)⟩)
    · rename_i htoken
      exact gives_advance.2 (gives_pure ⟨_, hlast, rfl, hname (by rw [htoken]; rfl)⟩)
    · exact gives_pure ⟨_, .dot hbefore, hfirst⟩
  · rw [if_neg Bool.false_ne_true]
    exact gives_pure ⟨[], .nil, .nil⟩

/-- After a name the rest of a qualified name is read as it is written. -/
theorem gives_qualifiedRest (hin : c.IsIn text) :
    qualifiedRest.Gives c.next fun names c' =>
      ∃ chars, Qualifies names chars ∧ Stretch text c.lexeme.stop c'.previousStop chars := by
  rw [qualifiedRest_eq]
  refine gives_bind fun x rounds _ hrun => ?_
  cases hrun
  generalize x.rounds = rounds
  induction rounds generalizing c with
  | zero => exact gives_fail
  | succ rounds ih =>
    refine gives_bind ((gives_nextName hin).mono fun found c' hfound => ?_)
    cases found with
    | none => exact gives_pure hfound
    | some name =>
      obtain ⟨last, hlast, rfl, before, after, word, hbefore, hafter, hword, hfirst⟩ := hfound
      refine gives_bind ((ih hlast).mono fun names c' ⟨chars, hchars, hrest⟩ => gives_pure ?_)
      refine ⟨_, .name hbefore hafter hword hchars, ?_⟩
      simpa using hfirst.append hrest

theorem gives_entityHead (hin : c.IsIn text) :
    entityHead.Gives c fun name c' => c' = c.next ∧
      ∃ word, Spells name word ∧ Stretch text c.lexeme.start c.lexeme.stop word := by
  unfold entityHead
  rw [gives_token]
  split
  · rename_i name escaped htoken
    refine gives_ite (fun _ => gives_fail) fun _ => gives_advance.2 (gives_pure ⟨rfl, ?_⟩)
    exact hin.word_stretch htoken
  · exact gives_fail

theorem yields_typeFrom (text : List Char) (start : Nat) :
    Yields text (typeFrom start) (TypeNode.WrittenIn text) :=
  .after fun _ => .pure (.other _)

theorem yields_joinedType {operand : Parser TypeNode}
    (hoperand : Yields text operand (TypeNode.WrittenIn text)) (operator : String) :
    Yields text (joinedType operator operand) (TypeNode.WrittenIn text) :=
  .after fun _ => .after fun _ => hoperand.bind fun _ hfirst => .after fun _ =>
    .ite (.after fun _ => yields_typeFrom _ _) (.pure hfirst)

theorem yields_functionType (text : List Char) (r : Recursion) :
    Yields text (functionType r) (TypeNode.WrittenIn text) :=
  .after fun _ => .after fun _ => .after fun _ => .after fun _ => .after fun _ => .after fun _ =>
    .after fun _ => yields_typeFrom _ _

theorem yields_plainType (r : Recursion) {operand : Parser TypeNode}
    (hoperand : Yields text operand (TypeNode.WrittenIn text)) :
    Yields text (plainType r operand) (TypeNode.WrittenIn text) := by
  have hfunction := yields_functionType text r
  have hjoined := yields_joinedType (yields_joinedType hoperand "&") "|"
  refine .after fun _ => .ite hfunction (.after fun _ => .ite hfunction ?_)
  exact .after fun _ => .after fun _ => .ite hfunction hjoined

variable {r : Recursion} (htype : Yields text r.type (TypeNode.WrittenIn text))
include htype

theorem yields_typeArguments :
    Yields text (typeArguments r) fun arguments => ∀ a ∈ arguments, a.WrittenIn text :=
  .after fun _ => .after fun _ => htype.commaList ">"

theorem gives_typeArguments? (hin : c.IsIn text) :
    (typeArguments? r).Gives c fun arguments c' => match arguments with
      | some arguments => ∀ a ∈ arguments, a.WrittenIn text
      | none => c' = c := by
  unfold typeArguments?
  rw [gives_newline, gives_isPunct, gives_isPunct]
  refine gives_ite (fun _ => ?_) fun _ => gives_pure rfl
  exact gives_bind ((yields_typeArguments htype c hin).mono fun _ _ h => gives_pure h)

theorem yields_referenceType : Yields text (referenceType r) (TypeNode.WrittenIn text) := by
  intro c hin
  unfold referenceType
  refine gives_position.2 (gives_bind ((gives_entityHead hin).mono ?_))
  rintro name _ ⟨rfl, word, hword, hfirst⟩
  refine gives_bind (((gives_qualifiedRest hin).and (gives_forward _ hin.next)).mono ?_)
  rintro names c' ⟨⟨chars, hchars, hrest⟩, hin', -⟩
  refine gives_bind ((gives_typeArguments? htype hin').mono fun arguments c'' h => ?_)
  refine gives_previousStop.2 (gives_pure ?_)
  cases arguments with
  | some arguments => exact .generic _ _ h
  | none =>
    subst h
    refine .reference ?_
    rw [(hfirst.append hrest).slice]
    exact .intro hword hchars

/-! ## Types -/

theorem yields_returnType : Yields text (returnType r) (TypeNode.WrittenIn text) := by
  have hother := yields_typeFrom text
  unfold returnType
  repeat' first
    | with_reducible exact hother _
    | with_reducible exact htype
    | with_reducible apply Yields.ite
    | with_reducible apply Yields.after; intro _

theorem yields_primaryType : Yields text (primaryType r) (TypeNode.WrittenIn text) := by
  have hother := yields_typeFrom text
  have hreference := yields_referenceType htype
  unfold primaryType
  repeat' first
    | with_reducible exact hother _
    | with_reducible exact hreference
    | with_reducible exact .fail
    | with_reducible apply Yields.ite
    | with_reducible apply Yields.after; intro _
    | split

theorem yields_suffixedType : Yields text (suffixedType r) (TypeNode.WrittenIn text) :=
  .after fun _ => (yields_primaryType htype).bind fun _ hfirst => .after fun _ =>
    .ite (.pure hfirst) (yields_typeFrom _ _)

theorem yields_prefixedType (operand : Parser TypeNode) :
    Yields text (prefixedType r operand) (TypeNode.WrittenIn text) := by
  have hother := yields_typeFrom text
  have hsuffixed := yields_suffixedType htype
  unfold prefixedType
  repeat' first
    | with_reducible exact hother _
    | with_reducible exact hsuffixed
    | with_reducible apply Yields.after; intro _
    | split

theorem yields_typeOperand : Yields text (typeOperand r) (TypeNode.WrittenIn text) :=
  yields_prefixedType htype _

theorem yields_conditionalType : Yields text (conditionalType r) (TypeNode.WrittenIn text) := by
  refine .after fun _ => (yields_plainType r (yields_typeOperand htype)).bind fun _ hchecked => ?_
  refine .after fun _ => .after fun _ => .ite ?_ (.pure hchecked)
  refine .after fun _ => .after fun _ => .after fun _ => .after fun _ => .after fun _ => ?_
  exact yields_typeFrom _ _

/-! ## Signatures -/

theorem yields_annotation? :
    Yields text (annotation? r) fun annotation => ∀ t ∈ annotation, t.WrittenIn text :=
  .after fun _ => .after fun _ => .ite htype.some .none

theorem yields_returnAnnotation? :
    Yields text (returnAnnotation? r) fun returns => ∀ t ∈ returns, t.WrittenIn text :=
  .after fun _ => .after fun _ => .ite (yields_returnType htype).some .none

theorem yields_parameter (ofConstructor : Bool) :
    Yields text (parameter r ofConstructor) fun p => ∀ t ∈ p.annotation, t.WrittenIn text := by
  have hannotation := yields_annotation? htype
  unfold parameter
  repeat' first
    | with_reducible exact .pure ‹_›
    | with_reducible refine hannotation.bind fun _ _ => ?_
    | with_reducible apply Yields.ite
    | with_reducible apply Yields.after; intro _

theorem yields_functionRest (generator asynchronous ofConstructor : Bool) :
    Yields text (functionRest r generator asynchronous ofConstructor)
      (Signature.WrittenIn text) := by
  unfold functionRest
  refine .bind (R := fun found =>
    (∀ p ∈ found.1, ∀ t ∈ p.annotation, t.WrittenIn text) ∧ ∀ t ∈ found.2, t.WrittenIn text)
    (.within ?_) fun _ h => .after fun _ => .pure ⟨h.1, h.2⟩
  refine .after fun _ => .bind (.after fun _ => (yields_parameter htype _).commaList _)
    fun _ hparameters => ?_
  exact (yields_returnAnnotation? htype).bind fun _ hreturns => .pure ⟨hparameters, hreturns⟩

/-! ## Items -/

theorem yields_functionDeclaration (asynchronous : Bool) :
    Yields text (functionDeclaration r asynchronous) (Item.WrittenIn text) :=
  .after fun _ => .after fun _ => .after fun _ => (yields_functionRest htype _ _ _).bind
    fun _ hsignature => .pure (by rintro _ ⟨⟩; exact hsignature)

theorem yields_defaultFunction (asynchronous : Bool) :
    Yields text (defaultFunction r asynchronous) (Item.WrittenIn text) := by
  have hrest (generator : Bool) (name : Option String) : Yields text
      (do return .defaultFunction name (← functionRest r generator asynchronous false))
      (Item.WrittenIn text) :=
    (yields_functionRest htype _ _ _).bind fun _ hsignature =>
      .pure (by rintro _ ⟨⟩; exact hsignature)
  refine .after fun _ => .after fun _ => .after fun _ => .ite ?_ (.after fun _ => hrest _ _)
  exact .after fun _ => .after fun _ => hrest _ _

omit htype in
theorem yields_unsigned {item : Item} (h : item.signature? = none) :
    Yields text (pure item) (Item.WrittenIn text) :=
  .pure fun s hs => by simp [h] at hs

omit htype in
/-- Of the other items none has a signature. -/
theorem yields_unsignedItems (text : List Char) (r : Recursion) :
    Yields text (namedClass r) (Item.WrittenIn text) ∧
    (∀ start name, Yields text (typeItem start name) (Item.WrittenIn text)) ∧
    Yields text (labelOrExpression r) (Item.WrittenIn text) ∧
    Yields text (importRest r) (Item.WrittenIn text) ∧
    Yields text (exportList r) (Item.WrittenIn text) ∧
    Yields text (exportAll r) (Item.WrittenIn text) ∧
    Yields text (exportFromRest r) (Item.WrittenIn text) ∧
    Yields text (exportFrom r) (Item.WrittenIn text) := by
  unfold namedClass typeItem labelOrExpression importRest exportList exportAll exportFrom
    exportFromRest
  refine ⟨?_, fun _ _ => ?_, ?_, ?_, ?_, ?_, ?_, ?_⟩
  all_goals repeat' first
    | with_reducible exact .fail
    | (with_reducible apply yields_unsigned); rfl
    | with_reducible apply Yields.ite
    | with_reducible apply Yields.after; intro _
    | split
    | dsimp only

abbrev OptionallyWritten (text : List Char) (found : Option Item) : Prop :=
  ∀ item ∈ found, item.WrittenIn text

omit htype in
theorem yields_wordDeclaration (text : List Char) (r : Recursion) (start : Nat) (word : String)
    (declared : Bool) :
    Yields text (wordDeclaration r start word declared) (OptionallyWritten text) := by
  obtain ⟨hclass, htypeItem, -⟩ := yields_unsignedItems text r
  have hother : Yields text (pure (some Item.other)) (OptionallyWritten text) :=
    .pure (by rintro _ ⟨⟩; exact nofun)
  unfold wordDeclaration
  repeat' first
    | with_reducible exact .none
    | with_reducible exact hother
    | with_reducible exact hclass.some
    | with_reducible exact (htypeItem _ _).some
    | with_reducible apply Yields.ite
    | with_reducible apply Yields.after; intro _
    | split

theorem yields_ambientDeclaration (start : Nat) :
    Yields text (ambientDeclaration r start) (OptionallyWritten text) := by
  obtain ⟨hclass, htypeItem, -⟩ := yields_unsignedItems text r
  have hother : Yields text (pure (some Item.other)) (OptionallyWritten text) :=
    .pure (by rintro _ ⟨⟩; exact nofun)
  have hfunction := yields_functionDeclaration htype
  have hword := yields_wordDeclaration text r start
  refine .within ?_
  repeat' first
    | with_reducible exact .none
    | with_reducible exact hother
    | with_reducible exact hword _ _
    | with_reducible exact hclass.some
    | with_reducible exact (htypeItem _ _).some
    | with_reducible exact (hfunction _).some
    | with_reducible apply Yields.ite
    | with_reducible apply Yields.after; intro _
    | split

theorem yields_exportDefault : Yields text (exportDefault r) (Item.WrittenIn text) := by
  obtain ⟨-, -, -, -, -, -, hfrom, -⟩ := yields_unsignedItems text r
  have hfunction := yields_defaultFunction htype
  unfold exportDefault
  repeat' first
    | with_reducible exact hfrom
    | with_reducible exact hfunction _
    | (with_reducible apply yields_unsigned); rfl
    | with_reducible apply Yields.ite
    | with_reducible apply Yields.after; intro _

theorem yields_exportedWord (start : Nat) :
    Yields text (exportedWord r start) (OptionallyWritten text) := by
  have hword (word : String) : Yields text (attempt (wordDeclaration r start word true)) _ :=
    (yields_wordDeclaration text r start word true).attempt
  unfold exportedWord
  refine .after fun t => ?_
  split
  · refine .ite ((hword _).bind fun found hfound => ?_) ?_
    · split
      · exact .pure (hfound _ rfl)
      · exact .none
    · exact .ite (.after fun _ => yields_ambientDeclaration htype start) .none
  · exact .none

theorem yields_exportedForm (start : Nat) (isTyped : Bool) (next : Lexeme) :
    Yields text (exportedForm r start isTyped next) (Item.WrittenIn text) := by
  obtain ⟨hclass, htypeItem, -, -, hlist, hall, -, hfrom⟩ :=
    yields_unsignedItems text r
  have hfunction := yields_functionDeclaration htype
  unfold exportedForm
  repeat' first
    | with_reducible exact hclass
    | with_reducible exact htypeItem _ _
    | with_reducible exact hlist
    | with_reducible exact hall
    | with_reducible exact hfrom
    | with_reducible exact hfunction _
    | (with_reducible apply yields_unsigned); rfl
    | with_reducible apply Yields.ite
    | with_reducible apply Yields.after; intro _
    | split

theorem yields_exportRest (start : Nat) :
    Yields text (exportRest r start) (Item.WrittenIn text) := by
  have hdefault := yields_exportDefault htype
  have hitem (isTyped : Bool) (next : Lexeme) :
      Yields text (exportedItem r start isTyped next) (Item.WrittenIn text) := by
    have hform := yields_exportedForm htype start isTyped next
    exact .after fun _ => .after fun _ => .ite (.after fun _ => hform) hform
  have hrest (isTyped : Bool) :
      Yields text (exportedRest r start isTyped) (Item.WrittenIn text) := by
    unfold exportedRest
    refine .after fun next => ?_
    extract_lets finish
    have hfinish (found : Option Item) (h : OptionallyWritten text found) :
        Yields text (finish found) (Item.WrittenIn text) := by
      cases found with
      | none => exact hitem isTyped next
      | some item => exact .pure (h item rfl)
    exact .ite ((yields_exportedWord htype start).bind hfinish) (Yields.bind .none hfinish)
  unfold exportRest
  repeat' first
    | with_reducible exact hdefault
    | with_reducible exact hrest _
    | (with_reducible apply yields_unsigned); rfl
    | with_reducible apply Yields.ite
    | with_reducible apply Yields.after; intro _

theorem yields_expressionStatement :
    Yields text (expressionStatement r) (Item.WrittenIn text) := by
  obtain ⟨-, htypeItem, hlabel, -⟩ := yields_unsignedItems text r
  unfold expressionStatement
  refine .after fun start => .after fun t => ?_
  extract_lets finish
  have hfinish (found : Option Item) (h : OptionallyWritten text found) :
      Yields text (finish found) (Item.WrittenIn text) := by
    cases found with
    | none =>
      refine .after fun _ => .after fun _ => .after fun _ => .after fun _ => .ite ?_ hlabel
      exact .after fun _ => .after fun _ => .after fun _ => htypeItem _ _
    | some item => exact .pure (h item rfl)
  have hdeclare : Yields text (unlessNone do advance; ambientDeclaration r start)
      (OptionallyWritten text) :=
    .unlessNone (.after fun _ => yields_ambientDeclaration htype start)
  split
  · refine .after fun _ => .ite (.ite (hdeclare.bind hfinish) ?_) (Yields.bind .none hfinish)
    exact (yields_wordDeclaration text r start _ false).bind hfinish
  · exact Yields.bind .none hfinish

theorem yields_statement : Yields text (Grammar.statement r) (Item.WrittenIn text) := by
  obtain ⟨hclass, htypeItem, -⟩ := yields_unsignedItems text r
  have hfunction := yields_functionDeclaration htype
  have hexpression := yields_expressionStatement htype
  unfold Grammar.statement
  repeat' first
    | with_reducible exact hclass
    | with_reducible exact htypeItem _ _
    | with_reducible exact hexpression
    | with_reducible exact hfunction _
    | with_reducible exact .fail
    | (with_reducible apply yields_unsigned); rfl
    | with_reducible apply Yields.ite
    | with_reducible apply Yields.after; intro _
    | split

theorem yields_moduleItem : Yields text (Grammar.moduleItem r) (Item.WrittenIn text) := by
  obtain ⟨-, -, -, himport, -⟩ := yields_unsignedItems text r
  refine .after fun _ => .after fun _ => .after fun start => .after fun _ => .ite ?_ ?_
  · exact .after fun _ => himport
  · exact .after fun _ => .ite (yields_exportRest htype start) (yields_statement htype)

end

/-- However deep types are nested, references in them are written as their paths. -/
theorem yields_type {text : List Char} (depth : Nat) :
    Yields text (atDepth depth .type) (TypeNode.WrittenIn text) := by
  induction depth with
  | zero => exact .fail
  | succ depth ih => exact yields_conditionalType ih

end Grammar

/-- In the signatures of a module each reference without type arguments is written as its path. -/
theorem writtenIn_of_readModule {dialect : Dialect} {text : List Char} {items : List Item}
    (hread : readModule dialect text = some items) {item : Item} (hitem : item ∈ items) :
    item.WrittenIn text := by
  have hmodule (depth : Nat) :
      Yields text (moduleItems depth) fun items => ∀ item ∈ items, item.WrittenIn text := by
    refine fun c hin => gives_many (fun c' hin' => ?_) hin
    refine (?_ : Yields text _ fun found => ∀ item ∈ found, Item.WrittenIn text item) c' hin'
    refine .after fun _ => .ite .none (.some ?_)
    cases depth with
    | zero => exact .fail
    | succ depth => exact yields_moduleItem (yields_type depth)
  unfold readModule at hread
  dsimp only at hread
  split at hread
  · rename_i hrun
    cases hread
    exact hmodule _ _ (Cursor.isIn_readToken _ true text) _ _ _ hrun item hitem
  · cases hread

end TypedRoutes.Script
