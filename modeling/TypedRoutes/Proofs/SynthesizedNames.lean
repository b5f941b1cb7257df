import TypedRoutes.Proofs.FragmentTokens
import TypedRoutes.Proofs.PlainIdentifiers
import TypedRoutes.Route.Analysis
import TypedRoutes.Script.Cursor
import TypedRoutes.Script.Facts

/-! # Names for types without a declaration

The name is made of the letters and digits of the handler's name, some of them in their other case,
and of the side the type stands on.  All else is dropped; so if a digit comes first in what is left,
the name begins with it, and the declaration made for the type declares nothing.
-/

namespace TypedRoutes.Naming
open TypedRoutes.Text

/-! ## Letters and their cases -/

/-- A character in one of its cases. -/
def Recased (c d : Char) : Prop := d = c.toUpper ∨ d = c.toLower

theorem forall_ascii {p : Char → Bool}
    (h : (List.range 128).all (fun n => p (Char.ofNat n)) = true) {c : Char}
    (hc : isAscii c = true) : p c = true := by
  have hmem : c.toNat ∈ List.range 128 := by simpa [isAscii] using hc
  simpa using List.all_eq_true.1 h c.toNat hmem

theorem isAlphanumeric_ascii {c : Char} (hc : isAscii c = true) :
    isAlphanumeric c = c.isAlphanum := by
  simp [isAlphanumeric, isAlphabetic, isNumeric, hc, Char.isAlphanum]

/-- The case of a character changes neither that it is a letter or a digit nor which of them. -/
theorem Recased.same_class {c d : Char} (h : Recased c d) (hc : isAscii c = true) :
    isAscii d = true ∧ d.isAlphanum = c.isAlphanum ∧ d.isDigit = c.isDigit := by
  have hclasses : ∀ change ∈ [Char.toUpper, Char.toLower], (List.range 128).all (fun n =>
      isAscii (change (Char.ofNat n)) &&
        ((change (Char.ofNat n)).isAlphanum == (Char.ofNat n).isAlphanum &&
          (change (Char.ofNat n)).isDigit == (Char.ofNat n).isDigit)) = true := by
    decide +kernel
  have hsame (change : Char → Char) (hchange : change ∈ [Char.toUpper, Char.toLower]) :=
    forall_ascii (p := fun c => isAscii (change c) &&
      ((change c).isAlphanum == c.isAlphanum && (change c).isDigit == c.isDigit))
      (hclasses change hchange) hc
  rcases h with rfl | rfl
  · simpa using hsame Char.toUpper (by simp)
  · simpa using hsame Char.toLower (by simp)

theorem recased_lowerWord {word : List Char} (h : ∀ c ∈ word, isAscii c = true) :
    List.Forall₂ Recased word (lowerWord word) := by
  fun_induction lowerWord word with
  | case1 => exact .nil
  | case2 => simp [isAscii] at h
  | case3 c hsigma =>
    have hc := h c List.mem_cons_self
    rw [lowerForm, if_pos hc]
    exact .cons (.inr rfl) .nil
  | case4 c cs hmore ih =>
    obtain ⟨hc, hcs⟩ := List.forall_mem_cons.1 h
    rw [lowerForm, if_pos hc]
    exact .cons (.inr rfl) (ih hcs)

theorem recased_capitalizeWord {word : List Char} (h : ∀ c ∈ word, isAscii c = true) :
    List.Forall₂ Recased word (capitalizeWord word) := by
  cases word with
  | nil => exact .nil
  | cons c cs =>
    obtain ⟨hc, hcs⟩ := List.forall_mem_cons.1 h
    rw [capitalizeWord, upperForm, if_pos hc]
    exact .cons (.inl rfl) (recased_lowerWord hcs)

/-! ## The words of a name -/

theorem flatten_caseWords (mode : CaseMode) (word cs : List Char) :
    (caseWords mode word cs).flatten = word.reverse ++ cs := by
  fun_induction caseWords mode word cs <;> simp_all

theorem flatten_alphanumericRuns (run cs : List Char) :
    (alphanumericRuns run cs).flatten = run.reverse ++ cs.filter isAlphanumeric := by
  fun_induction alphanumericRuns run cs with
  | case1 run => simp
  | case2 run c cs hc ih => simp [ih, hc]
  | case3 run c cs hc ih => simp [ih, hc]

theorem flatten_nameWords (name : List Char) :
    (nameWords name).flatten = name.filter isAlphanumeric := by
  have hruns := flatten_alphanumericRuns [] name
  rw [List.reverse_nil, List.nil_append] at hruns
  rw [← hruns, nameWords, List.flatMap, List.flatten_flatten, List.map_map]
  refine congrArg List.flatten ((List.map_congr_left fun run _ => ?_).trans (List.map_id _))
  exact flatten_caseWords .boundary [] run

/-- Upper camel case keeps the letters and digits of an ASCII name, each in one of its cases. -/
theorem recased_upperCamel {name : String} (h : ∀ c ∈ name.toList, isAscii c = true) :
    List.Forall₂ Recased (name.toList.filter isAlphanumeric) (upperCamel name).toList := by
  have hwords : ∀ word ∈ nameWords name.toList, ∀ c ∈ word, isAscii c = true := by
    intro word hword c hc
    have hmem : c ∈ (nameWords name.toList).flatten := List.mem_flatten.2 ⟨word, hword, hc⟩
    rw [flatten_nameWords] at hmem
    exact h c (List.mem_of_mem_filter hmem)
  rw [← flatten_nameWords, upperCamel, String.toList_ofList]
  generalize nameWords name.toList = words at hwords
  induction words with
  | nil => exact .nil
  | cons word words ih =>
    rw [List.forall_mem_cons] at hwords
    exact List.rel_append (recased_capitalizeWord hwords.1) (ih hwords.2)

/-! ## Legal names -/

/-- The first letter or digit of a name, if there is any, is a letter. -/
def LetterFirst (name : String) : Prop :=
  ∀ c ∈ name.toList.find? isAlphanumeric, c.isDigit = false

instance (name : String) : Decidable (LetterFirst name) :=
  decidable_of_iff ((name.toList.find? isAlphanumeric).all (!·.isDigit) = true)
    (by cases h : name.toList.find? isAlphanumeric <;> simp [LetterFirst, h])

theorem isAscii_of_plain {name : String} (h : IsPlainIdentifier name) :
    ∀ c ∈ name.toList, isAscii c = true := by
  intro c hc
  have hplain := List.all_eq_true.1 h.2 c hc
  rw [isPlainIdentifierCharacter, Bool.and_eq_true] at hplain
  exact hplain.1

theorem TypeRole.suffix_plain (role : TypeRole) : IsPlainIdentifier role.suffix := by
  cases role <;> decide +kernel

theorem plain_of_recased {cs ds : List Char} (h : List.Forall₂ Recased cs ds)
    (hcs : ∀ c ∈ cs, isAscii c = true ∧ isAlphanumeric c = true) :
    ds.all isPlainIdentifierCharacter = true := by
  induction h with
  | nil => rfl
  | cons hcase _ ih =>
    obtain ⟨⟨hascii, hclass⟩, hrest⟩ := List.forall_mem_cons.1 hcs
    obtain ⟨hd, halnum, -⟩ := hcase.same_class hascii
    rw [isAlphanumeric_ascii hascii, ← halnum] at hclass
    rw [List.all_cons, ih hrest]
    simp [isPlainIdentifierCharacter, hd, hclass]

/-- A synthesized name consists of characters of identifiers, and begins with a digit exactly if a
digit comes first among the letters and digits of the handler's name. -/
theorem synthesizedName_cons {name : String} (h : IsPlainIdentifier name) (role : TypeRole) :
    ∃ d ds, (synthesizedName name role).toList = d :: ds ∧
      (d :: ds).all isPlainIdentifierCharacter = true ∧
      (d.isDigit = false ↔ LetterFirst name) := by
  have hascii := isAscii_of_plain h
  have hrecased := recased_upperCamel hascii
  have hletters : ∀ c ∈ name.toList.filter isAlphanumeric,
      isAscii c = true ∧ isAlphanumeric c = true := by
    intro c hc
    obtain ⟨hname, hclass⟩ := List.mem_filter.1 hc
    exact ⟨hascii c hname, hclass⟩
  have hall : (synthesizedName name role).toList.all isPlainIdentifierCharacter = true := by
    rw [synthesizedName, String.toList_append, List.all_append,
      plain_of_recased hrecased hletters, role.suffix_plain.2]
    rfl
  rw [LetterFirst, ← List.head?_filter]
  rw [synthesizedName, String.toList_append] at hall ⊢
  generalize name.toList.filter isAlphanumeric = letters at hrecased hletters
  generalize (upperCamel name).toList = camel at hrecased hall
  cases hrecased with
  | nil =>
    -- a name without letters and digits leaves the suffix
    cases role <;> exact ⟨_, _, rfl, by decide, by simp; decide⟩
  | @cons c d cs ds hcase _ =>
    have hdigit := (hcase.same_class (hletters c List.mem_cons_self).1).2.2
    exact ⟨d, ds ++ role.suffix.toList, rfl, hall, by simp [hdigit]⟩

theorem synthesizedName_plain_iff {name : String} (h : IsPlainIdentifier name) (role : TypeRole) :
    IsPlainIdentifier (synthesizedName name role) ↔ LetterFirst name := by
  obtain ⟨d, ds, hchars, hall, hdigit⟩ := synthesizedName_cons h role
  have hd : isPlainIdentifierCharacter d = true := List.all_eq_true.1 hall d List.mem_cons_self
  rw [IsPlainIdentifier, hchars, List.head?_cons, Option.any_some, isNameStart_iff hd,
    and_iff_left hall, hdigit]

/-- No reserved word ends like a synthesized name. -/
theorem synthesizedName_notMem_moduleWords (name : String) (role : TypeRole) :
    synthesizedName name role ∉ moduleWords := by
  have hend : ∀ w ∈ moduleWords, ¬role.suffix.toList <:+ w.toList := by
    cases role <;> decide +kernel
  intro hmem
  refine hend _ hmem ?_
  rw [synthesizedName, String.toList_append]
  exact List.suffix_append ..

end TypedRoutes.Naming

namespace TypedRoutes.Script
open TypedRoutes.Text TypedRoutes.Naming

/-! ## Declarations -/

/-- A declaration exports a type under a name, and means by it what stands after the equals sign. -/
structure DeclaresAlias (declaration name value : String) : Prop where
  exported : (Cursor.ofText declaration.toList).lexeme.token = .word "export" false
  keyword : (Cursor.ofText declaration.toList).next.lexeme.token = .word "type" false
  name : (Cursor.ofText declaration.toList).next.next.lexeme.token = .word name false
  equals : (Cursor.ofText declaration.toList).next.next.next.lexeme.token = .punct "="
  value : (Cursor.ofText declaration.toList).next.next.next.lexeme.after = value.toList

def Cursor.Faces (c : Cursor) (text : List Char) : Prop :=
  ∃ position atStart, c.lexeme = readToken position atStart text

theorem faces_ofText {text here : List Char} (h : text = here) : (Cursor.ofText text).Faces here :=
  ⟨0, true, h ▸ rfl⟩

namespace Cursor.Faces
variable {c : Cursor} {rest : List Char}

theorem word {name : String} (hname : IsIdentifier name) (hrest : BeginsToken rest)
    (h : c.Faces (name.toList ++ ' ' :: rest)) :
    c.lexeme.token = .word name false ∧ c.next.Faces rest := by
  obtain ⟨position, atStart, hlexeme⟩ := h
  have hread := readToken_beginsToken (beginsToken_word hname (' ' :: rest)) position atStart
  rw [← hlexeme, readBareToken_word hname (endsWord_cons (by decide) (by decide) rest)] at hread
  obtain ⟨htoken, hafter⟩ := hread
  refine ⟨htoken, c.lexeme.stop + 1, false, ?_⟩
  rw [Cursor.next, Cursor.ofRest, hafter, readToken_blank hrest]

end Cursor.Faces

theorem isIdentifier_of_plain {name : String} (h : IsPlainIdentifier name) :
    IsIdentifier name := by
  obtain ⟨hhead, hall⟩ := h
  cases hchars : name.toList with
  | nil => simp [hchars] at hhead
  | cons c cs =>
    rw [hchars, List.all_cons, Bool.and_eq_true] at hall
    rw [hchars, List.head?_cons, Option.any_some, isNameStart, Bool.and_eq_true] at hhead
    refine isIdentifier_of_cons hchars ?_ (List.all_eq_true.2 fun d hd => ?_)
    · rw [isIdentifierStart, if_pos hhead.1, hhead.2]
    · have hplain := List.all_eq_true.1 hall.2 d hd
      rw [isPlainIdentifierCharacter, Bool.and_eq_true] at hplain
      rw [isIdentifierPart, if_pos hplain.1, hplain.2]

theorem beginsToken_digit {d : Char} (h : d.isDigit = true) (text : List Char) :
    BeginsToken (d :: text) := by
  have hopens := forall_ascii (p := fun c => !c.isDigit || decide (OpensToken c))
    (by decide +kernel) (isAscii_of_isDigit h)
  simp only [h, Bool.not_true, Bool.false_or, decide_eq_true_eq] at hopens
  exact ⟨d, text, rfl, hopens⟩

theorem readBareToken_digit {d : Char} (h : d.isDigit = true) (text : List Char) (name : String)
    (escaped : Bool) : (readBareToken (d :: text)).1 ≠ .word name escaped := by
  have hne {e : Char} (he : e.isDigit = false) : d ≠ e := by
    rintro rfl
    rw [h] at he
    cases he
  rw [readBareToken, if_pos h]
  · dsimp only
    split <;> simp
  · exact hne (by decide)
  · exact hne (by decide)
  · exact hne (by decide)
  · exact fun _ _ hdot => absurd hdot (hne (by decide))

/-- The declaration made for a name declares it if the name does not begin with a digit, and nothing
otherwise. -/
theorem declaresAlias_aliasDeclaration {name : String} {d : Char} {ds : List Char}
    (hchars : name.toList = d :: ds) (hall : (d :: ds).all isPlainIdentifierCharacter = true)
    (text : String) :
    (d.isDigit = false → DeclaresAlias (aliasDeclaration name text) name
      (" " ++ dropEndChar ';' (trim text) ++ ";")) ∧
    ∀ declared value, DeclaresAlias (aliasDeclaration name text) declared value →
      d.isDigit = false := by
  let value : List Char := (dropEndChar ';' (trim text)).toList ++ [';']
  have hdeclaration : aliasDeclaration name text =
      "export type " ++ name ++ " = " ++ dropEndChar ';' (trim text) ++ ";" := rfl
  have htext : (aliasDeclaration name text).toList = "export".toList ++ ' ' ::
      ("type".toList ++ ' ' :: (name.toList ++ ' ' :: '=' :: ' ' :: value)) := by
    simp [hdeclaration, value]
  have hexport : IsIdentifier "export" := isIdentifier_of_cons rfl (by decide) (by decide)
  have htype : IsIdentifier "type" := isIdentifier_of_cons rfl (by decide) (by decide)
  have hequals : BeginsToken ('=' :: ' ' :: value) := ⟨_, _, rfl, by decide⟩
  have hname (hdigit : d.isDigit = false) : IsIdentifier name := by
    refine isIdentifier_of_plain ⟨?_, hchars ▸ hall⟩
    rw [hchars, List.head?_cons, Option.any_some]
    exact (isNameStart_iff (List.all_eq_true.1 hall d List.mem_cons_self)).2 hdigit
  have hbegins : BeginsToken (name.toList ++ ' ' :: '=' :: ' ' :: value) := by
    cases hdigit : d.isDigit with
    | true => rw [hchars]; exact beginsToken_digit hdigit _
    | false => exact beginsToken_word (hname hdigit) _
  obtain ⟨hfirst, hfaces⟩ := (faces_ofText htext).word hexport (beginsToken_word htype _)
  obtain ⟨hsecond, hfaces⟩ := hfaces.word htype hbegins
  constructor
  · intro hdigit
    obtain ⟨hthird, position, atStart, hlexeme⟩ := hfaces.word (hname hdigit) hequals
    obtain ⟨hfourth, hafter⟩ := readToken_beginsToken hequals position atStart
    rw [← hlexeme] at hfourth hafter
    exact ⟨hfirst, hsecond, hthird, hfourth, hafter.trans (by simp [value]; rfl)⟩
  · intro declared _ hdeclares
    by_contra hdigit
    rw [Bool.not_eq_false] at hdigit
    obtain ⟨position, atStart, hlexeme⟩ := hfaces
    have hthird := (readToken_beginsToken hbegins position atStart).1
    rw [← hlexeme, hdeclares.name, hchars, List.cons_append] at hthird
    exact readBareToken_digit hdigit _ _ _ hthird.symm

end TypedRoutes.Script

namespace TypedRoutes.Route
open TypedRoutes.Text TypedRoutes.Naming TypedRoutes.Script

/-- For a handler with an ASCII name the type on either side of its signature, if no declaration is
known for it, gets the letters and digits of the handler's name, each in one of its cases, with the
side after them.  The name is no reserved word; it is a legal name, and the declaration made for it
declares that name, exactly if no digit comes first among the letters and digits, and otherwise the
declaration declares nothing. -/
theorem synthesized_aliases_legal_iff {functionName : String} (h : IsPlainIdentifier functionName)
    (role : TypeRole) :
    (∃ camel : String, synthesizedName functionName role = camel ++ role.suffix ∧
      List.Forall₂ Recased (functionName.toList.filter isAlphanumeric) camel.toList) ∧
    synthesizedName functionName role ∉ moduleWords ∧
    (IsPlainIdentifier (synthesizedName functionName role) ↔ LetterFirst functionName) ∧
    ∀ {σ : Type} (a : Analysis σ) (state : σ) (resolved : ResolvedType),
      isBlankText resolved.text = false → resolved.symbol = none →
      ∃ info, a.typeInfo state functionName role resolved = some info ∧
        info.name = synthesizedName functionName role ∧
        (LetterFirst functionName → DeclaresAlias info.declaration info.name
          (" " ++ dropEndChar ';' (trim resolved.text) ++ ";")) ∧
        ∀ declared value, DeclaresAlias info.declaration declared value →
          LetterFirst functionName := by
  obtain ⟨d, ds, hchars, hall, hdigit⟩ := synthesizedName_cons h role
  refine ⟨⟨_, rfl, recased_upperCamel (isAscii_of_plain h)⟩,
    synthesizedName_notMem_moduleWords functionName role, synthesizedName_plain_iff h role, ?_⟩
  intro σ a state resolved hvisible hunnamed
  let name := synthesizedName functionName role
  obtain ⟨hdeclares, hdigits⟩ := declaresAlias_aliasDeclaration hchars hall resolved.text
  refine ⟨⟨name, aliasDeclaration name resolved.text⟩, ?_, rfl,
    fun hletter => hdeclares (hdigit.2 hletter),
    fun declared value h => hdigit.1 (hdigits declared value h)⟩
  simp [Analysis.typeInfo, hvisible, hunnamed, name]

theorem getUser2_alias_legal :
    IsPlainIdentifier "_get_user2" ∧
      IsPlainIdentifier (synthesizedName "_get_user2" .response) ∧
      ∃ info, (Analyzer.analysis {} []).typeInfo {} "_get_user2" .response
          ⟨"\x7b id: string \x7d;", none⟩ = some info ∧
        info.name = "GetUser2Response" ∧
        info.declaration = "export type GetUser2Response = \x7b id: string \x7d;" ∧
        DeclaresAlias info.declaration "GetUser2Response" " \x7b id: string \x7d;" := by
  have hplain : IsPlainIdentifier "_get_user2" := by decide +kernel
  obtain ⟨-, -, hlegal, hinfo⟩ := synthesized_aliases_legal_iff hplain .response
  have hletter : LetterFirst "_get_user2" := by decide +kernel
  obtain ⟨info, htype, hname, hdeclares, -⟩ := hinfo (Analyzer.analysis {} []) {}
    ⟨"\x7b id: string \x7d;", none⟩ (by decide +kernel) rfl
  have hcamel : synthesizedName "_get_user2" .response = "GetUser2Response" := by decide +kernel
  have hvalue : " " ++ dropEndChar ';' (trim "\x7b id: string \x7d;") ++ ";" =
      " \x7b id: string \x7d;" := by decide +kernel
  rw [hcamel] at hname
  have halias := hdeclares hletter
  rw [hname, hvalue] at halias
  cases htype
  exact ⟨hplain, hlegal.2 hletter, _, rfl, hcamel, by decide +kernel, halias⟩

/-- A handler's name in which a digit follows the underscore: the name made from it begins with the
digit, and the declaration declares nothing. -/
theorem twoFactor_alias_illegal :
    IsPlainIdentifier "_2fa" ∧ synthesizedName "_2fa" .body = "2faBody" ∧
      ¬IsPlainIdentifier (synthesizedName "_2fa" .body) ∧
      ∃ info, (Analyzer.analysis {} []).typeInfo {} "_2fa" .body
          ⟨"\x7b code: string \x7d", none⟩ = some info ∧
        info.name = "2faBody" ∧
        info.declaration = "export type 2faBody = \x7b code: string \x7d;" ∧
        ∀ name value, ¬DeclaresAlias info.declaration name value := by
  let declaration := aliasDeclaration (synthesizedName "_2fa" .body) "\x7b code: string \x7d"
  have hnone : (Cursor.ofText declaration.toList).next.next.lexeme.token.isName = false := by
    decide +kernel
  refine ⟨by decide +kernel, by decide +kernel, by decide +kernel, _, rfl, by decide +kernel,
    by decide +kernel, fun name value h => ?_⟩
  cases (congrArg Token.isName h.name).symm.trans hnone

end TypedRoutes.Route
