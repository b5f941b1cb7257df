import TypedRoutes.Naming.Identifier
import TypedRoutes.Proofs.DeclarationTexts
import TypedRoutes.Proofs.DefaultSpellings
import Mathlib.Data.List.DropRight

/-! # Exported declarations

A declaration is exported once in the client, whatever its module did: the modifier is put before
it unless it is there already.  Whether it is there is told from the text and not from the tokens,
so this depends on what stands behind the modifier.
-/

namespace TypedRoutes.Script
open TypedRoutes.Text TypedRoutes.Naming

/-! ## Modifiers -/

def isExported (text : List Char) : Bool := (Cursor.ofText text).lexeme.token.isWord "export"

/-- What the text declares: all from the first token on that is not the modifier. -/
def declared (text : List Char) : List Char :=
  if isExported text then (Cursor.ofText text).next.lexeme.here
  else (Cursor.ofText text).lexeme.here

structure ExportedOnce (text : List Char) : Prop where
  exported : isExported text = true
  once : (Cursor.ofText text).next.lexeme.token.isWord "export" = false

instance (text : List Char) : Decidable (ExportedOnce text) :=
  decidable_of_iff (isExported text = true ∧
      (Cursor.ofText text).next.lexeme.token.isWord "export" = false)
    ⟨fun h => ⟨h.1, h.2⟩, fun h => ⟨h.1, h.2⟩⟩

/-- Words that begin a declaration without a modifier, also after a renaming. -/
def BeginsUnexported (word : String) : Prop := IsIdentifier word ∧ word ≠ "export"

theorem readToken_here {text : List Char} (h : BeginsToken text) (position : Nat)
    (atStart : Bool) : (readToken position atStart text).here = text := by
  obtain ⟨c, cs, rfl, hc⟩ := h
  simp only [readToken, skipTrivia_opensToken hc]

theorem isIdentifier_export : IsIdentifier "export" :=
  isIdentifier_of_cons rfl (by decide) (by decide)

section Modifier
variable {rest : List Char}

theorem readToken_export (hend : EndsWord rest) (position : Nat) (atStart : Bool) :
    (readToken position atStart ("export".toList ++ rest)).token = .word "export" false ∧
      (readToken position atStart ("export".toList ++ rest)).after = rest := by
  have hread := readToken_beginsToken (beginsToken_word isIdentifier_export rest) position atStart
  rwa [readBareToken_word isIdentifier_export hend] at hread

theorem isExported_export (hend : EndsWord rest) : isExported ("export".toList ++ rest) = true := by
  rw [isExported, Cursor.ofText, (readToken_export hend 0 true).1]
  rfl

theorem next_export {gap : List Char} (hgap : Trivia .blank false gap)
    (hend : EndsWord (gap ++ rest)) (hrest : BeginsToken rest) :
    (Cursor.ofText ("export".toList ++ (gap ++ rest))).next.lexeme.token = (readBareToken rest).1 ∧
      (Cursor.ofText ("export".toList ++ (gap ++ rest))).next.lexeme.here = rest := by
  obtain ⟨c, cs, rfl, hc⟩ := hrest
  have hpassed := hgap.passed hc cs 0
  rw [Cursor.ofText, Cursor.next, Cursor.ofRest]
  dsimp only
  rw [(readToken_export hend 0 true).2, readToken]
  rcases hskipped : skipTrivia .blank 0 false (gap ++ c :: cs) with ⟨n, broken, here⟩
  rw [hskipped] at hpassed
  dsimp only at hpassed ⊢
  rw [hpassed]
  exact ⟨rfl, rfl⟩

theorem declared_export {gap : List Char} (hgap : Trivia .blank false gap)
    (hend : EndsWord (gap ++ rest)) (hrest : BeginsToken rest) :
    declared ("export".toList ++ (gap ++ rest)) = rest := by
  rw [declared, if_pos (isExported_export hend), (next_export hgap hend hrest).2]

end Modifier

/-! ## Declarations without blanks around them -/

def BeginsVisibly (text : List Char) : Prop :=
  ∃ c cs, text = c :: cs ∧ OpensToken c ∧ isWhitespace c = false

theorem trimEndChars_append {c : Char} (hc : isWhitespace c = false) (front cs : List Char) :
    trimEndChars (front ++ c :: cs) = front ++ c :: trimEndChars cs := by
  simp only [trimEndChars, dropEndWhile, List.reverse_append, List.reverse_cons, List.append_assoc,
    List.dropWhile_append]
  split
  · rename_i hblank
    rw [List.isEmpty_iff.1 hblank]
    simp [hc]
  · simp

theorem isPrefix_trimEndChars (text : List Char) : trimEndChars text <+: text :=
  isPrefix_dropEndWhile isWhitespace text

theorem trimEndChars_idem (text : List Char) :
    trimEndChars (trimEndChars text) = trimEndChars text :=
  dropEndWhile_eq_self (last_dropEndWhile isWhitespace text)

namespace BeginsVisibly
variable {text : List Char} (h : BeginsVisibly text)
include h

theorem beginsToken : BeginsToken text := by
  obtain ⟨c, cs, rfl, hc, -⟩ := h
  exact ⟨c, cs, rfl, hc⟩

theorem trimEnd (front : List Char) : trimEndChars (front ++ text) = front ++ trimEndChars text := by
  obtain ⟨c, cs, rfl, -, hc⟩ := h
  have htext := trimEndChars_append hc [] cs
  rw [trimEndChars_append hc front cs]
  exact congrArg (front ++ ·) htext.symm

theorem trimStart : trimStartChars text = text := by
  obtain ⟨c, cs, rfl, -, hc⟩ := h
  simp [trimStartChars, hc]

end BeginsVisibly

theorem visible_of_start {c : Char} (h : isIdentifierStart c = true) : isWhitespace c = false := by
  rw [← Bool.not_eq_true]
  intro hblank
  exact ne_of_part (isIdentifierPart_of_start h) (not_part_of_whitespace hblank) rfl

theorem beginsVisibly_word {name : String} (hname : IsIdentifier name) (rest : List Char) :
    BeginsVisibly (name.toList ++ rest) := by
  obtain ⟨c, cs, hchars, hstart, -⟩ := hname
  exact ⟨c, cs ++ rest, by rw [hchars, List.cons_append], opensToken_of_start hstart,
    visible_of_start hstart⟩

section Trimmed
variable {text : List Char}

theorem Opens.beginsVisibly (h : Opens BeginsUnexported text) : BeginsVisibly text := by
  cases h with
  | sign rest => exact ⟨'@', rest, rfl, by decide, by decide⟩
  | word hname _ => exact beginsVisibly_word hname.1 _

theorem Opens.not_export (h : Opens BeginsUnexported text) :
    (readBareToken text).1.isWord "export" = false := by
  cases h with
  | sign rest => rfl
  | word hname hend =>
    rw [readBareToken_word hname.1 hend]
    exact beq_false_of_ne hname.2

theorem Opens.trimEnd (h : Opens BeginsUnexported text) :
    Opens BeginsUnexported (trimEndChars text) := by
  cases h with
  | sign rest =>
    have hsign : isWhitespace '@' = false := by decide
    rw [← List.nil_append ('@' :: rest), trimEndChars_append hsign]
    exact .sign _
  | @word name rest hname hend =>
    obtain ⟨hne, hparts⟩ := hname.1.ofParts
    have hlast : isWhitespace (name.toList.getLast hne) = false := by
      rw [← Bool.not_eq_true]
      intro hblank
      exact ne_of_part (hparts _ (List.getLast_mem hne)) (not_part_of_whitespace hblank) rfl
    have htrim := trimEndChars_append hlast name.toList.dropLast rest
    rw [← List.singleton_append, ← List.append_assoc, List.dropLast_concat_getLast,
      ← List.singleton_append, ← List.append_assoc, List.dropLast_concat_getLast] at htrim
    rw [htrim]
    exact .word hname (hend.beginning (isPrefix_trimEndChars rest))

theorem DeclarationText.beginsVisibly (h : DeclarationText BeginsUnexported text) :
    BeginsVisibly text := by
  cases h with
  | plain h => exact h.beginsVisibly
  | exported => exact beginsVisibly_word isIdentifier_export _

theorem DeclarationText.trimEnd (h : DeclarationText BeginsUnexported text) :
    DeclarationText BeginsUnexported (trimEndChars text) := by
  cases h with
  | plain h => exact .plain h.trimEnd
  | @exported gap rest hgap hend h =>
    rw [← List.append_assoc, h.beginsVisibly.trimEnd, List.append_assoc]
    refine .exported hgap (hend.beginning ?_) h.trimEnd
    exact (List.prefix_append_right_inj gap).2 (isPrefix_trimEndChars rest)

end Trimmed

/-! ## The modifier in the client -/

theorem toList_exportedDeclaration {declaration : String}
    (h : DeclarationText BeginsUnexported declaration.toList) :
    (exportedDeclaration declaration).toList =
      if "export ".toList <+: trimEndChars declaration.toList then trimEndChars declaration.toList
      else "export ".toList ++ trimEndChars declaration.toList := by
  have htrim : (trim declaration).toList = trimEndChars declaration.toList := by
    rw [trim, String.toList_ofList, trimChars, h.beginsVisibly.trimStart]
  unfold exportedDeclaration
  simp only [beginsWith, List.isPrefixOf_iff_prefix, htrim]
  split
  · exact htrim
  · rw [String.toList_append, htrim]

theorem isExported_eq {text : List Char} (h : BeginsVisibly text) :
    isExported text = (readBareToken text).1.isWord "export" := by
  rw [isExported, Cursor.ofText, (readToken_beginsToken h.beginsToken 0 true).1]

/-- The modifier is found with one blank behind it exactly if this blank comes there first. -/
theorem export_prefix_iff {rest : List Char} (hrest : BeginsVisibly rest) (gap : List Char) :
    "export ".toList <+: "export".toList ++ (gap ++ rest) ↔ gap.head? = some ' ' := by
  change "export".toList ++ [' '] <+: _ ↔ _
  rw [List.prefix_append_right_inj]
  cases gap with
  | nil =>
    obtain ⟨c, cs, rfl, -, hc⟩ := hrest
    have hne : ' ' ≠ c := by
      rintro rfl
      cases hc
    simp [List.cons_prefix_cons, hne]
  | cons d ds => simp [List.cons_prefix_cons, eq_comm]

theorem trivia_blank : Trivia .blank false [' '] := .blank (by decide) (by decide) .nil

theorem endsWord_blank (text : List Char) : EndsWord ([' '] ++ text) :=
  endsWord_cons (by decide) (by decide) text

/-- The modifier put before a text is the only one exactly if the text has none. -/
theorem exportedOnce_export_iff {text : List Char} (h : BeginsVisibly text) :
    ExportedOnce ("export ".toList ++ text) ↔ isExported text = false := by
  have hnext := (next_export trivia_blank (endsWord_blank text) h.beginsToken).1
  rw [isExported_eq h, ← hnext]
  exact ⟨fun honce => honce.once, fun honce => ⟨isExported_export (endsWord_blank text), honce⟩⟩

theorem declared_unexported {text : List Char} (h : Opens BeginsUnexported text) :
    isExported text = false ∧ declared text = text := by
  have hnot : isExported text = false := (isExported_eq h.beginsVisibly).trans h.not_export
  refine ⟨hnot, ?_⟩
  rw [declared, if_neg (by rw [hnot]; exact Bool.false_ne_true), Cursor.ofText,
    readToken_here h.beginsVisibly.beginsToken]

theorem exportedDeclaration_once_iff {declaration : String}
    (h : DeclarationText BeginsUnexported declaration.toList) :
    (ExportedOnce (exportedDeclaration declaration).toList ∧
        declared (exportedDeclaration declaration).toList =
          trimEndChars (declared declaration.toList)) ↔
      (isExported declaration.toList = true → beginsWith "export " declaration = true) := by
  rw [toList_exportedDeclaration h, beginsWith, List.isPrefixOf_iff_prefix]
  generalize declaration.toList = text at h
  cases h with
  | plain h =>
    have htrimmed := declared_unexported h.trimEnd
    have hvisible := h.trimEnd.beginsVisibly
    have hnot : ¬"export ".toList <+: trimEndChars text := by
      rintro ⟨more, hmore⟩
      have hexported := isExported_export (endsWord_blank more)
      change isExported ("export ".toList ++ more) = true at hexported
      rw [hmore, htrimmed.1] at hexported
      cases hexported
    rw [if_neg hnot, (declared_unexported h).1, (declared_unexported h).2]
    refine iff_of_true ⟨(exportedOnce_export_iff hvisible).2 htrimmed.1, ?_⟩ nofun
    exact declared_export trivia_blank (endsWord_blank _) hvisible.beginsToken
  | @exported gap rest hgap hend h =>
    have hvisible := h.beginsVisibly
    have hvisible' := h.trimEnd.beginsVisibly
    have hend' : EndsWord (gap ++ trimEndChars rest) :=
      hend.beginning ((List.prefix_append_right_inj gap).2 (isPrefix_trimEndChars rest))
    have htrim : trimEndChars ("export".toList ++ (gap ++ rest)) =
        "export".toList ++ (gap ++ trimEndChars rest) := by
      rw [← List.append_assoc, hvisible.trimEnd, List.append_assoc]
    have hbegins := export_prefix_iff hvisible' gap
    rw [htrim, export_prefix_iff hvisible, isExported_export hend,
      declared_export hgap hend hvisible.beginsToken]
    by_cases hblank : gap.head? = some ' '
    · rw [if_pos (hbegins.2 hblank)]
      refine iff_of_true ⟨⟨isExported_export hend', ?_⟩, ?_⟩ fun _ => hblank
      · rw [(next_export hgap hend' hvisible'.beginsToken).1, h.trimEnd.not_export]
      · exact declared_export hgap hend' hvisible'.beginsToken
    · rw [if_neg (mt hbegins.1 hblank)]
      refine iff_of_false (fun honce => ?_) fun hall => hblank (hall rfl)
      have hvisible'' : BeginsVisibly ("export".toList ++ (gap ++ trimEndChars rest)) :=
        beginsVisibly_word isIdentifier_export _
      have hagain := (exportedOnce_export_iff hvisible'').1 honce.1
      rw [isExported_export hend'] at hagain
      cases hagain

theorem exportedDeclaration_idem {declaration : String}
    (h : DeclarationText BeginsUnexported declaration.toList) :
    exportedDeclaration (exportedDeclaration declaration) = exportedDeclaration declaration := by
  have hchars := toList_exportedDeclaration h
  have hvisible := h.trimEnd.beginsVisibly
  have hidem := trimEndChars_idem declaration.toList
  generalize exportedDeclaration declaration = exported at hchars ⊢
  have hexported : trimChars exported.toList = exported.toList ∧
      "export ".toList <+: exported.toList := by
    rw [hchars]
    split
    · rename_i hbegins
      exact ⟨by rw [trimChars, hvisible.trimStart, hidem], hbegins⟩
    · have hmodified : BeginsVisibly ("export ".toList ++ trimEndChars declaration.toList) :=
        beginsVisibly_word isIdentifier_export ([' '] ++ trimEndChars declaration.toList)
      refine ⟨?_, List.prefix_append _ _⟩
      rw [trimChars, hmodified.trimStart, hvisible.trimEnd, hidem]
  unfold exportedDeclaration
  simp only [trim, hexported.1, String.ofList_toList, beginsWith, List.isPrefixOf_iff_prefix,
    hexported.2, if_true]

/-! ## The declarations of a module -/

/-- The declaration has the text as it stands, or with a type under another name. -/
inductive IsRenamed (text : String) : String → Prop
  | kept : IsRenamed text text
  | renamed {name replacement : String} (hname : IsIdentifier name)
      (hreplacement : IsIdentifier replacement) (hne : replacement ≠ "export") :
      IsRenamed text (renameDeclaredType text name replacement)

theorem isPlainName_of_mem_declarationWords :
    ∀ word ∈ declarationWords, IsPlainName word.toList ∧ BeginsUnexported word := by
  have hwords : ∀ word ∈ declarationWords, IsPlainName word.toList ∧ word ≠ "export" ∧
      word.toList.head?.any isIdentifierStart = true ∧
      word.toList.all isIdentifierPart = true := by decide
  intro word hword
  obtain ⟨hplain, hne, hstart, hparts⟩ := hwords word hword
  obtain ⟨c, cs, hchars⟩ := List.exists_cons_of_ne_nil hplain.1
  rw [hchars] at hstart hparts
  rw [List.all_cons, Bool.and_eq_true] at hparts
  exact ⟨hplain, isIdentifier_of_cons hchars hstart hparts.2, hne⟩

theorem declarationText_of_isRenamed {text declaration : String}
    (htext : DeclarationText (· ∈ declarationWords) text.toList) (h : IsRenamed text declaration) :
    DeclarationText BeginsUnexported declaration.toList := by
  have hkept : DeclarationText BeginsUnexported text.toList :=
    htext.mono fun word hword => (isPlainName_of_mem_declarationWords word hword).2
  cases h with
  | kept => exact hkept
  | @renamed name replacement hname hreplacement hne =>
    unfold renameDeclaredType
    split
    · exact hkept
    · rw [String.toList_ofList]
      apply htext.renamed hname.ofParts isPlainName_of_mem_declarationWords
      · rw [String.ofList_toList]
        exact ⟨hreplacement, hne⟩
      · exact hreplacement.ofParts

section Modules
variable {files : FileTree} {directory : Location} {file : String} {m : ParsedModule}

theorem readModule_of_loadModule (hm : loadModule files directory file = .ok m) :
    ∃ dialect, readModule dialect m.text = some m.items := by
  obtain ⟨_, _, -, hmodule⟩ := moduleOf_of_loadModule hm
  obtain ⟨items, hread, rfl⟩ := Option.map_eq_some_iff.1 hmodule
  exact ⟨_, hread⟩

theorem declarationText_of_mem (hm : loadModule files directory file = .ok m)
    {name text : String} (h : (name, text) ∈ m.ownDeclarations) :
    DeclarationText (· ∈ declarationWords) text.toList := by
  obtain ⟨dialect, hread⟩ := readModule_of_loadModule hm
  rw [ParsedModule.ownDeclarations, List.mem_reverse, List.mem_filterMap] at h
  obtain ⟨item, hitem, hdeclared⟩ := h
  split at hdeclared
  · cases hdeclared
    rw [ParsedModule.textOf, String.toList_ofList]
    exact declarationText_of_declares (declares_of_readModule hread hitem)
  · cases hdeclared

/-- A declaration of a module, renamed or not, comes out as the same declaration with exactly one
modifier unless its modifier is followed by anything but one blank; and it comes out the same when
it is exported again. -/
theorem exported_once_iff (hm : loadModule files directory file = .ok m) {name text : String}
    (htext : (name, text) ∈ m.ownDeclarations) {declaration : String}
    (hdeclaration : IsRenamed text declaration) :
    ((ExportedOnce (exportedDeclaration declaration).toList ∧
        declared (exportedDeclaration declaration).toList =
          trimEndChars (declared declaration.toList)) ↔
      (isExported declaration.toList = true → beginsWith "export " declaration = true)) ∧
      exportedDeclaration (exportedDeclaration declaration) = exportedDeclaration declaration := by
  have h := declarationText_of_isRenamed (declarationText_of_mem hm htext) hdeclaration
  exact ⟨exportedDeclaration_once_iff h, exportedDeclaration_idem h⟩

end Modules

/-! ## Modules with one declaration -/

theorem exists_of_toOption {ε α β : Type} {x : Except ε α} {f : α → β} {b : β}
    (h : x.toOption.map f = some b) : ∃ a, x = .ok a ∧ f a = b := by
  cases x with
  | error e => cases h
  | ok a => exact ⟨a, rfl, Option.some.inj h⟩

def commentedChain : String := "export /* pages */ type Chain = \x7b next: Chain \x7d;"

theorem commentedChain_exported_once :
    ∃ m, loadModule (oneModule commentedChain) [] "get.ts" = .ok m ∧
      ("Chain", commentedChain) ∈ m.ownDeclarations ∧
      IsRenamed commentedChain (renameDeclaredType commentedChain "Chain" "Chain_2") ∧
      ExportedOnce
        (exportedDeclaration (renameDeclaredType commentedChain "Chain" "Chain_2")).toList := by
  have hread : (loadModule (oneModule commentedChain) [] "get.ts").toOption.map
      ParsedModule.ownDeclarations = some [("Chain", commentedChain)] := by decide +kernel
  obtain ⟨m, hm, hown⟩ := exists_of_toOption hread
  have htext : ("Chain", commentedChain) ∈ m.ownDeclarations := by
    rw [hown]
    exact .head _
  have hrenamed : IsRenamed commentedChain (renameDeclaredType commentedChain "Chain" "Chain_2") :=
    .renamed (isIdentifier_of_cons rfl (by decide) (by decide))
      (isIdentifier_of_cons rfl (by decide) (by decide)) (by decide)
  refine ⟨m, hm, htext, hrenamed, ?_⟩
  exact ((exported_once_iff hm htext hrenamed).1.2 fun _ => by decide +kernel).1

def tabbedPage : String := "export\ttype Page = string;"

/-- Where a tab follows the modifier, the declaration gets another one. -/
theorem tabbedPage_exported_twice :
    (∃ m, loadModule (oneModule tabbedPage) [] "get.ts" = .ok m ∧
      ("Page", tabbedPage) ∈ m.ownDeclarations) ∧
      exportedDeclaration tabbedPage = "export export\ttype Page = string;" ∧
      ¬ExportedOnce (exportedDeclaration tabbedPage).toList := by
  have hread : (loadModule (oneModule tabbedPage) [] "get.ts").toOption.map
      ParsedModule.ownDeclarations = some [("Page", tabbedPage)] := by decide +kernel
  obtain ⟨m, hm, hown⟩ := exists_of_toOption hread
  refine ⟨⟨m, hm, ?_⟩, by decide +kernel, by decide +kernel⟩
  rw [hown]
  exact .head _

end TypedRoutes.Script
