import TypedRoutes.Proofs.ExportedDeclarations
import TypedRoutes.Proofs.QualifiedReferences
import TypedRoutes.Proofs.ReferenceTexts

/-! # Names that types are shown under

A type is shown under what follows the last dot of its reference, and its declaration is looked up
under the last name that the reference was parsed to.  The two differ where anything stands between
the dot and the name, or where the name is not written with its own characters.
-/

namespace TypedRoutes.Naming
open TypedRoutes.Text TypedRoutes.Script

/-! ## The last segment -/

structure LastDot (text front rest : List Char) : Prop where
  text_eq : text = front ++ rest
  front_dot : ∀ c ∈ front.getLast?, c = '.'
  rest_dot : '.' ∉ rest

theorem exists_lastDot (text : List Char) : ∃ front rest, LastDot text front rest := by
  obtain ⟨run, front, hrun, -, htext, hdot⟩ := exists_longest_run (· != '.') text.reverse
  refine ⟨front.reverse, run.reverse, ?_, ?_, ?_⟩
  · rw [← List.reverse_append, ← htext, List.reverse_reverse]
  · rw [List.getLast?_reverse]
    rw [htext, List.takeWhile_append_of_pos hdot, List.append_right_eq_self] at hrun
    cases front with
    | nil => nofun
    | cons c front =>
      rintro _ ⟨⟩
      by_contra hc
      simp [hc] at hrun
  · rw [List.mem_reverse]
    exact fun hmem => by simpa using hdot _ hmem

theorem LastDot.lastSegment {text front rest : List Char} (h : LastDot text front rest) :
    lastSegment text = if rest = [] then text else rest := by
  have htail : (text.reverse.takeWhile (· != '.')).reverse = rest := by
    rw [h.text_eq, List.reverse_append, takeWhile_append_of_stop, List.reverse_reverse]
    · intro c hc
      exact bne_iff_ne.2 (by rintro rfl; exact h.rest_dot (List.mem_reverse.1 hc))
    · rw [List.head?_reverse]
      intro c hc
      rw [h.front_dot c hc, bne_self_eq_false]
  rw [Naming.lastSegment, htail]
  by_cases hrest : rest = []
  · simp [hrest]
  · by_cases hlength : rest.length = text.length
    · have hfront : front = [] := by
        rw [h.text_eq, List.length_append] at hlength
        exact List.length_eq_zero_iff.1 (by omega)
      simp [h.text_eq, hfront]
    · simp [hrest, hlength]

theorem lastSegment_of_notMem {text : List Char} (h : '.' ∉ text) : lastSegment text = text := by
  have hwhole : LastDot text [] text := ⟨rfl, nofun, h⟩
  rw [hwhole.lastSegment, ite_self]

theorem lastSegment_append {front rest : List Char} (hfront : ∀ c ∈ front.getLast?, c = '.')
    (hrest : '.' ∉ rest) (hne : rest ≠ []) : lastSegment (front ++ rest) = rest := by
  have hcut : LastDot (front ++ rest) front rest := ⟨rfl, hfront, hrest⟩
  rw [hcut.lastSegment, if_neg hne]

theorem lastSegment_dot (front : List Char) : lastSegment (front ++ ['.']) = front ++ ['.'] := by
  have hcut : LastDot (front ++ ['.']) (front ++ ['.']) [] :=
    ⟨(List.append_nil _).symm, by simp, List.not_mem_nil⟩
  rw [hcut.lastSegment, if_pos rfl]

/-! ## Stripping twice -/

structure Trimmed (text : List Char) : Prop where
  head : ∀ c ∈ text.head?, isWhitespace c = false
  last : ∀ c ∈ text.getLast?, isWhitespace c = false

theorem trimmed_trimChars (text : List Char) : Trimmed (trimChars text) where
  head c hc := by
    obtain ⟨blank, hblank⟩ := isPrefix_trimEndChars (trimStartChars text)
    refine head_dropWhile isWhitespace text c ?_
    rw [trimChars] at hc
    rw [← trimStartChars, ← hblank, List.head?_append, hc]
    rfl
  last := last_dropEndWhile isWhitespace _

theorem Trimmed.trimChars {text : List Char} (h : Trimmed text) : trimChars text = text := by
  rw [Text.trimChars, trimStartChars, dropWhile_eq_self h.head, trimEndChars,
    dropEndWhile_eq_self h.last]

theorem mem_of_mem_trimChars {text : List Char} {c : Char} (h : c ∈ trimChars text) : c ∈ text :=
  (List.dropWhile_suffix _).subset ((isPrefix_trimEndChars _).subset h)

/-- Stripping a name again changes it exactly if whitespace follows its last dot. -/
theorem stripQualifier_idem_iff (text : String) :
    stripQualifier (stripQualifier text) = stripQualifier text ↔
      ∀ front rest, trimChars text.toList = front ++ '.' :: rest → '.' ∉ rest →
        ∀ c ∈ rest.head?, isWhitespace c = false := by
  have htrimmed := trimmed_trimChars text.toList
  simp only [stripQualifier, String.toList_ofList, String.ofList_inj]
  generalize trimChars text.toList = name at htrimmed ⊢
  constructor
  · rintro hsame front rest rfl hrest
    by_cases hne : rest = []
    · simp [hne]
    rw [← List.singleton_append, ← List.append_assoc,
      lastSegment_append (by simp) hrest hne] at hsame
    have hdot : '.' ∉ trimChars rest := fun h => hrest (mem_of_mem_trimChars h)
    rw [lastSegment_of_notMem hdot] at hsame
    rw [← hsame]
    exact (trimmed_trimChars rest).head
  · intro hhead
    obtain ⟨front, rest, hcut⟩ := exists_lastDot name
    have hwhole : lastSegment (trimChars name) = lastSegment name := by rw [htrimmed.trimChars]
    rw [hcut.lastSegment]
    split
    · rwa [hcut.lastSegment, if_pos ‹_›] at hwhole
    · rename_i hne
      rcases List.eq_nil_or_concat front with rfl | ⟨front, c, rfl⟩
      · rwa [hcut.lastSegment, if_neg hne, hcut.text_eq] at hwhole
      · obtain rfl : c = '.' := hcut.front_dot c (by simp)
        have htext : name = front ++ '.' :: rest := by simpa using hcut.text_eq
        have hlast : rest.getLast? = name.getLast? := by
          rw [hcut.text_eq, List.getLast?_append_of_ne_nil _ hne]
        have hrest : Trimmed rest := ⟨hhead front rest htext hcut.rest_dot, hlast ▸ htrimmed.last⟩
        rw [hrest.trimChars, lastSegment_of_notMem hcut.rest_dot]

end TypedRoutes.Naming

namespace TypedRoutes.Script
open TypedRoutes.Text TypedRoutes.Naming TypedRoutes.Route

/-! ## The last name of a path -/

theorem IsWritten.visible {c : Char} (h : IsWritten c) : isWhitespace c = false := by
  rcases h with hpart | hsign
  · rw [← Bool.not_eq_true]
    exact fun hblank => ne_of_part hpart (not_part_of_whitespace hblank) rfl
  · have hall : IsVisible escapeSigns := by decide
    exact hall.2 c hsign

theorem IsWritten.ne_dot {c : Char} (h : IsWritten c) : c ≠ '.' := by
  rintro rfl
  rcases h with h | h <;> revert h <;> decide

theorem Trivia.ne_nil {state : TriviaState} {broken : Bool} {gap : List Char}
    (h : Trivia state broken gap) (hstate : state ≠ .blank) : gap ≠ [] := by
  cases h <;> first | exact List.cons_ne_nil _ _ | exact absurd rfl hstate

/-- The last character of a text, if it has one, is neither one of a name nor a dot. -/
def EndsApart (text : List Char) : Prop :=
  ∀ c ∈ text.getLast?, isIdentifierPart c = false ∧ c ≠ '.'

namespace EndsApart
variable {c : Char} {cs : List Char}

theorem cons (hc : isIdentifierPart c = false ∧ c ≠ '.') (h : EndsApart cs) :
    EndsApart (c :: cs) := by
  cases cs with
  | nil => rintro _ ⟨⟩; exact hc
  | cons d cs => exact h

theorem cons_of_ne_nil (hne : cs ≠ []) (h : EndsApart cs) : EndsApart (c :: cs) := by
  rwa [EndsApart, List.getLast?_cons_of_ne_nil hne]

theorem of_suffix {text : List Char} (h : EndsApart text) (hsuffix : cs <:+ text) :
    EndsApart cs := by
  obtain ⟨front, rfl⟩ := hsuffix
  by_cases hne : cs = []
  · rw [hne]
    exact nofun
  · rwa [EndsApart, List.getLast?_append_of_ne_nil _ hne] at h

end EndsApart

theorem Trivia.endsApart {state : TriviaState} {broken : Bool} {gap : List Char}
    (h : Trivia state broken gap) : EndsApart gap := by
  have hall : ['/', '*', '<', '!', '-', '>'].all
      (fun c => !isIdentifierPart c && c != '.') = true := by
    decide
  have hsign (c : Char) (hc : c ∈ ['/', '*', '<', '!', '-', '>']) :
      isIdentifierPart c = false ∧ c ≠ '.' := by
    simpa using List.all_eq_true.1 hall c hc
  have hblank {c : Char} (hc : isLineBreak c = true ∨ isBlank c = true) :
      isIdentifierPart c = false ∧ c ≠ '.' :=
    ⟨not_part_of_blank hc, by rintro rfl; revert hc; decide⟩
  induction h with
  | nil => exact nofun
  | lineComment _ ih | blockComment _ ih | blockEnd _ ih =>
    exact .cons (hsign _ (by decide)) (.cons (hsign _ (by decide)) ih)
  | pageComment _ ih =>
    exact .cons (hsign _ (by decide)) (.cons (hsign _ (by decide))
      (.cons (hsign _ (by decide)) (.cons (hsign _ (by decide)) ih)))
  | pageCommentEnd _ ih =>
    exact .cons (hsign _ (by decide)) (.cons (hsign _ (by decide)) (.cons (hsign _ (by decide)) ih))
  | lineBreak hc _ ih | lineEnd hc _ ih => exact .cons (hblank (.inl hc)) ih
  | blank _ hc _ ih => exact .cons (hblank (.inr hc)) ih
  | inLine _ h ih | inBlock _ h ih => exact .cons_of_ne_nil (h.ne_nil nofun) ih

/-- How the last name of a path stands in a text: blanks and comments may come before it, after a
dot, and a dot may come after it. -/
structure LastName (name : String) (text front gap word ending : List Char) : Prop where
  text_eq : text = front ++ (gap ++ (word ++ ending))
  spelled : Spells name word
  gap : front = [] ∧ gap = [] ∨ front.getLast? = some '.' ∧ Trivia .blank false gap
  ending : ending = [] ∨ ∃ before, Trivia .blank false before ∧ ending = before ++ ['.']

theorem Qualifies.lastName {names : List String} {rest : List Char} (h : Qualifies names rest)
    {name : String} {front gap word : List Char} (hword : Spells name word)
    (hgap : front = [] ∧ gap = [] ∨ front.getLast? = some '.' ∧ Trivia .blank false gap) :
    ∃ last front' gap' word' ending, (name :: names).getLast? = some last ∧
      LastName last (front ++ (gap ++ (word ++ rest))) front' gap' word' ending := by
  induction h generalizing name front gap word with
  | nil => exact ⟨name, front, gap, word, [], rfl, rfl, hword, hgap, .inl rfl⟩
  | dot hbefore => exact ⟨name, front, gap, word, _, rfl, rfl, hword, hgap, .inr ⟨_, hbefore, rfl⟩⟩
  | @name next names before after word' rest hbefore hafter hword' _ ih =>
    have hdot : (front ++ (gap ++ (word ++ (before ++ ['.'])))).getLast? = some '.' := by
      simp [List.getLast?_append]
    obtain ⟨last, front', gap', word'', ending, hlast, hname⟩ := ih hword' (.inr ⟨hdot, hafter⟩)
    exact ⟨last, front', gap', word'', ending, hlast, by simpa using hname⟩

theorem WritesPath.lastName {path : List String} {text : List Char} (h : WritesPath path text) :
    ∃ name front gap word ending, path.getLast? = some name ∧
      LastName name text front gap word ending := by
  obtain ⟨hword, hrest⟩ := h
  exact hrest.lastName hword (.inl ⟨rfl, rfl⟩)

namespace LastName
variable {name : String} {text front gap word ending : List Char}
  (h : LastName name text front gap word ending)
include h

theorem front_dot : ∀ c ∈ front.getLast?, c = '.' := by
  rcases h.gap with ⟨rfl, -⟩ | ⟨hdot, -⟩
  · nofun
  · rw [hdot]
    rintro _ ⟨⟩
    rfl

theorem endsApart_gap : EndsApart gap := by
  rcases h.gap with ⟨-, rfl⟩ | ⟨-, hgap⟩
  · exact nofun
  · exact hgap.endsApart

theorem lastSegment (hending : ending = []) :
    ∃ before, before <:+ gap ∧ (gap ≠ [] → before ≠ []) ∧ ('.' ∉ gap → before = gap) ∧
      Naming.lastSegment text = before ++ word := by
  obtain ⟨front', before, hcut⟩ := exists_lastDot gap
  have hword := h.spelled.written
  refine ⟨before, ⟨front', hcut.text_eq.symm⟩, ?_, ?_, ?_⟩
  · rintro hne rfl
    have hgap : gap = front' := by simpa using hcut.text_eq
    have hlast := List.getLast?_eq_some_getLast hne
    exact (h.endsApart_gap _ hlast).2 (hcut.front_dot _ (hgap ▸ hlast))
  · intro hdot
    have hfront : front' = [] := by
      by_contra hne
      have hlast := List.getLast?_eq_some_getLast hne
      refine hdot ?_
      rw [hcut.text_eq, ← hcut.front_dot _ hlast]
      exact List.mem_append_left _ (List.getLast_mem hne)
    rw [hcut.text_eq, hfront, List.nil_append]
  · have htext : text = (front ++ front') ++ (before ++ word) := by
      rw [h.text_eq, hending, hcut.text_eq]
      simp
    rw [htext]
    refine lastSegment_append ?_ ?_ ?_
    · intro c hc
      rw [List.getLast?_append, Option.mem_def, Option.or_eq_some_iff] at hc
      rcases hc with hc | ⟨-, hc⟩
      · exact hcut.front_dot c hc
      · exact h.front_dot c hc
    · rw [List.mem_append, not_or]
      exact ⟨hcut.rest_dot, fun hmem => (hword.written _ hmem).ne_dot rfl⟩
    · simp [hword.nonempty]

theorem trimmed (hhead : ∀ c ∈ text.head?, isWhitespace c = false) : Trimmed text where
  head := hhead
  last c hc := by
    rw [h.text_eq] at hc
    rcases h.ending with rfl | ⟨before, -, rfl⟩
    · rw [List.append_nil, ← List.append_assoc,
        List.getLast?_append_of_ne_nil _ h.spelled.written.nonempty] at hc
      exact (h.spelled.written.written c (List.mem_of_getLast? hc)).visible
    · obtain rfl : '.' = c := by simpa using hc
      decide

/-- The text is stripped down to the name exactly if nothing stands between the dot and the name or
after it, and the name is written with its own characters. -/
theorem lastSegment_eq_iff :
    Naming.lastSegment text = name.toList ↔ gap = [] ∧ word = name.toList ∧ ending = [] := by
  have hparts := h.spelled.written.parts
  constructor
  · intro heq
    rcases h.ending with hending | ⟨before, -, hending⟩
    · obtain ⟨before, hsuffix, hne, -, hsegment⟩ := h.lastSegment hending
      rw [hsegment] at heq
      have hgap : gap = [] := by
        by_contra hgap
        have hlast := List.getLast?_eq_some_getLast (hne hgap)
        have happart := (h.endsApart_gap.of_suffix hsuffix _ hlast).1
        have hpart := hparts _ (heq ▸ List.mem_append_left _ (List.getLast_mem (hne hgap)))
        exact absurd (hpart.symm.trans happart) nofun
      rw [hgap] at hsuffix
      rw [List.suffix_nil.1 hsuffix] at heq
      exact ⟨hgap, heq, hending⟩
    · have htext : text = (front ++ (gap ++ (word ++ before))) ++ ['.'] := by
        rw [h.text_eq, hending]
        simp
      rw [htext, lastSegment_dot] at heq
      exact absurd (hparts '.' (heq ▸ by simp)) (by decide)
  · rintro ⟨rfl, hword, hending⟩
    obtain ⟨before, hsuffix, -, -, hsegment⟩ := h.lastSegment hending
    rw [hsegment, List.suffix_nil.1 hsuffix, List.nil_append, hword]

end LastName

theorem WritesPath.head {path : List String} {text : List Char} (h : WritesPath path text) :
    ∀ c ∈ text.head?, isWhitespace c = false := by
  obtain @⟨_, _, word, rest, hword, -⟩ := h
  obtain ⟨c, word, rfl⟩ := List.exists_cons_of_ne_nil hword.written.nonempty
  rintro _ ⟨⟩
  exact (hword.written.written c (.head _)).visible

/-! ## The types of a handler -/

theorem item_of_localFunction? {m : ParsedModule} {name : String} {s : Signature}
    (h : m.localFunction? name = some s) : ∃ item ∈ m.items, item.signature? = some s := by
  rw [ParsedModule.localFunction?, Option.or_eq_some_iff] at h
  have hmem : s ∈ m.items.filterMap _ :=
    h.elim List.mem_of_find?_eq_some fun h => List.mem_of_head? h.2
  obtain ⟨item, hitem, hs⟩ := List.mem_filterMap.1 hmem
  refine ⟨item, hitem, ?_⟩
  cases item with
  | function declared signature =>
    dsimp only at hs
    split at hs
    · exact hs
    · cases hs
  | _ => cases hs

theorem item_of_findDefaultExport {m : ParsedModule} {file : String} {f : FunctionRef}
    {s : Signature} (h : findDefaultExport m file = some (.function f, some s)) :
    ∃ item ∈ m.items, item.signature? = some s := by
  obtain ⟨item, hmem, hitem⟩ := List.exists_of_findSome?_eq_some h
  cases item with
  | defaultFunction name signature =>
    cases name <;> cases hitem
    exact ⟨_, hmem, rfl⟩
  | defaultExpression shape =>
    cases shape with
    | identifier name =>
      dsimp only at hitem
      split at hitem
      · rename_i hlocal
        cases hitem
        exact item_of_localFunction? hlocal
      · cases hitem
    | _ => cases hitem
  | exportNames names =>
    dsimp only at hitem
    split at hitem <;> cases hitem
  | _ => cases hitem

theorem Signature.WrittenIn.typeAt {text : List Char} {s : Signature} (h : s.WrittenIn text)
    {role : TypeRole} {type : TypeNode} (htype : s.typeAt role = some type) :
    type.WrittenIn text := by
  cases role with
  | body =>
    obtain ⟨p, hp, hannotation⟩ := Option.bind_eq_some_iff.1 htype
    exact h.parameters p (List.mem_of_mem_filter (List.mem_of_mem_head? hp)) type hannotation
  | response =>
    rw [Signature.typeAt, Signature.promisedType?] at htype
    split at htype
    · rename_i argument hreturns
      cases htype
      cases h.returns _ hreturns with
      | generic _ _ harguments => exact harguments _ (.head _)
    · cases htype

section
variable {files : FileTree} {directory : Location} {file : String} {m : ParsedModule}
  {f : FunctionRef} {s : Signature}

/-- A reference in the signature of a handler is written as its path. -/
theorem writesPath_of_typeAt (hm : loadModule files directory file = .ok m)
    (hf : findDefaultExport m file = some (.function f, some s)) {role : TypeRole} {span : Span}
    {path : List String} (htype : s.typeAt role = some (.reference span path none)) :
    WritesPath path (span.slice m.text) := by
  obtain ⟨dialect, hread⟩ := readModule_of_loadModule hm
  obtain ⟨item, hitem, hs⟩ := item_of_findDefaultExport hf
  cases ((writtenIn_of_readModule hread hitem) s hs).typeAt htype with
  | reference h => exact h

/-- A reference in the signature of a handler is looked up under its last name and shown under the
last segment of its text.  The two are one name exactly if nothing stands between the last dot and
the name or after the name, and the name is written with its own characters; blanks and comments
without a dot are shown with the name.  Stripping any text twice is stripping it once exactly if no
whitespace follows its last dot. -/
theorem display_name_eq_iff (hm : loadModule files directory file = .ok m)
    (hf : findDefaultExport m file = some (.function f, some s)) (role : TypeRole) {span : Span}
    {path : List String} (htype : s.typeAt role = some (.reference span path none))
    (state : Analyzer) :
    let a := Analyzer.analysis files directory
    let known := (a.exportedDefault file state).2
    (∃ resolved name front gap word ending,
      a.typeAt role f known = some resolved ∧ resolved.text.toList = span.slice m.text ∧
      path.getLast? = some name ∧ LastName name resolved.text.toList front gap word ending ∧
      (∀ symbol, resolved.symbol = some symbol → symbol = ⟨file, name⟩ ∧ ∀ functionName,
        a.typeInfo known functionName role resolved =
          (a.declarationText symbol known).map (⟨stripQualifier resolved.text, ·⟩)) ∧
      (stripQualifier resolved.text = name ↔ gap = [] ∧ word = name.toList ∧ ending = []) ∧
      (ending = [] → '.' ∉ gap → stripQualifier resolved.text = String.ofList (gap ++ word))) ∧
    ∀ text, stripQualifier (stripQualifier text) = stripQualifier text ↔
      ∀ front rest, trimChars text.toList = front ++ '.' :: rest → '.' ∉ rest →
        ∀ c ∈ rest.head?, isWhitespace c = false := by
  intro a known
  refine ⟨?_, stripQualifier_idem_iff⟩
  obtain ⟨-, htypes, -⟩ := exportedDefault_function hm hf state
  have hpath := writesPath_of_typeAt hm hf htype
  obtain ⟨name, front, gap, word, ending, hlast, hname⟩ := hpath.lastName
  have hresolved := htypes role
  rw [htype, Option.map_some] at hresolved
  generalize hfound : resolveType m file _ _ = resolved at hresolved
  have hsymbol : resolved.text.toList = span.slice m.text ∧
      ∀ symbol, resolved.symbol = some symbol → symbol = ⟨file, name⟩ := by
    rw [← hfound, resolveType, hlast]
    split <;> refine ⟨String.toList_ofList, ?_⟩
    · simp
    · rintro _ ⟨⟩
      rfl
  obtain ⟨htext, hsymbol⟩ := hsymbol
  have hstripped : stripQualifier resolved.text =
      String.ofList (lastSegment resolved.text.toList) := by
    rw [stripQualifier, htext, (hname.trimmed hpath.head).trimChars]
  rw [← htext] at hname
  refine ⟨resolved, name, front, gap, word, ending, hresolved, htext, hlast, hname, ?_, ?_, ?_⟩
  · refine fun symbol h => ⟨hsymbol symbol h, fun functionName => ?_⟩
    obtain ⟨c, hc⟩ := List.exists_mem_of_ne_nil _ hname.spelled.written.nonempty
    have hvisible : ∃ c ∈ resolved.text.toList, isWhitespace c = false := by
      refine ⟨c, ?_, (hname.spelled.written.written c hc).visible⟩
      simp [hname.text_eq, hc]
    rw [Analysis.typeInfo, (isBlankText_eq_false_iff _).2 hvisible, h]
    rfl
  · rw [hstripped, ← hname.lastSegment_eq_iff, ← String.toList_inj, String.toList_ofList]
  · intro hending hdot
    obtain ⟨before, -, -, hbefore, hsegment⟩ := hname.lastSegment hending
    rw [hstripped, hsegment, hbefore hdot]

end

/-! ## Blanks before and after a dot -/

/-- A handler that writes one reference with a blank before its dot and one with a blank after. -/
def spacedReferences : FileTree where
  nodes :=
    [(["models.ts"], .file (.text "export type User = U;")),
     (["save.ts"], .file (.text ("import * as models from './models';\n" ++
       "export default function save(user: models .User): Promise<models. User> {}")))]

private def plainReference? : TypeNode → Option (Span × List String)
  | .reference span path none => some (span, path)
  | _ => none

private theorem plainReference?_eq_some {type : TypeNode} {span : Span} {path : List String}
    (h : plainReference? type = some (span, path)) : type = .reference span path none := by
  unfold plainReference? at h
  split at h
  · cases h
    rfl
  · cases h

private theorem spacedReferences_signature :
    ((loadModule spacedReferences [] "save.ts").toOption.bind fun m =>
      (findDefaultExport m "save.ts").bind fun (found, signature) => signature.map fun s =>
        (found, (s.typeAt .body).bind fun type => (plainReference? type).map (·.2))) =
      some (.function ⟨"save.ts", some "save", 1⟩, some ["models", "User"]) := by
  decide +kernel

private theorem spacedReferences_types :
    let a := Analyzer.analysis spacedReferences []
    let known := (a.exportedDefault "save.ts" {}).2
    let f : FunctionRef := ⟨"save.ts", some "save", 1⟩
    a.typeAt .body f known = some ⟨"models .User", some ⟨"save.ts", "User"⟩⟩ ∧
      a.typeAt .response f known = some ⟨"models. User", some ⟨"save.ts", "User"⟩⟩ ∧
      a.declarationText ⟨"save.ts", "User"⟩ known = some "export type User = U;" := by
  decide +kernel

private theorem spacedReferences_module :
    ∃ m f s span, loadModule spacedReferences [] "save.ts" = .ok m ∧
      findDefaultExport m "save.ts" = some (.function f, some s) ∧
      f = ⟨"save.ts", some "save", 1⟩ ∧
      s.typeAt .body = some (.reference span ["models", "User"] none) := by
  have hsignature := spacedReferences_signature
  cases hm : loadModule spacedReferences [] "save.ts" with
  | error e =>
    rw [hm] at hsignature
    cases hsignature
  | ok m =>
    rw [hm] at hsignature
    simp only [Except.toOption, Option.bind_some, Option.bind_eq_some_iff, Option.map_eq_some_iff,
      Prod.mk.injEq] at hsignature
    obtain ⟨⟨found, signature⟩, hfound, s, rfl, rfl, type, htype, ⟨span, path⟩, hplain, rfl⟩ :=
      hsignature
    rw [plainReference?_eq_some hplain] at htype
    exact ⟨m, _, s, span, rfl, hfound, rfl, htype⟩

theorem spacedReferences_user_shown :
    ∃ m f s span front,
      loadModule spacedReferences [] "save.ts" = .ok m ∧
      findDefaultExport m "save.ts" = some (.function f, some s) ∧
      s.typeAt .body = some (.reference span ["models", "User"] none) ∧
      LastName "User" "models .User".toList front [] "User".toList [] ∧
      let a := Analyzer.analysis spacedReferences []
      let known := (a.exportedDefault "save.ts" {}).2
      ∃ resolved, a.typeAt .body f known = some resolved ∧ resolved.text = "models .User" ∧
        a.typeInfo known "save" .body resolved = some ⟨"User", "export type User = U;"⟩ := by
  obtain ⟨hbody, -, hdeclared⟩ := spacedReferences_types
  obtain ⟨m, f, s, span, hm, hf, rfl, htype⟩ := spacedReferences_module
  obtain ⟨⟨resolved, name, front, gap, word, ending, hresolved, -, hlast, hname, hinfo, hshown, -⟩,
    -⟩ := display_name_eq_iff hm hf .body htype {}
  obtain rfl := Option.some.inj (hbody.symm.trans hresolved)
  obtain rfl := Option.some.inj hlast
  obtain ⟨rfl, rfl, rfl⟩ := hshown.1 (by decide +kernel)
  obtain ⟨-, hinfo⟩ := hinfo _ rfl
  refine ⟨m, _, s, span, front, hm, hf, htype, hname, _, hresolved, rfl, ?_⟩
  rw [hinfo, hdeclared]
  decide +kernel

/-- After a blank the name is shown with it, and loses it when it is stripped again. -/
theorem spacedReferences_user_mistaken :
    let a := Analyzer.analysis spacedReferences []
    let known := (a.exportedDefault "save.ts" {}).2
    let f : FunctionRef := ⟨"save.ts", some "save", 1⟩
    let resolved : ResolvedType := ⟨"models. User", some ⟨"save.ts", "User"⟩⟩
    a.typeAt .response f known = some resolved ∧
      a.typeInfo known "save" .response resolved = some ⟨" User", "export type User = U;"⟩ ∧
      stripQualifier (stripQualifier "models. User") ≠ stripQualifier "models. User" := by
  decide +kernel

end TypedRoutes.Script
