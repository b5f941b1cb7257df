import TypedRoutes.Proofs.ImportHeads
import TypedRoutes.Proofs.RouterScope
import TypedRoutes.Proofs.TextSegments

/-! # What a template binds

The names that a template binds are looked for in its texts, at the starts of lines: those of the
imports, and the first name of each declaration if it is a plain one.  A handler that is called
like one of them is imported under a numbered name.
-/

namespace TypedRoutes.Naming
open TypedRoutes.Text TypedRoutes.Template

/-! ## Heads as pieces -/

theorem ClauseBinds.head {clause : List Char} {names : List (List Char)}
    (h : ClauseBinds clause names) : ∀ c ∈ clause.head?, c ≠ '\x7d' := by
  have hpart {part name : List Char} (h : PartBinds part name) :
      part ≠ [] ∧ ∀ c ∈ part.head?, c ≠ '\x7d' := by
    refine ⟨?_, ?_⟩
    · rintro rfl
      exact h.binds.ne_nil rfl
    · rintro c hc rfl
      exact (h.characters _ (List.mem_of_mem_head? hc)).notMem (by decide)
  cases h with
  | part h => exact (hpart h).2
  | @list before list after names hbefore h hafter =>
    cases before with
    | nil =>
      rintro _ ⟨⟩
      decide
    | cons c before =>
      rintro _ ⟨⟩ rfl
      exact absurd (hbefore _ (.head _)) (by decide)
  | both h hrest =>
    rw [List.head?_append_of_ne_nil _ (hpart h).1]
    exact (hpart h).2

theorem ImportBinds.head {clause : List Char} {names : List (List Char)}
    (h : ImportBinds clause names) : ∀ c ∈ clause.head?, c ≠ '\x7d' := by
  cases h with
  | plain h _ => exact h.head
  | typeOnly _ _ _ =>
    rintro _ ⟨⟩
    decide

theorem ImportHead.isPiece (h : ImportHead) : IsPiece h.text where
  head := ⟨'i', rfl, by decide⟩
  slash := by
    have hblank {gap : List Char} (hgap : IsGap gap) : '/' ∉ gap := hgap.2.notMem (by decide)
    have hclause : '/' ∉ h.clause := fun hmem => h.binds.isClauseText.notMem hmem (by decide)
    have hquote : h.quote ≠ '/' := by
      rcases h.isQuote with hq | hq <;> rw [hq] <;> decide
    simp [ImportHead.text_eq, ImportHead.front_eq, ImportHead.back, hblank h.opening_gap, hclause,
      hblank h.closing_gap, hblank h.ending_gap, hquote.symm]
  last := by
    have htext : h.text = h.front ++ h.closing ++ "from".toList ++ h.ending ++ [h.quote] := by
      simp [ImportHead.text_eq, ImportHead.back]
    rw [htext, List.getLast?_concat]
    rintro _ ⟨⟩
    rcases h.isQuote with hq | hq <;> rw [hq] <;> decide
  begins := by
    obtain ⟨c, rest, hclause⟩ := List.exists_cons_of_ne_nil h.binds.ne_nil
    obtain ⟨d, gap, hopening⟩ := List.exists_cons_of_ne_nil h.opening_gap.1
    refine ⟨"import".toList ++ h.opening ++ [c], rest ++ h.back, ?_, ?_, ⟨d, ?_, ?_⟩, ?_⟩
    · simp [ImportHead.text_eq, ImportHead.front_eq, hclause]
    · have hc := h.binds.head c (by rw [hclause]; rfl)
      have hblank : '\x7d' ∉ h.opening := h.opening_gap.2.notMem (by decide)
      simp [hblank, hc.symm]
    · simp [hopening]
    · exact isWordCharacter_of_isWhitespace (h.opening_gap.2 d (by simp [hopening]))
    · rw [List.getLast?_concat]
      rintro _ ⟨⟩
      exact h.flush c (by rw [hclause]; rfl)

theorem mem_gapped {parts : GappedWords} (h : IsSpaced parts) {c : Char}
    (hc : c ∈ gapped parts) :
    isWhitespace c = true ∨ ∃ word ∈ headingWords, c ∈ word.toList := by
  obtain ⟨⟨word, gap⟩, hp, hc⟩ := List.mem_flatMap.1 hc
  obtain ⟨hword, -, hblank⟩ := h _ hp
  rcases List.mem_append.1 hc with hc | hc
  · exact .inr ⟨word, hword, hc⟩
  · exact .inl (hblank c hc)

theorem IsHeading.isPiece {parts : GappedWords} {name : List Char} (h : IsHeading parts)
    (hname : IsDeclarable name) : IsPiece (gapped parts ++ name) := by
  obtain ⟨⟨word, gap⟩, more, rfl⟩ : ∃ p ps, parts = p :: ps := by
    cases parts with
    | nil => exact absurd h.words (by decide +kernel)
    | cons p ps => exact ⟨p, ps, rfl⟩
  obtain ⟨hword, hne, hblank⟩ := h.spaced _ (.head _)
  have hapart : ∀ c, isWhitespace c = false → isNamePart c = false →
      (∀ word ∈ headingWords, c ∉ word.toList) → c ∉ gapped ((word, gap) :: more) ++ name := by
    intro c hvisible hpart hwords hmem
    rcases List.mem_append.1 hmem with hmem | hmem
    · rcases mem_gapped h.spaced hmem with hc | ⟨word, hword, hc⟩
      · rw [hvisible] at hc
        cases hc
      · exact hwords word hword hc
    · rw [hname.2 c hmem] at hpart
      cases hpart
  have hlast : ∀ c ∈ (gapped ((word, gap) :: more) ++ name).getLast?, isWhitespace c = false := by
    rw [List.getLast?_append_of_ne_nil _ hname.visible.1]
    exact fun c hc => hname.visible.2 c (List.mem_of_getLast? hc)
  have hletters : ∀ word ∈ headingWords, word.toList.head?.any isWordCharacter = true := by
    decide +kernel
  obtain ⟨c, cs, hhead⟩ := List.exists_cons_of_ne_nil (isVisible_of_mem_headingWords hword).1
  obtain ⟨d, ds, rfl⟩ := List.exists_cons_of_ne_nil hne
  refine ⟨⟨c, by simp [hhead], ?_⟩, ?_, hlast, _, [], by simp, ?_, ⟨d, ?_, ?_⟩, hlast⟩
  · simpa [hhead] using hletters word hword
  · exact hapart '/' (by decide) (by decide) (by decide +kernel)
  · exact hapart '\x7d' (by decide) (by decide) (by decide +kernel)
  · simp
  · exact isWordCharacter_of_isWhitespace (hblank d (.head _))

/-- Behind the end of a statement no heading ends. -/
theorem IsHeading.not_behind {parts : GappedWords} (h : IsHeading parts)
    {before blanks : List Char} {c : Char} (hblanks : IsBlank blanks)
    (hvisible : isWhitespace c = false) (hc : ∀ word ∈ headingWords, c ∉ word.toList)
    (front : List Char) : before ++ c :: blanks ≠ front ++ gapped parts := by
  intro htext
  obtain ⟨exports, declares, asynchronous, word, gap, rfl, -⟩ := exists_heading_parts h
  obtain ⟨hword, -, hgap⟩ := h.spaced (word, gap) (by simp)
  have hends : front ++ gapped (exports ++ (declares ++ asynchronous)) ++ word.toList ++ gap =
      before ++ c :: blanks := by
    simpa using htext.symm
  rcases split_piece hends with ⟨rest, hpiece, hrest⟩ | ⟨rest, -, hrest⟩
  · -- the last word ends in the sign, or in whitespace behind it
    have hlast := congrArg List.getLast? hpiece
    rw [List.getLast?_append_of_ne_nil _ (isVisible_of_mem_headingWords hword).1,
      List.getLast?_append_cons] at hlast
    by_cases hnil : rest = []
    · rw [hnil] at hlast
      exact hc word hword (List.mem_of_getLast? hlast)
    · rw [← List.singleton_append, List.getLast?_append_of_ne_nil _ hnil,
        List.getLast?_eq_some_getLast hnil] at hlast
      have hblank := hblanks (rest.getLast hnil)
        (by rw [hrest]; exact List.mem_append_left _ (List.getLast_mem hnil))
      rw [(isVisible_of_mem_headingWords hword).2 _ (List.mem_of_getLast? hlast)] at hblank
      cases hblank
  · exact hgap.notMem hvisible (by simp [hrest])

end TypedRoutes.Naming

namespace TypedRoutes.Template
open TypedRoutes.Text TypedRoutes.Naming

/-! ## Names that are found -/

/-- What may begin a line of a template between two texts, and the names that it binds: an import up
to the quote of its source, or a declaration up to the end of its first name, unless a heading ends
where it begins. -/
inductive BindsAt (before after : List Char) : List Char → List String → Prop
  | imports (h : ImportHead) : BindsAt before after h.text (h.names.map String.ofList)
  | declares {parts : GappedWords} {name : String} (heading : IsHeading parts)
      (declarable : IsDeclarable name.toList) (stop : ∀ c ∈ after.head?, isNamePart c = false)
      (apart : ∀ front earlier, TextBegins front → IsHeading earlier →
        before ≠ front ++ gapped earlier) :
      BindsAt before after (gapped parts ++ name.toList) [name]

def BoundIn (template : List Char) (name : String) : Prop :=
  ∃ before head after names, template = before ++ (head ++ after) ∧ LineBegins before ∧
    BindsAt before after head names ∧ name ∈ names

/-- In a text of the document a line begins with an import clause that has the name, or with the
name after a heading. -/
def Document.Introduces (d : Document) (name : String) : Prop :=
  ∃ before rest, .text (before ++ rest) ∈ d.segments ∧ LineBegins before ∧
    ((∃ clause n, importClause? rest = some (clause, n) ∧ name ∈ clauseNames clause) ∨
      ∃ parts after, DeclaresAt rest parts name.toList after)

theorem introduces_of_mem_declaredBindings {d : Document} {name : String}
    (h : name ∈ d.declaredBindings) : d.Introduces name := by
  obtain ⟨segment, hsegment, hname⟩ := List.mem_flatMap.1 h
  cases segment with
  | slot s => cases hname
  | text cs =>
    simp only [topLevelBindings, String.toList_ofList, List.mem_append, List.mem_flatMap] at hname
    rcases hname with ⟨clause, hclause, hname⟩ | hname
    · obtain ⟨before, rest, n, rfl, hline, hread⟩ := read_of_mem_scanLineStarts hclause
      exact ⟨before, rest, hsegment, lineBeginsAfter_true_iff.1 hline,
        .inl ⟨clause, n, hread, hname⟩⟩
    · obtain ⟨before, rest, n, rfl, hline, hread⟩ := read_of_mem_scanLineStarts hname
      obtain ⟨parts, after, hdeclares, -⟩ := declaredName?_eq_some_iff.1 hread
      exact ⟨before, rest, hsegment, lineBeginsAfter_true_iff.1 hline,
        .inr ⟨parts, after, hdeclares⟩⟩

theorem BindsAt.isPiece {before after head : List Char} {names : List String}
    (h : BindsAt before after head names) : IsPiece head := by
  cases h with
  | imports h => exact h.isPiece
  | declares heading declarable _ _ => exact heading.isPiece declarable

theorem TextBegins.append {front start : List Char} (h : TextBegins front)
    (hstart : LineBegins start) : TextBegins (front ++ start) := by
  by_cases hne : start = []
  · rwa [hne, List.append_nil]
  · refine .inl (.inr ?_)
    rw [List.getLast?_append_of_ne_nil _ hne]
    exact hstart.resolve_left hne

/-- What is bound in a text of the template is found there. -/
theorem BindsAt.found {front start after rest head : List Char} {names : List String}
    (h : BindsAt (front ++ start) after head names) (hfront : TextBegins front)
    (hstart : LineBegins start) (hrest : rest <+: after) :
    ∀ name ∈ names, name ∈ topLevelBindings (String.ofList (start ++ (head ++ rest))) := by
  cases h with
  | imports h =>
    rw [List.forall_mem_map]
    exact h.found hstart rest
  | @declares parts name heading declarable stop apart =>
    rw [List.forall_mem_singleton]
    have hdeclares : DeclaresAt (gapped parts ++ name.toList ++ rest) parts name.toList rest := by
      refine ⟨by simp, heading, declarable, fun c hc => stop c ?_⟩
      obtain ⟨more, rfl⟩ := hrest
      exact List.head?_append_of_ne_nil rest (List.ne_nil_of_mem (List.mem_of_mem_head? hc)) ▸ hc
    have hend : ¬EndsHeading start := by
      rintro ⟨front', earlier, hfront', hearlier, rfl⟩
      exact apart (front ++ front') earlier (hfront.append hfront') hearlier (by simp)
    simpa using hdeclares.found hstart hend

theorem BoundIn.mem_declaredBindings {template name : String} (h : BoundIn template.toList name)
    (title : String) : name ∈ (Document.ofTemplate title template).declaredBindings := by
  obtain ⟨before, head, after, names, htemplate, hline, hbinds, hname⟩ := h
  obtain ⟨front, start, rest, htext, rfl, hfront, hrest⟩ :=
    exists_text_of_piece title hbinds.isPiece hline htemplate
  exact List.mem_flatMap.2 ⟨_, htext, hbinds.found hfront hline.of_append hrest name hname⟩

end TypedRoutes.Template

namespace TypedRoutes.Render
open TypedRoutes.Text TypedRoutes.Naming TypedRoutes.Route TypedRoutes.Template

/-- A handler that is called like a name bound by the template is imported under a number. -/
theorem importNames_numbered {d : Document} {tree : Tree} {i : Nat} {e : Endpoint}
    (he : tree.endpointsInOrder[i]? = some e) (hbound : e.functionName ∈ d.declaredBindings) :
    ∃ n, 2 ≤ n ∧ (importNames d tree)[i]? = some (e.functionName ++ "_" ++ toString n) := by
  have hname : (tree.endpointsInOrder.map (·.functionName))[i]? = some e.functionName := by
    rw [List.getElem?_map, he, Option.map_some]
  have hlt := Registry.occurrences_lt_claimNumber
    (r := Registry.reserving d.declaredBindings) hname
  rw [Registry.occurrences_reserving, if_pos hbound] at hlt
  refine ⟨_, hlt, ?_⟩
  rw [importNames, Registry.getElem?_claimAll, hname, Option.map_some,
    Registry.suffixed_of_two_le _ hlt]

/-- The names that the imports and the declarations of a template bind are found wherever they
begin a line, and no handler is imported under one of them as it is: one that is called so gets a
number.  Nothing is found but names at the starts of lines. -/
theorem bound_names_reserved (options : Options) (tree : Tree) {template : String}
    (h : ∀ m ∈ routerMarkers, (Document.ofTemplate "server" template).hasSlot m = true) :
    ∃ d, fillRouter options tree (.ofTemplate "server" template) = .ok d ∧
      renderRouter options tree template = finish options d ∧
      (∀ name, BoundIn template.toList name →
        name ∈ (Document.ofTemplate "server" template).declaredBindings ∧
        ∀ (i : Nat) (e : Endpoint), tree.endpointsInOrder[i]? = some e → e.functionName = name →
          ∃ n, 2 ≤ n ∧ (d.chunks "imports")[i]?.bind importedName? =
            some (name ++ "_" ++ toString n)) ∧
      ∀ name ∈ (Document.ofTemplate "server" template).declaredBindings,
        (Document.ofTemplate "server" template).Introduces name := by
  obtain ⟨d, hfill, himports, -⟩ := fillRouter_ok options tree "server" template h
  refine ⟨d, hfill, ?_, fun name hbound => ?_, fun name => introduces_of_mem_declaredBindings⟩
  · rw [renderRouter, hfill]
    rfl
  have hmem := hbound.mem_declaredBindings "server"
  refine ⟨hmem, fun i e he hname => ?_⟩
  subst hname
  obtain ⟨n, hn, himport⟩ := importNames_numbered he hmem
  refine ⟨n, hn, ?_⟩
  have hnames := congrArg (·[i]?) (importedNames_eq himports)
  simp only [List.getElem?_map, himport, Option.map_some] at hnames
  obtain ⟨line, hline, hread⟩ := Option.map_eq_some_iff.1 hnames
  rw [hline, Option.bind_some, hread]

def aliasImport : ImportHead where
  clause := "\x7b a as b \x7d".toList
  names := ["b".toList]
  opening := [' ']
  closing := [' ']
  ending := [' ']
  quote := '\''
  binds := .plain
    (@ClauseBinds.list [] " a as b ".toList [] _ nofun
      (.last ⟨.renamed "a".toList "b".toList, by decide⟩) nofun)
    (by decide)
  flush := by decide
  last := by
    rintro _ ⟨⟩
    decide
  from_notMem := by decide
  opening_gap := by decide
  closing_gap := by decide
  ending_gap := by decide
  isQuote := .inl rfl

def bindingRouter : String :=
  "import \x7b a as b \x7d from './a';\nconst routes = \x7b\x7d;\n" ++ bareRouter

def bindingHandlers : Tree := .node none [oneHandler "x" "b", oneHandler "y" "routes"] []

theorem bindingRouter_numbered :
    (∀ m ∈ routerMarkers, (Document.ofTemplate "server" bindingRouter).hasSlot m = true) ∧
      BoundIn bindingRouter.toList "b" ∧ BoundIn bindingRouter.toList "routes" ∧
      ∃ d, fillRouter {} bindingHandlers (.ofTemplate "server" bindingRouter) = .ok d ∧
        (∃ n, 2 ≤ n ∧ (d.chunks "imports")[0]?.bind importedName? =
          some ("b" ++ "_" ++ toString n)) ∧
        ∃ n, 2 ≤ n ∧ (d.chunks "imports")[1]?.bind importedName? =
          some ("routes" ++ "_" ++ toString n) := by
  have hmarkers : ∀ m ∈ routerMarkers,
      (Document.ofTemplate "server" bindingRouter).hasSlot m = true := by decide +kernel
  have hb : BoundIn bindingRouter.toList "b" :=
    ⟨[], aliasImport.text, bindingRouter.toList.drop aliasImport.text.length, ["b"],
      by decide +kernel, .inl rfl, .imports aliasImport, .head _⟩
  have hroutes : BoundIn bindingRouter.toList "routes" := by
    have hheading : IsHeading [("const", [' '])] := ⟨by decide +kernel, by decide⟩
    have hstop : ∀ c ∈ (" = \x7b\x7d;\n" ++ bareRouter).toList.head?, isNamePart c = false := by
      rintro _ ⟨⟩
      decide
    refine ⟨"import \x7b a as b \x7d from './a'".toList ++ [';', '\n'], _,
      (" = \x7b\x7d;\n" ++ bareRouter).toList, ["routes"], ?_, .inr rfl,
      .declares hheading (by decide) hstop fun front earlier _ hearlier => ?_, .head _⟩
    · decide +kernel
    · -- behind a semicolon and a line break
      have hblank : IsBlank ['\n'] := by decide
      have hvisible : isWhitespace ';' = false := by decide
      have hsign : ∀ word ∈ headingWords, ';' ∉ word.toList := by decide +kernel
      exact hearlier.not_behind hblank hvisible hsign front
  obtain ⟨d, hfill, -, hnumbered, -⟩ := bound_names_reserved {} bindingHandlers hmarkers
  exact ⟨hmarkers, hb, hroutes, d, hfill, (hnumbered "b" hb).2 0 _ rfl rfl,
    (hnumbered "routes" hroutes).2 1 _ rfl rfl⟩

def twofoldRouter : String := "const a = 1, b = 2;\n" ++ bareRouter

def secondName : Tree := .node none [oneHandler "x" "b"] []

theorem twofoldRouter_captured :
    (Document.ofTemplate "server" twofoldRouter).declaredBindings = ["a"] ∧
      ∃ d, fillRouter {} secondName (.ofTemplate "server" twofoldRouter) = .ok d ∧
        d.chunks "imports" = ["import b from '../api/x/b.ts';"] ∧
        (d.chunks "imports").map importedName? = [some "b"] := by
  have hbindings : (Document.ofTemplate "server" twofoldRouter).declaredBindings = ["a"] := by
    decide +kernel
  obtain ⟨d, hfill, himports, -⟩ :=
    fillRouter_ok {} secondName "server" twofoldRouter (by decide +kernel)
  have hlines : d.chunks "imports" = ["import b from '../api/x/b.ts';"] := by
    rw [himports, importNames, hbindings]
    decide +kernel
  refine ⟨hbindings, d, hfill, hlines, ?_⟩
  rw [hlines]
  decide +kernel

end TypedRoutes.Render
