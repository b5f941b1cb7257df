import TypedRoutes.Proofs.DeclarationHeads
import TypedRoutes.Proofs.ImportClauses

/-! # The heads of imports

The clause of an import is read from its keyword to the first `from` between whitespace.  So it is
read as a whole if it has no such word itself, and a reading that began on an earlier line ends
where it ends.
-/

namespace TypedRoutes.Naming
open TypedRoutes.Text TypedRoutes.Template

/-! ## What is read -/

theorem fromLength?_eq_some {text : List Char} {n : Nat} (h : fromLength? text = some n) :
    ∃ gap c rest, IsGap gap ∧ isWhitespace c = true ∧
      text = gap ++ ("from".toList ++ c :: rest) ∧ n = gap.length + 5 := by
  simp only [fromLength?, Option.bind_eq_bind] at h
  split at h
  · cases h
  · rename_i hne
    obtain ⟨rest, hrest, h⟩ := Option.bind_eq_some_iff.1 h
    rw [drop_length_takeWhile] at hrest
    split at h
    · rename_i c rest
      split at h
      · rename_i hc
        cases h
        refine ⟨text.takeWhile isWhitespace, c, rest, ⟨by simpa using hne, ?_⟩, hc, ?_, rfl⟩
        · exact List.all_eq_true.1 List.all_takeWhile
        · rw [← dropBeginning?_eq_some hrest, List.takeWhile_append_dropWhile]
      · cases h
    · cases h

theorem fromLength?_append {gap rest : List Char} {c : Char} (hgap : IsGap gap)
    (hc : isWhitespace c = true) :
    fromLength? (gap ++ ("from".toList ++ c :: rest)) = some (gap.length + 5) := by
  have hrun : (gap ++ ("from".toList ++ c :: rest)).takeWhile isWhitespace = gap :=
    hgap.2.takeWhile (by rintro _ ⟨⟩; decide)
  have hempty : gap.isEmpty = false := by simpa using hgap.1
  simp only [fromLength?, Option.bind_eq_bind, hrun, hempty, List.drop_left, dropBeginning?_append]
  simp [hc]

/-- A clause is the shortest text that `from` follows. -/
theorem shortestClause_eq_some {text clause : List Char} {n : Nat}
    (h : shortestClause text = some (clause, n)) :
    ∃ tail m, text = clause ++ tail ∧ fromLength? tail = some m ∧ n = clause.length + m ∧
      ∀ front back, clause = front ++ back → front ≠ [] → back ≠ [] →
        fromLength? (back ++ tail) = none := by
  induction text generalizing clause n with
  | nil => cases h
  | cons c cs ih =>
    rw [shortestClause] at h
    split at h
    · split at h
      · rename_i m hfrom
        cases h
        refine ⟨cs, m, rfl, hfrom, Nat.add_comm _ _, fun front back hsplit hfront hback => ?_⟩
        have hlength := congrArg List.length hsplit
        have hfront := List.length_pos_iff.2 hfront
        have hback := List.length_pos_iff.2 hback
        simp only [List.length_singleton, List.length_append] at hlength
        omega
      · rename_i hnone
        obtain ⟨⟨clause', n'⟩, hclause, hsame⟩ := Option.map_eq_some_iff.1 h
        cases hsame
        obtain ⟨tail, m, rfl, hfrom, rfl, hshortest⟩ := ih hclause
        refine ⟨tail, m, rfl, hfrom, by simp; omega, fun front back hsplit hfront hback => ?_⟩
        obtain ⟨d, front, rfl⟩ := List.exists_cons_of_ne_nil hfront
        obtain ⟨rfl, rfl⟩ := List.cons.inj hsplit
        by_cases hfront : front = []
        · subst hfront
          exact hnone
        · exact hshortest front back rfl hfront hback
    · cases h

theorem shortestClause_isSome {front tail : List Char} (hne : front ≠ [])
    (hfront : ∀ c ∈ front, isClauseCharacter c = true) (hfrom : (fromLength? tail).isSome) :
    (shortestClause (front ++ tail)).isSome := by
  induction front with
  | nil => exact absurd rfl hne
  | cons c front ih =>
    rw [List.cons_append, shortestClause, if_pos (hfront c (.head _))]
    split
    · rfl
    · rename_i hnone
      cases front with
      | nil =>
        rw [List.nil_append] at hnone
        rw [hnone] at hfrom
        cases hfrom
      | cons d front =>
        rw [Option.isSome_map]
        exact ih (List.cons_ne_nil _ _) fun e he => hfront e (.tail _ he)

/-- What is passed between the keyword and a clause: whitespace, and the word `type` if it stands
there by itself. -/
def IsLead (lead : List Char) : Prop :=
  IsGap lead ∨ ∃ gap gap', IsGap gap ∧ IsGap gap' ∧ lead = gap ++ ("type".toList ++ gap')

theorem mem_blankStarts {text rest : List Char} {n : Nat} (h : (n, rest) ∈ blankStarts text) :
    ∃ gap, IsGap gap ∧ text = gap ++ rest ∧ n = gap.length := by
  obtain ⟨run, rest', hrun, -, rfl, hblank⟩ := exists_longest_run isWhitespace text
  simp only [blankStarts, hrun, List.mem_map, List.mem_reverse, List.mem_range] at h
  obtain ⟨k, hk, hsame⟩ := h
  cases hsame
  have hlength : (run.take (k + 1)).length = k + 1 := List.length_take_of_le hk
  refine ⟨run.take (k + 1), ⟨?_, fun c hc => hblank c (List.mem_of_mem_take hc)⟩, ?_, hlength.symm⟩
  · intro hnil
    rw [hnil] at hlength
    cases hlength
  · have htake : (run ++ rest').take (k + 1) = run.take (k + 1) := List.take_append_of_le_length hk
    rw [← htake, List.take_append_drop]

theorem blankStarts_append {gap : List Char} (hgap : IsGap gap) (rest : List Char) :
    (gap.length, rest) ∈ blankStarts (gap ++ rest) := by
  have hrun : gap.length ≤ ((gap ++ rest).takeWhile isWhitespace).length := by
    rw [List.takeWhile_append_of_pos hgap.2, List.length_append]
    exact Nat.le_add_right _ _
  have hpos := List.length_pos_iff.2 hgap.1
  simp only [blankStarts, List.mem_map, List.mem_reverse, List.mem_range]
  refine ⟨gap.length - 1, by omega, ?_⟩
  rw [Nat.sub_add_cancel hpos, List.drop_left]

theorem importClause?_eq_some {text clause : List Char} {n : Nat}
    (h : importClause? text = some (clause, n)) :
    ∃ lead start m, IsLead lead ∧ text = "import".toList ++ (lead ++ start) ∧
      shortestClause start = some (clause, m) ∧ n = ("import".toList ++ lead).length + m := by
  simp only [importClause?, Option.bind_eq_bind, Option.bind_eq_some_iff] at h
  obtain ⟨after, hafter, h⟩ := h
  obtain ⟨⟨k, start⟩, hmem, h⟩ := List.exists_of_findSome?_eq_some h
  obtain ⟨⟨clause', m⟩, hclause, hsame⟩ := Option.map_eq_some_iff.1 h
  cases hsame
  have hlead : ∃ lead, IsLead lead ∧ after = lead ++ start ∧ k = lead.length := by
    obtain ⟨⟨n, rest⟩, hstart, hmem⟩ := List.mem_flatMap.1 hmem
    obtain ⟨gap, hgap, rfl, rfl⟩ := mem_blankStarts hstart
    rcases List.mem_append.1 hmem with hmem | hmem
    · split at hmem
      · rename_i rest' htype
        obtain ⟨⟨m, rest⟩, hrest, hsame⟩ := List.mem_map.1 hmem
        cases hsame
        obtain ⟨gap', hgap', rfl, rfl⟩ := mem_blankStarts hrest
        refine ⟨gap ++ ("type".toList ++ gap'), .inr ⟨gap, gap', hgap, hgap', rfl⟩, ?_, ?_⟩
        · rw [dropBeginning?_eq_some htype]
          simp
        · simp
          omega
      · cases hmem
    · cases List.mem_singleton.1 hmem
      exact ⟨gap, .inl hgap, rfl, rfl⟩
  obtain ⟨lead, hlead, rfl, rfl⟩ := hlead
  refine ⟨lead, start, m, hlead, dropBeginning?_eq_some hafter, hclause, ?_⟩
  simp
  omega

theorem importClause?_isSome {gap start : List Char} (hgap : IsGap gap)
    (h : (shortestClause start).isSome) :
    (importClause? ("import".toList ++ (gap ++ start))).isSome := by
  simp only [importClause?, Option.bind_eq_bind, dropBeginning?_append, Option.bind_some]
  rw [List.findSome?_isSome_iff]
  refine ⟨(gap.length, start), List.mem_flatMap.2 ⟨_, blankStarts_append hgap start, ?_⟩, ?_⟩
  · exact List.mem_append_right _ (.head _)
  · rwa [Option.isSome_map]

/-! ## Imports -/

/-- What stands between `import` and `from` and the names it binds: a clause, or a clause after the
word `type`. -/
inductive ImportBinds : List Char → List (List Char) → Prop
  | plain {clause : List Char} {names : List (List Char)} (h : ClauseBinds clause names)
      (htype : (words clause).head? ≠ some "type".toList) : ImportBinds clause names
  | typeOnly {gap clause : List Char} {names : List (List Char)} (hgap : IsGap gap)
      (hclause : Flush clause) (h : ClauseBinds clause names) :
      ImportBinds ("type".toList ++ (gap ++ clause)) names

/-- An import up to the quote of its source, with whitespace between its parts and without another
`from` between whitespace. -/
structure ImportHead where
  clause : List Char
  names : List (List Char)
  opening : List Char
  closing : List Char
  ending : List Char
  quote : Char
  binds : ImportBinds clause names
  flush : Flush clause
  last : ∀ c ∈ clause.getLast?, isWhitespace c = false
  from_notMem : "from".toList ∉ words clause
  opening_gap : IsGap opening
  closing_gap : IsGap closing
  ending_gap : IsGap ending
  isQuote : quote = '\'' ∨ quote = '"'

theorem Binds.ne_nil {words : List (List Char)} {name : List Char} (h : Binds words name) :
    words ≠ [] := by
  cases h <;> exact List.cons_ne_nil _ _

theorem ClauseBinds.ne_nil {clause : List Char} {names : List (List Char)}
    (h : ClauseBinds clause names) : clause ≠ [] := by
  cases h with
  | part h =>
    rintro rfl
    exact h.binds.ne_nil rfl
  | list => simp
  | both => simp

theorem ImportBinds.ne_nil {clause : List Char} {names : List (List Char)}
    (h : ImportBinds clause names) : clause ≠ [] := by
  cases h with
  | plain h _ => exact h.ne_nil
  | typeOnly _ _ _ => simp

theorem ImportBinds.isClauseText {clause : List Char} {names : List (List Char)}
    (h : ImportBinds clause names) : IsClauseText clause := by
  cases h with
  | plain h _ => exact h.isClauseText
  | typeOnly hgap _ h =>
    have hall : "type".toList.all isIdentifierPart = true := by decide +kernel
    have htype := List.all_eq_true.1 hall
    exact List.forall_mem_append.2 ⟨fun c hc => .inl (.inr (.inr (htype c hc))),
      List.forall_mem_append.2 ⟨isClauseText_of_blank hgap.2, h.isClauseText⟩⟩

theorem endsBlank_append_gap {gap : List Char} (h : IsGap gap) (before : List Char) :
    EndsBlank (before ++ gap) := by
  rw [EndsBlank, List.getLast?_append_of_ne_nil _ h.1]
  exact fun c hc => h.2 c (List.mem_of_getLast? hc)

theorem ImportBinds.mem_clauseNames {clause : List Char} {names : List (List Char)}
    (h : ImportBinds clause names) {before : List Char} (hbefore : EndsBlank before) :
    ∀ name ∈ names, String.ofList name ∈ clauseNames (before ++ clause) := by
  cases h with
  | plain h _ => exact h.mem_clauseNames hbefore
  | typeOnly hgap _ h =>
    rw [← List.append_assoc, ← List.append_assoc]
    exact h.mem_clauseNames (endsBlank_append_gap hgap _)

theorem ImportBinds.mem_clauseNames_of_type {clause gap found : List Char}
    {names : List (List Char)} (h : ImportBinds clause names) (hgap : IsGap gap)
    (hclause : clause = "type".toList ++ (gap ++ found)) :
    ∀ name ∈ names, String.ofList name ∈ clauseNames found := by
  cases h with
  | plain h htype =>
    refine absurd ?_ htype
    have hwords : words "type".toList = ["type".toList] := words_visible (by decide)
    have hblank : ∀ c ∈ (gap ++ found).head?, isWhitespace c = true := by
      obtain ⟨c, gap, rfl⟩ := List.exists_cons_of_ne_nil hgap.1
      rintro _ ⟨⟩
      exact hgap.2 c (.head _)
    rw [hclause, words_append_of_blank_head hblank, hwords]
    rfl
  | @typeOnly gap' clause' _ hgap' hflush h =>
    have hsame := List.append_cancel_left hclause
    rcases List.append_eq_append_iff.1 hsame with ⟨more, hmore, hclause'⟩ | ⟨more, hmore, hfound⟩
    · cases more with
      | nil =>
        rw [List.nil_append] at hclause'
        rw [← hclause']
        exact h.mem_clauseNames endsBlank_nil
      | cons c more =>
        have hc := hflush c (by rw [hclause']; rfl)
        rw [hgap.2 c (by simp [hmore])] at hc
        cases hc
    · rw [hfound]
      refine h.mem_clauseNames fun c hc => hgap'.2 c ?_
      rw [hmore]
      exact List.mem_append_right _ (List.mem_of_getLast? hc)

/-! ## The clause that is read -/

theorem IsLead.characters {lead : List Char} (h : IsLead lead) :
    ∀ c ∈ lead, isWhitespace c = true ∨ c ∈ "type".toList := by
  rcases h with hgap | ⟨gap, gap', hgap, hgap', rfl⟩
  · exact fun c hc => .inl (hgap.2 c hc)
  · simp only [List.forall_mem_append]
    exact ⟨fun c hc => .inl (hgap.2 c hc), fun c hc => .inr hc, fun c hc => .inl (hgap'.2 c hc)⟩

/-- Before a clause no keyword is passed but the first. -/
theorem IsLead.no_import {lead run rest : List Char} (h : IsLead lead)
    (hrun : ∀ c ∈ run.getLast?, c = '\n')
    (htext : "import".toList ++ lead = run ++ ("import".toList ++ rest)) : run = [] := by
  by_contra hne
  have hlast := List.getLast?_eq_some_getLast hne
  have hmem := List.getLast_mem hne
  rw [hrun _ hlast] at hmem
  rcases List.append_eq_append_iff.1 htext with ⟨more, hrun', hlead⟩ | ⟨more, himport, -⟩
  · have hi := h.characters 'i' (by rw [hlead]; simp)
    revert hi
    decide
  · have hbreak : '\n' ∉ "import".toList := by decide
    exact hbreak (by rw [himport]; exact List.mem_append_left _ hmem)

theorem IsLead.past_gap {lead gap more : List Char} (h : IsLead lead) (hgap : IsGap gap)
    (hmore : more ≠ []) (hflush : Flush more) (hlead : lead = gap ++ more) :
    ∃ gap', IsGap gap' ∧ more = "type".toList ++ gap' := by
  rcases h with hblank | ⟨first, gap', hfirst, hgap', htext⟩
  · obtain ⟨c, more, rfl⟩ := List.exists_cons_of_ne_nil hmore
    have hc := hflush c rfl
    rw [hblank.2 c (by simp [hlead])] at hc
    cases hc
  · have hsame : first = gap := by
      have hrun := hgap.2.takeWhile hflush
      rwa [← hlead, htext, hfirst.2.takeWhile (by rintro _ ⟨⟩; decide)] at hrun
    subst hsame
    exact ⟨gap', hgap', List.append_cancel_left (hlead.symm.trans htext)⟩

/-- A `from` between whitespace that is read at the head of a text is one of the words of what
comes before any other whitespace. -/
theorem from_mem_words {back after : List Char} {n : Nat}
    (hread : fromLength? (back ++ after) = some n) (hne : back ≠ [])
    (hlast : ∀ c ∈ back.getLast?, isWhitespace c = false)
    (hafter : ∀ c ∈ after.head?, isWhitespace c = true) : "from".toList ∈ words back := by
  obtain ⟨gap, c, rest, hgap, hc, htext, -⟩ := fromLength?_eq_some hread
  rcases List.append_eq_append_iff.1 htext with ⟨more, hgap', -⟩ | ⟨more, hmore, htail⟩
  · obtain ⟨e, he⟩ := Option.isSome_iff_exists.1 (List.getLast?_isSome.2 hne)
    have hblank := hgap.2 e (by rw [hgap']; exact List.mem_append_left _ (List.mem_of_getLast? he))
    rw [hlast e he] at hblank
    cases hblank
  · obtain ⟨word, hword, hblank⟩ : ∃ word, more = "from".toList ++ word ∧
        ∀ e ∈ word.head?, isWhitespace e = true := by
      rcases List.append_eq_append_iff.1 htail with ⟨word, hword, hrest⟩ | ⟨word, hfrom, hcut⟩
      · refine ⟨word, hword, fun e he => ?_⟩
        cases word with
        | nil => cases he
        | cons e' word =>
          cases he
          rwa [← (List.cons.inj hrest).1]
      · cases word with
        | nil => exact ⟨[], by simpa using hfrom.symm, nofun⟩
        | cons e word =>
          have he : isWhitespace e = true := hafter e (by rw [hcut]; rfl)
          have hvisible : IsVisible "from".toList := by decide
          rw [hvisible.2 e (by simp [hfrom])] at he
          cases he
    have hgap' : EndsBlank gap := fun c hc => hgap.2 c (List.mem_of_getLast? hc)
    have hfrom : words "from".toList = ["from".toList] := words_visible (by decide)
    rw [hmore, hword, words_append_of_endsBlank hgap', words_append_of_blank_head hblank, hfrom]
    exact List.mem_append_right _ (.head _)

theorem isWhitespace_of_fromLength? {text : List Char} {n : Nat} (h : fromLength? text = some n) :
    ∀ c ∈ text.head?, isWhitespace c = true := by
  obtain ⟨gap, -, rest, hgap, -, rfl, -⟩ := fromLength?_eq_some h
  obtain ⟨c, gap, rfl⟩ := List.exists_cons_of_ne_nil hgap.1
  rintro _ ⟨⟩
  exact hgap.2 c (.head _)

namespace ImportHead
variable (h : ImportHead)

def front : List Char := "import".toList ++ (h.opening ++ h.clause)

def back : List Char := h.closing ++ ("from".toList ++ (h.ending ++ [h.quote]))

def text : List Char := h.front ++ h.back

-- stated by hand, since the equations made from the definitions read the keyword letter by letter
theorem front_eq : h.front = "import".toList ++ (h.opening ++ h.clause) := rfl

theorem text_eq : h.text = h.front ++ h.back := rfl

theorem blank_back (rest : List Char) : ∀ c ∈ (h.back ++ rest).head?, isWhitespace c = true := by
  obtain ⟨c, closing, hclosing⟩ := List.exists_cons_of_ne_nil h.closing_gap.1
  intro d hd
  obtain rfl : c = d := by simpa [back, hclosing] using hd
  exact h.closing_gap.2 c (by simp [hclosing])

theorem fromLength?_back (rest : List Char) : (fromLength? (h.back ++ rest)).isSome := by
  obtain ⟨c, ending, hending⟩ := List.exists_cons_of_ne_nil h.ending_gap.1
  have hback : h.back ++ rest =
      h.closing ++ ("from".toList ++ c :: (ending ++ (h.quote :: rest))) := by
    simp [back, hending]
  rw [hback, fromLength?_append h.closing_gap (h.ending_gap.2 c (by simp [hending]))]
  rfl

theorem read (rest : List Char) : (importClause? (h.text ++ rest)).isSome := by
  have htext : h.text ++ rest =
      "import".toList ++ (h.opening ++ (h.clause ++ (h.back ++ rest))) := by
    simp [text_eq, front_eq]
  rw [htext]
  exact importClause?_isSome h.opening_gap
    (shortestClause_isSome h.binds.ne_nil
      h.binds.isClauseText.clauseCharacters (h.fromLength?_back rest))

/-- Where the front is cut before whitespace, its end belongs to the opening and the clause. -/
theorem front_cut {front back : List Char} {d : Char} (hsplit : h.front = front ++ d :: back)
    (hd : isWhitespace d = true) : ∃ between, h.opening ++ h.clause = between ++ d :: back := by
  rcases List.append_eq_append_iff.1 hsplit with ⟨between, -, hclause⟩ | ⟨word, hword, hclause⟩
  · exact ⟨between, hclause⟩
  · cases word with
    | nil => exact ⟨[], hclause.symm⟩
    | cons e word =>
      obtain rfl : d = e := (List.cons.inj hclause).1
      have himport : IsVisible "import".toList := by decide
      rw [himport.2 d (by simp [hword])] at hd
      cases hd

/-- No `from` between whitespace comes before the one behind the clause. -/
theorem fromLength?_none {front back rest : List Char} (hsplit : h.front = front ++ back)
    (hback : back ≠ []) : fromLength? (back ++ (h.back ++ rest)) = none := by
  by_contra hsome
  obtain ⟨n, hread⟩ := Option.ne_none_iff_exists'.1 hsome
  obtain ⟨d, back, rfl⟩ := List.exists_cons_of_ne_nil hback
  have hd : isWhitespace d = true := isWhitespace_of_fromLength? hread d rfl
  obtain ⟨between, hbetween⟩ := h.front_cut hsplit hd
  have hlast : ∀ c ∈ (d :: back).getLast?, isWhitespace c = false := by
    have hclause := congrArg List.getLast? hbetween
    rw [List.getLast?_append_of_ne_nil _ h.binds.ne_nil,
      List.getLast?_append_of_ne_nil _ (List.cons_ne_nil d back)] at hclause
    rw [← hclause]
    exact h.last
  -- so `from` is a word of the clause
  refine h.from_notMem ?_
  have hwords : words h.clause = words between ++ words (d :: back) := by
    have hopening : EndsBlank h.opening := fun c hc =>
      h.opening_gap.2 c (List.mem_of_getLast? hc)
    have hsame := congrArg words hbetween
    rwa [words_append_of_endsBlank hopening, words_blank h.opening_gap.2, List.nil_append,
      words_append_blank hd, ← words_cons_blank hd back] at hsame
  rw [hwords]
  exact List.mem_append_right _ (from_mem_words hread (List.cons_ne_nil d back) hlast
    (h.blank_back rest))

theorem clause_ne_type : h.clause ≠ "type".toList := by
  intro htype
  have hbinds := h.binds
  rw [htype] at hbinds
  generalize hclause : "type".toList = clause at hbinds
  cases hbinds with
  | plain _ hhead =>
    refine hhead ?_
    rw [← hclause, words_visible (by decide)]
    rfl
  | typeOnly hgap _ _ =>
    have hlength := congrArg List.length hclause
    have hpos := List.length_pos_iff.2 hgap.1
    simp only [List.length_append] at hlength
    omega

section
variable {h} {run lead found tail rest : List Char}

/-- A clause that is read does not end behind the clause of an import on the way. -/
theorem not_behind {more : List Char} (hrun : ∀ c ∈ run.getLast?, c = '\n') (hlead : IsLead lead)
    (hshortest : ∀ front back, found = front ++ back → front ≠ [] → back ≠ [] →
      fromLength? (back ++ tail) = none) (hmore : more ≠ [])
    (hfound : "import".toList ++ lead ++ found = run ++ h.front ++ more)
    (htail : h.back ++ rest = more ++ tail) : False := by
  have hinner (short : List Char) (hshort : "import".toList ++ lead = run ++ h.front ++ short)
      (hmore : more = short ++ found) : False := by
    have htext : "import".toList ++ lead =
        run ++ ("import".toList ++ (h.opening ++ (h.clause ++ short))) := by
      rw [hshort, front_eq]
      simp
    obtain rfl := hlead.no_import hrun htext
    have hlead' : lead = h.opening ++ (h.clause ++ short) := List.append_cancel_left htext
    obtain ⟨gap, hgap, htype⟩ := hlead.past_gap h.opening_gap (by simp [h.binds.ne_nil])
      (by rw [Flush, List.head?_append_of_ne_nil _ h.binds.ne_nil]; exact h.flush) hlead'
    rcases List.append_eq_append_iff.1 htype with ⟨word, hword, hshort'⟩ | ⟨word, hword, hgap'⟩
    · cases word with
      | nil => exact h.clause_ne_type (by simpa using hword.symm)
      | cons c word =>
        have hc := h.blank_back rest c (by rw [htail, hmore, hshort']; rfl)
        have htypes : IsVisible "type".toList := by decide
        rw [htypes.2 c (by simp [hword])] at hc
        cases hc
    · by_cases hne : word = []
      · exact h.clause_ne_type (by rw [hword, hne, List.append_nil])
      · have hlast := List.getLast?_eq_some_getLast hne
        have hvisible := h.last (word.getLast hne)
          (by rw [hword, List.getLast?_append_of_ne_nil _ hne]; exact hlast)
        have hmem : word.getLast hne ∈ gap := by
          rw [hgap']
          exact List.mem_append_left _ (List.getLast_mem hne)
        rw [hgap.2 _ hmem] at hvisible
        cases hvisible
  rcases List.append_eq_append_iff.1 hfound with ⟨short, hshort, hmore'⟩ | ⟨short, hshort, hfound'⟩
  · by_cases hne : short = []
    · subst hne
      exact hinner [] (by simpa using hshort.symm) (by simpa using hmore'.symm)
    · have hnone := hshortest short more hmore' hne hmore
      have hsome := h.fromLength?_back rest
      rw [htail, hnone] at hsome
      cases hsome
  · exact hinner short hshort hfound'

/-- Nor does it end before. -/
theorem not_before {more : List Char} {k : Nat} (hrun : run ≠ [] → run.getLast? = some '\n')
    (hmore : more ≠ []) (hfrom : fromLength? tail = some k)
    (hpast : run.length < ("import".toList ++ lead).length + (found.length + k))
    (hfound : run ++ h.front = "import".toList ++ lead ++ found ++ more)
    (htail : tail = more ++ (h.back ++ rest)) : False := by
  have hinner (short : List Char) (hfront : h.front = short ++ more) : False := by
    rw [htail, h.fromLength?_none hfront hmore] at hfrom
    cases hfrom
  rcases List.append_eq_append_iff.1 hfound with ⟨short, -, hfront⟩ | ⟨short, hrun', hmore'⟩
  · exact hinner short hfront
  by_cases hne : short = []
  · exact hinner [] (by simpa [hne] using hmore'.symm)
  -- the `from` would begin on an earlier line and end on the line of the import
  have hbreak : short.getLast? = some '\n' := by
    have hlast := hrun (by simp [hrun'])
    rwa [hrun', List.getLast?_append_of_ne_nil _ hne] at hlast
  obtain ⟨gap, c, after, hgap, -, htext, rfl⟩ := fromLength?_eq_some hfrom
  have hlength : short.length < gap.length + 5 := by
    simp only [hrun', List.length_append] at hpast ⊢
    omega
  have hword {cs : List Char} (hcs : "from".toList ++ c :: after = cs) (hne : cs.head? = some 'i') :
      False := by
    rw [← hcs] at hne
    revert hne
    simp
  rw [htail, hmore', List.append_assoc] at htext
  rcases List.append_eq_append_iff.1 htext with ⟨more, hgap', htext⟩ | ⟨more, hshort, htext⟩
  · cases more with
    | nil => exact hword htext.symm (by simp [front_eq])
    | cons d more =>
      have hd : d = 'i' := by simpa [front_eq] using (congrArg List.head? htext).symm
      have hblank := hgap.2 d (by simp [hgap'])
      rw [hd] at hblank
      revert hblank
      decide
  · by_cases hmore : more = []
    · exact hword (by rw [htext, hmore, List.nil_append]) (by simp [front_eq])
    rw [hshort, List.getLast?_append_of_ne_nil _ hmore] at hbreak
    rw [hshort, List.length_append] at hlength
    rcases List.append_eq_append_iff.1 htext with ⟨word, hword', -⟩ | ⟨word, hword', -⟩
    · have hnil : word = [] := by
        rw [hword', List.length_append] at hlength
        exact List.length_eq_zero_iff.1 (by simp at hlength; omega)
      rw [hword', hnil] at hbreak
      revert hbreak
      decide
    · have hmem : '\n' ∈ "from".toList := by
        rw [hword']
        exact List.mem_append_left _ (List.mem_of_getLast? hbreak)
      revert hmem
      decide

/-- Whatever import is read up to the clause of this one or further, its clause has the names. -/
theorem names_of_readsPast {before : List Char} (hbefore : LineBegins before)
    (hpast : ReadsPast importClause? true before (h.text ++ rest) found) :
    ∀ name ∈ h.names, String.ofList name ∈ clauseNames found := by
  obtain ⟨line, run, n, rfl, -, hread, hlength⟩ := hpast
  obtain ⟨lead, start, m, hlead, htext, hclause, rfl⟩ := importClause?_eq_some hread
  obtain ⟨tail, k, rfl, hfrom, rfl, hshortest⟩ := shortestClause_eq_some hclause
  have hrun : run ≠ [] → run.getLast? = some '\n' := fun hne => by
    rcases hbefore with hnil | hlast
    · exact absurd (List.append_eq_nil_iff.1 hnil).2 hne
    · rwa [List.getLast?_append_of_ne_nil _ hne] at hlast
  have hrun' : ∀ c ∈ run.getLast?, c = '\n' := fun c hc => by
    rw [hrun (by rintro rfl; cases hc)] at hc
    exact (Option.some.inj hc).symm
  have hends : run ++ h.front = "import".toList ++ lead ++ found := by
    have hboth : run ++ h.front ++ (h.back ++ rest) = "import".toList ++ lead ++ found ++ tail := by
      simpa [text_eq] using htext
    rcases List.append_eq_append_iff.1 hboth with ⟨more, hfound, htail⟩ | ⟨more, hfound, htail⟩
    · by_cases hne : more = []
      · rw [hfound, hne, List.append_nil]
      · exact (not_behind hrun' hlead hshortest hne hfound htail).elim
    · by_cases hne : more = []
      · rw [hfound, hne, List.append_nil]
      · exact (not_before hrun hne hfrom hlength hfound htail).elim
  have hclause : "import".toList ++ lead ++ found =
      run ++ ("import".toList ++ h.opening) ++ h.clause := by
    rw [← hends, front_eq]
    simp
  have hopening := endsBlank_append_gap h.opening_gap
  rcases List.append_eq_append_iff.1 hclause with ⟨more, hmore, hfound⟩ | ⟨more, hmore, hsame⟩
  · rw [hfound]
    refine h.binds.mem_clauseNames fun c hc => ?_
    have hlast := hopening (run ++ "import".toList) c
    rw [List.append_assoc, hmore, List.getLast?_append, hc] at hlast
    exact hlast rfl
  · by_cases hne : more = []
    · subst hne
      rw [List.nil_append] at hsame
      rw [← hsame]
      exact h.binds.mem_clauseNames endsBlank_nil
    · have hlead' : "import".toList ++ lead = run ++ ("import".toList ++ (h.opening ++ more)) := by
        simpa using hmore
      obtain rfl := hlead.no_import hrun' hlead'
      have hflush : Flush more := by
        intro c hc
        have hclause := h.flush c
        rw [hsame, List.head?_append, hc] at hclause
        exact hclause rfl
      obtain ⟨gap, hgap, rfl⟩ :=
        hlead.past_gap h.opening_gap hne hflush (List.append_cancel_left hlead')
      exact h.binds.mem_clauseNames_of_type hgap (by simpa using hsame)

end

theorem found {before : List Char} (hbefore : LineBegins before) (rest : List Char) :
    ∀ name ∈ h.names,
      String.ofList name ∈ topLevelBindings (String.ofList (before ++ (h.text ++ rest))) := by
  obtain ⟨clause, hclause, hnames⟩ := exists_mem_scanLineStarts importClause?
    (p := fun clause => ∀ name ∈ h.names, String.ofList name ∈ clauseNames clause)
    (lineBeginsAfter_true_iff.2 hbefore) (by simp [text_eq, front_eq]) (h.read rest)
    (fun _ => names_of_readsPast hbefore) fun clause n hread => by
      obtain ⟨lead, _, _, -, -, -, rfl⟩ := importClause?_eq_some hread
      have hpos : 0 < "import".toList.length := by decide
      rw [List.length_append]
      omega
  intro name hname
  rw [topLevelBindings, String.toList_ofList]
  exact List.mem_append_left _ (List.mem_flatMap.2 ⟨clause, hclause, hnames name hname⟩)

end ImportHead

end TypedRoutes.Naming
