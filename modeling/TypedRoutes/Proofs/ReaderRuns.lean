import TypedRoutes.Json.Printer
import TypedRoutes.Json.Reader
import Mathlib.Data.List.Basic

/-! # What readers take from a text

A reader that succeeds gives a value and leaves the rest of its text; where it stands counts only
for failures.  Readers that follow each other are described one by one, and a string in quotes is
read as what it was before its characters were escaped.
-/

namespace TypedRoutes.Json.Reader
variable {α β : Type}

/-- From wherever it begins, a reader takes a value from a text and leaves the rest. -/
def Runs (r : Reader α) (text : List Char) (a : α) (rest : List Char) : Prop :=
  ∀ p, ∃ p', r ⟨text, p⟩ = .ok (a, ⟨rest, p'⟩)

theorem Runs.pure (a : α) (text : List Char) : Runs (pure a) text a text := fun p => ⟨p, rfl⟩

theorem Runs.bind {r : Reader α} {f : α → Reader β} {text middle rest : List Char} {a : α} {b : β}
    (hr : Runs r text a middle) (hf : Runs (f a) middle b rest) : Runs (r >>= f) text b rest := by
  intro p
  obtain ⟨p', hr⟩ := hr p
  obtain ⟨p'', hf⟩ := hf p'
  refine ⟨p'', ?_⟩
  simp only [Bind.bind, StateT.bind, Except.bind, hr]
  exact hf

theorem Runs.map {r : Reader α} {text rest : List Char} {a : α} (f : α → β)
    (h : Runs r text a rest) : Runs (f <$> r) text (f a) rest := by
  intro p
  obtain ⟨p', h⟩ := h p
  refine ⟨p', ?_⟩
  simp only [Functor.map, StateT.map, Bind.bind, Except.bind, h]
  rfl

theorem bind_eq_ok {r : Reader α} {f : α → Reader β} {s s'' : Source} {b : β}
    (h : (r >>= f) s = .ok (b, s'')) : ∃ a s', r s = .ok (a, s') ∧ f a s' = .ok (b, s'') := by
  simp only [Bind.bind, StateT.bind, Except.bind] at h
  split at h
  · cases h
  · rename_i p hr
    exact ⟨p.1, p.2, hr, h⟩

/-! ## What holds of all results -/

def Yields (r : Reader α) (P : α → Prop) : Prop := ∀ s a s', r s = .ok (a, s') → P a

section Yields
variable {r : Reader α} {f : α → Reader β} {P : β → Prop} {Q : α → Prop}

theorem Yields.pure {b : β} (h : P b) : Yields (pure b) P := by
  intro s a s' heq
  obtain rfl : b = a := congrArg Prod.fst (Except.ok.inj heq)
  exact h

theorem Yields.fail (problem : Problem) : Yields (fail problem) P := fun _ _ _ h => nomatch h

theorem Yields.failNext (problem : Problem) : Yields (failNext problem) P :=
  fun _ _ _ h => nomatch h

theorem Yields.bind (hr : Yields r Q) (hf : ∀ a, Q a → Yields (f a) P) : Yields (r >>= f) P := by
  intro s b s'' h
  obtain ⟨a, s', ha, hb⟩ := bind_eq_ok h
  exact hf a (hr s a s' ha) s' b s'' hb

/-- Nothing has to be known of what the first reader gives. -/
theorem Yields.after (hf : ∀ a, Yields (f a) P) : Yields (r >>= f) P :=
  Yields.bind (Q := fun _ => True) (fun _ _ _ _ => trivial) fun a _ => hf a

end Yields

/-! ## Single characters -/

theorem runs_peek (text : List Char) : Runs peek text text.head? text := fun p => ⟨p, rfl⟩

theorem runs_next (c : Char) (text : List Char) : Runs next (c :: text) (some c) text :=
  fun p => ⟨p.after c, rfl⟩

theorem runs_skip (c : Char) (text : List Char) : Runs skip (c :: text) () text :=
  fun p => ⟨p.after c, rfl⟩

theorem runs_remaining (text : List Char) : Runs remaining text text.length text :=
  fun p => ⟨p, rfl⟩

theorem runs_takeWhile {p : Char → Bool} {run : List Char} (h : ∀ c ∈ run, p c = true)
    {rest : List Char} (hrest : ∀ c ∈ rest.head?, p c = false) :
    Runs (takeWhile p) (run ++ rest) run rest := by
  have hstop : rest.takeWhile p = [] := by
    cases rest with
    | nil => rfl
    | cons c rest => simp [hrest c rfl]
  have hrun : (run ++ rest).takeWhile p = run := by
    rw [List.takeWhile_append_of_pos h, hstop, List.append_nil]
  intro q
  refine ⟨run.foldl Position.after q, ?_⟩
  simp [takeWhile, hrun]

theorem runs_word (cs rest : List Char) : Runs (word cs) (cs ++ rest) () rest := by
  induction cs with
  | nil => exact Runs.pure () rest
  | cons c cs ih =>
    refine (runs_next c (cs ++ rest)).bind ?_
    simpa using ih

/-! ## Blanks -/

theorem isBlank_of_mem_nil : ∀ c ∈ ([] : List Char), isBlank c = true := by simp

theorem isBlank_of_mem_space : ∀ c ∈ [' '], isBlank c = true := by simp [isBlank]

theorem runs_peekToken {blanks : List Char} (h : ∀ c ∈ blanks, isBlank c = true)
    {rest : List Char} (hrest : ∀ c ∈ rest.head?, isBlank c = false) :
    Runs peekToken (blanks ++ rest) rest.head? rest :=
  (runs_takeWhile h hrest).bind (runs_peek rest)

theorem runs_peekToken_cons {c : Char} (h : isBlank c = false) (rest : List Char) :
    Runs peekToken (c :: rest) (some c) (c :: rest) := by
  refine runs_peekToken isBlank_of_mem_nil ?_
  simpa using h

theorem isBlank_breakAt (depth : Nat) : ∀ c ∈ breakAt depth, isBlank c = true := by
  intro c hc
  obtain rfl | hc := List.mem_cons.1 hc
  · rfl
  · rw [List.eq_of_mem_replicate hc]
    rfl

/-! ## Strings -/

theorem hexDigit?_hexDigit {n : Nat} (h : n < 16) : hexDigit? (hexDigit n) = some n := by
  revert h n
  decide

theorem runs_hexEscape {c : Char} (h : c.toNat < 0x20) (rest : List Char) :
    Runs (hexEscape true)
      ('0' :: '0' :: hexDigit (c.toNat / 16) :: hexDigit (c.toNat % 16) :: rest) c rest := by
  have hzero : hexDigit? '0' = some 0 := by decide
  have hhigh := hexDigit?_hexDigit (n := c.toNat / 16) (by omega)
  have hlow := hexDigit?_hexDigit (n := c.toNat % 16) (by omega)
  have hunit : Runs hexUnit
      ('0' :: '0' :: hexDigit (c.toNat / 16) :: hexDigit (c.toNat % 16) :: rest) c.toNat rest := by
    intro p
    refine ⟨⟨p.line, p.column + 4⟩, ?_⟩
    simp only [hexUnit, hzero, hhigh, hlow]
    have hsum : ((0 * 16 + 0) * 16 + c.toNat / 16) * 16 + c.toNat % 16 = c.toNat := by omega
    rw [hsum]
  refine hunit.bind ?_
  have hlone : ¬(0xDC00 ≤ c.toNat) := by omega
  have hlead : ¬(0xD800 ≤ c.toNat) := by omega
  simp only [Bool.not_true, Bool.false_eq_true, if_false, hlone, hlead, decide_false,
    Bool.false_and]
  have hc : Char.ofNat c.toNat = c := Char.ofNat_toNat c
  rw [hc]
  exact Runs.pure c rest

theorem escapeChar_cases (c : Char) :
    (isPlain c = true ∧ escapeChar c = [c]) ∨ isPlain c = false ∧
      ((∃ e, e ≠ 'u' ∧ escapeChar c = ['\\', e] ∧ simpleEscape? e = some c) ∨
        c.toNat < 0x20 ∧ escapeChar c =
          ['\\', 'u', '0', '0', hexDigit (c.toNat / 16), hexDigit (c.toNat % 16)]) := by
  unfold escapeChar
  split
  · exact .inr ⟨by decide, .inl ⟨'"', by decide, rfl, rfl⟩⟩
  · exact .inr ⟨by decide, .inl ⟨'\\', by decide, rfl, rfl⟩⟩
  · exact .inr ⟨by decide, .inl ⟨'n', by decide, rfl, rfl⟩⟩
  · exact .inr ⟨by decide, .inl ⟨'r', by decide, rfl, rfl⟩⟩
  · exact .inr ⟨by decide, .inl ⟨'t', by decide, rfl, rfl⟩⟩
  · exact .inr ⟨by decide, .inl ⟨'b', by decide, rfl, rfl⟩⟩
  · exact .inr ⟨by decide, .inl ⟨'f', by decide, rfl, rfl⟩⟩
  · rename_i hquote hbackslash _ _ _ _ _
    split
    · rename_i hcontrol
      refine .inr ⟨?_, .inr ⟨hcontrol, rfl⟩⟩
      simp [isPlain, hcontrol]
    · rename_i hcontrol
      refine .inl ⟨?_, rfl⟩
      simp only [isPlain, Bool.and_eq_true, bne_iff_ne, decide_eq_true_eq]
      exact ⟨⟨fun h => hquote h, fun h => hbackslash h⟩, by omega⟩

theorem flatMap_escapeChar {run : List Char} (h : ∀ c ∈ run, isPlain c = true) :
    run.flatMap escapeChar = run := by
  induction run with
  | nil => rfl
  | cons c run ih =>
    obtain ⟨-, hc⟩ | ⟨hc, -⟩ := escapeChar_cases c
    · rw [List.flatMap_cons, hc, ih fun d hd => h d (.tail _ hd)]
      rfl
    · rw [h c (.head _)] at hc
      cases hc

/-- The escaped characters of a string are read, in pieces, up to the quote that ends it. -/
theorem runs_stringPieces (cs rest : List Char) {fuel : Nat} (hfuel : cs.length < fuel) :
    ∃ pieces, pieces.flatten = cs ∧
      Runs (stringPieces true fuel) (cs.flatMap escapeChar ++ '"' :: rest) pieces rest := by
  induction fuel generalizing cs with
  | zero => omega
  | succ fuel ih =>
    -- the characters up to the first that is escaped are one piece
    obtain ⟨run, tail, rfl, hrun, htail⟩ : ∃ run tail, cs = run ++ tail ∧
        (∀ c ∈ run, isPlain c = true) ∧ ∀ c ∈ tail.head?, isPlain c = false := by
      refine ⟨cs.takeWhile isPlain, cs.dropWhile isPlain, List.takeWhile_append_dropWhile.symm,
        ?_, ?_⟩
      · exact List.all_eq_true.1 List.all_takeWhile
      · intro c hc
        have hnot := List.head?_dropWhile_not isPlain cs
        rw [Option.mem_def.1 hc] at hnot
        simpa using hnot
    have hplain : (run ++ tail).flatMap escapeChar ++ '"' :: rest =
        run ++ (tail.flatMap escapeChar ++ '"' :: rest) := by
      rw [List.flatMap_append, flatMap_escapeChar hrun, List.append_assoc]
    rw [hplain]
    cases tail with
    | nil =>
      refine ⟨[run], by simp, (runs_takeWhile hrun (by simp [isPlain])).bind ?_⟩
      refine (runs_peek _).bind ((runs_skip '"' rest).bind ?_)
      exact Runs.pure [run] rest
    | cons c tail =>
      have hc : isPlain c = false := htail c rfl
      obtain ⟨pieces, hpieces, hruns⟩ := ih tail (by simp at hfuel; omega)
      refine ⟨run :: [c] :: pieces, by simp [hpieces], ?_⟩
      obtain ⟨hself, -⟩ | ⟨-, ⟨e, he, hescape, hsimple⟩ | ⟨hcontrol, hescape⟩⟩ := escapeChar_cases c
      · rw [hc] at hself
        cases hself
      · rw [List.flatMap_cons, hescape]
        refine (runs_takeWhile hrun (by simp [isPlain])).bind ((runs_peek _).bind ?_)
        refine (runs_skip '\\' _).bind ((runs_next e _).bind ?_)
        split
        · rename_i hnone
          cases hnone
        · rename_i hu
          exact absurd (Option.some.inj hu) he
        · rename_i d _ hd
          obtain rfl : e = d := Option.some.inj hd
          rw [hsimple]
          exact hruns.bind (Runs.pure _ rest)
      · rw [List.flatMap_cons, hescape]
        refine (runs_takeWhile hrun (by simp [isPlain])).bind ((runs_peek _).bind ?_)
        refine (runs_skip '\\' _).bind ((runs_next 'u' _).bind ?_)
        refine (runs_hexEscape hcontrol _).bind (hruns.bind ?_)
        exact Runs.pure _ rest

theorem length_le_flatMap_escapeChar (cs : List Char) :
    cs.length ≤ (cs.flatMap escapeChar).length := by
  induction cs with
  | nil => exact Nat.le_refl _
  | cons c cs ih =>
    have hc : 1 ≤ (escapeChar c).length := by
      obtain ⟨-, h⟩ | ⟨-, ⟨e, -, h, -⟩ | ⟨-, h⟩⟩ := escapeChar_cases c <;> simp [h]
    rw [List.flatMap_cons, List.length_append, List.length_cons]
    omega

theorem quoted_eq_cons (s : String) :
    quoted s = '"' :: (s.toList.flatMap escapeChar ++ ['"']) := rfl

/-- A string in quotes is read, after its first quote, as what it was. -/
theorem runs_stringRest (s : String) (rest : List Char) :
    Runs stringRest (s.toList.flatMap escapeChar ++ '"' :: rest) s rest := by
  have hfuel : s.toList.length < (s.toList.flatMap escapeChar ++ '"' :: rest).length + 1 := by
    have := length_le_flatMap_escapeChar s.toList
    simp only [List.length_append]
    omega
  obtain ⟨pieces, hpieces, hruns⟩ := runs_stringPieces s.toList rest hfuel
  have hs : String.ofList pieces.flatten = s := by rw [hpieces, String.ofList_toList]
  refine (runs_remaining _).bind (hruns.bind ?_)
  rw [hs]
  exact Runs.pure s rest

/-! ## Lists and objects -/

def Stops (rest : List Char) : Prop :=
  ∀ c ∈ rest.head?, c.isDigit = false ∧ c ≠ '.' ∧ c ≠ 'e' ∧ c ≠ 'E'

theorem stops_breakAt (depth : Nat) (rest : List Char) : Stops (breakAt depth ++ rest) := by
  intro c hc
  obtain rfl : '\n' = c := by simpa [breakAt] using hc
  decide

theorem stops_comma (rest : List Char) : Stops (',' :: rest) := by
  intro c hc
  obtain rfl : ',' = c := by simpa using hc
  decide

/-- The first character of a value: no blank, and none of the marks between values. -/
def startsValue (c : Char) : Bool :=
  !isBlank c && c != ']' && c != '\x7d' && c != ',' && c != ':'

/-- A reader takes a value from a text, after blanks and wherever no number goes on after it. -/
structure Reads (r : Reader α) (text : List Char) (a : α) : Prop where
  starts : ∃ c cs, text = c :: cs ∧ startsValue c = true
  runs : ∀ blanks rest, (∀ c ∈ blanks, isBlank c = true) → Stops rest →
    Runs r (blanks ++ (text ++ rest)) a rest

theorem Reads.runs_append {r : Reader α} {text : List Char} {a : α} (h : Reads r text a)
    {rest : List Char} (hrest : Stops rest) : Runs r (text ++ rest) a rest :=
  h.runs [] rest (by simp) hrest

theorem Reads.of_token {f : Option Char → Reader α} {c : Char} {cs : List Char} {a : α}
    (hc : startsValue c = true)
    (h : ∀ rest, Stops rest → Runs (f (some c)) (c :: (cs ++ rest)) a rest) :
    Reads (peekToken >>= f) (c :: cs) a := by
  refine ⟨⟨c, cs, rfl, hc⟩, fun blanks rest hblanks hrest => ?_⟩
  simp only [startsValue, Bool.and_eq_true, Bool.not_eq_true', bne_iff_ne] at hc
  exact (runs_peekToken hblanks (by simpa using hc.1.1.1.1)).bind (h rest hrest)

theorem Reads.map {r : Reader α} {text : List Char} {a : α} (h : Reads r text a)
    (f : α → β) : Reads (do return f (← r)) text (f a) :=
  ⟨h.starts, fun blanks rest hblanks hrest =>
    (h.runs blanks rest hblanks hrest).bind (Runs.pure _ rest)⟩

theorem runs_finish : Runs finish [] () [] :=
  (runs_peekToken isBlank_of_mem_nil (by simp)).bind (Runs.pure () [])

/-- A text that holds nothing else. -/
theorem Reads.run_whole {r : Reader α} {text : List Char} {a : α} (h : Reads r text a) :
    ∃ s, (do
      let a ← r
      finish
      return a : Reader α).run { rest := text } = .ok (a, s) := by
  have hruns : Runs (do
      let a ← r
      finish
      return a) (text ++ []) a [] :=
    (h.runs_append (by simp [Stops])).bind (runs_finish.bind (Runs.pure a []))
  rw [List.append_nil] at hruns
  obtain ⟨p, hp⟩ := hruns {}
  exact ⟨_, hp⟩

section Layout
variable {blanks : List Char}

theorem runs_hasItem_first (h : ∀ c ∈ blanks, isBlank c = true) {c : Char}
    (hc : startsValue c = true) (rest : List Char) :
    Runs (hasItem true) (blanks ++ c :: rest) true (c :: rest) := by
  simp only [startsValue, Bool.and_eq_true, Bool.not_eq_true', bne_iff_ne] at hc
  refine (runs_peekToken h (by simpa using hc.1.1.1.1)).bind ?_
  rw [List.head?_cons]
  split
  · rename_i hnone
    cases hnone
  · rename_i heq
    exact absurd (Option.some.inj heq) hc.1.1.1.2
  · exact Runs.pure true _

theorem runs_hasItem_next (h : ∀ c ∈ blanks, isBlank c = true) {c : Char}
    (hc : startsValue c = true) (rest : List Char) :
    Runs (hasItem false) (',' :: (blanks ++ c :: rest)) true (c :: rest) := by
  simp only [startsValue, Bool.and_eq_true, Bool.not_eq_true', bne_iff_ne] at hc
  refine (runs_peekToken_cons (by decide) _).bind ((runs_skip ',' _).bind ?_)
  refine (runs_peekToken h (by simpa using hc.1.1.1.1)).bind ?_
  rw [List.head?_cons]
  split
  · rename_i heq
    exact absurd (Option.some.inj heq) hc.1.1.1.2
  · exact Runs.pure true _
  · rename_i hnone
    cases hnone

theorem runs_hasItem_end (h : ∀ c ∈ blanks, isBlank c = true) (first : Bool) (rest : List Char) :
    Runs (hasItem first) (blanks ++ ']' :: rest) false (']' :: rest) :=
  (runs_peekToken h (by simp [isBlank])).bind (Runs.pure false _)

theorem runs_hasField_first (h : ∀ c ∈ blanks, isBlank c = true) (rest : List Char) :
    Runs (hasField true) (blanks ++ '"' :: rest) true ('"' :: rest) :=
  (runs_peekToken h (by simp [isBlank])).bind (Runs.pure true _)

theorem runs_hasField_next (h : ∀ c ∈ blanks, isBlank c = true) (rest : List Char) :
    Runs (hasField false) (',' :: (blanks ++ '"' :: rest)) true ('"' :: rest) := by
  refine (runs_peekToken_cons (by decide) _).bind ((runs_skip ',' _).bind ?_)
  exact (runs_peekToken h (by simp [isBlank])).bind (Runs.pure true _)

theorem runs_hasField_end (h : ∀ c ∈ blanks, isBlank c = true) (first : Bool) (rest : List Char) :
    Runs (hasField first) (blanks ++ '\x7d' :: rest) false ('\x7d' :: rest) :=
  (runs_peekToken h (by simp [isBlank])).bind (Runs.pure false _)

theorem runs_colon (rest : List Char) : Runs colon (':' :: rest) () rest :=
  (runs_peekToken_cons (by decide) _).bind (runs_skip ':' rest)

end Layout

theorem joinChars_cons (separator t : List Char) (ts : List (List Char)) :
    joinChars separator (t :: ts) = t ++ ts.flatMap (separator ++ ·) := by
  induction ts generalizing t with
  | nil => simp [joinChars]
  | cons u ts ih => simp [joinChars, ih u]

/-- What follows the opening bracket of texts in brackets. -/
def afterOpening (closing : Char) (depth : Nat) : List (List Char) → List Char
  | [] => [closing]
  | t :: ts => breakAt (depth + 1) ++ (t ++ ts.flatMap (',' :: breakAt (depth + 1) ++ ·)) ++
      (breakAt depth ++ [closing])

theorem bracketed_eq (opening closing : Char) (depth : Nat) (texts : List (List Char)) :
    bracketed opening closing depth texts = opening :: afterOpening closing depth texts := by
  cases texts with
  | nil => rfl
  | cons t ts => simp [bracketed, afterOpening, joinChars_cons]

@[simp] theorem head?_bracketed (opening closing : Char) (depth : Nat) (texts : List (List Char)) :
    (bracketed opening closing depth texts).head? = some opening := by
  rw [bracketed_eq, List.head?_cons]

theorem length_le_afterOpening (closing : Char) (depth : Nat) (texts : List (List Char)) :
    texts.length ≤ (afterOpening closing depth texts).length := by
  cases texts with
  | nil => simp
  | cons t ts =>
    have hts : ts.length ≤ (ts.flatMap (',' :: breakAt (depth + 1) ++ ·)).length := by
      induction ts with
      | nil => simp
      | cons u ts ih =>
        simp only [List.flatMap_cons, List.length_append, List.length_cons] at ih ⊢
        omega
    have hbreak : 1 ≤ (breakAt depth).length := by simp [breakAt]
    simp only [afterOpening, List.length_append, List.length_cons]
    omega

theorem stops_afterValue (texts : List (List Char)) (depth : Nat) (rest : List Char) :
    Stops (texts.flatMap (',' :: breakAt (depth + 1) ++ ·) ++ (breakAt depth ++ rest)) := by
  cases texts with
  | nil => exact stops_breakAt depth rest
  | cons => exact stops_comma _

theorem prettyItems_eq (depth : Nat) (vs : List Value) :
    prettyItems depth vs = vs.map (Value.prettyChars depth) := by
  induction vs with
  | nil => rfl
  | cons v vs ih => rw [prettyItems, ih, List.map_cons]

section Items
variable {item : Reader α} {texts : List (List Char)} {as : List α}

/-- After the first item of a list each one comes after a comma, and then the bracket. -/
theorem runs_items_next (h : List.Forall₂ (Reads item) texts as) (depth : Nat) (rest : List Char)
    {fuel : Nat} (hfuel : texts.length < fuel) :
    Runs (items item false fuel) (texts.flatMap (',' :: breakAt (depth + 1) ++ ·) ++
      (breakAt depth ++ ']' :: rest)) as rest := by
  induction h generalizing fuel with
  | nil =>
    obtain ⟨fuel, rfl⟩ := Nat.exists_eq_succ_of_ne_zero (Nat.ne_of_gt hfuel)
    refine (runs_hasItem_end (isBlank_breakAt depth) false rest).bind ?_
    exact (runs_skip ']' rest).bind (Runs.pure [] rest)
  | @cons text a texts as hread hrest ih =>
    obtain ⟨fuel, rfl⟩ := Nat.exists_eq_succ_of_ne_zero (Nat.ne_of_gt (Nat.zero_lt_of_lt hfuel))
    obtain ⟨c, cs, rfl, hc⟩ := hread.starts
    rw [List.flatMap_cons]
    simp only [List.cons_append, List.append_assoc]
    refine (runs_hasItem_next (isBlank_breakAt (depth + 1)) hc _).bind ?_
    refine (hread.runs_append (stops_afterValue texts depth _)).bind ?_
    refine (ih (by simpa using hfuel)).bind ?_
    exact Runs.pure (a :: as) rest

/-- The items of a list that is laid out over lines. -/
theorem runs_items (h : List.Forall₂ (Reads item) texts as) (depth : Nat) (rest : List Char) :
    Runs (do items item true ((← remaining) + 1)) (afterOpening ']' depth texts ++ rest) as
      rest := by
  have hfuel : texts.length < (afterOpening ']' depth texts ++ rest).length + 1 := by
    have := length_le_afterOpening ']' depth texts
    simp only [List.length_append]
    omega
  refine (runs_remaining _).bind ?_
  generalize (afterOpening ']' depth texts ++ rest).length = fuel at hfuel
  cases h with
  | nil =>
    refine (runs_hasItem_end isBlank_of_mem_nil true rest).bind ?_
    exact (runs_skip ']' rest).bind (Runs.pure [] rest)
  | @cons text a texts as hread hrest =>
    obtain ⟨c, cs, rfl, hc⟩ := hread.starts
    simp only [afterOpening, List.cons_append, List.append_assoc, List.nil_append]
    refine (runs_hasItem_first (isBlank_breakAt (depth + 1)) hc _).bind ?_
    refine (hread.runs_append (stops_afterValue texts depth _)).bind ?_
    refine (runs_items_next hrest depth rest (by simpa using hfuel)).bind ?_
    exact Runs.pure (a :: as) rest

end Items

def fieldText (key : String) (text : List Char) : List Char := quoted key ++ ':' :: ' ' :: text

theorem fieldText_append (key : String) (text rest : List Char) : fieldText key text ++ rest =
    '"' :: (key.toList.flatMap escapeChar ++ '"' :: (':' :: ([' '] ++ (text ++ rest)))) := by
  simp [fieldText, quoted]

theorem prettyFields_eq (depth : Nat) (fs : List (String × Value)) :
    prettyFields depth fs = fs.map fun f => fieldText f.1 (f.2.prettyChars depth) := by
  induction fs with
  | nil => rfl
  | cons f fs ih => rw [prettyFields, ih, List.map_cons, fieldText]

section Fields
variable {field : String → Reader α}

/-- After the first field of an object each one comes after a comma, and then the brace. -/
theorem runs_fields_next {entries : List (String × List Char × α)}
    (h : ∀ e ∈ entries, Reads (field e.1) e.2.1 e.2.2) (depth : Nat) (rest : List Char) {fuel : Nat}
    (hfuel : entries.length < fuel) :
    Runs (fields field false fuel)
      ((entries.map fun e => fieldText e.1 e.2.1).flatMap (',' :: breakAt (depth + 1) ++ ·) ++
        (breakAt depth ++ '\x7d' :: rest)) (entries.map fun e => e.2.2) rest := by
  induction entries generalizing fuel with
  | nil =>
    obtain ⟨fuel, rfl⟩ := Nat.exists_eq_succ_of_ne_zero (Nat.ne_of_gt hfuel)
    refine (runs_hasField_end (isBlank_breakAt depth) false rest).bind ?_
    exact (runs_skip '\x7d' rest).bind (Runs.pure [] rest)
  | cons e entries ih =>
    obtain ⟨fuel, rfl⟩ := Nat.exists_eq_succ_of_ne_zero (Nat.ne_of_gt (Nat.zero_lt_of_lt hfuel))
    obtain ⟨key, text, a⟩ := e
    rw [List.map_cons, List.flatMap_cons]
    simp only [List.cons_append, List.append_assoc, fieldText_append]
    refine (runs_hasField_next (isBlank_breakAt (depth + 1)) _).bind ((runs_skip '"' _).bind ?_)
    refine (runs_stringRest key _).bind ((runs_colon _).bind ?_)
    refine ((h _ (.head _)).runs [' '] _ isBlank_of_mem_space (stops_afterValue _ depth _)).bind ?_
    refine (ih (fun e he => h e (.tail _ he)) (by simpa using hfuel)).bind ?_
    exact Runs.pure _ rest

variable (field) in
/-- The fields of an object that is laid out over lines. -/
theorem runs_fields {entries : List (String × List Char × α)}
    (h : ∀ e ∈ entries, Reads (field e.1) e.2.1 e.2.2) (depth : Nat) (rest : List Char) :
    Runs (do fields field true ((← remaining) + 1))
      (afterOpening '\x7d' depth (entries.map fun e => fieldText e.1 e.2.1) ++ rest)
      (entries.map fun e => e.2.2) rest := by
  have hfuel : entries.length < (afterOpening '\x7d' depth
      (entries.map fun e => fieldText e.1 e.2.1) ++ rest).length + 1 := by
    have := length_le_afterOpening '\x7d' depth (entries.map fun e => fieldText e.1 e.2.1)
    simp only [List.length_append, List.length_map] at this ⊢
    omega
  refine (runs_remaining _).bind ?_
  generalize (afterOpening '\x7d' depth (entries.map fun e => fieldText e.1 e.2.1) ++ rest).length =
    fuel at hfuel
  cases entries with
  | nil =>
    refine (runs_hasField_end isBlank_of_mem_nil true rest).bind ?_
    exact (runs_skip '\x7d' rest).bind (Runs.pure [] rest)
  | cons e entries =>
    obtain ⟨key, text, a⟩ := e
    simp only [List.map_cons, afterOpening, List.cons_append, List.append_assoc, List.nil_append,
      fieldText_append]
    refine (runs_hasField_first (isBlank_breakAt (depth + 1)) _).bind ((runs_skip '"' _).bind ?_)
    refine (runs_stringRest key _).bind ((runs_colon _).bind ?_)
    refine ((h _ (.head _)).runs [' '] _ isBlank_of_mem_space (stops_afterValue _ depth _)).bind ?_
    refine (runs_fields_next (fun e he => h e (.tail _ he)) depth rest
      (by simpa using hfuel)).bind ?_
    exact Runs.pure _ rest

end Fields

end TypedRoutes.Json.Reader
