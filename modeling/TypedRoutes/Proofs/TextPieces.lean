import TypedRoutes.Text.Basic
import Mathlib.Data.List.Basic

/-! # Cutting texts

A text is cut at a character, at the ends of its lines, or at a beginning or ending that is known.
Here is what is left of a text that was put together of such parts.
-/

namespace TypedRoutes.Text

/-! ## Pieces -/

theorem splitChars_ne_nil (separator : Char) (cs : List Char) : splitChars separator cs ≠ [] := by
  induction cs with
  | nil => simp [splitChars]
  | cons c cs ih =>
    unfold splitChars
    split
    · simp
    · split <;> simp

theorem splitChars_of_notMem {separator : Char} {cs : List Char} (h : separator ∉ cs) :
    splitChars separator cs = [cs] := by
  induction cs with
  | nil => rfl
  | cons c cs ih =>
    simp only [List.mem_cons, not_or] at h
    simp [splitChars, Ne.symm h.1, ih h.2]

/-- Where two texts meet, the last piece of the one and the first of the other become one. -/
theorem splitChars_append (separator : Char) (a b : List Char) :
    splitChars separator (a ++ b) = (splitChars separator a).dropLast ++
      ((splitChars separator a).getLast?.getD [] ++ (splitChars separator b).head?.getD []) ::
        (splitChars separator b).tail := by
  induction a with
  | nil =>
    obtain ⟨piece, pieces, h⟩ := List.exists_cons_of_ne_nil (splitChars_ne_nil separator b)
    simp [splitChars, h]
  | cons c cs ih =>
    obtain ⟨piece, pieces, h⟩ := List.exists_cons_of_ne_nil (splitChars_ne_nil separator cs)
    rw [List.cons_append, splitChars, splitChars]
    split
    · rw [ih, h]
      simp
    · rw [ih, h]
      cases pieces <;> simp

theorem splitChars_piece {separator : Char} {cs : List Char} (h : separator ∉ cs)
    (rest : List Char) :
    splitChars separator (cs ++ separator :: rest) = cs :: splitChars separator rest := by
  rw [splitChars_append, splitChars_of_notMem h]
  simp [splitChars]

theorem splitChars_separator (separator : Char) (a b : List Char) :
    splitChars separator (a ++ separator :: b) = splitChars separator a ++ splitChars separator b := by
  obtain ⟨pieces, piece, h⟩ := List.eq_nil_or_concat (splitChars separator a) |>.resolve_left
    (splitChars_ne_nil separator a)
  rw [splitChars_append, h]
  simp [splitChars]

theorem notMem_of_mem_splitChars {separator : Char} {cs piece : List Char}
    (h : piece ∈ splitChars separator cs) : separator ∉ piece := by
  induction cs generalizing piece with
  | nil =>
    obtain rfl : piece = [] := by simpa [splitChars] using h
    simp
  | cons c cs ih =>
    unfold splitChars at h
    split at h
    · obtain rfl | h := List.mem_cons.1 h
      · simp
      · exact ih h
    · rename_i hc
      split at h
      · rename_i hnil
        exact absurd hnil (splitChars_ne_nil separator cs)
      · rename_i first rest hcs
        rw [hcs] at ih
        obtain rfl | h := List.mem_cons.1 h
        · simpa [Ne.symm hc] using ih (.head _)
        · exact ih (.tail _ h)

/-! ## Lines -/

theorem linesOfChars_append (a : List Char) {b : List Char} (hn : '\n' ∉ b) (hb : b ≠ []) :
    linesOfChars (a ++ b) = (splitChars '\n' a).dropLast.map dropReturn ++
      [(splitChars '\n' a).getLast?.getD [] ++ b] := by
  simp [linesOfChars, splitChars_append, splitChars_of_notMem hn, hb]

/-- What a line loses is not in a part of it that ends otherwise. -/
theorem infix_dropReturn {part before after : List Char} {c : Char} (hpart : part.getLast? = some c)
    (hc : c ≠ '\r') : part <:+: dropReturn (before ++ part ++ after) := by
  unfold dropReturn
  split
  · rename_i h
    rcases List.eq_nil_or_concat after with rfl | ⟨more, d, rfl⟩
    · simp [List.getLast?_append, hpart, hc] at h
    · refine ⟨before, more, ?_⟩
      simp [← List.append_assoc]
  · exact ⟨before, after, rfl⟩

/-! ## Whitespace -/

def Flush (text : List Char) : Prop := ∀ c ∈ text.head?, isWhitespace c = false

instance (text : List Char) : Decidable (Flush text) :=
  decidable_of_iff (text.head?.all (!isWhitespace ·) = true) (by cases text <;> simp [Flush])

def IsVisible (word : List Char) : Prop := word ≠ [] ∧ ∀ c ∈ word, isWhitespace c = false

instance (word : List Char) : Decidable (IsVisible word) :=
  decidable_of_iff (word ≠ [] ∧ word.all (!isWhitespace ·) = true) (by simp [IsVisible])

theorem IsVisible.flush {word : List Char} (h : IsVisible word) (rest : List Char) :
    Flush (word ++ rest) := by
  obtain ⟨c, cs, rfl⟩ := List.exists_cons_of_ne_nil h.1
  rintro _ ⟨⟩
  exact h.2 c (.head _)

/-! ## Beginnings and endings -/

theorem takeWhile_append_of_stop {p : Char → Bool} {run rest : List Char}
    (hrun : ∀ c ∈ run, p c = true) (hrest : ∀ c ∈ rest.head?, p c = false) :
    (run ++ rest).takeWhile p = run := by
  have hstop : rest.takeWhile p = [] := by
    cases rest with
    | nil => rfl
    | cons c rest => simp [hrest c rfl]
  rw [List.takeWhile_append_of_pos hrun, hstop, List.append_nil]

/-- The longest run of characters at the head of a text, and what follows it. -/
theorem exists_longest_run (p : Char → Bool) (text : List Char) :
    ∃ run rest, text.takeWhile p = run ∧ text.drop run.length = rest ∧ text = run ++ rest ∧
      ∀ c ∈ run, p c = true :=
  ⟨_, _, rfl, rfl, (List.prefix_iff_eq_append.1 (List.takeWhile_prefix p)).symm,
    List.all_eq_true.1 List.all_takeWhile⟩

def dropEnding? (ending text : List Char) : Option (List Char) :=
  (dropBeginning? ending.reverse text.reverse).map List.reverse

theorem drop_length_takeWhile (p : Char → Bool) (text : List Char) :
    text.drop (text.takeWhile p).length = text.dropWhile p :=
  List.append_cancel_left ((List.prefix_iff_eq_append.1 (List.takeWhile_prefix p)).trans
    List.takeWhile_append_dropWhile.symm)

section DropWhile
variable {α : Type} {p : α → Bool} {l : List α}

theorem head_dropWhile (p : α → Bool) (l : List α) :
    ∀ a ∈ (l.dropWhile p).head?, p a = false := by
  intro a ha
  have hstop := List.head?_dropWhile_not p l
  rw [Option.mem_def.1 ha] at hstop
  exact hstop

theorem dropWhile_eq_self (h : ∀ a ∈ l.head?, p a = false) : l.dropWhile p = l := by
  cases l with
  | nil => rfl
  | cons a l => rw [List.dropWhile_cons_of_neg (by simp [h a rfl])]

/-- What is dropped at the end is a run. -/
theorem exists_run_dropEndWhile (p : α → Bool) (l : List α) :
    ∃ run, l = dropEndWhile p l ++ run ∧ ∀ a ∈ run, p a = true := by
  refine ⟨(l.reverse.takeWhile p).reverse, ?_, fun a ha => ?_⟩
  · rw [dropEndWhile, ← List.reverse_append, List.takeWhile_append_dropWhile, List.reverse_reverse]
  · have hrun := List.all_eq_true.1 (List.all_takeWhile (p := p) (l := l.reverse))
    exact hrun a (List.mem_reverse.1 ha)

theorem isPrefix_dropEndWhile (p : α → Bool) (l : List α) : dropEndWhile p l <+: l := by
  obtain ⟨run, hrun, -⟩ := exists_run_dropEndWhile p l
  exact ⟨run, hrun.symm⟩

theorem last_dropEndWhile (p : α → Bool) (l : List α) :
    ∀ a ∈ (dropEndWhile p l).getLast?, p a = false := by
  rw [dropEndWhile, List.getLast?_reverse]
  exact head_dropWhile p l.reverse

theorem dropEndWhile_append {run : List α} (h : ∀ a ∈ run, p a = true) (l : List α) :
    dropEndWhile p (l ++ run) = dropEndWhile p l := by
  have hrun : ∀ a ∈ run.reverse, p a = true := fun a ha => h a (List.mem_reverse.1 ha)
  rw [dropEndWhile, List.reverse_append, List.dropWhile_append_of_pos hrun, ← dropEndWhile]

theorem dropEndWhile_eq_self (h : ∀ a ∈ l.getLast?, p a = false) : dropEndWhile p l = l := by
  rw [dropEndWhile, dropWhile_eq_self (by rwa [List.head?_reverse]), List.reverse_reverse]

end DropWhile

@[simp] theorem dropBeginning?_append (beginning text : List Char) :
    dropBeginning? beginning (beginning ++ text) = some text := by
  simp [dropBeginning?]

theorem dropBeginning?_eq_some {beginning text rest : List Char}
    (h : dropBeginning? beginning text = some rest) : text = beginning ++ rest := by
  unfold dropBeginning? at h
  split at h
  · rename_i hprefix
    obtain ⟨after, rfl⟩ := List.isPrefixOf_iff_prefix.1 hprefix
    simpa using h
  · cases h

@[simp] theorem dropEnding?_append (ending text : List Char) :
    dropEnding? ending (text ++ ending) = some text := by
  simp [dropEnding?]

theorem containsChars_of_infix {part text : List Char} (h : part <:+: text) :
    containsChars part text = true := by
  obtain ⟨before, after, rfl⟩ := h
  rw [List.append_assoc]
  induction before with
  | nil => cases part <;> cases after <;> simp [containsChars]
  | cons c cs ih => simp [containsChars, ih]

theorem trimEnd_line {s : String} {c : Char} (hs : s.toList.getLast? = some c)
    (hc : isWhitespace c = false) : trimEnd (s ++ "\n") = s := by
  obtain ⟨cs, hcs⟩ := List.getLast?_eq_some_iff.1 hs
  have hn : isWhitespace '\n' = true := by decide
  apply String.toList_inj.1
  simp [trimEnd, trimEndChars, dropEndWhile, hcs, hc, hn]

theorem endsWith_iff {ending text : String} :
    endsWith ending text = true ↔ ∃ start, text = start ++ ending := by
  rw [endsWith, List.isPrefixOf_iff_prefix, List.reverse_prefix]
  constructor
  · rintro ⟨start, hstart⟩
    exact ⟨String.ofList start, String.toList_inj.1 (by simpa using hstart.symm)⟩
  · rintro ⟨start, rfl⟩
    exact ⟨start.toList, by simp⟩

end TypedRoutes.Text
