import TypedRoutes.Proofs.PrintedNumbers
import TypedRoutes.Proofs.ReadableValues
import TypedRoutes.Proofs.SpelledStrings
import TypedRoutes.Proofs.TextPieces

/-! # Strings on the way of a reader

A reader that succeeds has passed characters that stand outside of strings, and whole strings.  So
does one that takes a value, and each key of an object that it gives is spelled by a string it has
passed.
-/

namespace TypedRoutes.Json
open TypedRoutes.Text

namespace Reader
variable {α β : Type} {text : List Char}

/-! ## What readers leave -/

/-- Whatever a reader gives on a text has a property, together with what is left of the text. -/
def Leaves (r : Reader α) (text : List Char) (P : α → List Char → Prop) : Prop :=
  ∀ p a s, r ⟨text, p⟩ = .ok (a, s) → P a s.rest

section Leaves
variable {r : Reader α} {f : α → Reader β} {P Q : α → List Char → Prop} {R : β → List Char → Prop}

theorem Leaves.mono (h : Leaves r text P) (hP : ∀ a rest, P a rest → Q a rest) : Leaves r text Q :=
  fun p a s hr => hP a s.rest (h p a s hr)

theorem leaves_pure {a : α} (h : P a text) : Leaves (pure a) text P := by
  intro p b s heq
  obtain ⟨rfl, rfl⟩ := Prod.mk.inj (Except.ok.inj heq)
  exact h

theorem leaves_fail (problem : Problem) : Leaves (fail problem) text P := by
  intro p a s h
  cases h

theorem leaves_failNext (problem : Problem) : Leaves (failNext problem) text P := by
  intro p a s h
  cases h

theorem Leaves.bind (hr : Leaves r text P) (hf : ∀ a rest, P a rest → Leaves (f a) rest R) :
    Leaves (r >>= f) text R := by
  intro p b s h
  obtain ⟨a, s', ha, hb⟩ := bind_eq_ok h
  exact hf a s'.rest (hr p a s' ha) s'.position b s hb

theorem leaves_failNext_bind (problem : Problem) : Leaves (failNext problem >>= f) text R := by
  intro p b s h
  obtain ⟨a, s', ha, -⟩ := bind_eq_ok h
  cases ha

variable {f : Option Char → Reader β} {g : Unit → Reader β}

theorem leaves_peek_bind (h : Leaves (f text.head?) text R) : Leaves (peek >>= f) text R := by
  intro p b s heq
  obtain ⟨a, s', ha, hb⟩ := bind_eq_ok heq
  obtain ⟨rfl, rfl⟩ := Prod.mk.inj (Except.ok.inj ha)
  exact h _ b s hb

theorem leaves_next_bind (h : Leaves (f text.head?) text.tail R) : Leaves (next >>= f) text R := by
  intro p b s heq
  obtain ⟨a, s', ha, hb⟩ := bind_eq_ok heq
  cases text with
  | nil =>
    obtain ⟨rfl, rfl⟩ := Prod.mk.inj (Except.ok.inj ha)
    exact h _ b s hb
  | cons c text =>
    obtain ⟨rfl, rfl⟩ := Prod.mk.inj (Except.ok.inj ha)
    exact h _ b s hb

theorem leaves_skip_bind (h : Leaves (g ()) text.tail R) : Leaves (skip >>= g) text R := by
  unfold skip
  rw [bind_assoc]
  exact leaves_next_bind h

theorem leaves_skip : Leaves skip text fun _ rest => rest = text.tail := by
  unfold skip
  exact leaves_next_bind (leaves_pure rfl)

theorem leaves_takeWhile_bind {p : Char → Bool} {f : List Char → Reader β}
    (h : Leaves (f (text.takeWhile p)) (text.dropWhile p) R) :
    Leaves (takeWhile p >>= f) text R := by
  intro q b s heq
  obtain ⟨a, s', ha, hb⟩ := bind_eq_ok heq
  obtain ⟨rfl, rfl⟩ := Prod.mk.inj (Except.ok.inj ha)
  rw [← drop_length_takeWhile] at h
  exact h _ b s hb

theorem leaves_remaining_bind {f : Nat → Reader β} (h : Leaves (f text.length) text R) :
    Leaves (remaining >>= f) text R := by
  intro p b s heq
  obtain ⟨a, s', ha, hb⟩ := bind_eq_ok heq
  obtain ⟨rfl, rfl⟩ := Prod.mk.inj (Except.ok.inj ha)
  exact h _ b s hb

theorem leaves_peekToken_bind
    (h : Leaves (f (text.dropWhile isBlank).head?) (text.dropWhile isBlank) R) :
    Leaves (peekToken >>= f) text R := by
  unfold peekToken
  rw [bind_assoc]
  exact leaves_takeWhile_bind (leaves_peek_bind h)

theorem leaves_atExponent_bind {f : Bool → Reader β}
    (h : Leaves (f (text.head? == some 'e' || text.head? == some 'E')) text R) :
    Leaves (atExponent >>= f) text R := by
  unfold atExponent
  rw [bind_assoc]
  refine leaves_peek_bind ?_
  rw [bind_assoc]
  exact leaves_peek_bind h

end Leaves

/-! ## Characters outside of strings -/

theorem passes_dropWhile {p : Char → Bool} (hp : ∀ c, p c = true → isOutside c = true)
    (text : List Char) : Passes text (text.dropWhile p) [] := by
  have hrun : ∀ c ∈ text.takeWhile p, isOutside c = true :=
    fun c hc => hp c (List.all_eq_true.1 List.all_takeWhile c hc)
  have hpasses := Passes.run hrun (text.dropWhile p)
  rwa [List.takeWhile_append_dropWhile] at hpasses

theorem passes_blanks (text : List Char) : Passes text (text.dropWhile isBlank) [] :=
  passes_dropWhile (fun c hc => by simp [isOutside, hc]) text

theorem isOutside_of_isDigit {c : Char} (h : c.isDigit = true) : isOutside c = true := by
  simp [isOutside, h]

theorem passes_digits (text : List Char) : Passes text (text.dropWhile Char.isDigit) [] :=
  passes_dropWhile (fun _ => isOutside_of_isDigit) text

theorem leaves_word {cs : List Char} (h : ∀ c ∈ cs, isOutside c = true) :
    Leaves (word cs) text fun _ rest => Passes text rest [] := by
  induction cs generalizing text with
  | nil => exact leaves_pure (.refl text)
  | cons c cs ih =>
    refine leaves_next_bind ?_
    cases text with
    | nil => exact leaves_fail _
    | cons d text =>
      simp only [List.head?_cons, List.tail_cons]
      split
      · rename_i heq
        subst heq
        exact (ih fun e he => h e (.tail _ he)).mono fun _ _ => .outside (h d (.head _))
      · exact leaves_fail _

/-! ## Numbers -/

section Numbers
variable {positive : Bool} {n : Nat} {x : Int}

theorem leaves_double : Leaves (double positive n x) text fun _ rest => rest = text := by
  unfold double
  split
  · exact leaves_fail _
  · exact leaves_pure rfl

theorem leaves_exponentDigits (b : Bool) :
    Leaves (exponentDigits positive n x b) text fun _ rest => Passes text rest [] := by
  refine leaves_next_bind ?_
  cases text with
  | nil => exact leaves_fail _
  | cons c text =>
    simp only [List.head?_cons, List.tail_cons]
    split
    · exact leaves_fail _
    · rename_i hdigit
      have hc : isOutside c = true := isOutside_of_isDigit (by simpa using hdigit)
      have hpasses : Passes (c :: text) (text.dropWhile Char.isDigit) [] :=
        .outside hc (passes_digits text)
      refine leaves_takeWhile_bind ?_
      split
      · split
        · exact leaves_fail _
        · exact leaves_pure hpasses
      · exact leaves_double.mono fun _ rest heq => heq ▸ hpasses

theorem Leaves.after_head {r : Reader α} {c : Char} {rest : List Char}
    (h : Leaves r rest fun _ rest' => Passes rest rest' []) (hc : isOutside c = true) :
    Leaves r rest fun _ rest' => Passes (c :: rest) rest' [] :=
  h.mono fun _ _ => .outside hc

theorem leaves_sign {sign : Char} (hsign : isOutside sign = true) (hhead : text.head? = some sign)
    (b : Bool) :
    Leaves (skip >>= fun _ => exponentDigits positive n x b) text fun _ rest =>
      Passes text rest [] := by
  obtain ⟨rest, rfl⟩ := List.head?_eq_some_iff.1 hhead
  exact leaves_skip_bind ((leaves_exponentDigits b).after_head hsign)

theorem leaves_exponentPart (h : ∀ c ∈ text.head?, isOutside c = true) :
    Leaves (exponentPart positive n x) text fun _ rest => Passes text rest [] := by
  rw [exponentPart_eq]
  refine leaves_skip_bind (leaves_peek_bind ?_)
  cases text with
  | nil => exact leaves_exponentDigits true
  | cons c text =>
    have hc : isOutside c = true := h c rfl
    simp only [List.tail_cons]
    split
    · rename_i hhead
      exact (leaves_sign (by decide) hhead true).after_head hc
    · rename_i hhead
      exact (leaves_sign (by decide) hhead false).after_head hc
    · exact (leaves_exponentDigits true).after_head hc

theorem isOutside_of_exponentMark (h : (text.head? == some 'e' || text.head? == some 'E') = true) :
    ∀ c ∈ text.head?, isOutside c = true := by
  intro c hc
  rw [Option.mem_def] at hc
  simp only [hc, Bool.or_eq_true, beq_iff_eq, Option.some.injEq] at h
  obtain rfl | rfl := h <;> decide

theorem leaves_fractionPart (h : ∀ c ∈ text.head?, isOutside c = true) :
    Leaves (fractionPart positive n x) text fun _ rest => Passes text rest [] := by
  unfold fractionPart
  refine leaves_skip_bind (leaves_takeWhile_bind ?_)
  have hpasses : Passes text (text.tail.dropWhile Char.isDigit) [] := by
    cases text with
    | nil => exact .refl []
    | cons c text => exact .outside (h c rfl) (passes_digits text)
  split
  · refine leaves_peek_bind ?_
    split
    · exact leaves_failNext _
    · exact leaves_failNext _
  · refine leaves_atExponent_bind ?_
    split
    · rename_i hmark
      exact (leaves_exponentPart (isOutside_of_exponentMark hmark)).mono fun _ _ => hpasses.trans
    · exact leaves_double.mono fun _ rest heq => heq ▸ hpasses

theorem leaves_afterWhole (left : Bool) :
    Leaves (afterWhole positive n x left) text fun _ rest => Passes text rest [] := by
  unfold afterWhole
  refine leaves_peek_bind ?_
  split
  · rename_i hpoint
    refine leaves_fractionPart fun c hc => ?_
    rw [Option.mem_def] at hc
    obtain rfl : c = '.' := by simpa [hc] using hpoint
    decide
  · refine leaves_atExponent_bind ?_
    split
    · rename_i hmark
      exact leaves_exponentPart (isOutside_of_exponentMark hmark)
    · split
      · exact leaves_double.mono fun _ rest heq => heq ▸ .refl text
      · split
        · exact leaves_pure (.refl text)
        · split
          · exact leaves_double.mono fun _ rest heq => heq ▸ .refl text
          · exact leaves_pure (.refl text)

theorem leaves_afterDigits (c : Char) (digits : List Char) :
    Leaves (afterDigits positive c digits) text fun _ rest => Passes text rest [] := by
  unfold afterDigits
  refine leaves_peek_bind ?_
  split
  · exact leaves_failNext _
  · exact leaves_afterWhole _

theorem leaves_number : Leaves (number positive) text fun _ rest => Passes text rest [] := by
  rw [number_eq]
  refine leaves_peek_bind ?_
  cases text with
  | nil => exact leaves_fail _
  | cons c text =>
    simp only [List.head?_cons]
    split
    · exact leaves_skip_bind (leaves_fail _)
    · rename_i hdigit
      split
      · rename_i hzero
        subst hzero
        exact leaves_skip_bind ((leaves_afterDigits _ _).after_head (by decide))
      · refine leaves_takeWhile_bind ?_
        exact (leaves_afterDigits _ _).mono fun _ _ => (passes_digits (c :: text)).trans

end Numbers

/-! ## Strings -/

theorem leaves_hexUnit : Leaves hexUnit text fun n rest =>
    ∃ digits, text = digits ++ rest ∧ hexValue? digits = some n := by
  intro p n s h
  unfold hexUnit at h
  split at h
  · rename_i a b c d rest heq
    split at h
    · rename_i ha hb hc hd
      obtain ⟨rfl, rfl⟩ := Prod.mk.inj (Except.ok.inj h)
      exact ⟨[a, b, c, d], heq, by simp [hexValue?, ha, hb, hc, hd]⟩
    · cases h
  · simp only at h
    split at h <;> cases h

theorem leaves_require (c : Char) : Leaves (require c) text fun _ rest => text = c :: rest := by
  refine leaves_peek_bind ?_
  cases text with
  | nil => exact leaves_fail _
  | cons d text =>
    refine leaves_skip_bind ?_
    split
    · rename_i heq
      exact leaves_pure (by rw [heq]; rfl)
    · exact leaves_fail _

theorem leaves_hexEscape : Leaves (hexEscape true) text fun c rest =>
    ∃ digits, text = digits ++ rest ∧ SpellsChar ('\\' :: 'u' :: digits) c := by
  refine leaves_hexUnit.bind ?_
  rintro unit afterUnit ⟨digits, rfl, hunit⟩
  simp only [Bool.not_true, Bool.false_eq_true, if_false]
  split
  · exact leaves_fail _
  · rename_i htrailing
    split
    · rename_i hleading
      refine (leaves_require '\\').bind ?_
      rintro - afterBackslash rfl
      refine (leaves_require 'u').bind ?_
      rintro - afterLetter rfl
      refine leaves_hexUnit.bind ?_
      rintro low rest ⟨digits', rfl, hlow⟩
      split
      · exact leaves_fail _
      · rename_i hbounds
        refine leaves_pure ⟨digits ++ '\\' :: 'u' :: digits', by simp, ?_⟩
        exact .pair hunit hlow (by simpa using hleading) (by simp at hbounds; omega)
    · rename_i hleading
      refine leaves_pure ⟨digits, rfl, .unit hunit ?_⟩
      simp at htrailing hleading
      omega

/-- A piece of a string and what comes after it are spelled one after the other. -/
theorem leaves_piece {run piece : List Char} {c : Char} {r : Reader (List (List Char))}
    (hrun : ∀ d ∈ run, isPlain d = true) (hc : SpellsChar piece c)
    (hr : Leaves r text fun pieces rest =>
      ∃ raw, text = raw ++ '"' :: rest ∧ Spells raw pieces.flatten) :
    Leaves (do return run :: [c] :: (← r)) text fun pieces rest =>
      ∃ raw, run ++ (piece ++ text) = raw ++ '"' :: rest ∧ Spells raw pieces.flatten := by
  refine hr.bind ?_
  rintro pieces rest ⟨raw, rfl, hraw⟩
  refine leaves_pure ⟨run ++ (piece ++ raw), by simp, ?_⟩
  exact spells_plain hrun (.cons hc hraw)

theorem leaves_stringPieces (fuel : Nat) : Leaves (stringPieces true fuel) text fun pieces rest =>
    ∃ raw, text = raw ++ '"' :: rest ∧ Spells raw pieces.flatten := by
  induction fuel generalizing text with
  | zero => exact leaves_fail _
  | succ fuel ih =>
    refine leaves_takeWhile_bind (leaves_peek_bind ?_)
    -- the run of characters that stand for themselves comes first
    have hplain : ∀ c ∈ text.takeWhile isPlain, isPlain c = true :=
      List.all_eq_true.1 List.all_takeWhile
    have htext : text = text.takeWhile isPlain ++ text.dropWhile isPlain :=
      List.takeWhile_append_dropWhile.symm
    generalize text.takeWhile isPlain = run at hplain htext ⊢
    generalize text.dropWhile isPlain = later at htext ⊢
    subst htext
    have hescape : ∀ {piece rest : List Char} {c : Char}, SpellsChar piece c →
        later = piece ++ rest →
        Leaves (do return run :: [c] :: (← stringPieces true fuel)) rest fun pieces rest' =>
          ∃ raw, run ++ later = raw ++ '"' :: rest' ∧ Spells raw pieces.flatten :=
      fun hc hlater => hlater ▸ leaves_piece hplain hc ih
    split
    · exact leaves_fail _
    · rename_i hquote
      obtain ⟨rest, rfl⟩ := List.head?_eq_some_iff.1 hquote
      refine leaves_skip_bind (leaves_pure ⟨run, rfl, ?_⟩)
      simpa using spells_plain hplain .nil
    · rename_i hbackslash
      obtain ⟨rest, rfl⟩ := List.head?_eq_some_iff.1 hbackslash
      refine leaves_skip_bind (leaves_next_bind ?_)
      cases rest with
      | nil => exact leaves_fail _
      | cons e rest =>
        simp only [List.tail_cons, List.head?_cons]
        split
        · rename_i hnone
          cases hnone
        · rename_i hletter
          obtain rfl := Option.some.inj hletter
          refine leaves_hexEscape.bind ?_
          rintro c rest' ⟨digits, rfl, hc⟩
          exact hescape hc rfl
        · rename_i hletter
          obtain rfl := Option.some.inj hletter
          split
          · rename_i hsimple
            exact hescape (.simple hsimple) rfl
          · exact leaves_fail _
    · exact leaves_skip_bind (leaves_fail _)

theorem leaves_stringRest : Leaves stringRest text fun s rest =>
    ∃ raw, text = raw ++ '"' :: rest ∧ Spells raw s.toList := by
  refine leaves_remaining_bind ((leaves_stringPieces _).bind ?_)
  rintro pieces rest ⟨raw, htext, hraw⟩
  exact leaves_pure ⟨raw, htext, by rwa [String.toList_ofList]⟩

/-! ## Lists, objects and values -/

section Items
variable {item : Reader α}

theorem leaves_hasItem (first : Bool) : Leaves (hasItem first) text fun more rest =>
    Passes text rest [] ∧ (more = false → rest.head? = some ']') := by
  refine leaves_peekToken_bind ?_
  have hblanks := passes_blanks text
  generalize text.dropWhile isBlank = later at hblanks ⊢
  split
  · exact leaves_failNext _
  · rename_i hclosing
    exact leaves_pure ⟨hblanks, fun _ => hclosing⟩
  · rename_i c _ hhead
    split
    · exact leaves_pure ⟨hblanks, by simp⟩
    · split
      · rename_i hcomma
        subst hcomma
        obtain ⟨rest, rfl⟩ := List.head?_eq_some_iff.1 hhead
        refine leaves_skip_bind (leaves_peekToken_bind ?_)
        split
        · exact leaves_failNext _
        · exact leaves_pure
            ⟨hblanks.trans (.outside (by decide) (passes_blanks rest)), by simp⟩
        · exact leaves_failNext _
      · exact leaves_failNext _

theorem leaves_hasField (first : Bool) : Leaves (hasField first) text fun more rest =>
    Passes text rest [] ∧ rest.head? = some (if more then '"' else '\x7d') := by
  refine leaves_peekToken_bind ?_
  have hblanks := passes_blanks text
  generalize text.dropWhile isBlank = later at hblanks ⊢
  split
  · exact leaves_failNext _
  · rename_i hclosing
    exact leaves_pure ⟨hblanks, hclosing⟩
  · rename_i c _ hhead
    split
    · split
      · rename_i hquote
        subst hquote
        exact leaves_pure ⟨hblanks, hhead⟩
      · exact leaves_failNext _
    · split
      · rename_i hcomma
        subst hcomma
        obtain ⟨rest, rfl⟩ := List.head?_eq_some_iff.1 hhead
        refine leaves_skip_bind (leaves_peekToken_bind ?_)
        split
        · rename_i hquote
          exact leaves_pure
            ⟨hblanks.trans (.outside (by decide) (passes_blanks rest)), hquote⟩
        · exact leaves_failNext _
        · exact leaves_failNext _
        · exact leaves_failNext _
      · exact leaves_failNext _

theorem leaves_colon : Leaves colon text fun _ rest => Passes text rest [] := by
  refine leaves_peekToken_bind ?_
  have hblanks := passes_blanks text
  generalize text.dropWhile isBlank = later at hblanks ⊢
  split
  · rename_i hcolon
    obtain ⟨rest, rfl⟩ := List.head?_eq_some_iff.1 hcolon
    refine leaves_skip.mono ?_
    intro _ left heq
    subst heq
    exact hblanks.trans (.outside (by decide) (.refl _))
  · exact leaves_failNext _
  · exact leaves_failNext _

theorem leaves_items (h : ∀ text, Leaves item text fun _ rest => ∃ raws, Passes text rest raws)
    (first : Bool) (fuel : Nat) :
    Leaves (items item first fuel) text fun _ rest => ∃ raws, Passes text rest raws := by
  induction fuel generalizing text first with
  | zero => exact leaves_fail _
  | succ fuel ih =>
    refine (leaves_hasItem first).bind ?_
    rintro more later ⟨hpasses, hclosing⟩
    split
    · refine (h later).bind ?_
      rintro a afterItem ⟨raws, hitem⟩
      refine (ih false).bind ?_
      rintro as rest ⟨raws', hitems⟩
      exact leaves_pure ⟨_, hpasses.trans (hitem.trans hitems)⟩
    · rename_i hmore
      obtain ⟨rest, rfl⟩ := List.head?_eq_some_iff.1 (hclosing (by simpa using hmore))
      refine leaves_skip_bind (leaves_pure ⟨[], hpasses.trans ?_⟩)
      exact .outside (by decide) (.refl rest)

theorem leaves_fields {field : String → Reader (String × α)}
    (h : ∀ key text, Leaves (field key) text fun f rest =>
      f.1 = key ∧ ∃ raws, Passes text rest raws) (first : Bool) (fuel : Nat) :
    Leaves (fields field first fuel) text fun fs rest => ∃ raws, Passes text rest raws ∧
      ∀ f ∈ fs, ∃ raw ∈ raws, Spells raw f.1.toList := by
  induction fuel generalizing text first with
  | zero => exact leaves_fail _
  | succ fuel ih =>
    refine (leaves_hasField first).bind ?_
    rintro more later ⟨hpasses, hhead⟩
    split
    · rename_i hmore
      rw [if_pos hmore] at hhead
      obtain ⟨inString, rfl⟩ := List.head?_eq_some_iff.1 hhead
      refine leaves_skip_bind (leaves_stringRest.bind ?_)
      rintro key afterKey ⟨raw, hkey, hraw⟩
      obtain rfl : inString = raw ++ '"' :: afterKey := hkey
      refine leaves_colon.bind fun _ afterColon hcolon => ?_
      refine (h key afterColon).bind ?_
      rintro f afterField ⟨rfl, raws, hfield⟩
      refine (ih false).bind ?_
      rintro fs rest ⟨raws', hfields, hspelled⟩
      refine leaves_pure ⟨raw :: (raws ++ raws'), ?_, ?_⟩
      · exact hpasses.trans (.string hraw.staysOpen (hcolon.trans (hfield.trans hfields)))
      · refine List.forall_mem_cons.2 ⟨⟨raw, .head _, hraw⟩, fun f hf => ?_⟩
        obtain ⟨raw', hmem, hraw'⟩ := hspelled f hf
        exact ⟨raw', .tail _ (List.mem_append_right _ hmem), hraw'⟩
    · rename_i hmore
      rw [if_neg hmore] at hhead
      obtain ⟨rest, rfl⟩ := List.head?_eq_some_iff.1 hhead
      refine leaves_skip_bind (leaves_pure ⟨[], hpasses.trans ?_, by simp⟩)
      exact .outside (by decide) (.refl rest)

end Items

/-- The keys of an object are those of the fields it was made of. -/
theorem exists_mem_of_isSome_ofFields {fields : List (String × Value)} {key : String}
    (h : ((Value.ofFields fields).field? key).isSome = true) : ∃ f ∈ fields, f.1 = key := by
  obtain ⟨v, hv⟩ := Option.isSome_iff_exists.1 h
  obtain ⟨before, after, hfields, -⟩ := List.lookup_eq_some_iff.1 hv
  have hmem : (key, v) ∈ fields.foldl (fun acc f => Value.insertField f.1 f.2 acc) [] := by
    rw [hfields]
    exact List.mem_append_cons_self
  obtain hmem | hmem := mem_foldl_insertField hmem
  · exact ⟨_, hmem, rfl⟩
  · cases hmem

theorem leaves_constant {later cs : List Char} {c : Char} {v : Value}
    (hblanks : Passes text later []) (hhead : later.head? = some c)
    (hword : (c :: cs).all isOutside = true) (hv : ∀ key, v.field? key = none) :
    Leaves (do
      skip
      word cs
      return v) later fun v rest => ∃ raws, Passes text rest raws ∧
        ∀ key, (v.field? key).isSome = true → ∃ raw ∈ raws, Spells raw key.toList := by
  obtain ⟨rest, rfl⟩ := List.head?_eq_some_iff.1 hhead
  obtain ⟨hc, hcs⟩ := List.forall_mem_cons.1 (List.all_eq_true.1 hword)
  refine leaves_skip_bind ((leaves_word hcs).bind fun _ left hleft => ?_)
  exact leaves_pure ⟨[], hblanks.trans (.outside hc hleft), by simp [hv]⟩

/-- A value is taken by passing whole strings, of which one spells each key that it has. -/
theorem leaves_value (depth : Nat) (text : List Char) : Leaves (value depth) text fun v rest =>
    ∃ raws, Passes text rest raws ∧
      ∀ key, (v.field? key).isSome = true → ∃ raw ∈ raws, Spells raw key.toList := by
  induction depth generalizing text with
  | zero => exact leaves_failNext _
  | succ depth ih =>
    refine leaves_peekToken_bind ?_
    have hblanks := passes_blanks text
    generalize text.dropWhile isBlank = later at hblanks ⊢
    split
    · exact leaves_failNext _
    · rename_i hhead
      exact leaves_constant hblanks hhead (by decide +kernel) fun _ => rfl
    · rename_i hhead
      exact leaves_constant hblanks hhead (by decide +kernel) fun _ => rfl
    · rename_i hhead
      exact leaves_constant hblanks hhead (by decide +kernel) fun _ => rfl
    · rename_i hhead
      obtain ⟨inString, rfl⟩ := List.head?_eq_some_iff.1 hhead
      refine leaves_skip_bind (leaves_stringRest.bind ?_)
      rintro s rest ⟨raw, hs, hraw⟩
      obtain rfl : inString = raw ++ '"' :: rest := hs
      exact leaves_pure ⟨[raw], hblanks.trans (.string hraw.staysOpen (.refl rest)),
        by simp [Value.field?]⟩
    · rename_i hhead
      obtain ⟨afterSign, rfl⟩ := List.head?_eq_some_iff.1 hhead
      refine leaves_skip_bind (leaves_number.bind fun n rest hnumber => ?_)
      exact leaves_pure ⟨[], hblanks.trans (.outside (by decide) hnumber), by simp [Value.field?]⟩
    · rename_i hhead
      obtain ⟨inside, rfl⟩ := List.head?_eq_some_iff.1 hhead
      split
      · exact leaves_failNext_bind _
      · refine leaves_skip_bind (leaves_remaining_bind ?_)
        refine (leaves_items (fun text => (ih text).mono ?_) true _).bind ?_
        · rintro v rest ⟨raws, hpasses, -⟩
          exact ⟨raws, hpasses⟩
        · rintro vs rest ⟨raws, hitems⟩
          refine leaves_pure ⟨raws, hblanks.trans (.outside (by decide) hitems), ?_⟩
          simp [Value.field?]
    · rename_i hhead
      obtain ⟨inside, rfl⟩ := List.head?_eq_some_iff.1 hhead
      split
      · exact leaves_failNext_bind _
      · refine leaves_skip_bind (leaves_remaining_bind ?_)
        refine (leaves_fields ?_ true _).bind ?_
        · intro key afterColon
          refine (ih afterColon).bind ?_
          rintro v rest ⟨raws, hvalue, -⟩
          exact leaves_pure ⟨rfl, raws, hvalue⟩
        · rintro fs rest ⟨raws, hfields, hspelled⟩
          refine leaves_pure ⟨raws, hblanks.trans (.outside (by decide) hfields), ?_⟩
          intro key hkey
          obtain ⟨f, hf, rfl⟩ := exists_mem_of_isSome_ofFields hkey
          exact hspelled f hf
    · rename_i c hhead
      split
      · refine leaves_number.bind fun n rest hnumber => ?_
        exact leaves_pure ⟨[], hblanks.trans hnumber, by simp [Value.field?]⟩
      · exact leaves_failNext _

theorem leaves_finish : Leaves finish text fun _ _ => Passes text [] [] := by
  refine leaves_peekToken_bind ?_
  have hblanks := passes_blanks text
  generalize text.dropWhile isBlank = later at hblanks ⊢
  cases later with
  | nil => exact leaves_pure hblanks
  | cons c later => exact leaves_failNext _

end Reader

/-- A text that is read consists of characters outside of strings and of strings, of which one
spells each key that it has. -/
theorem passes_of_parse {text : String} {v : Value} (h : parse text = .ok v) :
    ∃ raws, Passes text.toList [] raws ∧
      ∀ key, (v.field? key).isSome = true → ∃ raw ∈ raws, Spells raw key.toList := by
  have hleaves : Reader.Leaves (do
      let v ← Reader.value Reader.depthLimit
      Reader.finish
      return v) text.toList fun v _ => ∃ raws, Passes text.toList [] raws ∧
        ∀ key, (v.field? key).isSome = true → ∃ raw ∈ raws, Spells raw key.toList := by
    refine (Reader.leaves_value _ _).bind ?_
    rintro v rest ⟨raws, hpasses, hspelled⟩
    refine Reader.leaves_finish.bind fun _ _ hend => Reader.leaves_pure ⟨raws, ?_, hspelled⟩
    have hall := hpasses.trans hend
    rwa [List.append_nil] at hall
  unfold parse at h
  cases hrun : (do
      let v ← Reader.value Reader.depthLimit
      Reader.finish
      return v : Reader Value).run { rest := text.toList } with
  | error e =>
    rw [hrun] at h
    cases h
  | ok w =>
    rw [hrun] at h
    obtain rfl : w.1 = v := Except.ok.inj h
    exact hleaves _ _ _ hrun

end TypedRoutes.Json
