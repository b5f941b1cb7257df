import TypedRoutes.Json.Reader
import TypedRoutes.Text.Basic
import Mathlib.Data.List.Infix

/-! # Strings as they are spelled

A string in a text can be spelled in many ways, since each of its characters may be escaped.  Its
spelling holds no quote without a backslash before it, so the strings of a text can be told apart
without reading it.  A name in quotes is found in a text where a string is spelled as that name, or
where the spelling of a string ends with an escaped quote and the name.
-/

namespace TypedRoutes.Json
open TypedRoutes.Text Reader

/-! ## Spellings -/

def hexValue? : List Char → Option Nat
  | [a, b, c, d] => do
    return (((← hexDigit? a) * 16 + (← hexDigit? b)) * 16 + (← hexDigit? c)) * 16 + (← hexDigit? d)
  | _ => none

/-- What a character may be spelled as in a string: itself, an escape, or one or two numbers. -/
inductive SpellsChar : List Char → Char → Prop
  | plain {c : Char} (h : isPlain c = true) : SpellsChar [c] c
  | simple {e c : Char} (h : simpleEscape? e = some c) : SpellsChar ['\\', e] c
  | unit {digits : List Char} {unit : Nat} (h : hexValue? digits = some unit)
      (hwhole : unit < 0xD800 ∨ 0xDFFF < unit) :
      SpellsChar ('\\' :: 'u' :: digits) (Char.ofNat unit)
  | pair {digits digits' : List Char} {unit low : Nat} (h : hexValue? digits = some unit)
      (h' : hexValue? digits' = some low) (hunit : 0xD800 ≤ unit ∧ unit ≤ 0xDBFF)
      (hlow : 0xDC00 ≤ low ∧ low ≤ 0xDFFF) :
      SpellsChar ('\\' :: 'u' :: (digits ++ '\\' :: 'u' :: digits'))
        (Char.ofNat (0x10000 + (unit - 0xD800) * 0x400 + (low - 0xDC00)))

/-- What the characters of a string may be spelled as between its quotes. -/
inductive Spells : List Char → List Char → Prop
  | nil : Spells [] []
  | cons {piece raw : List Char} {c : Char} {cs : List Char} (hc : SpellsChar piece c)
      (h : Spells raw cs) : Spells (piece ++ raw) (c :: cs)

theorem spells_plain {run raw cs : List Char} (hrun : ∀ c ∈ run, isPlain c = true)
    (h : Spells raw cs) : Spells (run ++ raw) (run ++ cs) := by
  induction run with
  | nil => exact h
  | cons c run ih =>
    change Spells ([c] ++ (run ++ raw)) (c :: (run ++ cs))
    exact .cons (.plain (hrun c (.head _))) (ih fun d hd => hrun d (.tail _ hd))

theorem Spells.eq_of_no_escape {raw cs : List Char} (h : Spells raw cs) (hraw : '\\' ∉ raw) :
    raw = cs := by
  induction h with
  | nil => rfl
  | @cons piece raw c cs hc _ ih =>
    rw [List.mem_append, not_or] at hraw
    rw [ih hraw.2]
    cases hc with
    | plain _ => rfl
    | simple _ => exact absurd (.head _) hraw.1
    | unit _ _ => exact absurd (.head _) hraw.1
    | pair _ _ _ _ => exact absurd (.head _) hraw.1

/-! ## Where a string ends -/

/-- A text that stands in a string without ending it: each quote in it is escaped. -/
inductive StaysOpen : List Char → Prop
  | nil : StaysOpen []
  | char {c : Char} {raw : List Char} (hquote : c ≠ '"') (hescape : c ≠ '\\')
      (h : StaysOpen raw) : StaysOpen (c :: raw)
  | escape {raw : List Char} (e : Char) (h : StaysOpen raw) : StaysOpen ('\\' :: e :: raw)

theorem StaysOpen.append_of_hexValue {digits raw : List Char} {n : Nat}
    (hdigits : hexValue? digits = some n) (h : StaysOpen raw) : StaysOpen (digits ++ raw) := by
  unfold hexValue? at hdigits
  split at hdigits
  · rename_i a b c d
    have hdigit : ∀ e, (hexDigit? e).isSome = true → e ≠ '"' ∧ e ≠ '\\' := by
      rintro e he
      constructor <;> rintro rfl <;> exact absurd he (by decide)
    cases ha : hexDigit? a <;> cases hb : hexDigit? b <;> cases hc : hexDigit? c <;>
      cases hd : hexDigit? d <;> simp [ha, hb, hc, hd] at hdigits
    obtain ⟨ha, ha'⟩ := hdigit a (by simp [ha])
    obtain ⟨hb, hb'⟩ := hdigit b (by simp [hb])
    obtain ⟨hc, hc'⟩ := hdigit c (by simp [hc])
    obtain ⟨hd, hd'⟩ := hdigit d (by simp [hd])
    exact .char ha ha' (.char hb hb' (.char hc hc' (.char hd hd' h)))
  · cases hdigits

theorem Spells.staysOpen {raw cs : List Char} (h : Spells raw cs) : StaysOpen raw := by
  induction h with
  | nil => exact .nil
  | cons hc _ ih =>
    cases hc with
    | plain hplain =>
      simp only [isPlain, Bool.and_eq_true, bne_iff_ne] at hplain
      exact .char hplain.1.1 hplain.1.2 ih
    | @simple e _ _ => exact .escape e ih
    | unit hunit _ => exact .escape 'u' (StaysOpen.append_of_hexValue hunit ih)
    | pair hunit hlow _ _ =>
      rw [List.cons_append, List.cons_append, List.append_assoc]
      exact .escape 'u' (StaysOpen.append_of_hexValue hunit
        (.escape 'u' (StaysOpen.append_of_hexValue hlow ih)))

theorem StaysOpen.escaped_quote {raw before after : List Char} (h : StaysOpen raw)
    (hraw : raw = before ++ '"' :: after) : ∃ earlier, before = earlier ++ ['\\'] := by
  induction h generalizing before with
  | nil => simp at hraw
  | @char c raw hquote _ _ ih =>
    cases before with
    | nil => exact absurd (List.cons.inj hraw).1 hquote
    | cons d before =>
      obtain ⟨earlier, rfl⟩ := ih (List.cons.inj hraw).2
      exact ⟨d :: earlier, rfl⟩
  | @escape raw e _ ih =>
    obtain - | ⟨d, - | ⟨d', before⟩⟩ := before
    · exact absurd (List.cons.inj hraw).1 (by decide)
    · exact ⟨[], by rw [← (List.cons.inj hraw).1, List.nil_append]⟩
    · obtain ⟨earlier, rfl⟩ := ih (List.cons.inj (List.cons.inj hraw).2).2
      exact ⟨d :: d' :: earlier, rfl⟩

/-! ## The strings of a text -/

def writtenFrom : Option (List Char) → List Char → List (List Char)
  | _, [] => []
  | none, c :: cs => writtenFrom (if c = '"' then some [] else none) cs
  | some raw, '\\' :: e :: cs => writtenFrom (some (raw ++ ['\\', e])) cs
  | some raw, c :: cs =>
    if c = '"' then raw :: writtenFrom none cs else writtenFrom (some (raw ++ [c])) cs

/-- The strings in a text as they are spelled, in order. -/
def writtenStrings (text : List Char) : List (List Char) := writtenFrom none text

theorem writtenFrom_append {raw : List Char} (h : StaysOpen raw) (passed rest : List Char) :
    writtenFrom (some passed) (raw ++ rest) = writtenFrom (some (passed ++ raw)) rest := by
  induction h generalizing passed with
  | nil => rw [List.nil_append, List.append_nil]
  | @char c raw hquote hescape _ ih =>
    rw [List.cons_append, writtenFrom, if_neg hquote, ih, List.append_assoc]
    · rfl
    · exact fun _ _ heq => absurd heq hescape
  | @escape raw e _ ih =>
    rw [List.cons_append, List.cons_append, writtenFrom, ih, List.append_assoc]
    rfl

def isOutside (c : Char) : Bool :=
  isBlank c || c.isDigit || "[]\x7b\x7d,:+-.Eaeflnrstu".toList.contains c

/-- From a text to what is left of it, with the spellings of the strings on the way. -/
inductive Passes : List Char → List Char → List (List Char) → Prop
  | refl (text : List Char) : Passes text text []
  | outside {c : Char} {text rest : List Char} {raws : List (List Char)}
      (hc : isOutside c = true) (h : Passes text rest raws) : Passes (c :: text) rest raws
  | string {raw text rest : List Char} {raws : List (List Char)} (hraw : StaysOpen raw)
      (h : Passes text rest raws) : Passes ('"' :: (raw ++ '"' :: text)) rest (raw :: raws)

theorem Passes.trans {text middle rest : List Char} {raws raws' : List (List Char)}
    (h : Passes text middle raws) (h' : Passes middle rest raws') :
    Passes text rest (raws ++ raws') := by
  induction h with
  | refl => exact h'
  | outside hc _ ih => exact .outside hc (ih h')
  | string hraw _ ih => exact .string hraw (ih h')

theorem Passes.run {run : List Char} (h : ∀ c ∈ run, isOutside c = true) (rest : List Char) :
    Passes (run ++ rest) rest [] := by
  induction run with
  | nil => exact .refl rest
  | cons c run ih => exact .outside (h c (.head _)) (ih fun d hd => h d (.tail _ hd))

theorem ne_quote_of_isOutside {c : Char} (h : isOutside c = true) : c ≠ '"' := by
  rintro rfl
  exact absurd h (by decide)

/-- The strings that are passed on the way through a whole text are those it holds. -/
theorem Passes.writtenStrings_eq {text : List Char} {raws : List (List Char)}
    (h : Passes text [] raws) : writtenStrings text = raws := by
  generalize hrest : ([] : List Char) = rest at h
  unfold writtenStrings
  induction h with
  | refl text =>
    subst hrest
    rfl
  | @outside c text _ _ hc _ ih =>
    rw [writtenFrom, if_neg (ne_quote_of_isOutside hc), ih hrest]
  | string hraw _ ih =>
    rw [writtenFrom, if_pos rfl, writtenFrom_append hraw, List.nil_append, writtenFrom, if_pos rfl,
      ih hrest]
    exact fun _ _ heq => absurd heq (by decide)

/-! ## Names in quotes -/

/-- A string is spelled such that a name in quotes comes of it: as the name, or with an escaped
quote and the name at its end. -/
def Shows (name raw : List Char) : Prop := raw = name ∨ '"' :: name <:+ raw

instance (name : List Char) : DecidablePred (Shows name) :=
  fun raw => inferInstanceAs (Decidable (raw = name ∨ '"' :: name <:+ raw))

/-- A name that needs no escapes and has a character that stands in strings only. -/
structure IsTelling (name : List Char) : Prop where
  no_quote : '"' ∉ name
  no_escape : '\\' ∉ name
  inside : ∃ c ∈ name, isOutside c = false

section
variable {name raw text : List Char} {raws : List (List Char)}

/-- Up to the first quote of a text that is passed all is outside its strings. -/
theorem Passes.isOutside_of_append {run rest : List Char} (h : Passes text [] raws)
    (hrun : '"' ∉ run) (htext : text = run ++ '"' :: rest) : ∀ c ∈ run, isOutside c = true := by
  generalize hend : ([] : List Char) = final at h
  induction h generalizing run with
  | refl =>
    subst hend
    simp at htext
  | @outside c text _ _ hc _ ih =>
    cases run with
    | nil => simp
    | cons d run =>
      obtain ⟨rfl, hrest⟩ := List.cons.inj htext
      exact List.forall_mem_cons.2 ⟨hc, ih (fun hmem => hrun (.tail _ hmem)) hrest hend⟩
  | string _ _ _ =>
    cases run with
    | nil => simp
    | cons d run => exact absurd (by rw [← (List.cons.inj htext).1]; exact .head _) hrun

/-- No name follows the end of a string up to the next quote. -/
theorem Passes.ne_append (h : Passes text [] raws) (hname : IsTelling name) (rest : List Char) :
    text ≠ name ++ '"' :: rest := by
  intro htext
  obtain ⟨c, hc, hinside⟩ := hname.inside
  rw [h.isOutside_of_append hname.no_quote htext c hc] at hinside
  cases hinside

/-- A name and a quote, where a text in a string ends with a quote: either the name is that text, or
there is a quote after it in the text. -/
theorem eq_or_of_append_quote {rest rest' : List Char} (hname : '"' ∉ name)
    (h : name ++ '"' :: rest = raw ++ '"' :: rest') :
    raw = name ∨ ∃ after, raw = name ++ '"' :: after := by
  obtain ⟨as, hraw, has⟩ | ⟨bs, hsplit, hbs⟩ := List.append_eq_append_iff.1 h
  · cases as with
    | nil => exact .inl (by rw [hraw, List.append_nil])
    | cons a as =>
      obtain ⟨rfl, -⟩ := List.cons.inj has
      exact .inr ⟨as, hraw⟩
  · cases bs with
    | nil => exact .inl (by rw [hsplit, List.append_nil])
    | cons b bs =>
      obtain ⟨rfl, -⟩ := List.cons.inj hbs
      exact absurd (by rw [hsplit]; simp) hname

/-- No quote follows a name in a string, since it would have to be escaped. -/
theorem StaysOpen.ne_append (h : StaysOpen raw) (hname : '\\' ∉ name) (hne : name ≠ [])
    (before after : List Char) : raw ≠ before ++ name ++ '"' :: after := by
  intro hraw
  obtain ⟨earlier, hend⟩ := h.escaped_quote hraw
  obtain ⟨front, last, rfl⟩ := (List.eq_nil_or_concat' name).resolve_left hne
  rw [← List.append_assoc] at hend
  obtain rfl : last = '\\' := by simpa using (List.append_inj' hend rfl).2
  simp at hname

/-- What is found from a string on, the string shows, or it is found behind the string. -/
theorem shows_or_found_behind (hraw : StaysOpen raw) (hpasses : Passes text [] raws)
    (hname : IsTelling name) (h : '"' :: (name ++ ['"']) <:+: '"' :: (raw ++ '"' :: text)) :
    Shows name raw ∨ '"' :: (name ++ ['"']) <:+: text := by
  have hne : name ≠ [] := by
    rintro rfl
    obtain ⟨c, hc, -⟩ := hname.inside
    cases hc
  obtain ⟨before, after, htext⟩ := h
  have hquote : ∀ {part}, name ++ '"' :: after = part ++ '"' :: text → part = name ∨
      ∃ later, part = name ++ '"' :: later := eq_or_of_append_quote hname.no_quote
  cases before with
  | nil =>
    -- the string begins with the name
    simp only [List.nil_append, List.cons_append, List.append_assoc, List.cons.injEq,
      true_and] at htext
    obtain hsame | ⟨later, hlater⟩ := hquote htext
    · exact .inl (.inl hsame)
    · exact absurd hlater (hraw.ne_append hname.no_escape hne [] later)
  | cons c before =>
    simp only [List.cons_append, List.append_assoc, List.cons.injEq, List.nil_append] at htext
    obtain ⟨as, hsplit, has⟩ | ⟨bs, hsplit, hbs⟩ := List.append_eq_append_iff.1 htext.2
    · cases as with
      | nil => exact absurd (List.cons.inj has).2.symm (hpasses.ne_append hname after)
      | cons a as =>
        -- the name comes after a quote in the string
        obtain ⟨rfl, hname'⟩ := List.cons.inj has
        obtain rfl | ⟨later, rfl⟩ := hquote hname'
        · exact .inl (.inr ⟨before, hsplit.symm⟩)
        · refine absurd ?_ (hraw.ne_append hname.no_escape hne (before ++ ['"']) later)
          simpa using hsplit
    · cases bs with
      | nil => exact absurd (List.cons.inj hbs).2 (hpasses.ne_append hname after)
      | cons b bs =>
        -- the name comes in what is left
        exact .inr ⟨bs, after, by simpa using (List.cons.inj hbs).2.symm⟩

/-- In a text that is passed, a name in quotes is found where a string shows it. -/
theorem Passes.infix_iff (h : Passes text [] raws) (hname : IsTelling name) :
    '"' :: (name ++ ['"']) <:+: text ↔ ∃ raw ∈ raws, Shows name raw := by
  obtain ⟨rest, hend, hall⟩ : ∃ rest, [] = rest ∧ Passes text rest raws := ⟨[], rfl, h⟩
  clear h
  induction hall with
  | refl =>
    subst hend
    simp
  | @outside c text _ _ hc _ ih =>
    refine Iff.trans ?_ (ih hend)
    rw [List.infix_cons_iff, List.cons_prefix_cons]
    exact or_iff_right fun hfound => ne_quote_of_isOutside hc hfound.1.symm
  | @string raw text rest raws hraw hpasses ih =>
    subst hend
    rw [List.exists_mem_cons_iff]
    refine Iff.trans ?_ (or_congr_right (ih rfl))
    refine ⟨shows_or_found_behind hraw hpasses hname, ?_⟩
    rintro ((rfl | ⟨before, rfl⟩) | ⟨before, after, rfl⟩)
    · exact ⟨[], text, by simp⟩
    · exact ⟨'"' :: before, text, by simp⟩
    · exact ⟨'"' :: (raw ++ '"' :: before), after, by simp⟩

theorem infix_of_containsChars {part text : List Char} (h : containsChars part text = true) :
    part <:+: text := by
  induction text with
  | nil => rw [List.isEmpty_iff.1 h]
  | cons c text ih =>
    rw [containsChars, Bool.or_eq_true] at h
    obtain hhere | hlater := h
    · exact (List.isPrefixOf_iff_prefix.1 hhere).isInfix
    · exact (ih hlater).trans (List.suffix_cons c text).isInfix

end

end TypedRoutes.Json
