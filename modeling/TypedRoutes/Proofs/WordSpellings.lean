import TypedRoutes.Proofs.DeclarationTexts
import TypedRoutes.Proofs.SynthesizedNames

/-! # Names as they are written

A name stands in a text as a word, as a word in which some characters are escaped, or after the sign
of private names.  Only in the first way it stands there character by character.
-/

namespace TypedRoutes.Script
open TypedRoutes.Text TypedRoutes.Naming

/-- The name that a token is. -/
def Token.named? : Token → Option String
  | .word name _ => some name
  | .privateName name => some name
  | _ => none

def Spells (name : String) (word : List Char) : Prop :=
  ∃ t rest, t.named? = some name ∧ readBareToken (word ++ rest) = (t, word.length, rest)

/-! ## Escapes -/

theorem isIdentifierPart_of_isHexDigit {c : Char} (h : isHexDigit c = true) :
    isIdentifierPart c = true := by
  have hascii : isAscii c = true := by
    simp only [isHexDigit, Char.isDigit, Bool.or_eq_true, Bool.and_eq_true, decide_eq_true_eq,
      ge_iff_le, Char.le_def, UInt32.le_iff_toNat_le] at h
    have h9 : '9'.val.toNat = 57 := rfl
    have hF : 'F'.val.toNat = 70 := rfl
    have hf : 'f'.val.toNat = 102 := rfl
    have hc : c.toNat = c.val.toNat := rfl
    rw [isAscii, decide_eq_true_eq]
    omega
  have hpart := forall_ascii (p := fun c => !isHexDigit c || isIdentifierPart c)
    (by decide +kernel) hascii
  simpa [h] using hpart

/-- Characters that escapes have beside those of names. -/
def escapeSigns : List Char := ['\\', '\x7b', '\x7d', '#']

/-- What an identifier is written with. -/
def IsWritten (c : Char) : Prop := isIdentifierPart c = true ∨ c ∈ escapeSigns

theorem written_of_readUnicodeEscape {text rest : List Char} {value n : Nat}
    (h : readUnicodeEscape text = some (value, n, rest)) :
    ∃ word, text = word ++ rest ∧ n = word.length ∧ ∀ c ∈ word, IsWritten c := by
  unfold readUnicodeEscape at h
  split at h
  · rename_i cs
    dsimp only at h
    split at h
    · rename_i tail hdrop
      split at h
      · cases h
      · cases h
        refine ⟨'\x7b' :: (cs.takeWhile isHexDigit ++ ['\x7d']), ?_, by simp, ?_⟩
        · rw [drop_length_takeWhile] at hdrop
          rw [List.cons_append, List.append_assoc, List.singleton_append, ← hdrop,
            List.takeWhile_append_dropWhile]
        · intro c hc
          simp only [List.mem_cons, List.mem_append, List.not_mem_nil, or_false] at hc
          rcases hc with rfl | hdigit | rfl
          · exact .inr (by decide)
          · have hall := List.all_eq_true.1 (List.all_takeWhile (p := isHexDigit) (l := cs))
            exact .inl (isIdentifierPart_of_isHexDigit (hall c hdigit))
          · exact .inr (by decide)
    · cases h
  · split at h
    · rename_i a b c d tail _ hdigits
      cases h
      exact ⟨[a, b, c, d], rfl, rfl, fun e he =>
        .inl (isIdentifierPart_of_isHexDigit (List.all_eq_true.1 hdigits e he))⟩
    · cases h
  · cases h

theorem TakesWord.written {first escaped : Bool} {text name rest : List Char} {n : Nat}
    (h : TakesWord first text name escaped n rest) :
    ∃ word, text = word ++ rest ∧ n = word.length ∧ (∀ c ∈ word, IsWritten c) ∧
      (∀ c ∈ name, isIdentifierPart c = true) ∧
      ((∀ c ∈ word, isIdentifierPart c = true) → word = name) := by
  induction h with
  | stop => exact ⟨[], rfl, rfl, by simp, by simp, fun _ => rfl⟩
  | @plain _ _ c _ _ _ _ hc _ ih =>
    obtain ⟨word, rfl, rfl, hword, hname, hsame⟩ := ih
    have hpart := isIdentifierPart_of_admits hc
    refine ⟨c :: word, rfl, rfl, List.forall_mem_cons.2 ⟨.inl hpart, hword⟩,
      List.forall_mem_cons.2 ⟨hpart, hname⟩, fun hplain => ?_⟩
    rw [hsame (List.forall_mem_cons.1 hplain).2]
  | escape hescape hvalue _ ih =>
    obtain ⟨escape, rfl, rfl, hsigns⟩ := written_of_readUnicodeEscape hescape
    obtain ⟨word, rfl, rfl, hword, hname, -⟩ := ih
    refine ⟨'\\' :: 'u' :: (escape ++ word), by simp, by simp; omega, ?_, ?_, ?_⟩
    · simp only [List.forall_mem_cons, List.forall_mem_append]
      exact ⟨.inr (by decide), .inl (by decide), hsigns, hword⟩
    · exact List.forall_mem_cons.2 ⟨isIdentifierPart_of_admits hvalue, hname⟩
    · intro hplain
      exact absurd (hplain '\\' (.head _)) (by decide)

theorem TakesWord.ne_zero {escaped : Bool} {c : Char} {cs name rest : List Char} {n : Nat}
    (hopen : (isIdentifierStart c || c == '\\') = true)
    (h : TakesWord true (c :: cs) name escaped n rest) : n ≠ 0 := by
  cases h with
  | stop h =>
    obtain ⟨hplain, hc⟩ := h c rfl
    rcases Bool.or_eq_true_iff.1 hopen with hstart | hescape
    · cases hc.symm.trans hstart
    · exact absurd (beq_iff_eq.1 hescape) hplain
  | plain => exact Nat.succ_ne_zero _
  | escape => omega

/-! ## Names -/

/-- How a name is written: with its characters, or with signs among them. -/
structure Written (name word : List Char) : Prop where
  nonempty : word ≠ []
  written : ∀ c ∈ word, IsWritten c
  parts : ∀ c ∈ name, isIdentifierPart c = true
  plain : (∀ c ∈ word, isIdentifierPart c = true) → word = name

theorem written_of_readBareToken {text rest : List Char} {t : Token} {n : Nat} {name : String}
    (h : readBareToken text = (t, n, rest)) (hnamed : t.named? = some name) :
    ∃ word, text = word ++ rest ∧ n = word.length ∧ Written name.toList word := by
  cases takesToken h with
  | @number _ _ big => cases big <;> cases hnamed
  | privateName hread =>
    obtain rfl := Option.some.inj hnamed
    obtain ⟨word, rfl, rfl, hword, hname, -⟩ := hread.written
    refine ⟨'#' :: word, rfl, rfl, List.cons_ne_nil _ _,
      List.forall_mem_cons.2 ⟨.inr (by decide), hword⟩, by simpa using hname, fun hplain => ?_⟩
    exact absurd (hplain '#' (.head _)) (by decide)
  | @word c cs hopen hstop =>
    obtain rfl := Option.some.inj hnamed
    rw [String.toList_ofList]
    have hparts : ∀ d ∈ (c :: cs).takeWhile isIdentifierPart, isIdentifierPart d = true :=
      List.all_eq_true.1 List.all_takeWhile
    refine ⟨_, (List.prefix_iff_eq_append.1 (List.takeWhile_prefix _)).symm, rfl, ?_,
      fun d hd => .inl (hparts d hd), hparts, fun _ => rfl⟩
    intro hnothing
    rw [hnothing] at hstop
    rcases Bool.or_eq_true_iff.1 hopen with hstart | hescape
    · simp [isIdentifierPart_of_start hstart] at hnothing
    · exact hstop cs (by rw [beq_iff_eq.1 hescape]; rfl)
  | escapedWord hopen _ hread =>
    obtain rfl := Option.some.inj hnamed
    obtain ⟨word, htext, hlength, hword, hname, hsame⟩ := hread.written
    rw [String.toList_ofList]
    refine ⟨word, htext, hlength, ?_, hword, hname, hsame⟩
    rintro rfl
    exact hread.ne_zero hopen hlength
  | endOfText | string | reserved | punctuator | invalid => cases hnamed

theorem Spells.written {name : String} {word : List Char} (h : Spells name word) :
    Written name.toList word := by
  obtain ⟨t, rest, hnamed, hread⟩ := h
  obtain ⟨word', htext, -, hwritten⟩ := written_of_readBareToken hread hnamed
  rwa [List.append_cancel_right htext]

end TypedRoutes.Script
