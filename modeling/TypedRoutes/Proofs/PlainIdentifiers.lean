import Mathlib.Data.List.Basic
import TypedRoutes.Naming.Binding
import TypedRoutes.Naming.Identifier
import TypedRoutes.Proofs.NameRegistry
import TypedRoutes.Script.Token

/-! # Plain identifiers

The identifier of a directory is spelled with ASCII letters, digits, underscores and dollars, and
does not begin with a digit.  A name of this form is its own identifier, and stays one when it is
counted; but a word that is reserved has this form too.
-/

namespace TypedRoutes.Naming
open TypedRoutes.Text

/-- A name of ASCII letters, digits, underscores and dollars that begins with no digit. -/
def IsPlainIdentifier (name : String) : Prop :=
  name.toList.head?.any isNameStart = true ∧ name.toList.all isPlainIdentifierCharacter = true

instance : DecidablePred IsPlainIdentifier := fun _ => inferInstanceAs (Decidable (_ ∧ _))

/-- The words that can name nothing in a module: those that are always reserved, and those that the
strict mode of modules reserves. -/
def moduleWords : List String :=
  Script.reservedWords ++
    ["await", "yield", "let", "static", "implements", "interface", "package", "private",
     "protected", "public"]

/-! ## Characters -/

theorem not_isDigit_of_isAlpha {c : Char} (h : c.isAlpha = true) : c.isDigit = false := by
  have hletter : (decide ('A'.val ≤ c.val ∧ c.val ≤ 'Z'.val) ||
      (decide ('a'.val ≤ c.val) && decide (c.val ≤ 'z'.val))) = true := h
  simp only [Bool.or_eq_true, decide_eq_true_eq, UInt32.le_iff_toNat_le,
    Bool.and_eq_true] at hletter
  rw [← Bool.not_eq_true, Char.isDigit, Bool.and_eq_true, decide_eq_true_eq, decide_eq_true_eq]
  simp only [ge_iff_le, UInt32.le_iff_toNat_le]
  have hA : 'A'.val.toNat = 65 := rfl
  have ha : 'a'.val.toNat = 97 := rfl
  have h9 : '9'.val.toNat = 57 := rfl
  omega

theorem isAscii_of_isDigit {c : Char} (h : c.isDigit = true) : isAscii c = true := by
  simp only [Char.isDigit, Bool.and_eq_true, decide_eq_true_eq, ge_iff_le,
    UInt32.le_iff_toNat_le] at h
  have h9 : '9'.val.toNat = 57 := rfl
  have hc : c.toNat = c.val.toNat := rfl
  rw [isAscii, decide_eq_true_eq]
  omega

theorem isPlainIdentifierCharacter_of_isNameStart {c : Char} (h : isNameStart c = true) :
    isPlainIdentifierCharacter c = true := by
  simp only [isNameStart, isPlainIdentifierCharacter, Char.isAlphanum, Bool.and_eq_true,
    Bool.or_eq_true] at h ⊢
  tauto

theorem isNameStart_iff {c : Char} (h : isPlainIdentifierCharacter c = true) :
    isNameStart c = true ↔ c.isDigit = false := by
  constructor
  · intro hstart
    simp only [isNameStart, Bool.and_eq_true, Bool.or_eq_true, beq_iff_eq] at hstart
    rcases hstart.2 with (halpha | rfl) | rfl
    · exact not_isDigit_of_isAlpha halpha
    · decide
    · decide
  · intro hdigit
    simpa [isPlainIdentifierCharacter, isNameStart, Char.isAlphanum, hdigit] using h

/-- What a character of a directory's name becomes. -/
def identifierCharacter (c : Char) : Char := if isPlainIdentifierCharacter c then c else '_'

theorem isPlainIdentifierCharacter_identifierCharacter (c : Char) :
    isPlainIdentifierCharacter (identifierCharacter c) = true := by
  unfold identifierCharacter
  split
  · assumption
  · decide

theorem identifierCharacter_of_plain {c : Char} (h : isPlainIdentifierCharacter c = true) :
    identifierCharacter c = c := if_pos h

theorem identifierChars_eq (name : List Char) : identifierChars name =
    (if (name.map identifierCharacter).head?.all Char.isDigit then ['_'] else []) ++
      name.map identifierCharacter := by
  have hkept : (name.map fun c => if isPlainIdentifierCharacter c then c else '_') =
      name.map identifierCharacter := rfl
  unfold identifierChars
  rw [hkept]
  cases name.map identifierCharacter with
  | nil => rfl
  | cons c cs =>
    rw [List.head?_cons, Option.all_some]
    cases hdigit : c.isDigit <;> simp [hdigit]

/-! ## Identifiers of names -/

theorem toIdentifier_plain (name : String) : IsPlainIdentifier (toIdentifier name) := by
  have hall : (name.toList.map identifierCharacter).all isPlainIdentifierCharacter = true := by
    simp [isPlainIdentifierCharacter_identifierCharacter]
  rw [IsPlainIdentifier, toIdentifier, String.toList_ofList, identifierChars_eq]
  split
  case isTrue => exact ⟨rfl, by rw [List.all_append, hall]; rfl⟩
  case isFalse hhead =>
    refine ⟨?_, hall⟩
    cases hname : name.toList with
    | nil => simp [hname] at hhead
    | cons c cs =>
      have hdigit : (identifierCharacter c).isDigit = false := by simpa [hname] using hhead
      exact (isNameStart_iff (isPlainIdentifierCharacter_identifierCharacter c)).2 hdigit

theorem toIdentifier_of_plain {name : String} (h : IsPlainIdentifier name) :
    toIdentifier name = name := by
  obtain ⟨hhead, hall⟩ := h
  have hkept : name.toList.map identifierCharacter = name.toList :=
    List.map_congr_left (fun c hc => identifierCharacter_of_plain (List.all_eq_true.1 hall c hc))
      |>.trans (List.map_id _)
  have hdigit : name.toList.head?.all Char.isDigit = false := by
    cases hname : name.toList with
    | nil => simp [hname] at hhead
    | cons c cs =>
      rw [hname, List.head?_cons, Option.any_some] at hhead
      exact (isNameStart_iff (isPlainIdentifierCharacter_of_isNameStart hhead)).1 hhead
  rw [toIdentifier, identifierChars_eq, hkept, hdigit]
  exact String.ofList_toList

theorem toIdentifier_toIdentifier (name : String) :
    toIdentifier (toIdentifier name) = toIdentifier name :=
  toIdentifier_of_plain (toIdentifier_plain name)

/-- An identifier without underscores is that of no other name. -/
theorem toIdentifier_eq_iff {name w : String} (hplain : IsPlainIdentifier w)
    (hunderscore : '_' ∉ w.toList) : toIdentifier name = w ↔ name = w := by
  refine ⟨?_, fun h => h.symm ▸ toIdentifier_of_plain hplain⟩
  rintro rfl
  rw [toIdentifier, String.toList_ofList, identifierChars_eq, List.mem_append,
    not_or] at hunderscore
  obtain ⟨hadded, hreplaced⟩ := hunderscore
  have hkept : name.toList.map identifierCharacter = name.toList := by
    refine (List.map_congr_left fun c hc => ?_).trans (List.map_id _)
    by_contra hchanged
    have hplain : ¬isPlainIdentifierCharacter c = true := fun h =>
      hchanged (identifierCharacter_of_plain h)
    exact hreplaced (List.mem_map.2 ⟨c, hc, if_neg hplain⟩)
  rw [toIdentifier, identifierChars_eq, hkept]
  rw [hkept] at hadded
  split at hadded
  case isTrue => simp at hadded
  case isFalse hhead => rw [if_neg hhead, List.nil_append, String.ofList_toList]

theorem Registry.suffixed_plain {name : String} (h : IsPlainIdentifier name) (n : Nat) :
    IsPlainIdentifier (suffixed name n) := by
  rcases Nat.lt_or_ge n 2 with hone | htwo
  · rwa [suffixed, if_pos (by omega)]
  · obtain ⟨hhead, hall⟩ := h
    have hdigits : (Nat.toDigits 10 n).all isPlainIdentifierCharacter = true := by
      refine List.all_eq_true.2 fun c hc => ?_
      have hdigit := Nat.isDigit_of_mem_toDigits (by decide) (by decide) hc
      simp [isPlainIdentifierCharacter, Char.isAlphanum, isAscii_of_isDigit hdigit, hdigit]
    rw [IsPlainIdentifier, toList_suffixed name htwo]
    constructor
    · cases hname : name.toList with
      | nil => simp [hname] at hhead
      | cons c cs => simpa [hname] using hhead
    · simp [hall, hdigits]
      decide

/-! ## Words of a module -/

theorem moduleWords_plain : ∀ w ∈ moduleWords, IsPlainIdentifier w := by decide +kernel

/-- No reserved word has an underscore or ends in a digit. -/
theorem moduleWords_letters :
    ∀ w ∈ moduleWords, '_' ∉ w.toList ∧ ∀ c ∈ w.toList.getLast?, c.isDigit = false := by
  have hall : ∀ w ∈ moduleWords, '_' ∉ w.toList ∧
      w.toList.getLast?.all (!·.isDigit) = true := by
    decide +kernel
  intro w hw
  obtain ⟨hunderscore, hlast⟩ := hall w hw
  refine ⟨hunderscore, fun c hc => ?_⟩
  rw [Option.mem_def.1 hc] at hlast
  simpa using hlast

end TypedRoutes.Naming
