import TypedRoutes.Naming.Binding
import TypedRoutes.Naming.Rename
import Mathlib.Data.List.Basic

/-! # Renaming, character by character

Each character of a declaration has its image under a renaming, and the images make up the renamed
text.  What becomes of a whole name depends on nothing around it, as long as it stands where a type
can be referred to.
-/

namespace TypedRoutes.Naming
open TypedRoutes.Text

def IsName (name : List Char) : Prop := name ≠ [] ∧ ∀ c ∈ name, isNamePart c = true

instance (name : List Char) : Decidable (IsName name) :=
  decidable_of_iff (name ≠ [] ∧ name.all isNamePart = true) (by simp [IsName])

/-- What each character of a text becomes: the first one of an occurrence all that stands in its
place, and the others nothing. -/
def renameImages (name replacement : List Char) (before : Option Char) (skip : Nat) :
    List Char → List (List Char)
  | [] => []
  | c :: cs =>
    if skip > 0 then [] :: renameImages name replacement (some c) (skip - 1) cs
    else if standsAt name before (c :: cs) then
      (if isKept before ((c :: cs).drop name.length) then name else replacement) ::
        renameImages name replacement (some c) (name.length - 1) cs
    else [c] :: renameImages name replacement (some c) 0 cs

section Images
variable {name : List Char} (replacement : List Char)

theorem standsAt_nil (hname : name ≠ []) (before : Option Char) :
    standsAt name before [] = false := by
  cases name with
  | nil => exact absurd rfl hname
  | cons c cs => rfl

theorem length_renameImages (before : Option Char) (skip : Nat) (text : List Char) :
    (renameImages name replacement before skip text).length = text.length := by
  induction text generalizing before skip with
  | nil => rfl
  | cons c cs ih =>
    unfold renameImages
    split
    · simp [ih]
    · split <;> simp [ih]

theorem flatten_renameImages (hname : name ≠ []) (before : Option Char) (skip : Nat)
    (text : List Char) :
    (renameImages name replacement before skip text).flatten =
      renameFrom name replacement before skip text := by
  induction text generalizing before skip with
  | nil => simp [renameImages, renameFrom, standsAt_nil hname]
  | cons c cs ih =>
    have hempty : name.isEmpty = false := by simpa using hname
    unfold renameImages renameFrom
    split
    · simp [ih]
    · split <;> simp [ih, hempty]

/-! ## Up to a name -/

theorem not_standsAt_of_notMem {c : Char} (hname : name ≠ []) (hc : c ∉ name)
    (before : Option Char) (cs : List Char) : standsAt name before (c :: cs) = false := by
  obtain ⟨d, ds, rfl⟩ := List.exists_cons_of_ne_nil hname
  have hne : d ≠ c := fun h => hc (h ▸ .head _)
  simp [standsAt, hne]

theorem not_standsAt_of_head {c : Char} (hname : IsName name) (hc : isNamePart c = false)
    (before : Option Char) (cs : List Char) : standsAt name before (c :: cs) = false := by
  refine not_standsAt_of_notMem hname.1 (fun hmem => ?_) before cs
  rw [hname.2 c hmem] at hc
  cases hc

/-- One character is renamed, and what is skipped after it consists of characters of names. -/
theorem renameImages_step (hname : IsName name) {c : Char} {cs : List Char} {skip : Nat}
    (hskip : ∀ x ∈ (c :: cs).take skip, isNamePart x = true) (before : Option Char) :
    ∃ image skip', renameImages name replacement before skip (c :: cs) =
        image :: renameImages name replacement (some c) skip' cs ∧
      ∀ x ∈ cs.take skip', isNamePart x = true := by
  rw [renameImages]
  split
  · rename_i hpos
    obtain ⟨n, rfl⟩ := Nat.exists_eq_succ_of_ne_zero (Nat.ne_of_gt hpos)
    exact ⟨_, n, rfl, fun x hx => hskip x (.tail _ hx)⟩
  · split
    · rename_i hstands
      refine ⟨_, name.length - 1, rfl, fun x hx => hname.2 x ?_⟩
      simp only [standsAt, Bool.and_eq_true] at hstands
      obtain ⟨rest, hrest⟩ := List.isPrefixOf_iff_prefix.1 hstands.1.1
      obtain ⟨d, ds, rfl⟩ := List.exists_cons_of_ne_nil hname.1
      obtain ⟨rfl, rfl⟩ := List.cons.inj hrest
      have hx : x ∈ ds := by simpa using hx
      exact .tail _ hx
    · exact ⟨_, 0, rfl, by simp⟩

/-- An occurrence ends before a character that no name has, so what follows is taken up anew. -/
theorem drop_renameImages (hname : IsName name) {pre : List Char} {last : Char}
    (hlast : pre.getLast? = some last) (hl : isNamePart last = false) (rest : List Char)
    (before : Option Char) {skip : Nat}
    (hskip : ∀ c ∈ (pre ++ rest).take skip, isNamePart c = true) :
    (renameImages name replacement before skip (pre ++ rest)).drop pre.length =
      renameImages name replacement (some last) 0 rest := by
  induction pre generalizing before skip with
  | nil => simp at hlast
  | cons c cs ih =>
    cases cs with
    | nil =>
      obtain rfl : c = last := by simpa using hlast
      have hzero : skip = 0 := by
        cases skip with
        | zero => rfl
        | succ n => simp [hl] at hskip
      simp [renameImages, hzero, not_standsAt_of_head hname hl]
    | cons d ds =>
      have hlast' : (d :: ds).getLast? = some last := by simpa [List.getLast?_cons] using hlast
      rw [List.cons_append] at hskip ⊢
      obtain ⟨image, skip', hstep, hskip'⟩ := renameImages_step replacement hname hskip before
      rw [hstep, List.length_cons, List.drop_succ_cons]
      exact ih hlast' _ hskip'

theorem drop_renameImages_start (hname : IsName name) {before : List Char}
    (hbefore : before.getLast?.any isNamePart = false) (rest : List Char) :
    (renameImages name replacement none 0 (before ++ rest)).drop before.length =
      renameImages name replacement before.getLast? 0 rest := by
  cases hlast : before.getLast? with
  | none =>
    obtain rfl := List.getLast?_eq_none_iff.1 hlast
    rfl
  | some c =>
    rw [hlast] at hbefore
    exact drop_renameImages replacement hname hlast hbefore rest none (by simp)

/-! ## Through a name -/

def blanks : List Nat :=
  [9, 10, 11, 12, 13, 0x20, 0x85, 0xA0, 0x1680, 0x2000, 0x2001, 0x2002, 0x2003, 0x2004, 0x2005,
   0x2006, 0x2007, 0x2008, 0x2009, 0x200A, 0x2028, 0x2029, 0x202F, 0x205F, 0x3000]

theorem mem_blanks {c : Char} (h : isWhitespace c = true) : c.toNat ∈ blanks := by
  simp only [isWhitespace, Bool.or_eq_true, Bool.and_eq_true, decide_eq_true_eq, beq_iff_eq] at h
  simp only [blanks, List.mem_cons, List.not_mem_nil, or_false]
  omega

theorem inRanges_eq (table : Array (Nat × Nat)) (n : Nat) :
    inRanges table n = table.toList.any fun r => r.1 ≤ n && n ≤ r.2 := by
  rw [Array.any_toList]
  rfl

theorem isWhitespace_of_isNamePart {c : Char} (h : isNamePart c = true) :
    isWhitespace c = false := by
  have hblanks : ∀ n ∈ blanks, isNamePart (Char.ofNat n) = false := by
    simp only [isNamePart, isWordCharacter, isAlphabetic, isMark, isDecimalDigit, inRanges_eq]
    decide +kernel
  by_contra hw
  have hc := hblanks c.toNat (mem_blanks (by simpa using hw))
  rw [Char.ofNat_toNat, h] at hc
  cases hc

variable {s after : List Char}

/-- A name does not go on where the characters of names end. -/
theorem isPrefixOf_append {inside : Char → Bool} (hname : ∀ c ∈ name, inside c = true)
    (hafter : after.head?.any inside = false) :
    name.isPrefixOf (s ++ after) = name.isPrefixOf s := by
  rw [Bool.eq_iff_iff, List.isPrefixOf_iff_prefix, List.isPrefixOf_iff_prefix]
  constructor
  · rintro ⟨rest, hrest⟩
    rcases List.append_eq_append_iff.1 hrest with ⟨more, hs, -⟩ | ⟨more, hn, hmore⟩
    · exact ⟨more, hs.symm⟩
    · cases more with
      | nil => exact ⟨[], by simpa using hn⟩
      | cons c cs =>
        have hc : inside c = true := hname c (by simp [hn])
        simp [hmore, hc] at hafter
  · exact fun h => h.trans (List.prefix_append s after)

theorem isWordCharacter_of_not_isNamePart {c : Char} (h : isNamePart c = false) :
    isWordCharacter c = false := by
  simp only [isNamePart, Bool.or_eq_false_iff] at h
  exact h.1

theorem standsAt_append (hname : IsName name) (hs : s ≠ [])
    (hafter : after.head?.any isNamePart = false) {before before' : Option Char}
    (hbefore : before.any isWordCharacter = before'.any isWordCharacter) :
    standsAt name before (s ++ after) = standsAt name before' s := by
  have hword : after.head?.any isWordCharacter = false := by
    cases after with
    | nil => rfl
    | cons c cs => exact isWordCharacter_of_not_isNamePart (by simpa using hafter)
  rw [standsAt, standsAt, isPrefixOf_append hname.2 hafter]
  cases hbegins : name.isPrefixOf s with
  | false => rfl
  | true =>
    obtain ⟨more, rfl⟩ := List.isPrefixOf_iff_prefix.1 hbegins
    obtain ⟨last, hlast⟩ := Option.ne_none_iff_exists'.1 (mt List.getLast?_eq_none_iff.1 hname.1)
    have hhead : (name ++ (more ++ after)).head? = (name ++ more).head? := by
      rw [← List.append_assoc, List.head?_append_of_ne_nil _ hs]
    have hends : (more ++ after).head?.any isWordCharacter = more.head?.any isWordCharacter := by
      cases more <;> simp [hword]
    simp only [isWordBoundary, hlast, hbefore, List.append_assoc, hhead, List.drop_left,
      Option.some_or, hends]

theorem isKept_append (hs : ∀ c ∈ s, isNamePart c = true) (hafter : isKept none after = false)
    {before before' : Option Char} (hbefore : ∀ text, isKept before text = isKept before' text) :
    isKept before (s ++ after) = isKept before' s := by
  rw [hbefore]
  cases s with
  | nil =>
    have hnil : isKept none [] = false := by decide
    simp only [isKept, Option.any_none, Bool.false_or, List.nil_append] at hafter hnil ⊢
    rw [Bool.or_assoc, hafter, Bool.or_assoc, hnil]
  | cons c cs =>
    have hc : isNamePart c = true := hs c (.head _)
    have hw := isWhitespace_of_isNamePart hc
    have hcolon : (':' == c) = false := by
      rw [beq_eq_false_iff_ne]
      rintro rfl
      revert hc
      decide
    have hquestion : ('?' == c) = false := by
      rw [beq_eq_false_iff_ne]
      rintro rfl
      revert hc
      decide
    simp [isKept, trimStartChars, hw, List.isPrefixOf, hcolon, hquestion]

/-- Whether more text follows a name does not matter to it. -/
theorem take_renameImages (hname : IsName name) (hs : ∀ c ∈ s, isNamePart c = true)
    (hend : after.head?.any isNamePart = false) (hafter : isKept none after = false)
    {before before' : Option Char}
    (hword : before.any isWordCharacter = before'.any isWordCharacter)
    (hkept : ∀ text, isKept before text = isKept before' text) (skip : Nat) :
    (renameImages name replacement before skip (s ++ after)).take s.length =
      renameImages name replacement before' skip s := by
  induction s generalizing before before' skip with
  | nil => rfl
  | cons c cs ih =>
    have hcs : ∀ x ∈ cs, isNamePart x = true := fun x hx => hs x (.tail _ hx)
    have hrest : ∀ skip,
        (renameImages name replacement (some c) skip (cs ++ after)).take cs.length =
          renameImages name replacement (some c) skip cs := ih hcs rfl fun _ => rfl
    have hstands := standsAt_append hname (List.cons_ne_nil c cs) hend hword
    rw [List.cons_append] at hstands ⊢
    rw [renameImages, renameImages, hstands, List.length_cons]
    split
    · rw [List.take_succ_cons, hrest]
    · split
      · rename_i hat
        obtain ⟨more, hmore⟩ : name <+: c :: cs := by
          simp only [standsAt, Bool.and_eq_true] at hat
          exact List.isPrefixOf_iff_prefix.1 hat.1.1
        have hin : ∀ x ∈ more, isNamePart x = true := fun x hx => hs x (by simp [← hmore, hx])
        rw [List.take_succ_cons, hrest, ← List.cons_append, ← hmore, List.append_assoc,
          List.drop_left, List.drop_left, isKept_append hin hafter hkept]
      · rw [List.take_succ_cons, hrest]

/-- A whole name that is not kept becomes what it would become alone. -/
theorem renameImages_name (hname : IsName name) (hs : ∀ c ∈ s, isNamePart c = true)
    {before : List Char} (hbefore : before.getLast?.any isNamePart = false)
    (hafter : after.head?.any isNamePart = false) (hfree : isKept before.getLast? after = false) :
    (((renameImages name replacement none 0 (before ++ s ++ after)).drop before.length).take
      s.length).flatten = renameFrom name replacement none 0 s := by
  have hsides := hfree
  simp only [isKept, Bool.or_assoc, Bool.or_eq_false_iff] at hsides
  have hkept : ∀ text, isKept before.getLast? text = isKept none text := by
    intro text
    simp only [isKept, hsides.1, Option.any_none]
  have hword : before.getLast?.any isWordCharacter = (none : Option Char).any isWordCharacter := by
    cases hlast : before.getLast? with
    | none => rfl
    | some c =>
      rw [hlast] at hbefore
      exact isWordCharacter_of_not_isNamePart hbefore
  rw [List.append_assoc, drop_renameImages_start replacement hname hbefore,
    take_renameImages replacement hname hs hafter ((hkept after).symm.trans hfree) hword hkept,
    flatten_renameImages replacement hname.1]

theorem not_standsAt_word (hname : IsName name) {word : List Char}
    (hword : ∀ c ∈ word, isWordCharacter c = true) {before : Option Char}
    (h : before.any isWordCharacter = true ∨ word ≠ name) : standsAt name before word = false := by
  rw [Bool.eq_false_iff]
  intro hstands
  simp only [standsAt, isWordBoundary, Bool.and_eq_true, bne_iff_ne] at hstands
  obtain ⟨⟨hbegins, hstart⟩, hend⟩ := hstands
  obtain ⟨more, rfl⟩ := List.isPrefixOf_iff_prefix.1 hbegins
  obtain ⟨c, cs, rfl⟩ := List.exists_cons_of_ne_nil hname.1
  have hc : isWordCharacter c = true := hword c (by simp)
  have hlast : ((c :: cs).getLast?.or before).any isWordCharacter = true := by
    obtain ⟨last, hl⟩ := Option.ne_none_iff_exists'.1 (mt List.getLast?_eq_none_iff.1 hname.1)
    have hmem : last ∈ c :: cs := List.mem_of_getLast? hl
    simpa [hl] using hword last (List.mem_append_left _ hmem)
  have hmore : more = [] := by
    cases more with
    | nil => rfl
    | cons d ds =>
      have hd : isWordCharacter d = true := hword d (by simp)
      rw [List.drop_left, List.head?_cons, Option.any_some, hd, hlast] at hend
      exact absurd rfl hend
  rcases h with h | h
  · rw [List.cons_append, List.head?_cons, Option.any_some, hc, h] at hstart
    exact hstart rfl
  · exact h (by rw [hmore, List.append_nil])

/-- A word is only renamed as a whole. -/
theorem renameFrom_word (hname : IsName name) {word : List Char}
    (hword : ∀ c ∈ word, isWordCharacter c = true) {before : Option Char}
    (h : before.any isWordCharacter = true ∨ word ≠ name) :
    renameFrom name replacement before 0 word = word := by
  have hstands := not_standsAt_word hname hword h
  induction word generalizing before with
  | nil => simp [renameFrom, standsAt_nil hname.1]
  | cons c cs ih =>
    have hc : isWordCharacter c = true := hword c (.head _)
    have hcs : ∀ x ∈ cs, isWordCharacter x = true := fun x hx => hword x (.tail _ hx)
    have hnext : (some c).any isWordCharacter = true ∨ cs ≠ name := .inl hc
    rw [renameFrom, if_neg (Nat.lt_irrefl 0), hstands, if_neg Bool.false_ne_true,
      ih hcs hnext (not_standsAt_word hname hcs hnext)]

theorem take_renameImages_word (hname : IsName name) {word : List Char}
    (hword : ∀ c ∈ word, isWordCharacter c = true) (hafter : after.head?.any isNamePart = false)
    {before : Option Char} (h : before.any isWordCharacter = true ∨ word ≠ name) :
    (renameImages name replacement before 0 (word ++ after)).take word.length =
      word.map fun c => [c] := by
  induction word generalizing before with
  | nil => rfl
  | cons c cs ih =>
    have hc : isWordCharacter c = true := hword c (.head _)
    have hcs : ∀ x ∈ cs, isWordCharacter x = true := fun x hx => hword x (.tail _ hx)
    have hnext : (some c).any isWordCharacter = true ∨ cs ≠ name := .inl hc
    have hstands : standsAt name before (c :: (cs ++ after)) = false :=
      (standsAt_append hname (List.cons_ne_nil c cs) hafter rfl).trans
        (not_standsAt_word hname hword h)
    rw [List.cons_append, renameImages, if_neg (Nat.lt_irrefl 0), hstands,
      if_neg Bool.false_ne_true, List.length_cons, List.take_succ_cons, ih hcs hnext,
      List.map_cons]

theorem renameImages_word (hname : IsName name) {word before : List Char}
    (hword : ∀ c ∈ word, isWordCharacter c = true) (hne : word ≠ name)
    (hbefore : before.getLast?.any isNamePart = false)
    (hafter : after.head?.any isNamePart = false) :
    (((renameImages name replacement none 0 (before ++ word ++ after)).drop before.length).take
      word.length).flatten = word := by
  rw [List.append_assoc, drop_renameImages_start replacement hname hbefore,
    take_renameImages_word replacement hname hword hafter (.inr hne)]
  simp [← List.flatMap_def]

end Images

end TypedRoutes.Naming
