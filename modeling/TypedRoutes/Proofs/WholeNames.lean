import TypedRoutes.Proofs.NameRegistry
import TypedRoutes.Proofs.RenamedNames

/-! # Declared names as a whole

A declaration begins with keywords and the name it declares.  Where that name and all others begin
and end is a matter of identifiers, which may have dollar signs, while a renaming looks for words.
It declares the new name, and leaves the other names alone, exactly where the two agree.
-/

namespace TypedRoutes.Naming
open TypedRoutes.Text

/-- The words before the name of an exported or local type. -/
structure Heading where
  exported : Bool
  keyword : String
  isKeyword : keyword ∈ ["type", "interface", "enum"]

namespace Heading

def words (h : Heading) : List (List Char) :=
  (if h.exported then ["export".toList] else []) ++ [h.keyword.toList]

theorem isPlainName_of_mem_words {h : Heading} {word : List Char} (hword : word ∈ h.words) :
    IsPlainName word := by
  have hkeywords : ∀ keyword ∈ ["type", "interface", "enum"], IsPlainName keyword.toList := by
    decide +kernel
  rcases List.mem_append.1 hword with hword | hword
  · split at hword
    · rw [List.mem_singleton.1 hword]
      decide +kernel
    · cases hword
  · rw [List.mem_singleton.1 hword]
    exact hkeywords h.keyword h.isKeyword

end Heading

def spaced (words : List (List Char)) : List Char := words.flatMap (· ++ [' '])

theorem spaced_cons_append (word : List Char) (words : List (List Char)) (text : List Char) :
    spaced (word :: words) ++ text = word ++ (' ' :: (spaced words ++ text)) := by
  simp [spaced]

theorem head_spaced_append {words : List (List Char)} (hwords : ∀ word ∈ words, IsName word)
    {text : List Char} (htext : text.head?.any isNamePart = true) :
    (spaced words ++ text).head?.any isNamePart = true := by
  cases words with
  | nil => exact htext
  | cons word words =>
    obtain ⟨c, cs, hc⟩ := List.exists_cons_of_ne_nil (hwords word (.head _)).1
    rw [spaced_cons_append, hc]
    exact (hwords word (.head _)).2 c (by simp [hc])

/-- A text declares a name after a heading. -/
def Declares (h : Heading) (name text : List Char) : Prop :=
  ∃ rest, text = spaced h.words ++ (name ++ rest) ∧ rest.head?.any isNamePart = false

theorem takeWhile_name {name rest : List Char} (hname : ∀ c ∈ name, isNamePart c = true)
    (hend : rest.head?.any isNamePart = false) :
    (name ++ rest).takeWhile isNamePart = name :=
  takeWhile_append_of_stop hname fun c hc => by rwa [Option.mem_def.1 hc] at hend

/-- The words of a heading and the name after it can be read off a text. -/
theorem spaced_inj {words words' : List (List Char)} {name name' rest rest' : List Char}
    (hwords : ∀ word ∈ words, ∀ c ∈ word, isNamePart c = true)
    (hwords' : ∀ word ∈ words', ∀ c ∈ word, isNamePart c = true)
    (hname : ∀ c ∈ name, isNamePart c = true) (hname' : ∀ c ∈ name', isNamePart c = true)
    (hend : rest.head?.any isNamePart = false) (hend' : rest'.head?.any isNamePart = false)
    (hlength : words.length = words'.length)
    (h : spaced words ++ (name ++ rest) = spaced words' ++ (name' ++ rest')) :
    words = words' ∧ name = name' := by
  induction words generalizing words' with
  | nil =>
    obtain rfl : words' = [] := List.length_eq_zero_iff.1 hlength.symm
    have hrun := congrArg (List.takeWhile isNamePart) h
    simp only [spaced, List.flatMap_nil, List.nil_append] at hrun
    rw [takeWhile_name hname hend, takeWhile_name hname' hend'] at hrun
    exact ⟨rfl, hrun⟩
  | cons word words ih =>
    cases words' with
    | nil => cases hlength
    | cons word' words' =>
      rw [spaced_cons_append, spaced_cons_append] at h
      have hrun := congrArg (List.takeWhile isNamePart) h
      have hstop (t : List Char) : (' ' :: t).head?.any isNamePart = false := by
        rw [List.head?_cons, Option.any_some]
        decide
      rw [takeWhile_name (hwords word (.head _)) (hstop _),
        takeWhile_name (hwords' word' (.head _)) (hstop _)] at hrun
      subst hrun
      obtain ⟨hsame, hnames⟩ := ih (fun w hw => hwords w (.tail _ hw))
        (fun w hw => hwords' w (.tail _ hw)) (Nat.succ_inj.1 hlength)
        (List.cons.inj (List.append_cancel_left h)).2
      exact ⟨congrArg _ hsame, hnames⟩

section Renaming
variable {name replacement : List Char} (hname : IsName name)
include hname

theorem renamedRun_word {word after : List Char} (hword : IsPlainName word) {before : Option Char}
    (hbefore : before.any isNamePart = false) (hend : after.head?.any isNamePart = false)
    (hfree : isKept before after = false) :
    renamedRun name replacement before word after = if word = name then replacement else word := by
  by_cases hsame : word = name
  · have hbounded : IsBounded word := ⟨by simpa using hword.head [], by
      have := hword.last none
      rwa [Option.or_none] at this⟩
    subst hsame
    rw [renamedRun_name hname hbefore hend, if_pos ⟨hbounded, hfree⟩, if_pos rfl]
  · rw [if_neg hsame, renamedRun, take_renameImages_word replacement hname hword.2 hend (.inr hsame)]
    simp [← List.flatMap_def]

variable (replacement) in
theorem renameFrom_spaced {words : List (List Char)} (hwords : ∀ word ∈ words, IsPlainName word)
    {text : List Char} (htext : text.head?.any isNamePart = true) {before : Option Char}
    (hbefore : before = none ∨ before = some ' ') :
    ∃ last, (last = none ∨ last = some ' ') ∧
      renameFrom name replacement before 0 (spaced words ++ text) =
        spaced (words.map fun word => if word = name then replacement else word) ++
          renameFrom name replacement last 0 text := by
  induction words generalizing before with
  | nil => exact ⟨before, hbefore, rfl⟩
  | cons word words ih =>
    obtain ⟨last, hlast, heq⟩ := ih (fun w hw => hwords w (.tail _ hw)) (.inr rfl)
    have hblank : isNamePart ' ' = false := by decide
    have hend : (' ' :: (spaced words ++ text)).head?.any isNamePart = false := hblank
    have hnot : before.any isNamePart = false := by
      rcases hbefore with rfl | rfl
      · rfl
      · exact hblank
    have hfree : isKept before (' ' :: (spaced words ++ text)) = false := by
      have hhead : (spaced words ++ text).head?.any isNamePart = true :=
        head_spaced_append (fun w hw => (hwords w (.tail _ hw)).isName) htext
      rw [isKept_cons_white (by decide), isKept_of_name_head hhead]
      rcases hbefore with rfl | rfl <;> decide
    refine ⟨last, hlast, ?_⟩
    rw [spaced_cons_append, renameFrom_append hname hend,
      renamedRun_word hname (hwords word (.head _)) hnot hend hfree, renameFrom_other hname hblank,
      heq, List.map_cons, spaced_cons_append]

end Renaming

theorem replaced_eq_self_iff {name replacement : List Char} (hne : name ≠ replacement)
    {words : List (List Char)} :
    (words.map fun word => if word = name then replacement else word) = words ↔ name ∉ words := by
  induction words with
  | nil => simp
  | cons word words ih =>
    rw [List.map_cons, List.cons.injEq, ih, List.mem_cons, not_or, ite_eq_right_iff]
    grind

theorem isNamePart_of_isDigit {c : Char} (hc : c.isDigit = true) : isNamePart c = true := by
  have hdigits : ∀ n ∈ List.range' 48 10, isNamePart (Char.ofNat n) = true := by decide +kernel
  have hrange : 48 ≤ c.toNat ∧ c.toNat ≤ 57 := by
    simpa [Char.isDigit, UInt32.le_iff_toNat_le] using hc
  rw [← Char.ofNat_toNat c]
  exact hdigits c.toNat (List.mem_range'_1.2 ⟨hrange.1, by omega⟩)

theorem isName_suffixed {name : String} (hname : IsName name.toList) {k : Nat} (hk : 2 ≤ k) :
    IsName (Registry.suffixed name k).toList := by
  rw [Registry.toList_suffixed name hk]
  refine ⟨by simp, ?_⟩
  intro c hc
  rcases List.mem_append.1 hc with hc | hc
  · exact hname.2 c hc
  · rcases List.mem_cons.1 hc with rfl | hc
    · decide
    · exact isNamePart_of_isDigit (Nat.isDigit_of_mem_toDigits (by decide) (by decide) hc)

section Declared
variable {name replacement rest : List Char} (hname : IsName name)
include hname

theorem head_name_append : (name ++ rest).head?.any isNamePart = true := by
  obtain ⟨c, cs, hc⟩ := List.exists_cons_of_ne_nil hname.1
  rw [hc, List.cons_append, List.head?_cons]
  exact hname.2 c (by simp [hc])

variable (hend : rest.head?.any isNamePart = false)
include hend

variable (replacement) in
theorem head_renameFrom_after_name (before : Option Char) :
    (renameFrom name replacement before 0 rest).head?.any isNamePart = false := by
  cases rest with
  | nil => simp [renameFrom, standsAt_nil hname.1]
  | cons c cs =>
    have hc : isNamePart c = false := hend
    rw [renameFrom_other hname hc]
    exact hc

variable (replacement) in
/-- Each word of a heading, the declared name and the text after them are renamed by themselves. -/
theorem renameFrom_declaration (h : Heading) :
    ∃ last, renameFrom name replacement none 0 (spaced h.words ++ (name ++ rest)) =
      spaced (h.words.map fun word => if word = name then replacement else word) ++
        ((if IsBounded name ∧ isKept none rest = false then replacement else name) ++
          renameFrom name replacement last 0 rest) := by
  obtain ⟨last, hlast, heading⟩ := renameFrom_spaced replacement hname
    (fun _ => h.isPlainName_of_mem_words) (head_name_append hname) (.inl rfl)
  have hbefore : last.any isNamePart = false ∧ isKept last rest = isKept none rest := by
    rcases hlast with rfl | rfl
    · exact ⟨rfl, rfl⟩
    · exact ⟨by decide, rfl⟩
  refine ⟨name.getLast?.or last, ?_⟩
  rw [heading, renameFrom_append hname hend, renamedRun_name hname hbefore.1 hend, hbefore.2]

theorem declares_renamed_iff (h : Heading) (hreplacement : IsName replacement)
    (hne : name ≠ replacement) :
    Declares h replacement (renameFrom name replacement none 0 (spaced h.words ++ (name ++ rest))) ↔
      name ∉ h.words ∧ IsBounded name ∧ isKept none rest = false := by
  have hwords : ∀ word ∈ h.words, ∀ c ∈ word, isNamePart c = true :=
    fun word hword => (h.isPlainName_of_mem_words hword).isName.2
  obtain ⟨last, hrenamed⟩ := renameFrom_declaration replacement hname hend h
  have hrest := head_renameFrom_after_name replacement hname hend last
  rw [hrenamed]
  constructor
  · rintro ⟨rest', heq, hend'⟩
    have hreplaced : ∀ word ∈ h.words.map fun word => if word = name then replacement else word,
        ∀ c ∈ word, isNamePart c = true := by
      simp only [List.forall_mem_map]
      intro word hword
      split
      · exact hreplacement.2
      · exact hwords word hword
    have hdeclared : ∀ c ∈ if IsBounded name ∧ isKept none rest = false then replacement else name,
        isNamePart c = true := by
      split
      · exact hreplacement.2
      · exact hname.2
    obtain ⟨hsame, hnew⟩ := spaced_inj hreplaced hwords hdeclared hreplacement.2 hrest hend'
      (List.length_map _) heq
    refine ⟨(replaced_eq_self_iff hne).1 hsame, by_contra fun hnot => ?_⟩
    rw [if_neg hnot] at hnew
    exact hne hnew
  · rintro ⟨hmem, hfound⟩
    rw [if_pos hfound, (replaced_eq_self_iff hne).2 hmem]
    exact ⟨_, rfl, hrest⟩

end Declared

/-- A renaming declares the numbered name exactly if the name begins and ends with characters of
words, is none of the words before it, and no colon follows; it leaves every other name as it is
exactly if it finds the name nowhere within another where that is not kept. -/
theorem renames_whole_names_iff (h : Heading) {name : String} {rest : List Char}
    (hname : IsName name.toList) (hend : rest.head?.any isNamePart = false) {k : Nat}
    (hk : 2 ≤ k) :
    let text := spaced h.words ++ (name.toList ++ rest)
    let numbered := Registry.suffixed name k
    let renamed := (renameDeclaredType (String.ofList text) name numbered).toList
    (Declares h numbered.toList renamed ↔
      name.toList ∉ h.words ∧ IsBounded name.toList ∧ isKept none rest = false) ∧
    (List.Forall₂ (fun run run' => run ≠ name.toList → run' = run) (runs isNamePart text)
        (runs isNamePart renamed) ↔
      ∀ p ∈ places text, p.run ≠ name.toList → p.Undisturbed name.toList) := by
  intro text numbered renamed
  have hne : name ≠ numbered := (Registry.suffixed_ne_self name hk).symm
  have hne' : name.toList ≠ numbered.toList := mt String.toList_inj.1 hne
  have hnumbered : IsName numbered.toList := isName_suffixed hname hk
  constructor
  · have hrenamed : renamed = renameFrom name.toList numbered.toList none 0 text := by
      simp [renamed, renameDeclaredType, hne]
    rw [hrenamed]
    exact declares_renamed_iff hname hend h hnumbered hne'
  · have hruns : runs isNamePart renamed =
        (places text).map (Place.renamed name.toList numbered.toList) := by
      simp only [renamed, renameDeclaredType_eq_places hname hne, String.toList_ofList]
      exact runs_changed (turnsNames_renamed hname hnumbered) (.inl rfl)
    rw [hruns, ← map_run_places, List.forall₂_map_left_iff, List.forall₂_map_right_iff,
      List.forall₂_same]
    exact forall₂_congr fun p hp => imp_congr_right fun _ => renamed_eq_iff hname hne' hp

/-- The heading of an exported type. -/
def exportedType : Heading := ⟨true, "type", by decide⟩

/-- A type that refers to itself and to a type of a longer name. -/
theorem chainType_declared :
    let rest := " = \x7b next: Chain | Chain_ | $.Chained \x7d;".toList
    let text := spaced exportedType.words ++ ("Chain".toList ++ rest)
    let renamed := (renameDeclaredType (String.ofList text) "Chain"
      (Registry.suffixed "Chain" 2)).toList
    IsName "Chain".toList ∧ rest.head?.any isNamePart = false ∧ 2 ≤ 2 ∧
      Declares exportedType "Chain_2".toList renamed ∧
      ∀ p ∈ places text, p.run ≠ "Chain".toList → p.Undisturbed "Chain".toList := by
  intro rest text renamed
  have hname : IsName "Chain".toList := by decide +kernel
  have hend : rest.head?.any isNamePart = false := by decide +kernel
  have hiff := renames_whole_names_iff exportedType hname hend (Nat.le_refl 2)
  refine ⟨hname, hend, Nat.le_refl 2, hiff.1.2 ?_, hiff.2.1 ?_⟩
  · decide +kernel
  · decide +kernel

/-- Of a name that begins with a dollar sign nothing is renamed, and so nothing is declared; of a
longer name that goes on with one too much is. -/
theorem dollarNames_mistaken :
    let rest := " = \x7b next: $Node \x7d;".toList
    let text := spaced exportedType.words ++ ("$Node".toList ++ rest)
    let numbered := Registry.suffixed "$Node" 2
    let renamed := (renameDeclaredType (String.ofList text) "$Node" numbered).toList
    numbered = "$Node_2" ∧ renamed = text ∧ ¬ Declares exportedType numbered.toList renamed ∧
      renameDeclaredType "export type User = User$Raw;" "User" (Registry.suffixed "User" 2) =
        "export type User_2 = User_2$Raw;" := by
  intro rest text numbered renamed
  have hname : IsName "$Node".toList := by decide +kernel
  have hnumbered : IsName numbered.toList := isName_suffixed hname (Nat.le_refl 2)
  have hne : "$Node" ≠ numbered := (Registry.suffixed_ne_self _ (Nat.le_refl 2)).symm
  have hrenamed : renamed = renameFrom "$Node".toList numbered.toList none 0 text := by
    simp [renamed, renameDeclaredType, hne]
  refine ⟨by decide +kernel, by decide +kernel, ?_, by decide +kernel⟩
  rw [hrenamed, declares_renamed_iff hname (by decide +kernel) exportedType hnumbered
    (mt String.toList_inj.1 hne)]
  decide +kernel

end TypedRoutes.Naming
