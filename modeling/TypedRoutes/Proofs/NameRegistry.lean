import TypedRoutes.Naming.Registry
import TypedRoutes.Proofs.ListTables
import Std.Data.String.ToNat
import Mathlib.Data.List.Nodup
import Mathlib.Data.List.Count

/-! # What a registry hands out

A claim of a name is answered by the name and the number of claims so far.  Two answers are the
same only if one is a name claimed for the first time that reads like another name with its
suffix, and the same holds for the reserved names.
-/

namespace TypedRoutes.Naming.Registry

/-! ## Counting -/

@[simp] theorem occurrences_empty (name : String) : empty.occurrences name = 0 := rfl

theorem occurrences_setCount (r : Registry) (name other : String) (n : Nat) :
    (r.setCount name n).occurrences other = if other = name then n else r.occurrences other := by
  by_cases h : other = name
  · simp [occurrences, setCount, h]
  · have hb : (other == name) = false := by simpa using h
    have hkeeps : (other != name) = true := by simpa using h
    simp [occurrences, setCount, List.lookup_cons, hb, h,
      lookup_filter_fst r.counts (· != name) hkeeps]

theorem occurrences_claim (r : Registry) (name other : String) :
    (r.claim name).2.occurrences other =
      r.occurrences other + if other = name then 1 else 0 := by
  by_cases h : other = name <;> simp [claim, occurrences_setCount, h]

private theorem occurrences_reserve (names : List String) (r : Registry) (name : String) :
    (names.foldl (fun r x => if r.occurrences x = 0 then r.setCount x 1 else r) r).occurrences
        name =
      if name ∈ names ∧ r.occurrences name = 0 then 1 else r.occurrences name := by
  induction names generalizing r with
  | nil => simp
  | cons x xs ih =>
    rw [List.foldl_cons, ih]
    by_cases hx : r.occurrences x = 0 <;> by_cases hn : name = x <;>
      simp [hx, hn, occurrences_setCount]

theorem occurrences_reserving (names : List String) (name : String) :
    (reserving names).occurrences name = if name ∈ names then 1 else 0 := by
  simp [reserving, occurrences_reserve]

/-! ## Suffixes -/

theorem suffixed_one (name : String) : suffixed name 1 = name := rfl

theorem toList_suffixed {n : Nat} (name : String) (h : 2 ≤ n) :
    (suffixed name n).toList = name.toList ++ '_' :: Nat.toDigits 10 n := by
  have hn : ¬n ≤ 1 := by omega
  simp [suffixed, hn, Nat.toList_repr, Nat.toString_eq_repr]

private theorem eq_of_last_separator {α : Type} {x : α} {as bs us vs : List α}
    (hu : x ∉ us) (hv : x ∉ vs) (h : as ++ x :: us = bs ++ x :: vs) : as = bs ∧ us = vs := by
  rcases List.append_eq_append_iff.1 h with ⟨cs, rfl, hc⟩ | ⟨cs, rfl, hc⟩
  · cases cs with
    | nil => simpa using hc
    | cons c cs => simp_all
  · cases cs with
    | nil => simpa [eq_comm] using hc
    | cons c cs => simp_all

theorem suffixed_inj {a b : String} {n m : Nat} (hn : 2 ≤ n) (hm : 2 ≤ m)
    (h : suffixed a n = suffixed b m) : a = b ∧ n = m := by
  have hl := congrArg String.toList h
  rw [toList_suffixed a hn, toList_suffixed b hm] at hl
  obtain ⟨hab, hd⟩ := eq_of_last_separator Nat.underscore_not_in_toDigits
    Nat.underscore_not_in_toDigits hl
  refine ⟨String.toList_inj.1 hab, ?_⟩
  rw [← Nat.ofDigitChars_ten_toDigits (n := n), hd, Nat.ofDigitChars_ten_toDigits]

theorem suffixed_ne_self {n : Nat} (name : String) (h : 2 ≤ n) : suffixed name n ≠ name := by
  intro hs
  have hl := congrArg (List.length ∘ String.toList) hs
  simp [toList_suffixed name h] at hl

/-- Two names with their numbers read alike only if they are the same, or if one is claimed for the
first time and is spelled like the other with its suffix. -/
theorem suffixed_eq_iff {a b : String} {n m : Nat} (hn : 1 ≤ n) (hm : 1 ≤ m) :
    suffixed a n = suffixed b m ↔
      a = b ∧ n = m ∨ n = 1 ∧ 2 ≤ m ∧ a = suffixed b m ∨ m = 1 ∧ 2 ≤ n ∧ b = suffixed a n := by
  rcases Nat.eq_or_lt_of_le hn with rfl | hn2 <;> rcases Nat.eq_or_lt_of_le hm with rfl | hm2
  · simp [suffixed_one]
  · have hne : ¬1 = m ∧ ¬m = 1 := by omega
    simp only [suffixed_one, hne.1, hne.2, and_false, false_and, false_or, or_false, true_and,
      (by omega : 2 ≤ m)]
  · have hne : ¬n = 1 := by omega
    simp only [suffixed_one, hne, and_false, false_and, false_or, true_and, (by omega : 2 ≤ n)]
    exact eq_comm
  · have hne : ¬n = 1 ∧ ¬m = 1 := by omega
    simp only [hne.1, hne.2, false_and, or_false]
    exact ⟨suffixed_inj hn2 hm2, fun ⟨ha, hnm⟩ => ha ▸ hnm ▸ rfl⟩

/-! ## Sequences of claims -/

def claimAll (r : Registry) : List String → List String
  | [] => []
  | x :: xs => (r.claim x).1 :: (r.claim x).2.claimAll xs

@[simp] theorem length_claimAll (r : Registry) (xs : List String) :
    (r.claimAll xs).length = xs.length := by
  induction xs generalizing r with
  | nil => rfl
  | cons x xs ih => simp [claimAll, ih]

/-- The number of a claim: how often its name has been claimed up to it. -/
def claimNumber (r : Registry) (xs : List String) (i : Nat) (x : String) : Nat :=
  r.occurrences x + (xs.take (i + 1)).count x

theorem claimNumber_cons (r : Registry) (x : String) (xs : List String) (i : Nat) (y : String) :
    r.claimNumber (x :: xs) (i + 1) y = (r.claim x).2.claimNumber xs i y := by
  simp only [claimNumber, List.take_succ_cons, List.count_cons, occurrences_claim, beq_iff_eq,
    @eq_comm _ x y]
  omega

theorem getElem?_claimAll (r : Registry) (xs : List String) (i : Nat) :
    (r.claimAll xs)[i]? = xs[i]?.map fun x => suffixed x (r.claimNumber xs i x) := by
  induction xs generalizing r i with
  | nil => simp [claimAll]
  | cons x xs ih =>
    cases i with
    | zero => simp [claimAll, claim, claimNumber]
    | succ i =>
      simp only [claimAll, List.getElem?_cons_succ, ih, claimNumber_cons]

theorem claimNumber_lt {r : Registry} {xs : List String} {i j : Nat} {x : String} (hij : i < j)
    (hj : xs[j]? = some x) : r.claimNumber xs i x < r.claimNumber xs j x := by
  obtain ⟨hlt, hx⟩ := List.getElem?_eq_some_iff.1 hj
  have hsub : (xs.take (i + 1)).count x ≤ (xs.take j).count x :=
    (List.take_sublist_take_left (by omega)).count_le x
  have hlast : (xs.take (j + 1)).count x = (xs.take j).count x + 1 := by
    rw [List.take_succ_eq_append_getElem hlt, hx]
    simp
  simp only [claimNumber]
  omega

theorem occurrences_lt_claimNumber {r : Registry} {xs : List String} {i : Nat} {x : String}
    (h : xs[i]? = some x) : r.occurrences x < r.claimNumber xs i x := by
  have hmem : x ∈ xs.take (i + 1) := by
    rw [List.mem_iff_getElem?]
    exact ⟨i, by simpa using h⟩
  have := List.count_pos_iff.2 hmem
  simp only [claimNumber]
  omega

theorem one_le_claimNumber {r : Registry} {xs : List String} {i : Nat} {x : String}
    (h : xs[i]? = some x) : 1 ≤ r.claimNumber xs i x :=
  Nat.lt_of_le_of_lt (Nat.zero_le _) (occurrences_lt_claimNumber h)

theorem claimNumber_le (r : Registry) (xs : List String) (i : Nat) (x : String) :
    r.claimNumber xs i x ≤ r.occurrences x + xs.count x := by
  have := (List.take_sublist (i + 1) xs).count_le x
  simp only [claimNumber]
  omega

theorem exists_claimNumber_eq (r : Registry) (xs : List String) {x : String} {n : Nat}
    (hlow : r.occurrences x < n) (hhigh : n ≤ r.occurrences x + xs.count x) :
    ∃ i, xs[i]? = some x ∧ r.claimNumber xs i x = n := by
  induction xs generalizing r with
  | nil => simp at hhigh; omega
  | cons y ys ih =>
    have hclaim := occurrences_claim r y x
    obtain rfl | hxy := eq_or_ne x y
    · rw [List.count_cons_self] at hhigh
      rcases Nat.lt_or_ge (r.occurrences x + 1) n with hlt | hge
      · simp only [if_true] at hclaim
        obtain ⟨i, hi, hnum⟩ := ih (r.claim x).2 (by omega) (by omega)
        exact ⟨i + 1, by simpa using hi, by rw [claimNumber_cons, hnum]⟩
      · exact ⟨0, by simp, by simp [claimNumber]; omega⟩
    · rw [List.count_cons_of_ne hxy.symm] at hhigh
      simp only [hxy, if_false] at hclaim
      obtain ⟨i, hi, hnum⟩ := ih (r.claim y).2 (by omega) (by omega)
      exact ⟨i + 1, by simpa using hi, by rw [claimNumber_cons, hnum]⟩

/-- The answers are the claimed names with the numbers of their claims. -/
theorem mem_claimAll_iff (r : Registry) (xs : List String) (name : String) :
    name ∈ r.claimAll xs ↔ ∃ x n, r.occurrences x < n ∧ n ≤ r.occurrences x + xs.count x ∧
      name = suffixed x n := by
  constructor
  · intro hmem
    obtain ⟨i, hi⟩ := List.mem_iff_getElem?.1 hmem
    rw [getElem?_claimAll, Option.map_eq_some_iff] at hi
    obtain ⟨x, hx, rfl⟩ := hi
    exact ⟨x, _, occurrences_lt_claimNumber hx, claimNumber_le r xs i x, rfl⟩
  · rintro ⟨x, n, hlow, hhigh, rfl⟩
    obtain ⟨i, hi, rfl⟩ := exists_claimNumber_eq r xs hlow hhigh
    exact List.mem_of_getElem? (i := i) (by rw [getElem?_claimAll, hi, Option.map_some])

/-- A name that does not end in a digit has no suffix. -/
theorem eq_of_eq_suffixed {name x : String} {n : Nat}
    (hlast : ∀ c ∈ name.toList.getLast?, c.isDigit = false) (hn : 1 ≤ n)
    (h : name = suffixed x n) : name = x ∧ n = 1 := by
  rcases Nat.eq_or_lt_of_le hn with rfl | htwo
  · exact ⟨h, rfl⟩
  · obtain ⟨ds, d, hdigits⟩ := (List.eq_nil_or_concat' (Nat.toDigits 10 n)).resolve_left
      Nat.toDigits_ne_nil
    have hdigit : d.isDigit = true :=
      Nat.isDigit_of_mem_toDigits (b := 10) (n := n) (by decide) (by decide) (by simp [hdigits])
    have hnone := hlast d (by simp [h, toList_suffixed x htwo, hdigits, List.getLast?_cons])
    rw [hdigit] at hnone
    cases hnone

theorem mem_claimAll_reserving_iff {name : String}
    (hlast : ∀ c ∈ name.toList.getLast?, c.isDigit = false) (reserved xs : List String) :
    name ∈ (reserving reserved).claimAll xs ↔ name ∈ xs ∧ name ∉ reserved := by
  rw [mem_claimAll_iff]
  constructor
  · rintro ⟨x, n, hlow, hhigh, h⟩
    obtain ⟨rfl, rfl⟩ := eq_of_eq_suffixed hlast (by omega) h
    rw [occurrences_reserving] at hlow hhigh
    have hfree : name ∉ reserved := fun hmem => by simp [hmem] at hlow
    rw [if_neg hfree] at hhigh
    exact ⟨List.count_pos_iff.1 (by omega), hfree⟩
  · rintro ⟨hmem, hfree⟩
    have hcount := List.count_pos_iff.2 hmem
    refine ⟨name, 1, ?_, ?_, rfl⟩ <;> simp only [occurrences_reserving, if_neg hfree] <;> omega

/-! ## Collisions -/

/-- No suffixed name that the claims lead to is reserved or claimed itself. -/
def NoClash (reserved xs : List String) : Prop :=
  ∀ x ∈ xs, ∀ n, 2 ≤ n → n ≤ xs.count x + (if x ∈ reserved then 1 else 0) →
    x ++ "_" ++ toString n ∉ reserved ∧ x ++ "_" ++ toString n ∉ xs

theorem suffixed_of_two_le {n : Nat} (name : String) (h : 2 ≤ n) :
    suffixed name n = name ++ "_" ++ toString n := by
  rw [suffixed, if_neg (by omega)]

private theorem noClash_iff (reserved xs : List String) :
    NoClash reserved xs ↔
      ∀ x ∈ xs, ∀ n, 2 ≤ n → n ≤ (reserving reserved).occurrences x + xs.count x →
        suffixed x n ∉ reserved ∧ suffixed x n ∉ xs := by
  simp only [NoClash, occurrences_reserving, Nat.add_comm]
  refine forall₅_congr fun x _ n hn _ => ?_
  rw [suffixed_of_two_le x hn]

private theorem answer_of_getElem? {r : Registry} {xs : List String} {i : Nat} {x : String}
    (h : xs[i]? = some x) : (r.claimAll xs)[i]? = some (suffixed x (r.claimNumber xs i x)) := by
  rw [getElem?_claimAll, h, Option.map_some]

private theorem answer_notMem_reserved {reserved xs : List String} (h : NoClash reserved xs)
    {i : Nat} {x : String} (hx : xs[i]? = some x) :
    suffixed x ((reserving reserved).claimNumber xs i x) ∉ reserved := by
  have hone := one_le_claimNumber (r := reserving reserved) hx
  have hle := claimNumber_le (reserving reserved) xs i x
  rcases Nat.lt_or_ge ((reserving reserved).claimNumber xs i x) 2 with hlt | hge
  · have heq : (reserving reserved).claimNumber xs i x = 1 := by omega
    rw [heq, suffixed_one]
    intro hmem
    have hpos : 0 < (xs.take (i + 1)).count x :=
      List.count_pos_iff.2 (List.mem_iff_getElem?.2 ⟨i, by simpa using hx⟩)
    simp only [claimNumber, occurrences_reserving, hmem, if_true] at heq
    omega
  · exact ((noClash_iff ..).1 h x (List.mem_of_getElem? hx) _ hge hle).1

private theorem answers_ne {reserved xs : List String} (h : NoClash reserved xs) {i j : Nat}
    {x y : String} (hij : i < j) (hx : xs[i]? = some x) (hy : xs[j]? = some y) :
    suffixed x ((reserving reserved).claimNumber xs i x) ≠
      suffixed y ((reserving reserved).claimNumber xs j y) := by
  intro heq
  have hxle := claimNumber_le (reserving reserved) xs i x
  have hyle := claimNumber_le (reserving reserved) xs j y
  rcases (suffixed_eq_iff (one_le_claimNumber hx) (one_le_claimNumber hy)).1 heq with
    ⟨rfl, hnum⟩ | ⟨-, htwo, hsame⟩ | ⟨-, htwo, hsame⟩
  · have hlt := claimNumber_lt (r := reserving reserved) hij hy
    omega
  · exact ((noClash_iff ..).1 h y (List.mem_of_getElem? hy) _ htwo hyle).2
      (hsame ▸ List.mem_of_getElem? hx)
  · exact ((noClash_iff ..).1 h x (List.mem_of_getElem? hx) _ htwo hxle).2
      (hsame ▸ List.mem_of_getElem? hy)

/-- The answers are unlike each other and the reserved names exactly if nothing clashes. -/
theorem claimAll_unlike_iff (reserved xs : List String) :
    (((reserving reserved).claimAll xs).Nodup ∧
      ∀ name ∈ (reserving reserved).claimAll xs, name ∉ reserved) ↔ NoClash reserved xs := by
  constructor
  · rintro ⟨hnodup, hfree⟩
    refine (noClash_iff ..).2 fun x hx n hn hle => ?_
    have hlow : (reserving reserved).occurrences x < n := by
      rw [occurrences_reserving]
      split <;> omega
    obtain ⟨i, hi, hnum⟩ := exists_claimNumber_eq _ xs hlow hle
    have hans := answer_of_getElem? (r := reserving reserved) hi
    rw [hnum] at hans
    have hres := hfree _ (List.mem_of_getElem? hans)
    refine ⟨hres, fun hmem => ?_⟩
    -- the suffixed name is claimed too, and its first claim is answered by the name itself
    have hpos := List.count_pos_iff.2 hmem
    obtain ⟨j, hj, hjnum⟩ := exists_claimNumber_eq (reserving reserved) xs (n := 1)
      (x := suffixed x n) (by simp [occurrences_reserving, hres]) (by omega)
    have hans' := answer_of_getElem? (r := reserving reserved) hj
    rw [hjnum, suffixed_one] at hans'
    obtain ⟨hlt, -⟩ := List.getElem?_eq_some_iff.1 hans
    have hij := (List.getElem?_inj hlt hnodup).1 (hans.trans hans'.symm)
    rw [hij, hj] at hi
    exact suffixed_ne_self x hn (Option.some.inj hi)
  · intro h
    refine ⟨List.nodup_iff_getElem?_ne_getElem?.2 fun i j hij hj => ?_, fun name hmem => ?_⟩
    · rw [length_claimAll] at hj
      have hx := List.getElem?_eq_getElem (Nat.lt_trans hij hj)
      have hy := List.getElem?_eq_getElem hj
      rw [answer_of_getElem? hx, answer_of_getElem? hy]
      simpa using answers_ne h hij hx hy
    · obtain ⟨i, hi⟩ := List.mem_iff_getElem?.1 hmem
      rw [getElem?_claimAll, Option.map_eq_some_iff] at hi
      obtain ⟨x, hx, rfl⟩ := hi
      exact answer_notMem_reserved h hx

/-! ## The law of a whole sequence -/

/-- The number of a claim among others: how often its name is claimed up to it, and once more if the
name is reserved. -/
def claimCount (reserved xs : List String) (i : Fin xs.length) : Nat :=
  (xs.take (i + 1)).count xs[i] + if xs[i] ∈ reserved then 1 else 0

private theorem claimNumber_reserving (reserved xs : List String) (i : Fin xs.length) :
    (reserving reserved).claimNumber xs i xs[i] = claimCount reserved xs i := by
  rw [claimNumber, occurrences_reserving, Nat.add_comm]
  rfl

theorem getElem?_claimAll_reserving (reserved xs : List String) (i : Fin xs.length) :
    ((reserving reserved).claimAll xs)[i]? = some (suffixed xs[i] (claimCount reserved xs i)) := by
  rw [← claimNumber_reserving]
  exact answer_of_getElem? (List.getElem?_eq_getElem i.isLt)

theorem one_le_claimCount (reserved xs : List String) (i : Fin xs.length) :
    1 ≤ claimCount reserved xs i := by
  rw [← claimNumber_reserving]
  exact one_le_claimNumber (List.getElem?_eq_getElem i.isLt)

/-- A reserved name is never claimed for the first time. -/
theorem two_le_claimCount {reserved xs : List String} {i : Fin xs.length}
    (h : xs[i] ∈ reserved) : 2 ≤ claimCount reserved xs i := by
  have hlt : (reserving reserved).occurrences xs[i] < claimCount reserved xs i := by
    rw [← claimNumber_reserving]
    exact occurrences_lt_claimNumber (List.getElem?_eq_getElem i.isLt)
  rwa [occurrences_reserving, if_pos h] at hlt

theorem claimCount_inj {reserved xs : List String} {i j : Fin xs.length} (hname : xs[i] = xs[j])
    (hcount : claimCount reserved xs i = claimCount reserved xs j) : i = j := by
  have hlt {a b : Fin xs.length} (hab : a < b) (h : xs[a] = xs[b]) :
      claimCount reserved xs a < claimCount reserved xs b := by
    rw [← claimNumber_reserving, ← claimNumber_reserving, h]
    exact claimNumber_lt hab (List.getElem?_eq_getElem b.isLt)
  rcases Nat.lt_trichotomy i j with hij | hij | hij
  · exact absurd hcount (Nat.ne_of_lt (hlt hij hname))
  · exact Fin.ext hij
  · exact absurd hcount.symm (Nat.ne_of_lt (hlt hij hname.symm))

/-- The answer to a claim is decided by its number; two claims have one answer only if one of them
is the first of a name that is spelled like the other's answer, and an answer is reserved only if it
has a suffix and is spelled like a reserved name. -/
theorem claims_answered_exactly (reserved xs : List String) :
    ((reserving reserved).claimAll xs).length = xs.length ∧
    let answers := (reserving reserved).claimAll xs
    let count := claimCount reserved xs
    (∀ i : Fin xs.length, answers[i]? =
      some (if count i = 1 then xs[i] else xs[i] ++ "_" ++ toString (count i))) ∧
    (∀ i j : Fin xs.length, answers[i]? = answers[j]? ↔ i = j ∨
      count i = 1 ∧ 2 ≤ count j ∧ xs[i] = xs[j] ++ "_" ++ toString (count j) ∨
      count j = 1 ∧ 2 ≤ count i ∧ xs[j] = xs[i] ++ "_" ++ toString (count i)) ∧
    ∀ i : Fin xs.length, (∃ name ∈ reserved, answers[i]? = some name) ↔
      2 ≤ count i ∧ xs[i] ++ "_" ++ toString (count i) ∈ reserved := by
  refine ⟨length_claimAll _ _, ?_⟩
  intro answers count
  have hanswer (i : Fin xs.length) : answers[i]? = some (suffixed xs[i] (count i)) :=
    getElem?_claimAll_reserving reserved xs i
  have hone (i : Fin xs.length) : 1 ≤ count i := one_le_claimCount reserved xs i
  refine ⟨fun i => ?_, fun i j => ?_, fun i => ?_⟩
  · rw [hanswer, suffixed]
    have := hone i
    simp only [show count i ≤ 1 ↔ count i = 1 by omega]
  · rw [hanswer, hanswer, Option.some.injEq, suffixed_eq_iff (hone i) (hone j)]
    refine or_congr ⟨fun h => claimCount_inj h.1 h.2, fun h => h ▸ ⟨rfl, rfl⟩⟩ (or_congr ?_ ?_)
    · refine and_congr_right fun _ => and_congr_right fun htwo => ?_
      rw [suffixed_of_two_le _ htwo]
    · refine and_congr_right fun _ => and_congr_right fun htwo => ?_
      rw [suffixed_of_two_le _ htwo]
  · simp only [hanswer, Option.some.injEq, exists_eq_right']
    constructor
    · intro hmem
      have htwo : 2 ≤ count i := by
        rcases Nat.eq_or_lt_of_le (hone i) with hfirst | htwo
        · rw [← hfirst, suffixed_one] at hmem
          exact two_le_claimCount hmem
        · exact htwo
      exact ⟨htwo, suffixed_of_two_le _ htwo ▸ hmem⟩
    · rintro ⟨htwo, hmem⟩
      rwa [suffixed_of_two_le _ htwo]

/-- A name that is claimed and spelled like another with its suffix is handed out twice, and a
suffix may lead to a reserved name. -/
example : (reserving ["r", "r_2"]).claimAll ["a_2", "a", "a", "r"] =
    ["a_2", "a", "a_2", "r_2"] := by
  decide

end TypedRoutes.Naming.Registry
