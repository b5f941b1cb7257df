import TypedRoutes.Json.Printer
import TypedRoutes.Proofs.ReaderRuns
import TypedRoutes.Proofs.ShortestDecimals

/-! # Numbers are read as they were printed

An integer is read as itself, and the text of a finite double is that of a finite double.
-/

namespace TypedRoutes.Json
open TypedRoutes.Decimal

/-- A number that a text can give: an integer of 64 bits with or without a sign, or a finite
double. -/
def Number.IsReadable : Number → Prop
  | .integer n => -0x8000000000000000 ≤ n ∧ n ≤ 0xFFFFFFFFFFFFFFFF
  | .double bits => bits.toNat / 2 ^ 52 % 2 ^ 11 ≠ 2047

theorem isReadable_toBits {f : Float} (h : f.isFinite = true) (positive : Bool) :
    (Number.double (if positive then f else -f).toBits).IsReadable := by
  have hsigned : (if positive then f else -f).isFinite = true := by
    cases positive
    · exact isFinite_neg h
    · exact h
  exact (isFinite_iff_toNat _).1 hsigned

namespace Reader

/-! ## Digits -/

theorem ofDigitChars_append_eq (pre post : List Char) (n : Nat) :
    Nat.ofDigitChars 10 (pre ++ post) n =
      10 ^ post.length * Nat.ofDigitChars 10 pre n + Nat.ofDigitChars 10 post 0 := by
  rw [Nat.ofDigitChars_append, Nat.ofDigitChars_eq_ofDigitChars_zero]

theorem ofDigitChars_lt {cs : List Char} (h : ∀ c ∈ cs, c.isDigit = true) (n : Nat) :
    Nat.ofDigitChars 10 cs n < (n + 1) * 10 ^ cs.length := by
  induction cs generalizing n with
  | nil => simp
  | cons c cs ih =>
    have hc := Char.isDigit_iff_toNat.1 (h c (.head _))
    have hnine : '9'.toNat = '0'.toNat + 9 := rfl
    have hnext := ih (fun d hd => h d (.tail _ hd)) (10 * n + (c.toNat - '0'.toNat))
    rw [Nat.ofDigitChars_cons]
    refine hnext.trans_le ?_
    rw [List.length_cons, Nat.pow_succ, ← Nat.mul_assoc, Nat.mul_right_comm]
    exact Nat.mul_le_mul_right _ (by omega)

theorem foldl_eq_ofDigitChars (cs : List Char) (n : Nat) :
    cs.foldl (fun n d => n * 10 + (d.toNat - '0'.toNat)) n = Nat.ofDigitChars 10 cs n := by
  simp only [Nat.ofDigitChars, Nat.mul_comm]

/-- Digits are taken from the front; all of them if what they stand for fits. -/
theorem takeDigits_spec (cs : List Char) {n : Nat} (hn : n ≤ maxSignificand) (taken : Nat) :
    ∃ pre post, cs = pre ++ post ∧ takeDigits n taken cs =
        (Nat.ofDigitChars 10 pre n, taken + pre.length, !post.isEmpty) ∧
      Nat.ofDigitChars 10 pre n ≤ maxSignificand ∧
      (Nat.ofDigitChars 10 cs n ≤ maxSignificand → post = []) := by
  induction cs generalizing n taken with
  | nil => exact ⟨[], [], rfl, rfl, hn, fun _ => rfl⟩
  | cons c cs ih =>
    rw [takeDigits]
    have hcomm : n * 10 + (c.toNat - '0'.toNat) = 10 * n + (c.toNat - '0'.toNat) := by omega
    simp only [hcomm]
    split
    · rename_i hfits
      obtain ⟨pre, post, rfl, htake, hle, hall⟩ := ih hfits (taken + 1)
      refine ⟨c :: pre, post, rfl, ?_, hle, ?_⟩
      · rw [htake, Nat.ofDigitChars_cons, List.length_cons]
        congr 2
        omega
      · rw [Nat.ofDigitChars_cons]
        exact hall
    · rename_i hover
      refine ⟨[], c :: cs, rfl, rfl, hn, fun hfits => absurd ?_ hover⟩
      rw [Nat.ofDigitChars_cons, Nat.ofDigitChars_eq_ofDigitChars_zero] at hfits
      have hpow : 0 < 10 ^ cs.length := Nat.pow_pos (by decide)
      have := Nat.le_mul_of_pos_left (10 * n + (c.toNat - '0'.toNat)) hpow
      omega

structure IsWhole (digits : List Char) : Prop where
  isDigit : ∀ c ∈ digits, c.isDigit = true
  head : digits = ['0'] ∨ ∃ c cs, digits = c :: cs ∧ c ≠ '0'

theorem IsWhole.append {digits cs : List Char} (h : IsWhole digits) (hne : digits ≠ ['0'])
    (hcs : ∀ c ∈ cs, c.isDigit = true) : IsWhole (digits ++ cs) := by
  obtain heq | ⟨c, ds, rfl, hc⟩ := h.head
  · exact absurd heq hne
  · refine ⟨fun d hd => ?_, .inr ⟨c, ds ++ cs, rfl, hc⟩⟩
    obtain hd | hd := List.mem_append.1 hd
    · exact h.isDigit d hd
    · exact hcs d hd

theorem IsWhole.take {digits : List Char} (h : IsWhole digits) {n : Nat} (hn : n ≠ 0) :
    IsWhole (digits.take n) := by
  obtain ⟨n, rfl⟩ := Nat.exists_eq_succ_of_ne_zero hn
  refine ⟨fun c hc => h.isDigit c (List.mem_of_mem_take hc), ?_⟩
  obtain rfl | ⟨c, cs, rfl, hc⟩ := h.head
  · exact .inl (by simp)
  · exact .inr ⟨c, cs.take n, rfl, hc⟩

theorem isDigit_of_mem_digitChars {n : Nat} {c : Char} (h : c ∈ digitChars n) :
    c.isDigit = true :=
  Nat.isDigit_of_mem_toDigits (by decide) (by decide) h

theorem digitChars_ne_zero {n : Nat} (hn : n ≠ 0) :
    ∃ c cs, digitChars n = c :: cs ∧ c ≠ '0' := by
  induction n using Nat.strongRecOn with
  | ind n ih =>
    unfold digitChars at ih ⊢
    rw [Nat.toDigits_eq_if (by decide)]
    split
    · rename_i hlt
      refine ⟨n.digitChar, [], rfl, ?_⟩
      have hdigits : ∀ m < 10, m ≠ 0 → m.digitChar ≠ '0' := by decide
      exact hdigits n hlt hn
    · obtain ⟨c, cs, htenth, hc⟩ := ih (n / 10) (by omega) (by omega)
      rw [htenth]
      exact ⟨c, cs ++ [(n % 10).digitChar], rfl, hc⟩

theorem isWhole_zero : IsWhole ['0'] := ⟨List.forall_mem_singleton.2 rfl, .inl rfl⟩

theorem isWhole_digitChars (n : Nat) : IsWhole (digitChars n) := by
  refine ⟨fun c hc => isDigit_of_mem_digitChars hc, ?_⟩
  obtain rfl | hn := eq_or_ne n 0
  · exact .inl (Nat.toDigits_zero 10)
  · exact .inr (digitChars_ne_zero hn)

theorem ofDigitChars_digitChars (n : Nat) : Nat.ofDigitChars 10 (digitChars n) 0 = n :=
  Nat.ofDigitChars_ten_toDigits

/-! ## The parts of a number -/

variable {positive : Bool} {rest : List Char}

theorem Stops.isDigit (h : Stops rest) : ∀ c ∈ rest.head?, c.isDigit = false :=
  fun c hc => (h c hc).1

theorem runs_atExponent_stop (h : Stops rest) : Runs atExponent rest false rest := by
  have hpeek : (rest.head? == some 'e' || rest.head? == some 'E') = false := by
    cases rest with
    | nil => rfl
    | cons c rest =>
      obtain ⟨-, -, he, hE⟩ := h c rfl
      simp [he, hE]
  refine (runs_peek rest).bind ((runs_peek rest).bind ?_)
  rw [hpeek]
  exact Runs.pure false rest

theorem runs_atExponent_mark (text : List Char) :
    Runs atExponent ('e' :: text) true ('e' :: text) :=
  (runs_peek _).bind ((runs_peek _).bind (Runs.pure true _))

theorem runs_double {n : Nat} {x : Int} {f : Float} (h : scaleDouble n x = some f)
    (text : List Char) : Runs (double positive n x) text
      (.double (if positive then f else -f).toBits) text := by
  unfold double
  rw [h]
  exact Runs.pure _ text

/-- Where a decimal is computed at all, a finite double is read. -/
theorem exists_runs_double (positive : Bool) {n : Nat} {x : Int} (hn : n ≤ maxSignificand)
    (h : ∃ f, scaleDouble n x = some f) : ∃ bits, (Number.double bits).IsReadable ∧
      ∀ text, Runs (double positive n x) text (.double bits) text := by
  obtain ⟨f, hf⟩ := h
  exact ⟨_, isReadable_toBits (isFinite_scaleDouble hn hf) positive, runs_double hf⟩

theorem exists_scaleDouble_of_nonpos {n : Nat} {x : Int} (hn : n ≤ maxSignificand) (hx : x ≤ 0) :
    ∃ f, scaleDouble n x = some f := by
  refine exists_scaleDouble hn ?_
  have hpow : (10 : ℚ) ^ x ≤ 1 := zpow_le_one_of_nonpos₀ (by norm_num) hx
  have hle : (n : ℚ) ≤ safeBound := by exact_mod_cast hn.trans maxSignificand_le_safeBound
  exact (mul_le_of_le_one_right (Nat.cast_nonneg n) hpow).trans hle

def exponentDigits (positive : Bool) (significand : Nat) (start : Int) (positiveExponent : Bool) :
    Reader Number := do
  match ← next with
  | none => fail .endInValue
  | some c =>
    if !c.isDigit then fail .badNumber
    else
      let digits ← digitRun
      let size := (c :: digits).foldl (fun n d => n * 10 + (d.toNat - '0'.toNat)) 0
      if size > 2147483647 then
        if significand ≠ 0 && positiveExponent then fail .numberTooLarge
        else return .double (if positive then (0.0 : Float) else -0.0).toBits
      else
        double positive significand
          (if positiveExponent then start + Int.ofNat size else start - Int.ofNat size)

theorem exponentPart_eq (positive : Bool) (significand : Nat) (start : Int) :
    exponentPart positive significand start = (do
      skip
      match ← peek with
      | some '+' =>
        skip
        exponentDigits positive significand start true
      | some '-' =>
        skip
        exponentDigits positive significand start false
      | _ => exponentDigits positive significand start true) := rfl

theorem runs_exponentPart_plus {n : Nat} {x : Int} {text : List Char} {a : Number}
    (h : Runs (exponentDigits positive n x true) text a rest) :
    Runs (exponentPart positive n x) ('e' :: '+' :: text) a rest := by
  rw [exponentPart_eq]
  exact (runs_skip 'e' _).bind ((runs_peek _).bind ((runs_skip '+' text).bind h))

theorem runs_exponentPart_minus {n : Nat} {x : Int} {text : List Char} {a : Number}
    (h : Runs (exponentDigits positive n x false) text a rest) :
    Runs (exponentPart positive n x) ('e' :: '-' :: text) a rest := by
  rw [exponentPart_eq]
  exact (runs_skip 'e' _).bind ((runs_peek _).bind ((runs_skip '-' text).bind h))

theorem runs_exponentDigits {n size : Nat} {x : Int} {positiveExponent : Bool} {a : Number}
    (hrest : Stops rest)
    (hgreat : size > 2147483647 → positiveExponent = false ∧
      Runs (return .double (if positive then (0.0 : Float) else -0.0).toBits) rest a rest)
    (hsmall : size ≤ 2147483647 → Runs (double positive n
      (if positiveExponent then x + size else x - size)) rest a rest) :
    Runs (exponentDigits positive n x positiveExponent) (digitChars size ++ rest) a rest := by
  obtain ⟨c, cs, hdigits⟩ :=
    List.exists_cons_of_ne_nil (show digitChars size ≠ [] from Nat.toDigits_ne_nil)
  have hall : ∀ d ∈ c :: cs, d.isDigit = true :=
    fun d hd => isDigit_of_mem_digitChars (hdigits ▸ hd)
  have hsize : (c :: cs).foldl (fun n d => n * 10 + (d.toNat - '0'.toNat)) 0 = size := by
    rw [foldl_eq_ofDigitChars, ← hdigits, ofDigitChars_digitChars]
  rw [hdigits]
  refine (runs_next c _).bind ?_
  simp only [hall c (.head _), Bool.not_true, Bool.false_eq_true, if_false]
  refine (runs_takeWhile (fun d hd => hall d (.tail _ hd)) hrest.isDigit).bind ?_
  rw [hsize]
  split
  · rename_i hover
    obtain ⟨rfl, hzero⟩ := hgreat hover
    simpa using hzero
  · rename_i hunder
    exact hsmall (Nat.le_of_not_lt hunder)

/-- An exponent of a decimal that is within bounds. -/
theorem exists_runs_exponentPart (positive : Bool) {n : Nat} {x e : Int} (hn : n ≤ maxSignificand) (he : e ≤ 308)
    (h : ∃ f, scaleDouble n (x + e) = some f) : ∃ bits, (Number.double bits).IsReadable ∧
      ∀ rest, Stops rest → Runs (exponentPart positive n x)
        ('e' :: (if e < 0 then '-' else '+') :: (digitChars e.natAbs ++ rest)) (.double bits)
        rest := by
  obtain ⟨bits, hbits, hruns⟩ := exists_runs_double positive hn h
  by_cases hneg : e < 0
  · have hx : x - (e.natAbs : Int) = x + e := by omega
    simp only [hneg, if_true]
    by_cases hgreat : e.natAbs > 2147483647
    · refine ⟨_, isReadable_toBits (f := 0.0) rfl positive, fun rest hrest => ?_⟩
      refine runs_exponentPart_minus
        (runs_exponentDigits hrest (fun _ => ⟨rfl, Runs.pure _ rest⟩) ?_)
      intro hsmall
      omega
    · refine ⟨bits, hbits, fun rest hrest => ?_⟩
      refine runs_exponentPart_minus (runs_exponentDigits hrest (fun h => absurd h hgreat) ?_)
      intro _
      simp only [Bool.false_eq_true, if_false, hx]
      exact hruns rest
  · have hx : x + (e.natAbs : Int) = x + e := by omega
    simp only [hneg, if_false]
    refine ⟨bits, hbits, fun rest hrest => ?_⟩
    refine runs_exponentPart_plus (runs_exponentDigits hrest (fun h => ?_) ?_)
    · omega
    · intro _
      simp only [if_true, hx]
      exact hruns rest

def afterFraction (positive : Bool) (significand : Nat) (exponent : Int) : Reader Number := do
  if ← atExponent then exponentPart positive significand exponent
  else double positive significand exponent

theorem runs_fractionPart (positive : Bool) {n : Nat} (hn : n ≤ maxSignificand) {fs : List Char} (hne : fs ≠ [])
    (hfs : ∀ c ∈ fs, c.isDigit = true) : ∃ pre post, fs = pre ++ post ∧
      Nat.ofDigitChars 10 pre n ≤ maxSignificand ∧
      (Nat.ofDigitChars 10 fs n ≤ maxSignificand → post = []) ∧
      ∀ text a rest, (∀ c ∈ text.head?, c.isDigit = false) →
        Runs (afterFraction positive (Nat.ofDigitChars 10 pre n) (-pre.length)) text a rest →
        Runs (fractionPart positive n 0) ('.' :: (fs ++ text)) a rest := by
  obtain ⟨pre, post, hsplit, htake, hle, hall⟩ := takeDigits_spec fs hn 0
  refine ⟨pre, post, hsplit, hle, hall, fun text a rest htext h => ?_⟩
  have hempty : fs.isEmpty = false := by simpa using hne
  refine (runs_skip '.' _).bind ((runs_takeWhile hfs htext).bind ?_)
  simp only [hempty, Bool.false_eq_true, if_false, htake, Nat.zero_add, Int.ofNat_eq_natCast,
    Int.zero_sub]
  exact h

/-! ## Numbers after their sign -/

def afterWhole (positive : Bool) (significand : Nat) (exponent : Int) (left : Bool) :
    Reader Number := do
  if (← peek) == some '.' then fractionPart positive significand exponent
  else if ← atExponent then exponentPart positive significand exponent
  else if left then double positive significand exponent
  else if positive then return .integer significand
  else if significand = 0 || significand > 0x8000000000000000 then double false significand 0
  else return .integer (-significand)

def afterDigits (positive : Bool) (c : Char) (digits : List Char) : Reader Number := do
  if c = '0' && (← peek).any Char.isDigit then failNext .badNumber
  else
    let (significand, taken, left) := takeDigits 0 0 digits
    afterWhole positive significand (Int.ofNat (digits.length - taken)) left

theorem number_eq (positive : Bool) : number positive = (do
    match ← peek with
    | none => fail .endInValue
    | some c =>
      if !c.isDigit then
        skip
        fail .badNumber
      else if c = '0' then
        skip
        afterDigits positive c ['0']
      else
        let digits ← digitRun
        afterDigits positive c digits) := rfl

theorem runs_number {digits text : List Char} {a : Number} (h : IsWhole digits)
    (hfits : Nat.ofDigitChars 10 digits 0 ≤ maxSignificand)
    (htext : ∀ c ∈ text.head?, c.isDigit = false)
    (hruns : Runs (afterWhole positive (Nat.ofDigitChars 10 digits 0) 0 false) text a rest) :
    Runs (number positive) (digits ++ text) a rest := by
  have hpeek : Option.any Char.isDigit text.head? = false := by
    cases text with
    | nil => rfl
    | cons d text => exact htext d rfl
  have hafter : ∀ c, Runs (afterDigits positive c digits) text a rest := by
    intro c
    obtain ⟨pre, post, hsplit, htake, -, hall⟩ := takeDigits_spec digits (Nat.zero_le _) 0
    obtain rfl := hall hfits
    rw [List.append_nil] at hsplit
    subst hsplit
    refine (runs_peek text).bind ?_
    simp only [htake, hpeek, Bool.and_false, Bool.false_eq_true, if_false, Nat.zero_add,
      Nat.sub_self, List.isEmpty_nil, Bool.not_true]
    exact hruns
  rw [number_eq]
  obtain rfl | ⟨c, cs, rfl, hc⟩ := h.head
  · exact (runs_peek _).bind ((runs_skip '0' text).bind (hafter '0'))
  · have hdigit : c.isDigit = true := h.isDigit c (.head _)
    refine (runs_peek _).bind ?_
    simp only [List.cons_append, List.head?_cons, hdigit, hc, Bool.not_true, Bool.false_eq_true,
      if_false]
    exact (runs_takeWhile h.isDigit htext).bind (hafter c)

/-- The text of a number without its sign. -/
def IsNumeral (positive : Bool) (text : List Char) (a : Number) : Prop :=
  ∀ rest, Stops rest → Runs (number positive) (text ++ rest) a rest

theorem runs_afterWhole_end {n : Nat} (hrest : Stops rest) {a : Number}
    (h : Runs (if positive then return .integer n
      else if n = 0 || n > 0x8000000000000000 then double false n 0
      else return .integer (-n)) rest a rest) :
    Runs (afterWhole positive n 0 false) rest a rest := by
  have hpoint : (rest.head? == some '.') = false := by
    cases rest with
    | nil => rfl
    | cons c rest => simpa using (hrest c rfl).2.1
  refine (runs_peek rest).bind ?_
  rw [hpoint]
  exact (runs_atExponent_stop hrest).bind h

theorem isNumeral_digitChars {n : Nat} (hn : n ≤ maxSignificand) :
    IsNumeral true (digitChars n) (.integer n) := by
  intro rest hrest
  refine runs_number (isWhole_digitChars n) ?_ hrest.isDigit ?_
  · rwa [ofDigitChars_digitChars]
  · rw [ofDigitChars_digitChars]
    exact runs_afterWhole_end hrest (Runs.pure _ rest)

theorem isNumeral_negative {n : Nat} (hpos : 0 < n) (hn : n ≤ 0x8000000000000000) :
    IsNumeral false (digitChars n) (.integer (-n)) := by
  intro rest hrest
  refine runs_number (isWhole_digitChars n) ?_ hrest.isDigit ?_
  · rw [ofDigitChars_digitChars]
    exact hn.trans (by decide)
  · rw [ofDigitChars_digitChars]
    refine runs_afterWhole_end hrest ?_
    have hsmall : (n = 0 || n > 0x8000000000000000) = false := by
      simp only [Bool.or_eq_false_iff, decide_eq_false_iff_not]
      omega
    rw [if_neg (by decide), if_neg (by simp only [hsmall]; decide)]
    exact Runs.pure _ rest

/-- Digits on both sides of a point. -/
theorem exists_isNumeral_fraction (positive : Bool) {ds fs : List Char} (h : IsWhole ds)
    (hfits : Nat.ofDigitChars 10 ds 0 ≤ maxSignificand) (hne : fs ≠ [])
    (hfs : ∀ c ∈ fs, c.isDigit = true) :
    ∃ bits, (Number.double bits).IsReadable ∧
      IsNumeral positive (ds ++ '.' :: fs) (.double bits) := by
  obtain ⟨pre, -, -, hle, -, hruns⟩ := runs_fractionPart positive hfits hne hfs
  obtain ⟨bits, hbits, hdouble⟩ := exists_runs_double positive hle
    (exists_scaleDouble_of_nonpos hle (x := -pre.length) (by omega))
  refine ⟨bits, hbits, fun rest hrest => ?_⟩
  rw [List.append_assoc]
  refine runs_number h hfits (by simp) ((runs_peek _).bind ?_)
  exact hruns rest _ rest hrest.isDigit ((runs_atExponent_stop hrest).bind (hdouble rest))

theorem isDigit_of_mem_replicate {n : Nat} {c : Char} (h : c ∈ List.replicate n '0') :
    c.isDigit = true := by
  rw [List.eq_of_mem_replicate h]
  rfl

theorem ofDigitChars_le_maxSignificand {cs : List Char} (h : ∀ c ∈ cs, c.isDigit = true)
    (hlength : cs.length ≤ 16) : Nat.ofDigitChars 10 cs 0 ≤ maxSignificand := by
  have hlt := ofDigitChars_lt h 0
  have hpow : 10 ^ cs.length ≤ 10 ^ 16 := Nat.pow_le_pow_right (by decide) hlength
  have hmax : 10 ^ 16 ≤ maxSignificand := by decide
  omega

theorem exists_isNumeral_positional (positive : Bool) {n : Nat} {point : Int} (hpoint : point ≤ 16)
    (hzero : n = 0 → point ≤ 1) : ∃ bits, (Number.double bits).IsReadable ∧
      IsNumeral positive (positionalText (digitChars n) point true) (.double bits) := by
  have hwhole := isWhole_digitChars n
  have hne : digitChars n ≠ [] := Nat.toDigits_ne_nil
  unfold positionalText
  split
  · refine exists_isNumeral_fraction positive isWhole_zero (by decide)
      (by simp [hne]) ?_
    intro c hc
    obtain hc | hc := List.mem_append.1 hc
    · exact isDigit_of_mem_replicate hc
    · exact isDigit_of_mem_digitChars hc
  · split
    · rename_i hinside
      refine exists_isNumeral_fraction positive (hwhole.take (by omega)) ?_ ?_ ?_
      · refine ofDigitChars_le_maxSignificand (hwhole.take (by omega)).isDigit ?_
        rw [List.length_take]
        omega
      · simpa using hinside
      · exact fun c hc => isDigit_of_mem_digitChars (List.mem_of_mem_drop hc)
    · rename_i hpositive hbeyond
      have hzeros : ∀ c ∈ List.replicate (point.toNat - (digitChars n).length) '0',
          c.isDigit = true := fun c hc => isDigit_of_mem_replicate hc
      have hdigits : IsWhole (digitChars n ++
          List.replicate (point.toNat - (digitChars n).length) '0') := by
        by_cases hn : n = 0
        · have hpoint : point.toNat - (digitChars n).length = 0 := by
            have := List.length_pos_iff.2 hne
            have := hzero hn
            omega
          rw [hpoint, List.replicate_zero, List.append_nil]
          exact hwhole
        · obtain ⟨c, cs, hcs, hc⟩ := digitChars_ne_zero hn
          refine hwhole.append ?_ hzeros
          rw [hcs]
          intro heq
          exact hc (List.cons.inj heq).1
      rw [if_pos rfl]
      refine exists_isNumeral_fraction positive hdigits ?_ (by decide) isWhole_zero.isDigit
      refine ofDigitChars_le_maxSignificand hdigits.isDigit ?_
      rw [List.length_append, List.length_replicate]
      omega

theorem pow_length_le {n : Nat} (hn : n ≠ 0) {c : Char} {cs : List Char}
    (h : digitChars n = c :: cs) : 10 ^ cs.length ≤ n := by
  refine Nat.le_of_not_lt fun hlt => ?_
  obtain hnil | hpos := Nat.eq_zero_or_pos cs.length
  · rw [hnil] at hlt
    omega
  · have hlength := (Nat.length_toDigits_le_iff (by decide) hpos).2 hlt
    change (digitChars n).length ≤ cs.length at hlength
    rw [h, List.length_cons] at hlength
    omega

section Exponent
variable {d : Digits} {c : Char} {cs : List Char}

theorem place_le (hd : d.digits ≠ 0) (h : digitChars d.digits = c :: cs)
    (hvalue : d.value < 10 ^ (309 : ℤ)) : d.exponent + cs.length ≤ 308 := by
  have hlt : (10 : ℚ) ^ (d.exponent + cs.length) < 10 ^ (309 : ℤ) := by
    refine lt_of_le_of_lt ?_ hvalue
    rw [add_comm, zpow_add₀ (by norm_num), zpow_natCast, Digits.value]
    refine mul_le_mul_of_nonneg_right ?_ (zpow_nonneg (by norm_num) _)
    exact_mod_cast pow_length_le hd h
  have := (zpow_lt_zpow_iff_right₀ (by norm_num : (1 : ℚ) < 10)).1 hlt
  omega

/-- What is taken of the digits does not stand for more than all of them. -/
theorem prefix_value_le {pre post : List Char} (h : digitChars d.digits = c :: (pre ++ post)) :
    (Nat.ofDigitChars 10 pre (Nat.ofDigitChars 10 [c] 0) : ℚ) *
        10 ^ (-pre.length + (d.exponent + (pre ++ post).length)) ≤ d.value ∧
      (post = [] → Nat.ofDigitChars 10 pre (Nat.ofDigitChars 10 [c] 0) = d.digits ∧
        -pre.length + (d.exponent + (pre ++ post).length) = d.exponent) := by
  have hsum : d.digits = 10 ^ post.length * Nat.ofDigitChars 10 pre (Nat.ofDigitChars 10 [c] 0) +
      Nat.ofDigitChars 10 post 0 := by
    rw [← Nat.ofDigitChars_append, ← ofDigitChars_append_eq, ← ofDigitChars_digitChars d.digits, h]
    rfl
  have hplace : -(pre.length : Int) + (d.exponent + (pre ++ post).length) =
      post.length + d.exponent := by
    rw [List.length_append]
    omega
  generalize Nat.ofDigitChars 10 pre (Nat.ofDigitChars 10 [c] 0) = n at hsum ⊢
  rw [hplace]
  constructor
  · rw [zpow_add₀ (by norm_num), zpow_natCast, ← mul_assoc, Digits.value]
    refine mul_le_mul_of_nonneg_right ?_ (zpow_nonneg (by norm_num) _)
    rw [mul_comm]
    exact_mod_cast hsum ▸ Nat.le_add_right _ _
  · rintro rfl
    simpa using hsum.symm

theorem exponentText_append (e : Int) (rest : List Char) : exponentText (c :: cs) e ++ rest =
    [c] ++ ((if cs = [] then [] else '.' :: cs) ++
      ('e' :: (if e < 0 then '-' else '+') :: (digitChars e.natAbs ++ rest))) := by
  cases cs with
  | nil => simp [exponentText]
  | cons => simp [exponentText]

theorem exists_isNumeral_exponent (positive : Bool) (hd : d.digits ≠ 0) (hvalue : d.value < 10 ^ (309 : ℤ))
    (hscale : ∀ (n : Nat) (x : Int), n ≤ maxSignificand → (n : ℚ) * 10 ^ x ≤ d.value →
      (d.digits ≤ maxSignificand → n = d.digits ∧ x = d.exponent) →
        ∃ f, scaleDouble n x = some f) :
    ∃ bits, (Number.double bits).IsReadable ∧ IsNumeral positive
      (exponentText (digitChars d.digits) (d.exponent + (digitChars d.digits).length - 1))
        (.double bits) := by
  obtain ⟨c, cs, hcs, -⟩ := digitChars_ne_zero hd
  have hwhole : IsWhole [c] := by
    have := (isWhole_digitChars d.digits).take (n := 1) (by decide)
    rwa [hcs] at this
  have hfits := ofDigitChars_le_maxSignificand hwhole.isDigit (by simp)
  have hplace : d.exponent + (c :: cs).length - 1 = d.exponent + cs.length := by
    rw [List.length_cons]
    omega
  have hsmall := place_le hd hcs hvalue
  rw [hcs, hplace]
  -- the digits after the first may all be taken, or only some of them
  have hread : ∀ pre post, cs = pre ++ post →
      Nat.ofDigitChars 10 pre (Nat.ofDigitChars 10 [c] 0) ≤ maxSignificand →
      (Nat.ofDigitChars 10 cs (Nat.ofDigitChars 10 [c] 0) ≤ maxSignificand → post = []) →
        ∃ f, scaleDouble (Nat.ofDigitChars 10 pre (Nat.ofDigitChars 10 [c] 0))
          (-pre.length + (d.exponent + cs.length)) = some f := by
    rintro pre post rfl hle hall
    obtain ⟨hvalue', hwhole⟩ := prefix_value_le hcs
    refine hscale _ _ hle hvalue' fun hmax => hwhole (hall ?_)
    rw [← Nat.ofDigitChars_append]
    have hdigits := ofDigitChars_digitChars d.digits
    rw [hcs] at hdigits
    exact hdigits.trans_le hmax
  generalize d.exponent + (cs.length : Int) = e at hsmall hread
  obtain rfl | hne := eq_or_ne cs []
  · have hscale := hread [] [] rfl hfits fun _ => rfl
    rw [List.length_nil, Nat.cast_zero, neg_zero] at hscale
    obtain ⟨bits, hbits, hruns⟩ :=
      exists_runs_exponentPart positive hfits hsmall hscale
    refine ⟨bits, hbits, fun rest hrest => ?_⟩
    rw [exponentText_append, if_pos rfl, List.nil_append]
    refine runs_number hwhole hfits (by simp) ((runs_peek _).bind ?_)
    exact (runs_atExponent_mark _).bind (hruns rest hrest)
  · obtain ⟨pre, post, hsplit, hle, hall, hfraction⟩ :=
      runs_fractionPart positive hfits
      hne fun x hx => isDigit_of_mem_digitChars (hcs ▸ List.mem_cons_of_mem c hx)
    obtain ⟨bits, hbits, hruns⟩ := exists_runs_exponentPart positive hle hsmall
      (hread pre post hsplit hle hall)
    refine ⟨bits, hbits, fun rest hrest => ?_⟩
    rw [exponentText_append, if_neg hne, List.cons_append]
    refine runs_number hwhole hfits (by simp) ((runs_peek _).bind ?_)
    exact hfraction _ _ rest (by simp) ((runs_atExponent_mark _).bind (hruns rest hrest))

end Exponent

/-! ## What a number can be -/

theorem takeDigits_le {n : Nat} (hn : n ≤ maxSignificand) (taken : Nat) (cs : List Char) :
    (takeDigits n taken cs).1 ≤ maxSignificand := by
  obtain ⟨pre, post, -, htake, hle, -⟩ := takeDigits_spec cs hn taken
  rw [htake]
  exact hle

section Yields
variable (positive : Bool) {n : Nat} (x : Int) (hn : n ≤ maxSignificand)
include hn

theorem yields_double : Yields (double positive n x) Number.IsReadable := by
  unfold double
  split
  · exact Yields.fail _
  · rename_i f hf
    exact Yields.pure (isReadable_toBits (isFinite_scaleDouble hn hf) positive)

theorem yields_exponentDigits (b : Bool) :
    Yields (exponentDigits positive n x b) Number.IsReadable := by
  refine Yields.after fun c => ?_
  split
  · exact Yields.fail _
  · split
    · exact Yields.fail _
    · refine Yields.after fun digits => ?_
      dsimp only
      split
      · split
        · exact Yields.fail _
        · exact Yields.pure (isReadable_toBits (f := 0.0) rfl positive)
      · exact yields_double positive _ hn

theorem yields_exponentPart : Yields (exponentPart positive n x) Number.IsReadable := by
  rw [exponentPart_eq]
  refine Yields.after fun _ => Yields.after fun c => ?_
  split
  · exact Yields.after fun _ => yields_exponentDigits positive x hn true
  · exact Yields.after fun _ => yields_exponentDigits positive x hn false
  · exact yields_exponentDigits positive x hn true

theorem yields_fractionPart : Yields (fractionPart positive n x) Number.IsReadable := by
  unfold fractionPart
  refine Yields.after fun _ => Yields.after fun digits => ?_
  split
  · refine Yields.after fun c => ?_
    split
    · exact Yields.failNext _
    · exact Yields.failNext _
  · have hle := takeDigits_le hn 0 digits
    refine Yields.after fun e => ?_
    split
    · exact yields_exponentPart positive _ hle
    · exact yields_double positive _ hle

theorem yields_afterWhole (left : Bool) :
    Yields (afterWhole positive n x left) Number.IsReadable := by
  have hmax : maxSignificand = 0xFFFFFFFFFFFFFFFF := rfl
  refine Yields.after fun c => ?_
  split
  · exact yields_fractionPart positive x hn
  · refine Yields.after fun e => ?_
    split
    · exact yields_exponentPart positive x hn
    · split
      · exact yields_double positive x hn
      · split
        · exact Yields.pure ⟨by omega, by omega⟩
        · split
          · exact yields_double false 0 hn
          · rename_i hrange
            simp only [Bool.or_eq_true, decide_eq_true_eq, not_or, Nat.not_lt] at hrange
            exact Yields.pure ⟨by omega, by omega⟩

end Yields

/-- No text gives a number that is not finite. -/
theorem yields_number (positive : Bool) : Yields (number positive) Number.IsReadable := by
  have hafter : ∀ c digits, Yields (afterDigits positive c digits) Number.IsReadable := by
    intro c digits
    refine Yields.after fun d => ?_
    split
    · exact Yields.failNext _
    · exact yields_afterWhole positive _ (takeDigits_le (Nat.zero_le _) 0 digits) _
  rw [number_eq]
  refine Yields.after fun c => ?_
  split
  · exact Yields.fail _
  · split
    · exact Yields.after fun _ => Yields.fail _
    · split
      · exact Yields.after fun _ => hafter _ _
      · exact Yields.after fun digits => hafter _ digits

/-! ## The texts of numbers -/

theorem exists_isNumeral_doubleText (positive : Bool) {bits : UInt64} (h : (Number.double bits).IsReadable) :
    ∃ text bits', doubleText .json bits = (if bits.toNat ≥ 2 ^ 63 then ['-'] else []) ++ text ∧
      (Number.double bits').IsReadable ∧ IsNumeral positive text (.double bits') := by
  have hbiased : bits.toNat / 2 ^ 52 % 2 ^ 11 ≤ 2046 := by
    have hne : bits.toNat / 2 ^ 52 % 2 ^ 11 ≠ 2047 := h
    omega
  have hfraction : bits.toNat % 2 ^ 52 < 2 ^ 52 := Nat.mod_lt _ (by decide)
  unfold doubleText
  simp only [Nat.pow_eq]
  generalize bits.toNat / 2 ^ 52 % 2 ^ 11 = biased at hbiased
  generalize bits.toNat % 2 ^ 52 = fraction at hfraction
  split
  · obtain ⟨bits', hbits', hnumeral⟩ := exists_isNumeral_fraction positive
      isWhole_zero (by decide) (by decide : ['0'] ≠ []) isWhole_zero.isDigit
    exact ⟨_, bits', rfl, hbits', hnumeral⟩
  · have hzero : (Binary.ofFields biased fraction).shortest.digits = 0 →
        (Binary.ofFields biased fraction).shortest = ⟨0, 0⟩ := by
      intro hzero
      obtain hshortest | ⟨hne, -⟩ := shortest_spec (Binary.ofFields biased fraction)
      · exact hshortest
      · exact absurd hzero hne
    split
    · rename_i hpoint
      simp only [Bool.and_eq_true, decide_eq_true_eq] at hpoint
      have hpoint' : (Binary.ofFields biased fraction).shortest.exponent +
          (digitChars (Binary.ofFields biased fraction).shortest.digits).length ≤ 16 := by
        omega
      obtain ⟨bits', hbits', hnumeral⟩ := exists_isNumeral_positional positive hpoint'
        (n := (Binary.ofFields biased fraction).shortest.digits) (by
          intro hdigits
          rw [hzero hdigits]
          decide)
      exact ⟨_, bits', rfl, hbits', hnumeral⟩
    · rename_i hpoint
      have hne : (Binary.ofFields biased fraction).shortest.digits ≠ 0 := by
        intro hdigits
        rw [hzero hdigits] at hpoint
        exact hpoint (by decide)
      obtain ⟨bits', hbits', hnumeral⟩ := exists_isNumeral_exponent positive hne
        (shortest_value_lt hbiased hfraction)
        (fun n x hn hvalue hall => exists_scaleDouble_shortest hbiased hfraction hn hvalue hall)
      exact ⟨_, bits', rfl, hbits', hnumeral⟩

/-- The text of a number is a numeral with or without a minus before it. -/
theorem exists_isNumeral_text {a : Number} (h : a.IsReadable) :
    ∃ positive text a', a.text = (if positive then [] else ['-']) ++ text ∧ a'.IsReadable ∧
      (∀ n, a = .integer n → a' = a) ∧ IsNumeral positive text a' := by
  cases a with
  | integer n =>
    obtain ⟨hlow, hhigh⟩ := h
    have htext : (Number.integer n).text =
        (if 0 ≤ n then n.toNat.repr else "-" ++ (-n).toNat.repr).toList := by
      rw [Number.text, Int.toString_eq_repr, Int.repr_eq_if]
    by_cases hneg : 0 ≤ n
    · refine ⟨true, digitChars n.toNat, .integer n, ?_, ⟨hlow, hhigh⟩, fun _ _ => rfl, ?_⟩
      · rw [htext, if_pos hneg, Nat.toList_repr]
        rfl
      · have := isNumeral_digitChars (n := n.toNat) (by
          have hmax : maxSignificand = 0xFFFFFFFFFFFFFFFF := rfl
          omega)
        rwa [Int.toNat_of_nonneg hneg] at this
    · refine ⟨false, digitChars (-n).toNat, .integer n, ?_, ⟨hlow, hhigh⟩, fun _ _ => rfl, ?_⟩
      · rw [htext, if_neg hneg, String.toList_append, Nat.toList_repr]
        rfl
      · have := isNumeral_negative (n := (-n).toNat) (by omega) (by omega)
        rwa [Int.toNat_of_nonneg (by omega), neg_neg] at this
  | double bits =>
    obtain ⟨text, bits', htext, hbits', hnumeral⟩ :=
      exists_isNumeral_doubleText (!decide (bits.toNat ≥ 2 ^ 63)) h
    refine ⟨_, text, .double bits', ?_, hbits', fun _ h => (nomatch h), hnumeral⟩
    rw [Number.text, htext]
    by_cases hsign : bits.toNat ≥ 2 ^ 63
    · simp only [hsign, if_true, decide_true, Bool.not_true, Bool.false_eq_true, if_false]
    · simp only [hsign, if_false, decide_false, Bool.not_false, if_true]

end Reader

end TypedRoutes.Json
