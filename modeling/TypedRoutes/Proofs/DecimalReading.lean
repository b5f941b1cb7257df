import TypedRoutes.Json.Reader
import TypedRoutes.Proofs.FiniteDoubles
import Mathlib.Algebra.Order.Field.Power
import Mathlib.Algebra.Order.Field.Rat

/-! # Reading decimals in doubles

A decimal is computed as a significand times a power of ten, each of them rounded and their product
rounded again.  No rounding passes a number beyond what that number is rounded to, so a decimal
whose value keeps half a unit away from the overflow is always read, and what is read is finite.
-/

namespace TypedRoutes.Decimal
open Float.Model Float.Model.UnpackedFloat

/-! ## Rounding of great numbers -/

/-- A natural number to 53 binary digits; half a unit is rounded up. -/
def roundUp (n : Nat) : Nat :=
  if n < 2 ^ 53 then n
  else (2 * n + 2 ^ (n.log2 - 52)) / (2 * 2 ^ (n.log2 - 52)) * 2 ^ (n.log2 - 52)

/-- From here on a number is rounded to infinity. -/
def overflow : Nat := 0x3fffffffffffff * 2 ^ 970

theorem overflow_cast : (overflow : ℚ) = (2 ^ 54 - 1) * 2 ^ (970 : ℤ) := by
  have hpow : ((2 ^ 970 : Nat) : ℚ) = 2 ^ (970 : ℤ) := by
    rw [Nat.cast_pow, zpow_ofNat, Nat.cast_ofNat]
  rw [overflow, Nat.cast_mul, hpow]
  norm_num

theorem two_zpow_1024 : (2 : ℚ) ^ (1024 : ℤ) = 2 ^ 54 * 2 ^ (970 : ℤ) := by
  rw [← zpow_natCast, ← zpow_add₀ (by norm_num)]
  rfl

theorem zpow_lt_of_lt_overflow {m : Nat} {e : Int} (hm : m ≠ 0)
    (h : (m : ℚ) * 2 ^ e < overflow) : m.log2 + e < 1024 := by
  have hlead : (2 : ℚ) ^ (m.log2 : ℤ) ≤ m := by
    rw [zpow_natCast]
    exact_mod_cast Nat.log2_self_le hm
  have hpos : (0 : ℚ) < 2 ^ e := zpow_pos (by norm_num) e
  have hlt : (2 : ℚ) ^ (m.log2 + e : ℤ) < 2 ^ (1024 : ℤ) := by
    calc (2 : ℚ) ^ (m.log2 + e : ℤ) = 2 ^ (m.log2 : ℤ) * 2 ^ e := zpow_add₀ (by norm_num) _ _
      _ ≤ m * 2 ^ e := mul_le_mul_of_nonneg_right hlead hpos.le
      _ < overflow := h
      _ ≤ 2 ^ (1024 : ℤ) := by
        rw [overflow_cast, two_zpow_1024]
        exact mul_le_mul_of_nonneg_right (by norm_num) (zpow_pos (by norm_num) _).le
  exact (zpow_lt_zpow_iff_right₀ (by norm_num)).1 hlt

theorem firstShift_normal {m k : Nat} {e : Int} (hk : m.log2 = 52 + k)
    (hlow : -1022 ≤ m.log2 + e) : firstShift m e .exact =
      (ExtendedMantissa.ofMantissaAndAccuracy m .exact >>> k, e + k) := by
  have hamount : (max ((m.log2 : Int) + e - 52) (-1074) - e).toNat = k := by omega
  rw [firstShift_eq, hamount]

theorem two_pow_le_roundedMantissa {m k : Nat} (hm : m ≠ 0) (hk : m.log2 = 52 + k) :
    2 ^ 52 ≤ (ExtendedMantissa.ofMantissaAndAccuracy m .exact >>> k).roundedMantissa := by
  refine Nat.le_trans ?_ (roundedMantissa_le _).1
  rw [mantissa_shiftRight, mantissa_ofMantissaAndAccuracy,
    Nat.le_div_iff_mul_le (Nat.two_pow_pos k), ← Nat.pow_add, ← hk]
  exact Nat.log2_self_le hm

theorem roundedMantissa_mul_le (m k : Nat) (e : Int) :
    2 * (((ExtendedMantissa.ofMantissaAndAccuracy m .exact >>> k).roundedMantissa : ℚ) *
      2 ^ (e + k)) ≤ 2 * (m * 2 ^ e) + 2 ^ (e + k) := by
  have hhalf : 2 * 2 ^ k *
      ((ExtendedMantissa.ofMantissaAndAccuracy m .exact >>> k).roundedMantissa : ℚ) ≤
        2 * m + 2 ^ k := by
    exact_mod_cast roundedMantissa_exact_le m k
  have hpos : (0 : ℚ) < 2 ^ e := zpow_pos (by norm_num) e
  rw [zpow_add₀ (by norm_num), zpow_natCast]
  nlinarith

/-- A number in the range of normal doubles is rounded to a multiple of its unit, by at most half of
it. -/
theorem unpack_round_exact {s : Sign} {m : Nat} {e : Int} (hlog : 52 ≤ m.log2)
    (hlow : -1022 ≤ m.log2 + e) (hhigh : (m : ℚ) * 2 ^ e < overflow) :
    ∃ r t hr, (Float.Model.pack (roundWithAccuracy Format.binary64 s m e .exact)).unpack =
        .finite s r t hr ∧ r.log2 = 52 ∧ m.log2 + e - 52 ≤ t ∧
      ∃ n : Nat, n ≤ 2 ^ 53 ∧ (r : ℚ) * 2 ^ t = n * 2 ^ (m.log2 + e - 52) ∧
        2 * ((n : ℚ) * 2 ^ (m.log2 + e - 52)) ≤ 2 * (m * 2 ^ e) + 2 ^ (m.log2 + e - 52) := by
  have hm : m ≠ 0 := by
    rintro rfl
    simp at hlog
  have hsmall := zpow_lt_of_lt_overflow hm hhigh
  obtain ⟨k, hk⟩ := Nat.exists_eq_add_of_le hlog
  have hunit : (m.log2 : Int) + e - 52 = e + k := by omega
  rw [hunit]
  have hle := roundedMantissa_firstShift_le m e .exact
  have hlead := two_pow_le_roundedMantissa hm hk
  have hbound := roundedMantissa_mul_le m k e
  have hround := roundWithAccuracy_eq s m e .exact
  rw [firstShift_normal hk hlow] at hle hround
  dsimp only at hle hround
  generalize (ExtendedMantissa.ofMantissaAndAccuracy m .exact >>> k).roundedMantissa = n
    at hle hlead hbound hround
  rw [dif_neg (by omega : n ≠ 0)] at hround
  by_cases hlt : n < 2 ^ 53
  · rw [if_pos hlt] at hround
    refine ⟨n, e + k, by omega, ?_, (Nat.log2_eq_iff (by omega)).2 ⟨hlead, hlt⟩, Int.le_refl _,
      n, hle, rfl, hbound⟩
    rw [hround]
    exact unpack_pack ⟨hlt, by omega, by omega, .inl hlead⟩ s _
  · rw [if_neg hlt] at hround
    obtain rfl : n = 2 ^ 53 := by omega
    -- a mantissa as long as this belongs to a number that is rounded to infinity
    have htop : e + k ≠ 971 := by
      intro htop
      have htwice : (2 : ℚ) ^ (971 : ℤ) = 2 * 2 ^ (970 : ℤ) := by
        rw [← zpow_one_add₀ (by norm_num)]
        rfl
      rw [htop, Nat.cast_pow, Nat.cast_ofNat, htwice] at hbound
      rw [overflow_cast] at hhigh
      linarith
    refine ⟨2 ^ 52, e + k + 1, by decide, ?_, Nat.log2_two_pow, by omega, 2 ^ 53, Nat.le_refl _,
      ?_, hbound⟩
    · rw [hround]
      exact unpack_pack ⟨by decide, by omega, by omega, .inl (Nat.le_refl _)⟩ s _
    · rw [zpow_add₀ (by norm_num) (e + k : ℤ) 1]
      push_cast
      ring

theorem two_pow_log2_le_roundUp {v : Nat} (hv : v ≠ 0) : 2 ^ v.log2 ≤ roundUp v := by
  have hlead := Nat.log2_self_le hv
  unfold roundUp
  split
  · exact hlead
  · have hlog : 53 ≤ v.log2 := (Nat.le_log2 hv).2 (by omega)
    have hsplit : 2 ^ v.log2 = 2 ^ 52 * 2 ^ (v.log2 - 52) := by
      rw [← Nat.pow_add]
      congr 1
      omega
    rw [hsplit]
    refine Nat.mul_le_mul_right _ ((Nat.le_div_iff_mul_le (by positivity)).2 ?_)
    nlinarith

/-- A multiple of a unit no greater than that of a number is at most that number rounded, if it is
at most half a unit above it. -/
theorem le_roundUp {v n : Nat} {unit : Int} (hv : v ≠ 0) (hn : n ≤ 2 ^ 53)
    (hunit : unit ≤ v.log2 - 52) (h : 2 * ((n : ℚ) * 2 ^ unit) ≤ 2 * v + 2 ^ unit) :
    (n : ℚ) * 2 ^ unit ≤ roundUp v := by
  have hpos : (0 : ℚ) < 2 ^ unit := zpow_pos (by norm_num) unit
  by_cases hsmall : v < 2 ^ 53
  · have hlog : v.log2 ≤ 52 := by
      have := (Nat.log2_lt hv).2 hsmall
      omega
    obtain ⟨k, rfl⟩ : ∃ k : Nat, unit = -k := ⟨(-unit).toNat, by omega⟩
    have hscaled : 2 * n ≤ 2 * (v * 2 ^ k) + 1 := by
      have hcancel : (2 : ℚ) ^ (-(k : ℤ)) * 2 ^ k = 1 := by
        rw [← zpow_natCast, ← zpow_add₀ (by norm_num)]
        simp
      have hk : (0 : ℚ) < 2 ^ k := by positivity
      have hmul := mul_le_mul_of_nonneg_right h hk.le
      have hcast : 2 * (n : ℚ) ≤ 2 * (v * 2 ^ k) + 1 := by
        calc 2 * (n : ℚ) = 2 * (n * (2 ^ (-(k : ℤ)) * 2 ^ k)) := by rw [hcancel, mul_one]
          _ = 2 * (n * 2 ^ (-(k : ℤ))) * 2 ^ k := by ring
          _ ≤ (2 * v + 2 ^ (-(k : ℤ))) * 2 ^ k := hmul
          _ = 2 * (v * 2 ^ k) + 2 ^ (-(k : ℤ)) * 2 ^ k := by ring
          _ = 2 * (v * 2 ^ k) + 1 := by rw [hcancel]
      exact_mod_cast hcast
    have hle : n ≤ v * 2 ^ k := by omega
    rw [roundUp, if_pos hsmall, zpow_neg, zpow_natCast, ← div_eq_mul_inv,
      div_le_iff₀ (by positivity)]
    exact_mod_cast hle
  · have hlog : 53 ≤ v.log2 := (Nat.le_log2 hv).2 (by omega)
    by_cases hsame : unit = v.log2 - 52
    · obtain ⟨k, hk⟩ : ∃ k : Nat, v.log2 - 52 = k := ⟨_, rfl⟩
      obtain rfl : unit = k := by omega
      have hnat : n * (2 * 2 ^ k) ≤ 2 * v + 2 ^ k := by
        rw [zpow_natCast] at h
        have : (n : ℚ) * (2 * 2 ^ k) ≤ 2 * v + 2 ^ k := by linarith
        exact_mod_cast this
      have hle : n ≤ (2 * v + 2 ^ k) / (2 * 2 ^ k) :=
        (Nat.le_div_iff_mul_le (by positivity)).2 hnat
      rw [roundUp, if_neg hsmall, hk, zpow_natCast]
      exact_mod_cast Nat.mul_le_mul_right (2 ^ k) hle
    · calc (n : ℚ) * 2 ^ unit ≤ 2 ^ (53 : ℤ) * 2 ^ unit := by
            refine mul_le_mul_of_nonneg_right ?_ hpos.le
            rw [zpow_ofNat]
            exact_mod_cast hn
        _ = 2 ^ (53 + unit) := (zpow_add₀ (by norm_num) _ _).symm
        _ ≤ 2 ^ (v.log2 : ℤ) := zpow_le_zpow_right₀ (by norm_num) (by omega)
        _ ≤ roundUp v := by
            rw [zpow_natCast]
            exact_mod_cast two_pow_log2_le_roundUp hv

/-- Rounding does not pass a number beyond what that number is rounded to. -/
theorem unpack_round_le {s : Sign} {m v : Nat} {e : Int} (hlog : 52 ≤ m.log2)
    (hlow : -1022 ≤ m.log2 + e) (hv : (m : ℚ) * 2 ^ e ≤ v) (hhigh : v < overflow) :
    ∃ r t hr, (Float.Model.pack (roundWithAccuracy Format.binary64 s m e .exact)).unpack =
        .finite s r t hr ∧ r.log2 = 52 ∧ m.log2 + e - 52 ≤ t ∧ (r : ℚ) * 2 ^ t ≤ roundUp v := by
  have hlt : (m : ℚ) * 2 ^ e < overflow := lt_of_le_of_lt hv (by exact_mod_cast hhigh)
  obtain ⟨r, t, hr, hunpack, hrlog, ht, n, hn, hvalue, hhalf⟩ :=
    unpack_round_exact (s := s) hlog hlow hlt
  refine ⟨r, t, hr, hunpack, hrlog, ht, ?_⟩
  rw [hvalue]
  have hm : m ≠ 0 := by
    rintro rfl
    simp at hlog
  have hpos : (0 : ℚ) < 2 ^ e := zpow_pos (by norm_num) e
  have hlead : (2 : ℚ) ^ (m.log2 + e : ℤ) ≤ m * 2 ^ e := by
    rw [zpow_add₀ (by norm_num), zpow_natCast]
    exact mul_le_mul_of_nonneg_right (by exact_mod_cast Nat.log2_self_le hm) hpos.le
  have hvne : v ≠ 0 := by
    rintro rfl
    have : (0 : ℚ) < 2 ^ (m.log2 + e : ℤ) := zpow_pos (by norm_num) _
    rw [Nat.cast_zero] at hv
    linarith
  have hunit : (m.log2 : Int) + e < v.log2 + 1 := by
    have hlt : (2 : ℚ) ^ (m.log2 + e : ℤ) < 2 ^ (v.log2 + 1 : ℤ) := by
      refine lt_of_le_of_lt (hlead.trans hv) ?_
      have hself : (v : ℚ) < 2 ^ (v.log2 + 1) := by exact_mod_cast Nat.lt_log2_self
      exact_mod_cast hself
    exact (zpow_lt_zpow_iff_right₀ (by norm_num)).1 hlt
  refine le_roundUp hvne hn (by omega) (hhalf.trans ?_)
  linarith

/-! ## Products of natural numbers -/

/-- A positive double that is at most a natural number, with 53 digits of which the last is not far
behind the point. -/
def AtMost (f : Float) (v : Nat) : Prop :=
  ∃ m e hm, f.toModel.unpack = .finite .positive m e hm ∧ m.log2 = 52 ∧ -52 ≤ e ∧
    (m : ℚ) * 2 ^ e ≤ v

theorem AtMost.isFinite {f : Float} {v : Nat} (h : AtMost f v) : f.isFinite = true := by
  obtain ⟨m, e, hm, h, -⟩ := h
  change f.toModel.unpack.isFinite = true
  rw [h]
  rfl

theorem AtMost.isInf {f : Float} {v : Nat} (h : AtMost f v) : f.isInf = false := by
  obtain ⟨m, e, hm, h, -⟩ := h
  change f.toModel.unpack.isInf = false
  rw [h]
  rfl

theorem log2_mul_two_pow {n : Nat} (hn : n ≠ 0) (k : Nat) : (n * 2 ^ k).log2 = n.log2 + k := by
  have hlead := Nat.log2_self_le hn
  have hlt := Nat.lt_log2_self (n := n)
  refine (Nat.log2_eq_iff (by positivity)).2 ⟨?_, ?_⟩
  · rw [Nat.pow_add]
    exact Nat.mul_le_mul_right _ hlead
  · have hsplit : n.log2 + k + 1 = n.log2 + 1 + k := by omega
    rw [hsplit, Nat.pow_add]
    exact Nat.mul_lt_mul_of_pos_right hlt (Nat.two_pow_pos k)

theorem atMost_mul {a b : Float} {v w u : Nat} (ha : AtMost a v) (hb : AtMost b w)
    (hu : v * w ≤ u) (h : u < overflow) : AtMost (a * b) (roundUp u) := by
  obtain ⟨m, e, hm, hua, hlog, he, hv⟩ := ha
  obtain ⟨m', e', hm', hub, hlog', he', hw⟩ := hb
  have hmul : (a * b).toModel = .pack (roundWithAccuracy Format.binary64 (.positive * .positive)
      (m * m') (e + e') .exact) := by
    change Float.Model.pack
      (UnpackedFloat.mul Format.binary64 a.toModel.unpack b.toModel.unpack) = _
    rw [hua, hub]
    rfl
  have hproduct : 104 ≤ (m * m').log2 := by
    have hlead := (Nat.log2_eq_iff (by omega)).1 hlog
    have hlead' := (Nat.log2_eq_iff (by omega)).1 hlog'
    refine (Nat.le_log2 (Nat.mul_pos hm hm').ne').2 ?_
    calc 2 ^ 104 = 2 ^ 52 * 2 ^ 52 := by rw [← Nat.pow_add]
      _ ≤ m * m' := Nat.mul_le_mul hlead.1 hlead'.1
  have hvalue : ((m * m' : Nat) : ℚ) * 2 ^ (e + e') ≤ u := by
    have hpos' : (0 : ℚ) ≤ m' * 2 ^ e' :=
      mul_nonneg (Nat.cast_nonneg m') (zpow_nonneg (by norm_num) e')
    rw [zpow_add₀ (by norm_num), Nat.cast_mul]
    calc (m : ℚ) * m' * (2 ^ e * 2 ^ e') = (m * 2 ^ e) * (m' * 2 ^ e') := by ring
      _ ≤ v * w := mul_le_mul hv hw hpos' (Nat.cast_nonneg v)
      _ ≤ u := by exact_mod_cast hu
  obtain ⟨r, t, hr, hunpack, hrlog, ht, hle⟩ := unpack_round_le (s := .positive * .positive)
    (by omega : 52 ≤ (m * m').log2) (by omega) hvalue h
  refine ⟨r, t, hr, ?_, hrlog, by omega, hle⟩
  rw [hmul]
  exact hunpack

def isExactPower (x : Nat) : Bool :=
  match Float.exactlyRepresentablePowersOfTen[x]? with
  | some f =>
    match f.toModel.unpack with
    | .finite .positive m e _ =>
      m.log2 == 52 && decide (-52 ≤ e) && m * 2 ^ (e + 52).toNat == 10 ^ x * 2 ^ 52
    | _ => false
  | none => false

theorem isExactPower_of_lt : ∀ x < 23, isExactPower x = true := by decide +kernel

theorem atMost_exactPower {x : Nat} (hx : x < 23) {f : Float}
    (hf : Float.exactlyRepresentablePowersOfTen[x]? = some f) : AtMost f (10 ^ x) := by
  have hexact := isExactPower_of_lt x hx
  unfold isExactPower at hexact
  rw [hf] at hexact
  simp only at hexact
  split at hexact
  · rename_i m e hm hunpack
    simp only [Bool.and_eq_true, beq_iff_eq, decide_eq_true_eq] at hexact
    obtain ⟨⟨hlog, he⟩, hvalue⟩ := hexact
    refine ⟨m, e, hm, hunpack, hlog, he, ?_⟩
    obtain ⟨k, hk⟩ : ∃ k : Nat, e = k - 52 := ⟨(e + 52).toNat, by omega⟩
    have hshift : (e + 52).toNat = k := by omega
    rw [hshift] at hvalue
    have hcast : (m : ℚ) * 2 ^ k = 10 ^ x * 2 ^ 52 := by exact_mod_cast hvalue
    rw [hk, zpow_sub₀ (by norm_num), zpow_natCast, zpow_ofNat, ← mul_div_assoc, hcast]
    push_cast
    rw [mul_div_assoc, div_self (by norm_num), mul_one]
  · cases hexact

theorem roundUp_of_lt {n : Nat} (h : n < 2 ^ 53) : roundUp n = n := if_pos h

theorem atMost_toFloat {n : Nat} (hn : 0 < n) (hlt : n < 2 ^ 53) :
    AtMost n.toUInt64.toFloat n := by
  have hlog : n.log2 ≤ 52 := by
    have := (Nat.log2_lt (by omega)).2 hlt
    omega
  have htoNat : n.toUInt64.toNat = n := by
    rw [Nat.toUInt64_eq, UInt64.toNat_ofNat']
    exact Nat.mod_eq_of_lt (by omega)
  obtain ⟨k, hk⟩ : ∃ k, n.log2 + k = 52 := ⟨52 - n.log2, by omega⟩
  have hround : n.toUInt64.toFloat.toModel =
      .pack (roundWithAccuracy Format.binary64 .positive (n * 2 ^ k) (-k) .exact) := by
    change Float.Model.pack (UnpackedFloat.ofNat Format.binary64 n.toUInt64.toNat) = _
    have hcompare : compare (n : Int) 0 = .gt := Int.compare_eq_gt.2 (by omega)
    have hshift : (-max ((n.log2 : Int) + 0 - 52) (-1074)).toNat = k := by omega
    simp only [htoNat, UnpackedFloat.ofNat, UnpackedFloat.ofInt, UnpackedFloat.normalize, hcompare,
      UnpackedFloat.round, decreaseExponent, Int.toNat_natCast, targetExponent_eq,
      Nat.shiftLeft_eq, Int.zero_sub, hshift]
  have hlog' : (n * 2 ^ k).log2 = 52 := by rw [log2_mul_two_pow (by omega), hk]
  have hvalue : ((n * 2 ^ k : Nat) : ℚ) * 2 ^ (-k : ℤ) ≤ (n : ℚ) := by
    rw [zpow_neg, zpow_natCast]
    push_cast
    rw [mul_assoc, mul_inv_cancel₀ (by positivity), mul_one]
  have hsmall : n < overflow :=
    Nat.lt_of_lt_of_le hlt ((by decide : 2 ^ 53 ≤ 0x3fffffffffffff).trans
      (Nat.le_mul_of_pos_right _ (by positivity)))
  obtain ⟨r, t, hr, hunpack, hrlog, ht, hle⟩ := unpack_round_le (s := .positive)
    (by omega : 52 ≤ (n * 2 ^ k).log2) (by omega) hvalue hsmall
  rw [roundUp_of_lt hlt] at hle
  exact ⟨r, t, hr, by rw [hround]; exact hunpack, hrlog, by omega, hle⟩

theorem atMost_ofScientific {n x v : Nat} (hn : 0 < n) (hx : x ≤ 308) (hv : n * 10 ^ x ≤ v)
    (h : v < overflow) : AtMost (Float.ofScientific n false x) (roundUp v) := by
  by_cases hfast : n < 2 ^ 53 ∧ x ≤ 22
  · rw [Float.ofScientific, dif_pos hfast]
    refine atMost_mul (atMost_toFloat hn hfast.1) (atMost_exactPower (by omega) ?_) hv h
    exact Array.getElem?_eq_getElem _
  · rw [Float.ofScientific, dif_neg hfast]
    have hround : Float.Model.ofScientific n (Int.ofNat x) = .pack (roundWithAccuracy
        Format.binary64 (.positive * .positive) (n <<< 53 * 10 ^ x) (-53) .exact) := by
      have hle : ¬Int.ofNat x > 2 ^ Format.binary64.exponentBits := by
        change ¬(x : Int) > 2 ^ 11
        omega
      have hge : ¬Int.ofNat x < -((2 ^ Format.binary64.exponentBits : Int) + n.log2) := by
        change ¬(x : Int) < -(2 ^ 11 + (n.log2 : Int))
        omega
      have hpos : 0 ≤ Int.ofNat x := Int.natCast_nonneg x
      change Float.Model.pack (UnpackedFloat.ofScientific Format.binary64 n (Int.ofNat x)) = _
      rw [UnpackedFloat.ofScientific, dif_neg (by omega), if_neg hle, if_neg hge, if_pos hpos]
      rfl
    have hfactor : n <<< 53 * 10 ^ x = n * 10 ^ x * 2 ^ 53 := by
      rw [Nat.shiftLeft_eq, Nat.mul_right_comm]
    have hne : n * 10 ^ x ≠ 0 := (Nat.mul_pos hn (Nat.pow_pos (by decide))).ne'
    have hlog : (n <<< 53 * 10 ^ x).log2 = (n * 10 ^ x).log2 + 53 := by
      rw [hfactor, log2_mul_two_pow hne]
    have hvalue : ((n <<< 53 * 10 ^ x : Nat) : ℚ) * 2 ^ (-53 : ℤ) ≤ v := by
      have hscale : ((2 ^ 53 : Nat) : ℚ) * 2 ^ (-53 : ℤ) = 1 := by norm_num
      rw [hfactor, Nat.cast_mul _ (2 ^ 53), mul_assoc, hscale, mul_one]
      exact_mod_cast hv
    obtain ⟨r, t, hr, hunpack, hrlog, ht, hle⟩ := unpack_round_le (s := .positive * .positive)
      (by omega : 52 ≤ (n <<< 53 * 10 ^ x).log2) (by omega) hvalue h
    rw [← hround] at hunpack
    exact ⟨r, t, hr, hunpack, hrlog, by omega, hle⟩

/-! ## Decimals read as doubles -/

open Json.Reader (maxSignificand scaleDouble)

/-- No number up to here is rounded to infinity however it is put together: the second greatest
double and half a unit. -/
def safeBound : Nat := 0x3ffffffffffffd * 2 ^ 970

theorem safeBound_lt_overflow : safeBound < overflow :=
  Nat.mul_lt_mul_of_pos_right (by decide) (by positivity)

theorem maxSignificand_le_safeBound : maxSignificand ≤ safeBound :=
  calc maxSignificand ≤ 0x3ffffffffffffd * 2 ^ 12 := by decide
    _ ≤ safeBound := Nat.mul_le_mul_left _ (pow_le_pow_right₀ (by decide) (by decide))

theorem safeBound_lt_pow_ten : safeBound < 10 ^ 309 :=
  calc safeBound < 2 ^ 54 * 2 ^ 970 :=
        Nat.mul_lt_mul_of_pos_right (by decide) (by positivity)
    _ = (2 ^ 93) ^ 11 * 2 := by rw [← pow_mul, ← pow_add, ← pow_succ]
    _ ≤ (10 ^ 28) ^ 11 * 10 := Nat.mul_le_mul (Nat.pow_le_pow_left (by decide) 11) (by decide)
    _ = 10 ^ 309 := by rw [← pow_mul, ← pow_succ]

theorem pow_ten_lt_overflow {x : Nat} (hx : x ≤ 308) : 10 ^ x < overflow :=
  calc 10 ^ x ≤ 10 ^ 308 := pow_le_pow_right₀ (by decide) hx
    _ = (10 ^ 59) ^ 5 * 10 ^ 13 := by rw [← pow_mul, ← pow_add]
    _ ≤ (2 ^ 196) ^ 5 * 10 ^ 13 := Nat.mul_le_mul_right _ (Nat.pow_le_pow_left (by decide) 5)
    _ = 10 ^ 13 * 2 ^ 10 * 2 ^ 970 := by rw [← pow_mul, mul_comm, mul_assoc, ← pow_add]
    _ < overflow := Nat.mul_lt_mul_of_pos_right (by decide) (by positivity)

theorem log2_pow_ten : ∀ x < 309, (10 ^ x).log2 = x * 485 / 146 := by
  have hbounds : ∀ x < 309, 2 ^ (x * 485 / 146) ≤ 10 ^ x ∧ 10 ^ x < 2 ^ (x * 485 / 146 + 1) := by
    decide +kernel
  intro x hx
  exact (Nat.log2_eq_iff (Nat.pow_pos (by decide)).ne').2 (hbounds x hx)

/-- A product of rounded factors stays below the overflow for every power of ten. -/
theorem roundUp_mul_lt : ∀ x < 309,
    roundUp (min maxSignificand (safeBound / 10 ^ x)) * roundUp (10 ^ x) < overflow := by
  -- the kernel finds a binary logarithm bit by bit, so the powers' are put in beforehand
  have hproduct : ∀ x < 309, roundUp (min maxSignificand (safeBound / 10 ^ x)) *
      (if 10 ^ x < 2 ^ 53 then 10 ^ x
        else (2 * 10 ^ x + 2 ^ (x * 485 / 146 - 52)) / (2 * 2 ^ (x * 485 / 146 - 52)) *
          2 ^ (x * 485 / 146 - 52)) < overflow := by
    decide +kernel
  intro x hx
  have h := hproduct x hx
  rwa [← log2_pow_ten x hx] at h

theorem atMost_power {x : Nat} (hx : x ≤ 308) :
    AtMost (Float.ofScientific 1 false x) (roundUp (10 ^ x)) :=
  atMost_ofScientific (by decide) hx (by rw [Nat.one_mul]) (pow_ten_lt_overflow hx)

theorem endsWithin_ofNat {n : Nat} (hn : n ≤ maxSignificand) : EndsWithin (Float.ofNat n) 12 := by
  obtain rfl | hpos := Nat.eq_zero_or_pos n
  · exact .inl ⟨.positive, rfl⟩
  · have hsmall : maxSignificand < overflow :=
      Nat.lt_of_le_of_lt maxSignificand_le_safeBound safeBound_lt_overflow
    obtain ⟨m, e, hm, hunpack, hlog, he, hle⟩ :=
      atMost_ofScientific (x := 0) hpos (by decide) (by simpa using hn) hsmall
    refine .inr ⟨.positive, m, e, hm, hunpack, ?_⟩
    have hvalue : (2 : ℚ) ^ (52 + e) ≤ 2 ^ (64 : ℤ) := by
      have hlead : (2 ^ 52 : ℚ) ≤ m := by
        exact_mod_cast ((Nat.log2_eq_iff (by omega)).1 hlog).1
      have hround : roundUp maxSignificand = 2 ^ 64 := by decide
      rw [hround] at hle
      calc (2 : ℚ) ^ (52 + e) = 2 ^ 52 * 2 ^ e := zpow_add₀ (by norm_num) 52 e
        _ ≤ m * 2 ^ e := mul_le_mul_of_nonneg_right hlead (zpow_nonneg (by norm_num) e)
        _ ≤ ((2 ^ 64 : Nat) : ℚ) := hle
        _ = 2 ^ (64 : ℤ) := by norm_num
    have := (zpow_le_zpow_iff_right₀ (by norm_num : (1 : ℚ) < 2)).1 hvalue
    omega

theorem endsWithin_div_power {f : Float} {place : Int} (hlow : -1021 ≤ place) (hhigh : place ≤ 900)
    (hf : EndsWithin f place) {x : Nat} (hx : x ≤ 308) :
    EndsWithin (f / Float.ofScientific 1 false x) (place + 53) := by
  obtain ⟨m, e, hm, hunpack, hlog, he, -⟩ := atMost_power hx
  exact endsWithin_div hlow hhigh hf hunpack he hlog

theorem isInf_zero_mul {x : Nat} (hx : x ≤ 308) :
    (Float.ofNat 0 * Float.ofScientific 1 false x).isInf = false := by
  obtain ⟨m, e, hm, hunpack, -⟩ := atMost_power hx
  have hzero : (Float.ofNat 0).toModel.unpack = .zero .positive := rfl
  change (Float.Model.pack (UnpackedFloat.mul Format.binary64 (Float.ofNat 0).toModel.unpack
    (Float.ofScientific 1 false x).toModel.unpack)).unpack.isInf = false
  rw [hzero, hunpack]
  change (Float.Model.pack (.zero (.positive * .positive))).unpack.isInf = false
  rw [unpack_pack_zero]
  rfl

theorem endsWithin_foldl_div (l : List Nat) {f : Float} {place : Int} (hlow : -1021 ≤ place)
    (hhigh : place + 53 * l.length ≤ 900) (hf : EndsWithin f place) :
    EndsWithin (l.foldl (fun f _ => f / Float.ofScientific 1 false 308) f)
      (place + 53 * l.length) := by
  induction l generalizing f place with
  | nil => simpa using hf
  | cons _ l ih =>
    simp only [List.length_cons, Nat.cast_add, Nat.cast_one] at hhigh
    have hnext := endsWithin_div_power hlow (by omega) hf (Nat.le_refl 308)
    have hplace : place + 53 + 53 * (l.length : Int) =
        place + 53 * ((l.length + 1 : Nat) : Int) := by
      push_cast
      ring
    rw [List.foldl_cons, List.length_cons, ← hplace]
    exact ih (by omega) (by omega) hnext

/-- A decimal whose value is within bounds is read. -/
theorem exists_scaleDouble {n : Nat} {x : Int} (hn : n ≤ maxSignificand)
    (h : (n : ℚ) * 10 ^ x ≤ safeBound) : ∃ f, scaleDouble n x = some f := by
  unfold scaleDouble
  dsimp only
  split
  · rename_i hgreat
    split
    · exact ⟨_, rfl⟩
    · rename_i hne
      exfalso
      have hone : (1 : ℚ) ≤ n := by exact_mod_cast Nat.one_le_iff_ne_zero.2 hne
      have hpower : (10 : ℚ) ^ (309 : ℤ) ≤ 10 ^ x := zpow_le_zpow_right₀ (by norm_num) (by omega)
      have hcast : (safeBound : ℚ) < 10 ^ (309 : ℤ) := by
        rw [zpow_ofNat]
        exact_mod_cast safeBound_lt_pow_ten
      have hleast : (10 : ℚ) ^ (309 : ℤ) ≤ n * 10 ^ x := by
        calc (10 : ℚ) ^ (309 : ℤ) ≤ 10 ^ x := hpower
          _ = 1 * 10 ^ x := (one_mul _).symm
          _ ≤ n * 10 ^ x := mul_le_mul_of_nonneg_right hone (zpow_nonneg (by norm_num) x)
      exact absurd (hleast.trans h) (not_le.2 hcast)
  · rename_i hsmall
    split
    · rename_i hnonneg
      obtain ⟨k, rfl⟩ := Int.eq_ofNat_of_zero_le hnonneg
      have hk : k ≤ 308 := by omega
      have hinf : (Float.ofNat n * Float.ofScientific 1 false k).isInf = false := by
        obtain rfl | hpos := Nat.eq_zero_or_pos n
        · exact isInf_zero_mul hk
        · have hle : n ≤ min maxSignificand (safeBound / 10 ^ k) := by
            refine Nat.le_min.2 ⟨hn, (Nat.le_div_iff_mul_le (Nat.pow_pos (by decide))).2 ?_⟩
            rw [zpow_natCast] at h
            exact_mod_cast h
          have hlimit : min maxSignificand (safeBound / 10 ^ k) < overflow :=
            Nat.lt_of_le_of_lt ((Nat.min_le_left _ _).trans maxSignificand_le_safeBound)
              safeBound_lt_overflow
          have hstart : AtMost (Float.ofNat n)
              (roundUp (min maxSignificand (safeBound / 10 ^ k))) :=
            atMost_ofScientific (x := 0) hpos (by decide) (by simpa using hle) hlimit
          exact (atMost_mul hstart (atMost_power hk) (Nat.le_refl _)
            (roundUp_mul_lt k (by omega))).isInf
      refine ⟨_, if_neg ?_⟩
      rw [Bool.not_eq_true]
      exact hinf
    · split <;> exact ⟨_, rfl⟩

theorem isFinite_scaleDouble {n : Nat} {x : Int} (hn : n ≤ maxSignificand) {f : Float}
    (h : scaleDouble n x = some f) : f.isFinite = true := by
  unfold scaleDouble at h
  dsimp only at h
  split at h
  · split at h
    · obtain rfl := Option.some.inj h
      exact (endsWithin_ofNat hn).isFinite
    · cases h
  · rename_i hsmall
    split at h
    · rename_i hnonneg
      split at h
      · cases h
      · rename_i hinf
        obtain rfl := Option.some.inj h
        exact isFinite_mul (endsWithin_ofNat hn).isFinite (atMost_power (by omega)).isFinite
          (by simpa using hinf)
    · rename_i hnegative
      split at h
      · obtain rfl := Option.some.inj h
        rfl
      · obtain rfl := Option.some.inj h
        have hl := endsWithin_foldl_div (List.range (min (((-x).toNat - 1) / 308) 3))
          (by decide) (by rw [List.length_range]; omega) (endsWithin_ofNat hn)
        refine (endsWithin_div_power (x := (-x).toNat - ((-x).toNat - 1) / 308 * 308) ?_ ?_ hl
          (by omega)).isFinite
        · omega
        · simp only [List.length_range]
          omega

end TypedRoutes.Decimal
