import Mathlib

/-! # Finite doubles

A result is cut to the 53 binary digits that there is room for, rounded, and packed.  A double that
was kept is unpacked as it was, and a product, a negation or a quotient by at least one of finite
doubles is finite as long as its last digit does not stand too high.
-/

namespace TypedRoutes.Decimal
open Float.Model Float.Model.UnpackedFloat

/-! ## Rounding to 53 bits -/

theorem mantissa_shiftRight (em : ExtendedMantissa) (k : Nat) :
    (em >>> k).mantissa = em.mantissa / 2 ^ k := by
  induction k with
  | zero => simp [HShiftRight.hShiftRight, Nat.repeat]
  | succ k ih =>
    change (em >>> k).mantissa / 2 = _
    rw [ih, Nat.div_div_eq_div_mul, Nat.pow_succ]

theorem roundedMantissa_le (em : ExtendedMantissa) :
    em.mantissa ≤ em.roundedMantissa ∧
      em.roundedMantissa ≤ em.mantissa + (if em.roundBit then 1 else 0) := by
  obtain ⟨m, roundBit, stickyBit⟩ := em
  cases roundBit <;> cases stickyBit <;>
    simp [ExtendedMantissa.roundedMantissa, ExtendedMantissa.accuracy,
      Accuracy.roundToNearestEven]
  omega

theorem roundedMantissa_exact_le (m k : Nat) :
    2 * 2 ^ k * (ExtendedMantissa.ofMantissaAndAccuracy m .exact >>> k).roundedMantissa ≤
      2 * m + 2 ^ k := by
  obtain ⟨-, hle⟩ := roundedMantissa_le (ExtendedMantissa.ofMantissaAndAccuracy m .exact >>> k)
  rw [mantissa_shiftRight] at hle
  change _ ≤ m / 2 ^ k + _ at hle
  cases k with
  | zero =>
    change _ ≤ m / 2 ^ 0 + 0 at hle
    simp only [Nat.pow_zero, Nat.div_one, Nat.add_zero] at hle
    omega
  | succ k =>
    have hbit : (ExtendedMantissa.ofMantissaAndAccuracy m .exact >>> (k + 1)).roundBit =
        (m / 2 ^ k % 2 != 0) := by
      change ((ExtendedMantissa.ofMantissaAndAccuracy m .exact >>> k).mantissa % 2 != 0) = _
      rw [mantissa_shiftRight]
      rfl
    rw [hbit] at hle
    have hhalf : m / 2 ^ (k + 1) = m / 2 ^ k / 2 := by
      rw [Nat.div_div_eq_div_mul, Nat.pow_succ]
    have hrounded :
        2 * (ExtendedMantissa.ofMantissaAndAccuracy m .exact >>> (k + 1)).roundedMantissa ≤
        m / 2 ^ k + 1 := by
      rw [hhalf] at hle
      have hodd : m / 2 ^ k % 2 = 0 ∨ m / 2 ^ k % 2 = 1 := by omega
      obtain hodd | hodd := hodd <;> rw [hodd] at hle <;> simp at hle <;> omega
    have hfloor : m / 2 ^ k * 2 ^ k ≤ m := Nat.div_mul_le_self m (2 ^ k)
    have hscaled := Nat.mul_le_mul_left (2 * 2 ^ k) hrounded
    rw [Nat.pow_succ]
    nlinarith

/-- The exponent that a number with a leading digit of a given place is rounded to. -/
theorem targetExponent_eq (m : Nat) (e : Int) :
    Format.binary64.targetExponent (totalExponent m e) = max (m.log2 + e - 52) (-1074) := by
  simp only [Format.targetExponent, totalExponent, Format.mantissaBits, Format.minExponent]
  norm_num
  omega

/-- A number after its mantissa was cut to the digits that there is room for. -/
def firstShift (m : Nat) (e : Int) (accuracy : Accuracy) : ExtendedMantissa × Int :=
  shiftToTargetExponent Format.binary64 m e accuracy

theorem firstShift_eq (m : Nat) (e : Int) (accuracy : Accuracy) :
    firstShift m e accuracy =
      (ExtendedMantissa.ofMantissaAndAccuracy m accuracy >>>
          (max (m.log2 + e - 52) (-1074) - e).toNat,
        e + ((max (m.log2 + e - 52) (-1074) - e).toNat : Int)) := by
  simp only [firstShift, shiftToTargetExponent, shiftToExponent, targetExponent_eq]

theorem firstShift_snd (m : Nat) (e : Int) (accuracy : Accuracy) :
    (firstShift m e accuracy).2 = max e (max (m.log2 + e - 52) (-1074)) := by
  rw [firstShift_eq]
  omega

theorem mantissa_ofMantissaAndAccuracy (m : Nat) (accuracy : Accuracy) :
    (ExtendedMantissa.ofMantissaAndAccuracy m accuracy).mantissa = m := by
  cases accuracy with
  | exact => rfl
  | inexact order => cases order <;> rfl

theorem roundedMantissa_firstShift_le (m : Nat) (e : Int) (accuracy : Accuracy) :
    (firstShift m e accuracy).1.roundedMantissa ≤ 2 ^ 53 := by
  obtain ⟨-, hle⟩ := roundedMantissa_le (firstShift m e accuracy).1
  have hcut : (firstShift m e accuracy).1.mantissa < 2 ^ 53 := by
    rw [firstShift_eq, mantissa_shiftRight, mantissa_ofMantissaAndAccuracy,
      Nat.div_lt_iff_lt_mul (Nat.two_pow_pos _), ← Nat.pow_add]
    refine Nat.lt_of_lt_of_le Nat.lt_log2_self (Nat.pow_le_pow_right (by decide) ?_)
    omega
  split at hle <;> omega

theorem firstShift_of_lt {m : Nat} {e : Int} (hm : m < 2 ^ 53) (he : -1074 ≤ e) :
    firstShift m e .exact = (⟨m, false, false⟩, e) := by
  have hlog : m.log2 ≤ 52 := by
    by_cases h : m = 0
    · simp [h]
    · have := (Nat.log2_lt h).2 hm
      omega
  have hshift : (max ((m.log2 : Int) + e - 52) (-1074) - e).toNat = 0 := by omega
  rw [firstShift_eq, hshift]
  simp [HShiftRight.hShiftRight, Nat.repeat, ExtendedMantissa.ofMantissaAndAccuracy]

theorem firstShift_two_pow {e : Int} (he : -1074 ≤ e) :
    firstShift (2 ^ 53) e .exact = (⟨2 ^ 52, false, false⟩, e + 1) := by
  have hshift : (max (((2 ^ 53 : Nat).log2 : Int) + e - 52) (-1074) - e).toNat = 1 := by
    rw [Nat.log2_two_pow]
    omega
  rw [firstShift_eq, hshift]
  rfl

/-- A rounded number has the rounded mantissa, unless that has become too long. -/
theorem roundWithAccuracy_eq (s : Sign) (m : Nat) (e : Int) (accuracy : Accuracy) :
    roundWithAccuracy Format.binary64 s m e accuracy =
      if h : (firstShift m e accuracy).1.roundedMantissa = 0 then .zero s
      else if (firstShift m e accuracy).1.roundedMantissa < 2 ^ 53 then
        .finite s (firstShift m e accuracy).1.roundedMantissa (firstShift m e accuracy).2
          (Nat.pos_of_ne_zero h)
      else .finite s (2 ^ 52) ((firstShift m e accuracy).2 + 1) (by decide) := by
  have hle := roundedMantissa_firstShift_le m e accuracy
  have hlow : -1074 ≤ (firstShift m e accuracy).2 := by
    rw [firstShift_snd]
    omega
  have hopen : roundWithAccuracy Format.binary64 s m e accuracy =
      let second := firstShift
        (firstShift m e accuracy).1.roundedMantissa (firstShift m e accuracy).2 .exact
      if h : second.1.mantissa = 0 then .zero s
      else .finite s second.1.mantissa second.2 (Nat.pos_of_ne_zero h) := rfl
  rw [hopen]
  generalize (firstShift m e accuracy).1.roundedMantissa = r at hle
  generalize (firstShift m e accuracy).2 = t at hlow
  by_cases hr : r < 2 ^ 53
  · rw [firstShift_of_lt hr hlow]
    simp only [hr, if_true]
  · obtain rfl : r = 2 ^ 53 := by omega
    rw [firstShift_two_pow hlow]
    rfl

/-! ## Packing -/

/-- A finite double as it is kept: with 53 binary digits, or of the least exponent. -/
def IsKept (m : Nat) (e : Int) : Prop :=
  m < 2 ^ 53 ∧ -1074 ≤ e ∧ e ≤ 971 ∧ (2 ^ 52 ≤ m ∨ e = -1074)

theorem unpackSign_packComponents {spec : Format} (s : Sign) (e : BitVec spec.exponentBits)
    (m : BitVec spec.mantissaBitsWithoutImplicit) :
    unpackSign (packComponents spec s e m) = s.toBitVec := by
  apply BitVec.eq_of_getLsbD_eq
  intro i hi
  obtain rfl : i = 0 := by omega
  simp [unpackSign, packComponents, BitVec.getLsbD_append, BitVec.getElem_append]

theorem sign_ofBitVec_toBitVec (s : Sign) : Sign.ofBitVec s.toBitVec = s := by
  cases s <;> rfl

theorem toNat_ofNat_of_lt {b : Nat} (h : b < 2047) : (BitVec.ofNat 11 b).toNat = b := by
  rw [BitVec.toNat_ofNat, Nat.mod_eq_of_lt (by omega)]

theorem ofNat_ne_allOnes {b : Nat} (h : b < 2047) : BitVec.ofNat 11 b ≠ -1#11 := by
  intro heq
  have hnat := congrArg BitVec.toNat heq
  rw [toNat_ofNat_of_lt h] at hnat
  have hones : (-1#11).toNat = 2047 := by decide
  omega

theorem toNat_one_append {m : Nat} (hlow : 2 ^ 52 ≤ m) (hm : m < 2 ^ 53) :
    (1#1 ++ BitVec.ofNat 52 m).toNat = m := by
  rw [BitVec.toNat_append, ← Nat.shiftLeft_add_eq_or_of_lt (BitVec.isLt _)]
  simp only [Nat.shiftLeft_eq, BitVec.toNat_ofNat]
  omega

theorem pack_finite (s : Sign) (m : Nat) (e : Int) (hm : 0 < m) :
    UnpackedFloat.pack Format.binary64 (.finite s m e hm) =
      if 2 ^ 11 ≤ (e + 1023 + 52).toNat + 1 then packedInfinity Format.binary64 s
      else if m.log2 + 1 = 53 then
        packComponents Format.binary64 s (BitVec.ofNat 11 (e + 1023 + 52).toNat) (BitVec.ofNat 52 m)
      else packComponents Format.binary64 s 0#11 (BitVec.ofNat 52 m) := rfl

/-- A finite double is unpacked as it was packed. -/
theorem unpack_pack {m : Nat} {e : Int} (h : IsKept m e) (s : Sign) (hm : 0 < m) :
    (Float.Model.pack (.finite s m e hm)).unpack = .finite s m e hm := by
  obtain ⟨hlt, hlow, hhigh, hlead⟩ := h
  have hbiased : (e + 1023 + 52).toNat < 2047 := by omega
  have hfits : ¬2 ^ 11 ≤ (e + 1023 + 52).toNat + 1 := by omega
  by_cases hnormal : 2 ^ 52 ≤ m
  · have hlog : m.log2 + 1 = 53 := by
      have := (Nat.log2_eq_iff (by omega)).2 ⟨hnormal, hlt⟩
      omega
    have hpack : UnpackedFloat.pack Format.binary64 (.finite s m e hm) =
        packComponents Format.binary64 s (BitVec.ofNat 11 (e + 1023 + 52).toNat)
          (BitVec.ofNat 52 m) := by
      rw [pack_finite, if_neg hfits, if_pos hlog]
    have hne : BitVec.ofNat 11 (e + 1023 + 52).toNat ≠ 0#11 := by
      intro heq
      have hnat := congrArg BitVec.toNat heq
      rw [toNat_ofNat_of_lt hbiased] at hnat
      simp at hnat
      omega
    change UnpackedFloat.unpack Format.binary64 (UnpackedFloat.pack Format.binary64 _) = _
    rw [hpack, UnpackedFloat.unpack]
    simp only [unpackMantissa_packComponents, unpackExponent_packComponents,
      unpackSign_packComponents, sign_ofBitVec_toBitVec, ofNat_ne_allOnes hbiased, if_false, hne,
      toNat_one_append hnormal hlt, toNat_ofNat_of_lt hbiased]
    congr 1
    change ((e + 1023 + 52).toNat : Int) - (1023 + 52) = e
    omega
  · obtain rfl : e = -1074 := hlead.resolve_left hnormal
    have hlog : m.log2 + 1 ≠ 53 := by
      have := (Nat.log2_lt (by omega)).2 (by omega : m < 2 ^ 52)
      omega
    have hpack : UnpackedFloat.pack Format.binary64 (.finite s m (-1074) hm) =
        packComponents Format.binary64 s 0#11 (BitVec.ofNat 52 m) := by
      rw [pack_finite, if_neg hfits, if_neg hlog]
    have htoNat : (BitVec.ofNat 52 m).toNat = m := by
      rw [BitVec.toNat_ofNat, Nat.mod_eq_of_lt (by omega)]
    have hne : BitVec.ofNat 52 m ≠ 0#52 := by
      intro heq
      have hnat := congrArg BitVec.toNat heq
      rw [htoNat] at hnat
      simp at hnat
      omega
    have hones : (0#11) ≠ -1#11 := by decide
    change UnpackedFloat.unpack Format.binary64 (UnpackedFloat.pack Format.binary64 _) = _
    rw [hpack, UnpackedFloat.unpack]
    simp only [unpackMantissa_packComponents, unpackExponent_packComponents,
      unpackSign_packComponents, sign_ofBitVec_toBitVec, hones, if_false, if_true, hne, dif_neg,
      not_false_eq_true, htoNat]
    rfl

theorem isFinite_iff (f : Float) :
    f.isFinite = true ↔ @unpackExponent Format.binary64 f.toBits.toBitVec ≠ -1#11 := by
  change (UnpackedFloat.unpack Format.binary64 f.toBits.toBitVec).isFinite = true ↔ _
  unfold UnpackedFloat.unpack
  dsimp only
  split
  · rename_i hones
    simp only [hones, ne_eq, not_true_eq_false, iff_false]
    split <;> simp [UnpackedFloat.isFinite]
  · rename_i hones
    simp only [ne_eq, hones, not_false_eq_true, iff_true]
    split
    · split <;> rfl
    · rfl

theorem isFinite_iff_toNat (f : Float) :
    f.isFinite = true ↔ f.toBits.toNat / 2 ^ 52 % 2 ^ 11 ≠ 2047 := by
  have hexponent : (@unpackExponent Format.binary64 f.toBits.toBitVec).toNat =
      f.toBits.toNat / 2 ^ 52 % 2 ^ 11 := by
    simp only [unpackExponent, BitVec.toNat_cast, BitVec.extractLsb_toNat,
      Nat.shiftRight_eq_div_pow]
    rfl
  have hones : (-1#11).toNat = 2047 := by decide
  rw [isFinite_iff, ← hexponent, ← hones, ne_eq, ne_eq, BitVec.toNat_inj]

theorem isKept_of_unpack {v : Float.Model} {s : Sign} {m : Nat} {e : Int} {hm : 0 < m}
    (h : v.unpack = .finite s m e hm) : IsKept m e := by
  unfold Float.Model.unpack UnpackedFloat.unpack at h
  dsimp only at h
  have hmantissa : (@unpackMantissa Format.binary64 v.toBits.toBitVec).toNat < 2 ^ 52 :=
    (@unpackMantissa Format.binary64 v.toBits.toBitVec).isLt
  have hexponent : (@unpackExponent Format.binary64 v.toBits.toBitVec).toNat < 2 ^ 11 :=
    (@unpackExponent Format.binary64 v.toBits.toBitVec).isLt
  have hbias : ((Format.binary64.exponentBias : Int) +
      Format.binary64.mantissaBitsWithoutImplicit) = 1075 := rfl
  split at h
  · split at h <;> cases h
  · rename_i hones
    have hne : (@unpackExponent Format.binary64 v.toBits.toBitVec).toNat ≠ 2047 :=
      fun hnat => hones (BitVec.eq_of_toNat_eq hnat)
    split at h
    · rename_i hzero
      split at h
      · cases h
      · obtain ⟨-, rfl, rfl⟩ := UnpackedFloat.finite.inj h
        refine ⟨Nat.lt_trans hmantissa (by decide), ?_, ?_, .inr ?_⟩ <;>
          rw [hzero] <;> decide
    · rename_i hzero
      have hnat : (1#1 ++ @unpackMantissa Format.binary64 v.toBits.toBitVec).toNat =
          2 ^ 52 + (@unpackMantissa Format.binary64 v.toBits.toBitVec).toNat := by
        rw [BitVec.toNat_append, ← Nat.shiftLeft_add_eq_or_of_lt (BitVec.isLt _)]
        rfl
      have hpos : (@unpackExponent Format.binary64 v.toBits.toBitVec).toNat ≠ 0 :=
        fun hnat => hzero (BitVec.eq_of_toNat_eq hnat)
      obtain ⟨-, rfl, rfl⟩ := UnpackedFloat.finite.inj h
      rw [hnat, hbias]
      exact ⟨by omega, by omega, by omega, .inl (by omega)⟩

theorem unpack_packedInfinity (s : Sign) :
    UnpackedFloat.unpack Format.binary64 (packedInfinity Format.binary64 s) = .infinity s := by
  rw [packedInfinity, UnpackedFloat.unpack]
  simp only [unpackMantissa_packComponents, unpackExponent_packComponents,
    unpackSign_packComponents, sign_ofBitVec_toBitVec]
  rfl

/-- A number with too great an exponent becomes infinite; no number becomes undefined. -/
theorem isInf_or_isFinite_pack (s : Sign) (m : Nat) (e : Int) (hm : 0 < m) :
    (Float.Model.pack (.finite s m e hm)).unpack = .infinity s ∨
      (Float.ofModel (Float.Model.pack (.finite s m e hm))).isFinite = true := by
  by_cases hfits : 2 ^ 11 ≤ (e + 1023 + 52).toNat + 1
  · refine .inl ?_
    change UnpackedFloat.unpack Format.binary64 (UnpackedFloat.pack Format.binary64 _) = _
    rw [pack_finite, if_pos hfits, unpack_packedInfinity]
  · refine .inr ((isFinite_iff _).2 ?_)
    change unpackExponent (UnpackedFloat.pack Format.binary64 _) ≠ _
    rw [pack_finite, if_neg hfits]
    split
    · rw [unpackExponent_packComponents]
      exact ofNat_ne_allOnes (by omega)
    · rw [unpackExponent_packComponents]
      decide

/-! ## Finite results -/

/-- A finite double whose last digit stands at most at a given place. -/
def EndsWithin (f : Float) (place : Int) : Prop :=
  (∃ s, f.toModel.unpack = .zero s) ∨
    ∃ s m e hm, f.toModel.unpack = .finite s m e hm ∧ e ≤ place

theorem EndsWithin.isFinite {f : Float} {place : Int} (h : EndsWithin f place) :
    f.isFinite = true := by
  change f.toModel.unpack.isFinite = true
  obtain ⟨s, h⟩ | ⟨s, m, e, hm, h, -⟩ := h <;> rw [h] <;> rfl

theorem endsWithin_of_isFinite {f : Float} (h : f.isFinite = true) : EndsWithin f 971 := by
  change f.toModel.unpack.isFinite = true at h
  cases hu : f.toModel.unpack with
  | notANumber => rw [hu] at h; cases h
  | infinity s => rw [hu] at h; cases h
  | zero s => exact .inl ⟨s, hu⟩
  | finite s m e hm => exact .inr ⟨s, m, e, hm, hu, (isKept_of_unpack hu).2.2.1⟩

theorem unpack_pack_zero (s : Sign) : (Float.Model.pack (.zero s)).unpack = .zero s := by
  change UnpackedFloat.unpack Format.binary64 (packComponents Format.binary64 s 0 0) = _
  rw [UnpackedFloat.unpack]
  simp only [unpackMantissa_packComponents, unpackExponent_packComponents,
    unpackSign_packComponents, sign_ofBitVec_toBitVec]
  rfl

theorem endsWithin_pack {s : Sign} {m : Nat} {e : Int} (hm : 0 < m) (hlt : m < 2 ^ 53)
    (hlow : -1074 ≤ e) (hhigh : e ≤ 971) :
    EndsWithin (.ofModel (.pack (.finite s m e hm))) e := by
  by_cases hnormal : 2 ^ 52 ≤ m
  · exact .inr ⟨s, m, e, hm, unpack_pack ⟨hlt, hlow, hhigh, .inl hnormal⟩ s hm, Int.le_refl e⟩
  · have hlog : m.log2 + 1 ≠ 53 := by
      have := (Nat.log2_lt (by omega)).2 (by omega : m < 2 ^ 52)
      omega
    have hpack : UnpackedFloat.pack Format.binary64 (.finite s m e hm) =
        UnpackedFloat.pack Format.binary64 (.finite s m (-1074) hm) := by
      rw [pack_finite, if_neg (by omega), if_neg hlog, pack_finite, if_neg (by decide),
        if_neg hlog]
    have hunpack := unpack_pack (e := -1074) ⟨hlt, by decide, by decide, .inr rfl⟩ s hm
    refine .inr ⟨s, m, -1074, hm, ?_, hlow⟩
    change UnpackedFloat.unpack Format.binary64 (UnpackedFloat.pack Format.binary64 _) = _
    rw [hpack]
    exact hunpack

/-- Rounding a number that is not too great gives a finite double. -/
theorem endsWithin_round {s : Sign} {m : Nat} {e place : Int} {accuracy : Accuracy}
    (hlow : -1074 ≤ place) (hhigh : place ≤ 970) (he : e ≤ place)
    (hm : m.log2 + e ≤ place + 52) :
    EndsWithin (.ofModel (.pack (roundWithAccuracy Format.binary64 s m e accuracy)))
      (place + 1) := by
  have hle := roundedMantissa_firstShift_le m e accuracy
  have hsnd := firstShift_snd m e accuracy
  rw [roundWithAccuracy_eq]
  split
  · exact .inl ⟨s, unpack_pack_zero s⟩
  · split
    · rename_i hlt
      obtain ⟨s', h⟩ | ⟨s', m', e', hm', h, he'⟩ := endsWithin_pack (s := s)
        (e := (firstShift m e accuracy).2) _ hlt (by omega) (by omega)
      · exact .inl ⟨s', h⟩
      · exact .inr ⟨s', m', e', hm', h, by omega⟩
    · obtain ⟨s', h⟩ | ⟨s', m', e', hm', h, he'⟩ := endsWithin_pack (s := s) (m := 2 ^ 52)
        (e := (firstShift m e accuracy).2 + 1) (by decide) (by decide) (by omega) (by omega)
      · exact .inl ⟨s', h⟩
      · exact .inr ⟨s', m', e', hm', h, by omega⟩

theorem isFinite_mul {a b : Float} (ha : a.isFinite = true) (hb : b.isFinite = true)
    (h : (a * b).isInf = false) : (a * b).isFinite = true := by
  have hmul : (a * b).toModel =
      .pack (UnpackedFloat.mul Format.binary64 a.toModel.unpack b.toModel.unpack) := rfl
  have hcases : ∀ u : UnpackedFloat, ((∃ s, u = .zero s) ∨ ∃ s m e hm, u = .finite s m e hm) →
      (a * b).toModel = .pack u → (a * b).isFinite = true := by
    intro u hu hpack
    change (a * b).toModel.unpack.isInf = false at h
    change (a * b).toModel.unpack.isFinite = true
    rw [hpack] at h ⊢
    obtain ⟨s, rfl⟩ | ⟨s, m, e, hm, rfl⟩ := hu
    · rw [unpack_pack_zero]
      rfl
    · obtain hinf | hfinite := isInf_or_isFinite_pack s m e hm
      · rw [hinf] at h
        cases h
      · exact hfinite
  obtain ⟨s, hua⟩ | ⟨s, m, e, hm, hua, -⟩ := endsWithin_of_isFinite ha <;>
    obtain ⟨s', hub⟩ | ⟨s', m', e', hm', hub, -⟩ := endsWithin_of_isFinite hb <;>
    rw [hua, hub] at hmul
  · exact hcases _ (.inl ⟨_, rfl⟩) hmul
  · exact hcases _ (.inl ⟨_, rfl⟩) hmul
  · exact hcases _ (.inl ⟨_, rfl⟩) hmul
  · refine hcases _ ?_ hmul
    change (∃ t, roundWithAccuracy Format.binary64 (s * s') (m * m') (e + e') .exact = .zero t) ∨
      ∃ t n f hn, roundWithAccuracy Format.binary64 (s * s') (m * m') (e + e') .exact =
        .finite t n f hn
    rw [roundWithAccuracy_eq]
    split
    · exact .inl ⟨_, rfl⟩
    · rename_i hne
      split
      · exact .inr ⟨_, _, _, Nat.pos_of_ne_zero hne, rfl⟩
      · exact .inr ⟨_, _, _, by decide, rfl⟩

theorem isFinite_neg {a : Float} (h : a.isFinite = true) : (-a).isFinite = true := by
  have hneg : (-a).toModel = .pack a.toModel.unpack.neg := rfl
  obtain ⟨s, hu⟩ | ⟨s, m, e, hm, hu, -⟩ := endsWithin_of_isFinite h
  · change (-a).toModel.unpack.isFinite = true
    rw [hneg, hu]
    cases s <;> rfl
  · have hkept := isKept_of_unpack hu
    have hneg' : (-a).toModel = .pack (.finite (-s) m e hm) := by rw [hneg, hu]; rfl
    change (-a).toModel.unpack.isFinite = true
    rw [hneg', unpack_pack hkept]
    rfl

theorem endsWithin_div {a b : Float} {place : Int} (hlow : -1021 ≤ place) (hhigh : place ≤ 900)
    (ha : EndsWithin a place) {s : Sign} {m : Nat} {e : Int} {hm : 0 < m}
    (hb : b.toModel.unpack = .finite s m e hm) (he : -52 ≤ e) (hlog : m.log2 = 52) :
    EndsWithin (a / b) (place + 53) := by
  have hdiv : (a / b).toModel =
      .pack (UnpackedFloat.div Format.binary64 a.toModel.unpack b.toModel.unpack) := rfl
  obtain ⟨s', hu⟩ | ⟨s', m', e', hm', hu, he'⟩ := ha
  · refine .inl ⟨s' / s, ?_⟩
    rw [hdiv, hu, hb]
    exact unpack_pack_zero _
  · have hlt : m'.log2 ≤ 52 := by
      have := (Nat.log2_lt (by omega)).2 (isKept_of_unpack hu).1
      omega
    let target : Int := min (e' - e) (max (m'.log2 - m.log2 + e' - e - 53) (-1074))
    let shift := (e' - e - target).toNat
    have hround : (a / b).toModel = .pack (roundWithAccuracy Format.binary64 (s' / s)
        ((m' <<< shift) / m) target (accuracyOfFraction ((m' <<< shift) % m) m)) := by
      have htarget : min (e' - e) (Format.binary64.targetExponent
          (totalExponent m' e' - totalExponent m e)) = target := by
        simp only [Format.targetExponent, totalExponent, Format.mantissaBits, Format.minExponent,
          target]
        norm_num
        omega
      rw [hdiv, hu, hb]
      simp only [UnpackedFloat.div, divCore, htarget, shift]
    have hquotient : ((m' <<< shift) / m).log2 ≤ m'.log2 + shift := by
      by_cases hq : (m' <<< shift) / m = 0
      · simp [hq]
      · refine Nat.le_of_lt_succ ((Nat.log2_lt hq).2 ?_)
        calc (m' <<< shift) / m ≤ m' * 2 ^ shift := by
              rw [← Nat.shiftLeft_eq]
              exact Nat.div_le_self _ _
          _ < 2 ^ (m'.log2 + 1) * 2 ^ shift :=
              Nat.mul_lt_mul_of_pos_right Nat.lt_log2_self (Nat.two_pow_pos shift)
          _ = 2 ^ (m'.log2 + shift + 1) := by
              rw [← Nat.pow_add]
              congr 1
              omega
    have h : EndsWithin (.ofModel (.pack (roundWithAccuracy Format.binary64 (s' / s)
        ((m' <<< shift) / m) target (accuracyOfFraction ((m' <<< shift) % m) m))))
        (place + 52 + 1) :=
      endsWithin_round (by omega) (by omega) (by omega) (by omega)
    have hab : a / b = .ofModel (a / b).toModel := rfl
    rw [hab, hround]
    have hplace : place + 52 + 1 = place + 53 := by omega
    rwa [hplace] at h

end TypedRoutes.Decimal
