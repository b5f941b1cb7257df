import TypedRoutes.Decimal.Shortest
import TypedRoutes.Proofs.DecimalReading

/-! # How great a shortest decimal is

The shortest decimal of a double is at most the upper end of the interval that the double stands
for.  Only the greatest double has an upper end that would be rounded to infinity; its decimal is
known.
-/

namespace TypedRoutes.Decimal
open Json.Reader (maxSignificand scaleDouble)

def Digits.value (d : Digits) : ℚ := d.digits * 10 ^ d.exponent

/-! ## The interval of a double -/

theorem powerFraction_snd_pos {base : Nat} (h : 0 < base) (e : Int) :
    0 < (powerFraction base e).2 := by
  unfold powerFraction
  split
  · exact Nat.one_pos
  · exact Nat.pow_pos h

theorem powerFraction_fst {base : Nat} (h : 0 < base) (e : Int) :
    ((powerFraction base e).1 : ℚ) = base ^ e * (powerFraction base e).2 := by
  have hbase : (base : ℚ) ≠ 0 := by exact_mod_cast h.ne'
  unfold powerFraction
  split
  · rename_i hnonneg
    obtain ⟨k, rfl⟩ := Int.eq_ofNat_of_zero_le hnonneg
    simp
  · rename_i hnegative
    obtain ⟨k, rfl⟩ : ∃ k : Nat, e = -k := ⟨(-e).toNat, by omega⟩
    have hpow : (base : ℚ) ^ k ≠ 0 := pow_ne_zero k hbase
    simp [hpow]

theorem scaled_le {b : Binary} {quarters multiple : Nat} {place : Int}
    (h : multiple * (b.scaled quarters place).2 ≤ (b.scaled quarters place).1) :
    (multiple : ℚ) * 10 ^ place ≤ quarters * 2 ^ (b.exponent - 2) := by
  simp only [Binary.scaled] at h
  have htwo := powerFraction_fst (by decide : 0 < 2) (b.exponent - 2)
  have hten := powerFraction_fst (by decide : 0 < 10) place
  have htwo' := powerFraction_snd_pos (by decide : 0 < 2) (b.exponent - 2)
  have hten' := powerFraction_snd_pos (by decide : 0 < 10) place
  generalize powerFraction 2 (b.exponent - 2) = t at *
  generalize powerFraction 10 place = p at *
  have hcast : (multiple : ℚ) * (t.2 * p.1) ≤ quarters * t.1 * p.2 := by exact_mod_cast h
  push_cast at htwo hten
  rw [htwo, hten] at hcast
  have hpos : (0 : ℚ) < t.2 * p.2 := by exact_mod_cast Nat.mul_pos htwo' hten'
  refine le_of_mul_le_mul_right ?_ hpos
  calc (multiple : ℚ) * 10 ^ place * (t.2 * p.2) = multiple * (t.2 * (10 ^ place * p.2)) := by ring
    _ ≤ quarters * (2 ^ (b.exponent - 2) * t.2) * p.2 := hcast
    _ = quarters * 2 ^ (b.exponent - 2) * (t.2 * p.2) := by ring

theorem value_le_of_holds {b : Binary} {multiple : Nat} {place : Int}
    (h : b.holds multiple place = true) :
    (multiple : ℚ) * 10 ^ place ≤ b.highQuarters * 2 ^ (b.exponent - 2) := by
  refine scaled_le ?_
  unfold Binary.holds at h
  simp only [Binary.scaled] at h ⊢
  split at h
  · exact of_decide_eq_true (Bool.and_eq_true_iff.1 h).2
  · exact (of_decide_eq_true (Bool.and_eq_true_iff.1 h).2).le

/-- The multiple that is found lies in the interval and is not zero. -/
theorem nearestMultiple_spec {b : Binary} {place : Int} {m : Nat}
    (h : b.nearestMultiple place = some m) : m ≠ 0 ∧ b.holds m place = true := by
  unfold Binary.nearestMultiple at h
  simp only at h
  split at h
  · rename_i hbelow _
    obtain rfl := Option.some.inj h
    rw [Bool.and_eq_true, decide_eq_true_eq] at hbelow
    exact ⟨hbelow.2.ne', hbelow.1⟩
  · rename_i habove
    obtain rfl := Option.some.inj h
    exact ⟨Nat.succ_ne_zero _, habove⟩
  · cases h
  · rename_i hbelow habove
    rw [Bool.and_eq_true, decide_eq_true_eq] at hbelow
    split at h
    · obtain rfl := Option.some.inj h
      exact ⟨hbelow.2.ne', hbelow.1⟩
    · obtain rfl := Option.some.inj h
      exact ⟨Nat.succ_ne_zero _, habove⟩

/-! ## The digits that are found -/

/-- Without the zeros at its end a decimal stands for the same number. -/
theorem trim_spec (d : Digits) (hd : d.digits ≠ 0) (n : Nat) :
    (d.trim n).digits ≠ 0 ∧ (d.trim n).value = d.value := by
  induction n generalizing d with
  | zero => exact ⟨hd, rfl⟩
  | succ n ih =>
    unfold Digits.trim
    split
    · rename_i hzero
      simp only [Bool.and_eq_true, decide_eq_true_eq] at hzero
      obtain ⟨k, hk⟩ : ∃ k, d.digits = 10 * k := ⟨d.digits / 10, by omega⟩
      have htenth : d.digits / 10 = k := by omega
      obtain ⟨hne, hvalue⟩ := ih ⟨d.digits / 10, d.exponent + 1⟩ (by simp only; omega)
      refine ⟨hne, hvalue.trans ?_⟩
      rw [Digits.value, Digits.value, htenth, hk, zpow_add₀ (by norm_num)]
      push_cast
      ring
    · exact ⟨hd, rfl⟩

/-- A shortest decimal has no digit but zero, or does not pass the upper end of the interval. -/
theorem shortest_spec (b : Binary) : b.shortest = ⟨0, 0⟩ ∨
    b.shortest.digits ≠ 0 ∧ b.shortest.value ≤ b.highQuarters * 2 ^ (b.exponent - 2) := by
  unfold Binary.shortest
  simp only
  split
  · rename_i digits hfound
    obtain ⟨k, -, hk⟩ := List.exists_of_findSome?_eq_some hfound
    obtain ⟨m, hm, rfl⟩ := Option.map_eq_some_iff.1 hk
    obtain ⟨hne, hholds⟩ := nearestMultiple_spec hm
    obtain ⟨hne', hvalue⟩ := trim_spec ⟨m, _⟩ hne 20
    exact .inr ⟨hne', hvalue.trans_le (value_le_of_holds hholds)⟩
  · exact .inl rfl

/-! ## Doubles -/

/-- The upper end of a finite double's interval, but for the greatest double, is within bounds. -/
theorem highQuarters_le_safeBound {biased fraction : Nat} (hb : biased ≤ 2046)
    (hf : fraction < 2 ^ 52) (hne : ¬(biased = 2046 ∧ fraction = 2 ^ 52 - 1)) :
    ((Binary.ofFields biased fraction).highQuarters : ℚ) *
      2 ^ ((Binary.ofFields biased fraction).exponent - 2) ≤ safeBound := by
  have hsafe : (safeBound : ℚ) = (2 ^ 56 - 12 : Nat) * 2 ^ (968 : ℤ) := by
    have hnat : safeBound = (2 ^ 56 - 12) * 2 ^ 968 :=
      calc safeBound = 0x3ffffffffffffd * 2 ^ 2 * 2 ^ 968 := by
            rw [safeBound, pow_add 2 2 968, Nat.mul_assoc]
        _ = (2 ^ 56 - 12) * 2 ^ 968 := congrArg (· * 2 ^ 968) (by decide)
    rw [hnat, Nat.cast_mul, Nat.cast_pow 2 968, zpow_ofNat]
    rfl
  -- the last exponent leaves room for mantissas half as great
  have hcases : (Binary.ofFields biased fraction).exponent - 2 = 969 ∧
        2 * (Binary.ofFields biased fraction).highQuarters ≤ 2 ^ 56 - 12 ∨
      (Binary.ofFields biased fraction).exponent - 2 ≤ 968 ∧
        (Binary.ofFields biased fraction).highQuarters ≤ 2 ^ 56 - 12 := by
    unfold Binary.ofFields Binary.highQuarters
    split
    · simp only
      omega
    · simp only [Nat.pow_eq, Int.ofNat_eq_natCast]
      omega
  rw [hsafe]
  generalize (Binary.ofFields biased fraction).exponent - 2 = e at hcases ⊢
  generalize (Binary.ofFields biased fraction).highQuarters = q at hcases ⊢
  obtain ⟨rfl, hq⟩ | ⟨he, hq⟩ := hcases
  · have htwice : (2 : ℚ) ^ (969 : ℤ) = 2 * 2 ^ (968 : ℤ) := (zpow_one_add₀ (by norm_num) 968)
    calc (q : ℚ) * 2 ^ (969 : ℤ) = (2 * q : Nat) * 2 ^ (968 : ℤ) := by
          rw [htwice, Nat.cast_mul, Nat.cast_ofNat, mul_assoc, mul_left_comm]
      _ ≤ (2 ^ 56 - 12 : Nat) * 2 ^ (968 : ℤ) :=
          mul_le_mul_of_nonneg_right (by exact_mod_cast hq) (zpow_nonneg (by norm_num) _)
  · exact mul_le_mul (by exact_mod_cast hq) (zpow_le_zpow_right₀ (by norm_num) he)
      (zpow_nonneg (by norm_num) _) (Nat.cast_nonneg _)

theorem shortest_greatest :
    (Binary.ofFields 2046 (2 ^ 52 - 1)).shortest = ⟨17976931348623157, 292⟩ := by
  decide +kernel

theorem scaleDouble_greatest : (scaleDouble 17976931348623157 292).isSome = true := by
  decide +kernel

section Finite
variable {biased fraction : Nat}

/-- The decimal of a finite double but for the greatest. -/
theorem shortest_value_le (hb : biased ≤ 2046) (hf : fraction < 2 ^ 52)
    (hne : ¬(biased = 2046 ∧ fraction = 2 ^ 52 - 1)) :
    (Binary.ofFields biased fraction).shortest.value ≤ safeBound := by
  obtain hzero | ⟨-, hle⟩ := shortest_spec (Binary.ofFields biased fraction)
  · rw [hzero, Digits.value, Nat.cast_zero, zero_mul]
    exact Nat.cast_nonneg _
  · exact hle.trans (highQuarters_le_safeBound hb hf hne)

theorem shortest_value_lt (hb : biased ≤ 2046) (hf : fraction < 2 ^ 52) :
    (Binary.ofFields biased fraction).shortest.value < 10 ^ (309 : ℤ) := by
  by_cases hgreatest : biased = 2046 ∧ fraction = 2 ^ 52 - 1
  · obtain ⟨rfl, rfl⟩ := hgreatest
    have hsplit : (10 : ℚ) ^ (309 : ℤ) = 10 ^ (17 : ℤ) * 10 ^ (292 : ℤ) :=
      zpow_add₀ (by norm_num) 17 292
    rw [shortest_greatest, Digits.value, hsplit]
    exact mul_lt_mul_of_pos_right (by norm_num) (zpow_pos (by norm_num) _)
  · refine lt_of_le_of_lt (shortest_value_le hb hf hgreatest) ?_
    rw [zpow_ofNat]
    exact_mod_cast safeBound_lt_pow_ten

/-- Whatever is taken of the digits of a finite double's decimal is read, as long as nothing is left
of those that could be taken. -/
theorem exists_scaleDouble_shortest (hb : biased ≤ 2046) (hf : fraction < 2 ^ 52) {n : Nat}
    {x : Int}
    (hn : n ≤ maxSignificand)
    (hvalue : (n : ℚ) * 10 ^ x ≤ (Binary.ofFields biased fraction).shortest.value)
    (hall : (Binary.ofFields biased fraction).shortest.digits ≤ maxSignificand →
      n = (Binary.ofFields biased fraction).shortest.digits ∧
        x = (Binary.ofFields biased fraction).shortest.exponent) :
    ∃ f, scaleDouble n x = some f := by
  by_cases hgreatest : biased = 2046 ∧ fraction = 2 ^ 52 - 1
  · obtain ⟨rfl, rfl⟩ := hgreatest
    rw [shortest_greatest] at hall
    obtain ⟨rfl, rfl⟩ := hall (by decide)
    exact Option.isSome_iff_exists.1 scaleDouble_greatest
  · exact exists_scaleDouble hn (hvalue.trans (shortest_value_le hb hf hgreatest))

end Finite

end TypedRoutes.Decimal
