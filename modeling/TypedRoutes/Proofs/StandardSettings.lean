import TypedRoutes.Proofs.LayeredSettings

/-! # Standard settings give way

Settings that are put over others count where they are not the standard ones.  Whether to be verbose
is the exception: the standard settings say that it is not, and that counts over what was there.
-/

namespace TypedRoutes.Config
open TypedRoutes.Json TypedRoutes.CommandLine

def standard (s : Setting) : Value := ({} : Config).setting s

/-- What is filled in for a setting is the standard, but for whether to be verbose, which is left
open. -/
theorem unasked_eq_standard {s : Setting} (h : s ≠ .verbose) : s.unasked = standard s := by
  cases s with
  | verbose => exact absurd rfl h
  | _ => rfl

section
variable {lower upper : Config}

theorem setting_verbose_inj : lower.setting .verbose = upper.setting .verbose ↔
    lower.verbose = upper.verbose := by
  refine ⟨fun h => ?_, fun h => congrArg (Value.ofOption .bool) h⟩
  exact ofOption_injective (fun _ _ heq => Value.bool.inj heq) (by simp) h

/-- A setting that is no longer what it was, apart from whether to be verbose, was not put over as
the standard. -/
theorem ne_standard_of_merge_ne {s : Setting} (hs : s ≠ .verbose)
    (h : (lower.merge upper).setting s ≠ lower.setting s) : upper.setting s ≠ standard s := by
  intro hstandard
  exact h ((setting_merge lower upper s).1 (hstandard.trans (unasked_eq_standard hs).symm))

theorem merge_standard (lower : Config) :
    lower.merge {} = { lower with verbose := some false } := by
  refine eq_of_setting fun s => ?_
  by_cases hs : s = .verbose
  · subst hs
    rfl
  · have hsame : (lower.merge {}).setting s = lower.setting s := by
      by_contra hne
      exact ne_standard_of_merge_ne hs hne rfl
    rw [hsame]
    cases s with
    | verbose => exact absurd rfl hs
    | _ => rfl

end

/-- Putting settings over others changes only those that are not put over as the standard, except
that the standard of not being verbose replaces whatever was there.  So the standard settings leave
those settings as they are that are not verbose, and no others. -/
theorem standard_settings_give_way_iff (lower upper : Config) :
    ((∀ s, (lower.merge upper).setting s ≠ lower.setting s → upper.setting s ≠ standard s) ↔
        (upper.verbose = some false → lower.verbose = some false)) ∧
      (∀ s, s ≠ .verbose → (lower.merge upper).setting s ≠ lower.setting s →
        upper.setting s ≠ standard s) ∧
      lower.merge {} = { lower with verbose := some false } ∧
      (lower.merge {} = lower ↔ lower.verbose = some false) := by
  refine ⟨⟨fun h hupper => ?_, fun h s hchanged hstandard => ?_⟩,
    fun s hs => ne_standard_of_merge_ne hs, merge_standard lower, ?_⟩
  · have hmerged : (lower.merge upper).verbose = some false := by
      rw [merge, hupper, Option.some_or]
    by_contra hlower
    refine h .verbose (fun hsame => hlower ?_) (setting_verbose_inj.2 hupper)
    rw [← hmerged]
    exact (setting_verbose_inj.1 hsame).symm
  · by_cases hs : s = .verbose
    · subst hs
      have hupper : upper.verbose = some false := setting_verbose_inj.1 hstandard
      refine hchanged (setting_verbose_inj.2 ?_)
      rw [h hupper, merge, hupper, Option.some_or]
    · exact ne_standard_of_merge_ne hs hchanged hstandard
  · rw [merge_standard]
    constructor
    · intro h
      rw [← h]
    · intro h
      rw [← h]

/-- Settings that ask to be verbose do not stay as they are under the standard ones. -/
theorem verbose_gives_way_to_standard :
    (({ verbose := some true } : Config).merge {}).setting .verbose ≠
        ({ verbose := some true } : Config).setting .verbose ∧
      ({} : Config).setting .verbose = standard .verbose ∧
      ({ verbose := some true } : Config).merge {} ≠ { verbose := some true } := by
  refine ⟨?_, rfl, by decide⟩
  rw [merge_standard]
  simp [setting, Value.ofOption]

end TypedRoutes.Config
