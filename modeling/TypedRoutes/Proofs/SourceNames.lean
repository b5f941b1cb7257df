import TypedRoutes.Proofs.NamedPlaces
import TypedRoutes.Route.Builder

/-! # Names of sources

A file is inspected for its name alone: the name has something before one of the endings of
sources, and does not end as files with nothing but declarations do.
-/

namespace TypedRoutes

namespace Path
open TypedRoutes.Text

theorem splitExtension_snd_iff {name ending : String} :
    (splitExtension name).2 = some ending ↔
      ∃ stem, stem ≠ "" ∧ '.' ∉ ending.toList ∧ name = stem ++ "." ++ ending := by
  constructor
  · intro h
    obtain ⟨run, rest, hrun, hdrop, htext, hall⟩ :=
      exists_longest_run (· != '.') name.toList.reverse
    simp only [splitExtension, hrun, hdrop] at h
    split at h
    · rename_i stem
      split at h
      · cases h
      · rename_i hne
        cases h
        refine ⟨String.ofList stem.reverse, by simpa using hne, ?_, String.toList_inj.1 ?_⟩
        · intro hmem
          simpa using hall '.' (by simpa using hmem)
        · rw [List.reverse_eq_iff.1 htext]
          simp
    · cases h
  · rintro ⟨stem, hne, hdot, rfl⟩
    have hreverse : (stem ++ "." ++ ending).toList.reverse =
        ending.toList.reverse ++ '.' :: stem.toList.reverse := by
      simp
    have hrun : (stem ++ "." ++ ending).toList.reverse.takeWhile (· != '.') =
        ending.toList.reverse := by
      rw [hreverse]
      refine takeWhile_append_of_stop (fun c hc => ?_) (by simp)
      rw [bne_iff_ne]
      rintro rfl
      exact hdot (List.mem_reverse.1 hc)
    simp only [splitExtension, hrun]
    rw [hreverse, List.drop_left]
    simp [hne]

/-- A name without slashes is the name of its path, unless it stands for a directory anyhow. -/
theorem fileName?_of_notMem {name : String} (h : '/' ∉ name.toList) :
    fileName? name = if name = "" ∨ name = "." ∨ name = ".." then none else some name := by
  by_cases hname : name = "" ∨ name = "." ∨ name = ".."
  · rw [if_pos hname]
    rcases hname with rfl | rfl | rfl <;> decide
  · have hcomponent : component? name = some (.named name) := by
      simp only [not_or] at hname
      simp [component?, hname]
    have hdot : ¬ some name = some "." := fun heq => hname (.inr (.inl (Option.some.inj heq)))
    rw [if_neg hname, fileName?, components, isAbsolute_of_notMem h, splitOn_of_notMem h]
    simp [hcomponent]

end Path

namespace Route
open TypedRoutes.Text

/-- Something before an ending of sources, where that is not the ending of declarations. -/
def IsSourceName (name : String) : Prop :=
  (∃ stem, stem ≠ "" ∧ (name = stem ++ ".ts" ∨ name = stem ++ ".tsx" ∨ name = stem ++ ".mts")) ∧
    ∀ stem, name ≠ stem ++ ".d.ts"

theorem extension?_iff {name ending : String} (h : '/' ∉ name.toList) (hne : ending ≠ "")
    (hdot : '.' ∉ ending.toList) :
    Path.extension? name = some ending ↔ ∃ stem, stem ≠ "" ∧ name = stem ++ "." ++ ending := by
  rw [Path.extension?, Option.bind_eq_bind, Path.fileName?_of_notMem h]
  split
  · rename_i hname
    simp only [Option.bind_none, reduceCtorEq, false_iff]
    rintro ⟨stem, hstem, rfl⟩
    have hlength : (stem ++ "." ++ ending).length ≤ 2 := by
      rcases hname with hname | hname | hname <;> rw [hname] <;> decide
    have hstem' : stem.length ≠ 0 := fun h => hstem (String.length_eq_zero_iff.1 h)
    have hending : ending.length ≠ 0 := fun h => hne (String.length_eq_zero_iff.1 h)
    have hdotLength : ".".length = 1 := rfl
    rw [String.length_append, String.length_append, hdotLength] at hlength
    omega
  · rw [Option.bind_some, Path.splitExtension_snd_iff]
    simp [hdot]

theorem isHandlerSource_iff {name : String} (h : '/' ∉ name.toList) :
    isHandlerSource name = true ↔ IsSourceName name := by
  have hending : (Path.extension? name).any handlerExtensions.contains = true ↔
      Path.extension? name = some "ts" ∨ Path.extension? name = some "tsx" ∨
        Path.extension? name = some "mts" := by
    cases Path.extension? name <;> simp [handlerExtensions]
  rw [isHandlerSource, Bool.and_eq_true, Bool.not_eq_true', ← Bool.not_eq_true, endsWith_iff,
    not_exists, hending, extension?_iff h (by decide) (by decide),
    extension?_iff h (by decide) (by decide), extension?_iff h (by decide) (by decide),
    IsSourceName, and_comm]
  have hjoin (stem ending : String) : stem ++ "." ++ ending = stem ++ ("." ++ ending) :=
    String.append_assoc
  simp only [hjoin, and_or_left, exists_or]
  rfl

end Route
end TypedRoutes
