import Mathlib.Data.List.Basic

/-! # Tables kept as lists

A table is a list of keys with values, in which the first entry of a key counts.  Entries can be
dropped by their keys, and the other keys keep their values.
-/

namespace TypedRoutes

variable {κ β : Type} [BEq κ] [LawfulBEq κ] (table : List (κ × β)) (keeps : κ → Bool) {key : κ}

theorem lookup_filter_fst (h : keeps key = true) :
    (table.filter fun p => keeps p.1).lookup key = table.lookup key := by
  induction table with
  | nil => rfl
  | cons p table ih =>
    obtain ⟨other, value⟩ := p
    by_cases hkeeps : keeps other = true
    · simp [hkeeps, List.lookup_cons, ih]
    · have hne : (key == other) = false := by
        rw [beq_eq_false_iff_ne]
        rintro rfl
        exact hkeeps h
      simp [hkeeps, List.lookup_cons, ih, hne]

theorem lookup_filter_fst_eq_none (h : keeps key = false) :
    (table.filter fun p => keeps p.1).lookup key = none := by
  rw [List.lookup_eq_none_iff]
  intro p hp
  rw [bne_iff_ne]
  rintro rfl
  rw [(List.mem_filter.1 hp).2] at h
  cases h

theorem lookup_eq_some_iff_mem {table : List (κ × β)} (h : (table.map Prod.fst).Nodup) {value : β} :
    table.lookup key = some value ↔ (key, value) ∈ table := by
  induction table with
  | nil => simp
  | cons entry table ih =>
    obtain ⟨other, found⟩ := entry
    rw [List.map_cons, List.nodup_cons] at h
    rw [List.lookup_cons, List.mem_cons, ← ih h.2]
    by_cases hkey : key = other
    · subst hkey
      have habsent : (key, value) ∉ table := fun hmem => h.1 (List.mem_map.2 ⟨_, hmem, rfl⟩)
      simp [ih h.2, habsent, eq_comm]
    · have hne : (key == other) = false := beq_eq_false_iff_ne.2 hkey
      simp [hne, hkey]

end TypedRoutes
