import TypedRoutes.Proofs.TemplateReading

/-! # Readings at the starts of lines

A scan reads at the starts of the lines of a text and goes on behind what it has read.  So what
could be read at the start of a line is read there, unless the scan has read past that start before.
-/

namespace TypedRoutes.Naming
open TypedRoutes.Text TypedRoutes.Template

@[simp] theorem lineBeginsAfter_nil (atStart : Bool) : lineBeginsAfter atStart [] = atStart := rfl

theorem lineBeginsAfter_cons (atStart : Bool) (c : Char) (cs : List Char) :
    lineBeginsAfter atStart (c :: cs) = lineBeginsAfter (c = '\n') cs := rfl

theorem lineBeginsAfter_append (atStart : Bool) (cs ds : List Char) :
    lineBeginsAfter atStart (cs ++ ds) = lineBeginsAfter (lineBeginsAfter atStart cs) ds :=
  List.foldl_append

section
variable {α : Type} {read : List Char → Option (α × Nat)}

theorem scanLineStarts_skip (atStart : Bool) (cs ds : List Char) :
    scanLineStarts read atStart cs.length (cs ++ ds) =
      scanLineStarts read (lineBeginsAfter atStart cs) 0 ds := by
  induction cs generalizing atStart with
  | nil => rfl
  | cons c cs ih =>
    rw [List.cons_append, List.length_cons, scanLineStarts, if_pos (Nat.succ_pos _)]
    exact ih _

theorem scanLineStarts_of_none {atStart : Bool} {c : Char} {cs : List Char}
    (h : (if atStart then read (c :: cs) else none) = none) :
    scanLineStarts read atStart 0 (c :: cs) = scanLineStarts read (c = '\n') 0 cs := by
  rw [scanLineStarts, if_neg (Nat.lt_irrefl 0), h]

theorem scanLineStarts_of_some {atStart : Bool} {c : Char} {cs : List Char} {a : α} {n : Nat}
    (h : (if atStart then read (c :: cs) else none) = some (a, n)) :
    scanLineStarts read atStart 0 (c :: cs) =
      a :: scanLineStarts read (c = '\n') (n - 1) cs := by
  rw [scanLineStarts, if_neg (Nat.lt_irrefl 0), h]

/-- A reading that began before a place and goes past it. -/
def ReadsPast (read : List Char → Option (α × Nat)) (atStart : Bool) (before rest : List Char)
    (a : α) : Prop :=
  ∃ front run n, before = front ++ run ∧ lineBeginsAfter atStart front = true ∧
    read (run ++ rest) = some (a, n) ∧ run.length < n

/-- A scan comes to a place, or else it reads past it. -/
theorem scanLineStarts_reaches (read : List Char → Option (α × Nat)) (atStart : Bool)
    (before rest : List Char) :
    (∀ a ∈ scanLineStarts read (lineBeginsAfter atStart before) 0 rest,
      a ∈ scanLineStarts read atStart 0 (before ++ rest)) ∨
    ∃ a ∈ scanLineStarts read atStart 0 (before ++ rest), ReadsPast read atStart before rest a := by
  -- the text before the place gets shorter by what is read, or by one character
  induction hlength : before.length using Nat.strongRecOn generalizing atStart before with
  | ind length ih =>
    cases before with
    | nil => exact .inl fun a ha => ha
    | cons c cs =>
      subst hlength
      have hlater {passed more : List Char} (hcs : cs = passed ++ more) {a : α}
          (h : ReadsPast read (lineBeginsAfter (c = '\n') passed) more rest a) :
          ReadsPast read atStart (c :: cs) rest a := by
        obtain ⟨front, run, n, rfl, hstart, hread, hpast⟩ := h
        refine ⟨c :: (passed ++ front), run, n, by simp [hcs], ?_, hread, hpast⟩
        rw [lineBeginsAfter_cons, lineBeginsAfter_append, hstart]
      rcases hfound : (if atStart then read (c :: (cs ++ rest)) else none) with _ | ⟨a, n⟩
      · rw [List.cons_append, scanLineStarts_of_none hfound, lineBeginsAfter_cons]
        refine (ih cs.length (Nat.lt_succ_self _) (c = '\n') cs rfl).imp_right ?_
        rintro ⟨a, ha, hpast⟩
        exact ⟨a, ha, hlater cs.nil_append.symm hpast⟩
      · rw [List.cons_append, scanLineStarts_of_some hfound]
        by_cases hn : n - 1 ≤ cs.length
        · obtain ⟨passed, more, rfl, hpassed⟩ : ∃ passed more, cs = passed ++ more ∧
              passed.length = n - 1 :=
            ⟨_, _, (List.take_append_drop (n - 1) cs).symm, List.length_take_of_le hn⟩
          have hmore : more.length < (c :: (passed ++ more)).length := by
            simp only [List.length_cons, List.length_append]
            omega
          rw [← hpassed, List.append_assoc, scanLineStarts_skip, lineBeginsAfter_cons,
            lineBeginsAfter_append]
          rcases ih more.length hmore _ more rfl with hreach | ⟨b, hb, hpast⟩
          · exact .inl fun b hb => .tail _ (hreach b hb)
          · exact .inr ⟨b, .tail _ hb, hlater rfl hpast⟩
        · refine .inr ⟨a, .head _, [], c :: cs, n, rfl, ?_, ?_, ?_⟩
          · by_contra hstart
            rw [lineBeginsAfter_nil] at hstart
            rw [if_neg hstart] at hfound
            cases hfound
          · split at hfound
            · exact hfound
            · cases hfound
          · rw [List.length_cons]
            omega

/-- What can be read at the start of a line is found if all that may be read instead, from earlier
lines past that start, will do as well. -/
theorem exists_mem_scanLineStarts (read : List Char → Option (α × Nat)) {atStart : Bool}
    {before rest : List Char} {p : α → Prop}
    (hstart : lineBeginsAfter atStart before = true) (hrest : rest ≠ [])
    (hread : (read rest).isSome) (hpast : ∀ a, ReadsPast read atStart before rest a → p a)
    (hlength : ∀ a n, read rest = some (a, n) → 0 < n) :
    ∃ a ∈ scanLineStarts read atStart 0 (before ++ rest), p a := by
  rcases scanLineStarts_reaches read atStart before rest with hreach | ⟨a, ha, h⟩
  · obtain ⟨⟨a, n⟩, hfound⟩ := Option.isSome_iff_exists.1 hread
    refine ⟨a, hreach a ?_, hpast a ⟨before, [], n, by simp, hstart, hfound, hlength a n hfound⟩⟩
    obtain ⟨c, cs, rfl⟩ := List.exists_cons_of_ne_nil hrest
    rw [hstart, scanLineStarts_of_some (by rwa [if_pos rfl])]
    exact .head _
  · exact ⟨a, ha, hpast a h⟩

theorem read_of_mem_scanLineStarts {atStart : Bool} {skip : Nat} {text : List Char} {a : α}
    (h : a ∈ scanLineStarts read atStart skip text) :
    ∃ before rest n, text = before ++ rest ∧ lineBeginsAfter atStart before = true ∧
      read rest = some (a, n) := by
  induction text generalizing atStart skip with
  | nil => cases h
  | cons c cs ih =>
    have hlater {skip : Nat} (h : a ∈ scanLineStarts read (c = '\n') skip cs) :
        ∃ before rest n, c :: cs = before ++ rest ∧ lineBeginsAfter atStart before = true ∧
          read rest = some (a, n) := by
      obtain ⟨before, rest, n, rfl, hstart, hread⟩ := ih h
      exact ⟨c :: before, rest, n, rfl, hstart, hread⟩
    rw [scanLineStarts] at h
    split at h
    · exact hlater h
    · split at h
      · rename_i hfound
        split at hfound
        · rename_i hstart
          rcases List.mem_cons.1 h with rfl | h
          · exact ⟨[], c :: cs, _, rfl, hstart, hfound⟩
          · exact hlater h
        · cases hfound
      · exact hlater h

end

end TypedRoutes.Naming
