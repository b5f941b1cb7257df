import TypedRoutes.Proofs.RenamedNames

/-! # References and other names of the same spelling

In a declaration a name may refer to a type, or be a key, a member, or part of a quoted text.  A
renaming should replace the references and leave the others.  It tells them apart by the characters
next to them, so it is right about a declaration exactly where these give the right answer.
-/

namespace TypedRoutes.Naming
open TypedRoutes.Text

inductive Role where
  | quoted
  | key
  | member
  | reference
  deriving DecidableEq, Repr

/-- A text in which the references to a name are replaced and everything else is as it was. -/
def referencesReplaced (name replacement : List Char) (role : Place → Role) (text : List Char) :
    List Char :=
  ((places text).map fun p =>
    if p.run = name ∧ role p = .reference then replacement else p.run).flatten

section
variable {name replacement : List Char} (hname : IsName name)
include hname

theorem turnsNames_references (hreplacement : IsName replacement) (role : Place → Role) :
    TurnsNames fun p => if p.run = name ∧ role p = .reference then replacement else p.run where
  name p hp := by
    split
    · exact hreplacement
    · exact hp.isName
  other p c hp hc := by
    have hne : p.run ≠ name := by
      rintro rfl
      rw [hp] at hname
      exact absurd (hname.2 c (.head _)) (by rw [hc]; exact Bool.false_ne_true)
    rw [if_neg fun h => hne h.1, hp]

end

/-- A renaming replaces the references to a name and nothing else exactly if the name begins and
ends with characters of words, the characters next to it keep it just where it is no reference, and
within no other name it is found where they do not keep it. -/
theorem renames_references_iff {declaration name replacement : String}
    (hname : IsName name.toList) (hreplacement : IsName replacement.toList)
    (role : Place → Role) :
    (renameDeclaredType declaration name replacement).toList =
        referencesReplaced name.toList replacement.toList role declaration.toList ↔
      name = replacement ∨
        (∀ p ∈ places declaration.toList, p.run = name.toList →
          (role p = .reference ↔ IsBounded name.toList ∧ p.isKept = false)) ∧
        ∀ p ∈ places declaration.toList, p.run ≠ name.toList → p.Undisturbed name.toList := by
  by_cases hsame : name = replacement
  · subst hsame
    have hself (p : Place) : (if p.run = name.toList ∧ role p = .reference then name.toList
        else p.run) = p.run := by
      split
      · rename_i h
        exact h.1.symm
      · rfl
    refine iff_of_true ?_ (.inl rfl)
    rw [renameDeclaredType, if_pos rfl, referencesReplaced, funext hself, map_run_places,
      flatten_runs]
  · have hne : name.toList ≠ replacement.toList := mt String.toList_inj.1 hsame
    rw [renameDeclaredType_eq_places hname hsame, referencesReplaced,
      changed_eq_iff (turnsNames_renamed hname hreplacement)
        (turnsNames_references hname hreplacement role), or_iff_right hsame, ← forall₂_and]
    refine forall₂_congr fun p hp => ?_
    by_cases hrun : p.run = name.toList
    · rw [renamed_name hname hp hrun, hrun]
      by_cases hkept : IsBounded name.toList ∧ p.isKept = false <;>
        by_cases hrole : role p = .reference <;> simp [hkept, hrole, hne, hne.symm]
    · rw [if_neg fun h => hrun h.1, renamed_eq_iff hname hne hp]
      simp [hrun]

def nodeRole (p : Place) : Role :=
  match p.before.length with
  | 14 => .key
  | 41 => .quoted
  | 75 => .member
  | _ => .reference

theorem nodeType_references :
    IsName "Node".toList ∧ IsName "Node_2".toList ∧
      (renameDeclaredType nodeType "Node" "Node_2").toList =
        referencesReplaced "Node".toList "Node_2".toList nodeRole nodeType.toList ∧
      ∀ p ∈ places nodeType.toList, p.run = "Node".toList →
        (nodeRole p = .reference ↔ IsBounded "Node".toList ∧ p.isKept = false) := by
  have hname : IsName "Node".toList := by decide +kernel
  have hreplacement : IsName "Node_2".toList := by decide +kernel
  have htext : (renameDeclaredType nodeType "Node" "Node_2").toList =
      referencesReplaced "Node".toList "Node_2".toList nodeRole nodeType.toList := by
    decide +kernel
  rcases (renames_references_iff hname hreplacement nodeRole).1 htext with hsame | ⟨hroles, -⟩
  · exact absurd hsame (by decide)
  · exact ⟨hname, hreplacement, htext, hroles⟩

/-- A type whose name is also that of a method, a word of a text, and a branch. -/
def branchingNode : String :=
  "interface Node \x7b Node(): string; label: 'the Node'; next: string extends string ? Node : 0 \x7d"

def branchingRole (p : Place) : Role :=
  match p.before.length with
  | 17 => .key
  | 45 => .quoted
  | _ => .reference

/-- The method and the text are renamed, and the reference in the branch is not. -/
theorem branchingNode_mistaken :
    renameDeclaredType branchingNode "Node" "Node_2" =
        "interface Node_2 \x7b Node_2(): string; label: 'the Node_2'; " ++
          "next: string extends string ? Node : 0 \x7d" ∧
      String.ofList (referencesReplaced "Node".toList "Node_2".toList branchingRole
          branchingNode.toList) =
        "interface Node_2 \x7b Node(): string; label: 'the Node'; " ++
          "next: string extends string ? Node_2 : 0 \x7d" ∧
      (renameDeclaredType branchingNode "Node" "Node_2").toList ≠
        referencesReplaced "Node".toList "Node_2".toList branchingRole branchingNode.toList := by
  decide +kernel

end TypedRoutes.Naming
