import TypedRoutes.Proofs.RenamedWords

/-! # Renaming, name by name

A name may have dollar signs, which belong to no word, so a renaming also finds it within longer
names and misses it where it begins or ends with one.  Still no name of a text has a part in what
becomes of another: each is searched by itself.  Here is what becomes of it, and when it stays.
-/

namespace TypedRoutes.Naming
open TypedRoutes.Text

/-- What becomes of a run between a character and a text. -/
def renamedRun (name replacement : List Char) (before : Option Char) (run after : List Char) :
    List Char :=
  ((renameImages name replacement before 0 (run ++ after)).take run.length).flatten

structure Occurs (name : List Char) (before : Option Char) (run after front back : List Char) :
    Prop where
  run_eq : run = front ++ name ++ back
  stands : standsAt name (front.getLast?.or before) (name ++ (back ++ after)) = true

/-- Every occurrence in a run is kept, or begins within one that is. -/
def Undisturbed (name : List Char) (before : Option Char) (run after : List Char) : Prop :=
  ∀ front back, Occurs name before run after front back →
    isKept (front.getLast?.or before) (back ++ after) = true ∨
      front ≠ [] ∧ front.length < name.length ∧
        ∃ rest, Occurs name before run after [] rest ∧ isKept before (rest ++ after) = true

section Search
variable {name replacement after : List Char}

theorem renameImages_skip (before : Option Char) (skipped rest : List Char) :
    renameImages name replacement before skipped.length (skipped ++ rest) =
      List.replicate skipped.length [] ++
        renameImages name replacement (skipped.getLast?.or before) 0 rest := by
  induction skipped generalizing before with
  | nil => rfl
  | cons c cs ih =>
    rw [List.cons_append, List.length_cons, renameImages, if_pos (Nat.succ_pos _),
      Nat.add_sub_cancel, ih, getLast?_cons_or, List.replicate_succ, List.cons_append]

theorem renameImages_found (hname : name ≠ []) {before : Option Char} {rest : List Char}
    (hstands : standsAt name before (name ++ rest) = true) :
    renameImages name replacement before 0 (name ++ rest) =
      (if isKept before rest then name else replacement) ::
        (List.replicate (name.length - 1) [] ++
          renameImages name replacement name.getLast? 0 rest) := by
  obtain ⟨c, cs, rfl⟩ := List.exists_cons_of_ne_nil hname
  have hlast : (c :: cs).getLast? = cs.getLast?.or (some c) := by
    rw [← getLast?_cons_or c cs none, Option.or_none]
  rw [List.cons_append] at hstands ⊢
  rw [renameImages, if_neg (Nat.lt_irrefl 0), if_pos hstands, ← List.cons_append, List.drop_left,
    List.length_cons, Nat.add_sub_cancel, renameImages_skip, hlast]

theorem renamedRun_nil (before : Option Char) :
    renamedRun name replacement before [] after = [] := by
  simp [renamedRun]

theorem renamedRun_found (hname : name ≠ []) {before : Option Char} {rest : List Char}
    (hstands : standsAt name before (name ++ (rest ++ after)) = true) :
    renamedRun name replacement before (name ++ rest) after =
      (if isKept before (rest ++ after) then name else replacement) ++
        renamedRun name replacement name.getLast? rest after := by
  have hlength : name.length - 1 + 1 = name.length :=
    Nat.sub_add_cancel (List.length_pos_iff.2 hname)
  rw [renamedRun, List.append_assoc, renameImages_found hname hstands, List.length_append,
    ← hlength, Nat.add_right_comm, List.take_succ_cons, List.flatten_cons, hlength,
    List.take_append]
  simp [renamedRun]

theorem renamedRun_passed {before : Option Char} {c : Char} {cs : List Char}
    (hstands : standsAt name before (c :: (cs ++ after)) = false) :
    renamedRun name replacement before (c :: cs) after =
      c :: renamedRun name replacement (some c) cs after := by
  rw [renamedRun, List.cons_append, renameImages, if_neg (Nat.lt_irrefl 0), hstands,
    if_neg Bool.false_ne_true, List.length_cons, List.take_succ_cons]
  rfl

/-- A run is searched from its beginning: an occurrence is passed as a whole. -/
@[elab_as_elim]
theorem search_induction (hname : IsName name) (hend : after.head?.any isNamePart = false)
    {motive : Option Char → List Char → Prop} (nil : ∀ before, motive before [])
    (found : ∀ before rest, standsAt name before (name ++ (rest ++ after)) = true →
      motive name.getLast? rest → motive before (name ++ rest))
    (passed : ∀ before c cs, standsAt name before (c :: (cs ++ after)) = false →
      motive (some c) cs → motive before (c :: cs))
    (before : Option Char) (run : List Char) : motive before run := by
  induction hn : run.length using Nat.strong_induction_on generalizing before run with
  | _ n ih =>
    cases run with
    | nil => exact nil before
    | cons c cs =>
      rw [List.length_cons] at hn
      cases hstands : standsAt name before (c :: (cs ++ after)) with
      | false => exact passed before c cs hstands (ih cs.length (by omega) _ cs rfl)
      | true =>
        have hbegins : name.isPrefixOf (c :: cs) = true := by
          rw [← isPrefixOf_append hname.2 hend]
          simp only [standsAt, Bool.and_eq_true] at hstands
          exact hstands.1.1
        obtain ⟨rest, hrest⟩ := List.isPrefixOf_iff_prefix.1 hbegins
        have hlength := congrArg List.length hrest
        have hpos := List.length_pos_iff.2 hname.1
        rw [List.length_append, List.length_cons] at hlength
        rw [← List.cons_append, ← hrest, List.append_assoc] at hstands
        rw [← hrest]
        exact found before rest hstands (ih rest.length (by omega) _ rest rfl)

/-! ## What is found in a run -/

theorem occurs_nil_iff {before : Option Char} {run back : List Char} :
    Occurs name before run after [] back ↔
      run = name ++ back ∧ standsAt name before (name ++ (back ++ after)) = true :=
  ⟨fun h => ⟨h.run_eq, h.stands⟩, fun h => ⟨h.1, h.2⟩⟩

theorem occurs_cons_iff {before : Option Char} {c : Char} {cs front back : List Char} :
    Occurs name before (c :: cs) after (c :: front) back ↔
      Occurs name (some c) cs after front back := by
  constructor
  · rintro ⟨hrun, hstands⟩
    rw [getLast?_cons_or] at hstands
    exact ⟨by simpa using hrun, hstands⟩
  · rintro ⟨hrun, hstands⟩
    rw [← getLast?_cons_or c front before] at hstands
    exact ⟨by simp [hrun], hstands⟩

theorem getLast?_append_or (hname : name ≠ []) (front : List Char) (before : Option Char) :
    (name ++ front).getLast?.or before = front.getLast?.or name.getLast? := by
  obtain ⟨last, hlast⟩ := Option.ne_none_iff_exists'.1 (mt List.getLast?_eq_none_iff.1 hname)
  rw [List.getLast?_append, Option.or_assoc, hlast, Option.some_or]

theorem occurs_append_iff (hname : name ≠ []) {before : Option Char} {rest front back : List Char} :
    Occurs name before (name ++ rest) after (name ++ front) back ↔
      Occurs name name.getLast? rest after front back := by
  constructor
  · rintro ⟨hrun, hstands⟩
    rw [getLast?_append_or hname] at hstands
    exact ⟨by simpa using hrun, hstands⟩
  · rintro ⟨hrun, hstands⟩
    rw [← getLast?_append_or hname front before] at hstands
    exact ⟨by simp [hrun], hstands⟩

theorem eq_nil_of_isKept {c : Char} (hc : isNamePart c = true) {back : List Char}
    (hback : ∀ x ∈ back, isNamePart x = true) (h : isKept (some c) (back ++ after) = true) :
    back = [] := by
  cases back with
  | nil => rfl
  | cons d ds =>
    rw [List.cons_append, isKept_cons_name (hback d (.head _)), isKept_after_name hc] at h
    cases h

/-- Nothing that begins after a character of a run overlaps with what is kept at its end. -/
theorem not_overlapping {c : Char} (hc : isNamePart c = true) {run front back : List Char}
    (hrun : ∀ x ∈ run, isNamePart x = true) (hat : Occurs name (some c) run after front back)
    (hfront : front ≠ []) {rest : List Char} (hfirst : Occurs name (some c) run after [] rest)
    (hkept : isKept (some c) (rest ++ after) = true) : False := by
  have heq : run = name ++ rest := hfirst.run_eq
  have hrest : rest = [] :=
    eq_nil_of_isKept hc (fun x hx => hrun x (by simp [heq, hx])) hkept
  have hlength := congrArg List.length (hat.run_eq.symm.trans heq)
  have hpos := List.length_pos_iff.2 hfront
  rw [hrest] at hlength
  simp only [List.length_append, List.length_nil] at hlength
  omega

theorem undisturbed_of_found (hname : name ≠ []) {before : Option Char} {rest : List Char}
    (h : Undisturbed name before (name ++ rest) after) :
    Undisturbed name name.getLast? rest after := by
  intro front back hat
  rcases h _ back ((occurs_append_iff hname).2 hat) with hkept | ⟨-, hshort, -⟩
  · rw [getLast?_append_or hname] at hkept
    exact .inl hkept
  · rw [List.length_append] at hshort
    omega

theorem undisturbed_of_passed {before : Option Char} {c : Char} {cs : List Char}
    (hstands : standsAt name before (c :: (cs ++ after)) = false)
    (h : Undisturbed name before (c :: cs) after) : Undisturbed name (some c) cs after := by
  intro front back hat
  rcases h _ back (occurs_cons_iff.2 hat) with hkept | ⟨-, -, rest, hfirst, -⟩
  · rw [getLast?_cons_or] at hkept
    exact .inl hkept
  · obtain ⟨hrun, hfound⟩ := occurs_nil_iff.1 hfirst
    rw [← List.append_assoc, ← hrun, List.cons_append, hstands] at hfound
    cases hfound

/-- What is kept at the beginning of a run disturbs the run no more than the rest does. -/
theorem undisturbed_of_kept (hname : IsName name) {before : Option Char} {rest : List Char}
    (hstands : standsAt name before (name ++ (rest ++ after)) = true)
    (hkept : isKept before (rest ++ after) = true) (hrest : ∀ c ∈ rest, isNamePart c = true)
    (h : Undisturbed name name.getLast? rest after) :
    Undisturbed name before (name ++ rest) after := by
  have hfirst : Occurs name before (name ++ rest) after [] rest :=
    occurs_nil_iff.2 ⟨rfl, hstands⟩
  intro front back hat
  by_cases hshort : front.length < name.length
  · by_cases hfront : front = []
    · subst hfront
      have hback : back = rest := by simpa using hat.run_eq.symm
      exact .inl (by rw [hback]; exact hkept)
    · exact .inr ⟨hfront, hshort, rest, hfirst, hkept⟩
  · obtain ⟨front, rfl⟩ : name <+: front := by
      have hprefix : front <+: name ++ rest := ⟨name ++ back, by simp [hat.run_eq]⟩
      exact List.prefix_of_prefix_length_le (List.prefix_append name rest) hprefix (by omega)
    obtain ⟨last, hlast⟩ :=
      Option.ne_none_iff_exists'.1 (mt List.getLast?_eq_none_iff.1 hname.1)
    have hpart : isNamePart last = true := hname.2 last (List.mem_of_getLast? hlast)
    rw [occurs_append_iff hname.1] at hat
    rw [getLast?_append_or hname.1]
    rcases h front back hat with hkeeps | ⟨hfront, -, first, hfirst, hkeeps⟩
    · exact .inl hkeeps
    · rw [hlast] at hat hfirst hkeeps
      exact (not_overlapping hpart hrest hat hfront hfirst hkeeps).elim

theorem undisturbed_cons {before : Option Char} {c : Char} {cs : List Char}
    (hstands : standsAt name before (c :: (cs ++ after)) = false) (hc : isNamePart c = true)
    (hcs : ∀ d ∈ cs, isNamePart d = true) (h : Undisturbed name (some c) cs after) :
    Undisturbed name before (c :: cs) after := by
  intro front back hat
  cases front with
  | nil =>
    obtain ⟨heq, hfound⟩ := occurs_nil_iff.1 hat
    rw [← List.append_assoc, ← heq, List.cons_append, hstands] at hfound
    cases hfound
  | cons d front =>
    obtain rfl : c = d := (List.cons.inj (by simpa using hat.run_eq)).1
    rw [occurs_cons_iff] at hat
    rw [getLast?_cons_or]
    rcases h front back hat with hkeeps | ⟨hfront, -, first, hfirst, hkeeps⟩
    · exact .inl hkeeps
    · exact (not_overlapping hc hcs hat hfront hfirst hkeeps).elim

/-! ## What becomes of a run -/

variable (hname : IsName name) (hend : after.head?.any isNamePart = false)
include hname hend

/-- A renaming does to each run what it does to it alone. -/
theorem renameFrom_append (before : Option Char) (run : List Char) :
    renameFrom name replacement before 0 (run ++ after) =
      renamedRun name replacement before run after ++
        renameFrom name replacement (run.getLast?.or before) 0 after := by
  rw [← flatten_renameImages replacement hname.1, ← flatten_renameImages replacement hname.1]
  induction before, run using search_induction hname hend with
  | nil before => simp [renamedRun_nil]
  | found before rest hstands ih =>
    rw [List.append_assoc, renameImages_found hname.1 hstands, renamedRun_found hname.1 hstands,
      getLast?_append_or hname.1, List.flatten_cons, List.flatten_append, ih]
    simp
  | passed before c cs hstands ih =>
    rw [List.cons_append, renameImages, if_neg (Nat.lt_irrefl 0), hstands,
      if_neg Bool.false_ne_true, renamedRun_passed hstands, getLast?_cons_or, List.flatten_cons, ih]
    simp

variable (replacement) in
theorem length_renamedRun (before : Option Char) (run : List Char) :
    ∃ n, (renamedRun name replacement before run after).length + n * name.length =
      run.length + n * replacement.length := by
  induction before, run using search_induction hname hend with
  | nil before => exact ⟨0, by simp [renamedRun_nil]⟩
  | found before rest hstands ih =>
    obtain ⟨n, hn⟩ := ih
    rw [renamedRun_found hname.1 hstands, List.length_append, List.length_append]
    split
    · exact ⟨n, by omega⟩
    · exact ⟨n + 1, by rw [Nat.add_mul, Nat.add_mul]; omega⟩
  | passed before c cs hstands ih =>
    obtain ⟨n, hn⟩ := ih
    exact ⟨n, by rw [renamedRun_passed hstands, List.length_cons, List.length_cons]; omega⟩

theorem renamedRun_ne (hne : name ≠ replacement) (before : Option Char) (rest : List Char) :
    replacement ++ renamedRun name replacement before rest after ≠ name ++ rest := by
  intro h
  obtain ⟨n, hn⟩ := length_renamedRun replacement hname hend before rest
  have hlength := congrArg List.length h
  rw [List.length_append, List.length_append] at hlength
  have hmul : (n + 1) * replacement.length = (n + 1) * name.length := by
    rw [Nat.add_mul, Nat.add_mul]
    omega
  exact hne (List.append_inj_left h (Nat.eq_of_mul_eq_mul_left (Nat.succ_pos n) hmul)).symm

theorem renamedRun_eq_of_undisturbed (before : Option Char) (run : List Char)
    (h : Undisturbed name before run after) :
    renamedRun name replacement before run after = run := by
  induction before, run using search_induction hname hend with
  | nil before => exact renamedRun_nil before
  | found before rest hstands ih =>
    have hkept : isKept before (rest ++ after) = true := by
      rcases h [] rest (occurs_nil_iff.2 ⟨rfl, hstands⟩) with hkept | ⟨hfront, -⟩
      · exact hkept
      · exact absurd rfl hfront
    rw [renamedRun_found hname.1 hstands, if_pos hkept, ih (undisturbed_of_found hname.1 h)]
  | passed before c cs hstands ih =>
    rw [renamedRun_passed hstands, ih (undisturbed_of_passed hstands h)]

theorem undisturbed_of_renamedRun_eq (hne : name ≠ replacement) (before : Option Char)
    (run : List Char) (hrun : ∀ c ∈ run, isNamePart c = true)
    (h : renamedRun name replacement before run after = run) :
    Undisturbed name before run after := by
  induction before, run using search_induction hname hend with
  | nil before =>
    intro front back hat
    have hempty := hat.run_eq.symm
    simp only [List.append_eq_nil_iff] at hempty
    exact absurd hempty.1.2 hname.1
  | found before rest hstands ih =>
    have hrest : ∀ c ∈ rest, isNamePart c = true := fun c hc => hrun c (List.mem_append_right _ hc)
    rw [renamedRun_found hname.1 hstands] at h
    cases hkept : isKept before (rest ++ after) with
    | false =>
      rw [hkept, if_neg Bool.false_ne_true] at h
      exact absurd h (renamedRun_ne hname hend hne _ rest)
    | true =>
      rw [hkept, if_pos rfl] at h
      exact undisturbed_of_kept hname hstands hkept hrest (ih hrest (List.append_cancel_left h))
  | passed before c cs hstands ih =>
    obtain ⟨hc, hcs⟩ := List.forall_mem_cons.1 hrun
    rw [renamedRun_passed hstands] at h
    exact undisturbed_cons hstands hc hcs (ih hcs (List.cons.inj h).2)

/-- A run stays as it is exactly if the renaming finds nothing in it that it does not keep. -/
theorem renamedRun_eq_iff (hne : name ≠ replacement) (before : Option Char) {run : List Char}
    (hrun : ∀ c ∈ run, isNamePart c = true) :
    renamedRun name replacement before run after = run ↔ Undisturbed name before run after :=
  ⟨undisturbed_of_renamedRun_eq hname hend hne before run hrun,
    renamedRun_eq_of_undisturbed hname hend before run⟩

theorem isName_renamedRun (hreplacement : IsName replacement) (before : Option Char)
    {run : List Char} (hrun : IsName run) :
    IsName (renamedRun name replacement before run after) := by
  have hparts (before : Option Char) (run : List Char) (hrun : ∀ c ∈ run, isNamePart c = true) :
      ∀ c ∈ renamedRun name replacement before run after, isNamePart c = true := by
    induction before, run using search_induction hname hend with
    | nil before => simp [renamedRun_nil]
    | found before rest hstands ih =>
      rw [renamedRun_found hname.1 hstands]
      intro c hc
      rcases List.mem_append.1 hc with hc | hc
      · split at hc
        · exact hname.2 c hc
        · exact hreplacement.2 c hc
      · exact ih (fun x hx => hrun x (List.mem_append_right _ hx)) c hc
    | passed before d cs hstands ih =>
      rw [renamedRun_passed hstands]
      exact List.forall_mem_cons.2 ⟨hrun d (.head _), ih fun x hx => hrun x (.tail _ hx)⟩
  refine ⟨?_, hparts before run hrun.2⟩
  induction before, run using search_induction hname hend with
  | nil before => exact absurd rfl hrun.1
  | found before rest hstands _ =>
    rw [renamedRun_found hname.1 hstands]
    intro hnil
    rw [List.append_eq_nil_iff] at hnil
    have hfirst := hnil.1
    split at hfirst
    · exact hname.1 hfirst
    · exact hreplacement.1 hfirst
  | passed before c cs hstands _ =>
    rw [renamedRun_passed hstands]
    exact List.cons_ne_nil _ _

/-! ## What becomes of the name itself -/

end Search

/-- The name begins and ends with characters of words. -/
def IsBounded (name : List Char) : Prop :=
  name.head?.any isWordCharacter = true ∧ name.getLast?.any isWordCharacter = true

instance (name : List Char) : Decidable (IsBounded name) :=
  inferInstanceAs (Decidable (_ ∧ _))

theorem not_word_of_not_name {c? : Option Char} (h : c?.any isNamePart = false) :
    c?.any isWordCharacter = false := by
  cases c? with
  | none => rfl
  | some c => exact isWordCharacter_of_not_isNamePart h

section Whole
variable {name replacement after : List Char} {before : Option Char} (hname : IsName name)
  (hbefore : before.any isNamePart = false) (hend : after.head?.any isNamePart = false)
include hname hbefore hend

/-- As a whole a name is found exactly if it begins and ends with characters of words. -/
theorem standsAt_whole_iff : standsAt name before (name ++ after) = true ↔ IsBounded name := by
  obtain ⟨c, cs, rfl⟩ := List.exists_cons_of_ne_nil hname.1
  obtain ⟨last, hlast⟩ := Option.ne_none_iff_exists'.1
    (mt List.getLast?_eq_none_iff.1 (List.cons_ne_nil c cs))
  have hprefix : (c :: cs).isPrefixOf (c :: cs ++ after) = true :=
    List.isPrefixOf_iff_prefix.2 (List.prefix_append _ _)
  rw [standsAt, hprefix, List.drop_left, isWordBoundary, isWordBoundary, hlast,
    not_word_of_not_name hbefore, not_word_of_not_name hend, IsBounded, hlast]
  simp

theorem renamedRun_name :
    renamedRun name replacement before name after =
      if IsBounded name ∧ isKept before after = false then replacement else name := by
  have hiff := standsAt_whole_iff hname hbefore hend
  by_cases hbounded : IsBounded name
  · have hfound : renamedRun name replacement before (name ++ []) after = _ :=
      renamedRun_found hname.1 (hiff.2 hbounded)
    rw [List.append_nil, renamedRun_nil, List.append_nil, List.nil_append] at hfound
    rw [hfound]
    cases isKept before after <;> simp [hbounded]
  · rw [if_neg fun h => hbounded h.1]
    apply renamedRun_eq_of_undisturbed hname hend
    intro front back hat
    have hlength := congrArg List.length hat.run_eq
    simp only [List.length_append] at hlength
    have hfront : front = [] := List.length_eq_zero_iff.1 (by omega)
    have hback : back = [] := List.length_eq_zero_iff.1 (by omega)
    subst hfront hback
    exact absurd (hiff.1 hat.stands) hbounded

end Whole

/-! ## Names in their places -/

structure Place where
  before : List Char
  run : List Char
  after : List Char

namespace Place

def renamed (name replacement : List Char) (p : Place) : List Char :=
  renamedRun name replacement p.before.getLast? p.run p.after

/-- The characters next to the place keep what stands in it. -/
def isKept (p : Place) : Bool := Naming.isKept p.before.getLast? p.after

/-- Nothing that a renaming finds within the place is replaced. -/
def Undisturbed (name : List Char) (p : Place) : Prop :=
  Naming.Undisturbed name p.before.getLast? p.run p.after

/-- A whole name stands in the place. -/
structure IsWhole (p : Place) : Prop where
  isName : IsName p.run
  starts : p.before.getLast?.any isNamePart = false
  ends : p.after.head?.any isNamePart = false

end Place

/-- The places of the runs of a text that follows another. -/
def placesIn (before : List Char) : List (List Char) → List Place
  | [] => []
  | run :: rest => ⟨before, run, rest.flatten⟩ :: placesIn (before ++ run) rest

def places (text : List Char) : List Place := placesIn [] (runs isNamePart text)

theorem map_run_placesIn (before : List Char) (rs : List (List Char)) :
    (placesIn before rs).map Place.run = rs := by
  induction rs generalizing before with
  | nil => rfl
  | cons run rest ih => rw [placesIn, List.map_cons, ih]

theorem map_run_places (text : List Char) : (places text).map Place.run = runs isNamePart text :=
  map_run_placesIn [] _

theorem flatten_runs (inside : Char → Bool) (text : List Char) :
    (runs inside text).flatten = text :=
  List.flatten_splitBy _ text

/-- A text may follow another where no name goes on from one to the other. -/
def Divided (before text : List Char) : Prop :=
  before.getLast?.any isNamePart = false ∨ text.head?.any isNamePart = false

section Places
variable {before : List Char}

theorem Divided.isWhole {word rest : List Char} (hword : IsName word)
    (hend : rest.head?.any isNamePart = false) (h : Divided before (word ++ rest)) :
    Place.IsWhole ⟨before, word, rest⟩ := by
  refine ⟨hword, ?_, hend⟩
  rcases h with h | h
  · exact h
  · obtain ⟨c, cs, rfl⟩ := List.exists_cons_of_ne_nil hword.1
    rw [List.cons_append, List.head?_cons, Option.any_some, hword.2 c (.head _)] at h
    cases h

theorem divided_after {c : Char} (hc : isNamePart c = false) (rest : List Char) :
    Divided (before ++ [c]) rest :=
  .inl (by simpa using hc)

/-- In each place is a whole name, or a character that no name has. -/
theorem isWhole_of_mem_placesIn {text : List Char} (hstart : Divided before text) {p : Place}
    (hp : p ∈ placesIn before (runs isNamePart text)) :
    p.IsWhole ∨ ∃ c, p.run = [c] ∧ isNamePart c = false := by
  induction text using runs_induction isNamePart generalizing before with
  | nil => cases hp
  | outside c rest hc ih =>
    rw [runs_cons hc, placesIn] at hp
    rcases List.mem_cons.1 hp with rfl | hp
    · exact .inr ⟨c, rfl, hc⟩
    · exact ih (divided_after hc rest) hp
  | run word rest hne hword hend ih =>
    rw [runs_append hne hword hend, placesIn, flatten_runs] at hp
    rcases List.mem_cons.1 hp with rfl | hp
    · exact .inl (hstart.isWhole ⟨hne, hword⟩ hend)
    · exact ih (.inr hend) hp

theorem isWhole_of_mem_places {text : List Char} {p : Place} (hp : p ∈ places text) :
    p.IsWhole ∨ ∃ c, p.run = [c] ∧ isNamePart c = false :=
  isWhole_of_mem_placesIn (.inl rfl) hp

/-- A change of a text that turns names into names and leaves all else in its place. -/
structure TurnsNames (change : Place → List Char) : Prop where
  name : ∀ p, p.IsWhole → IsName (change p)
  other : ∀ p c, p.run = [c] → isNamePart c = false → change p = [c]

theorem runs_changed {change : Place → List Char} (hchange : TurnsNames change)
    {text : List Char} (hstart : Divided before text) :
    runs isNamePart ((placesIn before (runs isNamePart text)).map change).flatten =
      (placesIn before (runs isNamePart text)).map change := by
  induction text using runs_induction isNamePart generalizing before with
  | nil => rfl
  | outside c rest hc ih =>
    rw [runs_cons hc, placesIn, flatten_runs, List.map_cons, List.flatten_cons,
      hchange.other _ c rfl hc, List.singleton_append, runs_cons hc, ih (divided_after hc rest)]
  | run word rest hne hword hend ih =>
    have hname := hchange.name _ (hstart.isWhole ⟨hne, hword⟩ hend)
    have hend' : ((placesIn (before ++ word) (runs isNamePart rest)).map change).flatten.head?.any
        isNamePart = false := by
      cases rest with
      | nil => rfl
      | cons c cs =>
        have hc : isNamePart c = false := hend
        rw [runs_cons hc, placesIn, List.map_cons, List.flatten_cons, hchange.other _ c rfl hc]
        exact hc
    rw [runs_append hne hword hend, placesIn, flatten_runs, List.map_cons, List.flatten_cons,
      runs_append hname.1 hname.2 hend', ih (.inr hend)]

/-- Two such changes give the same text only if they do the same in each place. -/
theorem changed_eq_iff {change change' : Place → List Char} (hchange : TurnsNames change)
    (hchange' : TurnsNames change') (text : List Char) :
    ((places text).map change).flatten = ((places text).map change').flatten ↔
      ∀ p ∈ places text, change p = change' p := by
  constructor
  · intro h
    have hruns := congrArg (runs isNamePart) h
    rw [places, runs_changed hchange (.inl rfl), runs_changed hchange' (.inl rfl)] at hruns
    exact List.map_inj_left.1 hruns
  · intro h
    rw [List.map_congr_left h]

/-! ## Renaming in places -/

variable {name replacement : List Char} (hname : IsName name)
include hname

theorem renamedRun_other {c : Char} (hc : isNamePart c = false) (b : Option Char)
    (after : List Char) : renamedRun name replacement b [c] after = [c] := by
  rw [renamedRun_passed (not_standsAt_of_head hname hc b _), renamedRun_nil]

theorem turnsNames_renamed (hreplacement : IsName replacement) :
    TurnsNames (Place.renamed name replacement) where
  name p hp := isName_renamedRun hname hp.ends hreplacement _ hp.isName
  other p c hp hc := by rw [Place.renamed, hp, renamedRun_other hname hc]

theorem renameFrom_other {c : Char} (hc : isNamePart c = false) (b : Option Char)
    (after : List Char) : renameFrom name replacement b 0 (c :: after) =
      c :: renameFrom name replacement (some c) 0 after :=
  renameFrom_passed (not_standsAt_of_head hname hc b after)

/-- A renaming turns each run of a text into what it makes of it in its place. -/
theorem renameFrom_eq_places {text : List Char} (hstart : Divided before text) :
    renameFrom name replacement before.getLast? 0 text =
      ((placesIn before (runs isNamePart text)).map (Place.renamed name replacement)).flatten := by
  induction text using runs_induction isNamePart generalizing before with
  | nil => simp [renameFrom, standsAt_nil hname.1, runs, placesIn]
  | outside c rest hc ih =>
    rw [renameFrom_other hname hc, runs_cons hc, placesIn, List.map_cons, List.flatten_cons,
      Place.renamed, renamedRun_other hname hc, ← ih (divided_after hc rest),
      List.getLast?_append, List.getLast?_singleton, Option.some_or, List.singleton_append]
  | run word rest hne hword hend ih =>
    rw [renameFrom_append hname hend, runs_append hne hword hend, placesIn, flatten_runs,
      List.map_cons, List.flatten_cons, ← ih (.inr hend), List.getLast?_append]
    rfl

theorem renamed_name {text : List Char} {p : Place} (hp : p ∈ places text) (hrun : p.run = name) :
    p.renamed name replacement =
      if IsBounded name ∧ p.isKept = false then replacement else name := by
  rcases isWhole_of_mem_places hp with hwhole | ⟨c, hc, hother⟩
  · rw [Place.renamed, hrun, renamedRun_name hname hwhole.starts hwhole.ends]
    rfl
  · exact absurd (hname.2 c (by simp [← hrun, hc])) (by rw [hother]; exact Bool.false_ne_true)

theorem renamed_eq_iff (hne : name ≠ replacement) {text : List Char} {p : Place}
    (hp : p ∈ places text) : p.renamed name replacement = p.run ↔ p.Undisturbed name := by
  rcases isWhole_of_mem_places hp with hwhole | ⟨c, hc, hother⟩
  · exact renamedRun_eq_iff hname hwhole.ends hne _ hwhole.isName.2
  · refine iff_of_true (by rw [Place.renamed, hc, renamedRun_other hname hother]) ?_
    intro front back hat
    obtain ⟨d, hd⟩ := List.exists_mem_of_ne_nil name hname.1
    have hmem : d ∈ p.run := by simp [hat.run_eq, hd]
    rw [hc, List.mem_singleton] at hmem
    rw [← hmem, hname.2 d hd] at hother
    cases hother

end Places

theorem renameDeclaredType_eq_places {declaration name replacement : String}
    (hname : IsName name.toList) (hne : name ≠ replacement) :
    (renameDeclaredType declaration name replacement).toList =
      ((places declaration.toList).map
        (Place.renamed name.toList replacement.toList)).flatten := by
  rw [renameDeclaredType, if_neg hne, String.toList_ofList]
  have hstart : Divided [] declaration.toList := .inl rfl
  exact renameFrom_eq_places hname hstart

end TypedRoutes.Naming
