import TypedRoutes.Proofs.EndpointPaths

/-! # Prefixes in normal form

Blanks are stripped from a prefix, then slashes; what is left stands between two slashes.  A prefix
in normal form stays as it is, so it makes no difference whether a path is formed with a prefix or
with its normal form, and after the normal form the path is cut into the names it was made of.
-/

namespace TypedRoutes

namespace Text

/-! ## Stripping -/

section Strips
variable {p : Char → Bool} {text core : List Char}

/-- A part of a text with nothing around it but what satisfies `p`, and nothing of that at its own
ends. -/
structure Strips (p : Char → Bool) (text core : List Char) : Prop where
  around : ∃ before after, text = before ++ core ++ after ∧
    (∀ c ∈ before, p c = true) ∧ ∀ c ∈ after, p c = true
  head : ∀ c ∈ core.head?, p c = false
  last : ∀ c ∈ core.getLast?, p c = false

/-- Each text is stripped from its head and then from its end. -/
theorem strips_dropEndWhile (p : Char → Bool) (text : List Char) :
    Strips p text (dropEndWhile p (text.dropWhile p)) := by
  obtain ⟨run, hrun, hafter⟩ := exists_run_dropEndWhile p (text.dropWhile p)
  refine ⟨⟨text.takeWhile p, run, ?_, List.all_eq_true.1 List.all_takeWhile, hafter⟩, fun c hc => ?_,
    last_dropEndWhile p _⟩
  · rw [List.append_assoc, ← hrun, List.takeWhile_append_dropWhile]
  · refine head_dropWhile p text c ?_
    rw [hrun, List.head?_append, hc]
    rfl

theorem Strips.eq (h : Strips p text core) : dropEndWhile p (text.dropWhile p) = core := by
  obtain ⟨before, after, rfl, hbefore, hafter⟩ := h.around
  rw [List.append_assoc, List.dropWhile_append_of_pos hbefore]
  cases core with
  | nil =>
    rw [List.nil_append, List.dropWhile_eq_nil_iff.2 hafter]
    rfl
  | cons c rest =>
    have hhead : ∀ d ∈ (c :: rest ++ after).head?, p d = false := h.head
    rw [dropWhile_eq_self hhead, dropEndWhile_append hafter, dropEndWhile_eq_self h.last]

theorem strips_self (hhead : ∀ c ∈ text.head?, p c = false)
    (hlast : ∀ c ∈ text.getLast?, p c = false) : Strips p text text :=
  ⟨⟨[], [], by simp, by simp, by simp⟩, hhead, hlast⟩

end Strips

end Text

namespace Route
open TypedRoutes.Text

/-! ## Normal forms -/

/-- What a prefix comes down to without the blanks around it and then without the slashes. -/
def IsCore (path : String) (core : List Char) : Prop :=
  ∃ visible, Strips isWhitespace path.toList visible ∧ Strips (· == '/') visible core

theorem isCore_prefixCore (path : String) : IsCore path (prefixCore path.toList) :=
  ⟨_, strips_dropEndWhile isWhitespace path.toList, strips_dropEndWhile _ _⟩

theorem IsCore.eq {path : String} {core : List Char} (h : IsCore path core) :
    prefixCore path.toList = core := by
  obtain ⟨visible, hvisible, hcore⟩ := h
  have htrim : trimChars path.toList = visible := hvisible.eq
  rw [prefixCore, htrim, hcore.eq]

theorem IsCore.ends {path : String} {core : List Char} (h : IsCore path core) :
    '/' ∉ core.head? ∧ '/' ∉ core.getLast? := by
  obtain ⟨visible, -, hcore⟩ := h
  exact ⟨fun hhead => by simpa using hcore.head '/' hhead,
    fun hlast => by simpa using hcore.last '/' hlast⟩

def between (core : List Char) : List Char := if core = [] then ['/'] else '/' :: core ++ ['/']

theorem toList_normalizePrefix (path : String) :
    (normalizePrefix path).toList = between (prefixCore path.toList) := by
  unfold normalizePrefix between
  cases prefixCore path.toList <;> simp

theorem ends_between (core : List Char) :
    (between core).head? = some '/' ∧ (between core).getLast? = some '/' := by
  unfold between
  split
  · exact ⟨rfl, rfl⟩
  · exact ⟨rfl, List.getLast?_concat⟩

/-- The core of a normal form is what stands between its slashes. -/
theorem isCore_between {core : List Char} (hhead : '/' ∉ core.head?) (hlast : '/' ∉ core.getLast?) :
    IsCore (String.ofList (between core)) core := by
  have hslash : isWhitespace '/' = false := by decide
  obtain ⟨hfirst, hfinal⟩ := ends_between core
  refine ⟨between core, ?_, ?_⟩
  · rw [String.toList_ofList]
    exact strips_self (by simpa [hfirst] using hslash) (by simpa [hfinal] using hslash)
  · refine ⟨?_, fun c hc => ?_, fun c hc => ?_⟩
    · by_cases hnil : core = []
      · subst hnil
        exact ⟨['/'], [], rfl, by simp, by simp⟩
      · exact ⟨['/'], ['/'], by simp [between, hnil], by simp, by simp⟩
    · exact beq_eq_false_iff_ne.2 fun heq => hhead (heq ▸ hc)
    · exact beq_eq_false_iff_ne.2 fun heq => hlast (heq ▸ hc)

theorem normalizePrefix_idem (path : String) :
    normalizePrefix (normalizePrefix path) = normalizePrefix path := by
  obtain ⟨hhead, hlast⟩ := (isCore_prefixCore path).ends
  have hcore := (isCore_between hhead hlast).eq
  rw [String.toList_ofList, ← toList_normalizePrefix] at hcore
  rw [← String.toList_inj, toList_normalizePrefix, hcore, ← toList_normalizePrefix]

/-- A prefix has one slash at each end, which are one and the same for the prefix of nothing, and
stays as it is; paths formed with it are those formed with what it comes from, and after it they are
cut into their names. -/
theorem prefixed_paths_decode (path : String) :
    ((normalizePrefix path).toList.head? = some '/' ∧
      (normalizePrefix path).toList.getLast? = some '/') ∧
    (∃ core, IsCore path core ∧ (core = [] ∧ normalizePrefix path = "/" ∨
      core ≠ [] ∧ '/' ∉ core.head? ∧ '/' ∉ core.getLast? ∧
        (normalizePrefix path).toList = '/' :: core ++ ['/'])) ∧
    normalizePrefix (normalizePrefix path) = normalizePrefix path ∧
    ∀ e : Endpoint, e.httpPath path = e.httpPath (normalizePrefix path) ∧
      ((∀ s ∈ e.pathSegments, '/' ∉ s.toList) → '/' ∉ e.functionName.toList →
        ∃ rest, e.httpPath path = normalizePrefix path ++ rest ∧
          splitOn '/' rest = e.pathSegments ++ [e.functionName]) := by
  have hnormal := toList_normalizePrefix path
  have hidem := normalizePrefix_idem path
  refine ⟨?_, ?_, hidem, fun e => ⟨?_, fun hs hf => ?_⟩⟩
  · rw [hnormal]
    exact ends_between _
  · have hcore := isCore_prefixCore path
    refine ⟨_, hcore, ?_⟩
    unfold between at hnormal
    split at hnormal
    · rename_i hnil
      exact .inl ⟨hnil, String.toList_inj.1 hnormal⟩
    · rename_i hne
      exact .inr ⟨hne, hcore.ends.1, hcore.ends.2, hnormal⟩
  · rw [Endpoint.httpPath, Endpoint.httpPath, hidem]
  · refine ⟨String.ofList e.localPath, ?_, ?_⟩
    · rw [← String.toList_inj, Endpoint.toList_httpPath, String.toList_append,
        String.toList_ofList]
    · rw [splitOn, String.toList_ofList, Endpoint.splitChars_localPath hs hf]
      simp [List.map_map]

/-- Slashes between blanks and blanks between slashes: the inner blanks stay. -/
theorem blank_prefix_decodes :
    let e : Endpoint := ⟨["users", ""], "list", "list.ts", none, ⟨"User", "type User = {};"⟩⟩
    normalizePrefix " // v 1 / /" = "/ v 1 / /" ∧
      e.httpPath " // v 1 / /" = "/ v 1 / /users//list" ∧
      (∀ s ∈ e.pathSegments, '/' ∉ s.toList) ∧ '/' ∉ e.functionName.toList ∧
      ∃ rest, e.httpPath " // v 1 / /" = normalizePrefix " // v 1 / /" ++ rest ∧
        splitOn '/' rest = ["users", "", "list"] := by
  intro e
  have hs : ∀ s ∈ e.pathSegments, '/' ∉ s.toList := by decide
  have hf : '/' ∉ e.functionName.toList := by decide
  obtain ⟨-, -, -, hpaths⟩ := prefixed_paths_decode " // v 1 / /"
  exact ⟨by decide +kernel, by decide +kernel, hs, hf, (hpaths e).2 hs hf⟩

end Route

end TypedRoutes
