import TypedRoutes.CommandLine.Command
import TypedRoutes.Proofs.StoredSettings

/-! # Options as they are written

The ways to write options are given as rules of their own, which say nothing of how arguments are
read.  Arguments that are read were written in these ways, with the options and values that come of
them, and no option was written twice.
-/

namespace TypedRoutes.CommandLine

section Grammar
variable (specs : List OptionSpec)

/-- Letters of one argument write options with their values; the last of them may go on to the next
argument, where its value stands. -/
inductive Letters : List Char → Given → Option OptionSpec → Prop where
  | nil : Letters [] [] none
  | flag {spec : OptionSpec} {c : Char} {letters : List Char} {given : Given}
      {last : Option OptionSpec} (hspec : spec ∈ specs) (hshort : spec.short = some c)
      (hkind : spec.kind.takesValue = false) (rest : Letters letters given last) :
      Letters (c :: letters) ((spec.long, "") :: given) last
  /-- An equals sign may stand before the value and is no part of it. -/
  | attached {spec : OptionSpec} {c : Char} {sign value : List Char} (hspec : spec ∈ specs)
      (hshort : spec.short = some c) (hkind : spec.kind.takesValue = true)
      (hsign : sign = ['='] ∨ sign = [] ∧ value ≠ [] ∧ value.head? ≠ some '=') :
      Letters (c :: sign ++ value) [(spec.long, String.ofList value)] none
  | last {spec : OptionSpec} {c : Char} (hspec : spec ∈ specs) (hshort : spec.short = some c)
      (hkind : spec.kind.takesValue = true) : Letters [c] [] (some spec)

/-- Arguments write options with their values, in this order, and first the value of an option that
was written before. -/
inductive Writes : Option OptionSpec → List String → Given → Prop where
  | nil : Writes none [] []
  | separator : Writes none ["--"] []
  | value {spec : OptionSpec} {text : String} {arguments : List String} {given : Given}
      (hplain : Form.of text = .plain) (rest : Writes none arguments given) :
      Writes (some spec) (text :: arguments) ((spec.long, text) :: given)
  | flag {spec : OptionSpec} {arguments : List String} {given : Given} (hspec : spec ∈ specs)
      (hkind : spec.kind.takesValue = false) (rest : Writes none arguments given) :
      Writes none (("--" ++ spec.long) :: arguments) ((spec.long, "") :: given)
  | attached {spec : OptionSpec} {text : String} {arguments : List String} {given : Given}
      (hspec : spec ∈ specs) (hkind : spec.kind.takesValue = true)
      (rest : Writes none arguments given) :
      Writes none (("--" ++ spec.long ++ "=" ++ text) :: arguments) ((spec.long, text) :: given)
  | apart {spec : OptionSpec} {arguments : List String} {given : Given} (hspec : spec ∈ specs)
      (hkind : spec.kind.takesValue = true) (rest : Writes (some spec) arguments given) :
      Writes none (("--" ++ spec.long) :: arguments) given
  | letters {letters : List Char} {arguments : List String} {here given : Given}
      {last : Option OptionSpec} (written : Letters specs letters here last)
      (rest : Writes last arguments given) :
      Writes none (String.ofList ('-' :: letters) :: arguments) (here ++ given)

/-- Options that may be given together: each is known and has a value that fits it, and none is
given twice. -/
structure Given.Fits (given : Given) : Prop where
  distinct : (given.map Prod.fst).Nodup
  known : ∀ p ∈ given, ∃ spec ∈ specs, spec.long = p.1 ∧ spec.kind ≠ .help ∧
    spec.kind ≠ .version ∧ spec.kind.check p.2 = .ok ()

end Grammar

variable {specs : List OptionSpec} {r r' : Reading} {spec : OptionSpec}

namespace Reading

def written (r : Reading) : Given :=
  r.given ++
    match r.pending with
    | some (spec, some value) => [(spec.long, value)]
    | _ => []

def awaiting (r : Reading) : Option OptionSpec :=
  match r.pending with
  | some (spec, none) => some spec
  | _ => none

/-- What has been read fits, and the pending option is a known one. -/
structure Fits (specs : List OptionSpec) (r : Reading) : Prop where
  given : Given.Fits specs r.given
  pending : ∀ {spec value}, r.pending = some (spec, value) → spec ∈ specs

theorem fits_nothing : Fits specs {} where
  given := ⟨List.nodup_nil, fun _ hp => absurd hp List.not_mem_nil⟩
  pending := fun hpending => by cases hpending

theorem accept_eq_ok {value : String} (h : r.accept spec value = .ok r') :
    spec.kind ≠ .help ∧ spec.kind ≠ .version ∧ r.given.lookup spec.long = none ∧
      spec.kind.check value = .ok () ∧ r' = { r with given := r.given ++ [(spec.long, value)] } := by
  unfold accept at h
  split at h
  · cases h
  · cases h
  · rename_i hhelp hversion
    cases hlookup : r.given.lookup spec.long with
    | some text => simp [hlookup, throw, throwThe, MonadExceptOf.throw, bind, Except.bind] at h
    | none =>
      simp only [hlookup, Option.isSome_none, Bool.false_eq_true, if_false] at h
      obtain ⟨_, hcheck, h⟩ := bind_eq_ok h
      exact ⟨hhelp, hversion, rfl, hcheck, (Except.ok.inj h).symm⟩

theorem fits_of_accept {value : String} (hr : Given.Fits specs r.given) (hspec : spec ∈ specs)
    (h : r.accept spec value = .ok r') : Given.Fits specs r'.given := by
  obtain ⟨hhelp, hversion, hnew, hcheck, rfl⟩ := accept_eq_ok h
  constructor
  · simp only [List.map_append, List.map_cons, List.map_nil]
    refine List.Nodup.append hr.distinct (List.nodup_singleton _) ?_
    rw [List.disjoint_singleton, List.mem_map]
    rintro ⟨p, hp, hname⟩
    have hother := List.lookup_eq_none_iff.1 hnew p hp
    rw [hname] at hother
    simp at hother
  · intro p hp
    rcases List.mem_append.1 hp with hp | hp
    · exact hr.known p hp
    · obtain rfl := List.mem_singleton.1 hp
      exact ⟨spec, hspec, rfl, hhelp, hversion, hcheck⟩

/-- The pending option is completed by what is written. -/
theorem settle_eq_ok (h : r.settle = .ok r') :
    r.awaiting = none ∧ r' = { given := r.written } := by
  unfold settle at h
  split at h
  · rename_i hpending
    obtain rfl := Except.ok.inj h
    refine ⟨by simp [awaiting, hpending], ?_⟩
    obtain ⟨given, pending⟩ := r
    simp_all [written]
  · cases h
  · rename_i spec value hpending
    obtain ⟨-, -, -, -, rfl⟩ := accept_eq_ok h
    exact ⟨by simp [awaiting, hpending], by simp [written, hpending]⟩

theorem Fits.settle (hr : r.Fits specs) (h : r.settle = .ok r') : r'.Fits specs := by
  unfold Reading.settle at h
  split at h
  · obtain rfl := Except.ok.inj h
    exact hr
  · cases h
  · rename_i spec value hpending
    have hgiven : Given.Fits specs r'.given :=
      fits_of_accept (r := { r with pending := none }) hr.given (hr.pending hpending) h
    obtain ⟨-, -, -, -, rfl⟩ := accept_eq_ok h
    exact ⟨hgiven, fun hnone => by cases hnone⟩

theorem take_eq_ok {attached : Option String} (h : r.take spec attached = .ok r') :
    ∃ r₁, r.settle = .ok r₁ ∧
      (spec.kind.takesValue = true ∧ r' = { r₁ with pending := some (spec, none) } ∨
        ∃ value, r₁.accept spec value = .ok r') := by
  unfold take at h
  obtain ⟨r₁, hsettle, h⟩ := bind_eq_ok h
  refine ⟨r₁, hsettle, ?_⟩
  split at h
  next hkind =>
    split at h
    · exact .inr ⟨_, h⟩
    · exact .inl ⟨hkind, (Except.ok.inj h).symm⟩
  next => exact .inr ⟨_, h⟩

/-- Options that ask for something else are never taken. -/
theorem take_ne_ok {attached : Option String} (hkind : spec.kind = .help ∨ spec.kind = .version) :
    r.take spec attached ≠ .ok r' := by
  intro h
  obtain ⟨r₁, -, ⟨hvalue, -⟩ | ⟨value, haccept⟩⟩ := take_eq_ok h
  · rcases hkind with hkind | hkind <;> rw [hkind] at hvalue <;> cases hvalue
  · obtain ⟨hhelp, hversion, -⟩ := accept_eq_ok haccept
    exact hkind.elim hhelp hversion

theorem Fits.take {attached : Option String} (hr : r.Fits specs) (hspec : spec ∈ specs)
    (h : r.take spec attached = .ok r') : r'.Fits specs := by
  obtain ⟨r₁, hsettle, hcases⟩ := take_eq_ok h
  have hr₁ := hr.settle hsettle
  rcases hcases with ⟨-, rfl⟩ | ⟨value, haccept⟩
  · exact ⟨hr₁.given, fun hpending => by cases hpending; exact hspec⟩
  · have hgiven := fits_of_accept hr₁.given hspec haccept
    obtain ⟨-, -, -, -, rfl⟩ := accept_eq_ok haccept
    exact ⟨hgiven, fun hpending => hr₁.pending hpending⟩

theorem written_of_accept {r₁ : Reading} {value : String} (hsettle : r.settle = .ok r₁)
    (h : r₁.accept spec value = .ok r') :
    r.awaiting = none ∧ r'.awaiting = none ∧ r'.written = r.written ++ [(spec.long, value)] := by
  obtain ⟨hawaiting, rfl⟩ := settle_eq_ok hsettle
  obtain ⟨-, -, -, -, rfl⟩ := accept_eq_ok h
  exact ⟨hawaiting, rfl, by simp [written]⟩

theorem take_flag {attached : Option String} (hkind : spec.kind.takesValue = false)
    (h : r.take spec attached = .ok r') :
    r.awaiting = none ∧ r'.awaiting = none ∧ r'.written = r.written ++ [(spec.long, "")] := by
  unfold take at h
  obtain ⟨r₁, hsettle, h⟩ := bind_eq_ok h
  rw [hkind] at h
  exact written_of_accept hsettle h

theorem take_value {value : String} (hkind : spec.kind.takesValue = true)
    (h : r.take spec (some value) = .ok r') :
    r.awaiting = none ∧ r'.awaiting = none ∧ r'.written = r.written ++ [(spec.long, value)] := by
  unfold take at h
  obtain ⟨r₁, hsettle, h⟩ := bind_eq_ok h
  rw [hkind] at h
  exact written_of_accept hsettle h

theorem take_last (hkind : spec.kind.takesValue = true) (h : r.take spec none = .ok r') :
    r.awaiting = none ∧ r'.awaiting = some spec ∧ r'.written = r.written := by
  unfold take at h
  obtain ⟨r₁, hsettle, h⟩ := bind_eq_ok h
  rw [hkind] at h
  obtain ⟨hawaiting, rfl⟩ := settle_eq_ok hsettle
  obtain rfl := Except.ok.inj h
  exact ⟨hawaiting, rfl, by simp [written]⟩

end Reading

/-! ## Reading what is written -/

theorem Form.of_eq_separator {argument : String} (h : Form.of argument = .separator) :
    argument = "--" := by
  unfold Form.of at h
  split at h
  · rename_i htext
    exact String.toList_inj.1 htext
  all_goals cases h

theorem Form.of_eq_long {argument : String} {body : List Char}
    (h : Form.of argument = .long body) : argument = String.ofList ('-' :: '-' :: body) := by
  unfold Form.of at h
  split at h
  · cases h
  · rename_i htext
    obtain rfl := Form.long.inj h
    rw [← htext, String.ofList_toList]
  all_goals cases h

theorem Form.of_eq_short {argument : String} {letters : List Char}
    (h : Form.of argument = .short letters) :
    argument = String.ofList ('-' :: letters) ∧ letters ≠ [] := by
  unfold Form.of at h
  split at h
  · cases h
  · cases h
  · rename_i htext
    obtain rfl := Form.short.inj h
    rw [← htext, String.ofList_toList]
    exact ⟨rfl, List.cons_ne_nil _ _⟩
  · cases h

theorem split_at_sign (body : List Char) :
    let name := body.takeWhile (· != '=')
    body.drop name.length = [] ∧ body = name ∨
      ∃ value, body.drop name.length = '=' :: value ∧ body = name ++ '=' :: value := by
  induction body with
  | nil => exact .inl ⟨rfl, rfl⟩
  | cons c body ih =>
    by_cases hc : c = '='
    · subst hc
      exact .inr ⟨body, by simp, by simp⟩
    · rcases ih with ⟨hdrop, hbody⟩ | ⟨value, hdrop, hbody⟩
      · refine .inl ⟨?_, ?_⟩
        · simpa [hc] using hdrop
        · simpa [hc] using hbody
      · refine .inr ⟨value, ?_, ?_⟩
        · simpa [hc] using hdrop
        · simpa [hc] using hbody

/-- An argument that is read names an option and may have a value attached. -/
theorem readLong_eq_ok {body : List Char} (h : readLong specs r body = .ok r') :
    ∃ spec ∈ specs, ∃ attached, r.take spec attached = .ok r' ∧
      (attached = none ∧ String.ofList ('-' :: '-' :: body) = "--" ++ spec.long ∨
        ∃ value, attached = some value ∧ spec.kind.takesValue = true ∧
          String.ofList ('-' :: '-' :: body) = "--" ++ spec.long ++ "=" ++ value) := by
  unfold readLong at h
  dsimp only at h
  cases hfind : specs.find? (·.long = String.ofList (body.takeWhile (· != '='))) with
  | none =>
    rw [hfind] at h
    cases h
  | some spec =>
    have hname : spec.long = String.ofList (body.takeWhile (· != '=')) := by
      simpa using List.find?_some hfind
    rw [hfind] at h
    refine ⟨spec, List.mem_of_find?_eq_some hfind, ?_⟩
    rcases split_at_sign body with ⟨hdrop, hbody⟩ | ⟨value, hdrop, hbody⟩
    · rw [hdrop] at h
      refine ⟨none, h, .inl ⟨rfl, ?_⟩⟩
      rw [hname, ← hbody]
      apply String.toList_inj.1
      simp
    · rw [hdrop] at h
      simp only [Option.isSome_some, Bool.true_and] at h
      split at h
      · cases h
      · rename_i hkind
        refine ⟨_, h, .inr ⟨_, rfl, by simpa using hkind, ?_⟩⟩
        rw [hname]
        apply String.toList_inj.1
        simpa using hbody

theorem readLong_writes {body : List Char} (h : readLong specs r body = .ok r') :
    r.awaiting = none ∧ ∃ here, r'.written = r.written ++ here ∧
      ∀ {arguments given}, Writes specs r'.awaiting arguments given →
        Writes specs none (String.ofList ('-' :: '-' :: body) :: arguments) (here ++ given) := by
  obtain ⟨spec, hspec, attached, htake, ⟨rfl, htext⟩ | ⟨value, rfl, hkind, htext⟩⟩ :=
    readLong_eq_ok h
  · rw [htext]
    cases hkind : spec.kind.takesValue with
    | false =>
      obtain ⟨hawaiting, hnext, hmore⟩ := Reading.take_flag hkind htake
      rw [hnext]
      exact ⟨hawaiting, _, hmore, fun rest => .flag hspec hkind rest⟩
    | true =>
      obtain ⟨hawaiting, hnext, hsame⟩ := Reading.take_last hkind htake
      rw [hnext]
      exact ⟨hawaiting, [], by simpa using hsame, fun rest => .apart hspec hkind rest⟩
  · rw [htext]
    obtain ⟨hawaiting, hnext, hmore⟩ := Reading.take_value hkind htake
    rw [hnext]
    exact ⟨hawaiting, _, hmore, fun rest => .attached hspec hkind rest⟩

/-- A letter that is read names an option, and the letters after it are its value or are read
next. -/
theorem readShort_cons_eq_ok {c : Char} {letters : List Char}
    (h : readShort specs r (c :: letters) = .ok r') :
    ∃ spec ∈ specs, spec.short = some c ∧
      (spec.kind.takesValue = false ∧
          (∃ r₁, r.take spec none = .ok r₁ ∧ readShort specs r₁ letters = .ok r') ∨
        spec.kind.takesValue = true ∧
          (letters = [] ∧ r.take spec none = .ok r' ∨
            ∃ sign value, (sign = ['='] ∨ sign = [] ∧ value ≠ [] ∧ value.head? ≠ some '=') ∧
              letters = sign ++ value ∧ r.take spec (some (String.ofList value)) = .ok r')) := by
  unfold readShort at h
  split at h
  · cases h
  · rename_i spec hfind
    refine ⟨spec, List.mem_of_find?_eq_some hfind, by simpa using List.find?_some hfind, ?_⟩
    cases hkind : spec.kind.takesValue with
    | false =>
      rw [hkind] at h
      exact .inl ⟨rfl, bind_eq_ok h⟩
    | true =>
      rw [hkind] at h
      refine .inr ⟨rfl, ?_⟩
      simp only [if_true] at h
      split at h
      next => exact .inl ⟨rfl, h⟩
      next => exact .inr ⟨['='], _, .inl rfl, rfl, h⟩
      next hfull hsign =>
        refine .inr ⟨[], letters, .inr ⟨rfl, hfull, fun hhead => ?_⟩, rfl, h⟩
        obtain ⟨more, hmore⟩ := List.head?_eq_some_iff.1 hhead
        exact hsign more hmore

theorem readShort_writes {letters : List Char} (hawaiting : r.awaiting = none)
    (h : readShort specs r letters = .ok r') :
    ∃ here, r'.written = r.written ++ here ∧ Letters specs letters here r'.awaiting := by
  induction letters generalizing r with
  | nil =>
    obtain rfl := Except.ok.inj h
    exact ⟨[], by simp, hawaiting ▸ .nil⟩
  | cons c letters ih =>
    obtain ⟨spec, hspec, hshort, ⟨hkind, r₁, htake, hrest⟩ | ⟨hkind, hvalue⟩⟩ :=
      readShort_cons_eq_ok h
    · obtain ⟨-, hnext, hmore⟩ := Reading.take_flag hkind htake
      obtain ⟨here, hhere, hletters⟩ := ih hnext hrest
      refine ⟨(spec.long, "") :: here, ?_, .flag hspec hshort hkind hletters⟩
      rw [hhere, hmore, List.append_assoc, List.singleton_append]
    · rcases hvalue with ⟨rfl, htake⟩ | ⟨sign, value, hsign, rfl, htake⟩
      · obtain ⟨-, hnext, hsame⟩ := Reading.take_last hkind htake
        exact ⟨[], by simpa using hsame, hnext ▸ .last hspec hshort hkind⟩
      · obtain ⟨-, hnext, hmore⟩ := Reading.take_value hkind htake
        exact ⟨_, hmore, hnext ▸ .attached hspec hshort hkind hsign⟩

theorem Reading.Fits.readShort {letters : List Char} (hr : r.Fits specs)
    (h : readShort specs r letters = .ok r') : r'.Fits specs := by
  induction letters generalizing r with
  | nil =>
    obtain rfl := Except.ok.inj h
    exact hr
  | cons c letters ih =>
    obtain ⟨spec, hspec, -, ⟨-, r₁, htake, hrest⟩ | ⟨-, ⟨-, htake⟩ | ⟨_, _, -, -, htake⟩⟩⟩ :=
      readShort_cons_eq_ok h
    · exact ih (hr.take hspec htake) hrest
    · exact hr.take hspec htake
    · exact hr.take hspec htake

theorem Reading.Fits.readLong {body : List Char} (hr : r.Fits specs)
    (h : readLong specs r body = .ok r') : r'.Fits specs := by
  obtain ⟨spec, hspec, attached, htake, -⟩ := readLong_eq_ok h
  exact hr.take hspec htake

theorem awaiting_of_readShort {letters : List Char} (hletters : letters ≠ [])
    (h : readShort specs r letters = .ok r') : r.awaiting = none := by
  obtain ⟨c, letters, rfl⟩ := List.exists_cons_of_ne_nil hletters
  obtain ⟨spec, -, -, ⟨-, r₁, htake, -⟩ | ⟨-, ⟨-, htake⟩ | ⟨_, _, -, -, htake⟩⟩⟩ :=
    readShort_cons_eq_ok h
  all_goals
    obtain ⟨r₂, hsettle, -⟩ := Reading.take_eq_ok htake
    exact (Reading.settle_eq_ok hsettle).1

/-- Arguments that are read write what has been read from them. -/
theorem readOptions_writes {arguments : List String}
    (h : readOptions specs r arguments = .ok r') :
    ∃ given, Writes specs r.awaiting arguments given ∧ r'.given = r.written ++ given := by
  induction arguments generalizing r with
  | nil =>
    obtain ⟨hawaiting, rfl⟩ := Reading.settle_eq_ok h
    exact ⟨[], hawaiting ▸ .nil, by simp⟩
  | cons argument arguments ih =>
    unfold readOptions at h
    split at h
    next hform =>
      rw [Form.of_eq_separator hform]
      split at h
      next hempty =>
        obtain ⟨hawaiting, rfl⟩ := Reading.settle_eq_ok h
        rw [List.isEmpty_iff.1 hempty]
        exact ⟨[], hawaiting ▸ .separator, by simp⟩
      next => cases h
    next body hform =>
      obtain ⟨r₁, hlong, h⟩ := bind_eq_ok h
      obtain ⟨given, hrest, hgiven⟩ := ih h
      obtain ⟨hawaiting, here, hhere, hwrites⟩ := readLong_writes hlong
      rw [Form.of_eq_long hform, hawaiting]
      exact ⟨_, hwrites hrest, by rw [hgiven, hhere, List.append_assoc]⟩
    next letters hform =>
      obtain ⟨r₁, hshort, h⟩ := bind_eq_ok h
      obtain ⟨given, hrest, hgiven⟩ := ih h
      obtain ⟨htext, hletters⟩ := Form.of_eq_short hform
      have hawaiting := awaiting_of_readShort hletters hshort
      obtain ⟨here, hhere, hwritten⟩ := readShort_writes hawaiting hshort
      rw [htext, hawaiting]
      exact ⟨_, .letters hwritten hrest, by rw [hgiven, hhere, List.append_assoc]⟩
    next hform =>
      split at h
      next spec hpending =>
        obtain ⟨given, hrest, hgiven⟩ := ih h
        refine ⟨(spec.long, argument) :: given, ?_, ?_⟩
        · rw [show r.awaiting = some spec by simp [Reading.awaiting, hpending]]
          exact .value hform hrest
        · simp [hgiven, Reading.written, hpending]
      next => cases h

theorem Reading.Fits.readOptions {arguments : List String} (hr : r.Fits specs)
    (h : readOptions specs r arguments = .ok r') : r'.Fits specs := by
  induction arguments generalizing r with
  | nil => exact hr.settle h
  | cons argument arguments ih =>
    unfold CommandLine.readOptions at h
    split at h
    next =>
      split at h
      next => exact hr.settle h
      next => cases h
    next =>
      obtain ⟨r₁, hlong, h⟩ := bind_eq_ok h
      exact ih (hr.readLong hlong) h
    next =>
      obtain ⟨r₁, hshort, h⟩ := bind_eq_ok h
      exact ih (hr.readShort hshort) h
    next =>
      split at h
      next spec hpending =>
        have hnext : Reading.Fits specs { r with pending := some (spec, some argument) } :=
          ⟨hr.given, fun hsome => by cases hsome; exact hr.pending hpending⟩
        exact ih hnext h
      next => cases h

/-! ## Command lines for a generation -/

/-- Before the command there is nothing but options that ask for something else. -/
theorem kind_of_mem_commonOptions (h : spec ∈ [helpOption, versionOption]) :
    spec.kind = .help ∨ spec.kind = .version := by
  simp only [List.mem_cons, List.not_mem_nil, or_false] at h
  rcases h with rfl | rfl
  · exact .inl rfl
  · exact .inr rfl

/-- A generation is asked for by the word for it and options that are written after it. -/
theorem ofArguments_eq_generate {arguments : List String} {options : GenerateOptions}
    (h : Command.ofArguments arguments = .ok (.generate options)) :
    ∃ rest r, arguments = "generate" :: rest ∧ readOptions generateSpecs {} rest = .ok r ∧
      Writes generateSpecs none rest r.given ∧ Given.Fits generateSpecs r.given ∧
        options = .ofGiven r.given := by
  unfold Command.ofArguments at h
  split at h
  next => cases h
  next rest =>
    obtain ⟨r, hread, hcommand⟩ := bind_eq_ok h
    obtain ⟨given, hwrites, hgiven⟩ := readOptions_writes hread
    have hfits : r.Fits generateSpecs := Reading.fits_nothing.readOptions hread
    obtain rfl : r.given = given := hgiven
    exact ⟨rest, r, rfl, hread, hwrites, hfits.given,
      (Command.generate.inj (Except.ok.inj hcommand)).symm⟩
  next =>
    obtain ⟨r, -, hcommand⟩ := bind_eq_ok h
    cases hcommand
  next => cases h
  next =>
    split at h
    next => split at h <;> cases h
    next =>
      obtain ⟨r, hlong, -⟩ := bind_eq_ok h
      obtain ⟨spec, hspec, attached, htake, -⟩ := readLong_eq_ok hlong
      exact absurd htake (Reading.take_ne_ok (kind_of_mem_commonOptions hspec))
    next letters hform =>
      obtain ⟨r, hshort, -⟩ := bind_eq_ok h
      obtain ⟨c, letters, rfl⟩ := List.exists_cons_of_ne_nil (Form.of_eq_short hform).2
      obtain ⟨spec, hspec, -, ⟨-, r₁, htake, -⟩ | ⟨-, ⟨-, htake⟩ | ⟨_, _, -, -, htake⟩⟩⟩ :=
        readShort_cons_eq_ok hshort
      all_goals exact absurd htake (Reading.take_ne_ok (kind_of_mem_commonOptions hspec))
    next => cases h

end TypedRoutes.CommandLine
