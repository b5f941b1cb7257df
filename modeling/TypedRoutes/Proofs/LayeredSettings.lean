import TypedRoutes.Proofs.WrittenOptions

/-! # Settings under written options

Settings are put over one another without a mark of which were asked for: what is not asked for is
filled in, and what is filled in gives way.  So an option that is written has its effect unless its
value is the one that would be filled in, and what is not written stays, but for a bundle, which is
replaced as a whole.
-/

namespace TypedRoutes
open TypedRoutes.Json TypedRoutes.Render TypedRoutes.CommandLine

/-- The settings of a run, those of its bundle each for itself. -/
inductive Setting where
  | entryDir
  | endpointPathPrefix
  | routerPath
  | clientOutDir
  | clientName
  | clientTemplate
  | serverTemplate
  | routeStyle
  | indent
  | importsBase
  | allowParameterless
  | excludePatterns
  | emitHeader
  | verbose
  /-- Whether there is a bundle. -/
  | bundles
  | bundleOutDir
  | bundleProgram
  deriving DecidableEq, Repr

/-- The value of a setting, as it would be stored. -/
def Config.setting (c : Config) : Setting → Value
  | .entryDir => .string c.entryDir
  | .endpointPathPrefix => .string c.endpointPathPrefix
  | .routerPath => .string c.routerPath
  | .clientOutDir => .string c.clientOutDir
  | .clientName => .string c.clientName
  | .clientTemplate => Value.ofOption .string c.clientTemplate
  | .serverTemplate => Value.ofOption .string c.serverTemplate
  | .routeStyle => .string c.routeStyle.name
  | .indent => .string c.indent
  | .importsBase => Value.ofOption .string c.importsBase
  | .allowParameterless => Value.ofOption .bool c.allowParameterless
  | .excludePatterns =>
    Value.ofOption (fun patterns => .array (patterns.map .string)) c.excludePatterns
  | .emitHeader => Value.ofOption .bool c.emitHeader
  | .verbose => Value.ofOption .bool c.verbose
  | .bundles => .bool c.bundle.isSome
  | .bundleOutDir => Value.ofOption (fun bundle => .string bundle.outDir) c.bundle
  | .bundleProgram => Value.ofOption (fun bundle => .string bundle.esbuild) c.bundle

namespace Setting

def option? : Setting → Option String
  | entryDir => some "entry"
  | endpointPathPrefix => some "prefix"
  | routerPath => some "router"
  | clientOutDir => some "client-out"
  | clientName => some "name"
  | clientTemplate => some "client-template"
  | serverTemplate => some "server-template"
  | routeStyle => some "route-style"
  | importsBase => some "imports-base"
  | allowParameterless => some "no-parameterless"
  | verbose => some "verbose"
  | bundles => some "bundle"
  | bundleOutDir => some "bundle-out"
  | indent | excludePatterns | emitHeader | bundleProgram => none

/-- What an option with some text asks for. -/
def asked : Setting → String → Value
  | routeStyle, text =>
    match RouteStyle.ofText text with
    | .ok style => .string style.name
    | .error _ => .null
  | allowParameterless, _ => .bool false
  | verbose, _ => .bool true
  | bundles, _ => .bool true
  | _, text => .string text

def unasked (s : Setting) : Value := ({} : GenerateOptions).toConfig.setting s

def ofBundle : Setting → Bool
  | bundleOutDir | bundleProgram => true
  | _ => false

def fresh (s : Setting) : Value := ({ bundle := some {} } : Config).setting s

end Setting

namespace Config

/-! ## One configuration over another -/

theorem ofOption_injective {α : Type} {encode : α → Value} (hinj : encode.Injective)
    (hnull : ∀ a, encode a ≠ .null) : (Value.ofOption encode).Injective := by
  rintro (_ | a) (_ | b) h
  · rfl
  · exact absurd h.symm (hnull b)
  · exact absurd h (hnull a)
  · exact congrArg some (hinj h)

theorem string_injective : Value.string.Injective := fun _ _ h => Value.string.inj h

theorem name_injective : RouteStyle.name.Injective := by
  rintro (_ | _) (_ | _) h
  · rfl
  · simp [RouteStyle.name] at h
  · simp [RouteStyle.name] at h
  · rfl

/-- The settings are all there is to a configuration. -/
theorem eq_of_setting {c d : Config} (h : ∀ s, c.setting s = d.setting s) : c = d := by
  have hbundle : c.bundle = d.bundle := by
    have hout := h .bundleOutDir
    have hprogram := h .bundleProgram
    simp only [setting] at hout hprogram
    rcases hc : c.bundle with _ | ⟨out, program⟩ <;> rcases hd : d.bundle with _ | ⟨out', program'⟩ <;>
      simp_all [Value.ofOption]
  have hpatterns : c.excludePatterns = d.excludePatterns :=
    ofOption_injective
      (fun _ _ heq => string_injective.list_map (Value.array.inj heq)) nofun (h .excludePatterns)
  have hstring : ∀ {a b : Option String},
      Value.ofOption .string a = Value.ofOption .string b → a = b :=
    fun heq => ofOption_injective string_injective nofun heq
  have hbool : ∀ {a b : Option Bool}, Value.ofOption .bool a = Value.ofOption .bool b → a = b :=
    fun heq => ofOption_injective (fun _ _ heq => Value.bool.inj heq) nofun heq
  rw [Config.mk.injEq]
  exact ⟨string_injective (h .entryDir), string_injective (h .endpointPathPrefix),
    string_injective (h .routerPath), string_injective (h .clientOutDir),
    string_injective (h .clientName), hstring (h .clientTemplate), hstring (h .serverTemplate),
    name_injective (string_injective (h .routeStyle)), string_injective (h .indent),
    hstring (h .importsBase), hbool (h .allowParameterless), hpatterns, hbool (h .emitHeader),
    hbool (h .verbose), hbundle⟩

variable {lower upper : Config} {s : Setting}

theorem encode_preferring {α : Type} [DecidableEq α] {encode : α → Value} (hinj : encode.Injective)
    (default lower upper : α) :
    (encode upper = encode default → encode (preferring default lower upper) = encode lower) ∧
      (encode upper ≠ encode default →
        encode (preferring default lower upper) = encode upper) := by
  constructor
  · intro h
    rw [preferring, if_pos (hinj h)]
  · intro h
    rw [preferring, if_neg fun heq => h (congrArg encode heq)]

theorem ofOption_or {α : Type} {encode : α → Value} (hnull : ∀ a, encode a ≠ .null)
    (lower upper : Option α) :
    (Value.ofOption encode upper = .null →
        Value.ofOption encode (upper.or lower) = Value.ofOption encode lower) ∧
      (Value.ofOption encode upper ≠ .null →
        Value.ofOption encode (upper.or lower) = Value.ofOption encode upper) := by
  cases upper with
  | none => exact ⟨fun _ => rfl, fun h => absurd rfl h⟩
  | some a => exact ⟨fun h => absurd h (hnull a), fun _ => rfl⟩

/-- What is filled in gives way, and everything else counts. -/
theorem setting_merge (lower upper : Config) (s : Setting) :
    (upper.setting s = s.unasked → (lower.merge upper).setting s = lower.setting s) ∧
      (upper.setting s ≠ s.unasked → (lower.merge upper).setting s = upper.setting s) := by
  cases s with
  | entryDir => exact encode_preferring string_injective _ _ _
  | endpointPathPrefix => exact encode_preferring string_injective _ _ _
  | routerPath => exact encode_preferring string_injective _ _ _
  | clientOutDir => exact encode_preferring string_injective _ _ _
  | clientName => exact encode_preferring string_injective _ _ _
  | routeStyle => exact encode_preferring (string_injective.comp name_injective) _ _ _
  | indent => exact encode_preferring string_injective _ _ _
  | clientTemplate => exact ofOption_or nofun _ _
  | serverTemplate => exact ofOption_or nofun _ _
  | importsBase => exact ofOption_or nofun _ _
  | allowParameterless => exact ofOption_or nofun _ _
  | excludePatterns => exact ofOption_or nofun _ _
  | emitHeader => exact ofOption_or nofun _ _
  | verbose => exact ofOption_or nofun _ _
  | bundleOutDir => exact ofOption_or nofun _ _
  | bundleProgram => exact ofOption_or nofun _ _
  | bundles =>
    cases hupper : upper.bundle with
    | none => simp [setting, merge, Setting.unasked, GenerateOptions.toConfig, hupper]
    | some bundle => simp [setting, merge, Setting.unasked, GenerateOptions.toConfig, hupper]

end Config

namespace CommandLine

/-! ## Settings that options ask for -/

variable {given : Given} {options : GenerateOptions} {arguments : List String}

theorem Given.Fits.lookup_eq_some {specs : List OptionSpec} {name text : String}
    (h : Given.Fits specs given) (hmem : (name, text) ∈ given) :
    given.lookup name = some text := by
  have hdistinct := h.distinct
  clear h
  induction given with
  | nil => cases hmem
  | cons p given ih =>
    obtain ⟨hnew, hdistinct⟩ := List.nodup_cons.1 hdistinct
    rcases List.mem_cons.1 hmem with rfl | hmem
    · simp
    · have hne : (name == p.1) = false := by
        rw [beq_eq_false_iff_ne]
        rintro rfl
        exact hnew (List.mem_map.2 ⟨_, hmem, rfl⟩)
      rw [List.lookup_cons, hne]
      exact ih hmem hdistinct

theorem Given.Fits.routeStyle {text : String} (h : Given.Fits generateSpecs given)
    (hmem : ("route-style", text) ∈ given) : ∃ style, RouteStyle.ofText text = .ok style := by
  have hkind : ∀ spec ∈ generateSpecs, spec.long = "route-style" → spec.kind = .routeStyle := by
    decide
  obtain ⟨spec, hspec, hname, -, -, hcheck⟩ := h.known _ hmem
  rw [hkind spec hspec hname] at hcheck
  cases hstyle : RouteStyle.ofText text with
  | ok style => exact ⟨style, rfl⟩
  | error e => simp [OptionKind.check, hstyle] at hcheck

theorem Given.Fits.option {name text : String} (h : Given.Fits generateSpecs given)
    (hmem : (name, text) ∈ given) :
    name = "config" ∨ ∃ s : Setting, s.option? = some name := by
  obtain ⟨spec, hspec, rfl, hhelp, -⟩ := h.known _ hmem
  simp only [generateSpecs, sharedSpecs, List.cons_append, List.nil_append, List.mem_cons,
    List.not_mem_nil, or_false] at hspec
  rcases hspec with rfl | rfl | rfl | rfl | rfl | rfl | rfl | rfl | rfl | rfl | rfl | rfl | rfl |
    rfl | rfl
  · exact .inr ⟨.entryDir, rfl⟩
  · exact .inr ⟨.routerPath, rfl⟩
  · exact .inr ⟨.clientName, rfl⟩
  · exact .inr ⟨.endpointPathPrefix, rfl⟩
  · exact .inr ⟨.verbose, rfl⟩
  · exact absurd rfl hhelp
  · exact .inr ⟨.clientOutDir, rfl⟩
  · exact .inr ⟨.clientTemplate, rfl⟩
  · exact .inr ⟨.serverTemplate, rfl⟩
  · exact .inr ⟨.routeStyle, rfl⟩
  · exact .inr ⟨.importsBase, rfl⟩
  · exact .inr ⟨.allowParameterless, rfl⟩
  · exact .inr ⟨.bundles, rfl⟩
  · exact .inr ⟨.bundleOutDir, rfl⟩
  · exact .inl rfl

/-- A setting depends on its own option only, unless it is one of a bundle. -/
theorem setting_ofGiven_congr (given given' : Given) {s : Setting} (hs : s.ofBundle = false)
    (h : ∀ name, s.option? = some name → given.lookup name = given'.lookup name) :
    (GenerateOptions.ofGiven given).toConfig.setting s =
      (GenerateOptions.ofGiven given').toConfig.setting s := by
  cases s with
  | bundleOutDir => cases hs
  | bundleProgram => cases hs
  | indent => rfl
  | excludePatterns => rfl
  | emitHeader => rfl
  | allowParameterless =>
    have hflag : (GenerateOptions.ofGiven given).noParameterless =
        (GenerateOptions.ofGiven given').noParameterless := congrArg Option.isSome (h _ rfl)
    simp only [Config.setting, GenerateOptions.toConfig, hflag]
  | verbose =>
    have hflag : (GenerateOptions.ofGiven given).verbose =
        (GenerateOptions.ofGiven given').verbose := congrArg Option.isSome (h _ rfl)
    simp only [Config.setting, GenerateOptions.toConfig, hflag]
  | bundles =>
    have hflag : (GenerateOptions.ofGiven given).bundle =
        (GenerateOptions.ofGiven given').bundle := congrArg Option.isSome (h _ rfl)
    simp only [Config.setting, GenerateOptions.toConfig, hflag]
    cases (GenerateOptions.ofGiven given').bundle <;> rfl
  | _ => simp only [Config.setting, GenerateOptions.toConfig, GenerateOptions.ofGiven, h _ rfl]

theorem setting_ofGiven_of_unwritten {s : Setting} (hs : s.ofBundle = false)
    (h : ∀ name, s.option? = some name → given.lookup name = none) :
    (GenerateOptions.ofGiven given).toConfig.setting s = s.unasked :=
  setting_ofGiven_congr given [] hs h

theorem setting_ofGiven_of_written {s : Setting} {name text : String} (hs : s.ofBundle = false)
    (hfits : Given.Fits generateSpecs given) (hname : s.option? = some name)
    (hmem : (name, text) ∈ given) :
    (GenerateOptions.ofGiven given).toConfig.setting s = s.asked text := by
  have hsame := setting_ofGiven_congr given [(name, text)] hs fun other h => by
    obtain rfl := Option.some.inj (hname.symm.trans h)
    simp [hfits.lookup_eq_some hmem]
  rw [hsame]
  cases s with
  | routeStyle =>
    obtain rfl := Option.some.inj hname
    obtain ⟨style, hstyle⟩ := hfits.routeStyle hmem
    simp [Config.setting, GenerateOptions.toConfig, GenerateOptions.ofGiven, Setting.asked, hstyle,
      Except.toOption]
  | bundleOutDir => cases hs
  | _ =>
    cases hname <;>
      simp [Config.setting, GenerateOptions.toConfig, GenerateOptions.ofGiven, Setting.asked,
        Given.has, Value.ofOption]

theorem setting_ofGiven_of_bundle {s : Setting} {value : String} (hs : s.ofBundle = true)
    (hbundle : given.lookup "bundle" = some value) :
    (GenerateOptions.ofGiven given).toConfig.setting s =
      ((s.option?.bind fun name => given.lookup name).map s.asked).getD s.fresh := by
  cases s with
  | bundleOutDir =>
    cases hout : given.lookup "bundle-out" <;>
      simp [Config.setting, GenerateOptions.toConfig, GenerateOptions.ofGiven, Setting.option?,
        Given.has, hbundle, hout, Setting.fresh, Setting.asked, Value.ofOption]
  | bundleProgram =>
    simp [Config.setting, GenerateOptions.toConfig, GenerateOptions.ofGiven, Setting.option?,
      Given.has, hbundle, Setting.fresh, Value.ofOption]
  | _ => cases hs

theorem setting_ofGiven_of_no_bundle {s : Setting} (hs : s.ofBundle = true)
    (hbundle : given.lookup "bundle" = none) :
    (GenerateOptions.ofGiven given).toConfig.setting s = s.unasked := by
  have hflag : (GenerateOptions.ofGiven given).bundle = false := congrArg Option.isSome hbundle
  cases s with
  | bundleOutDir => simp [Config.setting, GenerateOptions.toConfig, Setting.unasked, hflag]
  | bundleProgram => simp [Config.setting, GenerateOptions.toConfig, Setting.unasked, hflag]
  | _ => cases hs

theorem fresh_ne_unasked {s : Setting} (hs : s.ofBundle = true) : s.fresh ≠ s.unasked := by
  cases s with
  | bundleOutDir => exact nofun
  | bundleProgram => exact nofun
  | _ => cases hs

theorem lookup_eq_none_iff {name : String} :
    given.lookup name = none ↔ ∀ text, (name, text) ∉ given := by
  rw [List.lookup_eq_none_iff]
  constructor
  · intro h text hmem
    simpa using h _ hmem
  · rintro h ⟨other, text⟩ hmem
    rw [bne_iff_ne]
    rintro rfl
    exact h text hmem

theorem exists_mem_iff_lookup {name : String} :
    (∃ text, (name, text) ∈ given) ↔ ∃ text, given.lookup name = some text := by
  rw [← Option.isSome_iff_exists, ← Option.ne_none_iff_isSome, Ne, lookup_eq_none_iff]
  simp

/-! ## What becomes of settings -/

/-- An option that is written has its effect on every configuration but where its value is the one
that would be filled in without it, or where it is about a bundle that is not asked for. -/
theorem written_options_win_iff (base : Config)
    (h : Command.ofArguments arguments = .ok (.generate options)) :
    ∃ rest r, arguments = "generate" :: rest ∧ readOptions generateSpecs {} rest = .ok r ∧
      Writes generateSpecs none rest r.given ∧
      (∀ name text, (name, text) ∈ r.given →
        name = "config" ∨ ∃ s : Setting, s.option? = some name) ∧
      ∀ (s : Setting) (name text : String), s.option? = some name → (name, text) ∈ r.given →
        ((base.merge options.toConfig).setting s = s.asked text ↔
          base.setting s = s.asked text ∨
            s.asked text ≠ s.unasked ∧
              (s.ofBundle = true → ∃ value, ("bundle", value) ∈ r.given)) := by
  obtain ⟨rest, r, rfl, hread, hwrites, hfits, rfl⟩ := ofArguments_eq_generate h
  refine ⟨rest, r, rfl, hread, hwrites, fun name text hmem => hfits.option hmem, ?_⟩
  clear hread hwrites h
  generalize r.given = given at hfits
  intro s name text hname hmem
  obtain ⟨hyields, hcounts⟩ :=
    Config.setting_merge base (GenerateOptions.ofGiven given).toConfig s
  by_cases hbundle : s.ofBundle = true → ∃ value, ("bundle", value) ∈ given
  · have hupper : (GenerateOptions.ofGiven given).toConfig.setting s = s.asked text := by
      cases hs : s.ofBundle with
      | false => exact setting_ofGiven_of_written hs hfits hname hmem
      | true =>
        obtain ⟨value, hvalue⟩ := exists_mem_iff_lookup.1 (hbundle hs)
        rw [setting_ofGiven_of_bundle hs hvalue, hname]
        simp [hfits.lookup_eq_some hmem]
    rw [hupper] at hyields hcounts
    by_cases hfilled : s.asked text = s.unasked
    · rw [hyields hfilled]
      exact ⟨.inl, fun hor => hor.elim id fun hne => absurd hfilled hne.1⟩
    · rw [hcounts hfilled]
      exact ⟨fun _ => .inr ⟨hfilled, hbundle⟩, fun _ => rfl⟩
  · obtain ⟨hs, hnone⟩ := Classical.not_imp.1 hbundle
    have hupper := setting_ofGiven_of_no_bundle hs
      (lookup_eq_none_iff.2 fun value hmem => hnone ⟨value, hmem⟩)
    rw [hyields hupper]
    exact ⟨.inl, fun hor => hor.elim id fun hne => absurd hne.2 hbundle⟩

/-- A name that is written wins, and an entry directory that is the standard one does not. -/
theorem written_name_wins :
    Command.ofArguments ["generate", "-e", "./src/api", "-nShop"] =
        .ok (.generate { entry := "./src/api", name := "Shop" }) ∧
      Writes generateSpecs none ["-e", "./src/api", "-nShop"]
        [("entry", "./src/api"), ("name", "Shop")] ∧
      (({ entryDir := "./server/api" } : Config).merge
        ({ entry := "./src/api", name := "Shop" } : GenerateOptions).toConfig).setting .clientName =
          .string "Shop" ∧
      (({ entryDir := "./server/api" } : Config).merge
        ({ entry := "./src/api", name := "Shop" } : GenerateOptions).toConfig).setting .entryDir ≠
          .string "./src/api" := by
  have h : Command.ofArguments ["generate", "-e", "./src/api", "-nShop"] =
      .ok (.generate { entry := "./src/api", name := "Shop" }) := by decide
  obtain ⟨rest, r, hrest, hread, hwrites, -, hwins⟩ :=
    written_options_win_iff { entryDir := "./server/api" } h
  obtain rfl := (List.cons.inj hrest).2
  have hgiven : readOptions generateSpecs {} ["-e", "./src/api", "-nShop"] =
      .ok { given := [("entry", "./src/api"), ("name", "Shop")] } := by decide
  obtain rfl := Except.ok.inj (hread.symm.trans hgiven)
  refine ⟨h, hwrites, ?_, ?_⟩
  · refine (hwins .clientName "name" "Shop" rfl (by simp)).2 (.inr ⟨?_, nofun⟩)
    simp [Setting.asked, Setting.unasked, Config.setting, GenerateOptions.toConfig]
  · intro hentry
    have hor := (hwins .entryDir "entry" "./src/api" rfl (by simp)).1 hentry
    simp [Setting.asked, Setting.unasked, Config.setting, GenerateOptions.toConfig] at hor

/-- An entry directory that is written loses to the one of a file if it is the standard one, and so
does a directory for bundles that are asked for by the file. -/
theorem written_options_lose :
    Command.ofArguments ["generate", "-e", "./src/api", "--bundle-out", "out"] =
        .ok (.generate { entry := "./src/api", bundleOut := "out" }) ∧
      ({ entryDir := "./server/api", bundle := some { outDir := "build" } } : Config).merge
          ({ entry := "./src/api", bundleOut := "out" } : GenerateOptions).toConfig =
        { entryDir := "./server/api", bundle := some { outDir := "build" }, verbose := some false } := by
  decide

/-- What is not written stays as it is in every configuration, but for the rest of a bundle that is
asked for, which begins anew. -/
theorem unwritten_settings_stay_iff (base : Config)
    (h : Command.ofArguments arguments = .ok (.generate options)) :
    ∃ rest r, arguments = "generate" :: rest ∧ readOptions generateSpecs {} rest = .ok r ∧
      Writes generateSpecs none rest r.given ∧
      ∀ s : Setting, (∀ name text, s.option? = some name → (name, text) ∉ r.given) →
        ((base.merge options.toConfig).setting s = base.setting s ↔
          (s.ofBundle = true → (∃ value, ("bundle", value) ∈ r.given) →
            base.setting s = s.fresh)) := by
  obtain ⟨rest, r, rfl, hread, hwrites, -, rfl⟩ := ofArguments_eq_generate h
  refine ⟨rest, r, rfl, hread, hwrites, ?_⟩
  clear hread hwrites h
  generalize r.given = given
  intro s hunwritten
  have hoption : ∀ name, s.option? = some name → given.lookup name = none :=
    fun name hname => lookup_eq_none_iff.2 fun text => hunwritten name text hname
  obtain ⟨hyields, hcounts⟩ :=
    Config.setting_merge base (GenerateOptions.ofGiven given).toConfig s
  cases hs : s.ofBundle with
  | false =>
    rw [hyields (setting_ofGiven_of_unwritten hs hoption)]
    exact ⟨fun _ hfalse => (Bool.false_ne_true hfalse).elim, fun _ => rfl⟩
  | true =>
    by_cases hbundle : ∃ value, ("bundle", value) ∈ given
    · obtain ⟨value, hvalue⟩ := exists_mem_iff_lookup.1 hbundle
      have hupper : (GenerateOptions.ofGiven given).toConfig.setting s = s.fresh := by
        rw [setting_ofGiven_of_bundle hs hvalue]
        cases hname : s.option? with
        | none => rfl
        | some name => simp [hoption name hname]
      rw [hcounts (hupper ▸ fresh_ne_unasked hs), hupper]
      exact ⟨fun heq _ _ => heq.symm, fun heq => (heq rfl hbundle).symm⟩
    · rw [hyields (setting_ofGiven_of_no_bundle hs
        (lookup_eq_none_iff.2 fun value hmem => hbundle ⟨value, hmem⟩))]
      exact ⟨fun _ _ hmem => absurd hmem hbundle, fun _ => rfl⟩

/-- The directory of a bundle stays as it is while the program of another one begins anew. -/
theorem unwritten_name_stays :
    Command.ofArguments ["generate", "--bundle", "--bundle-out=out"] =
        .ok (.generate { bundle := true, bundleOut := "out" }) ∧
      Writes generateSpecs none ["--bundle", "--bundle-out=out"]
        [("bundle", ""), ("bundle-out", "out")] ∧
      (({ clientName := "Shop", bundle := some { esbuild := "./x" } } : Config).merge
        ({ bundle := true, bundleOut := "out" } : GenerateOptions).toConfig).setting .clientName =
          .string "Shop" ∧
      (({ clientName := "Shop", bundle := some { esbuild := "./x" } } : Config).merge
        ({ bundle := true, bundleOut := "out" } : GenerateOptions).toConfig).setting
          .bundleProgram ≠ .string "./x" := by
  have h : Command.ofArguments ["generate", "--bundle", "--bundle-out=out"] =
      .ok (.generate { bundle := true, bundleOut := "out" }) := by decide
  obtain ⟨rest, r, hrest, hread, hwrites, hstays⟩ :=
    unwritten_settings_stay_iff { clientName := "Shop", bundle := some { esbuild := "./x" } } h
  obtain rfl := (List.cons.inj hrest).2
  have hgiven : readOptions generateSpecs {} ["--bundle", "--bundle-out=out"] =
      .ok { given := [("bundle", ""), ("bundle-out", "out")] } := by decide
  obtain rfl := Except.ok.inj (hread.symm.trans hgiven)
  refine ⟨h, hwrites, (hstays .clientName ?_).2 nofun, fun hsame => ?_⟩
  · rintro name text ⟨⟩
    simp
  · have hfresh := (hstays .bundleProgram nofun).1 hsame rfl ⟨"", by simp⟩
    simp [Config.setting, Setting.fresh, Value.ofOption] at hfresh

/-- A bundle that is asked for begins anew. -/
theorem bundle_begins_anew :
    Command.ofArguments ["generate", "--bundle"] = .ok (.generate { bundle := true }) ∧
      (({ bundle := some { outDir := "build", esbuild := "./x" } } : Config).merge
        ({ bundle := true } : GenerateOptions).toConfig).bundle =
          some { outDir := "dist", esbuild := "esbuild" } := by
  decide

end CommandLine

end TypedRoutes
