import TypedRoutes.Proofs.KeptManifests
import TypedRoutes.Proofs.TakenStrings

/-! # Sections that are guarded

First settings are not put into a manifest where the name of their section is found in quotes.  That
is no question of the section: the name may stand in quotes as any other string of the manifest, and
it need not where the key of the section is spelled with an escape.
-/

namespace TypedRoutes.Config
open TypedRoutes.Json TypedRoutes.Text

theorem isTelling_sectionKey : IsTelling sectionKey.toList where
  no_quote := by decide
  no_escape := by decide
  inside := ⟨'p', by decide, by decide⟩

section
variable {files : FileTree} {directory : Location} {path text : String} {c : Config}

/-- The key of the section stands in quotes in a text that is read if a string shows it. -/
theorem containsText_sectionKey_iff {v : Value} (hparse : parse text = .ok v) :
    containsText ("\"" ++ sectionKey ++ "\"") text = true ↔
      ∃ raw ∈ writtenStrings text.toList, Shows sectionKey.toList raw := by
  obtain ⟨raws, hpasses, -⟩ := passes_of_parse hparse
  rw [hpasses.writtenStrings_eq]
  refine Iff.trans ?_ (hpasses.infix_iff isTelling_sectionKey)
  have hquoted : ("\"" ++ sectionKey ++ "\"").toList = '"' :: (sectionKey.toList ++ ['"']) := by
    simp [String.toList_append]
  rw [containsText, hquoted]
  exact ⟨infix_of_containsChars, containsChars_of_infix⟩

theorem shows_or_escape_of_section {fields : List (String × Value)}
    (hparse : parse text = .ok (.object fields))
    (hsection : (fields.lookup sectionKey).isSome = true) :
    (∃ raw ∈ writtenStrings text.toList, Shows sectionKey.toList raw) ∨
      ∃ raw ∈ writtenStrings text.toList, Spells raw sectionKey.toList ∧ '\\' ∈ raw := by
  obtain ⟨raws, hpasses, hspelled⟩ := passes_of_parse hparse
  rw [hpasses.writtenStrings_eq]
  obtain ⟨raw, hmem, hraw⟩ := hspelled sectionKey hsection
  by_cases hescape : '\\' ∈ raw
  · exact .inr ⟨raw, hmem, hraw, hescape⟩
  · exact .inl ⟨raw, hmem, .inl (hraw.eq_of_no_escape hescape)⟩

/-- Without force, first settings are put into a manifest if it does not hold the name of their
section in quotes. -/
theorem saveInitial_of_readText (hname : Path.fileName? path = some Manifest.fileName)
    (htext : files.readText directory path = .ok text) :
    saveInitial files directory path false c =
      if containsText ("\"" ++ sectionKey ++ "\"") text = true then
        .error (.config (.invalid (path ++ " already has a " ++ sectionKey ++
          " section. Use --force to overwrite")))
      else (saveSection files directory path c).mapError Fault.config := by
  unfold saveInitial
  rw [if_pos hname, htext]
  simp only [Except.mapError, bind, Except.bind, Bool.not_false, Bool.and_true]
  split <;> rfl

theorem loadSection_eq_none_iff {fields : List (String × Value)}
    (htext : files.readText directory path = .ok text)
    (hparse : parse text = .ok (.object fields)) :
    loadSection files directory path = .ok none ↔ fields.lookup sectionKey = none := by
  rw [loadSection, loadJson_of_readText htext, hparse]
  simp only [Except.mapError, bind, Except.bind, Value.field?]
  cases fields.lookup sectionKey with
  | none => exact iff_of_true rfl rfl
  | some v =>
    simp only [reduceCtorEq, iff_false]
    cases ofJson v with
    | error e => simp
    | ok c => cases hvalid : c.validate files directory <;> simp [hvalid, pure, Except.pure]

end

/-- First settings are refused by a manifest with an object where a string of its text shows the
name of their section, and are put into it where none does.  So they are refused exactly by those
that have the section already if a string shows the name exactly where the section is there; where
it is there and no string shows the name, its key is spelled with an escape. -/
theorem sections_guarded_iff (site : Site) (s : Session) {path text : String}
    {fields : List (String × Value)} (c : Config)
    (hname : Path.fileName? path = some Manifest.fileName)
    (hreached : s.files.Reached site.directory)
    (htext : s.files.readText site.directory path = .ok text)
    (hparse : parse text = .ok (.object fields)) :
    let saved := (Action.change fun files directory =>
      saveInitial files directory path false c).exec site s
    let shown := ∃ raw ∈ writtenStrings text.toList, Shows sectionKey.toList raw
    (shown → saved = (.error (.config (.invalid (path ++ " already has a " ++ sectionKey ++
        " section. Use --force to overwrite"))), s)) ∧
      (¬shown → saved.1 = .ok () ∧ ∃ text' fields',
        saved.2.files.readText site.directory path = .ok text' ∧
          parse text' = .ok (.object fields') ∧
          fields'.lookup sectionKey = some c.toJson.sorted) ∧
      (((∃ e, saved.1 = .error e) ↔ (fields.lookup sectionKey).isSome = true) ↔
        (shown ↔ (fields.lookup sectionKey).isSome = true)) ∧
      ((fields.lookup sectionKey).isSome = true → ¬shown →
        ∃ raw ∈ writtenStrings text.toList, Spells raw sectionKey.toList ∧ '\\' ∈ raw) ∧
      (loadSection s.files site.directory path = .ok none ↔ fields.lookup sectionKey = none) := by
  intro saved shown
  obtain ⟨l, hfind⟩ := FileTree.find_of_readText htext
  have hrefused : shown → saved = (.error (.config (.invalid (path ++ " already has a " ++
      sectionKey ++ " section. Use --force to overwrite"))), s) := by
    intro hshown
    have hfound := (containsText_sectionKey_iff hparse).2 hshown
    simp only [saved, Action.exec_change, saveInitial_of_readText hname htext, if_pos hfound]
  let files' := s.files.setNode l (.file (.text (Value.object (c.withSection fields)).pretty))
  have hstored : ¬shown → saved = (.ok (), { s with files := files' }) := by
    intro hhidden
    have hnot : ¬containsText ("\"" ++ sectionKey ++ "\"") text = true :=
      fun hfound => hhidden ((containsText_sectionKey_iff hparse).1 hfound)
    simp only [saved, files', Action.exec_change, saveInitial_of_readText hname htext,
      if_neg hnot, saveSection_of_find hreached hfind hparse, Except.mapError]
  have hfails : (∃ e, saved.1 = .error e) ↔ shown := by
    by_cases hshown : shown
    · exact iff_of_true ⟨_, by rw [hrefused hshown]⟩ hshown
    · refine iff_of_false ?_ hshown
      rw [hstored hshown]
      simp
  refine ⟨hrefused, fun hhidden => ?_, by rw [hfails], fun hsection => ?_,
    loadSection_eq_none_iff htext hparse⟩
  · rw [hstored hhidden]
    obtain ⟨text', htext', hparse'⟩ := reads_saved (c := c) hreached hfind hparse
    exact ⟨rfl, text', _, htext', hparse', lookup_withSection_reread c fields⟩
  · exact (shows_or_escape_of_section hparse hsection).resolve_left

/-- A manifest with a name only takes a section. -/
theorem section_stored_beside_name :
    let text := "\x7b\"name\": \"shop\"\x7d"
    let s : Session := { files := ⟨[(["package.json"], .file (.text text))]⟩ }
    let saved := (Action.change fun files directory =>
      saveInitial files directory "package.json" false {}).exec ⟨[], basicPrograms⟩ s
    loadSection s.files [] "package.json" = .ok none ∧
      (¬∃ raw ∈ writtenStrings text.toList, Shows sectionKey.toList raw) ∧ saved.1 = .ok () ∧
      ∃ text' fields', saved.2.files.readText [] "package.json" = .ok text' ∧
        parse text' = .ok (.object fields') ∧
        fields'.lookup sectionKey = some ({} : Config).toJson.sorted := by
  intro text s saved
  have hobject : ((parse text).toOption.bind Value.fields?).isSome = true := by decide +kernel
  obtain ⟨fields, hfields⟩ := Option.isSome_iff_exists.1 hobject
  have hhidden : ¬∃ raw ∈ writtenStrings text.toList, Shows sectionKey.toList raw := by
    decide +kernel
  have hnone : loadSection s.files [] "package.json" = .ok none := by decide +kernel
  have hname : Path.fileName? "package.json" = some Manifest.fileName := by decide +kernel
  obtain ⟨-, hstored, -, -, -⟩ := sections_guarded_iff ⟨[], basicPrograms⟩ s {} hname
    (FileTree.reached_nil _) (by rfl) (parse_eq_object hfields)
  exact ⟨hnone, hhidden, hstored hhidden⟩

/-- A dependency of that name keeps a section out of a manifest that has none, and a section whose
key is spelled with an escape is replaced by the standard one. -/
theorem dependency_refused_and_escaped_section_replaced :
    let s : Session := { files := ⟨[(["a"], .directory), (["b"], .directory),
      (["a", "package.json"], .file (.text
        "\x7b\"devDependencies\": \x7b\"rpcTypegen\": \"^1.0.0\"\x7d\x7d")),
      (["b", "package.json"], .file (.text
        "\x7b\"rpcTypege\\u006e\": \x7b\"clientName\": \"Shop\"\x7d\x7d"))]⟩ }
    let saved (path : String) := (Action.change fun files directory =>
      saveInitial files directory path false {}).exec ⟨[], basicPrograms⟩ s
    loadSection s.files [] "a/package.json" = .ok none ∧
      (saved "a/package.json").1 = .error (.config (.invalid
        "a/package.json already has a rpcTypegen section. Use --force to overwrite")) ∧
      (loadSection s.files [] "b/package.json").toOption.map (·.map (·.clientName)) =
        some (some "Shop") ∧
      (saved "b/package.json").1 = .ok () ∧
      (saved "b/package.json").2.files.readText [] "b/package.json" =
        .ok (Value.object [(sectionKey, ({} : Config).toJson.sorted)]).pretty := by
  decide +kernel

end TypedRoutes.Config
