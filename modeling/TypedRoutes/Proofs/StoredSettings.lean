import TypedRoutes.Config.Storage
import TypedRoutes.Proofs.DecodedRecords
import TypedRoutes.Proofs.ReadableValues
import TypedRoutes.Proofs.StoredFiles

/-! # Settings come back from where they were stored

Settings are decoded field by field from what they were encoded to.  A manifest is read, written
with a section for them and read again, whatever else it holds.
-/

namespace TypedRoutes
open TypedRoutes.Json TypedRoutes.Render

/-! ## Encoded settings -/

def BundleConfig.fieldValues (b : BundleConfig) : List (FieldValue BundleConfig) :=
  [⟨"outDir", .string b.outDir, fun d => { d with outDir := b.outDir }⟩,
   ⟨"esbuild", .string b.esbuild, fun d => { d with esbuild := b.esbuild }⟩]

namespace Config

def fieldValues (c : Config) : List (FieldValue Config) :=
  [⟨"entryDir", .string c.entryDir, fun d => { d with entryDir := c.entryDir }⟩,
   ⟨"endpointPathPrefix", .string c.endpointPathPrefix,
     fun d => { d with endpointPathPrefix := c.endpointPathPrefix }⟩,
   ⟨"routerPath", .string c.routerPath, fun d => { d with routerPath := c.routerPath }⟩,
   ⟨"clientOutDir", .string c.clientOutDir, fun d => { d with clientOutDir := c.clientOutDir }⟩,
   ⟨"clientName", .string c.clientName, fun d => { d with clientName := c.clientName }⟩,
   ⟨"clientTemplate", Value.ofOption .string c.clientTemplate,
     fun d => { d with clientTemplate := c.clientTemplate }⟩,
   ⟨"serverTemplate", Value.ofOption .string c.serverTemplate,
     fun d => { d with serverTemplate := c.serverTemplate }⟩,
   ⟨"routeStyle", .string c.routeStyle.name, fun d => { d with routeStyle := c.routeStyle }⟩,
   ⟨"indent", .string c.indent, fun d => { d with indent := c.indent }⟩,
   ⟨"importsBase", Value.ofOption .string c.importsBase,
     fun d => { d with importsBase := c.importsBase }⟩,
   ⟨"allowParameterless", Value.ofOption .bool c.allowParameterless,
     fun d => { d with allowParameterless := c.allowParameterless }⟩,
   ⟨"excludePatterns",
     Value.ofOption (fun patterns => .array (patterns.map .string)) c.excludePatterns,
     fun d => { d with excludePatterns := c.excludePatterns }⟩,
   ⟨"emitHeader", Value.ofOption .bool c.emitHeader,
     fun d => { d with emitHeader := c.emitHeader }⟩,
   ⟨"verbose", Value.ofOption .bool c.verbose, fun d => { d with verbose := c.verbose }⟩,
   ⟨"bundle", Value.ofOption BundleConfig.toJson c.bundle,
     fun d => { d with bundle := c.bundle }⟩]

theorem decodes_option {α : Type} {d : Decoder α} {encode : α → Value}
    (h : ∀ a, Decodes d (encode a) a)
    (hnull : ∀ a depth, ((encode a).prettyChars depth).head? ≠ some 'n') (o : Option α) :
    Decodes (.optional d) (Value.ofOption encode o) o := by
  cases o with
  | none => exact Decodes.optional_none d
  | some a => exact (h a).optional_some (hnull a)

theorem decodes_string? (o : Option String) :
    Decodes (.optional .string) (Value.ofOption .string o) o :=
  decodes_option Decodes.string (fun _ _ h => nomatch h) o

theorem decodes_boolean? (o : Option Bool) :
    Decodes (.optional .boolean) (Value.ofOption .bool o) o := by
  refine decodes_option Decodes.boolean (fun b depth => ?_) o
  cases b <;> simp [Value.prettyChars]

theorem decodes_patterns (o : Option (List String)) : Decodes (.optional (.list .string))
    (Value.ofOption (fun patterns => .array (patterns.map .string)) o) o := by
  refine decodes_option (Decodes.list Decodes.string) (fun patterns depth => ?_) o
  simp [Value.prettyChars]

theorem decodes_bundle (b : BundleConfig) : Decodes bundleDecoder b.toJson b := by
  refine Decodes.record _ b.fieldValues ?_ (by simp [BundleConfig.fieldValues]) rfl ?_
  · exact .cons (fits_field (.string _) _) (.cons (fits_field (.string _) _) .nil)
  · simp only [BundleConfig.fieldValues, FieldValue.sort, FieldValue.insert, FieldValue.result,
      List.foldl_cons, List.foldl_nil, String.reduceEq, String.reduceLT, reduceIte]

theorem decodes_bundle? (o : Option BundleConfig) :
    Decodes (.optional bundleDecoder) (Value.ofOption BundleConfig.toJson o) o := by
  refine decodes_option decodes_bundle (fun b depth => ?_) o
  simp [BundleConfig.toJson, Value.prettyChars]

theorem decodes_routeStyle (style : RouteStyle) :
    Decodes routeStyleDecoder (.string style.name) style := by
  cases style <;> exact Decodes.variant rfl

theorem decodes (c : Config) : Decodes decoder c.toJson c := by
  refine Decodes.record _ c.fieldValues ?_ (by simp [fieldValues]) rfl ?_
  · exact .cons (fits_field (.string _) _) <| .cons (fits_field (.string _) _) <|
      .cons (fits_field (.string _) _) <| .cons (fits_field (.string _) _) <|
      .cons (fits_field (.string _) _) <| .cons (fits_field (decodes_string? _) _) <|
      .cons (fits_field (decodes_string? _) _) <| .cons (fits_field (decodes_routeStyle _) _) <|
      .cons (fits_field (.string _) _) <| .cons (fits_field (decodes_string? _) _) <|
      .cons (fits_field (decodes_boolean? _) _) <| .cons (fits_field (decodes_patterns _) _) <|
      .cons (fits_field (decodes_boolean? _) _) <| .cons (fits_field (decodes_boolean? _) _) <|
      .cons (fits_field (decodes_bundle? _) _) .nil
  · simp only [fieldValues, FieldValue.sort, FieldValue.insert, FieldValue.result,
      List.foldl_cons, List.foldl_nil, String.reduceEq, String.reduceLT, reduceIte]

theorem ofText_toJson (c : Config) : ofText c.toJson.pretty = .ok c := by
  rw [ofText, c.decodes.ofText]
  rfl

theorem ofJson_toJson (c : Config) : ofJson c.toJson.sorted = .ok c := by
  rw [ofJson, c.decodes.ofValue]
  rfl

/-! ## Sections of manifests -/

section Kept
variable {depth : Nat}

theorem kept_object {σ : Type} (entries : List (FieldValue σ))
    (h : ∀ e ∈ entries, Kept (depth + 1) e.value.sorted) :
    Kept (depth + 2) (FieldValue.object entries).sorted := by
  rw [FieldValue.object, Value.sorted, FieldValue.sortedFields_eq, List.map_map]
  refine kept_ofFields fun f hf => ?_
  obtain ⟨e, he, rfl⟩ := List.mem_map.1 hf
  exact h e he

theorem kept_option {α : Type} {encode : α → Value} (h : ∀ a, Kept (depth + 1) (encode a).sorted)
    (o : Option α) : Kept (depth + 1) (Value.ofOption encode o).sorted := by
  cases o with
  | none => exact kept_null
  | some a => exact h a

theorem kept_patterns (patterns : List String) :
    Kept (depth + 2) (Value.array (patterns.map .string)).sorted := by
  have hsorted : (Value.array (patterns.map .string)).sorted = .array (patterns.map .string) := by
    rw [Value.sorted, Decodes.sortedItems_eq, List.map_map]
    rfl
  rw [hsorted]
  refine kept_array fun v hv => ?_
  obtain ⟨pattern, -, rfl⟩ := List.mem_map.1 hv
  exact kept_string pattern

theorem kept_bundle (b : BundleConfig) : Kept (depth + 2) b.toJson.sorted := by
  refine kept_object b.fieldValues ?_
  simp only [BundleConfig.fieldValues, List.forall_mem_cons]
  exact ⟨kept_string _, kept_string _, by simp⟩

/-- Encoded settings hold no numbers, so they are read again as they were printed. -/
theorem kept_toJson (depth : Nat) (c : Config) : Kept (depth + 3) c.toJson.sorted := by
  have hstring : ∀ o : Option String, Kept (depth + 2) (Value.ofOption .string o).sorted :=
    kept_option fun s => kept_string s
  have hboolean : ∀ o : Option Bool, Kept (depth + 2) (Value.ofOption .bool o).sorted :=
    kept_option fun b => kept_bool b
  refine kept_object c.fieldValues ?_
  simp only [fieldValues, List.forall_mem_cons]
  exact ⟨kept_string _, kept_string _, kept_string _, kept_string _, kept_string _, hstring _,
    hstring _, kept_string _, kept_string _, hstring _, hboolean _, kept_option kept_patterns _,
    hboolean _, hboolean _, kept_option kept_bundle _, by simp⟩

end Kept

theorem lookup_insertField (key : String) (v : Value) (fields : List (String × Value)) :
    (Value.insertField key v fields).lookup key = some v := by
  induction fields with
  | nil => simp [Value.insertField]
  | cons f fields ih =>
    obtain ⟨k, w⟩ := f
    unfold Value.insertField
    split
    · simp
    · rename_i hne
      split
      · simp
      · rw [List.lookup_cons, beq_eq_false_iff_ne.2 hne]
        exact ih

theorem lookup_reread (key : String) (fields : List (String × Value)) :
    (rereadFields fields).lookup key = (fields.lookup key).map Value.reread := by
  induction fields with
  | nil => rfl
  | cons f fields ih =>
    obtain ⟨k, w⟩ := f
    rw [rereadFields, List.lookup_cons, List.lookup_cons]
    split
    · rfl
    · exact ih

/-- An object that was read, with the settings in their section, can be printed. -/
theorem readable_withSection (c : Config) {fields : List (String × Value)}
    (h : Readable Reader.depthLimit (.object fields)) :
    Readable Reader.depthLimit (.object (Value.insertField sectionKey c.toJson.sorted fields)) := by
  cases h with
  | object hkeys hfields =>
    refine .object (hkeys.insertField _ _) fun f hf => ?_
    obtain rfl | hf := mem_insertField hf
    · exact (kept_toJson 124 c).readable
    · exact hfields f hf

/-! ## Files -/

section Files
variable {files files' : FileTree} {directory : Location} {c : Config}

theorem requireFile_of_keeps (h : FileTree.Keeps files files') {path : Option String}
    (hfile : requireFile files directory path = .ok ()) :
    requireFile files' directory path = .ok () := by
  cases path with
  | none => rfl
  | some path =>
    have hisFile : files.isFile directory path = true := by
      by_contra hnot
      rw [Bool.not_eq_true] at hnot
      simp [requireFile, refuse, hnot] at hfile
    simp [requireFile, refuse, h.isFile hisFile]

/-- Settings that can be used can still be used when there are more files. -/
theorem validate_of_keeps (h : FileTree.Keeps files files')
    (hvalid : c.validate files directory = .ok ()) : c.validate files' directory = .ok () := by
  unfold validate at hvalid ⊢
  obtain ⟨_, h₁, hvalid⟩ := bind_eq_ok hvalid
  obtain ⟨_, h₂, hvalid⟩ := bind_eq_ok hvalid
  obtain ⟨_, h₃, hvalid⟩ := bind_eq_ok hvalid
  obtain ⟨_, h₄, hvalid⟩ := bind_eq_ok hvalid
  obtain ⟨_, hclient, hvalid⟩ := bind_eq_ok hvalid
  obtain ⟨_, hserver, hvalid⟩ := bind_eq_ok hvalid
  rw [h₁, h₂, h₃, h₄, requireFile_of_keeps h hclient, requireFile_of_keeps h hserver]
  exact hvalid

theorem load_of_readText {path : String}
    (htext : files.readText directory path = .ok c.toJson.pretty)
    (hvalid : c.validate files directory = .ok ()) : load files directory path = .ok c := by
  unfold load
  rw [htext]
  simp only [Except.mapError, bind, Except.bind, ofText_toJson, hvalid]
  rfl

theorem loadSection_of_readText {path : String} {fields : List (String × Value)}
    (hreadable : Readable Reader.depthLimit (.object fields))
    (htext : files.readText directory path =
      .ok (Value.object (Value.insertField sectionKey c.toJson.sorted fields)).pretty)
    (hvalid : c.validate files directory = .ok ()) :
    loadSection files directory path = .ok (some c) := by
  have hparse := parse_pretty (c.readable_withSection hreadable)
  have hfield : (Value.object
      (Value.insertField sectionKey c.toJson.sorted fields)).reread.field? sectionKey =
        some c.toJson.sorted := by
    rw [Value.reread, Value.field?, lookup_reread, lookup_insertField, Option.map_some,
      (kept_toJson 0 c).reread]
  unfold loadSection loadJson
  rw [htext]
  simp only [Except.mapError, bind, Except.bind, hparse, hfield, ofJson_toJson, hvalid]
  rfl

/-- Settings that can be used come back from any file that can be written, and from every manifest
that holds an object, where they are put beside what else it holds. -/
theorem stored_settings_reload (files : FileTree) (directory : Location) (path : String) (c : Config)
    (hvalid : c.validate files directory = .ok ()) :
    ((∃ files', files.write directory path (.text "") = .ok files') →
      ∃ files', save files directory path c = .ok files' ∧ load files' directory path = .ok c) ∧
    ∀ text fields, files.Reached directory → files.readText directory path = .ok text →
      parse text = .ok (.object fields) → ∃ files', saveSection files directory path c = .ok files' ∧
        loadSection files' directory path = .ok (some c) := by
  constructor
  · rintro ⟨_, hwrite⟩
    obtain ⟨l, hleads, hl, -⟩ := FileTree.leadsTo_of_write hwrite
    have hsave := hleads.write hl (.text c.toJson.pretty)
    obtain ⟨htext, hkeeps⟩ := FileTree.readText_write hsave
    refine ⟨_, ?_, load_of_readText htext (validate_of_keeps hkeeps hvalid)⟩
    rw [save, store, hsave]
    rfl
  · intro text fields hreached htext hparse
    obtain ⟨l, hfind⟩ := FileTree.find_of_readText htext
    obtain ⟨hleads, hl⟩ := FileTree.leadsTo_of_find hreached hfind
    have hsave := hleads.write (by simp [hl]) (.text
      (Value.object (Value.insertField sectionKey c.toJson.sorted fields)).pretty)
    obtain ⟨htext', hkeeps⟩ := FileTree.readText_write hsave
    refine ⟨_, ?_, loadSection_of_readText (readable_of_parse hparse) htext'
      (validate_of_keeps hkeeps hvalid)⟩
    have hpresent : files.present directory path = true := by
      rw [FileTree.present, hfind]
      rfl
    unfold saveSection loadJson
    rw [hpresent, htext]
    simp only [refuse, Bool.not_true, Bool.false_eq_true, if_false, Except.mapError, bind,
      Except.bind, hparse, store, hsave]

theorem stored_settings_reload_beside_double :
    let text := "\x7b\"private\": true, \"ratio\": 1.5e-3\x7d"
    let files : FileTree := ⟨[(["package.json"], .file (.text text))]⟩
    let c : Config :=
      { entryDir := "./ä\n", excludePatterns := some ["\\.test\\.ts$"], bundle := some {} }
    c.validate files [] = .ok () ∧
      (∃ files', save files [] fileName c = .ok files' ∧ load files' [] fileName = .ok c) ∧
      ∃ files', saveSection files [] "package.json" c = .ok files' ∧
        loadSection files' [] "package.json" = .ok (some c) := by
  intro text files c
  have hvalid : c.validate files [] = .ok () := by decide +kernel
  have htext : files.readText [] "package.json" = .ok text := by decide +kernel
  have hobject : ((parse text).toOption.bind Value.fields?).isSome = true := by decide +kernel
  obtain ⟨fields, hfields⟩ := Option.isSome_iff_exists.1 hobject
  exact ⟨hvalid, (stored_settings_reload files [] fileName c hvalid).1 ⟨_, rfl⟩,
    (stored_settings_reload files [] "package.json" c hvalid).2 text fields
      (FileTree.reached_nil files) htext (parse_eq_object hfields)⟩

end Files

end Config

end TypedRoutes
