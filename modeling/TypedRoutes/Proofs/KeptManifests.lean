import TypedRoutes.Proofs.RunOutcomes
import TypedRoutes.Proofs.StoredSettings

/-! # Manifests keep the rest

Settings are put into a manifest by reading it, replacing one section and writing all of it.  What
else it holds is read again as it was, as long as its numbers are integers.  If the manifest cannot
be read or holds no object, nothing is written.
-/

namespace TypedRoutes
open TypedRoutes.Json

/-! ## Values without fractions -/

namespace Json

/-- Whether a number was written as an integer that has room in 64 bits; minus zero is kept apart
from zero, as a double. -/
def Number.isInteger : Number → Bool
  | integer _ => true
  | double bits => bits == 0x8000000000000000

mutual

/-- The numbers in a value, in order. -/
def Value.numbers : Value → List Number
  | .number n => [n]
  | .array items => itemNumbers items
  | .object fields => fieldNumbers fields
  | _ => []

def itemNumbers : List Value → List Number
  | [] => []
  | v :: vs => v.numbers ++ itemNumbers vs

def fieldNumbers : List (String × Value) → List Number
  | [] => []
  | (_, v) :: fs => v.numbers ++ fieldNumbers fs

end

theorem itemNumbers_eq (vs : List Value) : itemNumbers vs = vs.flatMap Value.numbers := by
  induction vs with
  | nil => rfl
  | cons v vs ih => rw [itemNumbers, ih, List.flatMap_cons]

theorem fieldNumbers_eq (fs : List (String × Value)) :
    fieldNumbers fs = fs.flatMap fun f => f.2.numbers := by
  induction fs with
  | nil => rfl
  | cons f fs ih => rw [fieldNumbers, ih, List.flatMap_cons]

theorem Number.reread_of_isInteger {n : Number} (h : n.isInteger = true)
    (hreadable : n.IsReadable) : n.reread = n := by
  cases n with
  | integer k => exact reread_integer hreadable
  | double bits =>
    obtain rfl : bits = 0x8000000000000000 := eq_of_beq h
    decide +kernel

/-- A value with integers only is read as it was printed. -/
theorem Readable.reread_of_integers {depth : Nat} {v : Value} (h : Readable depth v)
    (hintegers : ∀ n ∈ v.numbers, n.isInteger = true) : v.reread = v := by
  induction h with
  | null => rfl
  | bool b => rfl
  | string s => rfl
  | number h => exact congrArg Value.number (Number.reread_of_isInteger (hintegers _ (.head _)) h)
  | @array _ items _ ih =>
    rw [Value.numbers, itemNumbers_eq] at hintegers
    have hsame : ∀ v ∈ items, v.reread = v := fun v hv =>
      ih v hv fun n hn => hintegers n (List.mem_flatMap.2 ⟨v, hv, hn⟩)
    rw [Value.reread, rereadItems_eq, List.map_congr_left hsame, List.map_id']
  | @object _ fields _ _ ih =>
    rw [Value.numbers, fieldNumbers_eq] at hintegers
    have hsame : ∀ f ∈ fields, (f.1, f.2.reread) = f := fun f hf =>
      Prod.ext rfl (ih f hf fun n hn => hintegers n (List.mem_flatMap.2 ⟨f, hf, hn⟩))
    rw [Value.reread, rereadFields_eq, List.map_congr_left hsame, List.map_id']

theorem lookup_insertField_of_ne {key other : String} (h : other ≠ key) (v : Value)
    (fields : List (String × Value)) :
    (Value.insertField key v fields).lookup other = fields.lookup other := by
  have hother : (other == key) = false := beq_eq_false_iff_ne.2 h
  induction fields with
  | nil => rw [Value.insertField, List.lookup_cons, hother]
  | cons f fields ih =>
    obtain ⟨k, w⟩ := f
    unfold Value.insertField
    split
    · rename_i hkey
      subst hkey
      rw [List.lookup_cons, List.lookup_cons, hother]
    · split
      · rw [List.lookup_cons, hother]
      · rw [List.lookup_cons, List.lookup_cons, ih]

end Json

/-! ## What a change leaves -/

theorem Action.exec_change (f : FileTree → Location → Except Fault FileTree) (site : Site)
    (s : Session) : (Action.change f).exec site s =
      match f s.files site.directory with
      | .ok files => (.ok (), { s with files })
      | .error e => (.error e, s) := by
  unfold Action.change
  rw [exec_bind, exec_inspect]
  cases f s.files site.directory <;> rfl

theorem Action.exec_change_eq_error {f : FileTree → Location → Except Fault FileTree} {site : Site}
    {s : Session} {e : Fault} (h : ((Action.change f).exec site s).1 = .error e) :
    ((Action.change f).exec site s).2 = s := by
  rw [exec_change] at h ⊢
  split at h
  · cases h
  · rfl

namespace Config

/-! ## Manifests with settings -/

def withSection (c : Config) (fields : List (String × Value)) : List (String × Value) :=
  Value.insertField sectionKey c.toJson.sorted fields

/-- A manifest as it is read after settings were put into it. -/
structure HoldsSection (c : Config) (fields fields' : List (String × Value)) : Prop where
  /-- Each key once. -/
  ascending : Ascending fields'
  /-- The section is what the settings are encoded to. -/
  stored : fields'.lookup sectionKey = some c.toJson.sorted
  /-- Everything else is as it was, and there is nothing more. -/
  kept : ∀ key, key ≠ sectionKey → fields'.lookup key = fields.lookup key

theorem ascending_reread {fields : List (String × Value)} (h : Ascending fields) :
    Ascending (rereadFields fields) := by
  rw [rereadFields_eq]
  exact List.pairwise_map.2 h

theorem lookup_withSection_reread (c : Config) (fields : List (String × Value)) :
    (rereadFields (c.withSection fields)).lookup sectionKey = some c.toJson.sorted := by
  rw [lookup_reread, withSection, lookup_insertField, Option.map_some, (kept_toJson 0 c).reread]

theorem holdsSection (c : Config) {fields : List (String × Value)}
    (h : Readable Reader.depthLimit (.object fields))
    (hintegers : ∀ n ∈ (Value.object fields).numbers, n.isInteger = true) :
    HoldsSection c fields (rereadFields (c.withSection fields)) where
  ascending := by
    cases h with
    | object hkeys _ => exact ascending_reread (hkeys.insertField _ _)
  stored := lookup_withSection_reread c fields
  kept := by
    intro key hkey
    have hsame : rereadFields fields = fields :=
      Value.object.inj (h.reread_of_integers hintegers)
    rw [lookup_reread, withSection, lookup_insertField_of_ne hkey, ← lookup_reread, hsame]

section
variable {files : FileTree} {directory l : Location} {path text : String} {c : Config}
  {fields : List (String × Value)}

theorem loadJson_of_readText (htext : files.readText directory path = .ok text) :
    loadJson files directory path = (parse text).mapError fun e => .json e.message := by
  rw [loadJson, htext]
  rfl

theorem present_of_readText (htext : files.readText directory path = .ok text) :
    files.present directory path = true := by
  obtain ⟨l, hfind⟩ := FileTree.find_of_readText htext
  rw [FileTree.present, hfind]
  rfl

theorem saveSection_absent (h : files.present directory path = false) :
    saveSection files directory path c =
      .error (.invalid ("package.json not found at " ++ path)) := by
  rw [saveSection, h]
  rfl

/-- What is saved depends on the value that the manifest holds. -/
theorem saveSection_of_readText (htext : files.readText directory path = .ok text) :
    saveSection files directory path c =
      match parse text with
      | .error e => .error (.json e.message)
      | .ok (.object fields) =>
        store files directory path (Value.object (c.withSection fields)).pretty
      | .ok _ => .error (.invalid (path ++ " does not contain a JSON object")) := by
  rw [saveSection, present_of_readText htext, loadJson_of_readText htext]
  cases parse text with
  | error e => rfl
  | ok v => cases v <;> rfl

theorem saveSection_of_find (hreached : files.Reached directory)
    (hfind : files.find directory path = .ok (l, .file (.text text)))
    (hparse : parse text = .ok (.object fields)) :
    saveSection files directory path c =
      .ok (files.setNode l (.file (.text (Value.object (c.withSection fields)).pretty))) := by
  obtain ⟨hleads, hl⟩ := FileTree.leadsTo_of_find hreached hfind
  rw [saveSection_of_readText (FileTree.readText_of_find hfind), hparse]
  simp only [store, hleads.write (by simp [hl]), Except.mapError]

/-- What was written is read, as the manifest with its section. -/
theorem reads_saved (hreached : files.Reached directory)
    (hfind : files.find directory path = .ok (l, .file (.text text)))
    (hparse : parse text = .ok (.object fields)) :
    ∃ text', (files.setNode l (.file (.text (Value.object (c.withSection fields)).pretty))).readText
        directory path = .ok text' ∧
      parse text' = .ok (.object (rereadFields (c.withSection fields))) := by
  obtain ⟨hleads, hl⟩ := FileTree.leadsTo_of_find hreached hfind
  have hwrite := hleads.write (by simp [hl]) (.text (Value.object (c.withSection fields)).pretty)
  exact ⟨_, (FileTree.readText_write hwrite).1,
    parse_pretty (c.readable_withSection (readable_of_parse hparse))⟩

end

/-- Saving settings into a manifest whose numbers are all integers changes their section only: what
is there afterwards has the settings in it and all else as it was, and no other file is touched.
Whenever saving fails, as it does where there is no manifest, no JSON or no object, nothing has
changed. -/
theorem saving_keeps_rest (site : Site) (s : Session) (path : String) (c : Config) :
    let saved := (Action.change fun files directory =>
      (saveSection files directory path c).mapError Fault.config).exec site s
    (∀ l text fields, s.files.Reached site.directory →
        s.files.find site.directory path = .ok (l, .file (.text text)) →
        parse text = .ok (.object fields) →
        (∀ n ∈ (Value.object fields).numbers, n.isInteger = true) →
        ∃ text' fields', saved.1 = .ok () ∧
          saved.2.files.readText site.directory path = .ok text' ∧
          parse text' = .ok (.object fields') ∧ HoldsSection c fields fields' ∧
          (∀ l', l' ≠ l → saved.2.files.node? l' = s.files.node? l') ∧ saved.2.said = s.said) ∧
      (∀ e, saved.1 = .error e → saved.2 = s) ∧
      (s.files.present site.directory path = false →
        saved.1 = .error (.config (.invalid ("package.json not found at " ++ path)))) ∧
      ∀ text, s.files.readText site.directory path = .ok text →
        (∀ failure, parse text = .error failure →
          saved.1 = .error (.config (.json failure.message))) ∧
        ∀ v, parse text = .ok v → v.fields? = none →
          saved.1 = .error (.config (.invalid (path ++ " does not contain a JSON object"))) := by
  intro saved
  refine ⟨fun l text fields hreached hfind hparse hintegers => ?_,
    fun e he => Action.exec_change_eq_error he, fun habsent => ?_, fun text htext => ⟨?_, ?_⟩⟩
  · obtain ⟨text', htext', hparse'⟩ := reads_saved (c := c) hreached hfind hparse
    let files' := s.files.setNode l (.file (.text (Value.object (c.withSection fields)).pretty))
    have hsaved : saved = (.ok (), { s with files := files' }) := by
      simp only [saved, files', Action.exec_change, saveSection_of_find hreached hfind hparse,
        Except.mapError]
    rw [hsaved]
    exact ⟨text', _, rfl, htext', hparse', holdsSection c (readable_of_parse hparse) hintegers,
      fun l' hl' => FileTree.node?_setNode_of_ne hl', rfl⟩
  · simp only [saved, Action.exec_change, saveSection_absent habsent, Except.mapError]
  · intro failure hparse
    simp only [saved, Action.exec_change, saveSection_of_readText htext, hparse, Except.mapError]
  · intro v hparse hfields
    cases v with
    | object fields => cases hfields
    | _ =>
      simp only [saved, Action.exec_change, saveSection_of_readText htext, hparse, Except.mapError]

/-- A name stays beside the settings, after numbers at some depth; a file without an object, or
none, stays as it is. -/
theorem saving_keeps_name :
    let text := "\x7b\"name\": \"shop\", \"limits\": [-0, 18446744073709551615, \x7b\x7d]\x7d"
    let s : Session := { files := ⟨[(["package.json"], .file (.text text)),
      (["list.json"], .file (.text "[1]"))]⟩ }
    let saved (path : String) := (Action.change fun files directory =>
      (saveSection files directory path {}).mapError Fault.config).exec ⟨[], basicPrograms⟩ s
    (∃ text' fields', (saved "package.json").1 = .ok () ∧
      (saved "package.json").2.files.readText [] "package.json" = .ok text' ∧
      parse text' = .ok (.object fields') ∧
      fields'.lookup sectionKey = some ({} : Config).toJson.sorted ∧
      (fields'.lookup "name").bind Value.string? = some "shop" ∧
      fields'.lookup "main" = none) ∧
    (saved "list.json").2 = s ∧ (saved "other.json").2 = s := by
  intro text s saved
  have hobject : ((parse text).toOption.bind Value.fields?).isSome = true := by decide +kernel
  obtain ⟨fields, hfields⟩ := Option.isSome_iff_exists.1 hobject
  have hparse := parse_eq_object hfields
  have hnumbers : ((parse text).toOption.map fun v => v.numbers.all Number.isInteger) =
      some true := by decide +kernel
  have hname : ((parse text).toOption.bind fun v => (v.field? "name").bind Value.string?) =
      some "shop" := by decide +kernel
  have hmain : ((parse text).toOption.bind fun v => v.field? "main").isNone = true := by
    decide +kernel
  rw [hparse] at hnumbers hname hmain
  obtain ⟨text', fields', hok, htext', hparse', hsection, -, -⟩ :=
    (saving_keeps_rest ⟨[], basicPrograms⟩ s "package.json" {}).1 ["package.json"] text fields
      (FileTree.reached_nil _) (by rfl) hparse (List.all_eq_true.1 (Option.some.inj hnumbers))
  refine ⟨⟨text', fields', hok, htext', hparse', hsection.stored, ?_, ?_⟩, ?_, ?_⟩
  · rw [hsection.kept "name" (by decide)]
    exact hname
  · rw [hsection.kept "main" (by decide)]
    exact Option.isNone_iff_eq_none.1 hmain
  · obtain ⟨-, hfailed, -, hread⟩ :=
      saving_keeps_rest ⟨[], basicPrograms⟩ s "list.json" {}
    have hlist : ((parse "[1]").toOption.map fun v => v.fields?.isNone) = some true := by
      decide +kernel
    cases hparse : parse "[1]" with
    | error e => simp [hparse, Except.toOption] at hlist
    | ok v =>
      refine hfailed _ ((hread "[1]" (by rfl)).2 v hparse ?_)
      simpa [hparse, Except.toOption] using hlist
  · obtain ⟨-, hfailed, habsent, -⟩ :=
      saving_keeps_rest ⟨[], basicPrograms⟩ s "other.json" {}
    exact hfailed _ (habsent rfl)

end Config

end TypedRoutes
