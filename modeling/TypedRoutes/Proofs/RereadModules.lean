import TypedRoutes.Generation
import TypedRoutes.Proofs.AnalyzerIsolation
import TypedRoutes.Proofs.EndpointPaths
import TypedRoutes.Proofs.PassedPlaces
import TypedRoutes.Proofs.SkippedEntries

/-! # Modules that are read again

What a module says depends on its own text and on the files that its imports may name, and on no
others.  So documents that are written elsewhere do not change what a module holds; and where a
document is a module itself it holds no endpoint unless its text exports a function.
-/

namespace TypedRoutes

namespace FileTree
variable {t t' : FileTree} {directory : Location} {path : String}

/-- A path that leads to a file in one of two trees leads to the same file in the other. -/
def SameFile (t t' : FileTree) (directory : Location) (path : String) : Prop :=
  ∀ l content, t'.find directory path = .ok (l, .file content) ↔
    t.find directory path = .ok (l, .file content)

theorem isFile_iff : t.isFile directory path = true ↔
    ∃ l content, t.find directory path = .ok (l, .file content) := by
  unfold isFile
  constructor
  · intro h
    split at h
    · exact ⟨_, _, ‹_›⟩
    · cases h
  · rintro ⟨l, content, h⟩
    rw [h]

theorem SameFile.isFile (h : SameFile t t' directory path) :
    t'.isFile directory path = t.isFile directory path := by
  rw [Bool.eq_iff_iff, isFile_iff, isFile_iff]
  simp only [h _ _]

theorem SameFile.find (h : SameFile t t' directory path) (hfile : t.isFile directory path = true) :
    t'.find directory path = t.find directory path := by
  obtain ⟨l, content, hfind⟩ := isFile_iff.1 hfile
  rw [hfind, h]
  exact hfind

end FileTree

namespace Script
open TypedRoutes.Text TypedRoutes.Route

variable {files files' : FileTree} {directory : Location} {file : String}

/-! ## One module -/

theorem loadModule_congr (h : files'.find directory file = files.find directory file) :
    loadModule files' directory file = loadModule files directory file := by
  unfold loadModule FileTree.readText FileTree.read
  rw [h]

def moduleOf (name text : String) : Option ParsedModule :=
  let text := dropByteOrderMark text.toList
  (readModule (Dialect.ofName name) text).map fun items => { text, items }

theorem loadModule_of_find {l : Location} {text : String}
    (h : files.find directory file = .ok (l, .file (.text text))) :
    loadModule files directory file = match moduleOf (l.getLast?.getD "") text with
      | some m => .ok m
      | none => .error (.parse file "the module is not well formed") := by
  unfold loadModule moduleOf
  rw [FileTree.readText_of_find h, h]
  dsimp only [Except.mapError, Bind.bind, Except.bind]
  cases readModule (Dialect.ofName (l.getLast?.getD "")) (dropByteOrderMark text.toList) <;> rfl

/-! ## Imports -/

def importCandidates (importer specifier : String) : List String :=
  let withoutScript :=
    if endsWith ".js" specifier then [String.ofList (specifier.toList.dropLast.dropLast.dropLast) ++
      ".ts"]
    else []
  (specifier :: withoutScript ++ importEndings.map (specifier ++ ·)).map (Path.join importer)

theorem resolveImport_eq (files : FileTree) (directory : Location) (importer specifier : String) :
    resolveImport files directory importer specifier =
      (importCandidates importer specifier).find? (files.isFile directory) := rfl

def Item.candidates (importer : String) : Item → List String
  | .importFrom source _ => if beginsWith "." source then importCandidates importer source else []
  | _ => []

section Imports
variable {importer : String}

theorem resolveImport_congr {specifier : String}
    (h : ∀ path ∈ importCandidates importer specifier, files.SameFile files' directory path) :
    resolveImport files' directory importer specifier =
      resolveImport files directory importer specifier := by
  rw [resolveImport_eq, resolveImport_eq]
  generalize importCandidates importer specifier = paths at h
  induction paths with
  | nil => rfl
  | cons path paths ih =>
    rw [List.find?_cons, List.find?_cons, (h path (.head _)).isFile,
      ih fun other hother => h other (.tail _ hother)]

theorem importedDeclarations_congr {item : Item}
    (h : ∀ path ∈ item.candidates importer, files.SameFile files' directory path) :
    importedDeclarations files' directory importer item =
      importedDeclarations files directory importer item := by
  cases item with
  | importFrom source specifiers =>
    dsimp only [Item.candidates] at h
    dsimp only [importedDeclarations]
    by_cases hrelative : beginsWith "." source = true
    · rw [if_pos hrelative] at h
      rw [if_pos hrelative, if_pos hrelative, resolveImport_congr h]
      cases htarget : resolveImport files directory importer source with
      | none => dsimp only
      | some target =>
        rw [resolveImport_eq] at htarget
        have hfile : files.isFile directory target = true := List.find?_some htarget
        have hsame := (h target (List.mem_of_find?_eq_some htarget)).find hfile
        simp only [loadModule_congr hsame]
    · rw [if_neg hrelative, if_neg hrelative]
  | _ => simp only [importedDeclarations]

theorem collect_congr (h : files'.find directory file = files.find directory file)
    (himports : ∀ m, loadModule files directory file = .ok m → ∀ item ∈ m.items,
      ∀ path ∈ item.candidates ((Path.parent? file).getD "."),
        files.SameFile files' directory path) :
    Facts.collect files' directory file = Facts.collect files directory file := by
  unfold Facts.collect
  rw [loadModule_congr h]
  cases hload : loadModule files directory file with
  | error e => simp only [Bind.bind, Except.bind]
  | ok m =>
    have hdeclarations : m.items.flatMap
          (importedDeclarations files' directory ((Path.parent? file).getD ".")) =
        m.items.flatMap (importedDeclarations files directory ((Path.parent? file).getD ".")) :=
      List.flatMap_congr fun item hitem => importedDeclarations_congr (himports m hload item hitem)
    simp only [Bind.bind, Except.bind, hdeclarations]

end Imports

/-! ## Endpoints -/

def exportsFunction (name file text : String) : Bool :=
  (moduleOf name text).any fun m =>
    match findDefaultExport m file with
    | some (.function _, _) => true
    | _ => false

namespace Analyzer

/-- What modules hold for an analyzer that has kept nothing. -/
def holdings (files : FileTree) (directory : Location) (allow : Bool) : Holdings :=
  fun file segments => ((analysis files directory).extract allow file segments {}).1

theorem extracts_moduleBuilder (files : FileTree) (directory : Location) (allow : Bool)
    (x : Exclusion) :
    (moduleBuilder files directory allow x).Extracts (holdings files directory allow) := by
  intro file segments state
  change ((analysis files directory).extract allow file segments state).1 =
    ((analysis files directory).extract allow file segments {}).1
  rw [extract_eq files directory allow file segments state]

variable {allow : Bool} {segments : List String}

/-- A module holds the same where it has the same facts. -/
theorem holdings_congr
    (h : Facts.collect files' directory file = Facts.collect files directory file) :
    holdings files' directory allow file segments =
      holdings files directory allow file segments := by
  have hexported (a : Analyzer) : (analysis files' directory).exportedDefault file a =
      (analysis files directory).exportedDefault file a := by
    simp only [analysis, exportedDefault, h]
  -- An endpoint depends on what is kept of the file only, whatever files there are.
  have htype : (analysis files' directory).typeInfo = (analysis files directory).typeInfo := by
    funext a functionName role resolved
    simp only [Analysis.typeInfo, analysis]
  have hendpoint (a : Analyzer) (f : FunctionRef) :
      (analysis files' directory).endpointOf allow file segments a f =
        (analysis files directory).endpointOf allow file segments a f := by
    simp only [Analysis.endpointOf, Analysis.bodyType, htype]
    simp only [analysis]
  simp only [holdings, Analysis.extract, hexported, hendpoint]

/-- A function that a module exports is its default export when it is read. -/
theorem findDefaultExport_of_exportedDefault {f : FunctionRef} {a : Analyzer}
    (h : (exportedDefault files directory file a).1 = .ok (some (.function f))) :
    ∃ m signature, loadModule files directory file = .ok m ∧
      findDefaultExport m file = some (.function f, signature) := by
  unfold exportedDefault at h
  cases hm : loadModule files directory file with
  | error e =>
    rw [Facts.collect, hm] at h
    cases h
  | ok m =>
    cases hfound : findDefaultExport m file with
    | none =>
      rw [Facts.collect, hm] at h
      simp [Bind.bind, Except.bind, Pure.pure, Except.pure, hfound] at h
    | some found =>
      obtain ⟨found, signature⟩ := found
      rw [collect_eq hm hfound] at h
      obtain rfl := Option.some.inj (Except.ok.inj h)
      exact ⟨m, signature, rfl, hfound⟩

/-- A module whose default export is no function holds no endpoint. -/
theorem holdings_ne_some {l : Location} {text : String}
    (h : files.find directory file = .ok (l, .file (.text text)))
    (hplain : exportsFunction (l.getLast?.getD "") file text = false) (e : Endpoint) :
    holdings files directory allow file segments ≠ .ok (some e) := by
  intro hfound
  obtain ⟨-, -, f, hexported, -⟩ := Analysis.extract_eq_some hfound
  obtain ⟨m, signature, hm, hexport⟩ := findDefaultExport_of_exportedDefault hexported
  rw [loadModule_of_find h] at hm
  unfold exportsFunction at hplain
  split at hm
  · rename_i hread
    obtain rfl := Except.ok.inj hm
    simp [hread, hexport] at hplain
  · cases hm

end Analyzer

end Script

end TypedRoutes
