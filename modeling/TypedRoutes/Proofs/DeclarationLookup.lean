import TypedRoutes.Script.Facts

/-! # Where the declaration of a name comes from

A module reaches what it declares itself and what its imports provide.  Under each name its own
declaration counts before all imports, and of these the first that provides the name.
-/

namespace TypedRoutes.Script
open TypedRoutes.Text TypedRoutes.Naming

def ParsedModule.declared? (m : ParsedModule) (name : String) : Option String :=
  m.ownDeclarations.lookup name

/-- What an import specifier provides under a name, from the module it imports. -/
def ImportSpecifier.provided? (target : ParsedModule) (name : String) :
    ImportSpecifier → Option String
  | .named imported localName =>
    if localName = name then
      (target.declared? imported).map (renameDeclaredType · imported localName)
    else none
  | .whole _ => target.declared? name
  | .default _ => none

theorem lookup_cons_ite (declared text name : String) (entries : Declarations) :
    List.lookup name ((declared, text) :: entries) =
      if declared = name then some text else entries.lookup name := by
  rw [List.lookup_cons]
  by_cases h : declared = name
  · simp [h]
  · have hb : (name == declared) = false := beq_false_of_ne (Ne.symm h)
    simp [h, hb]

/-- A specifier takes from the declarations of a module only what they say under each name. -/
theorem lookup_specifierDeclarations_of {entries : Declarations} {target : ParsedModule}
    (h : ∀ declared, entries.lookup declared = target.declared? declared) (s : ImportSpecifier)
    (name : String) :
    (specifierDeclarations entries s).lookup name = s.provided? target name := by
  cases s with
  | named imported localName =>
    rw [specifierDeclarations, ImportSpecifier.provided?, h]
    cases target.declared? imported with
    | none => simp
    | some text => rw [lookup_cons_ite, List.lookup_nil, Option.map_some]
  | whole localName => exact h name
  | default localName => rfl

theorem lookup_specifierDeclarations (target : ParsedModule) (s : ImportSpecifier)
    (name : String) :
    (specifierDeclarations target.ownDeclarations s).lookup name = s.provided? target name :=
  lookup_specifierDeclarations_of (fun _ => rfl) s name

theorem lookup_flatMap {α : Type} (f : α → Declarations) (as : List α) (name : String) :
    (as.flatMap f).lookup name = as.findSome? fun a => (f a).lookup name := by
  induction as with
  | nil => rfl
  | cons a as ih =>
    rw [List.flatMap_cons, List.lookup_append, ih, List.findSome?_cons]
    cases (f a).lookup name <;> rfl

section
variable (files : FileTree) (directory : Location)

def importedModule? (importer : String) : Item → Option (ParsedModule × List ImportSpecifier)
  | .importFrom source specifiers =>
    if beginsWith "." source then do
      let target ← resolveImport files directory importer source
      let m ← (loadModule files directory target).toOption
      return (m, specifiers)
    else none
  | _ => none

def imports (file : String) (m : ParsedModule) : List (ParsedModule × ImportSpecifier) :=
  (m.items.filterMap (importedModule? files directory ((Path.parent? file).getD "."))).flatMap
    fun (target, specifiers) => specifiers.map (target, ·)

/-- The declaration that a module in a file reaches under a name: its own, or else that of the
first import that provides one. -/
def reached? (file : String) (m : ParsedModule) (name : String) : Option String :=
  (m.declared? name).or
    ((imports files directory file m).findSome? fun (target, s) => s.provided? target name)

/-- A name stands for a whole module that a module in a file imports. -/
def StandsFor (file : String) (m : ParsedModule) (name : String) (target : ParsedModule) : Prop :=
  (target, .whole name) ∈ imports files directory file m

def reachable (file : String) (m : ParsedModule) : Declarations :=
  m.ownDeclarations ++
    m.items.flatMap (importedDeclarations files directory ((Path.parent? file).getD "."))

def exportFacts (file : String) (m : ParsedModule) (found : Route.DefaultExport)
    (signature : Option Signature) : Facts where
  defaultExport := some found
  parameters := (signature.map fun s => s.handlerParameters.map fun p =>
    p.annotation.map (resolveType m file (reachable files directory file m))).getD []
  returnArgument := (signature.bind (·.promisedType?)).map
    (resolveType m file (reachable files directory file m))
  declarations := reachable files directory file m

variable {files directory}

theorem importedDeclarations_eq (importer : String) (item : Item) :
    importedDeclarations files directory importer item =
      ((importedModule? files directory importer item).map fun (target, specifiers) =>
        specifiers.flatMap (specifierDeclarations target.ownDeclarations)).getD [] := by
  cases item with
  | importFrom source specifiers =>
    simp only [importedDeclarations, importedModule?]
    by_cases h : beginsWith "." source = true
    · simp only [h, if_true]
      cases resolveImport files directory importer source with
      | none => rfl
      | some target =>
        cases hm : loadModule files directory target <;> simp [hm, Except.toOption]
    · simp [h]
  | _ => rfl

theorem lookup_importedDeclarations (file : String) (m : ParsedModule) (name : String) :
    (m.items.flatMap (importedDeclarations files directory ((Path.parent? file).getD "."))).lookup
        name =
      (imports files directory file m).findSome? fun (target, s) => s.provided? target name := by
  unfold imports
  induction m.items with
  | nil => rfl
  | cons item items ih =>
    rw [List.flatMap_cons, List.lookup_append, ih, importedDeclarations_eq, List.filterMap_cons]
    cases importedModule? files directory ((Path.parent? file).getD ".") item with
    | none => rfl
    | some p =>
      obtain ⟨target, specifiers⟩ := p
      rw [List.flatMap_cons, List.findSome?_append, List.findSome?_map]
      simp only [Option.map_some, Option.getD_some, lookup_flatMap, lookup_specifierDeclarations]
      rfl

/-! ## The facts of a module -/

theorem lookup_reachable (file : String) (m : ParsedModule) (name : String) :
    (reachable files directory file m).lookup name = reached? files directory file m name := by
  rw [reachable, List.lookup_append, lookup_importedDeclarations]
  rfl

theorem collect_eq {file : String} {m : ParsedModule} {found : Route.DefaultExport}
    {signature : Option Signature} (hm : loadModule files directory file = .ok m)
    (hfound : findDefaultExport m file = some (found, signature)) :
    Facts.collect files directory file =
      .ok (exportFacts files directory file m found signature) := by
  rw [Facts.collect, hm]
  simp only [bind, Except.bind, hfound]
  rfl

end

end TypedRoutes.Script
