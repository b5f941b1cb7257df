import TypedRoutes.Proofs.ListTables
import TypedRoutes.Proofs.QualifiedReferences

/-! # The declaration that a name reaches

Under a name a module reaches the last of its own declarations.  Where it has none of that name, the
first import that provides one counts, and in it the first specifier.  Imports only ever add names
that are still free, so it does not matter in which order the declarations of a module are gone
through when it is imported.
-/

namespace TypedRoutes.Script
open TypedRoutes.Text TypedRoutes.Naming TypedRoutes.Route

/-! ## The last declaration of a module -/

def Item.declared? (m : ParsedModule) (name : String) : Item → Option String
  | .typeDeclaration declared span => if declared = name then some (m.textOf span) else none
  | _ => none

theorem lookup_filterMap {α : Type} (f : α → Option (String × String)) (as : List α)
    (name : String) :
    (as.filterMap f).lookup name =
      as.findSome? fun a => (f a).bind fun (declared, text) =>
        if declared = name then some text else none := by
  induction as with
  | nil => rfl
  | cons a as ih =>
    cases hf : f a with
    | none =>
      rw [List.filterMap_cons_none hf, List.findSome?_cons, hf, ih]
      rfl
    | some entry =>
      rw [List.filterMap_cons_some hf, lookup_cons_ite, List.findSome?_cons, hf, ih,
        Option.bind_some]
      by_cases h : entry.1 = name <;> simp only [h, if_true, if_false]

/-- Of several declarations of a name in a module the last counts. -/
theorem ParsedModule.declared?_eq_last (m : ParsedModule) (name : String) :
    m.declared? name = m.items.reverse.findSome? (Item.declared? m name) := by
  rw [ParsedModule.declared?, ParsedModule.ownDeclarations, ← List.filterMap_reverse,
    lookup_filterMap]
  congr 1
  funext item
  cases item <;> rfl

/-! ## The first import -/

section Imports
variable (files : FileTree) (directory : Location)

/-- What an item imports under a name: what the first of its specifiers provides that provides
anything. -/
def Item.imported? (importer name : String) (item : Item) : Option String :=
  (importedModule? files directory importer item).bind fun (target, specifiers) =>
    specifiers.findSome? fun s => s.provided? target name

variable {files directory} {file : String} {m : ParsedModule}

theorem imported?_importFrom (importer name source : String) (specifiers : List ImportSpecifier) :
    Item.imported? files directory importer name (.importFrom source specifiers) =
      if beginsWith "." source then
        (resolveImport files directory importer source).bind fun path =>
          (loadModule files directory path).toOption.bind fun target =>
            specifiers.findSome? fun s => s.provided? target name
      else none := by
  unfold Item.imported? importedModule?
  dsimp only [Option.bind_eq_bind, Option.pure_def]
  split
  next =>
    simp only [Option.bind_assoc, Option.bind_some]
  next => rfl

theorem findSome?_imports (file : String) (m : ParsedModule) (name : String) :
    ((imports files directory file m).findSome? fun (target, s) => s.provided? target name) =
      m.items.findSome? (Item.imported? files directory ((Path.parent? file).getD ".") name) := by
  unfold imports
  induction m.items with
  | nil => rfl
  | cons item items ih =>
    rw [List.findSome?_cons, List.filterMap_cons, ← ih]
    cases h : importedModule? files directory ((Path.parent? file).getD ".") item with
    | none => simp only [Item.imported?, h, Option.bind_none]
    | some found =>
      have hitem : Item.imported? files directory ((Path.parent? file).getD ".") name item =
          (found.2.map (found.1, ·)).findSome? fun (target, s) => s.provided? target name := by
        rw [Item.imported?, h, Option.bind_some, List.findSome?_map]
        rfl
      rw [List.flatMap_cons, List.findSome?_append, hitem]
      generalize (found.2.map (found.1, ·)).findSome? _ = provided
      cases provided <;> rfl

/-- What a module reaches is known once the module is read, whatever it exports. -/
theorem declarationText_exportedDefault (hm : loadModule files directory file = .ok m)
    (name : String) (state : Analyzer) :
    let a := Analyzer.analysis files directory
    a.declarationText ⟨file, name⟩ (a.exportedDefault file state).2 =
      reached? files directory file m name := by
  obtain ⟨facts, hfacts, hreachable⟩ : ∃ facts, Facts.collect files directory file = .ok facts ∧
      facts.declarations = reachable files directory file m := by
    cases hfound : findDefaultExport m file with
    | none =>
      rw [Facts.collect, hm]
      simp only [bind, Except.bind, hfound]
      exact ⟨_, rfl, rfl⟩
    | some found => exact ⟨_, collect_eq hm hfound, rfl⟩
  simp [Analyzer.analysis, Analyzer.exportedDefault, hfacts, Analyzer.declarationText,
    Analyzer.factsOf_keep, hreachable, lookup_reachable]

end Imports

/-! ## Declarations in any order -/

namespace Declarations

def addNew (table : Declarations) (entry : String × String) : Declarations :=
  if (table.lookup entry.1).isSome then table else entry :: table

theorem lookup_addNew (table : Declarations) (entry : String × String) (name : String) :
    (addNew table entry).lookup name =
      (table.lookup name).or (if entry.1 = name then some entry.2 else none) := by
  unfold addNew
  split
  next htaken =>
    by_cases h : entry.1 = name
    · rw [← h, Option.or_of_isSome htaken]
    · simp [h]
  next hfree =>
    rw [lookup_cons_ite]
    by_cases h : entry.1 = name
    · simp [← h, Option.not_isSome_iff_eq_none.1 hfree]
    · simp [h]

theorem lookup_foldl_addNew (table entries : Declarations) (name : String) :
    (entries.foldl addNew table).lookup name = (table.lookup name).or (entries.lookup name) := by
  induction entries generalizing table with
  | nil => simp
  | cons entry entries ih =>
    rw [List.foldl_cons, ih, lookup_addNew, lookup_cons_ite, Option.or_assoc]
    by_cases h : entry.1 = name <;> simp [h]

theorem nodup_addNew {table : Declarations} (h : (table.map Prod.fst).Nodup)
    (entry : String × String) : ((addNew table entry).map Prod.fst).Nodup := by
  unfold addNew
  split
  next => exact h
  next hfree =>
    rw [List.map_cons, List.nodup_cons]
    refine ⟨fun hmem => hfree ?_, h⟩
    obtain ⟨other, hother, hname⟩ := List.mem_map.1 hmem
    exact List.lookup_isSome_iff.2 ⟨other, hother, by simp [hname]⟩

theorem nodup_foldl_addNew {table : Declarations} (h : (table.map Prod.fst).Nodup)
    (entries : Declarations) : ((entries.foldl addNew table).map Prod.fst).Nodup := by
  induction entries generalizing table with
  | nil => exact h
  | cons entry entries ih => exact ih (nodup_addNew h entry)

end Declarations

/-- The declarations of a module in some order: every name that it declares once, with the text that
counts. -/
structure Enumeration (target : ParsedModule) where
  entries : Declarations
  nodup : (entries.map Prod.fst).Nodup
  mem_iff : ∀ name text, (name, text) ∈ entries ↔ target.declared? name = some text

namespace Enumeration
variable {target : ParsedModule}

theorem lookup_entries (e : Enumeration target) (name : String) :
    e.entries.lookup name = target.declared? name :=
  Option.ext fun text => (lookup_eq_some_iff_mem e.nodup).trans (e.mem_iff name text)

/-- Every module has its declarations in some order. -/
def standard (target : ParsedModule) : Enumeration target where
  entries := target.ownDeclarations.foldl Declarations.addNew []
  nodup := Declarations.nodup_foldl_addNew (by simp) _
  mem_iff name text := by
    rw [← lookup_eq_some_iff_mem (Declarations.nodup_foldl_addNew (by simp) _),
      Declarations.lookup_foldl_addNew]
    rfl

/-- Any other order of the same declarations will do. -/
def reorder (e : Enumeration target) {entries : Declarations} (h : entries.Perm e.entries) :
    Enumeration target where
  entries := entries
  nodup := (h.map Prod.fst).nodup_iff.2 e.nodup
  mem_iff name text := h.mem_iff.trans (e.mem_iff name text)

end Enumeration

/-- An import specifier with the module that it imports from and an order in which the declarations
of that module are gone through. -/
structure Walk where
  target : ParsedModule
  specifier : ImportSpecifier
  order : Enumeration target

namespace Walk

def declarations (w : Walk) : Declarations := specifierDeclarations w.order.entries w.specifier

def table (m : ParsedModule) (walks : List Walk) : Declarations :=
  (walks.flatMap declarations).foldl Declarations.addNew m.ownDeclarations

theorem lookup_table (m : ParsedModule) (walks : List Walk) (name : String) :
    (table m walks).lookup name =
      (m.declared? name).or (walks.findSome? fun w => w.specifier.provided? w.target name) := by
  have hwalk (w : Walk) : w.declarations.lookup name = w.specifier.provided? w.target name :=
    lookup_specifierDeclarations_of w.order.lookup_entries w.specifier name
  rw [table, Declarations.lookup_foldl_addNew, lookup_flatMap]
  simp only [hwalk]
  rfl

/-- The walk for an import that takes the declarations in the reverse of the standard order. -/
def backwards (found : ParsedModule × ImportSpecifier) : Walk :=
  ⟨found.1, found.2, (Enumeration.standard found.1).reorder (List.reverse_perm _)⟩

theorem map_backwards (found : List (ParsedModule × ImportSpecifier)) :
    (found.map backwards).map (fun w => (w.target, w.specifier)) = found := by
  rw [List.map_map]
  exact List.map_id found

end Walk

/-! ## The text that is found -/

section
variable {files : FileTree} {directory : Location} {file : String} {m : ParsedModule}

/-- The text found under a name is that of the last item of the module that declares it, or else
what the first item provides that imports it.  Every module that is imported gives its own last
declaration, and the orders in which the imported declarations are gone through do not matter. -/
theorem declarationText_last_own_or_first_imported (hm : loadModule files directory file = .ok m)
    (name : String) (state : Analyzer) :
    let a := Analyzer.analysis files directory
    let found := a.declarationText ⟨file, name⟩ (a.exportedDefault file state).2
    found = (m.items.reverse.findSome? (Item.declared? m name)).or
        (m.items.findSome? (Item.imported? files directory ((Path.parent? file).getD ".") name)) ∧
      (∀ (target : ParsedModule) (declared : String), target.declared? declared =
        target.items.reverse.findSome? (Item.declared? target declared)) ∧
      ∀ walks : List Walk,
        walks.map (fun w => (w.target, w.specifier)) = imports files directory file m →
        (Walk.table m walks).lookup name = found := by
  intro a found
  have hfound : found = reached? files directory file m name :=
    declarationText_exportedDefault hm name state
  refine ⟨?_, ParsedModule.declared?_eq_last, fun walks hwalks => ?_⟩
  · rw [hfound, reached?, findSome?_imports, ParsedModule.declared?_eq_last]
  · rw [hfound, reached?, Walk.lookup_table, ← hwalks, List.findSome?_map]
    rfl

end

/-- A module that declares a type twice, one of a name that is imported too, and imports of all
kinds: an alias, a module that does not exist, and all types of a module. -/
def overlappingNames : FileTree where
  nodes :=
    [(["models.ts"], .file (.text ("export interface Item { id: string }\n" ++
       "export interface Item { count: number }\nexport enum Color { Red }"))),
     (["shop.ts"], .file (.text ("import { Item as Entry } from './models.js';\n" ++
       "import * as none from './none';\nimport * as models from './models';\n" ++
       "interface Color { red: string }\ninterface Color { green: string }\n" ++
       "export default function shop() {}")))]

theorem overlappingNames_found :
    ∃ m, loadModule overlappingNames [] "shop.ts" = .ok m ∧
      let a := Analyzer.analysis overlappingNames []
      let known := (a.exportedDefault "shop.ts" {}).2
      let walks := (imports overlappingNames [] "shop.ts" m).map Walk.backwards
      a.declarationText ⟨"shop.ts", "Color"⟩ known = some "interface Color { green: string }" ∧
      a.declarationText ⟨"shop.ts", "Entry"⟩ known =
        some "export interface Entry { count: number }" ∧
      a.declarationText ⟨"shop.ts", "Item"⟩ known =
        some "export interface Item { count: number }" ∧
      (Walk.table m walks).lookup "Item" = some "export interface Item { count: number }" := by
  have hnames : (loadModule overlappingNames [] "shop.ts").toOption.map (fun m =>
      ["Color", "Entry", "Item"].map fun name =>
        (m.items.reverse.findSome? (Item.declared? m name)).or
          (m.items.findSome? (Item.imported? overlappingNames []
            ((Path.parent? "shop.ts").getD ".") name))) =
      some [some "interface Color { green: string }",
        some "export interface Entry { count: number }",
        some "export interface Item { count: number }"] := by decide +kernel
  cases hm : loadModule overlappingNames [] "shop.ts" with
  | error e =>
    rw [hm] at hnames
    cases hnames
  | ok m =>
    rw [hm] at hnames
    simp only [Except.toOption, Option.map_some, List.map_cons, List.map_nil, Option.some.injEq,
      List.cons.injEq, and_true] at hnames
    obtain ⟨hcolor, hentry, hitem⟩ := hnames
    have hfound (name : String) := declarationText_last_own_or_first_imported hm name {}
    have hitem := (hfound "Item").1.trans hitem
    refine ⟨m, rfl, (hfound _).1.trans hcolor, (hfound _).1.trans hentry, hitem, ?_⟩
    exact ((hfound "Item").2.2 _ (Walk.map_backwards _)).trans hitem

/-- A module whose handler refers to an interface that the module declares as its default export,
beside the handler. -/
def defaultInterface : FileTree where
  nodes :=
    [(["load.ts"], .file (.text ("export default async function load(body: Query) {}\n" ++
       "export default interface Query { id: string }")))]

/-- The module declares the interface, but there is no declaration to be found under its name. -/
theorem defaultInterface_unreached :
    let a := Analyzer.analysis defaultInterface []
    let known := (a.exportedDefault "load.ts" {}).2
    (a.exportedDefault "load.ts" {}).1.toOption =
        some (some (.function ⟨"load.ts", some "load", 1⟩)) ∧
      a.parameterType ⟨"load.ts", some "load", 1⟩ 0 known =
        some ⟨"Query", some ⟨"load.ts", "Query"⟩⟩ ∧
      a.declarationText ⟨"load.ts", "Query"⟩ known = none := by
  decide +kernel

end TypedRoutes.Script
