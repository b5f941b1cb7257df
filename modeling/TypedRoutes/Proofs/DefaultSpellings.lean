import TypedRoutes.Proofs.ReachedDeclarations
import TypedRoutes.Proofs.RereadModules

/-! # Two spellings of a default export

A function is exported where it is declared, or it is declared on its own and exported by its name.
What is known of the export is read off one signature: the first one in the one spelling, in the
other the first with a body, or the first of all where none has one.
-/

namespace TypedRoutes.FileTree

variable {t t' : FileTree} {directory l : Location} {path : String}

/-- Two trees differ in nothing but the text of one file. -/
structure SameButText (t t' : FileTree) (l : Location) (text text' : String) : Prop where
  here : t.node? l = some (.file (.text text))
  there : t'.node? l = some (.file (.text text'))
  others : ∀ k, k ≠ l → t'.node? k = t.node? k

namespace SameButText
variable {text text' : String}

theorem symm (h : SameButText t t' l text text') : SameButText t' t l text' text :=
  ⟨h.there, h.here, fun k hk => (h.others k hk).symm⟩

theorem keeps (h : SameButText t t' l text text') : Keeps t t' where
  directory k hk := by
    by_cases hkl : k = l
    · subst hkl
      rw [h.here] at hk
      cases hk
    · rw [h.others k hkl, hk]
  file k content hk := by
    by_cases hkl : k = l
    · exact ⟨_, hkl ▸ h.there⟩
    · exact ⟨content, by rw [h.others k hkl, hk]⟩

theorem isFile (h : SameButText t t' l text text') :
    t'.isFile directory = t.isFile directory := by
  funext path
  exact Bool.eq_iff_iff.2 ⟨h.symm.keeps.isFile, h.keeps.isFile⟩

end SameButText

end TypedRoutes.FileTree

namespace TypedRoutes.Route

structure FunctionFacts where
  function : FunctionRef
  parameters : List (Option ResolvedType)
  returnArgument : Option ResolvedType
  deriving DecidableEq, Repr

/-- What an analysis answers about the function that a module exports. -/
def Analysis.functionFacts? {σ : Type} (a : Analysis σ) (file : String) (state : σ) :
    Option FunctionFacts :=
  match a.exportedDefault file state with
  | (.ok (some (.function f)), known) => some {
      function := f
      parameters := (List.range f.parameterCount).map fun index => a.parameterType f index known
      returnArgument := a.returnTypeArgument f known }
  | _ => none

end TypedRoutes.Route

namespace TypedRoutes.Script
open TypedRoutes.Text TypedRoutes.Naming TypedRoutes.Route

/-! ## What is read of a signature -/

structure TypeReading where
  text : String
  path : Option (List String)
  deriving DecidableEq, Repr

/-- What a function's declaration says of the arguments it takes and of what it promises. -/
structure SignatureReading where
  parameters : List (Option TypeReading)
  promised : Option TypeReading
  hasBody : Bool
  deriving DecidableEq, Repr

def ParsedModule.typeReading (m : ParsedModule) : TypeNode → TypeReading
  | .reference span path none => ⟨m.textOf span, some path⟩
  | type => ⟨m.textOf type.span, none⟩

def ParsedModule.signatureReading (m : ParsedModule) (s : Signature) : SignatureReading where
  parameters := s.handlerParameters.map fun p => p.annotation.map m.typeReading
  promised := s.promisedType?.map m.typeReading
  hasBody := s.hasBody

/-- The type that a reading stands for in a module that knows declarations of some names. -/
def TypeReading.resolve (file : String) (known : String → Bool) (r : TypeReading) : ResolvedType :=
  match r.path with
  | some path =>
    let name := path.getLast?.getD ""
    if isGlobalType name && !known name then ⟨r.text, none⟩ else ⟨r.text, some ⟨file, name⟩⟩
  | none => ⟨r.text, none⟩

theorem resolveType_eq (m : ParsedModule) (file : String) (declarations : Declarations)
    (type : TypeNode) :
    resolveType m file declarations type =
      (m.typeReading type).resolve file fun name => (declarations.lookup name).isSome := by
  cases type with
  | other span => rfl
  | reference span path arguments =>
    cases arguments with
    | some arguments => rfl
    | none =>
      simp only [resolveType, ParsedModule.typeReading, TypeReading.resolve, TypeNode.span,
        Option.not_isSome]

def SignatureReading.facts (file name : String) (known : String → Bool) (s : SignatureReading) :
    FunctionFacts where
  function := ⟨file, some name, s.parameters.length⟩
  parameters := s.parameters.map (Option.map (TypeReading.resolve file known))
  returnArgument := s.promised.map (TypeReading.resolve file known)

section Facts
variable (files : FileTree) (directory : Location) (file : String) (m : ParsedModule)

/-- Whether a module in a file reaches a declaration of a name. -/
def knows (declared : String) : Bool := (reached? files directory file m declared).isSome

theorem resolveType_reachable :
    resolveType m file (reachable files directory file m) =
      TypeReading.resolve file (knows files directory file m) ∘ m.typeReading := by
  funext type
  rw [resolveType_eq, Function.comp_apply]
  congr 1
  funext declared
  rw [lookup_reachable, knows]

theorem exportFacts_eq (found : DefaultExport) (name : String) (s : Signature) :
    let facts := (m.signatureReading s).facts file name (knows files directory file m)
    (exportFacts files directory file m found (some s)).parameters = facts.parameters ∧
      (exportFacts files directory file m found (some s)).returnArgument =
        facts.returnArgument := by
  simp [exportFacts, SignatureReading.facts, ParsedModule.signatureReading, resolveType_reachable]

variable {files directory file m} {name : String} {s : Signature}

theorem parameterType_keep (a : Analyzer) (f : FunctionRef) (facts : Facts) (index : Nat) :
    Analyzer.parameterType f index (a.keep f.file facts) = facts.parameters[index]?.join := by
  rw [Analyzer.parameterType, Analyzer.factsOf_keep]
  simp only [Option.bind_eq_bind, Option.bind_some]
  cases facts.parameters[index]? <;> rfl

theorem returnTypeArgument_keep (a : Analyzer) (f : FunctionRef) (facts : Facts) :
    Analyzer.returnTypeArgument f (a.keep f.file facts) = facts.returnArgument := by
  rw [Analyzer.returnTypeArgument, Analyzer.factsOf_keep]
  rfl

theorem map_range_join {α : Type} (as : List (Option α)) :
    ((List.range as.length).map fun i => as[i]?.join) = as := by
  refine List.ext_getElem (by simp) fun i hi hi' => ?_
  simp [hi']

/-- What is known of a function that a module exports is read off one signature of it. -/
theorem functionFacts?_eq (hm : loadModule files directory file = .ok m)
    (hfound : findDefaultExport m file =
      some (.function ⟨file, some name, s.handlerParameters.length⟩, some s)) (state : Analyzer) :
    (Analyzer.analysis files directory).functionFacts? file state =
      some ((m.signatureReading s).facts file name (knows files directory file m)) := by
  let f : FunctionRef := ⟨file, some name, s.handlerParameters.length⟩
  let facts := exportFacts files directory file m (.function f) (some s)
  have hread : (Analyzer.analysis files directory).exportedDefault file state =
      (.ok (some (.function f)), state.keep f.file facts) := by
    simp only [Analyzer.analysis, Analyzer.exportedDefault, collect_eq hm hfound]
    rfl
  have hcount : f.parameterCount = facts.parameters.length := by simp [f, facts, exportFacts]
  have hparameters : ((List.range f.parameterCount).map fun index =>
      (Analyzer.analysis files directory).parameterType f index (state.keep f.file facts)) =
        facts.parameters := by
    simp only [Analyzer.analysis, parameterType_keep, hcount, map_range_join]
  have hreturn : (Analyzer.analysis files directory).returnTypeArgument f
      (state.keep f.file facts) = facts.returnArgument := returnTypeArgument_keep state f facts
  obtain ⟨hsame, hsame'⟩ := exportFacts_eq files directory file m (.function f) name s
  rw [Analysis.functionFacts?, hread]
  dsimp only
  rw [hparameters, hreturn, hsame, hsame']
  simp [f, SignatureReading.facts, ParsedModule.signatureReading]

end Facts

/-! ## One module in two spellings -/

def Item.isDefault : Item → Bool
  | .defaultFunction _ _ | .defaultClass | .defaultExpression _ => true
  | .exportNames names => names.contains "default"
  | _ => false

def Item.exportsName (name : String) : Item → Bool
  | .defaultExpression (.identifier exported) => exported == name
  | _ => false

/-- The signature of a function of some name that is exported where it is declared. -/
def Item.inlineSignature? (name : String) : Item → Option Signature
  | .defaultFunction (some declared) s => if declared = name then some s else none
  | _ => none

/-- The signature of a function of some name that is declared on its own. -/
def Item.ownSignature? (name : String) : Item → Option Signature
  | .function declared s => if declared = name then some s else none
  | _ => none

/-- An item says in one module what another one says in another module, where the function of some
name is declared on its own instead of being exported at once. -/
def Item.respells (name : String) (m m' : ParsedModule) : Item → Item → Bool
  | .defaultFunction (some declared) s, .function declared' s' =>
    declared == name && declared' == name && m.signatureReading s == m'.signatureReading s'
  | .function declared s, .function declared' s' =>
    declared == declared' && declared != name && m.signatureReading s == m'.signatureReading s'
  | .defaultFunction declared s, .defaultFunction declared' s' =>
    declared == declared' && declared != some name &&
      m.signatureReading s == m'.signatureReading s'
  | .typeDeclaration declared span, .typeDeclaration declared' span' =>
    declared == declared' && m.textOf span == m'.textOf span'
  | .importFrom source specifiers, .importFrom source' specifiers' =>
    source == source' && specifiers == specifiers'
  | .exportNames names, .exportNames names' => names == names'
  | .defaultExpression shape, .defaultExpression shape' => shape == shape'
  | .defaultClass, .defaultClass => true
  | .other, .other => true
  | _, _ => false

/-- Two modules are the same but for the spelling of the default export, a function of some name.
In the first it is exported by each of its declarations; in the second the declarations stand on
their own, and the export is written somewhere else. -/
structure Respelled (name : String) (m m' : ParsedModule) : Prop where
  items : List.Forall₂ (fun item item' => item.respells name m m' item' = true) m.items
    (m'.items.filter (!·.exportsName name))
  inline : (m.items.find? (·.isDefault)).any
    (fun item => (item.inlineSignature? name).isSome) = true
  separate : (m'.items.find? (·.isDefault)).any (·.exportsName name) = true

instance (name : String) (m m' : ParsedModule) : Decidable (Respelled name m m') :=
  decidable_of_iff (_ ∧ _ ∧ _) ⟨fun ⟨h, hm, hm'⟩ => ⟨h, hm, hm'⟩, fun ⟨h, hm, hm'⟩ => ⟨h, hm, hm'⟩⟩

def ParsedModule.overloads (m : ParsedModule) (name : String) : List SignatureReading :=
  m.items.filterMap fun item => (item.inlineSignature? name).map m.signatureReading

/-- The declaration that counts for a name: the one with a body, or else the first. -/
def preferred? (overloads : List SignatureReading) : Option SignatureReading :=
  (overloads.find? (·.hasBody)).or overloads.head?

theorem localFunction?_eq (m : ParsedModule) (name : String) :
    (m.localFunction? name).map m.signatureReading =
      preferred? (m.items.filterMap fun item =>
        (item.ownSignature? name).map m.signatureReading) := by
  rw [← List.map_filterMap, preferred?, List.find?_map, List.head?_map]
  unfold ParsedModule.localFunction?
  rw [Option.map_or]
  rfl

theorem preferred?_of_first_hasBody {overloads : List SignatureReading} {first : SignatureReading}
    (hfirst : overloads.head? = some first) (hbody : first.hasBody = true) :
    preferred? overloads = some first := by
  obtain ⟨rest, rfl⟩ := List.head?_eq_some_iff.1 hfirst
  rw [preferred?, List.find?_cons_of_pos hbody, Option.some_or]

theorem preferred?_of_no_body {overloads : List SignatureReading}
    (h : ∀ s ∈ overloads, s.hasBody = false) : preferred? overloads = overloads.head? := by
  rw [preferred?, List.find?_eq_none.2 fun s hs => by simp [h s hs], Option.none_or]

theorem preferred?_isSome {overloads : List SignatureReading} {first : SignatureReading}
    (hfirst : overloads.head? = some first) : ∃ chosen, preferred? overloads = some chosen := by
  unfold preferred?
  cases overloads.find? (·.hasBody) with
  | some chosen => exact ⟨chosen, Option.some_or⟩
  | none => exact ⟨first, hfirst⟩

theorem findSome?_of_find? {α β : Type} {p : α → Bool} {f : α → Option β} {as : List α} {a : α}
    {b : β} (ha : as.find? p = some a) (hf : ∀ a, p a = false → f a = none) (hb : f a = some b) :
    as.findSome? f = some b := by
  obtain ⟨-, before, after, rfl, hbefore⟩ := List.find?_eq_some_iff_append.1 ha
  have hnone : before.findSome? f = none :=
    List.findSome?_eq_none_iff.2 fun x hx => hf x (by simpa using hbefore x hx)
  rw [List.findSome?_append, hnone, Option.none_or, List.findSome?_cons, hb]

theorem filterMap_forall₂ {α β γ : Type} {R : α → β → Prop} {as : List α} {bs : List β}
    (h : List.Forall₂ R as bs) {f : α → Option γ} {g : β → Option γ}
    (heq : ∀ a b, R a b → f a = g b) : as.filterMap f = bs.filterMap g := by
  induction h with
  | nil => rfl
  | cons hfirst _ ih => rw [List.filterMap_cons, List.filterMap_cons, heq _ _ hfirst, ih]

namespace Respelled
variable {name : String} {m m' : ParsedModule} {α : Type}

theorem filterMap_eq (h : Respelled name m m') {f g : Item → Option α}
    (hitem : ∀ item item', item.respells name m m' item' = true → f item = g item')
    (hexport : ∀ item : Item, item.exportsName name = true → g item = none) :
    m.items.filterMap f = m'.items.filterMap g := by
  have hkept : (m'.items.filter (!·.exportsName name)).filterMap g = m'.items.filterMap g := by
    rw [List.filterMap_filter]
    refine List.filterMap_congr fun item _ => ?_
    by_cases hname : item.exportsName name = true
    · simp [hname, hexport item hname]
    · simp [hname]
  rw [← hkept]
  exact filterMap_forall₂ h.items hitem

theorem signatures_eq (h : Respelled name m m') :
    (m.items.filterMap fun item => (item.inlineSignature? name).map m.signatureReading) =
      m'.items.filterMap fun item => (item.ownSignature? name).map m'.signatureReading := by
  refine h.filterMap_eq (fun item item' hsame => ?_) fun item hexports => ?_
  · revert hsame
    fun_cases Item.respells name m m' item item' <;>
      simp +contextual [Item.inlineSignature?, Item.ownSignature?]
    -- An item that is exported at once on both sides is of another function.
    rintro rfl hne -
    split <;> simp_all
  · cases item <;> simp_all [Item.exportsName, Item.ownSignature?]

theorem ownDeclarations_eq (h : Respelled name m m') :
    m'.ownDeclarations = m.ownDeclarations := by
  unfold ParsedModule.ownDeclarations
  refine congrArg List.reverse (Eq.symm ?_)
  refine h.filterMap_eq (fun item item' hsame => ?_) fun item hexports => ?_
  · revert hsame
    fun_cases Item.respells name m m' item item' <;>
      simp +contextual
  · cases item <;> simp_all [Item.exportsName]

variable (file : String)

/-- In the first spelling the first declaration is the default export. -/
theorem exists_first (h : Respelled name m m') : ∃ s,
    (m.overloads name).head? = some (m.signatureReading s) ∧
      findDefaultExport m file =
        some (.function ⟨file, some name, s.handlerParameters.length⟩, some s) := by
  obtain ⟨item, hitem, hinline⟩ := (Option.any_eq_true _ _).1 h.inline
  obtain ⟨s, rfl⟩ : ∃ s, item = .defaultFunction (some name) s := by
    obtain ⟨s, hs⟩ := Option.isSome_iff_exists.1 hinline
    unfold Item.inlineSignature? at hs
    split at hs
    next => split at hs <;> simp_all
    next => cases hs
  refine ⟨s, ?_, ?_⟩
  · rw [ParsedModule.overloads, List.head?_filterMap]
    refine findSome?_of_find? hitem (fun item hother => ?_) (by simp [Item.inlineSignature?])
    cases item <;> simp_all [Item.isDefault, Item.inlineSignature?]
  · unfold findDefaultExport
    refine findSome?_of_find? hitem (fun item hother => ?_) rfl
    cases item <;> simp_all [Item.isDefault]

/-- In the second spelling the export is the declaration that the name stands for. -/
theorem findDefaultExport_separate (h : Respelled name m m') {s : Signature}
    (hs : m'.localFunction? name = some s) :
    findDefaultExport m' file =
      some (.function ⟨file, some name, s.handlerParameters.length⟩, some s) := by
  obtain ⟨item, hitem, hexports⟩ := (Option.any_eq_true _ _).1 h.separate
  obtain rfl : item = .defaultExpression (.identifier name) := by
    unfold Item.exportsName at hexports
    split at hexports <;> simp_all
  unfold findDefaultExport
  refine findSome?_of_find? hitem (fun item hother => ?_) (by simp [hs])
  cases item <;> simp_all [Item.isDefault]

theorem exists_preferred (h : Respelled name m m') : ∃ s,
    preferred? (m.overloads name) = some (m'.signatureReading s) ∧
      findDefaultExport m' file =
        some (.function ⟨file, some name, s.handlerParameters.length⟩, some s) := by
  obtain ⟨first, hfirst, -⟩ := h.exists_first file
  obtain ⟨chosen, hchosen⟩ := preferred?_isSome hfirst
  have hlocal := localFunction?_eq m' name
  rw [← h.signatures_eq, ← ParsedModule.overloads, hchosen] at hlocal
  obtain ⟨s, hs, hreading⟩ := Option.map_eq_some_iff.1 hlocal
  exact ⟨s, by rw [hchosen, hreading], h.findDefaultExport_separate file hs⟩

end Respelled

/-! ## Two trees with the two spellings -/

section Trees
variable {files files' : FileTree} {directory l : Location} {file path : String}
  {text text' : String} {m m' : ParsedModule}

/-- A module that is read is the one that some text in its file is. -/
theorem moduleOf_of_loadModule (hm : loadModule files directory path = .ok m) :
    ∃ l text, files.find directory path = .ok (l, .file (.text text)) ∧
      moduleOf (l.getLast?.getD "") text = some m := by
  cases hread : files.readText directory path with
  | error e =>
    unfold loadModule at hm
    rw [hread] at hm
    cases hm
  | ok text =>
    obtain ⟨l, hfind⟩ := FileTree.find_of_readText hread
    rw [loadModule_of_find hfind] at hm
    refine ⟨l, text, hfind, ?_⟩
    split at hm
    next hmodule => rw [hmodule, Except.ok.inj hm]
    next => cases hm

theorem ImportSpecifier.provided?_congr {target target' : ParsedModule}
    (h : target'.ownDeclarations = target.ownDeclarations) (s : ImportSpecifier) (name : String) :
    s.provided? target' name = s.provided? target name := by
  simp only [ImportSpecifier.provided?, ParsedModule.declared?, h]

section SameDeclarations
variable (htrees : files.SameButText files' l text text')
  (hm : moduleOf (l.getLast?.getD "") text = some m)
  (hm' : moduleOf (l.getLast?.getD "") text' = some m')
  (hown : m'.ownDeclarations = m.ownDeclarations)
include htrees hm hm' hown

/-- Where two trees are the same but for one file, and the two texts of that file declare the same
types, every path leads to modules that declare the same types. -/
theorem ownDeclarations_of_sameButText {target : ParsedModule}
    (htarget : loadModule files directory path = .ok target) :
    ∃ target', loadModule files' directory path = .ok target' ∧
      target'.ownDeclarations = target.ownDeclarations := by
  obtain ⟨k, content, hfind, hmodule⟩ := moduleOf_of_loadModule htarget
  obtain ⟨-, -, hnode⟩ := FileTree.find_eq_ok.1 hfind
  -- A path may lead back to the file whose text differs: a module may import itself.
  by_cases hk : k = l
  · subst hk
    have hcontent := htrees.here.symm.trans hnode
    obtain rfl : text = content := by simpa using hcontent
    obtain rfl : m = target := Option.some.inj (hm.symm.trans hmodule)
    refine ⟨m', ?_, hown⟩
    rw [loadModule_of_find (htrees.keeps.find hfind htrees.there), hm']
  · have hnode' : files'.node? k = some (.file (.text content)) := by
      rw [htrees.others k hk, hnode]
    have hfind' := htrees.keeps.find hfind hnode'
    exact ⟨target, by rw [loadModule_congr (hfind'.trans hfind.symm), htarget], rfl⟩

theorem bind_loadModule_of_sameButText {α : Type} {f : ParsedModule → Option α}
    (hf : ∀ target target' : ParsedModule, target'.ownDeclarations = target.ownDeclarations →
      f target' = f target) (path : String) :
    (loadModule files' directory path).toOption.bind f =
      (loadModule files directory path).toOption.bind f := by
  cases htarget : loadModule files directory path with
  | ok target =>
    obtain ⟨target', htarget', howns⟩ := ownDeclarations_of_sameButText htrees hm hm' hown htarget
    rw [htarget']
    exact hf target target' howns
  | error e =>
    cases htarget' : loadModule files' directory path with
    | ok target' =>
      obtain ⟨_, hok, -⟩ := ownDeclarations_of_sameButText htrees.symm hm' hm hown.symm htarget'
      rw [htarget] at hok
      cases hok
    | error e' => rfl

theorem imported?_of_sameButText (importer declared : String) (item : Item) :
    item.imported? files' directory importer declared =
      item.imported? files directory importer declared := by
  cases item with
  | importFrom source specifiers =>
    rw [imported?_importFrom, imported?_importFrom, resolveImport_eq, resolveImport_eq,
      htrees.isFile]
    have hspecifiers (target target' : ParsedModule)
        (h : target'.ownDeclarations = target.ownDeclarations) :
        (specifiers.findSome? fun s => s.provided? target' declared) =
          specifiers.findSome? fun s => s.provided? target declared := by
      simp only [ImportSpecifier.provided?_congr h]
    simp only [bind_loadModule_of_sameButText htrees hm hm' hown hspecifiers]
  | _ => rfl

end SameDeclarations

/-- The two spellings reach the same declarations. -/
theorem Respelled.reached?_eq {name : String} (h : Respelled name m m')
    (htrees : files.SameButText files' l text text')
    (hm : moduleOf (l.getLast?.getD "") text = some m)
    (hm' : moduleOf (l.getLast?.getD "") text' = some m') (declared : String) :
    reached? files' directory file m' declared = reached? files directory file m declared := by
  have hown := h.ownDeclarations_eq
  have himports : m.items.filterMap
        (Item.imported? files directory ((Path.parent? file).getD ".") declared) =
      m'.items.filterMap
        (Item.imported? files' directory ((Path.parent? file).getD ".") declared) := by
    refine h.filterMap_eq (fun item item' hsame => ?_) fun item hexports => ?_
    · rw [imported?_of_sameButText htrees hm hm' hown]
      revert hsame
      fun_cases Item.respells name m m' item item' <;>
        simp +contextual [Item.imported?, importedModule?]
    · cases item <;> simp_all [Item.exportsName, Item.imported?, importedModule?]
  rw [reached?, reached?, findSome?_imports, findSome?_imports, ← List.head?_filterMap,
    ← List.head?_filterMap, himports, ParsedModule.declared?, ParsedModule.declared?, hown]

/-- Where the text of one file spells the default export in the two ways, the answers about it are
those of the first declaration in the one spelling, and of the declaration that is preferred in the
other.  So they agree exactly if these two declarations have the same facts; and they do where the
first declaration has a body, or none has one. -/
theorem default_spellings_agree_iff {name : String}
    (hothers : ∀ k, k ≠ FileTree.locationOf directory file → files'.node? k = files.node? k)
    (hm : loadModule files directory file = .ok m) (hm' : loadModule files' directory file = .ok m')
    (h : Respelled name m m') (state state' : Analyzer) :
    let inline := (Analyzer.analysis files directory).functionFacts? file state
    let separate := (Analyzer.analysis files' directory).functionFacts? file state'
    let factsOf := SignatureReading.facts file name (knows files directory file m)
    ∃ first preferred, (m.overloads name).head? = some first ∧
      preferred? (m.overloads name) = some preferred ∧
      inline = some (factsOf first) ∧ separate = some (factsOf preferred) ∧
      (inline = separate ↔ factsOf first = factsOf preferred) ∧
      (first.hasBody = true ∨ (∀ s ∈ m.overloads name, s.hasBody = false) → inline = separate) := by
  intro inline separate factsOf
  obtain ⟨l, text, hfind, hmodule⟩ := moduleOf_of_loadModule hm
  obtain ⟨l', text', hfind', hmodule'⟩ := moduleOf_of_loadModule hm'
  obtain rfl := FileTree.eq_locationOf_of_find hfind
  obtain rfl := FileTree.eq_locationOf_of_find hfind'
  have htrees : files.SameButText files' _ text text' :=
    ⟨(FileTree.find_eq_ok.1 hfind).2.2, (FileTree.find_eq_ok.1 hfind').2.2, hothers⟩
  have hknows : knows files' directory file m' = knows files directory file m := by
    funext declared
    rw [knows, knows, h.reached?_eq htrees hmodule hmodule']
  obtain ⟨first, hfirst, hexport⟩ := h.exists_first file
  obtain ⟨chosen, hchosen, hexport'⟩ := h.exists_preferred file
  have hinline : inline = some (factsOf (m.signatureReading first)) :=
    functionFacts?_eq hm hexport state
  have hseparate : separate = some (factsOf (m'.signatureReading chosen)) :=
    (functionFacts?_eq hm' hexport' state').trans (by rw [hknows])
  refine ⟨_, _, hfirst, hchosen, hinline, hseparate, ?_, fun hbody => ?_⟩
  · rw [hinline, hseparate, Option.some.injEq]
  · have hsame : preferred? (m.overloads name) = some (m.signatureReading first) := by
      obtain hbody | hbody := hbody
      · exact preferred?_of_first_hasBody hfirst hbody
      · rw [preferred?_of_no_body hbody, hfirst]
    rw [hinline, hseparate, Option.some.inj (hchosen.symm.trans hsame)]

end Trees

/-! ## A handler without and with overloads -/

def oneModule (text : String) : FileTree where
  nodes := [(["get.ts"], .file (.text text))]

theorem oneModule_others (text text' : String) :
    ∀ k, k ≠ FileTree.locationOf [] "get.ts" →
      (oneModule text').node? k = (oneModule text).node? k := by
  intro k hk
  have hfile : (k == ["get.ts"]) = false := beq_false_of_ne hk
  simp [FileTree.node?, oneModule, List.lookup_cons, hfile]

theorem exists_of_bind_toOption {ε α β γ : Type} {x : Except ε α} {y : Except ε β} {f : α → β → γ}
    {c : γ} (h : (x.toOption.bind fun a => y.toOption.map (f a)) = some c) :
    ∃ a b, x = .ok a ∧ y = .ok b ∧ f a b = c := by
  cases x with
  | error e => cases h
  | ok a =>
    cases y with
    | error e => cases h
    | ok b => exact ⟨a, b, rfl, rfl, Option.some.inj h⟩

def plainInline : FileTree :=
  oneModule "interface Item {}\nexport default function get(id: string): Promise<Item> {}"

def plainSeparate : FileTree :=
  oneModule "export default get;\ninterface Item {}\nfunction get(id: string): Promise<Item> {}"

theorem plain_spellings_agree :
    ∃ m m', loadModule plainInline [] "get.ts" = .ok m ∧
      loadModule plainSeparate [] "get.ts" = .ok m' ∧ Respelled "get" m m' ∧
      (Analyzer.analysis plainInline []).functionFacts? "get.ts" {} =
        (Analyzer.analysis plainSeparate []).functionFacts? "get.ts" {} := by
  have hread : ((loadModule plainInline [] "get.ts").toOption.bind fun m =>
      (loadModule plainSeparate [] "get.ts").toOption.map fun m' =>
        (decide (Respelled "get" m m'), (m.overloads "get").map (·.hasBody))) =
      some (true, [true]) := by decide +kernel
  obtain ⟨m, m', hm, hm', hmodules⟩ := exists_of_bind_toOption hread
  obtain ⟨hrespelled, hbody⟩ := Prod.mk.inj hmodules
  have hrespelled := of_decide_eq_true hrespelled
  obtain ⟨first, preferred, hfirst, -, -, -, -, hagree⟩ :=
    default_spellings_agree_iff (oneModule_others _ _) hm hm' hrespelled {} {}
  refine ⟨m, m', hm, hm', hrespelled, hagree (.inl ?_)⟩
  obtain ⟨rest, hoverloads⟩ := List.head?_eq_some_iff.1 hfirst
  rw [hoverloads, List.map_cons] at hbody
  exact (List.cons.inj hbody).1

def overloadedInline : FileTree :=
  oneModule ("export default function get(id: string): Promise<string>;\n" ++
    "export default function get(id: any): Promise<any> {}")

def overloadedSeparate : FileTree :=
  oneModule ("function get(id: string): Promise<string>;\n" ++
    "function get(id: any): Promise<any> {}\nexport default get;")

/-- With an overload before the implementation the two spellings differ. -/
theorem overloaded_spellings_differ :
    (∃ m m', loadModule overloadedInline [] "get.ts" = .ok m ∧
      loadModule overloadedSeparate [] "get.ts" = .ok m' ∧ Respelled "get" m m') ∧
      (Analyzer.analysis overloadedInline []).functionFacts? "get.ts" {} =
        some ⟨⟨"get.ts", some "get", 1⟩, [some ⟨"string", none⟩], some ⟨"string", none⟩⟩ ∧
      (Analyzer.analysis overloadedSeparate []).functionFacts? "get.ts" {} =
        some ⟨⟨"get.ts", some "get", 1⟩, [some ⟨"any", none⟩], some ⟨"any", none⟩⟩ := by
  have hread : ((loadModule overloadedInline [] "get.ts").toOption.bind fun m =>
      (loadModule overloadedSeparate [] "get.ts").toOption.map fun m' =>
        decide (Respelled "get" m m')) = some true := by decide +kernel
  obtain ⟨m, m', hm, hm', hrespelled⟩ := exists_of_bind_toOption hread
  exact ⟨⟨m, m', hm, hm', of_decide_eq_true hrespelled⟩, by decide +kernel, by decide +kernel⟩

end TypedRoutes.Script
