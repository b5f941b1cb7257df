import TypedRoutes.Proofs.GeneratedFragments
import TypedRoutes.Proofs.PlacedTrees

/-! # The outline of a client

What is written for a tree is a row of items: methods, and the openings and closings of scopes.
The walk that renders a client fails only for a directory without a name; otherwise both of its
writers hold exactly the texts of the items.
-/

namespace TypedRoutes.Render
open TypedRoutes.Text TypedRoutes.Naming TypedRoutes.Route TypedRoutes.Template

structure Declared where
  info : TypeInfo
  name : String
  deriving DecidableEq, Repr

namespace Declared

def declaration (d : Declared) : String :=
  exportedDeclaration (renameDeclaredType d.info.declaration d.info.name d.name)

def reference (d : Declared) (namespaces : List String) : String :=
  join "." (typesNamespace :: namespaces ++ [d.name])

theorem reference_ne_empty (d : Declared) (namespaces : List String) :
    d.reference namespaces ≠ "" := by
  intro h
  have hl := congrArg String.toList h
  cases namespaces <;> simp [reference, join, typesNamespace] at hl

end Declared

structure Method where
  endpoint : Endpoint
  /-- The namespaces that are open around the types and the method. -/
  namespaces : List String
  member : String
  body : Option Declared
  returns : Declared
  deriving DecidableEq, Repr

inductive Item where
  | opening (namespaces : List String) (identifier : String)
  | method (m : Method)
  | closing (namespaces : List String)
  deriving DecidableEq, Repr

namespace Item

/-- What an item puts among the types, with the depth it stands at. -/
def typeTexts : Item → List (Nat × String)
  | opening namespaces identifier =>
    [(namespaces.length + 1, "export namespace " ++ identifier ++ " \x7b")]
  | method m =>
    (m.body.toList ++ [m.returns]).map fun d => (m.namespaces.length + 1, d.declaration)
  | closing namespaces => [(namespaces.length + 1, "\x7d")]

/-- What an item puts among the methods, with the depth it stands at. -/
def functionText (options : Options) : Item → Nat × String
  | opening namespaces identifier =>
    (namespaces.length, identifier ++ if namespaces.length = 0 then " = \x7b" else ": \x7b")
  | method m =>
    (m.namespaces.length, methodText options m.endpoint m.member m.namespaces.length
      (m.body.map (·.reference m.namespaces)) (m.returns.reference m.namespaces))
  | closing namespaces =>
    (namespaces.length, if namespaces.length = 0 then "\x7d;" else "\x7d,")

def method? : Item → Option Method
  | method m => some m
  | _ => none

end Item

/-! ## Outlining -/

def declare (types : Registry) (info : TypeInfo) : Declared × Registry :=
  let (name, types) := types.claim info.name
  (⟨info, name⟩, types)

def endpointMethod (namespaces : List String) (member : String) (types : Registry)
    (e : Endpoint) : Method × Registry :=
  let (body, types) :=
    match e.body with
    | some info =>
      let (d, types) := declare types info
      (some d, types)
    | none => (none, types)
  let (returns, types) := declare types e.returns
  ({ endpoint := e, namespaces, member, body, returns }, types)

def endpointItems (namespaces : List String) :
    List Endpoint → Registry → Registry → List Item × Registry × Registry
  | [], members, types => ([], members, types)
  | e :: es, members, types =>
    let (member, members) := members.claim e.functionName
    let (m, types) := endpointMethod namespaces member types e
    let (items, members, types) := endpointItems namespaces es members types
    (.method m :: items, members, types)

mutual

def nodeItems (namespaces : List String) (types : Registry) : Tree → List Item × Registry
  | .node _ children endpoints =>
    let (own, members, types) :=
      endpointItems namespaces endpoints (scopeMembers namespaces.length) types
    let (below, types) := childItems namespaces members types children
    (own ++ below, types)

def childItems (namespaces : List String) (members types : Registry) :
    List Tree → List Item × Registry
  | [] => ([], types)
  | child :: rest =>
    if child.isEmpty then childItems namespaces members types rest
    else
      let (identifier, members) := members.claim (toIdentifier (child.name.getD ""))
      let (inside, types) := nodeItems (namespaces ++ [identifier]) types child
      let (after, types) := childItems namespaces members types rest
      (.opening namespaces identifier :: inside ++ .closing namespaces :: after, types)

end

def outline (tree : Tree) : List Item := (nodeItems [] .empty tree).1

end TypedRoutes.Render

/-! ## What the walk writes -/

namespace TypedRoutes.Route.Tree

mutual

/-- Every directory below the tree that holds an endpoint has a name. -/
def belowNamed : Tree → Bool
  | node _ children _ => allNamed children

def allNamed : List Tree → Bool
  | [] => true
  | t :: ts => (t.isEmpty || t.name.isSome && t.belowNamed) && allNamed ts

end

end TypedRoutes.Route.Tree

namespace TypedRoutes.Render
open TypedRoutes.Text TypedRoutes.Naming TypedRoutes.Route TypedRoutes.Template

namespace Parts

def extend (options : Options) (parts : Parts) (items : List Item) (registry : Registry) :
    Parts where
  types := parts.types.writeAll (items.flatMap Item.typeTexts)
  functions := parts.functions.writeAll (items.map (Item.functionText options))
  registry

variable {options : Options}

@[simp] theorem registry_extend (parts : Parts) (items : List Item) (registry : Registry) :
    (parts.extend options items registry).registry = registry := rfl

@[simp] theorem extend_extend (parts : Parts) (items more : List Item)
    (registry registry' : Registry) :
    (parts.extend options items registry).extend options more registry' =
      parts.extend options (items ++ more) registry' := by
  simp [extend, CodeWriter.writeAll_append]

@[simp] theorem extend_nil (parts : Parts) : parts.extend options [] parts.registry = parts := rfl

end Parts

theorem declareType_eq (info : TypeInfo) (namespaces : List String) (parts : Parts) :
    declareType info namespaces parts =
      ((declare parts.registry info).1.reference namespaces,
        { parts with
          registry := (declare parts.registry info).2
          types := parts.types.write (namespaces.length + 1)
            (declare parts.registry info).1.declaration }) := rfl

theorem renderEndpoint_eq (options : Options) (namespaces : List String) (e : Endpoint)
    (member : String) (parts : Parts) :
    renderEndpoint options namespaces e member parts =
      .ok (parts.extend options [.method (endpointMethod namespaces member parts.registry e).1]
        (endpointMethod namespaces member parts.registry e).2) := by
  have hmethod : ∀ (body : Option Declared) (returns : Declared),
      renderFragment methodFragment (methodBindings options e member namespaces.length
        (body.map (·.reference namespaces)) (returns.reference namespaces)) =
        .ok (methodText options e member namespaces.length (body.map (·.reference namespaces))
          (returns.reference namespaces)) := by
    intro body returns
    refine renderFragment_method options e member namespaces.length ?_ _
    cases body with
    | none => simp
    | some d => simpa using d.reference_ne_empty namespaces
  obtain ⟨segments, functionName, source, body, returns⟩ := e
  cases body with
  | none =>
    have hm := hmethod none (declare parts.registry returns).1
    rw [Option.map_none] at hm
    simp only [renderEndpoint, declareType_eq, hm]
    rfl
  | some info =>
    have hm := hmethod (some (declare parts.registry info).1)
      (declare (declare parts.registry info).2 returns).1
    rw [Option.map_some] at hm
    simp only [renderEndpoint, declareType_eq, hm]
    rfl

theorem renderEndpoints_eq (options : Options) (namespaces : List String) (es : List Endpoint)
    (members : Registry) (parts : Parts) :
    renderEndpoints options namespaces es members parts =
      .ok ((endpointItems namespaces es members parts.registry).2.1,
        parts.extend options (endpointItems namespaces es members parts.registry).1
          (endpointItems namespaces es members parts.registry).2.2) := by
  induction es generalizing members parts with
  | nil => rfl
  | cons e es ih =>
    simp only [renderEndpoints, renderEndpoint_eq, bind, Except.bind, ih, Parts.registry_extend,
      Parts.extend_extend]
    rfl

theorem openScope_eq (options : Options) (namespaces : List String) (identifier : String)
    (parts : Parts) : openScope namespaces.length identifier parts =
      parts.extend options [.opening namespaces identifier] parts.registry := rfl

theorem closeScope_eq (options : Options) (namespaces : List String) (parts : Parts) :
    closeScope namespaces.length parts =
      parts.extend options [.closing namespaces] parts.registry := rfl

def unnamedFault : Fault := .codeGeneration "only the root of a route tree may be unnamed"

mutual

theorem renderNode_eq (options : Options) (namespaces : List String) (parts : Parts) :
    ∀ tree : Tree, renderNode options namespaces parts tree =
      if tree.belowNamed then
        .ok (parts.extend options (nodeItems namespaces parts.registry tree).1
          (nodeItems namespaces parts.registry tree).2)
      else .error unnamedFault
  | .node name children endpoints => by
    simp only [renderNode, renderEndpoints_eq, bind, Except.bind, renderChildren_eq, nodeItems,
      Tree.belowNamed, Parts.registry_extend, Parts.extend_extend]
    rfl

theorem renderChildren_eq (options : Options) (namespaces : List String) (members : Registry)
    (parts : Parts) : ∀ trees : List Tree,
      renderChildren options namespaces members parts trees =
        if Tree.allNamed trees then
          .ok (parts.extend options (childItems namespaces members parts.registry trees).1
            (childItems namespaces members parts.registry trees).2)
        else .error unnamedFault
  | [] => rfl
  | child :: rest => by
    unfold renderChildren childItems Tree.allNamed
    by_cases hempty : child.isEmpty
    · simp only [hempty, if_true, Bool.true_or, Bool.true_and]
      exact renderChildren_eq options namespaces members parts rest
    · rw [Bool.not_eq_true] at hempty
      cases hname : child.name with
      | none => simp [hempty, unnamedFault]
      | some n =>
        simp only [hempty, Bool.false_eq_true, if_false, Bool.false_or, Option.isSome_some,
          Bool.true_and, Option.getD_some, openScope_eq options, closeScope_eq options,
          renderNode_eq options, bind, Except.bind, Parts.registry_extend]
        cases hbelow : child.belowNamed with
        | false => rfl
        | true =>
          simp only [if_true, Bool.true_and, Parts.registry_extend, Parts.extend_extend,
            renderChildren_eq options, List.cons_append, List.nil_append, List.append_assoc]

end

end TypedRoutes.Render

/-! ## Whole trees -/

namespace TypedRoutes.Route.Tree

theorem isEmpty_iff (t : Tree) : t.isEmpty = true ↔ t.endpointsInOrder = [] := by
  simp [isEmpty]

theorem isEmpty_node (name : Option String) (children : List Tree) (endpoints : List Endpoint) :
    (node name children endpoints).isEmpty = true ↔
      endpoints = [] ∧ ∀ t ∈ children, t.isEmpty = true := by
  simp [isEmpty_iff]

theorem allNamed_of_isEmpty {ts : List Tree} (h : ∀ t ∈ ts, t.isEmpty = true) :
    allNamed ts = true := by
  induction ts with
  | nil => rfl
  | cons t ts ih =>
    simp only [List.mem_cons, forall_eq_or_imp] at h
    simp [allNamed, h.1, ih h.2]

theorem belowNamed_of_isEmpty {t : Tree} (h : t.isEmpty = true) : t.belowNamed = true := by
  obtain ⟨name, children, endpoints⟩ := t
  exact allNamed_of_isEmpty ((isEmpty_node _ _ _).1 h).2

end TypedRoutes.Route.Tree

namespace TypedRoutes.Render
open TypedRoutes.Text TypedRoutes.Naming TypedRoutes.Route TypedRoutes.Template

theorem childItems_of_isEmpty (namespaces : List String) (members types : Registry)
    {ts : List Tree} (h : ∀ t ∈ ts, t.isEmpty = true) :
    childItems namespaces members types ts = ([], types) := by
  induction ts with
  | nil => rfl
  | cons t ts ih =>
    simp only [List.mem_cons, forall_eq_or_imp] at h
    simp [childItems, h.1, ih h.2]

theorem nodeItems_of_isEmpty (namespaces : List String) (types : Registry) {t : Tree}
    (h : t.isEmpty = true) : nodeItems namespaces types t = ([], types) := by
  obtain ⟨name, children, endpoints⟩ := t
  obtain ⟨rfl, hchildren⟩ := (Tree.isEmpty_node _ _ _).1 h
  simp [nodeItems, endpointItems, childItems_of_isEmpty _ _ _ hchildren]

/-- The types of a tree, with the namespace around them if there are any. -/
def typesText (options : Options) (tree : Tree) : CodeWriter :=
  if tree.isEmpty then ⟨options.indent, ""⟩
  else CodeWriter.writeAll ⟨options.indent, ""⟩
    ((0, "export namespace " ++ typesNamespace ++ " \x7b") ::
      (outline tree).flatMap Item.typeTexts ++ [(0, "\x7d")])

theorem renderParts_eq (options : Options) (tree : Tree) : renderParts options tree =
    if tree.belowNamed then
      .ok { types := typesText options tree
            functions := CodeWriter.writeAll ⟨options.indent, ""⟩
              ((outline tree).map (Item.functionText options))
            registry := (nodeItems [] .empty tree).2 }
    else .error unnamedFault := by
  unfold renderParts typesText
  by_cases hempty : tree.isEmpty
  · simp only [hempty, if_true, Tree.belowNamed_of_isEmpty hempty, outline,
      nodeItems_of_isEmpty _ _ hempty]
    rfl
  · simp only [hempty, renderNode_eq, Bool.false_eq_true, if_false]
    cases hbelow : tree.belowNamed with
    | false => rfl
    | true =>
      simp only [if_true, outline, List.cons_append, CodeWriter.writeAll_cons,
        CodeWriter.writeAll_append]
      rfl

/-! ## The methods of an outline -/

theorem endpoints_endpointItems (namespaces : List String) (es : List Endpoint)
    (members types : Registry) :
    ((endpointItems namespaces es members types).1.filterMap Item.method?).map Method.endpoint =
      es := by
  induction es generalizing members types with
  | nil => rfl
  | cons e es ih =>
    simp only [endpointItems, List.filterMap_cons, Item.method?, List.map_cons, ih]
    rfl

mutual

theorem endpoints_nodeItems (namespaces : List String) (types : Registry) : ∀ tree : Tree,
    ((nodeItems namespaces types tree).1.filterMap Item.method?).map Method.endpoint =
      tree.endpointsInOrder
  | .node name children endpoints => by
    simp [nodeItems, endpoints_endpointItems, endpoints_childItems]

theorem endpoints_childItems (namespaces : List String) (members types : Registry) :
    ∀ trees : List Tree,
      ((childItems namespaces members types trees).1.filterMap Item.method?).map Method.endpoint =
        trees.flatMap Tree.endpointsInOrder
  | [] => rfl
  | child :: rest => by
    by_cases hempty : child.isEmpty
    · have hnone : child.endpointsInOrder = [] := child.isEmpty_iff.1 hempty
      simp [childItems, hempty, hnone, endpoints_childItems]
    · simp [childItems, hempty, List.filterMap_cons, Item.method?, endpoints_nodeItems,
        endpoints_childItems]

end

theorem endpoints_outline (tree : Tree) :
    ((outline tree).filterMap Item.method?).map Method.endpoint = tree.endpointsInOrder :=
  endpoints_nodeItems [] .empty tree

/-! ## What holds of all methods -/

/-- A property of every method that is made of an endpoint. -/
def OfEndpoints (P : Method → Prop) : Prop :=
  ∀ namespaces member types e, P (endpointMethod namespaces member types e).1

section Methods
variable {P : Method → Prop}

theorem forall_endpointItems (h : OfEndpoints P) (namespaces : List String) (es : List Endpoint)
    (members types : Registry) {m : Method}
    (hm : .method m ∈ (endpointItems namespaces es members types).1) : P m := by
  induction es generalizing members types with
  | nil => simp [endpointItems] at hm
  | cons e es ih =>
    rcases List.mem_cons.1 hm with heq | hm
    · cases heq
      exact h ..
    · exact ih _ _ hm

mutual

theorem forall_nodeItems (h : OfEndpoints P) (namespaces : List String) (types : Registry)
    {m : Method} : ∀ tree : Tree, .method m ∈ (nodeItems namespaces types tree).1 → P m
  | .node name children endpoints, hm => by
    rcases List.mem_append.1 hm with hm | hm
    · exact forall_endpointItems h namespaces endpoints _ _ hm
    · exact forall_childItems h namespaces _ _ children hm

theorem forall_childItems (h : OfEndpoints P) (namespaces : List String)
    (members types : Registry) {m : Method} : ∀ trees : List Tree,
      .method m ∈ (childItems namespaces members types trees).1 → P m
  | [], hm => by simp [childItems] at hm
  | child :: rest, hm => by
    unfold childItems at hm
    split at hm
    · exact forall_childItems h namespaces members types rest hm
    · simp only [List.mem_append, List.mem_cons, reduceCtorEq, false_or] at hm
      rcases hm with hm | hm
      · exact forall_nodeItems h _ _ child hm
      · exact forall_childItems h namespaces _ _ rest hm

end

theorem forall_methods (h : OfEndpoints P) {tree : Tree} {m : Method}
    (hm : m ∈ (outline tree).filterMap Item.method?) : P m := by
  obtain ⟨i, hi, hsome⟩ := List.mem_filterMap.1 hm
  cases i with
  | opening => cases hsome
  | method m' =>
    cases hsome
    exact forall_nodeItems h [] .empty tree hi
  | closing => cases hsome

end Methods

/-- A name is given as it was claimed, or with a number. -/
def Declared.Numbered (d : Declared) : Prop := ∃ n, 1 ≤ n ∧ d.name = Registry.suffixed d.info.name n

theorem numbered_declare (types : Registry) (info : TypeInfo) :
    (declare types info).1.Numbered := ⟨_, Nat.le_add_left 1 _, rfl⟩

/-- The types of a method are those of its endpoint, under names made of theirs. -/
def Method.Typed (m : Method) : Prop :=
  m.body.map Declared.info = m.endpoint.body ∧ m.returns.info = m.endpoint.returns ∧
    (∀ d ∈ m.body, d.Numbered) ∧ m.returns.Numbered

theorem typed_of_method {tree : Tree} {m : Method}
    (hm : m ∈ (outline tree).filterMap Item.method?) : m.Typed := by
  refine forall_methods (fun namespaces member types e => ?_) hm
  obtain ⟨segments, functionName, source, body, returns⟩ := e
  cases body with
  | none => exact ⟨rfl, rfl, by simp [endpointMethod], numbered_declare ..⟩
  | some info =>
    refine ⟨rfl, rfl, ?_, numbered_declare ..⟩
    intro d hd
    obtain rfl : (declare types info).1 = d := Option.some.inj hd
    exact numbered_declare ..

end TypedRoutes.Render
