import TypedRoutes.Proofs.EmptyDirectories

/-! # Scopes of a client

Each directory that holds an endpoint is a scope, which is opened, filled and closed again at one
depth, among the types as among the methods.  So the namespaces that are open where a type is
declared are the ones that lead to it from outside.
-/

namespace TypedRoutes.Route

/-- What is met on a walk over a tree. -/
inductive Visit where
  | into (directory : String)
  | endpoint (e : Endpoint)
  | out
  deriving DecidableEq, Repr

namespace Tree

mutual

/-- A walk over a tree: the endpoints of a directory, and then the directories below it that hold
some, each from its way in to its way out. -/
def visits : Tree → List Visit
  | node _ children endpoints => endpoints.map .endpoint ++ visitsOfAll children

def visitsOfAll : List Tree → List Visit
  | [] => []
  | t :: ts =>
    if t.isEmpty then visitsOfAll ts
    else .into (t.name.getD "") :: t.visits ++ .out :: visitsOfAll ts

end

mutual

theorem belowNamed_iff : ∀ t : Tree, t.belowNamed = true ↔
    ∀ u ∈ t.directories, u.isEmpty = false → u.name.isSome = true
  | node _ children _ => allNamed_iff children

theorem allNamed_iff : ∀ ts : List Tree, allNamed ts = true ↔
    ∀ u ∈ directoriesOfAll ts, u.isEmpty = false → u.name.isSome = true
  | [] => by simp [allNamed, directoriesOfAll]
  | t :: ts => by
    rw [allNamed, Bool.and_eq_true, allNamed_iff ts, directoriesOfAll, List.cons_append,
      List.forall_mem_cons, List.forall_mem_append]
    cases hempty : t.isEmpty with
    | true =>
      have hbelow : ∀ u ∈ t.directories, u.isEmpty = false → u.name.isSome = true := by
        intro u hu hfull
        rw [isEmpty_of_mem_directories t hempty hu] at hfull
        cases hfull
      simp only [Bool.true_or, Bool.true_eq_false, false_imp_iff, true_and]
      exact ⟨fun hts => ⟨hbelow, hts⟩, And.right⟩
    | false => simp [belowNamed_iff t, and_assoc]

end

end Tree

end TypedRoutes.Route

namespace TypedRoutes.Render
open TypedRoutes.Text TypedRoutes.Naming TypedRoutes.Route TypedRoutes.Template

/-! ## Items in their scopes -/

/-- The scopes that are open after an item. -/
def Item.step (scopes : List String) : Item → List String
  | opening _ identifier => scopes ++ [identifier]
  | method _ => scopes
  | closing _ => scopes.dropLast

/-- The scopes that items leave open. -/
def scopesAfter (items : List Item) : List String := items.foldl Item.step []

/-- What is opened among items is closed again at the same depth, and all else stands in the scopes
that are open. -/
inductive Nested : List String → List Item → Prop where
  | nil {scopes : List String} : Nested scopes []
  | method {scopes : List String} {m : Method} {items : List Item} (own : m.namespaces = scopes)
      (rest : Nested scopes items) : Nested scopes (.method m :: items)
  | scope {scopes : List String} {identifier : String} {inside items : List Item}
      (inner : Nested (scopes ++ [identifier]) inside) (rest : Nested scopes items) :
      Nested scopes (.opening scopes identifier :: inside ++ .closing scopes :: items)

namespace Nested
variable {scopes : List String} {items more : List Item}

theorem append (h : Nested scopes items) (hmore : Nested scopes more) :
    Nested scopes (items ++ more) := by
  induction h with
  | nil => exact hmore
  | method own _ ih => exact .method own (ih hmore)
  | scope inner _ _ ih =>
    rw [List.append_assoc, List.cons_append, List.cons_append]
    exact .scope inner (ih hmore)

/-- All scopes that are opened are closed in the end. -/
theorem foldl_step (h : Nested scopes items) : items.foldl Item.step scopes = scopes := by
  induction h with
  | nil => rfl
  | method _ _ ih => exact ih
  | scope _ _ ihInner ihRest =>
    simp only [List.cons_append, List.foldl_cons, List.foldl_append, Item.step, ihInner,
      List.dropLast_concat, ihRest]

/-- A method stands in the scopes that the items before it leave open. -/
theorem namespaces_eq {m : Method} (h : Nested scopes items) :
    ∀ {before after}, items = before ++ .method m :: after →
      m.namespaces = before.foldl Item.step scopes := by
  induction h with
  | nil => simp
  | method own _ ih =>
    intro before after hitems
    rcases List.cons_eq_append_iff.1 hitems with ⟨rfl, hhead⟩ | ⟨before, rfl, hrest⟩
    · obtain ⟨hm, -⟩ := List.cons.inj hhead
      cases hm
      exact own
    · rw [List.foldl_cons]
      exact ih hrest
  | scope inner rest ihInner ihRest =>
    intro before after hitems
    rw [List.cons_append] at hitems
    rcases List.cons_eq_append_iff.1 hitems with ⟨rfl, hhead⟩ | ⟨before, rfl, hrest⟩
    · cases (List.cons.inj hhead).1
    · -- the method stands in the scope that is opened first, or after it
      rcases List.append_eq_append_iff.1 hrest with ⟨more, rfl, hmore⟩ | ⟨more, rfl, hmore⟩
      · rcases List.cons_eq_append_iff.1 hmore with ⟨-, hhead⟩ | ⟨more, rfl, hafter⟩
        · cases (List.cons.inj hhead).1
        · simp only [List.foldl_cons, List.foldl_append, Item.step, inner.foldl_step,
            List.dropLast_concat]
          exact ihRest hafter
      · rcases List.cons_eq_append_iff.1 hmore with ⟨rfl, hhead⟩ | ⟨more, rfl, hafter⟩
        · cases (List.cons.inj hhead).1
        · exact ihInner rfl

end Nested

/-! ## The scopes of an outline -/

theorem nested_endpointItems (namespaces : List String) (es : List Endpoint)
    (members types : Registry) : Nested namespaces (endpointItems namespaces es members types).1 := by
  induction es generalizing members types with
  | nil => exact .nil
  | cons e es ih => exact .method rfl (ih _ _)

mutual

theorem nested_nodeItems (namespaces : List String) (types : Registry) : ∀ tree : Tree,
    Nested namespaces (nodeItems namespaces types tree).1
  | .node _ children endpoints =>
    (nested_endpointItems namespaces endpoints _ _).append
      (nested_childItems namespaces _ _ children)

theorem nested_childItems (namespaces : List String) (members types : Registry) :
    ∀ trees : List Tree, Nested namespaces (childItems namespaces members types trees).1
  | [] => .nil
  | child :: rest => by
    unfold childItems
    split
    · exact nested_childItems namespaces members types rest
    · exact .scope (nested_nodeItems _ _ child) (nested_childItems namespaces _ _ rest)

end

/-- An item is what is written where something is met on a walk. -/
inductive Item.Shows : Item → Visit → Prop where
  | into {scopes : List String} {directory : String} (n : Nat) (counted : 1 ≤ n) :
      Shows (.opening scopes (Registry.suffixed (toIdentifier directory) n)) (.into directory)
  | endpoint (m : Method) : Shows (.method m) (.endpoint m.endpoint)
  | out {scopes : List String} : Shows (.closing scopes) .out

theorem shows_endpointItems (namespaces : List String) (es : List Endpoint)
    (members types : Registry) :
    List.Forall₂ Item.Shows (endpointItems namespaces es members types).1
      (es.map .endpoint) := by
  induction es generalizing members types with
  | nil => exact .nil
  | cons e es ih => exact .cons (.endpoint (endpointMethod ..).1) (ih _ _)

mutual

theorem shows_nodeItems (namespaces : List String) (types : Registry) : ∀ tree : Tree,
    List.Forall₂ Item.Shows (nodeItems namespaces types tree).1 tree.visits
  | .node _ children endpoints =>
    List.rel_append (shows_endpointItems namespaces endpoints _ _)
      (shows_childItems namespaces _ _ children)

theorem shows_childItems (namespaces : List String) (members types : Registry) :
    ∀ trees : List Tree,
      List.Forall₂ Item.Shows (childItems namespaces members types trees).1 (Tree.visitsOfAll trees)
  | [] => .nil
  | child :: rest => by
    unfold childItems Tree.visitsOfAll
    split
    · exact shows_childItems namespaces members types rest
    · exact List.rel_append (.cons (.into _ (Nat.le_add_left 1 _)) (shows_nodeItems _ _ child))
        (.cons .out (shows_childItems namespaces _ _ rest))

end

/-! ## References -/

def qualified (scopes : List String) (d : Declared) : String :=
  join "." (typesNamespace :: scopes ++ [d.name])

/-- In a client of a tree whose directories have names each method refers to its types by the
namespaces that are open where these are declared, the body right before the result, and by the names
that they are declared under.  The outline goes along the tree, and closes at its depth whatever it
opens; the text of the client is its template with the outline in the slots. -/
theorem references_name_declarations (options : Options) {tree : Tree}
    (hnamed : ∀ t ∈ tree.directories, t.isEmpty = false → t.name.isSome = true) :
    ∃ parts, renderParts options tree = .ok parts ∧
      parts.types = typesText options tree ∧
      parts.functions = CodeWriter.writeAll ⟨options.indent, ""⟩
        ((outline tree).map (Item.functionText options)) ∧
      (∀ template client, renderClient options tree template = .ok client →
        ∃ c, fillClient options tree (.ofTemplate "client" template) = .ok c ∧
          finish options c = .ok client ∧ IsTextOf options template c client ∧
          c.chunks "types" = [parts.types.buffer] ∧
          String.join (c.chunks "functions") = parts.functions.buffer) ∧
      List.Forall₂ Item.Shows (outline tree) tree.visits ∧
      Nested [] (outline tree) ∧
      ∀ before m after, outline tree = before ++ .method m :: after →
        let scopes := scopesAfter before
        m.body.map Declared.info = m.endpoint.body ∧ m.returns.info = m.endpoint.returns ∧
        (outline tree).flatMap Item.typeTexts = before.flatMap Item.typeTexts ++
          ((m.body.toList ++ [m.returns]).map fun d => (scopes.length + 1, exportedDeclaration
            (renameDeclaredType d.info.declaration d.info.name d.name))) ++
          after.flatMap Item.typeTexts ∧
        Item.functionText options (.method m) = (scopes.length, methodText options m.endpoint
          m.member scopes.length (m.body.map (qualified scopes)) (qualified scopes m.returns)) := by
  have hparts := renderParts_eq options tree
  rw [if_pos (tree.belowNamed_iff.2 hnamed)] at hparts
  refine ⟨_, hparts, rfl, rfl, ?_, shows_nodeItems [] .empty tree, nested_nodeItems [] .empty tree,
    ?_⟩
  · intro template client hclient
    obtain ⟨c, hfill, hfinish, htext, htypes, hfunctions⟩ := filled_of_renderClient hclient
    refine ⟨c, hfill, hfinish, htext, htypes, hfunctions.trans ?_⟩
    simp [CodeWriter.writeAll_eq, Item.block, Function.comp_def]
  · intro before m after houtline
    have hscopes : m.namespaces = scopesAfter before :=
      (nested_nodeItems [] .empty tree).namespaces_eq houtline
    have hmethod : m ∈ (outline tree).filterMap Item.method? := by
      rw [houtline]
      exact List.mem_filterMap.2 ⟨.method m, by simp, rfl⟩
    obtain ⟨hbody, hreturns, -⟩ := typed_of_method hmethod
    refine ⟨hbody, hreturns, ?_, ?_⟩
    · rw [houtline, List.flatMap_append, List.flatMap_cons, ← hscopes, List.append_assoc]
      rfl
    · rw [← hscopes]
      rfl

/-- A handler below two directories, beside one without handlers and without a name. -/
def administration : Tree :=
  .node none
    [.node (some "admin") [.node (some "users") []
      [⟨["admin", "users"], "ban", "ban.ts",
        some ⟨"BanRequest", "export type BanRequest = \x7b id: string \x7d;"⟩,
        ⟨"BanResponse", "export type BanResponse = boolean;"⟩⟩]] [],
     .node none [] []] []

theorem administration_references :
    (∀ t ∈ administration.directories, t.isEmpty = false → t.name.isSome = true) ∧
      ∃ parts before m after, renderParts {} administration = .ok parts ∧
        outline administration = before ++ .method m :: after ∧
        scopesAfter before = ["admin", "users"] ∧
        Item.functionText {} (.method m) = (2, methodText {} m.endpoint "ban" 2
          (some "types.admin.users.BanRequest") "types.admin.users.BanResponse") := by
  have hnamed : ∀ t ∈ administration.directories, t.isEmpty = false → t.name.isSome = true := by
    simp [administration, Tree.directories, Tree.directoriesOfAll, Tree.name, Tree.isEmpty]
  obtain ⟨parts, hparts, -, -, -, -, -, hmethods⟩ := references_name_declarations {} hnamed
  have houtline : ∃ m after, outline administration =
      [.opening [] "admin", .opening ["admin"] "users"] ++ .method m :: after ∧
        m.member = "ban" ∧ m.body.map Declared.name = some "BanRequest" ∧
        m.returns.name = "BanResponse" := ⟨_, _, rfl, rfl, rfl, rfl⟩
  obtain ⟨m, after, houtline, hmember, hbody, hreturns⟩ := houtline
  obtain ⟨-, -, -, htext⟩ := hmethods _ m after houtline
  obtain ⟨b, hb, hname⟩ := Option.map_eq_some_iff.1 hbody
  refine ⟨hnamed, parts, _, m, after, hparts, houtline, rfl, htext.trans ?_⟩
  simp only [hmember, hb, Option.map_some, qualified, hname, hreturns]
  rfl

end TypedRoutes.Render
