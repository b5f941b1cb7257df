import TypedRoutes.Proofs.NameRegistry
import TypedRoutes.Proofs.ScopeNesting

/-! # The members of a scope

What stands right in a scope of a client are the methods of its directory and the scopes of the
directories below it.  Where no name reads as if it had been counted, all names in a scope are
unlike, and so a path of names leads to one scope and to one directory.
-/

namespace TypedRoutes.Naming.Registry

/-! ## Names that do not look counted -/

/-- A name with a number behind it, as later claims of a name are answered. -/
def Counted (name : String) : Prop := ∃ x n, 2 ≤ n ∧ name = x ++ "_" ++ toString n

theorem noClash_of_not_counted {reserved xs : List String}
    (hreserved : ∀ name ∈ reserved, ¬Counted name) (hxs : ∀ name ∈ xs, ¬Counted name) :
    NoClash reserved xs := fun x _ n hn _ =>
  ⟨fun hmem => hreserved _ hmem ⟨x, n, hn, rfl⟩, fun hmem => hxs _ hmem ⟨x, n, hn, rfl⟩⟩

theorem not_counted_of_last {name : String}
    (hlast : ∀ c ∈ name.toList.getLast?, c.isDigit = false) : ¬Counted name := by
  rintro ⟨x, n, hn, h⟩
  rw [← suffixed_of_two_le x hn] at h
  obtain ⟨-, rfl⟩ := eq_of_eq_suffixed hlast (by omega) h
  omega

def claimed (r : Registry) (xs : List String) : Registry := xs.foldl (fun r x => (r.claim x).2) r

theorem claimAll_append (r : Registry) (xs ys : List String) :
    r.claimAll (xs ++ ys) = r.claimAll xs ++ (r.claimed xs).claimAll ys := by
  induction xs generalizing r with
  | nil => rfl
  | cons x xs ih =>
    rw [List.cons_append, claimAll, ih, claimAll, List.cons_append]
    rfl

end TypedRoutes.Naming.Registry

namespace TypedRoutes.Route.Tree

def filled (t : Tree) : List Tree := t.children.filter (!·.isEmpty)

theorem sizeOf_lt_of_mem_children {t u : Tree} (h : u ∈ t.children) : sizeOf u < sizeOf t := by
  obtain ⟨name, children, endpoints⟩ := t
  have hlt := List.sizeOf_lt_of_mem (show u ∈ children from h)
  rw [node.sizeOf_spec]
  omega

theorem endpointsInOrder_subset_of_mem_children {t u : Tree} (h : u ∈ t.children) :
    u.endpointsInOrder ⊆ t.endpointsInOrder := by
  obtain ⟨name, children, endpoints⟩ := t
  intro e he
  rw [endpointsInOrder_node, List.mem_append, List.mem_flatMap]
  exact .inr ⟨u, h, he⟩

theorem endpoints_subset_endpointsInOrder (t : Tree) : t.endpoints ⊆ t.endpointsInOrder := by
  obtain ⟨name, children, endpoints⟩ := t
  rw [endpointsInOrder_node]
  exact List.subset_append_left ..

end TypedRoutes.Route.Tree

namespace TypedRoutes.Route
open TypedRoutes.Naming

def Endpoint.types (e : Endpoint) : List TypeInfo := e.body.toList ++ [e.returns]

/-- No name that a client is made from looks counted. -/
structure Tree.Uncounted (t : Tree) : Prop where
  functions : ∀ e ∈ t.endpointsInOrder, ¬Registry.Counted e.functionName
  directories : ∀ u ∈ t.directories, u.isEmpty = false →
    ∀ name, u.name = some name → ¬Registry.Counted (toIdentifier name)
  types : ∀ e ∈ t.endpointsInOrder, ∀ info ∈ e.types, ¬Registry.Counted info.name

theorem Tree.Uncounted.child {t u : Tree} (h : t.Uncounted) (hu : u ∈ t.children) :
    u.Uncounted where
  functions e he := h.functions e (endpointsInOrder_subset_of_mem_children hu he)
  directories v hv := h.directories v (directories_subset_of_mem_children hu hv)
  types e he := h.types e (endpointsInOrder_subset_of_mem_children hu he)

end TypedRoutes.Route

namespace TypedRoutes.Render
open TypedRoutes.Text TypedRoutes.Naming TypedRoutes.Route TypedRoutes.Template

/-! ## Members of the scopes that items open -/

/-- The name that an item is found by in the scope that it stands in. -/
def Item.name? : Item → Option String
  | opening _ identifier => some identifier
  | method m => some m.member
  | closing _ => none

def membersOf (target : List String) : List String → List Item → List Item
  | _, [] => []
  | scopes, item :: items =>
    (if scopes = target ∧ item.name?.isSome then [item] else []) ++
      membersOf target (item.step scopes) items

def namesOf (target : List String) (items : List Item) : List String :=
  (membersOf target [] items).filterMap Item.name?

theorem membersOf_append (target scopes : List String) (items more : List Item) :
    membersOf target scopes (items ++ more) =
      membersOf target scopes items ++ membersOf target (items.foldl Item.step scopes) more := by
  induction items generalizing scopes with
  | nil => rfl
  | cons item items ih => simp [membersOf, ih]

/-- A scope that is opened and closed again stands in its parent, and holds what is inside. -/
theorem membersOf_scope (target scopes : List String) (identifier : String)
    {inside : List Item} (hinside : Nested (scopes ++ [identifier]) inside) (items : List Item) :
    membersOf target scopes (.opening scopes identifier :: inside ++ .closing scopes :: items) =
      (if scopes = target then [.opening scopes identifier] else []) ++
        membersOf target (scopes ++ [identifier]) inside ++ membersOf target scopes items := by
  simp [membersOf, membersOf_append, Item.step, Item.name?, hinside.foldl_step]

/-- Items that stay in some scopes add nothing outside of these. -/
theorem Nested.membersOf_eq_nil {target scopes : List String} {items : List Item}
    (h : Nested scopes items) (houtside : ¬scopes <+: target) :
    membersOf target scopes items = [] := by
  have hne {scopes : List String} (h : ¬scopes <+: target) : scopes ≠ target := by
    rintro rfl
    exact h (List.prefix_refl scopes)
  induction h with
  | nil => rfl
  | method _ _ ih => simp [membersOf, hne houtside, Item.step, ih houtside]
  | @scope scopes identifier inside items inner _ ihInner ihRest =>
    have hinside : ¬scopes ++ [identifier] <+: target := fun h =>
      houtside ((List.prefix_append ..).trans h)
    rw [membersOf_scope _ _ _ inner, if_neg (hne houtside), ihInner hinside, ihRest houtside]
    rfl

/-! ## The members of a directory -/

/-- The names that a directory claims in its scope: those of its endpoints, and then those of the
directories right below it that hold one. -/
def claims (t : Tree) : List String :=
  t.endpoints.map (·.functionName) ++ t.filled.map fun c => toIdentifier (c.name.getD "")

def memberNames (level : Nat) (t : Tree) : List String := (scopeMembers level).claimAll (claims t)

/-- The directories right below one, with the names that they are found by in its scope. -/
def groups (level : Nat) (t : Tree) : List (String × Tree) :=
  ((memberNames level t).drop t.endpoints.length).zip t.filled

/-- From the scope of one directory some names lead to that of a directory below it. -/
inductive Leads : List String → Tree → List String → Tree → Prop where
  | here (scopes : List String) (t : Tree) : Leads scopes t scopes t
  | down {scopes target : List String} {t c u : Tree} {name : String}
      (group : (name, c) ∈ groups scopes.length t) (rest : Leads (scopes ++ [name]) c target u) :
      Leads scopes t target u

theorem memberNames_eq (level : Nat) (t : Tree) : memberNames level t =
    (scopeMembers level).claimAll (t.endpoints.map (·.functionName)) ++
      (groups level t).map Prod.fst := by
  have hsplit : memberNames level t =
      (scopeMembers level).claimAll (t.endpoints.map (·.functionName)) ++
        ((scopeMembers level).claimed (t.endpoints.map (·.functionName))).claimAll
          (t.filled.map fun c => toIdentifier (c.name.getD "")) := Registry.claimAll_append ..
  rw [groups, List.map_fst_zip (by simp [memberNames, claims]), hsplit, List.drop_left' (by simp)]

theorem groups_eq (level : Nat) (t : Tree) : groups level t =
    (((scopeMembers level).claimed (t.endpoints.map (·.functionName))).claimAll
      (t.filled.map fun c => toIdentifier (c.name.getD ""))).zip t.filled := by
  rw [groups, memberNames, claims, Registry.claimAll_append, List.drop_left' (by simp)]

/-- A directory in the scope of its parent, with the type names that are given away before it. -/
structure Group where
  name : String
  directory : Tree
  types : Registry

namespace Group

/-- What is written between the ends of the directory's scope. -/
def inside (scopes : List String) (g : Group) : List Item :=
  (nodeItems (scopes ++ [g.name]) g.types g.directory).1

def items (scopes : List String) (g : Group) : List Item :=
  .opening scopes g.name :: g.inside scopes ++ [.closing scopes]

theorem nested_inside (scopes : List String) (g : Group) :
    Nested (scopes ++ [g.name]) (g.inside scopes) := nested_nodeItems ..

end Group

theorem endpointItems_eq (namespaces : List String) (es : List Endpoint)
    (members types : Registry) : ∃ ms : List Method,
      (endpointItems namespaces es members types).1 = ms.map .method ∧
      (∀ m ∈ ms, m.namespaces = namespaces) ∧ ms.map Method.endpoint = es ∧
      ms.map Method.member = members.claimAll (es.map (·.functionName)) ∧
      (endpointItems namespaces es members types).2.1 =
        members.claimed (es.map (·.functionName)) := by
  induction es generalizing members types with
  | nil => exact ⟨[], rfl, by simp, rfl, rfl, rfl⟩
  | cons e es ih =>
    let first := endpointMethod namespaces (members.claim e.functionName).1 types e
    obtain ⟨ms, hitems, hscope, hendpoints, hnames, hclaimed⟩ :=
      ih (members.claim e.functionName).2 first.2
    refine ⟨first.1 :: ms, ?_, List.forall_mem_cons.2 ⟨rfl, hscope⟩, ?_, ?_, hclaimed⟩
    · rw [List.map_cons, ← hitems]
      rfl
    · rw [List.map_cons, hendpoints]
      rfl
    · rw [List.map_cons, hnames]
      rfl

/-- The directories below one are written one after the other, under the names claimed for them. -/
theorem childItems_eq (namespaces : List String) (members types : Registry) (trees : List Tree) :
    ∃ gs : List Group,
      (childItems namespaces members types trees).1 = gs.flatMap (Group.items namespaces) ∧
      gs.map (fun g => (g.name, g.directory)) =
        (members.claimAll ((trees.filter (!·.isEmpty)).map fun c =>
          toIdentifier (c.name.getD ""))).zip (trees.filter (!·.isEmpty)) := by
  induction trees generalizing members types with
  | nil => exact ⟨[], rfl, rfl⟩
  | cons c cs ih =>
    unfold childItems
    by_cases hempty : c.isEmpty
    · simpa [hempty] using ih members types
    · let claim := members.claim (toIdentifier (c.name.getD ""))
      obtain ⟨gs, hitems, hgroups⟩ := ih claim.2 (nodeItems (namespaces ++ [claim.1]) types c).2
      refine ⟨⟨claim.1, c, types⟩ :: gs, ?_, ?_⟩
      · rw [List.flatMap_cons, ← hitems, Group.items, List.append_assoc]
        simp only [hempty, Bool.false_eq_true, if_false]
        rfl
      · simp only [List.map_cons, hgroups, hempty, Bool.not_false, List.filter_cons_of_pos,
          Registry.claimAll, List.zip_cons_cons]
        rfl

/-- The items of a directory are the methods of its endpoints, and then the scopes of the
directories below it. -/
theorem nodeItems_eq (scopes : List String) (types : Registry) (t : Tree) :
    ∃ (ms : List Method) (gs : List Group),
      (nodeItems scopes types t).1 = ms.map .method ++ gs.flatMap (Group.items scopes) ∧
      (∀ m ∈ ms, m.namespaces = scopes) ∧ ms.map Method.endpoint = t.endpoints ∧
      ms.map Method.member =
        (scopeMembers scopes.length).claimAll (t.endpoints.map (·.functionName)) ∧
      gs.map (fun g => (g.name, g.directory)) = groups scopes.length t := by
  obtain ⟨name, children, endpoints⟩ := t
  let own := endpointItems scopes endpoints (scopeMembers scopes.length) types
  obtain ⟨ms, hown, hscope, hendpoints, hnames, hclaimed⟩ :=
    endpointItems_eq scopes endpoints (scopeMembers scopes.length) types
  obtain ⟨gs, hbelow, hgroups⟩ := childItems_eq scopes own.2.1 own.2.2 children
  refine ⟨ms, gs, ?_, hscope, hendpoints, hnames, ?_⟩
  · rw [← hown, ← hbelow]
    rfl
  · rw [hgroups, groups_eq, show own.2.1 = _ from hclaimed]
    rfl

private theorem concat_not_above {α : Type} (xs : List α) (x : α) : ¬xs ++ [x] <+: xs := by
  intro h
  have hlength := h.length_le
  rw [List.length_append, List.length_singleton] at hlength
  omega

theorem membersOf_methods (target scopes : List String) (ms : List Method) :
    membersOf target scopes (ms.map .method) =
      if scopes = target then ms.map .method else [] := by
  induction ms with
  | nil => simp [membersOf]
  | cons m ms ih =>
    simp only [List.map_cons, membersOf, Item.step, ih, Item.name?, Option.isSome_some, and_true]
    split <;> rfl

theorem foldl_step_methods (scopes : List String) (ms : List Method) :
    (ms.map Item.method).foldl Item.step scopes = scopes := by
  induction ms with
  | nil => rfl
  | cons m ms ih => exact ih

theorem membersOf_groups (target scopes : List String) (gs : List Group) :
    membersOf target scopes (gs.flatMap (Group.items scopes)) = gs.flatMap fun g =>
      (if scopes = target then [.opening scopes g.name] else []) ++
        membersOf target (scopes ++ [g.name]) (g.inside scopes) := by
  induction gs with
  | nil => rfl
  | cons g gs ih =>
    rw [List.flatMap_cons, List.flatMap_cons, ← ih, Group.items, List.append_assoc,
      List.singleton_append, membersOf_scope _ _ _ (g.nested_inside scopes)]

/-- Right in the scope of a directory stand the methods of its endpoints and the directories below
it, under the names claimed for them. -/
theorem membersOf_own (scopes : List String) (types : Registry) (t : Tree) :
    (membersOf scopes scopes (nodeItems scopes types t).1).filterMap Item.name? =
        memberNames scopes.length t ∧
      ((membersOf scopes scopes (nodeItems scopes types t).1).filterMap Item.method?).map
        Method.endpoint = t.endpoints := by
  obtain ⟨ms, gs, hitems, -, hendpoints, hnames, hgroups⟩ := nodeItems_eq scopes types t
  have hinside : ∀ g : Group,
      membersOf scopes (scopes ++ [g.name]) (g.inside scopes) = [] := fun g =>
    (g.nested_inside scopes).membersOf_eq_nil (concat_not_above scopes g.name)
  have hmembers : membersOf scopes scopes (nodeItems scopes types t).1 =
      ms.map .method ++ gs.map fun g => .opening scopes g.name := by
    rw [hitems, membersOf_append, foldl_step_methods, membersOf_methods, membersOf_groups]
    simp only [hinside, if_true, List.append_nil, List.map_eq_flatMap]
  rw [hmembers]
  constructor
  · rw [memberNames_eq, ← hgroups, ← hnames]
    simp [Item.name?, Function.comp_def]
  · rw [← hendpoints]
    simp [Item.method?, Function.comp_def]

/-! ## Scopes below -/

namespace Leads
variable {scopes target : List String} {t u : Tree}

theorem scopes_above (h : Leads scopes t target u) : scopes <+: target := by
  induction h with
  | here scopes => exact List.prefix_refl scopes
  | down _ _ ih => exact (List.prefix_append ..).trans ih

theorem uncounted (h : Leads scopes t target u) (huncounted : t.Uncounted) : u.Uncounted := by
  induction h with
  | here => exact huncounted
  | down group _ ih =>
    exact ih (huncounted.child (List.mem_of_mem_filter (List.of_mem_zip group).2))

end Leads

/-- What stands in a scope below stands within one of the directories. -/
theorem membersOf_below {scopes target : List String} (hne : scopes ≠ target) (types : Registry)
    (t : Tree) : ∃ gs : List Group,
      gs.map (fun g => (g.name, g.directory)) = groups scopes.length t ∧
      membersOf target scopes (nodeItems scopes types t).1 =
        gs.flatMap fun g => membersOf target (scopes ++ [g.name]) (g.inside scopes) := by
  obtain ⟨ms, gs, hitems, -, -, -, hgroups⟩ := nodeItems_eq scopes types t
  refine ⟨gs, hgroups, ?_⟩
  rw [hitems, membersOf_append, foldl_step_methods, membersOf_methods, membersOf_groups]
  simp [hne]

/-! ## Unlike names -/

theorem clientMembers_not_counted : ∀ name ∈ clientMembers, ¬Registry.Counted name := by
  have hlast : ∀ name ∈ clientMembers, ∀ c ∈ name.toList.getLast?, c.isDigit = false := by
    simp [clientMembers]
  exact fun name hmem => Registry.not_counted_of_last (hlast name hmem)

theorem scopeMembers_eq (level : Nat) :
    scopeMembers level = .reserving (if level = 0 then clientMembers else []) := by
  unfold scopeMembers
  split <;> rfl

theorem claims_not_counted {t : Tree} (h : t.Uncounted) :
    ∀ name ∈ claims t, ¬Registry.Counted name := by
  intro name hmem
  rcases List.mem_append.1 hmem with hmem | hmem
  · obtain ⟨e, he, rfl⟩ := List.mem_map.1 hmem
    exact h.functions e (t.endpoints_subset_endpointsInOrder he)
  · obtain ⟨c, hc, rfl⟩ := List.mem_map.1 hmem
    obtain ⟨hchild, hfull⟩ := List.mem_filter.1 hc
    cases hname : c.name with
    | none =>
      have hlast : ∀ c ∈ (toIdentifier "").toList.getLast?, c.isDigit = false := by
        simp [toIdentifier, identifierChars]
      exact Registry.not_counted_of_last hlast
    | some name =>
      exact h.directories c (Tree.mem_directories_of_mem_children hchild) (by simpa using hfull)
        name hname

/-- In the scope of a directory all names are unlike, and unlike those that a client has already. -/
theorem memberNames_unlike {t : Tree} (h : t.Uncounted) (level : Nat) :
    (memberNames level t).Nodup ∧
      ∀ name ∈ memberNames level t, level = 0 → name ∉ clientMembers := by
  have hreserved : ∀ name ∈ (if level = 0 then clientMembers else []), ¬Registry.Counted name := by
    split
    · exact clientMembers_not_counted
    · simp
  obtain ⟨hnodup, hfree⟩ := (Registry.claimAll_unlike_iff _ _).2
    (Registry.noClash_of_not_counted hreserved (claims_not_counted h))
  rw [memberNames, scopeMembers_eq]
  refine ⟨hnodup, fun name hmem hlevel => ?_⟩
  simpa [hlevel] using hfree name hmem

theorem nodup_groups {t : Tree} (h : t.Uncounted) (level : Nat) :
    ((groups level t).map Prod.fst).Nodup := by
  have hnodup := (memberNames_unlike h level).1
  rw [memberNames_eq] at hnodup
  exact hnodup.of_append_right

/-- If names lead on through one of the directories, then nothing of the others stands there. -/
theorem membersOf_group {scopes target : List String} {gs : List Group}
    (hnodup : (gs.map Group.name).Nodup) {g : Group} (hg : g ∈ gs)
    (habove : scopes ++ [g.name] <+: target) :
    (gs.flatMap fun g => membersOf target (scopes ++ [g.name]) (g.inside scopes)) =
      membersOf target (scopes ++ [g.name]) (g.inside scopes) := by
  obtain ⟨before, after, rfl⟩ := List.append_of_mem hg
  have hother : ∀ g' : Group, g'.name ≠ g.name →
      membersOf target (scopes ++ [g'.name]) (g'.inside scopes) = [] := by
    refine fun g' hne => (g'.nested_inside scopes).membersOf_eq_nil fun habove' => hne ?_
    have hsame := List.prefix_of_prefix_length_le habove' habove (by simp)
    simpa using hsame.eq_of_length (by simp)
  rw [List.map_append, List.map_cons, List.nodup_middle, List.nodup_cons, List.mem_append,
    not_or] at hnodup
  obtain ⟨⟨hbefore, hafter⟩, -⟩ := hnodup
  have hnone : ∀ gs' : List Group, g.name ∉ gs'.map Group.name →
      (gs'.flatMap fun g => membersOf target (scopes ++ [g.name]) (g.inside scopes)) = [] :=
    fun gs' hnot => List.flatMap_eq_nil_iff.2 fun g' hg' =>
      hother g' fun hsame => hnot (hsame ▸ List.mem_map_of_mem hg')
  rw [List.flatMap_append, List.flatMap_cons, hnone before hbefore, hnone after hafter]
  simp

theorem membersOf_of_leads {scopes target : List String} {t u : Tree}
    (h : Leads scopes t target u) (huncounted : t.Uncounted) (types : Registry) :
    ∃ types', membersOf target scopes (nodeItems scopes types t).1 =
      membersOf target target (nodeItems target types' u).1 := by
  induction h generalizing types with
  | here scopes t => exact ⟨types, rfl⟩
  | @down scopes target t c u name group rest ih =>
    have habove := rest.scopes_above
    have hne : scopes ≠ target := by
      rintro rfl
      exact concat_not_above scopes name habove
    obtain ⟨gs, hgroups, hmembers⟩ := membersOf_below hne types t
    have hnodup : (gs.map Group.name).Nodup := by
      have hnodup := nodup_groups huncounted scopes.length
      rw [← hgroups, List.map_map] at hnodup
      exact hnodup
    obtain ⟨g, hg, hsame⟩ := List.mem_map.1 (hgroups ▸ group)
    cases hsame
    have hchild : g.directory ∈ t.children := List.mem_of_mem_filter (List.of_mem_zip group).2
    obtain ⟨types', hinside⟩ := ih (huncounted.child hchild) g.types
    exact ⟨types', hmembers.trans ((membersOf_group hnodup hg habove).trans hinside)⟩

/-- Wherever something stands, there names lead to. -/
theorem exists_leads (scopes : List String) (types : Registry) (t : Tree) {target : List String}
    {item : Item} (hitem : item ∈ membersOf target scopes (nodeItems scopes types t).1) :
    ∃ u, Leads scopes t target u := by
  by_cases hne : scopes = target
  · exact ⟨t, hne ▸ .here scopes t⟩
  · obtain ⟨gs, hgroups, hmembers⟩ := membersOf_below hne types t
    rw [hmembers] at hitem
    obtain ⟨g, hg, hitem⟩ := List.mem_flatMap.1 hitem
    have hgroup : (g.name, g.directory) ∈ groups scopes.length t :=
      hgroups ▸ List.mem_map_of_mem hg
    have hchild : g.directory ∈ t.children := List.mem_of_mem_filter (List.of_mem_zip hgroup).2
    obtain ⟨u, hu⟩ := exists_leads (scopes ++ [g.name]) g.types g.directory hitem
    exact ⟨u, .down hgroup hu⟩
termination_by t
decreasing_by exact Tree.sizeOf_lt_of_mem_children hchild

/-! ## Declared types -/

def Item.declared : Item → List Declared
  | method m => m.body.toList ++ [m.returns]
  | _ => []

/-- Items declare types in order, under the names that a registry gives them. -/
structure Declares (types : Registry) (items : List Item) (types' : Registry)
    (infos : List TypeInfo) : Prop where
  declared : (items.flatMap Item.declared).map Declared.info = infos
  names : (items.flatMap Item.declared).map Declared.name = types.claimAll (infos.map (·.name))
  claimed : types' = types.claimed (infos.map (·.name))

namespace Declares
variable {types types' types'' : Registry} {items more : List Item} {infos others : List TypeInfo}

theorem nothing (types : Registry) (items : List Item) (h : items.flatMap Item.declared = []) :
    Declares types items types [] := ⟨by rw [h]; rfl, by rw [h]; rfl, rfl⟩

theorem append (h : Declares types items types' infos)
    (hmore : Declares types' more types'' others) :
    Declares types (items ++ more) types'' (infos ++ others) where
  declared := by rw [List.flatMap_append, List.map_append, h.declared, hmore.declared]
  names := by
    rw [List.flatMap_append, List.map_append, h.names, hmore.names, h.claimed, List.map_append,
      Registry.claimAll_append]
  claimed := by
    rw [hmore.claimed, h.claimed, List.map_append, Registry.claimed, Registry.claimed,
      Registry.claimed, List.foldl_append]

end Declares

theorem declares_method (namespaces : List String) (member : String) (types : Registry)
    (e : Endpoint) :
    Declares types [.method (endpointMethod namespaces member types e).1]
      (endpointMethod namespaces member types e).2 e.types := by
  obtain ⟨segments, functionName, source, body, returns⟩ := e
  cases body with
  | none => exact ⟨rfl, rfl, rfl⟩
  | some info => exact ⟨rfl, rfl, rfl⟩

theorem declares_endpointItems (namespaces : List String) (es : List Endpoint)
    (members types : Registry) :
    Declares types (endpointItems namespaces es members types).1
      (endpointItems namespaces es members types).2.2 (es.flatMap Endpoint.types) := by
  induction es generalizing members types with
  | nil => exact .nothing _ [] rfl
  | cons e es ih => exact (declares_method namespaces _ types e).append (ih _ _)

mutual

theorem declares_nodeItems (namespaces : List String) (types : Registry) : ∀ t : Tree,
    Declares types (nodeItems namespaces types t).1 (nodeItems namespaces types t).2
      (t.endpointsInOrder.flatMap Endpoint.types)
  | .node name children endpoints => by
    rw [Tree.endpointsInOrder, List.flatMap_append]
    exact (declares_endpointItems namespaces endpoints _ _).append
      (declares_childItems namespaces _ _ children)

theorem declares_childItems (namespaces : List String) (members types : Registry) :
    ∀ ts : List Tree,
      Declares types (childItems namespaces members types ts).1
        (childItems namespaces members types ts).2
        ((Tree.endpointsOfAll ts).flatMap Endpoint.types)
  | [] => .nothing _ [] rfl
  | t :: ts => by
    rw [Tree.endpointsOfAll, List.flatMap_append]
    by_cases hempty : t.isEmpty
    · rw [t.isEmpty_iff.1 hempty]
      simpa [childItems, hempty] using declares_childItems namespaces members types ts
    · let claim := members.claim (toIdentifier (t.name.getD ""))
      have hinside := declares_nodeItems (namespaces ++ [claim.1]) types t
      have hafter := declares_childItems namespaces claim.2
        (nodeItems (namespaces ++ [claim.1]) types t).2 ts
      have hopening := Declares.nothing types [.opening namespaces claim.1] rfl
      have hclosing := Declares.nothing (nodeItems (namespaces ++ [claim.1]) types t).2
        [.closing namespaces] rfl
      simpa [childItems, hempty, claim] using
        (hopening.append hinside).append (hclosing.append hafter)

end

/-- The types of a client are declared in the order of the endpoints, all under unlike names. -/
theorem declared_names_nodup {t : Tree} (h : t.Uncounted) :
    (((outline t).flatMap Item.declared).map Declared.name).Nodup := by
  have hdeclares := declares_nodeItems [] .empty t
  have hcounted : ∀ name ∈ (t.endpointsInOrder.flatMap Endpoint.types).map (·.name),
      ¬Registry.Counted name := by
    intro name hmem
    obtain ⟨info, hinfo, rfl⟩ := List.mem_map.1 hmem
    obtain ⟨e, he, hinfo⟩ := List.mem_flatMap.1 hinfo
    exact h.types e he info hinfo
  rw [outline, hdeclares.names]
  exact ((Registry.claimAll_unlike_iff [] _).2
    (Registry.noClash_of_not_counted (by simp) hcounted)).1

/-! ## Clients -/

/-- How a name is bound to its value in a scope: as a field of the client, or as a key of the object
of a directory. -/
def binder (scopes : List String) : String := if scopes.length = 0 then " =" else ":"

theorem functionText_opening (options : Options) (scopes : List String) (identifier : String) :
    Item.functionText options (.opening scopes identifier) =
      (scopes.length, identifier ++ binder scopes ++ " \x7b") := by
  cases scopes <;> simp [Item.functionText, binder, String.append_assoc]

theorem functionText_method (options : Options) (m : Method) : ∃ rest,
    Item.functionText options (.method m) =
      (m.namespaces.length, m.member ++ binder m.namespaces ++ rest) := by
  simp only [Item.functionText, methodText, methodHead, binder, String.append_assoc]
  exact ⟨_, rfl⟩

/-- The names in a scope begin what is written there for them, at the depth of the scope. -/
theorem Nested.functionText_of_mem {target scopes : List String} {items : List Item}
    (h : Nested scopes items) (options : Options) {item : Item}
    (hitem : item ∈ membersOf target scopes items) : ∃ name rest, item.name? = some name ∧
      item.functionText options = (target.length, name ++ binder target ++ rest) := by
  induction h with
  | nil => cases hitem
  | @method scopes m items own _ ih =>
    rw [membersOf, List.mem_append] at hitem
    rcases hitem with hitem | hitem
    · split at hitem
      case isTrue hthere =>
        obtain rfl := List.mem_singleton.1 hitem
        obtain ⟨rest, htext⟩ := functionText_method options m
        rw [own, hthere.1] at htext
        exact ⟨m.member, rest, rfl, htext⟩
      case isFalse => cases hitem
    · exact ih hitem
  | @scope scopes identifier inside items inner _ ihInner ihRest =>
    rw [membersOf_scope _ _ _ inner, List.mem_append, List.mem_append] at hitem
    rcases hitem with (hitem | hitem) | hitem
    · split at hitem
      case isTrue hthere =>
        obtain rfl := List.mem_singleton.1 hitem
        have htext := functionText_opening options scopes identifier
        exact ⟨identifier, _, rfl, by rwa [hthere] at htext ⊢⟩
      case isFalse => cases hitem
    · exact ihInner hitem
    · exact ihRest hitem

theorem Leads.unique {scopes target : List String} {t u v : Tree} (hu : Leads scopes t target u)
    (huncounted : t.Uncounted) (hv : Leads scopes t target v) : u = v := by
  induction hu with
  | here scopes t =>
    cases hv with
    | here => rfl
    | down _ rest => exact absurd rest.scopes_above (concat_not_above _ _)
  | @down scopes target t c u name group rest ih =>
    cases hv with
    | here => exact absurd rest.scopes_above (concat_not_above _ _)
    | @down _ _ _ c' _ name' group' rest' =>
      have hsame := (List.prefix_of_prefix_length_le rest.scopes_above rest'.scopes_above
        (by simp)).eq_of_length (by simp)
      obtain rfl : name = name' := by simpa using hsame
      obtain rfl : c = c' := by
        have hnodup := nodup_groups huncounted scopes.length
        exact congrArg Prod.snd (List.inj_on_of_nodup_map hnodup group group' rfl)
      have hchild : c ∈ t.children := List.mem_of_mem_filter (List.of_mem_zip group).2
      exact ih (huncounted.child hchild) rest'

/-- In a client of a tree in which no name looks counted all names in a scope are unlike, and those
on top are unlike the members that a client has already; all types are declared under unlike names;
and the names in a scope are those that its directory claims, whatever is around it.  A path of
scopes belongs to one directory, so nothing else stands where this one is written.  The text of the
client is its template with all of this in the slots. -/
theorem client_names_unlike (options : Options) {tree : Tree}
    (hnamed : ∀ t ∈ tree.directories, t.isEmpty = false → t.name.isSome = true)
    (huncounted : tree.Uncounted) :
    ∃ parts, renderParts options tree = .ok parts ∧
      parts.types = typesText options tree ∧
      parts.functions = CodeWriter.writeAll ⟨options.indent, ""⟩
        ((outline tree).map (Item.functionText options)) ∧
      (∀ template client, renderClient options tree template = .ok client →
        ∃ c, fillClient options tree (.ofTemplate "client" template) = .ok c ∧
          finish options c = .ok client ∧ IsTextOf options template c client ∧
          c.chunks "types" = [parts.types.buffer] ∧
          String.join (c.chunks "functions") = parts.functions.buffer) ∧
      Nested [] (outline tree) ∧
      (∀ scopes, (namesOf scopes (outline tree)).Nodup ∧
        ∀ item ∈ membersOf scopes [] (outline tree), ∃ name rest, item.name? = some name ∧
          item.functionText options = (scopes.length, name ++ binder scopes ++ rest)) ∧
      (∀ name ∈ clientMembers, name ∉ namesOf [] (outline tree)) ∧
      ((outline tree).flatMap Item.declared).map Declared.info =
        tree.endpointsInOrder.flatMap Endpoint.types ∧
      (((outline tree).flatMap Item.declared).map Declared.name).Nodup ∧
      (∀ scopes u, Leads [] tree scopes u →
        namesOf scopes (outline tree) = memberNames scopes.length u ∧
          ((membersOf scopes [] (outline tree)).filterMap Item.method?).map Method.endpoint =
            u.endpoints) ∧
      ∀ scopes, membersOf scopes [] (outline tree) ≠ [] → ∃! u, Leads [] tree scopes u := by
  have hparts := renderParts_eq options tree
  rw [if_pos (tree.belowNamed_iff.2 hnamed)] at hparts
  have hnested : Nested [] (outline tree) := nested_nodeItems [] .empty tree
  have hown : ∀ scopes u, Leads [] tree scopes u →
      namesOf scopes (outline tree) = memberNames scopes.length u ∧
        ((membersOf scopes [] (outline tree)).filterMap Item.method?).map Method.endpoint =
          u.endpoints := by
    intro scopes u hleads
    obtain ⟨types, hmembers⟩ := membersOf_of_leads hleads huncounted .empty
    rw [namesOf, outline, hmembers]
    exact membersOf_own scopes types u
  have hexists : ∀ scopes, membersOf scopes [] (outline tree) ≠ [] →
      ∃ u, Leads [] tree scopes u := by
    intro scopes hsome
    obtain ⟨item, hitem⟩ := List.exists_mem_of_ne_nil _ hsome
    exact exists_leads [] .empty tree hitem
  refine ⟨_, hparts, rfl, rfl, ?_, hnested, fun scopes => ⟨?_, fun item hitem =>
    hnested.functionText_of_mem options hitem⟩, ?_, (declares_nodeItems [] .empty tree).declared,
    declared_names_nodup huncounted, hown, ?_⟩
  · intro template client hclient
    obtain ⟨c, hfill, hfinish, htext, htypes, hfunctions⟩ := filled_of_renderClient hclient
    refine ⟨c, hfill, hfinish, htext, htypes, hfunctions.trans ?_⟩
    simp [CodeWriter.writeAll_eq, Item.block, Function.comp_def]
  · by_cases hsome : membersOf scopes [] (outline tree) = []
    · simp [namesOf, hsome]
    · obtain ⟨u, hleads⟩ := hexists scopes hsome
      rw [(hown scopes u hleads).1]
      exact (memberNames_unlike (hleads.uncounted huncounted) scopes.length).1
  · intro name hname hmem
    rw [(hown [] tree (.here [] tree)).1] at hmem
    exact (memberNames_unlike huncounted 0).2 name hmem rfl hname
  · intro scopes hsome
    obtain ⟨u, hleads⟩ := hexists scopes hsome
    exact ⟨u, hleads, fun v hv => hv.unique huncounted hleads⟩

/-- A handler that is named like a member of the client, one that is named like the directory
beside it, directories whose names read alike, and types of one name. -/
def crowded : Tree :=
  .node none
    [.node (some "users") [.node none [] []] [listing ["users"] "list"],
     .node (some "user-profile") [] [listing ["user-profile"] "list"],
     .node (some "user_profile") [] [listing ["user_profile"] "list"]]
    [listing [] "call", listing [] "users"]
where
  listing (segments : List String) (name : String) : Endpoint :=
    ⟨segments, name, name ++ ".ts", none, ⟨"Page", "export type Page = string[];"⟩⟩

theorem crowded_names_unlike :
    (∀ t ∈ crowded.directories, t.isEmpty = false → t.name.isSome = true) ∧ crowded.Uncounted ∧
      ∃ parts, renderParts {} crowded = .ok parts ∧
        namesOf [] (outline crowded) =
          ["call_2", "users", "users_2", "user_profile", "user_profile_2"] ∧
        (namesOf ["users_2"] (outline crowded)).Nodup ∧
        namesOf ["users_2"] (outline crowded) = ["list"] ∧
        ((outline crowded).flatMap Item.declared).map Declared.name =
          ["Page", "Page_2", "Page_3", "Page_4", "Page_5"] := by
  have hnamed : ∀ t ∈ crowded.directories, t.isEmpty = false → t.name.isSome = true := by
    simp [crowded, Tree.directories, Tree.directoriesOfAll, Tree.name, Tree.isEmpty]
  have huncounted : crowded.Uncounted := by
    let names := ["call", "users", "list", "user_profile", "Page"]
    have hlast : ∀ name ∈ names, ∀ c ∈ name.toList.getLast?, c.isDigit = false := by simp [names]
    have hfunctions : ∀ e ∈ crowded.endpointsInOrder, e.functionName ∈ names := by decide
    have hdirectories : ∀ u ∈ crowded.directories, ∀ name ∈ u.name, toIdentifier name ∈ names := by
      decide
    have htypes : ∀ e ∈ crowded.endpointsInOrder, ∀ info ∈ e.types, info.name ∈ names := by decide
    exact ⟨fun e he => Registry.not_counted_of_last (hlast _ (hfunctions e he)),
      fun u hu _ name hname =>
        Registry.not_counted_of_last (hlast _ (hdirectories u hu name hname)),
      fun e he info hinfo => Registry.not_counted_of_last (hlast _ (htypes e he info hinfo))⟩
  obtain ⟨parts, hparts, -, -, -, -, hunlike, -, -, -, hown, -⟩ :=
    client_names_unlike {} hnamed huncounted
  have htop := (hown [] crowded (.here [] crowded)).1
  have hleads : Leads [] crowded ["users_2"]
      (.node (some "users") [.node none [] []] [crowded.listing ["users"] "list"]) :=
    .down (List.mem_of_getElem? (i := 0) rfl) (.here _ _)
  exact ⟨hnamed, huncounted, parts, hparts, htop.trans rfl, (hunlike _).1,
    (hown _ _ hleads).1.trans rfl, rfl⟩

end TypedRoutes.Render
