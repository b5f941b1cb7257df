import TypedRoutes.Proofs.ListTables
import TypedRoutes.Route.Json
import Mathlib.Data.List.Forall2
import Mathlib.Data.List.Perm.Basic
import Mathlib.Logic.Relation

/-! # Rearranged objects

The fields of an object come in any order, and others may stand among them.  What a value was
written from is read back whatever such changes are made to the objects in it, one after the other
and at every depth.
-/

namespace TypedRoutes.Json

/-- A change to one object somewhere in a value: its fields come in another order, or it gets a
field of a key that it does not have. -/
inductive Rearranges : Value → Value → Prop where
  | reorder {fields fields' : List (String × Value)} (order : fields.Perm fields') :
      Rearranges (.object fields) (.object fields')
  | add {fields : List (String × Value)} {key : String} (v : Value)
      (unknown : key ∉ fields.map Prod.fst) :
      Rearranges (.object fields) (.object ((key, v) :: fields))
  | field {before after : List (String × Value)} {key : String} {v v' : Value}
      (inside : Rearranges v v') :
      Rearranges (.object (before ++ (key, v) :: after)) (.object (before ++ (key, v') :: after))
  | item {before after : List Value} {v v' : Value} (inside : Rearranges v v') :
      Rearranges (.array (before ++ v :: after)) (.array (before ++ v' :: after))

abbrev Rearranged : Value → Value → Prop := Relation.ReflTransGen Rearranges

/-! ## What changes leave of a value -/

theorem Rearranged.eq_string {s : String} {v : Value} (h : Rearranged (.string s) v) :
    v = .string s :=
  (Relation.reflTransGen_iff_eq fun _ => nofun).1 h

theorem Rearranged.eq_null {v : Value} (h : Rearranged .null v) : v = .null :=
  (Relation.reflTransGen_iff_eq fun _ => nofun).1 h

theorem forall₂_replace {α β : Type} {R : α → β → Prop} {as : List α} {before after : List β}
    {b b' : β} (h : List.Forall₂ R as (before ++ b :: after)) (hb : ∀ a, R a b → R a b') :
    List.Forall₂ R as (before ++ b' :: after) := by
  induction before generalizing as with
  | nil =>
    obtain ⟨a, rest, ha, hrest, rfl⟩ := List.forall₂_cons_right_iff.1 h
    exact .cons (hb a ha) hrest
  | cons c before ih =>
    obtain ⟨a, rest, ha, hrest, rfl⟩ := List.forall₂_cons_right_iff.1 h
    exact .cons ha (ih hrest)

theorem Rearranged.exists_items {items : List Value} {v : Value} (h : Rearranged (.array items) v) :
    ∃ items', v = .array items' ∧ List.Forall₂ Rearranged items items' := by
  induction h with
  | refl => exact ⟨items, rfl, List.forall₂_same.2 fun _ _ => .refl⟩
  | tail _ step ih =>
    obtain ⟨items', rfl, hitems⟩ := ih
    cases step with
    | item inside => exact ⟨_, rfl, forall₂_replace hitems fun _ hv => hv.tail inside⟩

/-- All keys of some fields come among others, each of which has a key of its own, with their values
rearranged. -/
structure KeptAmong (fields fields' : List (String × Value)) : Prop where
  nodup : (fields'.map Prod.fst).Nodup
  kept : ∀ key v, (key, v) ∈ fields → ∃ v', (key, v') ∈ fields' ∧ Rearranged v v'

theorem KeptAmong.step {fields fields' : List (String × Value)} {w : Value}
    (h : KeptAmong fields fields') (step : Rearranges (.object fields') w) :
    ∃ fields'', w = .object fields'' ∧ KeptAmong fields fields'' := by
  cases step with
  | reorder order =>
    refine ⟨_, rfl, (order.map Prod.fst).nodup_iff.1 h.nodup, fun key v hv => ?_⟩
    obtain ⟨v', hmem, hv'⟩ := h.kept key v hv
    exact ⟨v', order.mem_iff.1 hmem, hv'⟩
  | add v unknown =>
    refine ⟨_, rfl, List.nodup_cons.2 ⟨unknown, h.nodup⟩, fun key v hv => ?_⟩
    obtain ⟨v', hmem, hv'⟩ := h.kept key v hv
    exact ⟨v', .tail _ hmem, hv'⟩
  | @field before after changed u u' inside =>
    refine ⟨_, rfl, by simpa using h.nodup, fun key v hv => ?_⟩
    obtain ⟨v', hmem, hv'⟩ := h.kept key v hv
    rcases List.mem_append.1 hmem with hbefore | hrest
    · exact ⟨v', List.mem_append_left _ hbefore, hv'⟩
    · rcases List.mem_cons.1 hrest with heq | hafter
      · cases heq
        exact ⟨u', by simp, hv'.tail inside⟩
      · exact ⟨v', by simp [hafter], hv'⟩

theorem Rearranged.exists_fields {fields : List (String × Value)} {v : Value}
    (hkeys : (fields.map Prod.fst).Nodup) (h : Rearranged (.object fields) v) :
    ∃ fields', v = .object fields' ∧ KeptAmong fields fields' := by
  induction h with
  | refl => exact ⟨fields, rfl, hkeys, fun _ v hv => ⟨v, hv, .refl⟩⟩
  | tail _ step ih =>
    obtain ⟨fields', rfl, hfields⟩ := ih
    exact hfields.step step

theorem KeptAmong.exists_lookup {fields fields' : List (String × Value)}
    (h : KeptAmong fields fields') {key : String} {v : Value} (hv : (key, v) ∈ fields) :
    ∃ v', fields'.lookup key = some v' ∧ Rearranged v v' := by
  obtain ⟨v', hmem, hv'⟩ := h.kept key v hv
  exact ⟨v', (lookup_eq_some_iff_mem h.nodup).2 hmem, hv'⟩

end TypedRoutes.Json

namespace TypedRoutes.Route
open TypedRoutes.Json

/-! ## Reading back -/

/-- What was written is read from its value and from all rearrangements of it. -/
def ReadsBack {α : Type} (encode : α → Value) (decode : Value → Option α) : Prop :=
  ∀ a v, Rearranged (encode a) v → decode v = some a

theorem readsBack_text : ReadsBack .string decodeText := by
  intro s v h
  rw [h.eq_string]
  rfl

section Parts
variable {α : Type} {encode : α → Value} {decode : Value → Option α}

theorem ReadsBack.option (h : ReadsBack encode decode) (hnull : decode .null = none) :
    ReadsBack (Value.ofOption encode) (decodeOption decode) := by
  intro a v hv
  cases a with
  | none =>
    rw [Rearranged.eq_null hv]
    rfl
  | some a =>
    have hread : decode v = some a := h a v hv
    have hne : v ≠ .null := by
      rintro rfl
      rw [hnull] at hread
      cases hread
    rw [decodeOption, hread, Option.map_some]
    exact hne

theorem ReadsBack.list (h : ReadsBack encode decode) :
    ReadsBack (fun as => .array (as.map encode)) (decodeList decode) := by
  intro as v hv
  obtain ⟨items, rfl, hitems⟩ := hv.exists_items
  change items.mapM decode = some as
  rw [List.forall₂_map_left_iff] at hitems
  clear hv
  induction hitems with
  | nil => rfl
  | cons hitem _ ih => simp [List.mapM_cons, h _ _ hitem, ih]

variable {fields fields' : List (String × Value)} {key : String} {a : α}

theorem ReadsBack.required (h : ReadsBack encode decode) (hkept : KeptAmong fields fields')
    (hmem : (key, encode a) ∈ fields) : required fields' key decode = some a := by
  obtain ⟨v, hlookup, hv⟩ := hkept.exists_lookup hmem
  rw [Route.required, hlookup]
  exact h a v hv

theorem ReadsBack.optional (h : ReadsBack encode decode) (hnull : decode .null = none)
    {a : Option α} (hkept : KeptAmong fields fields')
    (hmem : (key, Value.ofOption encode a) ∈ fields) : optional fields' key decode = some a := by
  obtain ⟨v, hlookup, hv⟩ := hkept.exists_lookup hmem
  rw [Route.optional, hlookup]
  exact h.option hnull a v hv

end Parts

theorem readsBack_typeInfo : ReadsBack TypeInfo.toJson TypeInfo.ofJson? := by
  intro t v h
  obtain ⟨fields, rfl, hkept⟩ := Rearranged.exists_fields (by simp) h
  rw [TypeInfo.ofJson?, readsBack_text.required (a := t.name) hkept (by simp),
    readsBack_text.required (a := t.declaration) hkept (by simp)]
  rfl

theorem readsBack_endpoint : ReadsBack Endpoint.toJson Endpoint.ofJson? := by
  intro e v h
  obtain ⟨fields, rfl, hkept⟩ := Rearranged.exists_fields (by simp) h
  rw [Endpoint.ofJson?, readsBack_text.list.required (a := e.pathSegments) hkept (by simp),
    readsBack_text.required (a := e.functionName) hkept (by simp),
    readsBack_text.required (a := e.sourceFileName) hkept (by simp),
    readsBack_typeInfo.optional (a := e.body) rfl hkept (by simp),
    readsBack_typeInfo.required (a := e.returns) hkept (by simp)]
  rfl

namespace Tree

theorem childrenIn_eq (fields : List (String × Value)) :
    childrenIn fields = (fields.lookup "children").bind childrenOf := by
  induction fields with
  | nil => rfl
  | cons field fields ih =>
    obtain ⟨key, v⟩ := field
    rw [childrenIn, List.lookup_cons]
    by_cases h : key = "children"
    · simp [h]
    · have hne : ("children" == key) = false := beq_eq_false_iff_ne.2 (Ne.symm h)
      rw [if_neg h, ih, hne]

mutual

theorem ofJson?_of_rearranged :
    ∀ (t : Tree) (v : Value), Rearranged t.toJson v → ofJson? v = some t
  | .node name children endpoints, v, h => by
    rw [toJson] at h
    obtain ⟨fields, rfl, hkept⟩ := Rearranged.exists_fields (by simp) h
    have hchildren : ("children", Value.array (allToJson children)) ∈
        [("name", Value.ofOption .string name), ("children", .array (allToJson children)),
          ("endpoints", .array (endpoints.map Endpoint.toJson))] := by simp
    obtain ⟨below, hlookup, hbelow⟩ := hkept.exists_lookup hchildren
    obtain ⟨items, rfl, hitems⟩ := hbelow.exists_items
    rw [ofJson?, readsBack_text.optional (a := name) rfl hkept (by simp), childrenIn_eq, hlookup,
      readsBack_endpoint.list.required (a := endpoints) hkept (by simp)]
    simp [childrenOf, allOfJson?_of_rearranged children items hitems]

theorem allOfJson?_of_rearranged :
    ∀ (ts : List Tree) (vs : List Value), List.Forall₂ Rearranged (allToJson ts) vs →
      allOfJson? vs = some ts
  | [], vs, h => by
    rw [allToJson, List.forall₂_nil_left_iff] at h
    rw [h, allOfJson?]
  | t :: ts, vs, h => by
    rw [allToJson] at h
    obtain ⟨v, rest, hv, hrest, rfl⟩ := List.forall₂_cons_left_iff.1 h
    simp [allOfJson?, ofJson?_of_rearranged t v hv, allOfJson?_of_rearranged ts rest hrest]

end

/-- A tree is read back from the value that it is written as, and from every rearrangement of that:
the fields of all objects in it, at every depth, may come in another order and with fields of
unknown keys among them.  Every record is written with all its fields, so no key that comes anew
is one of them. -/
theorem tree_read_back (t : Tree) :
    ofJson? t.toJson = some t ∧ ∀ v, Rearranged t.toJson v → ofJson? v = some t :=
  ⟨t.ofJson?_of_rearranged _ .refl, t.ofJson?_of_rearranged⟩

theorem annotated_tree_read_back :
    let e : Endpoint := ⟨["api"], "list", "list.ts", none, ⟨"Page", "type Page = {};"⟩⟩
    let t : Tree := .node none [.node (some "api") [] [e]] []
    let page : Value := .object [("kind", .object [("name", .null)]), ("name", .string "Page"),
      ("declaration", .string "type Page = {};")]
    let list : Value := .object [("pathSegments", .array [.string "api"]),
      ("functionName", .string "list"), ("sourceFileName", .string "list.ts"), ("body", .null),
      ("returns", page)]
    let api : Value := .object
      [("name", .string "api"), ("children", .array []), ("endpoints", .array [list])]
    let v : Value := .object
      [("children", .array [api]), ("name", .null), ("endpoints", .array [])]
    Rearranged t.toJson v ∧ ofJson? v = some t := by
  intro e t page list api v
  have hpage : Rearranges e.returns.toJson page := .add _ (by decide)
  have hlist : Rearranges e.toJson list := @Rearranges.field [_, _, _, _] [] "returns" _ _ hpage
  have hapi : Rearranges (.array (allToJson t.children)) (.array [api]) :=
    @Rearranges.item [] [] _ _
      (@Rearranges.field [_, _] [] "endpoints" _ _ (@Rearranges.item [] [] _ _ hlist))
  have hroot : Rearranged t.toJson v :=
    .head (.reorder (.swap _ _ _)) (.single (@Rearranges.field [] [_, _] "children" _ _ hapi))
  exact ⟨hroot, (tree_read_back t).2 v hroot⟩

end Tree

end TypedRoutes.Route
