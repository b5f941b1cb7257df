import TypedRoutes.Proofs.PlainIdentifiers
import TypedRoutes.Proofs.ScopeMembers

/-! # Names of scopes

A scope of a client is named by the identifier of its directory, counted among the members that
stand beside it.  So its name is always a plain identifier; but nothing keeps it from being a
reserved word, and it is one exactly if a directory is called by the word and no endpoint beside it
has taken the name before.
-/

namespace TypedRoutes.Naming.Registry

theorem occurrences_claimed (r : Registry) (xs : List String) (name : String) :
    (r.claimed xs).occurrences name = r.occurrences name + xs.count name := by
  induction xs generalizing r with
  | nil => rfl
  | cons x xs ih =>
    have hrest : (r.claimed (x :: xs)).occurrences name =
        ((r.claim x).2.claimed xs).occurrences name := rfl
    rw [hrest, ih, occurrences_claim, List.count_cons]
    simp only [beq_iff_eq, @eq_comm _ x name]
    omega

/-- After other claims a name that does not end in a digit is handed out as it is exactly if it is
claimed for the first time. -/
theorem mem_claimAll_claimed_iff {name : String}
    (hlast : ∀ c ∈ name.toList.getLast?, c.isDigit = false) (r : Registry) (xs ys : List String) :
    name ∈ (r.claimed xs).claimAll ys ↔ name ∈ ys ∧ name ∉ xs ∧ r.occurrences name = 0 := by
  rw [mem_claimAll_iff]
  constructor
  · rintro ⟨x, n, hlow, hhigh, h⟩
    obtain ⟨rfl, rfl⟩ := eq_of_eq_suffixed hlast (by omega) h
    rw [occurrences_claimed] at hlow hhigh
    exact ⟨List.count_pos_iff.1 (by omega), List.count_eq_zero.1 (by omega), by omega⟩
  · rintro ⟨hys, hxs, hnone⟩
    have hcount := List.count_pos_iff.2 hys
    have hfree : (r.claimed xs).occurrences name = 0 := by
      rw [occurrences_claimed, hnone, List.count_eq_zero.2 hxs]
    exact ⟨name, 1, by omega, by omega, rfl⟩

end TypedRoutes.Naming.Registry

namespace TypedRoutes.Route.Tree

theorem isEmpty_eq_false_of_mem_directories {t u : Tree} (hu : u ∈ t.directories)
    (hfull : u.isEmpty = false) : t.isEmpty = false := by
  rw [← Bool.not_eq_true] at hfull ⊢
  exact fun hempty => hfull (isEmpty_of_mem_directories t hempty hu)

end TypedRoutes.Route.Tree

namespace TypedRoutes.Render
open TypedRoutes.Text TypedRoutes.Naming TypedRoutes.Route TypedRoutes.Template

/-! ## Scopes that are opened -/

/-- A scope is opened for each directory that holds an endpoint, in the scope of its parent. -/
theorem opening_mem_nodeItems_iff (scopes : List String) (types : Registry) (t : Tree)
    {target : List String} {name : String} :
    .opening target name ∈ (nodeItems scopes types t).1 ↔
      ∃ u, Leads scopes t target u ∧ name ∈ (groups target.length u).map Prod.fst := by
  obtain ⟨ms, gs, hitems, -, -, -, hgroups⟩ := nodeItems_eq scopes types t
  have hmethod : Item.opening target name ∉ ms.map .method := by simp
  rw [hitems, List.mem_append, or_iff_right hmethod, List.mem_flatMap]
  have hinside : ∀ g ∈ gs, Item.opening target name ∈ g.inside scopes ↔
      ∃ u, Leads (scopes ++ [g.name]) g.directory target u ∧
        name ∈ (groups target.length u).map Prod.fst := by
    intro g hg
    have hgroup : (g.name, g.directory) ∈ groups scopes.length t :=
      hgroups ▸ List.mem_map_of_mem hg
    have hchild : g.directory ∈ t.children := List.mem_of_mem_filter (List.of_mem_zip hgroup).2
    have hsize := Tree.sizeOf_lt_of_mem_children hchild
    exact opening_mem_nodeItems_iff (scopes ++ [g.name]) g.types g.directory
  constructor
  · rintro ⟨g, hg, hmem⟩
    have hgroup : (g.name, g.directory) ∈ groups scopes.length t :=
      hgroups ▸ List.mem_map_of_mem hg
    rw [Group.items, List.cons_append, List.mem_cons, List.mem_append] at hmem
    rcases hmem with hown | hbelow | hclosing
    · obtain ⟨rfl, rfl⟩ := Item.opening.inj hown
      exact ⟨t, .here target t, List.mem_map_of_mem hgroup⟩
    · obtain ⟨u, hleads, hname⟩ := (hinside g hg).1 hbelow
      exact ⟨u, .down hgroup hleads, hname⟩
    · simp at hclosing
  · rintro ⟨u, hleads, hname⟩
    cases hleads with
    | here =>
      obtain ⟨⟨_, c⟩, hgroup, rfl⟩ := List.mem_map.1 hname
      obtain ⟨g, hg, hsame⟩ := List.mem_map.1 (hgroups ▸ hgroup)
      cases hsame
      exact ⟨g, hg, List.mem_cons_self⟩
    | @down _ _ _ c _ first group rest =>
      obtain ⟨g, hg, hsame⟩ := List.mem_map.1 (hgroups ▸ group)
      cases hsame
      have hbelow := (hinside g hg).2 ⟨u, rest, hname⟩
      exact ⟨g, hg, .tail _ (List.mem_append_left _ hbelow)⟩
termination_by t

theorem exists_group {t c : Tree} (h : c ∈ t.filled) (level : Nat) :
    ∃ name, (name, c) ∈ groups level t := by
  have hdirectories : (groups level t).map Prod.snd = t.filled := by
    rw [groups_eq, List.map_snd_zip (by simp)]
  obtain ⟨⟨name, c⟩, hgroup, rfl⟩ := List.mem_map.1 (hdirectories ▸ h)
  exact ⟨name, hgroup⟩

theorem Leads.mem_directories {scopes target : List String} {t u : Tree}
    (h : Leads scopes t target u) : u ∈ t :: t.directories := by
  induction h with
  | here => exact List.mem_cons_self
  | @down _ _ t c _ _ group _ ih =>
    have hchild : c ∈ t.children := List.mem_of_mem_filter (List.of_mem_zip group).2
    rcases List.mem_cons.1 ih with rfl | hbelow
    · exact .tail _ (Tree.mem_directories_of_mem_children hchild)
    · exact .tail _ (Tree.directories_subset_of_mem_children hchild hbelow)

theorem exists_leads_of_mem_directories (scopes : List String) (t : Tree) {u : Tree}
    (hu : u ∈ t.directories) (hfull : u.isEmpty = false) : ∃ target, Leads scopes t target u := by
  rw [Tree.directories_eq, List.mem_flatMap] at hu
  obtain ⟨c, hchild, hu⟩ := hu
  have hsize := Tree.sizeOf_lt_of_mem_children hchild
  have hfilled : c.isEmpty = false := by
    rcases List.mem_cons.1 hu with rfl | hbelow
    · exact hfull
    · exact Tree.isEmpty_eq_false_of_mem_directories hbelow hfull
  obtain ⟨name, hgroup⟩ := exists_group (List.mem_filter.2 ⟨hchild, by simp [hfilled]⟩)
    scopes.length
  rcases List.mem_cons.1 hu with rfl | hbelow
  · exact ⟨_, .down hgroup (.here _ u)⟩
  · obtain ⟨target, hleads⟩ := exists_leads_of_mem_directories (scopes ++ [name]) c hbelow hfull
    exact ⟨target, .down hgroup hleads⟩
termination_by t

/-! ## Names that are not counted -/

/-- A directory has a name that does not end in a digit exactly if it is called so, and no member of
its scope has been before. -/
theorem mem_groups_iff {name : String} (hlast : ∀ c ∈ name.toList.getLast?, c.isDigit = false)
    (hfree : name ∉ clientMembers) (level : Nat) (t : Tree) :
    name ∈ (groups level t).map Prod.fst ↔
      (∃ c ∈ t.filled, toIdentifier (c.name.getD "") = name) ∧
        ∀ e ∈ t.endpoints, e.functionName ≠ name := by
  have hscope : (scopeMembers level).occurrences name = 0 := by
    rw [scopeMembers_eq, Registry.occurrences_reserving, if_neg]
    split
    · exact hfree
    · exact List.not_mem_nil
  rw [groups_eq, List.map_fst_zip (by simp), Registry.mem_claimAll_claimed_iff hlast]
  simp only [hscope, and_true, List.mem_map, not_exists, not_and, ne_eq]

/-- Every scope has the identifier of its directory, which may be counted. -/
theorem exists_suffixed_of_mem_groups {level : Nat} {t : Tree} {name : String}
    (h : name ∈ (groups level t).map Prod.fst) :
    ∃ c ∈ t.filled, ∃ n, name = Registry.suffixed (toIdentifier (c.name.getD "")) n := by
  rw [groups_eq, List.map_fst_zip (by simp), Registry.mem_claimAll_iff] at h
  obtain ⟨x, n, hlow, hhigh, rfl⟩ := h
  have hclaimed : 0 < (t.filled.map fun c => toIdentifier (c.name.getD "")).count x := by omega
  obtain ⟨c, hc, rfl⟩ := List.mem_map.1 (List.count_pos_iff.1 hclaimed)
  exact ⟨c, hc, n, rfl⟩

theorem moduleWords_free : ∀ w ∈ moduleWords, w ∉ clientMembers := by decide +kernel

/-- Whatever the directories of a tree are called, its client opens only scopes with plain
identifiers, and writes these into the types and the methods.  A reserved word is the name of a
scope exactly if a directory is called by the word and no endpoint beside it has the name.  What is
a plain identifier is its own identifier, as every identifier is. -/
theorem scopes_reserved_iff (options : Options) (tree : Tree) :
    ((∃ parts, renderParts options tree = .ok parts) ↔
      ∀ t ∈ tree.directories, t.isEmpty = false → t.name.isSome = true) ∧
    (∀ parts, renderParts options tree = .ok parts →
      parts.types = typesText options tree ∧
      parts.functions = CodeWriter.writeAll ⟨options.indent, ""⟩
        ((outline tree).map (Item.functionText options))) ∧
    (∀ scopes name, .opening scopes name ∈ outline tree →
      IsPlainIdentifier name ∧
      Item.typeTexts (.opening scopes name) =
        [(scopes.length + 1, "export namespace " ++ name ++ " \x7b")] ∧
      Item.functionText options (.opening scopes name) =
        (scopes.length, name ++ binder scopes ++ " \x7b")) ∧
    (∀ w ∈ moduleWords, (∃ scopes, .opening scopes w ∈ outline tree) ↔
      ∃ t ∈ tree :: tree.directories,
        (∃ c ∈ t.filled, c.name = some w) ∧ ∀ e ∈ t.endpoints, e.functionName ≠ w) ∧
    (IsPlainIdentifier typesNamespace ∧ typesNamespace ∉ moduleWords) ∧
    (∀ name, IsPlainIdentifier name → toIdentifier name = name) ∧
    ∀ name, toIdentifier (toIdentifier name) = toIdentifier name := by
  have hparts := renderParts_eq options tree
  refine ⟨?_, ?_, ?_, ?_, ⟨by decide +kernel, by decide +kernel⟩,
    fun _ => toIdentifier_of_plain, toIdentifier_toIdentifier⟩
  · rw [← tree.belowNamed_iff, hparts]
    split <;> simp [*]
  · intro parts hok
    rw [hparts] at hok
    split at hok
    · cases hok
      exact ⟨rfl, rfl⟩
    · cases hok
  · intro scopes name hopening
    obtain ⟨u, -, hname⟩ := (opening_mem_nodeItems_iff [] .empty tree).1 hopening
    obtain ⟨c, -, n, rfl⟩ := exists_suffixed_of_mem_groups hname
    exact ⟨Registry.suffixed_plain (toIdentifier_plain _) n, rfl,
      functionText_opening options scopes _⟩
  · intro w hw
    have hletters := moduleWords_letters w hw
    have hgroup := mem_groups_iff hletters.2 (moduleWords_free w hw)
    have hcalled : ∀ c : Tree, toIdentifier (c.name.getD "") = w ↔ c.name = some w := by
      intro c
      rw [toIdentifier_eq_iff (moduleWords_plain w hw) hletters.1]
      cases c.name with
      | none => simp [ne_of_mem_of_not_mem hw (show "" ∉ moduleWords by decide +kernel) |>.symm]
      | some name => simp
    simp only [outline, opening_mem_nodeItems_iff, hgroup, hcalled]
    constructor
    · rintro ⟨scopes, t, hleads, hnames⟩
      exact ⟨t, hleads.mem_directories, hnames⟩
    · rintro ⟨t, ht, ⟨c, hc, hname⟩, hfree⟩
      obtain ⟨scopes, hleads⟩ : ∃ scopes, Leads [] tree scopes t := by
        rcases List.mem_cons.1 ht with rfl | hbelow
        · exact ⟨[], .here [] t⟩
        · obtain ⟨hchild, hfull⟩ := List.mem_filter.1 hc
          exact exists_leads_of_mem_directories [] tree hbelow
            (Tree.isEmpty_eq_false_of_mem_directories
              (Tree.mem_directories_of_mem_children hchild) (by simpa using hfull))
      exact ⟨scopes, t, hleads, ⟨c, hc, hname⟩, hfree⟩

/-- Directories with names of every kind: one that reads like another, one that begins with a digit,
an empty one, and a reserved word, beside an endpoint of that name and apart from it. -/
def verbs : Tree :=
  .node none
    [.node (some "user-profile") [] [listing ["user-profile"] "list"],
     .node (some "user_profile")
      [.node (some "delete") [] [listing ["user_profile", "delete"] "run"]]
      [listing ["user_profile"] "list"],
     .node (some "2fa") [] [listing ["2fa"] "list"],
     .node (some "") [] [listing [""] "list"],
     .node (some "delete") [.node (some "new") [] []] [listing ["delete"] "list"]]
    [listing [] "delete"]
where
  listing (segments : List String) (name : String) : Endpoint :=
    ⟨segments, name, name ++ ".ts", none, ⟨"Page", "export type Page = string[];"⟩⟩

theorem verbs_reserved :
    (∃ parts, renderParts {} verbs = .ok parts ∧
      (outline verbs).filterMap (fun
        | .opening scopes name => some (scopes, name)
        | _ => none) =
        [([], "user_profile"), ([], "user_profile_2"), (["user_profile_2"], "delete"), ([], "_2fa"),
          ([], "_"), ([], "delete_2")]) ∧
      IsPlainIdentifier "user_profile_2" ∧
      (∃ scopes, .opening scopes "delete" ∈ outline verbs) ∧
      ¬∃ scopes, .opening scopes "new" ∈ outline verbs := by
  obtain ⟨hrenders, -, hplain, hreserved, -⟩ := scopes_reserved_iff {} verbs
  have hnamed : ∀ t ∈ verbs.directories, t.isEmpty = false → t.name.isSome = true := by
    decide +kernel
  obtain ⟨parts, hparts⟩ := hrenders.2 hnamed
  refine ⟨⟨parts, hparts, by decide +kernel⟩, (hplain [] _ (by decide +kernel)).1,
    (hreserved _ (by decide +kernel)).2 (by decide +kernel), fun hnew => ?_⟩
  have hcalled := (hreserved _ (by decide +kernel)).1 hnew
  revert hcalled
  decide +kernel

def deletion : Tree :=
  .node none [.node (some "delete") [] [verbs.listing ["delete"] "run"]] []

/-- Its namespace is called by a word that no namespace can be called by. -/
theorem deletion_scope_reserved :
    (¬∀ scopes name, .opening scopes name ∈ outline deletion →
      IsPlainIdentifier name ∧ name ∉ moduleWords) ∧
    ∃ parts, renderParts {} deletion = .ok parts ∧ parts.types.buffer =
      "export namespace types \x7b\n\texport namespace delete \x7b\n" ++
      "\t\texport type Page = string[];\n\t\x7d\n\x7d\n" := by
  refine ⟨fun h => ?_, _, rfl, by decide +kernel⟩
  exact (h [] "delete" (by decide +kernel)).2 (by decide +kernel)

end TypedRoutes.Render
