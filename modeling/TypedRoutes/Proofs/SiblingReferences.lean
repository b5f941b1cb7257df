import TypedRoutes.Proofs.CallPaths
import TypedRoutes.Proofs.RenamedText

/-! # What the two types of an endpoint say about each other

A declaration is renamed for its own name only.  So where it refers to the other type of its
endpoint, it keeps the name that the other type had, and agrees with the other declaration exactly
if that one has kept its name as well.
-/

namespace TypedRoutes.Render
open TypedRoutes.Text TypedRoutes.Naming TypedRoutes.Route TypedRoutes.Template

/-! ## Places in a declaration -/

structure HasName (declaration name : String) (before after : List Char) : Prop where
  text : declaration.toList = before ++ name.toList ++ after
  starts : before.getLast?.any isNamePart = false
  ends : after.head?.any isNamePart = false

def IsWord (name : String) : Prop := ∀ c ∈ name.toList, isWordCharacter c = true

instance (name : String) : Decidable (IsWord name) :=
  decidable_of_iff (name.toList.all isWordCharacter = true) (by simp [IsWord])

/-- Which places in a declaration refer to the type of a name. -/
abbrev Reading := String → String → List Char → List Char → Prop

/-- Only whole names refer to a type, and those with a dollar sign only where a renaming would
take them for a reference. -/
def Reading.Sound (refers : Reading) : Prop :=
  ∀ declaration name before after, refers declaration name before after →
    HasName declaration name before after ∧
      (isKept before.getLast? after = false ∨ IsWord name)

/-- Whole names refer to a type unless they are a key, a member or quoted. -/
def unkept : Reading := fun declaration name before after =>
  HasName declaration name before after ∧ isKept before.getLast? after = false

theorem sound_unkept : unkept.Sound := fun _ _ _ _ h => ⟨h.1, .inl h.2⟩

namespace Declared

/-- What each character of the declaration has become. -/
def images (d : Declared) : List (List Char) :=
  if d.info.name = d.name then d.info.declaration.toList.map fun c => [c]
  else renameImages d.info.name.toList d.name.toList none 0 d.info.declaration.toList

theorem length_images (d : Declared) : d.images.length = d.info.declaration.toList.length := by
  unfold images
  split
  · simp
  · exact length_renameImages ..

theorem declaration_eq {d : Declared} (hd : IsName d.info.name.toList) :
    d.declaration = exportedDeclaration (String.ofList d.images.flatten) := by
  unfold declaration images renameDeclaredType
  split
  · simp [← List.flatMap_def]
  · rw [flatten_renameImages _ hd.1]

/-- What the declaration has where a name stood after some text. -/
def textAt (d : Declared) (before : List Char) (name : String) : String :=
  String.ofList ((d.images.drop before.length).take name.toList.length).flatten

/-- The name that the declaration has for another type, after it was renamed itself. -/
def nameFor (d : Declared) (name : String) : String :=
  renameDeclaredType name d.info.name d.name

theorem nameFor_word {d : Declared} {name : String} (hd : IsName d.info.name.toList)
    (hname : IsWord name) (hne : d.info.name ≠ name) : d.nameFor name = name := by
  unfold nameFor renameDeclaredType
  split
  · rfl
  · have hne' : name.toList ≠ d.info.name.toList := fun h => hne (String.toList_inj.1 h).symm
    rw [renameFrom_word _ hd hname (.inr hne'), String.ofList_toList]

/-- Wherever another type is referred to, the declaration has the same name for it. -/
theorem textAt_eq {refers : Reading} (hrefers : refers.Sound) {d : Declared} {name : String}
    (hd : IsName d.info.name.toList) (hname : IsName name.toList) (hne : d.info.name ≠ name)
    {before after : List Char} (h : refers d.info.declaration name before after) :
    d.textAt before name = d.nameFor name := by
  obtain ⟨⟨htext, hstarts, hends⟩, hplace⟩ := hrefers _ _ _ _ h
  by_cases hsame : d.info.name = d.name
  · have himages : d.images = (before ++ name.toList ++ after).map fun c => [c] := by
      rw [images, if_pos hsame, htext]
    rw [textAt, himages, nameFor, renameDeclaredType, if_pos hsame]
    simp [← List.flatMap_def]
  · rw [textAt, images, if_neg hsame, htext]
    rcases hplace with hfree | hword
    · rw [renameImages_name _ hd hname.2 hstarts hends hfree, nameFor, renameDeclaredType,
        if_neg hsame]
    · have hne' : name.toList ≠ d.info.name.toList := fun h => hne (String.toList_inj.1 h).symm
      rw [renameImages_word _ hd hword hne' hstarts hends, nameFor_word hd hword hne,
        String.ofList_toList]

def Mentions (refers : Reading) (d other : Declared) : Prop :=
  ∃ before after, refers d.info.declaration other.info.name before after

/-- Wherever the declaration referred to another type, it has the name that the other one is
declared under. -/
def Follows (refers : Reading) (d other : Declared) : Prop :=
  ∀ before after, refers d.info.declaration other.info.name before after →
    d.textAt before other.info.name = other.name

theorem follows_iff {refers : Reading} (hrefers : refers.Sound) {d other : Declared}
    (hd : IsName d.info.name.toList) (hother : IsName other.info.name.toList)
    (hne : d.info.name ≠ other.info.name) :
    d.Follows refers other ↔
      (d.Mentions refers other → d.nameFor other.info.name = other.name) := by
  constructor
  · rintro h ⟨before, after, hplace⟩
    rw [← textAt_eq hrefers hd hother hne hplace]
    exact h before after hplace
  · intro h before after hplace
    rw [textAt_eq hrefers hd hother hne hplace]
    exact h ⟨before, after, hplace⟩

end Declared

/-! ## The types of an endpoint -/

/-- A type that is referred to is declared under the name that the declaration has for it. -/
def Declared.Agrees (refers : Reading) (d other : Declared) : Prop :=
  d.Mentions refers other → d.nameFor other.info.name = other.name

/-- Among words a declaration has the right name for its sibling exactly if that was not
numbered. -/
theorem agrees_word_iff {refers : Reading} {d other : Declared} (hd : IsName d.info.name.toList)
    (hother : IsWord other.info.name) (hne : d.info.name ≠ other.info.name) :
    d.Agrees refers other ↔ (d.Mentions refers other → other.name = other.info.name) := by
  rw [Declared.Agrees, Declared.nameFor_word hd hother hne]
  exact imp_congr_right fun _ => eq_comm

/-- In a rendered client the two types of an endpoint follow each other wherever they refer to each
other, exactly if each that mentions the other has the name it is declared under. -/
theorem siblings_follow_iff {refers : Reading} (hrefers : refers.Sound) (options : Options)
    (tree : Tree) {template client : String}
    (hclient : renderClient options tree template = .ok client) {i : Nat} {e : Endpoint}
    (he : tree.endpointsInOrder[i]? = some e) {t : TypeInfo} (ht : e.body = some t)
    (hb : IsName t.name.toList) (hr : IsName e.returns.name.toList)
    (hne : t.name ≠ e.returns.name) :
    ∃ c m b,
      fillClient options tree (.ofTemplate "client" template) = .ok c ∧
      finish options c = .ok client ∧
      c.chunks "types" = [(typesText options tree).buffer] ∧
      ((outline tree).filterMap Item.method?)[i]? = some m ∧
      m.endpoint = e ∧ m.body = some b ∧ b.info = t ∧ m.returns.info = e.returns ∧
      (∀ d ∈ [b, m.returns], d.Numbered ∧
        d.images.length = d.info.declaration.toList.length ∧
        d.declaration = exportedDeclaration (String.ofList d.images.flatten) ∧
        (m.namespaces.length + 1, d.declaration) ∈ (outline tree).flatMap Item.typeTexts) ∧
      (b.Follows refers m.returns ∧ m.returns.Follows refers b ↔
        b.Agrees refers m.returns ∧ m.returns.Agrees refers b) ∧
      (IsWord t.name → IsWord e.returns.name →
        (b.Follows refers m.returns ∧ m.returns.Follows refers b ↔
          (b.Mentions refers m.returns → m.returns.name = e.returns.name) ∧
            (m.returns.Mentions refers b → b.name = t.name))) := by
  obtain ⟨c, hfill, hfinish, -, htypes, -⟩ := filled_of_renderClient hclient
  obtain ⟨m, hm, hme⟩ : ∃ m, ((outline tree).filterMap Item.method?)[i]? = some m ∧
      m.endpoint = e := by
    rw [← endpoints_outline, List.getElem?_map, Option.map_eq_some_iff] at he
    exact he
  have hmem := List.mem_of_getElem? hm
  obtain ⟨hbodyInfo, hreturnsInfo, hbodyNumbered, hreturnsNumbered⟩ := typed_of_method hmem
  rw [hme] at hbodyInfo hreturnsInfo
  obtain ⟨b, hmb, hinfo⟩ := Option.map_eq_some_iff.1 (hbodyInfo.trans ht)
  have hitem : .method m ∈ outline tree := by
    obtain ⟨item, hin, hsome⟩ := List.mem_filterMap.1 hmem
    cases item <;> cases hsome
    exact hin
  subst hinfo
  rw [← hreturnsInfo] at hr hne
  have hfollow : b.Follows refers m.returns ∧ m.returns.Follows refers b ↔
      b.Agrees refers m.returns ∧ m.returns.Agrees refers b :=
    and_congr (Declared.follows_iff hrefers hb hr hne)
      (Declared.follows_iff hrefers hr hb hne.symm)
  refine ⟨c, m, b, hfill, hfinish, htypes, hm, hme, hmb, rfl, hreturnsInfo, ?_, hfollow, ?_⟩
  · intro d hd
    have htext : (m.namespaces.length + 1, d.declaration) ∈
        (outline tree).flatMap Item.typeTexts :=
      List.mem_flatMap.2 ⟨_, hitem, List.mem_map.2 ⟨d, by simpa [hmb] using hd, rfl⟩⟩
    rcases List.mem_cons.1 hd with rfl | hd
    · exact ⟨hbodyNumbered _ hmb, Declared.length_images _, Declared.declaration_eq hb, htext⟩
    · obtain rfl := List.mem_singleton.1 hd
      exact ⟨hreturnsNumbered, Declared.length_images _, Declared.declaration_eq hr, htext⟩
  · rw [← hreturnsInfo]
    intro hbword hrword
    rw [hfollow, agrees_word_iff hb hrword hne, agrees_word_iff hr hbword hne.symm]

def pageType : TypeInfo := ⟨"Page", "type Page = \x7b items: User[] \x7d;"⟩

def userType : TypeInfo := ⟨"User", "type User = \x7b id: string \x7d;"⟩

def pageEndpoint (directory : String) : Endpoint where
  pathSegments := [directory]
  functionName := "list"
  sourceFileName := "list.ts"
  body := some pageType
  returns := userType

def pageHandlers (directories : List String) : Tree :=
  .node none (directories.map fun d => .node (some d) [] [pageEndpoint d]) []

theorem unkept_page : unkept pageType.declaration userType.name
    "type Page = \x7b items: ".toList "[] \x7d;".toList :=
  ⟨⟨by decide +kernel, by decide +kernel, by decide +kernel⟩, by decide +kernel⟩

theorem renderClient_pageHandlers (options : Options) (directories : List String) :
    ∃ client, renderClient options (pageHandlers directories) bareClient = .ok client := by
  obtain ⟨client, hfinish⟩ := finish_ok options
    (filledClient options (pageHandlers directories) (.ofTemplate "client" bareClient))
  refine ⟨client, (renderClient_ok_iff ..).2 ⟨by decide +kernel, ?_, hfinish⟩⟩
  have hnamed : ∀ ds : List String, Tree.allNamed
      (ds.map fun d => .node (some d) [] [pageEndpoint d]) = true := by
    intro ds
    induction ds with
    | nil => rfl
    | cons d ds ih => simp [Tree.allNamed, Tree.name, Tree.belowNamed, ih]
  exact hnamed directories

/-- With one such directory no type is numbered, and the page has the right name for its users. -/
theorem onePage_follows :
    ∃ client c m b, renderClient {} (pageHandlers ["a"]) bareClient = .ok client ∧
      fillClient {} (pageHandlers ["a"]) (.ofTemplate "client" bareClient) = .ok c ∧
      ((outline (pageHandlers ["a"])).filterMap Item.method?)[0]? = some m ∧
      m.body = some b ∧ b.Mentions unkept m.returns ∧
      b.Follows unkept m.returns ∧ m.returns.Follows unkept b := by
  obtain ⟨client, hclient⟩ := renderClient_pageHandlers {} ["a"]
  obtain ⟨c, m, b, hc, -, -, hm, -, hb, -, -, -, -, hiff⟩ :=
    siblings_follow_iff sound_unkept {} (pageHandlers ["a"]) hclient (i := 0)
      (e := pageEndpoint "a") (t := pageType) rfl rfl (by decide +kernel) (by decide +kernel)
      (by decide)
  have hmethod : ((outline (pageHandlers ["a"])).filterMap Item.method?)[0]? =
      some ⟨pageEndpoint "a", ["a"], "list", some ⟨pageType, "Page"⟩, ⟨userType, "User"⟩⟩ := by
    decide +kernel
  obtain rfl := Option.some.inj (hm.symm.trans hmethod)
  obtain rfl := Option.some.inj hb
  refine ⟨client, c, _, _, hclient, hc, hm, rfl, ⟨_, _, unkept_page⟩, ?_⟩
  exact (hiff (by decide +kernel) (by decide +kernel)).2 ⟨fun _ => rfl, fun _ => rfl⟩

/-- With two, the second page still refers to its users by the name that the first ones have. -/
theorem twoPages_differ :
    ∃ client m b, renderClient {} (pageHandlers ["a", "b"]) bareClient = .ok client ∧
      ((outline (pageHandlers ["a", "b"])).filterMap Item.method?)[1]? = some m ∧
      m.endpoint = pageEndpoint "b" ∧ m.body = some b ∧
      unkept b.info.declaration m.returns.info.name "type Page = \x7b items: ".toList
        "[] \x7d;".toList ∧
      b.declaration = "export type Page_2 = \x7b items: User[] \x7d;" ∧
      b.textAt "type Page = \x7b items: ".toList "User" = "User" ∧ m.returns.name = "User_2" ∧
      ¬b.Follows unkept m.returns := by
  obtain ⟨client, hclient⟩ := renderClient_pageHandlers {} ["a", "b"]
  have htext : Declared.textAt ⟨pageType, "Page_2"⟩ "type Page = \x7b items: ".toList "User" =
      "User" := by
    decide +kernel
  refine ⟨client, ⟨pageEndpoint "b", ["b"], "list", some ⟨pageType, "Page_2"⟩,
    ⟨userType, "User_2"⟩⟩, _, hclient, by decide +kernel, rfl, rfl, unkept_page, by decide +kernel,
    htext, rfl, fun h => ?_⟩
  have hsame := h _ _ unkept_page
  rw [show userType.name = "User" from rfl, htext] at hsame
  exact absurd hsame (by decide)

end TypedRoutes.Render
