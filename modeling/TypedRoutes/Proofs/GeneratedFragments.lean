import TypedRoutes.Render.Client
import TypedRoutes.Render.Router
import TypedRoutes.Proofs.CodeBlocks
import TypedRoutes.Proofs.QuotedLiterals

/-! # The text of generated fragments and what it says

Each fragment is filled in without a fault.  Its text is read back: an import gives the name it
binds and the module it names, a route the path and the name it leads to, a method the path it
posts to.  The readers find their way by quotes alone, so no name or path can mislead them.
-/

namespace TypedRoutes.Render
open TypedRoutes.Text TypedRoutes.Route TypedRoutes.Template

theorem renderFragment_line {pieces : List Piece} {bindings : Bindings} {s : String} {c : Char}
    (h : renderPieces bindings pieces = .ok (s ++ "\n")) (hs : s.toList.getLast? = some c)
    (hc : isWhitespace c = false) : renderFragment pieces bindings = .ok s := by
  simp [renderFragment, h, trimEnd_line hs hc, bind, Except.bind, pure, Except.pure]

/-! ## Imports -/

def importLine (name source : String) : String :=
  "import " ++ name ++ " from '" ++ escapeLiteral source ++ "';"

theorem renderFragment_import (name source : String) :
    renderFragment importFragment [("alias", .string name), ("source", .string source)] =
      .ok (importLine name source) := by
  refine renderFragment_line (c := ';') ?_ (by simp [importLine, List.getLast?_cons]) (by decide)
  simp [importFragment, renderPieces, Piece.render, List.lookup_cons, valueText, importLine,
    String.append_assoc, bind, Except.bind, pure, Except.pure]

/-- The name that an import binds, and the module it names. -/
def readImport? (line : String) : Option (String × String) := do
  let text ← dropBeginning? "import ".toList line.toList
  let (before, inside) ← splitLastQuote none (← dropEnding? "';".toList text)
  let name ← dropEnding? " from ".toList before
  let (source, _) ← readLiteral '\'' (inside ++ ['\''])
  return (String.ofList name, String.ofList source)

theorem readImport?_importLine (name source : String) :
    readImport? (importLine name source) = some (name, source) := by
  have hline : (importLine name source).toList =
      "import ".toList ++ (((name.toList ++ " from ".toList) ++
        '\'' :: source.toList.flatMap escapeLiteralChar) ++ "';".toList) := by
    simp [importLine]
  have hsplit := splitLastQuote_append none (name.toList ++ " from ".toList) source.toList
    (by simp [List.getLast?_cons])
  simp only [readImport?, hline, dropBeginning?_append, dropEnding?_append, hsplit,
    readLiteral_escape (.inl rfl), Option.bind_eq_bind, Option.bind_some, Option.pure_def,
    String.ofList_toList]

/-! ## Routes -/

namespace RouteStyle

/-- What a route of the style begins with, up to the quote before its path. -/
def opening : RouteStyle → String
  | table => "'POST "
  | register => "app.post('"

/-- What stands between the quote after the path and the name. -/
def middle : RouteStyle → String
  | table => ": "
  | register => ", "

def ending : RouteStyle → String
  | table => ","
  | register => ");"

end RouteStyle

def routeLine (style : RouteStyle) (path name : String) : String :=
  style.opening ++ escapeLiteral path ++ "'" ++ style.middle ++ name ++ style.ending

theorem renderFragment_route (style : RouteStyle) (path name : String) :
    renderFragment style.fragment [("alias", .string name), ("path", .string path)] =
      .ok (routeLine style path name) := by
  cases style with
  | table =>
    refine renderFragment_line (c := ',') ?_
      (by simp [routeLine, RouteStyle.ending, List.getLast?_cons]) (by decide)
    simp [RouteStyle.fragment, tableRouteFragment, renderPieces, Piece.render, List.lookup_cons,
      valueText, routeLine, RouteStyle.opening, RouteStyle.middle, RouteStyle.ending,
      String.append_assoc, bind, Except.bind, pure, Except.pure]
  | register =>
    refine renderFragment_line (c := ';') ?_
      (by simp [routeLine, RouteStyle.ending, List.getLast?_cons]) (by decide)
    simp [RouteStyle.fragment, registeredRouteFragment, renderPieces, Piece.render,
      List.lookup_cons, valueText, routeLine, RouteStyle.opening, RouteStyle.middle,
      RouteStyle.ending, String.append_assoc, bind, Except.bind, pure, Except.pure]

/-- The path of a route, and the name it leads to. -/
def readRoute? (style : RouteStyle) (line : String) : Option (String × String) := do
  let (path, rest) ← readLiteral '\'' (← dropBeginning? style.opening.toList line.toList)
  let name ← dropEnding? style.ending.toList (← dropBeginning? style.middle.toList rest)
  return (String.ofList path, String.ofList name)

theorem readRoute?_routeLine (style : RouteStyle) (path name : String) :
    readRoute? style (routeLine style path name) = some (path, name) := by
  have hline : (routeLine style path name).toList =
      style.opening.toList ++ (path.toList.flatMap escapeLiteralChar ++
        '\'' :: (style.middle.toList ++ (name.toList ++ style.ending.toList))) := by
    simp [routeLine]
  simp only [readRoute?, hline, dropBeginning?_append, dropEnding?_append,
    readLiteral_escape (.inl rfl), Option.bind_eq_bind, Option.bind_some, Option.pure_def,
    String.ofList_toList]

/-! ## Methods -/

def methodHead (options : Options) (member : String) (level : Nat) (bodyType : Option String)
    (returnType : String) : String :=
  member ++ (if level = 0 then " =" else ":") ++ " async (" ++
    (bodyType.elim "" ("body: " ++ ·)) ++ "): Promise<" ++ returnType ++ "> =>\n" ++
    options.indent ++ "this.call<" ++ bodyType.getD "void" ++ ", " ++ returnType

def methodEnd (level : Nat) (hasBody : Bool) : String :=
  "'" ++ (if hasBody then ", body" else "") ++ ")" ++ (if level = 0 then ";" else ",")

def methodText (options : Options) (e : Endpoint) (member : String) (level : Nat)
    (bodyType : Option String) (returnType : String) : String :=
  methodHead options member level bodyType returnType ++ ">('" ++
    escapeLiteral (e.httpPath options.endpointPathPrefix) ++ methodEnd level bodyType.isSome

theorem renderFragment_method (options : Options) (e : Endpoint) (member : String) (level : Nat)
    {bodyType : Option String} (hb : bodyType ≠ some "") (returnType : String) :
    renderFragment methodFragment (methodBindings options e member level bodyType returnType) =
      .ok (methodText options e member level bodyType returnType) := by
  have hend : ∃ c, isWhitespace c = false ∧
      (methodText options e member level bodyType returnType).toList.getLast? = some c := by
    by_cases hl : level = 0
    · refine ⟨';', by decide, ?_⟩
      simp [methodText, methodEnd, hl, List.getLast?_append, List.getLast?_cons]
    · refine ⟨',', by decide, ?_⟩
      simp [methodText, methodEnd, hl, List.getLast?_append, List.getLast?_cons]
  obtain ⟨c, hw, hc⟩ := hend
  refine renderFragment_line (c := c) ?_ hc hw
  cases bodyType with
  | none =>
    simp only [methodFragment, methodBindings, renderPieces, Piece.render, List.lookup_cons,
      isPresent, Option.any, bind, Except.bind, pure, Except.pure]
    refine congrArg Except.ok (String.toList_inj.1 ?_)
    simp [methodText, methodHead, methodEnd, valueText]
  | some b =>
    have hne : b ≠ "" := fun h => hb (h ▸ rfl)
    have hpresent : isPresent (.string b) = true := by simpa [isPresent] using hne
    simp only [methodFragment, methodBindings, renderPieces, Piece.render, List.lookup_cons,
      hpresent, Option.any, beq_self_eq_true, String.reduceBEq, if_true, bind, Except.bind, pure,
      Except.pure]
    refine congrArg Except.ok (String.toList_inj.1 ?_)
    simp [methodText, methodHead, methodEnd, valueText]

/-- What a call may end in, from the quote after its path on. -/
def callEndings : List (List Char) :=
  ["');".toList, "'),".toList, "', body);".toList, "', body),".toList]

/-- The path that a method posts to, the last literal in its block. -/
def readCall? (block : String) : Option String := do
  let text ← dropEnding? ['\n'] block.toList
  let (before, inside) ← splitLastQuote none (← callEndings.firstM (dropEnding? · text))
  if ">(".toList.isSuffixOf before && containsChars "this.call<".toList before then
    let (path, _) ← readLiteral '\'' (inside ++ ['\''])
    return String.ofList path
  else none

private theorem dropEnding_methodEnd (text : List Char) (level : Nat) (hasBody : Bool) :
    callEndings.firstM (dropEnding? · (text ++ (methodEnd level hasBody).toList)) = some text := by
  by_cases hl : level = 0 <;> cases hasBody <;>
    simp [callEndings, methodEnd, hl, List.firstM, dropEnding?, dropBeginning?]

private theorem toList_block_methodText (options : Options) (e : Endpoint) (member : String)
    (level : Nat) (bodyType : Option String) (returnType indent : String) (depth : Nat) :
    (CodeWriter.block indent depth
      (methodText options e member level bodyType returnType)).toList =
        (CodeWriter.lead indent depth (methodHead options member level bodyType returnType).toList ++
          ">(".toList ++ '\'' ::
            (e.httpPath options.endpointPathPrefix).toList.flatMap escapeLiteralChar) ++
          (methodEnd level bodyType.isSome).toList ++ ['\n'] := by
  let path := e.httpPath options.endpointPathPrefix
  have htext : methodText options e member level bodyType returnType = String.ofList
      ((methodHead options member level bodyType returnType).toList ++
        (">('".toList ++ path.toList.flatMap escapeLiteralChar ++
          (methodEnd level bodyType.isSome).toList)) := by
    refine String.toList_inj.1 ?_
    simp [methodText, path]
  have hn : '\n' ∉ (">('".toList ++ path.toList.flatMap escapeLiteralChar ++
      (methodEnd level bodyType.isSome).toList) := by
    simp only [List.mem_append, not_or]
    refine ⟨⟨by decide, lineBreak_notMem_escape _⟩, ?_⟩
    unfold methodEnd
    split <;> split <;> decide
  rw [htext, CodeWriter.toList_block_append (c := '>') _ _ _ hn (by simp) (by decide)]
  simp [path]

private theorem call_infix_lead (options : Options) (member : String) (level : Nat)
    (bodyType : Option String) (returnType indent : String) (depth : Nat) :
    "this.call<".toList <:+: CodeWriter.lead indent depth
      (methodHead options member level bodyType returnType).toList := by
  have hhead : (methodHead options member level bodyType returnType).toList =
      (member ++ (if level = 0 then " =" else ":") ++ " async (" ++
        (bodyType.elim "" ("body: " ++ ·)) ++ "): Promise<" ++ returnType ++ "> =>\n" ++
        options.indent).toList ++
        ("this.call<".toList ++ (bodyType.getD "void" ++ ", " ++ returnType).toList) := by
    simp [methodHead]
  rw [hhead]
  exact CodeWriter.infix_lead (c := '<') _ _ _ _ (by decide) (by decide) (by decide)

theorem readCall?_methodText (options : Options) (e : Endpoint) (member : String) (level : Nat)
    (bodyType : Option String) (returnType indent : String) (depth : Nat) :
    readCall? (CodeWriter.block indent depth
        (methodText options e member level bodyType returnType)) =
      some (e.httpPath options.endpointPathPrefix) := by
  let before := CodeWriter.lead indent depth
    (methodHead options member level bodyType returnType).toList
  have hcall : "this.call<".toList <:+: before := call_infix_lead ..
  have hquote := splitLastQuote_append none (before ++ ">(".toList)
    (e.httpPath options.endpointPathPrefix).toList (by simp [List.getLast?_append])
  simp only [readCall?, toList_block_methodText, dropEnding?_append, dropEnding_methodEnd, hquote,
    before, Option.bind_eq_bind, Option.bind_some]
  rw [if_pos, readLiteral_escape (.inl rfl)]
  · simp
  · rw [Bool.and_eq_true]
    refine ⟨?_, containsChars_of_infix (List.infix_append_of_infix_left hcall)⟩
    exact List.isSuffixOf_iff_suffix.2 (List.suffix_append _ _)

end TypedRoutes.Render
