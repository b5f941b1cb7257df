import TypedRoutes.Json.Value
import TypedRoutes.Route.Tree

/-! # Trees as JSON

A record is an object with its fields by name, or an array with all of them in order.  In an
object, fields of other names mean nothing, and a field that may be null may be missing.
-/

namespace TypedRoutes.Route
open TypedRoutes.Json

/-! ## Encoding -/

def TypeInfo.toJson (t : TypeInfo) : Value :=
  .object [("name", .string t.name), ("declaration", .string t.declaration)]

def Endpoint.toJson (e : Endpoint) : Value :=
  .object
    [("pathSegments", .array (e.pathSegments.map .string)),
     ("functionName", .string e.functionName),
     ("sourceFileName", .string e.sourceFileName),
     ("body", Value.ofOption TypeInfo.toJson e.body),
     ("returns", e.returns.toJson)]

namespace Tree

mutual

def toJson : Tree → Value
  | node name children endpoints =>
    .object
      [("name", Value.ofOption .string name),
       ("children", .array (allToJson children)),
       ("endpoints", .array (endpoints.map Endpoint.toJson))]

def allToJson : List Tree → List Value
  | [] => []
  | t :: ts => t.toJson :: allToJson ts

end

end Tree

/-! ## Decoding -/

def decodeText (v : Value) : Option String := v.string?

def decodeList {α : Type} (decode : Value → Option α) (v : Value) : Option (List α) := do
  (← v.array?).mapM decode

def decodeOption {α : Type} (decode : Value → Option α) : Value → Option (Option α)
  | .null => some none
  | v => (decode v).map some

def required {α : Type} (fields : List (String × Value)) (name : String)
    (decode : Value → Option α) : Option α := do
  decode (← fields.lookup name)

/-- A field of a record, which may be missing or null. -/
def optional {α : Type} (fields : List (String × Value)) (name : String)
    (decode : Value → Option α) : Option (Option α) :=
  decodeOption decode ((fields.lookup name).getD .null)

def TypeInfo.ofJson? : Value → Option TypeInfo
  | .object fields => do
    return ⟨← required fields "name" decodeText, ← required fields "declaration" decodeText⟩
  | .array [name, declaration] => do
    return ⟨← decodeText name, ← decodeText declaration⟩
  | _ => none

def Endpoint.ofJson? : Value → Option Endpoint
  | .object fields => do
    return {
      pathSegments := ← required fields "pathSegments" (decodeList decodeText)
      functionName := ← required fields "functionName" decodeText
      sourceFileName := ← required fields "sourceFileName" decodeText
      body := ← optional fields "body" TypeInfo.ofJson?
      returns := ← required fields "returns" TypeInfo.ofJson? }
  | .array [pathSegments, functionName, sourceFileName, body, returns] => do
    return {
      pathSegments := ← decodeList decodeText pathSegments
      functionName := ← decodeText functionName
      sourceFileName := ← decodeText sourceFileName
      body := ← decodeOption TypeInfo.ofJson? body
      returns := ← TypeInfo.ofJson? returns }
  | _ => none

namespace Tree

mutual

def ofJson? : Value → Option Tree
  | .object fields => do
    return .node (← optional fields "name" decodeText) (← childrenIn fields)
      (← required fields "endpoints" (decodeList Endpoint.ofJson?))
  | .array [name, children, endpoints] => do
    return .node (← decodeOption decodeText name) (← childrenOf children)
      (← decodeList Endpoint.ofJson? endpoints)
  | _ => none

def childrenIn : List (String × Value) → Option (List Tree)
  | [] => none
  | (key, v) :: rest => if key = "children" then childrenOf v else childrenIn rest

def childrenOf : Value → Option (List Tree)
  | .array items => allOfJson? items
  | _ => none

def allOfJson? : List Value → Option (List Tree)
  | [] => some []
  | v :: vs => do return (← ofJson? v) :: (← allOfJson? vs)

end

end Tree

end TypedRoutes.Route
