/-! # JSON values -/

namespace TypedRoutes.Json

/-- A number as it was written: an integer of 64 bits, or a double given by its bits. -/
inductive Number where
  | integer (value : Int)
  | double (bits : UInt64)
  deriving DecidableEq, Repr

inductive Value where
  | null
  | bool (value : Bool)
  | number (value : Number)
  | string (value : String)
  | array (items : List Value)
  /-- Each key once. -/
  | object (fields : List (String × Value))
  deriving Repr

namespace Value

def ofOption {α : Type} (encode : α → Value) : Option α → Value
  | some a => encode a
  | none => null

def field? (name : String) : Value → Option Value
  | object fields => fields.lookup name
  | _ => none

def string? : Value → Option String
  | string s => some s
  | _ => none

def array? : Value → Option (List Value)
  | array items => some items
  | _ => none

def fields? : Value → Option (List (String × Value))
  | object fields => some fields
  | _ => none

def bool? : Value → Option Bool
  | bool b => some b
  | _ => none

def integer? : Value → Option Int
  | number (.integer n) => some n
  | _ => none

/-- Puts a field among fields in ascending order of their keys, in place of one of the same key. -/
def insertField (key : String) (value : Value) :
    List (String × Value) → List (String × Value)
  | [] => [(key, value)]
  | (k, v) :: rest =>
    if key = k then (key, value) :: rest
    else if key < k then (key, value) :: (k, v) :: rest
    else (k, v) :: insertField key value rest

/-- An object with the given fields in ascending order of their keys; of several fields with one
key the last counts. -/
def ofFields (fields : List (String × Value)) : Value :=
  object (fields.foldl (fun acc (k, v) => insertField k v acc) [])

mutual

def sorted : Value → Value
  | array items => array (sortedItems items)
  | object fields => ofFields (sortedFields fields)
  | v => v

def sortedItems : List Value → List Value
  | [] => []
  | v :: vs => v.sorted :: sortedItems vs

def sortedFields : List (String × Value) → List (String × Value)
  | [] => []
  | (k, v) :: fs => (k, v.sorted) :: sortedFields fs

end

end Value

end TypedRoutes.Json
