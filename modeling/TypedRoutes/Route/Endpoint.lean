import TypedRoutes.Text.Basic

/-! # Endpoints

A handler module that default-exports a named function is an endpoint.  Its address on the wire and
the place of its module are both read off the directories that lead to it.
-/

namespace TypedRoutes.Route
open TypedRoutes.Text

structure TypeInfo where
  /-- The name it is declared under, without qualifiers. -/
  name : String
  declaration : String
  deriving DecidableEq, Repr

structure Endpoint where
  /-- The directories from the entry directory down to the handler's module. -/
  pathSegments : List String
  functionName : String
  sourceFileName : String
  /-- Absent exactly for a handler without parameters. -/
  body : Option TypeInfo
  returns : TypeInfo
  deriving DecidableEq, Repr

/-- The characters of a prefix between the slashes and blanks around them. -/
def prefixCore (text : List Char) : List Char :=
  dropEndWhile (· == '/') ((trimChars text).dropWhile (· == '/'))

/-- A path prefix with one slash at each end; the prefix of nothing is a single slash. -/
def normalizePrefix (path : String) : String :=
  let core := prefixCore path.toList
  if core.isEmpty then "/" else String.ofList ('/' :: core ++ ['/'])

namespace Endpoint

def httpPath (e : Endpoint) (pathPrefix : String) : String :=
  normalizePrefix pathPrefix ++ String.join (e.pathSegments.map (· ++ "/")) ++ e.functionName

def sourcePath (e : Endpoint) : String := join "/" (e.pathSegments ++ [e.sourceFileName])

end Endpoint

end TypedRoutes.Route
