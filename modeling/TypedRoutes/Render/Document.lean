import TypedRoutes.Render.Client
import TypedRoutes.Render.Router

/-! # Rendering both documents -/

namespace TypedRoutes.Render
open TypedRoutes.Text TypedRoutes.Route TypedRoutes.Template

/-- The text of a filled document, with the header if it is wanted; line breaks at the beginning
give way to the header. -/
def finish (options : Options) (document : Document) : Except Fault String := do
  let body := document.render
  if options.emitHeader then
    let head ← header generatorName
    return head ++ "\n\n" ++ String.ofList (body.toList.dropWhile (· == '\n'))
  else return body

def renderClient (options : Options) (tree : Tree) (template : String) : Except Fault String := do
  finish options (← fillClient options tree (Document.ofTemplate "client" template))

def renderRouter (options : Options) (tree : Tree) (template : String) : Except Fault String := do
  finish options (← fillRouter options tree (Document.ofTemplate "server" template))

end TypedRoutes.Render
