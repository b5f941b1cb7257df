import TypedRoutes.Console.Logger
import TypedRoutes.Path

/-! # How to use what was generated -/

namespace TypedRoutes.Console

def usage (clientPath routerPath clientName : String) : List Line :=
  let module := (Path.fileStem? clientPath).getD clientName
  ["",
   "📁 Client: " ++ clientPath,
   "📁 Router: " ++ routerPath,
   "",
   "💡 Use the client in your frontend:",
   "  import " ++ clientName ++ " from './" ++ module ++ "';",
   "  const api = new " ++ clientName ++ "(\x7b baseUrl: 'http://localhost:5003' \x7d);",
   "",
   "💡 Start the server with your TypeScript runner, e.g.:",
   "  npx tsx " ++ routerPath].map fun text => ⟨.output, text⟩

end TypedRoutes.Console
