import TypedRoutes.Text.Basic

/-! # The built-in templates

Both are kept line by line; each line ends with a line break.
-/

namespace TypedRoutes.Template

/-- A text of lines that all end. -/
def ofLines (lines : List String) : String := String.join (lines.map (· ++ "\n"))

def clientTemplateLines : List String :=
  ["/* \x7b\x7bimports\x7d\x7d */",
   "/* \x7b\x7btypes\x7d\x7d */",
   "",
   "export interface ClientOptions \x7b",
   "\tbaseUrl: string;",
   "\tupdateHeaders?: (headers: Headers) => Headers | void;",
   "\x7d",
   "",
   "export default class /* \x7b\x7bclientName\x7d\x7d */ \x7b",
   "\tprivate options: ClientOptions;",
   "",
   "\tconstructor(options: ClientOptions) \x7b",
   "\t\tthis.options = options;",
   "\t\x7d",
   "",
   "\tprivate async call<BodyType, ResponseType>(path: string, body?: BodyType): Promise<ResponseType> \x7b",
   "\t\tconst headers = new Headers(\x7b 'Content-Type': 'application/json' \x7d);",
   "\t\tconst updated = this.options.updateHeaders?.(headers);",
   "\t\tconst res = await fetch(\x60$\x7bthis.options.baseUrl\x7d$\x7bpath\x7d\x60, \x7b",
   "\t\t\tmethod: 'POST',",
   "\t\t\theaders: updated ?? headers,",
   "\t\t\tbody: JSON.stringify(body ?? \x7b\x7d),",
   "\t\t\x7d);",
   "\t\tconst json = await res.json();",
   "\t\tif (!(res.status >= 200 && res.status < 300)) \x7b",
   "\t\t\tthrow \x7b status: res.status, response: json \x7d;",
   "\t\t\x7d",
   "\t\treturn json as ResponseType;",
   "\t\x7d",
   "",
   "\t/* \x7b\x7bfunctions\x7d\x7d */",
   "\x7d"]

def routerTemplateLines : List String :=
  ["import http from 'http';",
   "/* \x7b\x7bimports\x7d\x7d */",
   "",
   "type Handler = (body: any) => Promise<unknown>;",
   "",
   "const routes: \x7b [route: string]: Handler \x7d = \x7b",
   "\t/* \x7b\x7broutes\x7d\x7d */",
   "\x7d;",
   "",
   "const port = Number(process.env.PORT ?? 5003);",
   "",
   "const server = http.createServer((req, res) => \x7b",
   "\tres.setHeader('Content-Type', 'application/json');",
   "\tif (!req.url) \x7b",
   "\t\tres.statusCode = 400;",
   "\t\tres.end(JSON.stringify(\x7b message: 'Bad request' \x7d));",
   "\t\treturn;",
   "\t\x7d",
   "",
   "\tconst route = routes[\x60$\x7breq.method\x7d $\x7breq.url\x7d\x60];",
   "\tif (!route) \x7b",
   "\t\tres.statusCode = 404;",
   "\t\tres.end(JSON.stringify(\x7b message: 'Not found' \x7d));",
   "\t\treturn;",
   "\t\x7d",
   "",
   "\tlet body = '';",
   "\treq.on('data', (chunk) => \x7b",
   "\t\tbody += chunk.toString();",
   "\t\x7d);",
   "\treq.on('end', async () => \x7b",
   "\t\ttry \x7b",
   "\t\t\tconst jsonBody = body ? JSON.parse(body) : \x7b\x7d;",
   "\t\t\tconst result = await route(jsonBody);",
   "\t\t\tres.end(JSON.stringify(result ?? null));",
   "\t\t\x7d catch (error) \x7b",
   "\t\t\tconsole.error('Error processing request:', error);",
   "\t\t\tres.statusCode = 500;",
   "\t\t\tres.end(JSON.stringify(\x7b message: 'Internal Server Error' \x7d));",
   "\t\t\x7d",
   "\t\x7d);",
   "\x7d);",
   "",
   "server.listen(port, () => \x7b",
   "\tconsole.log(\x60Server running on port $\x7bport\x7d\x60);",
   "\x7d);",
   "",
   "export default server;"]

def clientTemplate : String := ofLines clientTemplateLines

def routerTemplate : String := ofLines routerTemplateLines

end TypedRoutes.Template
