import EntityGraph.Execution.Service
import EntityGraph.MediaType

namespace EntityGraph

/-- A request over HTTP. Its target is a path with what belongs to it, or a whole address. -/
structure HttpRequest where
  method : String
  target : String
  headers : List (String × String)
  body : String

/-- What a response over HTTP carries. Pages for people are not modelled and count as nothing. -/
inductive HttpBody where
  | nothing
  | json (j : Json)
  | text (s : String)

structure HttpResponse where
  status : Nat
  contentType : Option String
  body : HttpBody

namespace HttpResponse

def bare (status : Nat) : HttpResponse := ⟨status, none, .nothing⟩

def json (status : Nat) (j : Json) : HttpResponse := ⟨status, some "application/json", .json j⟩

def allowedOrigin : String := "*"

def head (r : HttpResponse) : HttpResponse :=
  { r with body := match r.body with
      | .text _ => .text ""
      | _ => .nothing }

end HttpResponse

namespace HttpRequest

def endsPath (c : Char) : Bool := c = '?' || c = '#'

def afterHost? : List Char → Option (List Char)
  | ':' :: '/' :: '/' :: rest => some (rest.dropWhile fun c => c != '/' && !endsPath c)
  | c :: rest => if c.isAlphanum || c = '+' || c = '-' || c = '.' then afterHost? rest else none
  | [] => none

/-- The path of the target: that of a whole address is `/` when it has no other, and a host alone
has none. -/
def route (r : HttpRequest) : String :=
  let path := fun cs : List Char => String.ofList (cs.takeWhile fun c => !endsPath c)
  match r.target.toList with
  | '/' :: rest => path ('/' :: rest)
  | cs => match afterHost? cs with
    | some ('/' :: rest) => path ('/' :: rest)
    | some _ => "/"
    | none => ""

def header? (r : HttpRequest) (name : String) : Option String :=
  match r.headers.find? fun h => h.1.toLower == name with
  | some (_, value) =>
    if value.all fun c => (' ' ≤ c && c ≤ '~') || c == '\t' then some value else none
  | none => none

def wantsPage (r : HttpRequest) : Bool :=
  match r.header? "accept" with
  | some value => (value.splitOn "text/html").length != 1
  | none => false

/-- The body is data. Nothing is known of the body of a request without a media type; forms of
several parts and unreadable media types are refused. -/
def carriesData (r : HttpRequest) : Bool :=
  match r.header? "content-type" with
  | none => true
  | some media => MediaType.accepts media && MediaType.kindOf media != "multipart"

end HttpRequest

namespace OperationRequest

/-- The text of an operation; without one it is empty. -/
def readText : Option Json → Option String
  | none => some ""
  | some (.string s) => some s
  | some _ => none

def readOperation : Option Json → Option (Option String)
  | none | some .null => some none
  | some (.string s) => some (some s)
  | some _ => none

def readValues : Option Json → Option Arguments
  | none | some .null => some []
  | some (.object members) => some (Value.ofMembers members)
  | some _ => none

def acceptsExtensions : Option Json → Bool
  | none | some .null | some (.object _) => true
  | some _ => false

def ofParts? (text operation values extensions : Option Json) : Option OperationRequest := do
  let text ← readText text
  let operation ← readOperation operation
  let values ← readValues values
  if acceptsExtensions extensions then return ⟨text, operation, values⟩ else none

def partNames : List String := ["query", "operationName", "variables", "extensions"]

def ofMembers? (members : Members) : Option OperationRequest :=
  if ((members.map Prod.fst).filter partNames.contains).Nodup then
    ofParts? (members.lookup "query") (members.lookup "operationName")
      (members.lookup "variables") (members.lookup "extensions")
  else none

/-- A request from the text of an object with named parts, or of a list of the parts in their
order. -/
def read? (text : String) : Option OperationRequest :=
  match Json.read text with
  | some (.object _) => (Json.readWholeObject text).bind ofMembers?
  | some (.array parts) =>
    if parts.length ≤ 4 then ofParts? parts[0]? parts[1]? parts[2]? parts[3]? else none
  | _ => none

end OperationRequest

namespace Service

def version : String := "0.1.0"

def health : HttpResponse :=
  .json 200 (.object [("status", .string "healthy"), ("version", .string version)])

def page (request : HttpRequest) : HttpResponse :=
  if request.wantsPage then ⟨200, some "text/html; charset=utf-8", .nothing⟩
  else .json 405 (.object [("error", .string <|
    "GET requests are not supported for GraphQL queries. " ++
      "Use POST with Content-Type: application/json")])

def schemaResponse : Except SchemaError String → HttpResponse
  | .ok text => ⟨200, some "text/plain; charset=utf-8", .text text⟩
  | .error e => .json 500 (.object [("error", .string e.message)])

structure Exchange (σ : Type) where
  response : HttpResponse
  state : σ
  uses : List TypeUse

variable [RegexLibrary] {σ : Type} (service : Service) (source : RecordSource σ)

def post (state : σ) (posted : HttpRequest) : Exchange σ :=
  let request := if posted.carriesData then OperationRequest.read? posted.body else none
  match request with
  | none => ⟨.bare 400, state, []⟩
  | some request =>
    let done := service.execute source state request
    ⟨⟨200, some "application/graphql-response+json", .json done.response.toJson⟩, done.state,
      done.uses⟩

def fetch (state : σ) (request : HttpRequest) : Option (Exchange σ) :=
  match request.route with
  | "/health" => some ⟨health, state, []⟩
  | "/graphql" => some ⟨page request, state, []⟩
  | "/graphql/sdl" =>
    let text := service.sdl
    some ⟨schemaResponse text.outcome, state, text.uses⟩
  | _ => none

/-- Answer a request over HTTP. A question for permission is granted everywhere. -/
def handle (state : σ) (request : HttpRequest) : Exchange σ :=
  if request.method = "OPTIONS" then ⟨.bare 200, state, []⟩
  else match service.fetch state request with
    | none => ⟨.bare 404, state, []⟩
    | some found =>
      if request.method = "GET" then found
      else if request.method = "HEAD" then { found with response := found.response.head }
      else if request.method = "POST" ∧ request.route = "/graphql" then
        service.post source state request
      else ⟨.bare 405, state, []⟩

end Service

end EntityGraph
