import EntityGraph.Error
import EntityGraph.Json.Basic

namespace EntityGraph

/-- An error of a response. One without a field concerns the whole operation. -/
structure ResponseError where
  error : Error
  field : Option String
  deriving DecidableEq, Repr

structure Response where
  data : Json
  errors : List ResponseError

namespace Response

def failed (e : Error) : Response := ⟨.null, [⟨e, none⟩]⟩

def ofMembers (members : Members) : Response := ⟨.object members, []⟩

end Response

/-- An error as data: with a path where it stands for a field, and with its code. A question about
the schema that has no operation to its name is told so without a code. -/
def ResponseError.toJson (e : ResponseError) : Json :=
  let path := match e.field with
    | some field => [("path", Json.array [.string field])]
    | none => []
  let extensions := match e.error with
    | .unnamedOperation _ => []
    | error => [("extensions", Json.object [("code", .string error.code)])]
  .object <| ("message", .string e.error.message) :: path ++ extensions

/-- A response as data; without errors it has no list of them. -/
def Response.toJson (r : Response) : Json :=
  .object <| ("data", r.data) ::
    (if r.errors.isEmpty then [] else [("errors", .array (r.errors.map ResponseError.toJson))])

end EntityGraph
