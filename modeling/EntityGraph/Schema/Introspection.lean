import EntityGraph.Document.Expansion
import EntityGraph.Schema.Meta

/-!
Answers to questions about a schema itself. What is asked for is looked up part by part: a schema
has types, a type has fields, a field has arguments and a type again. Of the types, those that can
be reached from the roots are shown, beside the scalars and the types of the description itself.
-/

namespace EntityGraph

namespace Json

mutual

def merge : Json → Json → Json
  | .object xs, .object ys => .object (mergeMembers xs ys)
  | .array xs, .array ys => .array (mergeItems xs ys)
  | x, _ => x

/-- Members of the first, merged with those of the second, then the others of the second. -/
def mergeMembers : Members → Members → Members
  | [], ys => ys
  | (key, x) :: rest, ys =>
    (key, match ys.lookup key with
      | some y => merge x y
      | none => x) :: mergeMembers rest (ys.filter fun y => y.1 != key)

def mergeItems : List Json → List Json → List Json
  | x :: xs, y :: ys => merge x y :: mergeItems xs ys
  | xs, _ => xs

end

end Json

inductive SchemaPart where
  | schema
  | type (t : TypeRef)
  | field (f : FieldDefinition)
  | input (i : InputDefinition)
  | member (m : MemberDefinition)
  | directive (d : DirectiveDefinition)

inductive SchemaAnswer where
  | data (j : Json)
  | part (p : Option SchemaPart)
  | parts (ps : Option (List SchemaPart))

namespace SchemaPart

def typeName : SchemaPart → String
  | .schema => "__Schema"
  | .type _ => "__Type"
  | .field _ => "__Field"
  | .input _ => "__InputValue"
  | .member _ => "__EnumValue"
  | .directive _ => "__Directive"

end SchemaPart

namespace SchemaAnswer

def text (s : String) : SchemaAnswer := .data (.string s)

def flag (b : Bool) : SchemaAnswer := .data (.bool b)

def absent : SchemaAnswer := .data .null

/-- A description; an empty one is none. -/
def description (s : String) : SchemaAnswer := if s.isEmpty then absent else text s

end SchemaAnswer

namespace Directory

open SchemaAnswer

/-- The directory with the types of the description itself, as far as it has no others of their
names. -/
def described (d : Directory) : Directory :=
  { d with definitions := table (Schema.Meta.definitions ++ d.definitions) }

def named (d : Directory) (name : String) : List String :=
  match d.find? name with
  | some definition => definition.shape.references
  | none => []

def reachableNames (d : Directory) : List String :=
  d.closure d.named
    (d.rootNames ++
      Schema.Meta.directives.flatMap fun dir => dir.parameters.map fun p => p.type.typeName)

def shows (d : Directory) (name : String) : Bool :=
  (d.find? name).isSome &&
    (name.startsWith "__" || (ScalarKind.ofName? name).isSome || d.reachableNames.contains name)

def shown (d : Directory) : List String :=
  let reachable := d.reachableNames
  ((d.definitions.map Definition.name).filter fun name =>
    name.startsWith "__" || (ScalarKind.ofName? name).isSome || reachable.contains name).mergeSort
      fun a b => decide (a ≤ b)

def kindOf : Shape → String
  | .object _ => "OBJECT"
  | .input _ => "INPUT_OBJECT"
  | .enumeration _ => "ENUM"
  | .scalar => "SCALAR"

def readSchema (d : Directory) : String → Option SchemaAnswer
  | "description" => some (text Schema.Meta.schemaDescription)
  | "types" => some (.parts (some (d.shown.map fun name => .type (.named name))))
  | "queryType" => some (.part (some (.type (.named RootKind.query.typeName))))
  | "mutationType" => some (.part
      (if d.hasMutations then some (.type (.named RootKind.mutation.typeName)) else none))
  | "subscriptionType" => some (.part none)
  | "directives" => some (.parts (some (Schema.Meta.directives.map .directive)))
  | _ => none

def readDefinition (t : Definition) : String → Option SchemaAnswer
  | "kind" => some (text (kindOf t.shape))
  | "name" => some (text t.name)
  | "description" => some (description t.description)
  | "fields" => some (.parts (match t.shape with
      | .object fields =>
        some ((fields.filter fun f => !f.name.startsWith "__").map .field)
      | _ => none))
  | "interfaces" => some (.parts (if t.shape.isObject then some [] else none))
  | "possibleTypes" => some (.parts none)
  | "enumValues" => some (.parts (match t.shape with
      | .enumeration members => some (members.map .member)
      | _ => none))
  | "inputFields" => some (.parts (match t.shape with
      | .input fields => some (fields.map .input)
      | _ => none))
  | "ofType" => some (.part none)
  | "specifiedByURL" => some absent
  | "isOneOf" => some (match t.shape with
      | .input _ => flag false
      | _ => absent)
  | _ => none

def readWrapper (kind : String) (inner : TypeRef) : String → Option SchemaAnswer
  | "kind" => some (text kind)
  | "name" | "description" | "specifiedByURL" | "isOneOf" => some absent
  | "fields" | "interfaces" | "possibleTypes" | "enumValues" | "inputFields" => some (.parts none)
  | "ofType" => some (.part (some (.type inner)))
  | _ => none

def readDeprecation : String → Option SchemaAnswer
  | "isDeprecated" => some (flag false)
  | "deprecationReason" => some absent
  | _ => none

def readField (f : FieldDefinition) : String → Option SchemaAnswer
  | "name" => some (text f.name)
  | "description" => some (description f.description)
  | "args" => some (.parts (some (f.parameters.map .input)))
  | "type" => some (.part (some (.type f.type)))
  | other => readDeprecation other

def readInput (i : InputDefinition) : String → Option SchemaAnswer
  | "name" => some (text i.name)
  | "description" => some (description i.description)
  | "type" => some (.part (some (.type i.type)))
  | "defaultValue" => some (match i.default with
      | some value => text value.text
      | none => absent)
  | other => readDeprecation other

def readMember (m : MemberDefinition) : String → Option SchemaAnswer
  | "name" => some (text m.name)
  | "description" => some (description m.description)
  | other => readDeprecation other

def readDirective (dir : DirectiveDefinition) : String → Option SchemaAnswer
  | "name" => some (text dir.name)
  | "description" => some (description dir.description)
  | "locations" => some (.data (.array (dir.locations.map .string)))
  | "args" => some (.parts (some (dir.parameters.map .input)))
  | "isRepeatable" => some (flag false)
  | _ => none

def read (d : Directory) (p : SchemaPart) (name : String) : Option SchemaAnswer :=
  match p with
  | .schema => d.readSchema name
  | .type (.named type) => match d.find? type with
    | some t => readDefinition t name
    | none => none
  | .type (.list item) => readWrapper "LIST" item name
  | .type (.nonNull type) => readWrapper "NON_NULL" type name
  | .field f => readField f name
  | .input i => readInput i name
  | .member member => readMember member name
  | .directive dir => readDirective dir name

/-- An answer beside the earlier ones; two under one label are merged. -/
def putAnswer (members : Members) (label : String) (answer : Json) : Members :=
  match members.lookup label with
  | some earlier => Keyed.insert Prod.fst (label, earlier.merge answer) members
  | none => members ++ [(label, answer)]

def answerParts (answerPart : SchemaPart → Except Error Members) :
    SchemaAnswer → Except Error Json
  | .data j => .ok j
  | .part none | .parts none => .ok .null
  | .part (some p) => (answerPart p).map .object
  | .parts (some ps) => (ps.mapM fun p => (answerPart p).map .object).map .array

def answerAll (d : Directory) (p : SchemaPart) (answered : Members) :
    Expansion → Except Error Members
  | .done => .ok answered
  | .fault e => .error e
  | .field head inner rest => do
    let answer ←
      if head.name = "__typename" then .ok (.string p.typeName)
      else match d.read p head.name with
        | none => .error (.schema (.unknownAttribute p.typeName head.name))
        | some answer => answerParts (fun p => answerAll d p [] (inner ())) answer
    -- The label is the key, and answers under one key are joined.
    answerAll d p (putAnswer answered (head.label.getD head.name) answer) (rest ())

/-- The answer at the root: the schema, a type that is shown, or the name of the root. -/
def answerRoot (d : Directory) (root : RootKind) (item : Item) : Except Error Json :=
  let answer := fun p => (d.answerAll p [] (item.inner ())).map Json.object
  match item.head.name, item.head.arguments.lookup "name" with
  | "__schema", _ => answer .schema
  | "__type", some (.string type) =>
    if d.shows type then answer (.type (.named type)) else .ok .null
  | "__type", _ => .error (.missingArgument "__type" "'name'")
  | _, _ => .ok (.string root.typeName)

def answer (d : Directory) (root : RootKind) (items : List Item) : Except Error Members :=
  items.foldlM
    (fun answered item => (d.described.answerRoot root item).map fun answer =>
      putAnswer answered (item.head.label.getD item.head.name) answer)
    []

end Directory

end EntityGraph
