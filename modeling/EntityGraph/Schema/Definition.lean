import EntityGraph.Json.Reader
import EntityGraph.Schema.Reachable
import EntityGraph.Value

/-!
The definitions of a schema as data, the same ones in the same order as its text has them. Types
are references: a name, a list, or either of them marked as never null. A reference and the type
string it comes from have the same text.
-/

namespace EntityGraph

inductive TypeRef where
  | named (name : String)
  | list (item : TypeRef)
  | nonNull (type : TypeRef)
  deriving DecidableEq, Repr

namespace TypeRef

def text : TypeRef → String
  | .named name => name
  | .list item => "[" ++ item.text ++ "]"
  | .nonNull type => type.text ++ "!"

def typeName : TypeRef → String
  | .named name => name
  | .list item => item.typeName
  | .nonNull type => type.typeName

def requiredName? : TypeRef → Option String
  | .nonNull (.named name) => some name
  | _ => none

def marked (nonNull : Bool) (t : TypeRef) : TypeRef := if nonNull then .nonNull t else t

end TypeRef

def TypeString.toRef (t : TypeString) : TypeRef :=
  .marked t.nonNull
    (if t.list then .list (.marked t.elementNonNull (.named t.name)) else .named t.name)

theorem TypeRef.text_marked (nonNull : Bool) (t : TypeRef) :
    (TypeRef.marked nonNull t).text = t.text ++ TypeString.mark nonNull := by
  cases nonNull <;> simp [marked, text, TypeString.mark]

theorem TypeString.text_toRef (t : TypeString) : t.toRef.text = t.text := by
  unfold toRef TypeString.text
  rw [TypeRef.text_marked]
  split <;> simp [TypeRef.text, TypeRef.text_marked, String.append_assoc]

structure InputDefinition where
  name : String
  description : String
  type : TypeRef
  default : Option Value

structure MemberDefinition where
  name : String
  description : String

structure FieldDefinition where
  name : String
  description : String
  type : TypeRef
  parameters : List InputDefinition

inductive Shape where
  | object (fields : List FieldDefinition)
  | input (fields : List InputDefinition)
  | enumeration (members : List MemberDefinition)
  | scalar

/-- A type with its name. Of the definitions, an empty description stands for none. -/
structure Definition where
  name : String
  description : String
  shape : Shape

namespace Schema

def inputDefinition (name : String) (type : TypeString) : InputDefinition :=
  ⟨name, "", type.toRef, none⟩

def defaultValue? (text : String) : Option Value := (Json.read text).map Value.ofJson

def Parameter.definition (p : Parameter) : InputDefinition :=
  ⟨p.name, "", p.type.toRef, p.default.bind defaultValue?⟩

def rootDefinition? (roots : RootFields) (pages : PageDefaults) (kind : RootKind) :
    Option Definition :=
  match roots.fields kind with
  | [] => none
  | fields => some
    { name := kind.typeName, description := ""
      shape := .object <| fields.map fun f =>
        ⟨f.name, f.description, f.returnType.toRef,
          (f.parameters pages).map Parameter.definition⟩ }

def objectDefinition (c : Catalog) (e : Entity) : Tracked SchemaError Definition := do
  let fields ← objectFields c e
  return { name := e.name, description := e.description
           shape := .object <| fields.map fun f =>
             ⟨f.name, f.definition.description, f.type.toRef,
               f.parameters.map Parameter.definition⟩ }

def inputTypeDefinition (c : Catalog) (e : Entity) : Tracked SchemaError Definition := do
  let fields ← inputFields c e
  return { name := e.inputName, description := ""
           shape := .input <| fields.map fun f => inputDefinition f.name f.type }

def filterDefinition (c : Catalog) (e : Entity) : Tracked SchemaError Definition := do
  let fields ← filterFields c e
  return { name := e.filterName, description := ""
           shape := .input <| inputDefinition joinKey (.named Join.typeName) ::
             inputDefinition childrenKey (.listOf e.filterName) ::
             fields.map fun f => inputDefinition f.name (.named f.target.typeName) }

def operatorDefinition (kind : ScalarKind) (op : Operator) :
    Except SchemaError InputDefinition :=
  (TypeString.parse (op.operandType kind)).map (inputDefinition op.key)

def scalarFilterDefinition (kind : ScalarKind) : Except SchemaError Definition := do
  let fields ← (Operator.vocabulary kind).mapM (operatorDefinition kind)
  return { name := kind.filterName, description := "", shape := .input fields }

def joinDefinition : Definition :=
  { name := Join.typeName, description := ""
    shape := .enumeration [⟨Join.any.name, ""⟩, ⟨Join.all.name, ""⟩] }

def definitions (c : Catalog) (roots : RootFields) (pages : PageDefaults) :
    Tracked SchemaError (List Definition) := do
  let types ← reachable c roots
  let objects ← types.objects.mapM (objectDefinition c)
  let inputs ← types.inputs.mapM (inputTypeDefinition c)
  let filters ← types.filters.mapM (filterDefinition c)
  let scalars ← Tracked.lift (ScalarKind.all.mapM scalarFilterDefinition)
  -- The order of the sections is the printed one.
  return [RootKind.query, RootKind.mutation].filterMap (rootDefinition? roots pages) ++
    objects ++ inputs ++ filters ++ scalars ++ [joinDefinition]

end Schema

end EntityGraph
