import EntityGraph.Schema.Reachable

/-!
A schema as text. The roots come first, then the output, input and filter types, each kind in the
order of the names, then the filter types of the scalars and the enumeration of joins.
-/

namespace EntityGraph.Schema

structure Line where
  description : String
  name : String
  parameters : String
  type : Option String
  deriving DecidableEq, Repr

structure Block where
  keyword : String
  name : String
  description : String
  lines : List Line
  deriving DecidableEq, Repr

def replaceChar (text : String) (c : Char) (other : String) : String :=
  String.ofList (text.toList.flatMap fun d => if d = c then other.toList else [d])

/-- A description in quotes. Backslashes come first, so that those before quotes stay single. -/
def quotedDescription (text : String) : String :=
  let escaped := replaceChar (replaceChar text '\\' "\\\\") '"' "\\\""
  "\"" ++ escaped ++ "\""

def descriptionLine (indent text : String) : String :=
  if text.isEmpty then "" else indent ++ quotedDescription text ++ "\n"

def Parameter.text (p : Parameter) : String :=
  p.name ++ ": " ++ p.type.text ++ match p.default with
    | some default => " = " ++ default
    | none => ""

def parametersText (parameters : List Parameter) : String :=
  if parameters.isEmpty then ""
  else "(" ++ ", ".intercalate (parameters.map Parameter.text) ++ ")"

def Line.text (l : Line) : String :=
  descriptionLine "  " l.description ++ "  " ++ l.name ++ l.parameters ++ (match l.type with
    | some type => ": " ++ type
    | none => "") ++ "\n"

def Block.text (b : Block) : String :=
  descriptionLine "" b.description ++ b.keyword ++ " " ++ b.name ++ " \x7b\n" ++
    String.join (b.lines.map Line.text) ++ "\x7d\n"

def plainLine (name type : String) : Line := ⟨"", name, "", some type⟩

def rootBlock? (roots : RootFields) (pages : PageDefaults) (kind : RootKind) : Option Block :=
  match roots.fields kind with
  | [] => none
  | fields => some
    { keyword := "type", name := kind.typeName, description := ""
      lines := fields.map fun f =>
        ⟨f.description, f.name, parametersText (f.parameters pages), some f.returnType.text⟩ }

def objectBlock (c : Catalog) (e : Entity) : Tracked SchemaError Block := do
  let fields ← objectFields c e
  return { keyword := "type", name := e.name, description := e.description
           lines := fields.map fun f =>
             ⟨f.definition.description, f.name, parametersText f.parameters, some f.type.text⟩ }

def inputBlock (c : Catalog) (e : Entity) : Tracked SchemaError Block := do
  let fields ← inputFields c e
  return { keyword := "input", name := e.inputName, description := ""
           lines := fields.map fun f => plainLine f.name f.type.text }

def filterBlock (c : Catalog) (e : Entity) : Tracked SchemaError Block := do
  let fields ← filterFields c e
  return { keyword := "input", name := e.filterName, description := ""
           lines := plainLine joinKey Join.typeName ::
             plainLine childrenKey ("[" ++ e.filterName ++ "!]") ::
             fields.map fun f => plainLine f.name f.target.typeName }

def scalarBlock (kind : ScalarKind) : Block :=
  { keyword := "input", name := kind.filterName, description := ""
    lines := (Operator.vocabulary kind).map fun op => plainLine op.key (op.operandType kind) }

def joinBlock : Block :=
  { keyword := "enum", name := Join.typeName, description := ""
    lines := [⟨"", Join.any.name, "", none⟩, ⟨"", Join.all.name, "", none⟩] }

def blocks (c : Catalog) (roots : RootFields) (pages : PageDefaults) :
    Tracked SchemaError (List Block) := do
  let types ← reachable c roots
  let objects ← types.objects.mapM (objectBlock c)
  let inputs ← types.inputs.mapM (inputBlock c)
  let filters ← types.filters.mapM (filterBlock c)
  return [RootKind.query, RootKind.mutation].filterMap (rootBlock? roots pages) ++ objects ++
    inputs ++ filters ++ ScalarKind.all.map scalarBlock ++ [joinBlock]

def print (c : Catalog) (roots : RootFields) (pages : PageDefaults) :
    Tracked SchemaError String := do
  let blocks ← blocks c roots pages
  return "\n".intercalate (blocks.map Block.text)

end EntityGraph.Schema
