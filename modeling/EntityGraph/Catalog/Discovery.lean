import EntityGraph.Catalog.Basic

namespace EntityGraph

def ScalarKind.ofStorage? : String → Option ScalarKind
  | "int" => some .int
  | "decimal" => some .float
  | "varchar" | "text" | "datetime" | "static" => some .string
  | _ => none

def Attribute.ofField? (field : String × String) : Option Attribute :=
  (ScalarKind.ofStorage? field.2).map fun kind =>
    Attribute.scalar field.1 s!"{field.1} ({field.2})" kind true

def discoverAttributes (fields : List (String × String)) : List Attribute :=
  fields.filterMap Attribute.ofField?

def Entity.withDiscovered (e : Entity) (fields : List (String × String)) : Entity :=
  e.extendMissing (discoverAttributes fields)

end EntityGraph
