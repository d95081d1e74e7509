import EntityGraph.Keyed
import EntityGraph.Paging
import EntityGraph.Schema.Fields

namespace EntityGraph

inductive RootKind where
  | query
  | mutation
  deriving DecidableEq, Repr

def RootKind.typeName : RootKind → String
  | .query => "Query"
  | .mutation => "Mutation"

/-- How a root field reaches the data source: one record by id or by the value of a key
attribute, a page of records that a filter admits, or a new record. -/
inductive RootAction where
  | lookup (key : Option String)
  | search
  | create (argument : String)
  deriving DecidableEq, Repr

structure RootField where
  name : String
  description : String
  entity : String
  action : RootAction
  deriving DecidableEq, Repr

namespace RootField

/-- The type of a root field: a search has a list, the others a record or null. -/
def returnType (f : RootField) : TypeString :=
  match f.action with
  | .search => .nonNullListOf f.entity
  | _ => .named f.entity

def parameters (f : RootField) (pages : PageDefaults) : List Parameter :=
  match f.action with
  -- Either of the two may be given, so neither is required.
  | .lookup (some key) =>
    [Schema.parameter "id" (.named "ID"), Schema.parameter key (.named "String")]
  | .lookup none => [Schema.parameter "id" (TypeString.named "ID").required]
  | .search =>
    [Schema.parameter "filter" (.named (f.entity ++ "Filter")),
     Schema.intParameter "start" (some 0),
     Schema.intParameter "limit" (some pages.defaultLimit)]
  | .create argument =>
    [Schema.parameter argument (TypeString.named (f.entity ++ "Input")).required]

end RootField

structure RootFields where
  query : List RootField
  mutation : List RootField
  query_nodup : (query.map RootField.name).Nodup
  mutation_nodup : (mutation.map RootField.name).Nodup

namespace RootFields

/-- Root fields from lists; a later field takes the place of an earlier one of its name. -/
def ofLists (query mutation : List RootField) : RootFields :=
  ⟨Keyed.ofList RootField.name query, Keyed.ofList RootField.name mutation,
    Keyed.nodup_ofList _ _, Keyed.nodup_ofList _ _⟩

def fields (r : RootFields) : RootKind → List RootField
  | .query => r.query
  | .mutation => r.mutation

def get (r : RootFields) (kind : RootKind) (name : String) : Except SchemaError RootField :=
  match Keyed.find? RootField.name name (r.fields kind) with
  | some f => .ok f
  | none => .error (.unknownRootField kind.typeName name)

end RootFields

end EntityGraph
