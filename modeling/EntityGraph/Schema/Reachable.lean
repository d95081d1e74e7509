import EntityGraph.Schema.Roots

namespace EntityGraph.Schema

def unvisited (c : Catalog) (visited : List Entity) : Nat :=
  (c.names.filter fun name => !(visited.map Entity.name).contains name).length

theorem unvisited_lt {c : Catalog} {name : String} {e : Entity} {visited : List Entity}
    (h : c.entity? name = some e) (new : (visited.map Entity.name).contains e.name = false) :
    unvisited c (visited ++ [e]) < unvisited c visited := by
  have hm : e ∈ c.entities := List.mem_of_find?_eq_some h
  have hn : e.name ∈ c.names := List.mem_map_of_mem hm
  unfold unvisited
  rw [show (c.names.filter fun n => !((visited ++ [e]).map Entity.name).contains n) =
      (c.names.filter fun n => !(visited.map Entity.name).contains n).filter (· != e.name) by
    rw [List.filter_filter]
    apply List.filter_congr
    intro n _
    rw [List.map_append, List.contains_append, Bool.not_or, Bool.and_comm]
    simp [bne, Bool.beq_eq_decide_eq]]
  apply List.length_filter_lt_length_iff_exists.2
  exact ⟨e.name, List.mem_filter.2 ⟨hn, by simpa using new⟩, by simp⟩

/-- Visit the entities on a stack and those that `next` finds from them, the latest found first.
The visited entities stand in the order of their visits. -/
def walk (c : Catalog) (next : Entity → Tracked SchemaError (List String)) :
    List String → List Entity → Tracked SchemaError (List Entity)
  | [], visited => pure visited
  | name :: stack, visited =>
    match _known : c.entity? name with
    | none => Tracked.fail (.unknownEntity name)
    | some e =>
      if _seen : (visited.map Entity.name).contains e.name then walk c next stack visited
      else do
        let found ← next e
        walk c next (found.reverse ++ stack) (visited ++ [e])
  termination_by stack visited => (unvisited c visited, stack.length)
  decreasing_by
  · exact Prod.Lex.right _ (by simp)
  · exact Prod.Lex.left _ _ (unvisited_lt _known (by simpa using _seen))

def targets (attributes : List Attribute) : List String :=
  (attributes.filter fun a => !a.isScalar).map Attribute.typeName

def objectTargets (c : Catalog) (e : Entity) : Tracked SchemaError (List String) := do
  let _ ← objectFields c e
  return targets e.attributes

def inputTargets (c : Catalog) (e : Entity) : Tracked SchemaError (List String) := do
  let _ ← inputFields c e
  return targets (e.attributes.filter isSettable)

def filterTargets (c : Catalog) (e : Entity) : Tracked SchemaError (List String) := do
  let _ ← filterFields c e
  return targets e.attributes

structure RootTypes where
  objects : List String
  inputs : List String
  filters : List String

def rootTypes (c : Catalog) (f : RootField) : Tracked SchemaError RootTypes := do
  -- Every action shows records, a search also filters them, and a creation takes them.
  let _ ← objectType c f.entity
  match f.action with
  | .lookup _ => return ⟨[f.entity], [], []⟩
  | .search =>
    let _ ← filterType c f.entity
    return ⟨[f.entity], [], [f.entity]⟩
  | .create _ =>
    let _ ← inputType c f.entity
    return ⟨[f.entity], [f.entity], []⟩

structure Reachable where
  objects : List Entity
  inputs : List Entity
  filters : List Entity

def sortByName (name : Entity → String) (entities : List Entity) : List Entity :=
  entities.mergeSort fun a b => decide (name a ≤ name b)

/-- The types that root fields need. An output type needs the filter types of its targets. -/
def reachable (c : Catalog) (roots : RootFields) : Tracked SchemaError Reachable := do
  let types ← (roots.query ++ roots.mutation).mapM (rootTypes c)
  let objects ← walk c (objectTargets c) (types.flatMap RootTypes.objects).reverse []
  let inputs ← walk c (inputTargets c) (types.flatMap RootTypes.inputs).reverse []
  let nested := objects.flatMap fun e => targets e.attributes
  let filters ← walk c (filterTargets c) (types.flatMap RootTypes.filters ++ nested).reverse []
  return ⟨sortByName Entity.name objects, sortByName Entity.inputName inputs,
    sortByName Entity.filterName filters⟩

end EntityGraph.Schema
