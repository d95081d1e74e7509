import EntityGraph.Proofs.Catalog
import EntityGraph.Schema.Printer
import EntityGraph.Schema.Registry
import Mathlib.Logic.Function.Basic

/-!
Types with identities. Each kind of type has a cache, a handle is a place in a cache, and a compiled
field holds the handle of the type that it refers to. The computations with types read what is
cached and compile only what is not; they keep the caches also when they fail.
-/

namespace EntityGraph

inductive TypeKind where
  | object
  | input
  | filter
  deriving DecidableEq, Repr

namespace TypeKind

abbrev Field : TypeKind → Type
  | .object => OutputField
  | .input => InputField
  | .filter => FilterField

def attributes : TypeKind → Entity → List Attribute
  | .input, e => e.attributes.filter Schema.isSettable
  | _, e => e.attributes

def check : TypeKind → Entity → Bool → Except SchemaError Unit
  | .input, e, true => .error (.noInputFields e.name)
  | _, _, _ => .ok ()

def target? : (k : TypeKind) → k.Field → Option Entity
  | .object, f => match f.target with
    | .object e => some e
    | .scalar _ => none
  | .input, f => match f.target with
    | .object e => some e
    | .scalar _ => none
  | .filter, f => match f.target with
    | .entity e => some e
    | .scalar _ => none

def block : (k : TypeKind) → Entity → List k.Field → Schema.Block
  | .object, e, fields =>
    { keyword := "type", name := e.name, description := e.description
      lines := fields.map fun f =>
        ⟨f.definition.description, f.name, Schema.parametersText f.parameters, some f.type.text⟩ }
  | .input, e, fields =>
    { keyword := "input", name := e.inputName, description := ""
      lines := fields.map fun f => Schema.plainLine f.name f.type.text }
  | .filter, e, fields =>
    { keyword := "input", name := e.filterName, description := ""
      lines := Schema.plainLine joinKey Join.typeName ::
        Schema.plainLine childrenKey ("[" ++ e.filterName ++ "!]") ::
        fields.map fun f => Schema.plainLine f.name f.target.typeName }

end TypeKind

theorem Catalog.entity?_name {c : Catalog} {name : String} {e : Entity}
    (h : c.entity? name = some e) : c.entity? e.name = some e :=
  (Catalog.entity?_eq_some.mp h).2 ▸ h

structure Handle (c : Catalog) where
  index : Nat
  entity : Entity
  known : c.entity? entity.name = some entity

def Handle.name {c : Catalog} (h : Handle c) : String := h.entity.name

structure Linked (c : Catalog) (φ : Type) where
  field : φ
  target : Option (Handle c)

structure Cell (c : Catalog) (φ : Type) where
  entity : Entity
  known : c.entity? entity.name = some entity
  fields : Option (List (Linked c φ))

def Cell.name {c : Catalog} {φ : Type} (cell : Cell c φ) : String := cell.entity.name

/-- The caches of the three kinds, each in the order in which its types were looked up first. -/
abbrev Caches (c : Catalog) := (k : TypeKind) → List (Cell c k.Field)

abbrev Cached (c : Catalog) (α : Type) := EStateM SchemaError (Caches c) α

namespace Caches

variable {c : Catalog}

def empty (c : Catalog) : Caches c := fun _ => []

def handle? (s : Caches c) (k : TypeKind) (name : String) : Option (Handle c) :=
  (Keyed.find? (fun entry : Cell c k.Field × Nat => entry.1.name) name (s k).zipIdx).map
    fun entry => ⟨entry.2, entry.1.entity, entry.1.known⟩

def fields? (s : Caches c) (k : TypeKind) (h : Handle c) : Option (List (Linked c k.Field)) :=
  ((s k)[h.index]?).bind Cell.fields

def nextHandle (s : Caches c) (k : TypeKind) {name : String} {e : Entity}
    (found : c.entity? name = some e) : Handle c :=
  ⟨(s k).length, e, Catalog.entity?_name found⟩

def register (s : Caches c) (k : TypeKind) {name : String} {e : Entity}
    (found : c.entity? name = some e) : Caches c :=
  Function.update s k (s k ++ [⟨e, Catalog.entity?_name found, none⟩])

def store (s : Caches c) (k : TypeKind) (h : Handle c) (fields : List (Linked c k.Field)) :
    Caches c :=
  Function.update s k ((s k).modify h.index fun cell => { cell with fields := some fields })

end Caches

namespace Cached

variable {c : Catalog}

/-- Look up a type. The first look-up of a name registers a handle for it. -/
def lookup (k : TypeKind) (name : String) : Cached c (Handle c) := fun s =>
  match s.handle? k name with
  | some h => .ok h s
  | none =>
    match found : c.entity? name with
    | some _ => .ok (s.nextHandle k found) (s.register k found)
    | none => .error (.unknownEntity name) s

def compileField : (k : TypeKind) → Attribute → Cached c (Linked c k.Field)
  | .object, a => match a.scalarKind? with
    | some kind =>
      return ⟨⟨a, .ofAttribute a, .scalar kind, Schema.outputParameters a kind.filterName⟩, none⟩
    | none => do
      let object ← lookup .object a.typeName
      let filter ← lookup .filter a.typeName
      return ⟨⟨a, .ofAttribute a, .object object.entity,
        Schema.outputParameters a filter.entity.filterName⟩, some object⟩
  | .input, a => match a.scalarKind? with
    | some kind => return ⟨⟨a, Schema.inputTypeString a kind.name, .scalar kind⟩, none⟩
    | none => do
      let input ← lookup .input a.typeName
      return ⟨⟨a, Schema.inputTypeString a input.entity.inputName, .object input.entity⟩,
        some input⟩
  | .filter, a => match a.scalarKind? with
    | some kind => return ⟨⟨a, .scalar kind⟩, none⟩
    | none => do
      let filter ← lookup .filter a.typeName
      return ⟨⟨a, .entity filter.entity⟩, some filter⟩

def lift {α : Type} : Except SchemaError α → Cached c α
  | .ok a => pure a
  | .error err => throw err

def compile (k : TypeKind) (e : Entity) : Cached c (List (Linked c k.Field)) := do
  let fields ← (k.attributes e).mapM (compileField k)
  lift (k.check e fields.isEmpty)
  return fields

def fields (k : TypeKind) (h : Handle c) : Cached c (List (Linked c k.Field)) := do
  match (← get).fields? k h with
  | some fields => return fields
  | none =>
    let fields ← compile k h.entity
    modify fun s => s.store k h fields
    return fields

def compileAll (c : Catalog) : Cached c Unit :=
  c.names.forM fun name => do
    let object ← lookup .object name
    let _ ← fields .object object
    let filter ← lookup .filter name
    let _ ← fields .filter filter

/-- Visit the types on a stack and those that their fields refer to, the latest found first. -/
def walk (k : TypeKind) : List (Handle c) → List (Handle c) → Cached c (List (Handle c))
  | [], visited => pure visited
  | h :: stack, visited =>
    if _seen : (visited.map Handle.name).contains h.name then walk k stack visited
    else do
      let fields ← fields k h
      walk k ((fields.filterMap Linked.target).reverse ++ stack) (visited ++ [h])
  termination_by stack visited => (Schema.unvisited c (visited.map Handle.entity), stack.length)
  decreasing_by
  · exact Prod.Lex.right _ (by simp)
  · refine Prod.Lex.left _ _ ?_
    rw [List.map_append, List.map_singleton]
    exact Schema.unvisited_lt h.known (by simpa [Function.comp_def, Handle.name] using _seen)

structure RootHandles (c : Catalog) where
  objects : List (Handle c)
  inputs : List (Handle c)
  filters : List (Handle c)

def rootHandles (f : RootField) : Cached c (RootHandles c) := do
  let object ← lookup .object f.entity
  match f.action with
  | .lookup _ => return ⟨[object], [], []⟩
  | .search =>
    let filter ← lookup .filter f.entity
    return ⟨[object], [], [filter]⟩
  | .create _ =>
    let input ← lookup .input f.entity
    return ⟨[object], [input], []⟩

def sortByName (name : Entity → String) (handles : List (Handle c)) : List (Handle c) :=
  handles.mergeSort fun a b => decide (name a.entity ≤ name b.entity)

def reachable (roots : RootFields) : Cached c (RootHandles c) := do
  let types ← (roots.query ++ roots.mutation).mapM rootHandles
  let objects ← walk .object (types.flatMap RootHandles.objects).reverse []
  let nested ← (objects.flatMap fun h => Schema.targets h.entity.attributes).mapM (lookup .filter)
  let inputs ← walk .input (types.flatMap RootHandles.inputs).reverse []
  let filters ← walk .filter (types.flatMap RootHandles.filters ++ nested).reverse []
  return ⟨sortByName Entity.name objects, sortByName Entity.inputName inputs,
    sortByName Entity.filterName filters⟩

def block (k : TypeKind) (h : Handle c) : Cached c Schema.Block := do
  let fields ← fields k h
  return k.block h.entity (fields.map Linked.field)

def print (roots : RootFields) (pages : PageDefaults) : Cached c String := do
  let types ← reachable roots
  let objects ← types.objects.mapM (block .object)
  let inputs ← types.inputs.mapM (block .input)
  let filters ← types.filters.mapM (block .filter)
  let blocks := [RootKind.query, RootKind.mutation].filterMap (Schema.rootBlock? roots pages) ++
    objects ++ inputs ++ filters ++ ScalarKind.all.map Schema.scalarBlock ++ [Schema.joinBlock]
  return "\n".intercalate (blocks.map Schema.Block.text)

end Cached

end EntityGraph
