import EntityGraph.Schema.Tracked

/-!
The registry of types in use. A type enters when it is looked up and gets its fields when they are
compiled; neither is ever undone.
-/

namespace EntityGraph

abbrev TypeTable (φ : Type) := List (String × Option (List φ))

namespace TypeTable

variable {φ : Type}

def register (t : TypeTable φ) (entity : String) : TypeTable φ :=
  if (t.lookup entity).isSome then t else t ++ [(entity, none)]

/-- A type's fields are compiled; the first ones stay. -/
def compiled (t : TypeTable φ) (entity : String) (fields : List φ) : TypeTable φ :=
  Keyed.modify Prod.fst entity (fun entry => (entry.1, some (entry.2.getD fields)))
    (t.register entity)

def fields? (t : TypeTable φ) (entity : String) : Option (List φ) :=
  (t.lookup entity).bind id

end TypeTable

structure Registry where
  objects : TypeTable OutputField
  inputs : TypeTable InputField
  filters : TypeTable FilterField

namespace Registry

def empty : Registry := ⟨[], [], []⟩

def apply (r : Registry) : TypeUse → Registry
  | .object e => { r with objects := r.objects.register e }
  | .input e => { r with inputs := r.inputs.register e }
  | .filter e => { r with filters := r.filters.register e }
  | .objectFields e fields => { r with objects := r.objects.compiled e fields }
  | .inputFields e fields => { r with inputs := r.inputs.compiled e fields }
  | .filterFields e fields => { r with filters := r.filters.compiled e fields }

def applyAll (r : Registry) (uses : List TypeUse) : Registry := uses.foldl apply r

def run {ε α : Type} (r : Registry) (x : Tracked ε α) : Except ε α × Registry :=
  (x.outcome, r.applyAll x.uses)

/-- The registry as a diagnostic shows it: how many types of each kind are in use. -/
def diagnostic (r : Registry) : String :=
  "TypeRegistry \x7b objects: " ++ toString r.objects.length ++ ", inputs: " ++
    toString r.inputs.length ++ ", filters: " ++ toString r.filters.length ++ " \x7d"

def typeDiagnostic (kind name : String) (compiled : Bool) : String :=
  kind ++ " \x7b name: " ++ Text.diagnostic name ++ s!", compiled: {compiled} \x7d"

end Registry

end EntityGraph
