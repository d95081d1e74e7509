import EntityGraph.Catalog.Basic
import EntityGraph.Filter.Basic
import EntityGraph.TypeString

/-!
The types of a schema, and computations that note which of them they use. The outcome of such a
computation depends on the catalog alone; the notes say which types were looked up and whose
fields were compiled, also when the computation fails.
-/

namespace EntityGraph

structure Parameter where
  name : String
  type : TypeString
  default : Option String
  deriving DecidableEq, Repr

inductive OutputTarget where
  | scalar (kind : ScalarKind)
  | object (entity : Entity)

structure OutputField where
  definition : Attribute
  type : TypeString
  target : OutputTarget
  parameters : List Parameter

inductive InputTarget where
  | scalar (kind : ScalarKind)
  | object (entity : Entity)

structure InputField where
  definition : Attribute
  type : TypeString
  target : InputTarget

inductive FilterTarget where
  | scalar (kind : ScalarKind)
  | entity (entity : Entity)

structure FilterField where
  definition : Attribute
  target : FilterTarget

def Entity.inputName (e : Entity) : String := e.name ++ "Input"

def Entity.filterName (e : Entity) : String := e.name ++ "Filter"

def FilterTarget.typeName : FilterTarget → String
  | .scalar kind => kind.filterName
  | .entity e => e.filterName

def OutputField.name (f : OutputField) : String := f.definition.name

def OutputField.accepts (f : OutputField) (name : String) : Bool :=
  f.parameters.any fun p => p.name == name

def InputField.name (f : InputField) : String := f.definition.name

def FilterField.name (f : FilterField) : String := f.definition.name

inductive TypeUse where
  | object (entity : String)
  | input (entity : String)
  | filter (entity : String)
  | objectFields (entity : String) (fields : List OutputField)
  | inputFields (entity : String) (fields : List InputField)
  | filterFields (entity : String) (fields : List FilterField)

structure Tracked (ε α : Type) where
  outcome : Except ε α
  uses : List TypeUse

namespace Tracked

variable {ε ε' α β : Type}

def lift (outcome : Except ε α) : Tracked ε α := ⟨outcome, []⟩

def fail (e : ε) : Tracked ε α := ⟨.error e, []⟩

def note (use : TypeUse) : Tracked ε Unit := ⟨.ok (), [use]⟩

def andThen (x : Tracked ε α) (f : α → Tracked ε β) : Tracked ε β :=
  match x.outcome with
  | .ok a => ⟨(f a).outcome, x.uses ++ (f a).uses⟩
  | .error e => ⟨.error e, x.uses⟩

instance : Monad (Tracked ε) where
  pure a := lift (.ok a)
  bind := andThen

instance : MonadLift (Except ε) (Tracked ε) where
  monadLift := lift

def mapError (f : ε → ε') (x : Tracked ε α) : Tracked ε' α := ⟨x.outcome.mapError f, x.uses⟩

@[simp] theorem outcome_pure (a : α) : (pure a : Tracked ε α).outcome = .ok a := rfl

@[simp] theorem outcome_lift (x : Except ε α) : (lift x).outcome = x := rfl

@[simp] theorem outcome_note (use : TypeUse) : (note use : Tracked ε Unit).outcome = .ok () := rfl

@[simp] theorem outcome_mapError (f : ε → ε') (x : Tracked ε α) :
    (x.mapError f).outcome = x.outcome.mapError f := rfl

/-- The outcome of computations in a row is that of their outcomes in a row. -/
@[simp] theorem outcome_bind (x : Tracked ε α) (f : α → Tracked ε β) :
    (x >>= f).outcome = x.outcome >>= fun a => (f a).outcome := by
  show (x.andThen f).outcome = _
  unfold andThen
  cases x.outcome <;> rfl

end Tracked

end EntityGraph
