import EntityGraph.Execution.Service
import EntityGraph.Proofs.Filter.Reading

/-!
Nulls that are left out of values. A null may be left out of an object where its key is known, and
which keys are known depends on where the object stands. Main statements: what is left keeps the
order of its keys, and under each key stands the same up to what is left out inside.
-/

namespace EntityGraph

/-- Where a value stands: as the arguments of a root field or of an attribute, as a filter, as a
constraint on a scalar, as the input for a record, or anywhere else. -/
inductive Place where
  | rootField (f : RootField)
  | attribute (a : Attribute)
  | filter (e : Entity)
  | constraint (kind : ScalarKind)
  | input (e : Entity)
  | elsewhere

namespace Place

variable (service : Service)

def knows : Place → String → Bool
  | .rootField f, key => (f.parameters service.pages).any fun p => p.name == key
  | .attribute a, key =>
    key == "start" || key == "limit" || (key == "filter" && (a.repeating || !a.isScalar))
  | .filter e, key => key == joinKey || key == childrenKey || (e.attribute? key).isSome
  | .constraint kind, key => (Operator.ofKey? kind key).isSome
  | .input e, key => (e.attribute? key).any Schema.isSettable
  | .elsewhere, _ => false

def ofEntity (place : Entity → Place) (name : String) : Place :=
  match service.catalog.entity? name with
  | some e => place e
  | none => .elsewhere

def ofFiltered (a : Attribute) : Place :=
  match a.scalarKind? with
  | some kind => .constraint kind
  | none => ofEntity service .filter a.typeName

def ofGiven (a : Attribute) : Place :=
  match a.scalarKind? with
  | some _ => .elsewhere
  | none => ofEntity service .input a.typeName

/-- The place of the value under a key. The items of a list stand where the list stands. -/
def inside : Place → String → Place
  | .rootField f, key =>
    match f.action with
    | .search => if key = "filter" then ofEntity service .filter f.entity else .elsewhere
    | .create argument => if key = argument then ofEntity service .input f.entity else .elsewhere
    | .lookup _ => .elsewhere
  | .attribute a, key => if key = "filter" then ofFiltered service a else .elsewhere
  | .filter e, key =>
    if key = joinKey then .elsewhere
    else if key = childrenKey then .filter e
    else match e.attribute? key with
      | some a => ofFiltered service a
      | none => .elsewhere
  | .input e, key =>
    match e.attribute? key with
    | some a => ofGiven service a
    | none => .elsewhere
  | .constraint _, _ => .elsewhere
  | .elsewhere, _ => .elsewhere

end Place

mutual

/-- A value at a place, and the same value without some of its nulls that have known keys. -/
inductive Omits (service : Service) : Place → Value → Value → Prop
  | same (place : Place) (v : Value) : Omits service place v v
  | list {place : Place} {items items' : List Value} : OmitsItems service place items items' →
      Omits service place (.list items) (.list items')
  | object {place : Place} {fields fields' : Arguments} : (fields.map Prod.fst).Nodup →
      OmitsFields service place fields fields' →
      Omits service place (.object fields) (.object fields')

inductive OmitsItems (service : Service) : Place → List Value → List Value → Prop
  | nil (place : Place) : OmitsItems service place [] []
  | cons {place : Place} {v v' : Value} {items items' : List Value} : Omits service place v v' →
      OmitsItems service place items items' →
      OmitsItems service place (v :: items) (v' :: items')

/-- Fields without some of those that are null and known, and without some nulls inside them. -/
inductive OmitsFields (service : Service) : Place → Arguments → Arguments → Prop
  | nil (place : Place) : OmitsFields service place [] []
  | omitted {place : Place} {key : String} {fields fields' : Arguments} :
      place.knows service key = true → OmitsFields service place fields fields' →
      OmitsFields service place ((key, .null) :: fields) fields'
  | kept {place : Place} {key : String} {v v' : Value} {fields fields' : Arguments} :
      Omits service (place.inside service key) v v' → OmitsFields service place fields fields' →
      OmitsFields service place ((key, v) :: fields) ((key, v') :: fields')

end

variable {service : Service} {place : Place}

namespace Omits

variable {v v' : Value}

theorem isNull_eq (h : Omits service place v v') : v'.isNull = v.isNull := by
  cases h <;> rfl

theorem isObject_eq (h : Omits service place v v') : v'.isObject = v.isObject := by
  cases h <;> rfl

end Omits

mutual

/-- Where no key is known nothing is left out. -/
theorem Omits.eq_of_elsewhere : ∀ {v v' : Value}, Omits service .elsewhere v v' → v' = v
  | _, _, .same _ _ => rfl
  | .list _, .list _, .list h => congrArg Value.list h.eq_of_elsewhere
  | .object _, .object _, .object _ h => congrArg Value.object h.eq_of_elsewhere

/-- Where no key is known nothing is left out. -/
theorem OmitsItems.eq_of_elsewhere : ∀ {items items' : List Value},
    OmitsItems service .elsewhere items items' → items' = items
  | [], [], .nil _ => rfl
  | _ :: _, _ :: _, .cons hv h => by rw [hv.eq_of_elsewhere, h.eq_of_elsewhere]

theorem OmitsFields.eq_of_elsewhere : ∀ {fields fields' : Arguments},
    OmitsFields service .elsewhere fields fields' → fields' = fields
  | [], [], .nil _ => rfl
  | (_, _) :: _, (_, _) :: _, .kept hv h => by rw [Omits.eq_of_elsewhere hv, h.eq_of_elsewhere]

end

namespace OmitsFields

variable {fields fields' : Arguments}

/-- What is left has its keys in order. -/
theorem sublist (h : OmitsFields service place fields fields') :
    (fields'.map Prod.fst).Sublist (fields.map Prod.fst) := by
  induction fields generalizing fields' with
  | nil => cases h; exact .slnil
  | cons field fields ih =>
    cases h with
    | omitted _ h => exact (ih h).cons _
    | kept _ h => exact (ih h).cons_cons _

/-- What stands under a key, be it null or not there, stands there without some nulls. -/
theorem omits_lookup (h : OmitsFields service place fields fields')
    (hkeys : (fields.map Prod.fst).Nodup) (key : String) :
    Omits service (place.inside service key) ((fields.lookup key).getD .null)
      ((fields'.lookup key).getD .null) := by
  induction fields generalizing fields' with
  | nil => cases h; exact .same _ _
  | cons field fields ih =>
    rw [List.map_cons, List.nodup_cons] at hkeys
    cases h with
    | @omitted _ name _ _ _ h =>
      rw [List.lookup_cons]
      cases hkey : key == name with
      | false => exact ih h hkeys.2
      | true =>
        -- The key is not among the others, so nothing is found for it any more.
        have hnone : fields'.lookup key = none := by
          refine List.lookup_eq_none_iff.mpr fun field hfield => bne_iff_ne.mpr fun heq => ?_
          have hmem : field.1 ∈ fields.map Prod.fst :=
            h.sublist.subset (List.mem_map_of_mem hfield)
          exact hkeys.1 (beq_iff_eq.mp hkey ▸ heq ▸ hmem)
        rw [hnone]
        exact .same _ _
    | @kept _ name _ _ _ _ hv h =>
      rw [List.lookup_cons, List.lookup_cons]
      cases hkey : key == name with
      | false => exact ih h hkeys.2
      | true => exact beq_iff_eq.mp hkey ▸ hv

/-- The first field whose key is not known is still the first. -/
theorem find?_unknown (h : OmitsFields service place fields fields') {unknown : String → Bool}
    (hknown : ∀ key, place.knows service key = true → unknown key = false) :
    (fields.find? fun field => unknown field.1) = none ∧
        (fields'.find? fun field => unknown field.1) = none ∨
      ∃ key v v', (fields.find? fun field => unknown field.1) = some (key, v) ∧
        (fields'.find? fun field => unknown field.1) = some (key, v') := by
  induction fields generalizing fields' with
  | nil => cases h; exact Or.inl ⟨rfl, rfl⟩
  | cons field fields ih =>
    cases h with
    | @omitted _ key _ _ hkey h =>
      rw [List.find?_cons, hknown key hkey]
      exact ih h
    | @kept _ key v v' _ _ _ h =>
      rw [List.find?_cons, List.find?_cons]
      cases unknown key with
      | true => exact Or.inr ⟨key, v, v', rfl, rfl⟩
      | false => exact ih h

end OmitsFields

end EntityGraph
