import EntityGraph.Proofs.Schema
import EntityGraph.Proofs.Schema.Handles
import EntityGraph.Proofs.Schema.Registry

/-!
The computations with types, with the kind of type as a parameter: what they use, and what the
registry makes of it.
-/

namespace EntityGraph

def TypeKind.use : TypeKind → String → TypeUse
  | .object => .object
  | .input => .input
  | .filter => .filter

def TypeKind.useFields : (k : TypeKind) → String → List k.Field → TypeUse
  | .object => .objectFields
  | .input => .inputFields
  | .filter => .filterFields

def TypeUse.isLookup : TypeUse → Bool
  | .object _ | .input _ | .filter _ => true
  | .objectFields _ _ | .inputFields _ _ | .filterFields _ _ => false

theorem TypeKind.isLookup_use (k : TypeKind) (name : String) : (k.use name).isLookup = true := by
  cases k <;> rfl

theorem TypeKind.isLookup_useFields (k : TypeKind) (name : String) (fields : List k.Field) :
    (k.useFields name fields).isLookup = false := by
  cases k <;> rfl

namespace Registry

variable {r r' : Registry}

def table (r : Registry) : (k : TypeKind) → TypeTable k.Field
  | .object => r.objects
  | .input => r.inputs
  | .filter => r.filters

theorem ext_table (h : r.table = r'.table) : r = r' := by
  obtain ⟨objects, inputs, filters⟩ := r
  obtain ⟨objects', inputs', filters'⟩ := r'
  obtain rfl : objects = objects' := congrFun h .object
  obtain rfl : inputs = inputs' := congrFun h .input
  obtain rfl : filters = filters' := congrFun h .filter
  rfl

theorem table_apply_use (r : Registry) (k : TypeKind) (name : String) :
    (r.apply (k.use name)).table = Function.update r.table k ((r.table k).register name) := by
  funext k'
  cases k <;> cases k' <;> rfl

theorem table_apply_useFields (r : Registry) (k : TypeKind) (name : String)
    (fields : List k.Field) : (r.apply (k.useFields name fields)).table =
      Function.update r.table k ((r.table k).compiled name fields) := by
  funext k'
  cases k <;> cases k' <;> rfl

theorem has_use {k : TypeKind} {name : String} : r.Has (k.use name) ↔ (r.table k).Has name := by
  cases k <;> rfl

end Registry

namespace Tracked

variable {ε α β : Type}

theorem uses_bind_of_ok {x : Tracked ε α} {a : α} (h : x.outcome = .ok a) (f : α → Tracked ε β) :
    (x >>= f).uses = x.uses ++ (f a).uses := by
  show (x.andThen f).uses = _
  rw [andThen, h]

theorem uses_bind_of_error {x : Tracked ε α} {err : ε} (h : x.outcome = .error err)
    (f : α → Tracked ε β) : (x >>= f).uses = x.uses := by
  show (x.andThen f).uses = _
  rw [andThen, h]

theorem mem_uses_mapM {f : α → Tracked ε β} {xs : List α} {ys : List β}
    (h : (xs.mapM f).outcome = .ok ys) {x : α} (hx : x ∈ xs) {use : TypeUse}
    (huse : use ∈ (f x).uses) : use ∈ (xs.mapM f).uses := by
  induction xs generalizing ys with
  | nil => cases hx
  | cons first xs ih =>
    rw [List.mapM_cons, outcome_bind] at h
    obtain ⟨y, hy, h⟩ := Outcome.bind_eq_ok.mp h
    rw [outcome_bind] at h
    obtain ⟨rest, hrest, _⟩ := Outcome.bind_eq_ok.mp h
    rw [List.mapM_cons, uses_bind_of_ok hy, uses_bind_of_ok hrest]
    rcases List.mem_cons.mp hx with rfl | hx
    · exact List.mem_append_left _ huse
    · exact List.mem_append_right _ (List.mem_append_left _ (ih hrest hx))

def LooksUp (x : Tracked ε α) : Prop := ∀ use ∈ x.uses, use.isLookup = true

theorem looksUp_lift (x : Except ε α) : (lift x).LooksUp := nofun

theorem looksUp_note {use : TypeUse} (h : use.isLookup = true) :
    (note use : Tracked ε Unit).LooksUp := by
  intro other hother
  rw [List.mem_singleton.mp hother]
  exact h

theorem LooksUp.bind {x : Tracked ε α} {f : α → Tracked ε β} (hx : x.LooksUp)
    (hf : ∀ a, (f a).LooksUp) : (x >>= f).LooksUp := by
  intro use huse
  cases h : x.outcome with
  | ok a =>
    rw [uses_bind_of_ok h] at huse
    exact (List.mem_append.mp huse).elim (hx use) (hf a use)
  | error err =>
    rw [uses_bind_of_error h] at huse
    exact hx use huse

theorem looksUp_mapM {f : α → Tracked ε β} {xs : List α} (h : ∀ x ∈ xs, (f x).LooksUp) :
    (xs.mapM f).LooksUp := by
  induction xs with
  | nil => exact looksUp_lift _
  | cons x xs ih =>
    rw [List.forall_mem_cons] at h
    rw [List.mapM_cons]
    exact h.1.bind fun y => (ih h.2).bind fun ys => looksUp_lift _

end Tracked

namespace Schema

variable {c : Catalog} {k : TypeKind} {e : Entity}

def typeOf (c : Catalog) : TypeKind → String → Tracked SchemaError Entity
  | .object => objectType c
  | .input => inputType c
  | .filter => filterType c

def fieldOf (c : Catalog) : (k : TypeKind) → Attribute → Tracked SchemaError k.Field
  | .object => outputField c
  | .input => inputField c
  | .filter => filterField c

def fieldsOf (c : Catalog) : (k : TypeKind) → Entity → Tracked SchemaError (List k.Field)
  | .object => objectFields c
  | .input => inputFields c
  | .filter => filterFields c

def targetsOf (c : Catalog) : TypeKind → Entity → Tracked SchemaError (List String)
  | .object => objectTargets c
  | .input => inputTargets c
  | .filter => filterTargets c

def blockOf (c : Catalog) : TypeKind → Entity → Tracked SchemaError Block
  | .object => objectBlock c
  | .input => inputBlock c
  | .filter => filterBlock c

theorem typeOf_eq (c : Catalog) (k : TypeKind) (name : String) : typeOf c k name = do
    let e ← Tracked.lift (c.require name)
    Tracked.note (k.use name)
    return e := by
  cases k <;> rfl

theorem outcome_typeOf (c : Catalog) (k : TypeKind) (name : String) :
    (typeOf c k name).outcome = c.require name := by
  cases k with
  | object => exact outcome_objectType c name
  | input => exact outcome_inputType c name
  | filter => exact outcome_filterType c name

def checkedFields (c : Catalog) (k : TypeKind) (e : Entity) :
    Tracked SchemaError (List k.Field) := do
  let fields ← (k.attributes e).mapM (fieldOf c k)
  Tracked.lift (k.check e fields.isEmpty)
  return fields

theorem fieldsOf_eq (c : Catalog) (k : TypeKind) (e : Entity) : fieldsOf c k e = do
    let fields ← checkedFields c k e
    Tracked.note (k.useFields e.name fields)
    return fields := by
  rw [checkedFields, bind_assoc]
  cases k with
  | object => rfl
  | filter => rfl
  | input =>
    refine bind_congr fun fields => ?_
    cases fields.isEmpty <;> rfl

theorem targetsOf_eq (c : Catalog) (k : TypeKind) (e : Entity) : targetsOf c k e = do
    let _ ← fieldsOf c k e
    return targets (k.attributes e) := by
  cases k <;> rfl

theorem blockOf_eq (c : Catalog) (k : TypeKind) (e : Entity) : blockOf c k e = do
    let fields ← fieldsOf c k e
    return k.block e fields := by
  cases k <;> rfl

theorem looksUp_typeOf (c : Catalog) (k : TypeKind) (name : String) :
    (typeOf c k name).LooksUp := by
  rw [typeOf_eq]
  exact (Tracked.looksUp_lift _).bind fun e =>
    (Tracked.looksUp_note (k.isLookup_use name)).bind fun _ => Tracked.looksUp_lift _

/-- Compiling one field only looks types up. -/
theorem looksUp_fieldOf (c : Catalog) (k : TypeKind) (a : Attribute) :
    (fieldOf c k a).LooksUp := by
  cases k with
  | object =>
    refine Tracked.LooksUp.bind ?_ fun _ => Tracked.looksUp_lift _
    rw [outputTarget]
    split
    · exact Tracked.looksUp_lift _
    · -- A field of an object also has a filter, so two types are looked up.
      exact (looksUp_typeOf c .object a.typeName).bind fun _ =>
        (looksUp_typeOf c .filter a.typeName).bind fun _ => Tracked.looksUp_lift _
  | input =>
    refine Tracked.LooksUp.bind ?_ fun _ => Tracked.looksUp_lift _
    rw [inputTarget]
    split
    · exact Tracked.looksUp_lift _
    · exact (looksUp_typeOf c .input a.typeName).bind fun _ => Tracked.looksUp_lift _
  | filter =>
    refine Tracked.LooksUp.bind ?_ fun _ => Tracked.looksUp_lift _
    rw [filterTarget]
    split
    · exact Tracked.looksUp_lift _
    · exact (looksUp_typeOf c .filter a.typeName).bind fun _ => Tracked.looksUp_lift _

theorem looksUp_checkedFields (c : Catalog) (k : TypeKind) (e : Entity) :
    (checkedFields c k e).LooksUp :=
  (Tracked.looksUp_mapM fun a _ => looksUp_fieldOf c k a).bind fun _ =>
    (Tracked.looksUp_lift _).bind fun _ => Tracked.looksUp_lift _

theorem outcome_fieldsOf (c : Catalog) (k : TypeKind) (e : Entity) :
    (fieldsOf c k e).outcome = (checkedFields c k e).outcome := by
  rw [fieldsOf_eq]
  simp only [Tracked.outcome_bind, Tracked.outcome_note, Tracked.outcome_pure]
  cases (checkedFields c k e).outcome <;> rfl

/-- Compiled fields are noted after everything that was looked up for them. -/
theorem uses_fieldsOf {fields : List k.Field} (h : (checkedFields c k e).outcome = .ok fields) :
    (fieldsOf c k e).uses = (checkedFields c k e).uses ++ [k.useFields e.name fields] := by
  rw [fieldsOf_eq, Tracked.uses_bind_of_ok h]
  rfl

/-- On failure the look-ups are noted all the same. -/
theorem uses_fieldsOf_of_error {err : SchemaError}
    (h : (checkedFields c k e).outcome = .error err) :
    (fieldsOf c k e).uses = (checkedFields c k e).uses := by
  rw [fieldsOf_eq, Tracked.uses_bind_of_error h]

/-- The fields of an output type come with the filter types of what they refer to. -/
theorem filter_mem_uses {fields : List OutputField} (h : (objectFields c e).outcome = .ok fields)
    {a : Attribute} (ha : a ∈ e.attributes) (hk : a.scalarKind? = none) :
    .filter a.typeName ∈ (objectFields c e).uses := by
  obtain ⟨read, hread, _⟩ := Outcome.bind_eq_ok.mp (Tracked.outcome_bind _ _ ▸ h)
  have hfield : .filter a.typeName ∈ (outputField c a).uses := by
    obtain ⟨f, _, hf⟩ := Outcome.exists_mem_right (objectFields_eq_ok.mp h) ha
    rw [outputField_entity hk] at hf
    obtain ⟨t, ht, _⟩ := Outcome.map_eq_ok.mp hf
    simp only [outputField, outputTarget, hk, objectType, filterType, ht, bind_assoc]
    simp [bind, Tracked.andThen, Tracked.lift, Tracked.note, pure]
  rw [objectFields, Tracked.uses_bind_of_ok hread]
  exact List.mem_append_left _ (Tracked.mem_uses_mapM hread ha hfield)

theorem name_target?_of_fieldOf {a : Attribute} {f : k.Field}
    (h : (fieldOf c k a).outcome = .ok f) :
    (k.target? f).map Entity.name = if a.isScalar then none else some a.typeName := by
  -- What is looked up has the name it was looked up by.
  have hname : ∀ {t : Entity}, c.require a.typeName = .ok t → t.name = a.typeName := fun ht =>
    (Catalog.entity?_eq_some.mp (Catalog.require_eq_ok.mp ht)).2
  cases hk : a.scalarKind? with
  | some kind =>
    rw [if_pos (by rw [Attribute.isScalar, hk]; rfl)]
    cases k with
    | object => exact Except.ok.inj ((outputField_scalar hk).symm.trans h) ▸ rfl
    | input => exact Except.ok.inj ((inputField_scalar hk).symm.trans h) ▸ rfl
    | filter => exact Except.ok.inj ((filterField_scalar hk).symm.trans h) ▸ rfl
  | none =>
    rw [if_neg (by rw [Attribute.isScalar, hk]; simp)]
    cases k with
    | object =>
      obtain ⟨t, ht, rfl⟩ := Outcome.map_eq_ok.mp ((outputField_entity hk).symm.trans h)
      exact congrArg some (hname ht)
    | input =>
      obtain ⟨t, ht, rfl⟩ := Outcome.map_eq_ok.mp ((inputField_entity hk).symm.trans h)
      exact congrArg some (hname ht)
    | filter =>
      obtain ⟨t, ht, rfl⟩ := Outcome.map_eq_ok.mp ((filterField_entity hk).symm.trans h)
      exact congrArg some (hname ht)

/-- The targets are the entities among the types of the attributes. -/
theorem targets_eq_filterMap (attributes : List Attribute) : targets attributes =
    attributes.filterMap fun a => if a.isScalar then none else some a.typeName := by
  induction attributes with
  | nil => rfl
  | cons a attributes ih =>
    rw [List.filterMap_cons, ← ih]
    cases ha : a.isScalar <;> simp [targets, ha]

/-- The fields of a type refer to what its attributes refer to, in the same order. -/
theorem names_of_fieldsOf {fields : List k.Field} (h : (fieldsOf c k e).outcome = .ok fields) :
    fields.filterMap (fun f => (k.target? f).map Entity.name) = targets (k.attributes e) := by
  rw [outcome_fieldsOf, checkedFields, Tracked.outcome_bind, Tracked.outcome_mapM] at h
  obtain ⟨read, hread, h⟩ := Outcome.bind_eq_ok.mp h
  rw [Tracked.outcome_bind] at h
  obtain ⟨_, _, h⟩ := Outcome.bind_eq_ok.mp h
  obtain rfl := Except.ok.inj h
  have hmap := Outcome.map_eq_of_forall₂ (Outcome.mapM_eq_ok.mp hread)
    (fun a _ f hf => name_target?_of_fieldOf hf)
  rw [targets_eq_filterMap]
  simpa [List.filterMap_map] using congrArg (List.filterMap id) hmap

end Schema

end EntityGraph
