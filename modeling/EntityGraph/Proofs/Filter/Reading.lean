import EntityGraph.Filter.Compile
import EntityGraph.Proofs.Catalog
import EntityGraph.Proofs.Filter.Tree

namespace EntityGraph

theorem Value.eq_null_of_isNull {v : Value} (h : v.isNull = true) : v = .null := by
  cases v <;> first | rfl | cases h

/-- Induction over the filters that stand in a filter: the values of an object's fields, and the
items of those that are lists. -/
@[elab_as_elim]
theorem Value.filter_induction {P : Value → Prop} (other : ∀ v, v.isObject = false → P v)
    (object : ∀ fields, (∀ field ∈ fields, P field.2) →
      (∀ field ∈ fields, ∀ items, field.2 = .list items → ∀ item ∈ items, P item) →
      P (.object fields)) : ∀ v, P v := by
  -- The items of a list are carried along with it, as the recursor reaches them only there.
  suffices h : ∀ v, P v ∧ ∀ items, v = .list items → ∀ item ∈ items, P item from fun v => (h v).1
  intro v
  refine @Value.rec (fun v => P v ∧ ∀ items, v = .list items → ∀ item ∈ items, P item)
    (fun items => ∀ item ∈ items, P item)
    (fun fields => ∀ field ∈ fields,
      P field.2 ∧ ∀ items, field.2 = .list items → ∀ item ∈ items, P item)
    (fun field => P field.2 ∧ ∀ items, field.2 = .list items → ∀ item ∈ items, P item)
    ?_ ?_ ?_ ?_ ?_ ?_ ?_ ?_ ?_ ?_ ?_ ?_ v
  · exact ⟨other _ rfl, by simp⟩
  · exact fun b => ⟨other _ rfl, by simp⟩
  · exact fun n => ⟨other _ rfl, by simp⟩
  · exact fun s => ⟨other _ rfl, by simp⟩
  · exact fun name => ⟨other _ rfl, by simp⟩
  · intro items h
    refine ⟨other _ rfl, ?_⟩
    rintro items' ⟨⟩
    exact h
  · intro fields h
    exact ⟨object fields (fun f hf => (h f hf).1) (fun f hf => (h f hf).2), by simp⟩
  · simp
  · intro item items hitem hitems
    exact List.forall_mem_cons.mpr ⟨hitem.1, hitems⟩
  · simp
  · intro field fields hfield hfields
    exact List.forall_mem_cons.mpr ⟨hfield, hfields⟩
  · exact fun _ _ h => h

namespace Filter

def namedJoin : Value → Join
  | .enum name | .string name => if name = Join.any.name then .any else .all
  | _ => .all

def joinFrom (join : Join) (fields : Arguments) : Join :=
  fields.foldl (fun join field => if field.1 = joinKey then namedJoin field.2 else join) join

/-- The join of a filter object: all parts must hold unless the object says otherwise. -/
def joinOf (fields : Arguments) : Join := joinFrom .all fields

def readChild (c : Catalog) (e : Entity) (path : String) (item : Value) :
    Except Error (FilterTree Constraint) :=
  if item.isObject then readObject c e path item else .error (.filter .invalidChildren)

def readBranches (c : Catalog) (e : Entity) (path : String) :
    Value → Except Error (List (FilterTree Constraint))
  | .null => .ok []
  | .list items => items.mapM (readChild c e path)
  | .object fields => (readObject c e path (.object fields)).map ([·])
  | _ => .error (.filter .invalidChildren)

def readAttribute (c : Catalog) (a : Attribute) (path : String) (value : Value) :
    Except Error (List (FilterTree Constraint)) :=
  match a.scalarKind? with
  | some kind => readLeaf kind path value
  | none => do
    let target ← (c.require a.typeName).mapError .schema
    let below ← readObject c target (path ++ ".") value
    (belowAttribute a below).mapError .filter

def readField (c : Catalog) (e : Entity) (path : String) (field : String × Value) :
    Except Error (List (FilterTree Constraint)) :=
  if field.1 = joinKey then ((readJoin field.2).mapError .filter).map fun _ => []
  else if field.1 = childrenKey then readBranches c e path field.2
  else do
    let a ← (filterable e path field.1).mapError .filter
    if field.2.isNull then .ok [] else readAttribute c a (path ++ field.1) field.2

theorem ofName?_eq_some {name : String} {join : Join} :
    Join.ofName? name = some join ↔ name = join.name := by
  unfold Join.ofName?
  split
  · cases join <;> simp [Join.name]
  · cases join <;> simp [Join.name]
  · next hany hall =>
    cases join with
    | all => simpa [Join.name] using hall
    | any => simpa [Join.name] using hany

/-- A join that is read is the one its value names. -/
theorem namedJoin_of_readJoin {value : Value} {join : Join} (h : readJoin value = .ok join) :
    namedJoin value = join := by
  have hname : ∀ name, Join.ofName? name = some join →
      (if name = Join.any.name then Join.any else Join.all) = join := by
    intro name hn
    rw [ofName?_eq_some.mp hn]
    cases join <;> rfl
  cases value with
  | null => simpa [readJoin, namedJoin] using h
  | enum name =>
    rw [readJoin] at h
    split at h
    · next hn => exact hname name (hn.trans (congrArg some (Except.ok.inj h)))
    · cases h
  | string name =>
    rw [readJoin] at h
    split at h
    · next hn => exact hname name (hn.trans (congrArg some (Except.ok.inj h)))
    · cases h
  | _ => simp [readJoin] at h

/-- Children are read one by one. -/
theorem readChildren_eq (c : Catalog) (e : Entity) (path : String) (items : List Value) :
    readChildren c e path items = items.mapM (readChild c e path) := by
  induction items with
  | nil => rw [readChildren]; rfl
  | cons item items ih =>
    rw [readChildren, List.mapM_cons, ih, readChild]
    cases item.isObject <;> rfl

/-- Children and the fields after them may fail in turn; gathering after both is gathering once. -/
theorem gather_children {ε α : Type} (join : Join) (x : Except ε (List α))
    (ys : Except ε (List (List α))) :
    (x >>= fun children => (ys.map fun trees => (join, List.flatten trees)).map fun rest =>
        (rest.1, children ++ rest.2)) =
      (x >>= fun children => ys >>= fun more => pure (children :: more)).map fun trees =>
        (join, List.flatten trees) := by
  cases x <;> cases ys <;> rfl

/-- The loop over the fields in one pass: a tree for each, and the last join that is named. -/
theorem readFields_eq (c : Catalog) (e : Entity) (path : String) (join : Join)
    (fields : Arguments) : readFields c e path join fields =
      (fields.mapM (readField c e path)).map fun trees => (joinFrom join fields, trees.flatten) := by
  induction fields generalizing join with
  | nil => rw [readFields]; rfl
  | cons field fields ih =>
    obtain ⟨key, value⟩ := field
    rw [readFields, List.mapM_cons, readField]
    by_cases hj : key = joinKey
    · -- A join replaces the one so far, hence the statement about every join to start with.
      rw [if_pos hj, if_pos hj]
      cases h : readJoin value with
      | error err => rfl
      | ok join' =>
        have hfrom : joinFrom join ((key, value) :: fields) = joinFrom join' fields := by
          rw [joinFrom, List.foldl_cons, if_pos hj, namedJoin_of_readJoin h, joinFrom]
        show readFields c e path join' fields = _
        rw [ih, hfrom]
        cases fields.mapM (readField c e path) <;> rfl
    · have hfrom : joinFrom join ((key, value) :: fields) = joinFrom join fields := by
        rw [joinFrom, List.foldl_cons, if_neg hj, joinFrom]
      rw [if_neg hj, if_neg hj, hfrom]
      -- Of the other keys both sides read first this field, then the rest.
      rw [← gather_children, ← ih]
      by_cases hc : key = childrenKey
      · rw [if_pos hc, if_pos hc]
        cases value with
        | list items => rw [readBranches, ← readChildren_eq]
        | object inner =>
          rw [readBranches, readObject]
          dsimp only
          cases readFields c e path .all inner <;> rfl
        | _ => rfl
      · rw [if_neg hc, if_neg hc]
        cases filterable e path key with
        | error err => rfl
        | ok a =>
          simp only [Except.mapError, bind, Except.bind]
          cases value.isNull with
          | true => rfl
          | false =>
            simp only [readAttribute, Bool.false_eq_true, ↓reduceIte]
            cases a.scalarKind? with
            | some kind => rfl
            | none =>
              cases c.require a.typeName with
              | error err => rfl
              | ok target =>
                cases h : readObject c target (path ++ key ++ ".") value with
                | error err => simp [Except.mapError, bind, Except.bind, h]
                | ok below => simp [Except.mapError, bind, Except.bind, h]

/-- An object is the join of what its fields give. -/
theorem readObject_object (c : Catalog) (e : Entity) (path : String) (fields : Arguments) :
    readObject c e path (.object fields) =
      (fields.mapM (readField c e path)).map fun trees =>
        .node (joinOf fields) trees.flatten := by
  rw [readObject, readFields_eq, joinOf]
  cases fields.mapM (readField c e path) <;> rfl

/-- An object is read field by field, and its node joins all their trees. -/
theorem readObject_object_eq_ok {c : Catalog} {e : Entity} {path : String} {fields : Arguments}
    {t : FilterTree Constraint} : readObject c e path (.object fields) = .ok t ↔
      ∃ trees, List.Forall₂ (fun field ts => readField c e path field = .ok ts) fields trees ∧
        .node (joinOf fields) trees.flatten = t := by
  rw [readObject_object, Outcome.map_eq_ok]
  simp only [Outcome.mapM_eq_ok]

/-- Only objects are read as filters. -/
theorem isObject_of_readObject {c : Catalog} {e : Entity} {path : String} {v : Value}
    {t : FilterTree Constraint} (h : readObject c e path v = .ok t) :
    ∃ fields, v = .object fields := by
  cases v with
  | object fields => exact ⟨fields, rfl⟩
  | _ => simp [readObject] at h

end Filter

end EntityGraph
