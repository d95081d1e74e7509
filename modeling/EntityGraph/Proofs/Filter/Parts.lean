import EntityGraph.Proofs.Filter.Paths

namespace EntityGraph.Filter

structure Constrained (e : Entity) (key : String) (value : Value) (a : Attribute) : Prop where
  not_join : key ≠ joinKey
  not_children : key ≠ childrenKey
  found : e.attribute? key = some a
  not_null : value.isNull = false

inductive Gives (c : Catalog) (e : Entity) : String → Value → List (FilterTree Constraint) → Prop
  | join {value : Value} {join : Join} : readJoin value = .ok join → Gives c e joinKey value []
  | noChildren : Gives c e childrenKey .null []
  | child {fields : Arguments} {t : FilterTree Constraint} :
      readObject c e "" (.object fields) = .ok t → Gives c e childrenKey (.object fields) [t]
  | children {items : List Value} {ts : List (FilterTree Constraint)} :
      List.Forall₂ (fun item t => readObject c e "" item = .ok t) items ts →
      Gives c e childrenKey (.list items) ts
  | absent {key : String} {a : Attribute} : key ≠ joinKey → key ≠ childrenKey →
      e.attribute? key = some a → Gives c e key .null []
  | scalar {key : String} {value : Value} {a : Attribute} {kind : ScalarKind} {k : Constraint} :
      Constrained e key value a → a.scalarKind? = some kind →
      readConstraint kind key value = .ok k → Gives c e key value [.leaf k]
  | single {key : String} {value : Value} {a : Attribute} {target : Entity}
      {t : FilterTree Constraint} : Constrained e key value a → a.scalarKind? = none →
      c.entity? a.typeName = some target → a.repeating = false →
      readObject c target "" value = .ok t →
      Gives c e key value [t.map (Constraint.below (key ++ "."))]
  | repeating {key : String} {value : Value} {a : Attribute} {target : Entity}
      {t : FilterTree Constraint} {kept : Option (FilterTree Constraint)} :
      Constrained e key value a → a.scalarKind? = none → c.entity? a.typeName = some target →
      a.repeating = true → readObject c target "" value = .ok t → t.perElement? = some kept →
      Gives c e key value (kept.map (FilterTree.map (Constraint.below (key ++ ".")))).toList

theorem filterable_eq_ok {e : Entity} {path name : String} {a : Attribute} :
    filterable e path name = .ok a ↔ e.attribute? name = some a := by
  rw [← toOption_filterable e path, Outcome.toOption_eq_some]

theorem childrenKey_ne_joinKey : childrenKey ≠ joinKey := by decide

/-- The join's field gives no trees, but can fail. -/
theorem readField_join (c : Catalog) (e : Entity) (path : String) (value : Value) :
    readField c e path (joinKey, value) =
      ((readJoin value).mapError Error.filter).map fun _ => [] := by
  rw [readField, if_pos rfl]

theorem readField_children (c : Catalog) (e : Entity) (path : String) (value : Value) :
    readField c e path (childrenKey, value) = readBranches c e path value := by
  rw [readField, if_neg childrenKey_ne_joinKey, if_pos rfl]

/-- A null on an attribute that exists imposes nothing. -/
theorem readField_null (c : Catalog) {e : Entity} (path : String) {key : String} {a : Attribute}
    (hj : key ≠ joinKey) (hc : key ≠ childrenKey) (ha : e.attribute? key = some a) :
    readField c e path (key, .null) = .ok [] := by
  have hfound : filterable e path key = .ok a := filterable_eq_ok.mpr ha
  simp [readField, hj, hc, hfound, Value.isNull, Except.mapError, bind, Except.bind]

/-- A field that constrains an attribute is read as the attribute's kind says. -/
theorem readField_constrained (c : Catalog) {e : Entity} (path : String) {key : String}
    {value : Value} {a : Attribute} (h : Constrained e key value a) :
    readField c e path (key, value) = readAttribute c a (path ++ key) value := by
  have hfound : filterable e path key = .ok a := filterable_eq_ok.mpr h.found
  simp [readField, h.not_join, h.not_children, h.not_null, hfound, Except.mapError, bind,
    Except.bind]

theorem readAttribute_scalar (c : Catalog) {a : Attribute} {kind : ScalarKind} (path : String)
    (value : Value) (hk : a.scalarKind? = some kind) : readAttribute c a path value =
      ((readConstraint kind path value).mapError Error.filter).map fun k => [.leaf k] := by
  rw [readAttribute, hk]
  show readLeaf kind path value = _
  rw [readLeaf]
  cases readConstraint kind path value <;> rfl

/-- A filter on an entity attribute is read on the target, with the attribute's path before it. -/
theorem readAttribute_entity {c : Catalog} {target : Entity} {a : Attribute} (path : String)
    (value : Value) (hk : a.scalarKind? = none) (ht : c.entity? a.typeName = some target) :
    readAttribute c a path value = readObject c target (path ++ ".") value >>= fun t =>
      (belowAttribute a t).mapError Error.filter := by
  have hrequire : c.require a.typeName = .ok target := Catalog.require_eq_ok.mpr ht
  rw [readAttribute, hk]
  simp only [hrequire]
  rfl

theorem readChild_eq_ok {c : Catalog} {e : Entity} {path : String} {item : Value}
    {t : FilterTree Constraint} :
    readChild c e path item = .ok t ↔ readObject c e path item = .ok t := by
  rw [readChild]
  split
  · rfl
  · next h =>
    constructor
    · intro hc
      cases hc
    · intro hr
      obtain ⟨fields, rfl⟩ := isObject_of_readObject hr
      exact absurd rfl h

/-- Below a path an object is read as it is alone, with the path before each constraint. -/
theorem readObject_below_eq_ok {c : Catalog} {e : Entity} {path : String} {v : Value}
    {t' : FilterTree Constraint} : readObject c e path v = .ok t' ↔
      ∃ t, readObject c e "" v = .ok t ∧ t.map (Constraint.below path) = t' := by
  rw [← Outcome.toOption_eq_some, readObject_below, Option.map_eq_some_iff]
  simp only [Outcome.toOption_eq_some]

theorem belowAttribute_single {a : Attribute} {t : FilterTree Constraint}
    {ts : List (FilterTree Constraint)} (hrep : a.repeating = false) :
    belowAttribute a t = .ok ts ↔ [t] = ts := by
  rw [belowAttribute, hrep]
  simp

/-- Below a repeating attribute a tree is kept, dropped or refused by what one element can decide.
-/
theorem belowAttribute_repeating {a : Attribute} {t : FilterTree Constraint}
    {ts : List (FilterTree Constraint)} (hrep : a.repeating = true) :
    belowAttribute a t = .ok ts ↔ ∃ kept, t.perElement? = some kept ∧ kept.toList = ts := by
  rw [belowAttribute, hrep]
  cases t.perElement? <;> simp

/-- Only below a repeating attribute can a tree be refused for its shape. -/
theorem belowAttribute_eq_error {a : Attribute} {t : FilterTree Constraint} {err : FilterError} :
    belowAttribute a t = .error err ↔
      a.repeating = true ∧ t.perElement? = none ∧ err = .unsupportedShape := by
  rw [belowAttribute]
  cases a.repeating with
  | false => simp
  | true => cases t.perElement? <;> simp [eq_comm]

/-- What is read of an attribute's filter is what the field gives. -/
theorem readAttribute_eq_ok {c : Catalog} {e : Entity} {key : String} {value : Value}
    {a : Attribute} {ts : List (FilterTree Constraint)} (hc : Constrained e key value a)
    (h : readAttribute c a key value = .ok ts) : Gives c e key value ts := by
  rw [readAttribute] at h
  cases hk : a.scalarKind? with
  | some kind =>
    rw [hk] at h
    obtain ⟨k, hr, h⟩ := Outcome.bind_eq_ok.mp h
    obtain rfl := Except.ok.inj h
    exact .scalar hc hk (Outcome.mapError_eq_ok.mp hr)
  | none =>
    rw [hk] at h
    obtain ⟨target, ht, h⟩ := Outcome.bind_eq_ok.mp h
    obtain ⟨t', hr, h⟩ := Outcome.bind_eq_ok.mp h
    have ht := Catalog.require_eq_ok.mp (Outcome.mapError_eq_ok.mp ht)
    obtain ⟨t, hread, rfl⟩ := readObject_below_eq_ok.mp hr
    rw [Outcome.mapError_eq_ok] at h
    cases hrep : a.repeating with
    | false =>
      obtain rfl := (belowAttribute_single hrep).mp h
      exact .single hc hk ht hrep hread
    | true =>
      obtain ⟨kept', hkept', rfl⟩ := (belowAttribute_repeating hrep).mp h
      -- Its shape does not depend on the path, which is put before the fields first.
      rw [FilterTree.perElement?_map, Option.map_eq_some_iff] at hkept'
      obtain ⟨kept, hkept, rfl⟩ := hkept'
      exact .repeating hc hk ht hrep hread hkept

/-- A field that is read gives what its kind says. -/
theorem gives_of_readField {c : Catalog} {e : Entity} {field : String × Value}
    {ts : List (FilterTree Constraint)} (h : readField c e "" field = .ok ts) :
    Gives c e field.1 field.2 ts := by
  obtain ⟨key, value⟩ := field
  rw [readField] at h
  split at h
  · next hj =>
    obtain rfl : key = joinKey := hj
    obtain ⟨join, hr, rfl⟩ := Outcome.map_eq_ok.mp h
    exact .join (Outcome.mapError_eq_ok.mp hr)
  · next hj =>
    split at h
    · next hc =>
      obtain rfl : key = childrenKey := hc
      cases value with
      | null =>
        obtain rfl := Except.ok.inj h
        exact .noChildren
      | list items =>
        refine .children ((Outcome.mapM_eq_ok.mp h).imp fun item t ht => ?_)
        exact readChild_eq_ok.mp ht
      | object fields =>
        obtain ⟨t, ht, rfl⟩ := Outcome.map_eq_ok.mp h
        exact .child ht
      | _ => cases h
    · next hc =>
      -- Any other key is an attribute.
      obtain ⟨a, ha, h⟩ := Outcome.bind_eq_ok.mp h
      have ha := filterable_eq_ok.mp (Outcome.mapError_eq_ok.mp ha)
      cases hn : value.isNull with
      | true =>
        obtain rfl := Value.eq_null_of_isNull hn
        obtain rfl := Except.ok.inj h
        exact .absent hj hc ha
      | false =>
        simp only [hn, Bool.false_eq_true, ↓reduceIte, String.empty_append] at h
        exact readAttribute_eq_ok ⟨hj, hc, ha, hn⟩ h

theorem readAttribute_read {c : Catalog} {target : Entity} {key : String} {value : Value}
    {a : Attribute} {t : FilterTree Constraint} (hk : a.scalarKind? = none)
    (ht : c.entity? a.typeName = some target) (hread : readObject c target "" value = .ok t) :
    readAttribute c a key value =
      (belowAttribute a (t.map (Constraint.below (key ++ ".")))).mapError .filter := by
  have hbelow := readObject_below_eq_ok.mpr
    ⟨t, hread, (rfl : t.map (Constraint.below (key ++ ".")) = _)⟩
  rw [readAttribute_entity key value hk ht, hbelow]
  rfl

/-- What a field gives is what is read of it. -/
theorem readField_of_gives {c : Catalog} {e : Entity} {key : String} {value : Value}
    {ts : List (FilterTree Constraint)} (h : Gives c e key value ts) :
    readField c e "" (key, value) = .ok ts := by
  cases h with
  | join hread =>
    rw [readField_join, hread]
    rfl
  | noChildren => rw [readField_children, readBranches]
  | child hread =>
    rw [readField_children, readBranches, hread]
    rfl
  | children hread =>
    rw [readField_children, readBranches]
    exact Outcome.mapM_eq_ok.mpr (hread.imp fun _ _ => readChild_eq_ok.mpr)
  | absent hj hc ha => exact readField_null c "" hj hc ha
  | scalar hcon hk hread =>
    rw [readField_constrained c "" hcon, String.empty_append, readAttribute_scalar c key value hk,
      hread]
    rfl
  | single hcon hk ht hrep hread =>
    rw [readField_constrained c "" hcon, String.empty_append, readAttribute_read hk ht hread,
      belowAttribute, hrep]
    rfl
  -- Whatever is kept for the elements, a tree or nothing.
  | @repeating _ _ _ _ _ kept hcon hk ht hrep hread hkept =>
    rw [readField_constrained c "" hcon, String.empty_append, readAttribute_read hk ht hread,
      belowAttribute, hrep, FilterTree.perElement?_map, hkept]
    cases kept <;> rfl

abbrev AllGive (c : Catalog) (e : Entity) (fields : Arguments)
    (trees : List (List (FilterTree Constraint))) : Prop :=
  List.Forall₂ (fun field ts => Gives c e field.1 field.2 ts) fields trees

theorem AllGive.of_field {c : Catalog} {e : Entity} {fields : Arguments}
    {trees : List (List (FilterTree Constraint))} (h : AllGive c e fields trees) {key : String}
    {value : Value} (hf : (key, value) ∈ fields) : ∃ ts ∈ trees, Gives c e key value ts :=
  Outcome.exists_mem_right h hf

theorem AllGive.of_tree {c : Catalog} {e : Entity} {fields : Arguments}
    {trees : List (List (FilterTree Constraint))} (h : AllGive c e fields trees)
    {ts : List (FilterTree Constraint)} (hts : ts ∈ trees) :
    ∃ key value, (key, value) ∈ fields ∧ Gives c e key value ts := by
  obtain ⟨⟨key, value⟩, hf, hg⟩ := Outcome.exists_mem_left h hts
  exact ⟨key, value, hf, hg⟩

/-- An object is read when each of its fields gives something, and as the join of these. -/
theorem readObject_gives {c : Catalog} {e : Entity} {fields : Arguments}
    {t : FilterTree Constraint} : readObject c e "" (.object fields) = .ok t ↔
      ∃ trees, AllGive c e fields trees ∧ .node (joinOf fields) trees.flatten = t := by
  rw [readObject_object_eq_ok]
  constructor
  · intro h
    obtain ⟨trees, htrees, ht⟩ := h
    exact ⟨trees, htrees.imp fun _ _ => gives_of_readField, ht⟩
  · intro h
    obtain ⟨trees, htrees, ht⟩ := h
    exact ⟨trees, htrees.imp fun _ _ => readField_of_gives, ht⟩

theorem compile_null (c : Catalog) (e : Entity) : compile c e .null = .ok [] := rfl

/-- A filter that is given is read, and its shape is looked at afterwards. -/
theorem compile_of_ne_null (c : Catalog) (e : Entity) {f : Value} (hf : f ≠ .null) :
    compile c e f = readObject c e "" f >>= fun t => match t.groups? with
      | some groups => .ok groups
      | none => .error (.filter .unsupportedShape) := by
  have hn : f.isNull = false := by
    cases h : f.isNull with
    | false => rfl
    | true => exact absurd (Value.eq_null_of_isNull h) hf
  simp only [compile, hn, Bool.false_eq_true, ↓reduceIte]
  rfl

/-- A filter compiles when it is null, or when it is read and its tree has groups. -/
theorem compile_eq_ok {c : Catalog} {e : Entity} {f : Value} {groups : List FilterGroup} :
    compile c e f = .ok groups ↔ f = .null ∧ groups = [] ∨
      ∃ t, readObject c e "" f = .ok t ∧ t.groups? = some groups := by
  by_cases hf : f = .null
  · subst hf
    have hread : ∀ t, readObject c e "" .null ≠ .ok t := by simp [readObject]
    simp [compile_null, hread, eq_comm]
  · simp only [compile_of_ne_null c e hf, Outcome.bind_eq_ok, hf, false_and, false_or]
    refine exists_congr fun t => and_congr_right fun _ => ?_
    cases t.groups? <;> simp

/-- A filter fails to compile when it is not read, or when its tree has no groups. -/
theorem compile_eq_error {c : Catalog} {e : Entity} {f : Value} {err : Error} :
    compile c e f = .error err ↔ f ≠ .null ∧ readObject c e "" f = .error err ∨
      ∃ t, readObject c e "" f = .ok t ∧ t.groups? = none ∧ err = .filter .unsupportedShape := by
  by_cases hf : f = .null
  · subst hf
    have hread : ∀ t, readObject c e "" .null ≠ .ok t := by simp [readObject]
    simp [compile_null, hread]
  · simp only [compile_of_ne_null c e hf, Outcome.bind_eq_error, hf, ne_eq, not_false_eq_true,
      true_and]
    refine or_congr_right (exists_congr fun t => and_congr_right fun _ => ?_)
    cases t.groups? <;> simp [eq_comm]

/-- A field is read as what it gives, and only as that. -/
theorem readField_eq_ok {c : Catalog} {e : Entity} {key : String} {value : Value}
    {ts : List (FilterTree Constraint)} :
    readField c e "" (key, value) = .ok ts ↔ Gives c e key value ts :=
  ⟨gives_of_readField, readField_of_gives⟩

/-- A list of child filters gives their trees in order. -/
theorem gives_children {c : Catalog} {e : Entity} {items : List Value}
    {ts : List (FilterTree Constraint)} : Gives c e childrenKey (.list items) ts ↔
      List.Forall₂ (fun item t => readObject c e "" item = .ok t) items ts := by
  rw [← readField_eq_ok, readField_children, readBranches, Outcome.mapM_eq_ok]
  simp only [readChild_eq_ok]

theorem gives_child {c : Catalog} {e : Entity} {fields : Arguments}
    {ts : List (FilterTree Constraint)} : Gives c e childrenKey (.object fields) ts ↔
      ∃ t, readObject c e "" (.object fields) = .ok t ∧ [t] = ts := by
  rw [← readField_eq_ok, readField_children, readBranches, Outcome.map_eq_ok]

theorem gives_entity {c : Catalog} {e target : Entity} {key : String} {value : Value}
    {a : Attribute} {ts : List (FilterTree Constraint)} (hcon : Constrained e key value a)
    (hk : a.scalarKind? = none) (ht : c.entity? a.typeName = some target) :
    Gives c e key value ts ↔ ∃ t, readObject c target "" value = .ok t ∧
      belowAttribute a (t.map (Constraint.below (key ++ "."))) = .ok ts := by
  rw [← readField_eq_ok, readField_constrained c "" hcon, String.empty_append]
  constructor
  · intro h
    rw [readAttribute_entity key value hk ht] at h
    obtain ⟨t', hbelow, h⟩ := Outcome.bind_eq_ok.mp h
    obtain ⟨t, hread, rfl⟩ := readObject_below_eq_ok.mp hbelow
    exact ⟨t, hread, Outcome.mapError_eq_ok.mp h⟩
  · intro h
    obtain ⟨t, hread, h⟩ := h
    rw [readAttribute_read hk ht hread]
    exact Outcome.mapError_eq_ok.mpr h

/-- What holds of constraints on scalars, and below an attribute when it does on its own, holds of
all constraints that are read. -/
theorem forall_leaves {c : Catalog} {P : Entity → Constraint → Prop}
    (scalar : ∀ {e a k}, e.attribute? k.field = some a → a.isScalar = true → P e k)
    (below : ∀ {e target a key k}, e.attribute? key = some a → a.scalarKind? = none →
      c.entity? a.typeName = some target → P target k → P e (k.below (key ++ ".")))
    {v : Value} : ∀ e t, readObject c e "" v = .ok t → ∀ k ∈ t.leaves, P e k := by
  induction v using Value.filter_induction with
  | other v hv =>
    intro e t ht
    obtain ⟨fields, rfl⟩ := isObject_of_readObject ht
    cases hv
  | object fields hfields hitems =>
    intro e t ht k hk
    obtain ⟨trees, htrees, rfl⟩ := readObject_gives.mp ht
    -- A constraint of the object is one of a tree that a field of it gives.
    rw [FilterTree.leaves_node, List.mem_flatMap] at hk
    obtain ⟨u, hu, hk⟩ := hk
    obtain ⟨ts, hts, hu⟩ := List.mem_flatten.mp hu
    obtain ⟨key, value, hf, hg⟩ := htrees.of_tree hts
    have hpart := hfields _ hf
    have hbelow : ∀ {a : Attribute} {target : Entity} {s t : FilterTree Constraint},
        e.attribute? key = some a → a.scalarKind? = none →
        c.entity? a.typeName = some target → readObject c target "" value = .ok t →
        (∀ l ∈ s.leaves, l ∈ t.leaves) → k ∈ (s.map (Constraint.below (key ++ "."))).leaves →
        P e k := by
      intro a target s t ha hscalar htarget hread hsub hk
      rw [FilterTree.leaves_map] at hk
      obtain ⟨l, hl, rfl⟩ := List.mem_map.mp hk
      exact below ha hscalar htarget (hpart target t hread l (hsub l hl))
    cases hg with
    | join _ => simp at hu
    | noChildren => simp at hu
    | absent _ _ _ => simp at hu
    | child hread =>
      obtain rfl := List.mem_singleton.mp hu
      exact hpart e u hread k hk
    | children hread =>
      obtain ⟨item, hi, ht⟩ := Outcome.exists_mem_left hread hu
      exact hitems _ hf _ rfl item hi e u ht k hk
    | scalar hcon hscalar hread =>
      obtain rfl := List.mem_singleton.mp hu
      obtain rfl := List.mem_singleton.mp (FilterTree.leaves_leaf _ ▸ hk)
      obtain ⟨_, _, _, _, _, rfl⟩ := readConstraint_eq_ok.mp hread
      exact scalar hcon.found (by rw [Attribute.isScalar, hscalar]; rfl)
    | single hcon hscalar htarget _ hread =>
      obtain rfl := List.mem_singleton.mp hu
      exact hbelow hcon.found hscalar htarget hread (fun _ hl => hl) hk
    | @repeating _ _ _ _ t kept hcon hscalar htarget _ hread hkept =>
      cases kept with
      | none => simp at hu
      | some s =>
        obtain rfl := List.mem_singleton.mp hu
        have hsub := FilterTree.leaves_simplify (FilterTree.simplify_of_perElement? hkept).1
        exact hbelow hcon.found hscalar htarget hread (fun _ hl => hsub.mem hl) hk

/-- A filter that stands in an object: a child filter on the same entity, or the filter on an
entity attribute, which it names. -/
inductive Part (c : Catalog) (e : Entity) (fields : Arguments) :
    Option Attribute → Entity → Value → Prop
  | item {items : List Value} {item : Value} : (childrenKey, .list items) ∈ fields →
      item ∈ items → Part c e fields none e item
  | child {inner : Arguments} : (childrenKey, .object inner) ∈ fields →
      Part c e fields none e (.object inner)
  | below {key : String} {value : Value} {a : Attribute} {target : Entity} :
      (key, value) ∈ fields → Constrained e key value a → a.scalarKind? = none →
      c.entity? a.typeName = some target → Part c e fields (some a) target value

inductive Inside (c : Catalog) : Entity → Value → Entity → Value → Prop
  | refl (e : Entity) (v : Value) : Inside c e v e v
  | step {e target o : Entity} {fields : Arguments} {a : Option Attribute} {v w : Value} :
      Part c e fields a target v → Inside c target v o w → Inside c e (.object fields) o w

/-- What stands in an object that is read is read. -/
theorem read_of_part {c : Catalog} {e target : Entity} {fields : Arguments} {a : Option Attribute}
    {v : Value} {t : FilterTree Constraint} (h : readObject c e "" (.object fields) = .ok t)
    (hp : Part c e fields a target v) : ∃ u, readObject c target "" v = .ok u := by
  -- The field in which the part stands gives something, which was read of the part.
  obtain ⟨trees, htrees, _⟩ := readObject_gives.mp h
  cases hp with
  | item hf hi =>
    obtain ⟨ts, _, hg⟩ := htrees.of_field hf
    obtain ⟨u, _, hu⟩ := Outcome.exists_mem_right (gives_children.mp hg) hi
    exact ⟨u, hu⟩
  | child hf =>
    obtain ⟨ts, _, hg⟩ := htrees.of_field hf
    obtain ⟨u, hu, _⟩ := gives_child.mp hg
    exact ⟨u, hu⟩
  | below hf hcon hk ht =>
    obtain ⟨ts, _, hg⟩ := htrees.of_field hf
    obtain ⟨u, hu, _⟩ := (gives_entity hcon hk ht).mp hg
    exact ⟨u, hu⟩

/-- Every filter that stands inside one that is read is read as well. -/
theorem read_of_inside {c : Catalog} {e o : Entity} {v w : Value} (hi : Inside c e v o w) :
    ∀ {t : FilterTree Constraint}, readObject c e "" v = .ok t →
      ∃ u, readObject c o "" w = .ok u := by
  induction hi with
  | refl e v =>
    intro t h
    exact ⟨t, h⟩
  | step hp _ ih =>
    intro t h
    obtain ⟨u, hu⟩ := read_of_part h hp
    exact ih hu

end EntityGraph.Filter
