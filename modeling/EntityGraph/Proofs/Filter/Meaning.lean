import EntityGraph.Proofs.Filter.Parts
import EntityGraph.Regex.Engine
import EntityGraph.Storefront.Catalog

namespace EntityGraph.Filter

inductive Slot where
  | scalar (a : Attribute) (kind : ScalarKind)
  | entity (a : Attribute) (target : Entity)

def slot? (c : Catalog) (e : Entity) (name : String) : Option Slot :=
  (e.attribute? name).bind fun a =>
    match a.scalarKind? with
    | some kind => some (.scalar a kind)
    | none => (c.entity? a.typeName).map (.entity a)

mutual

/-- A filter imposes nothing: it has no parts, or under ALL no part of it imposes anything, or
under ANY some part does not. -/
def vacuous (c : Catalog) (e : Entity) : Value → Bool
  | .object fields => (joinOf fields).combine (vacuousParts c e fields)
  | _ => false

def vacuousParts (c : Catalog) (e : Entity) : List (String × Value) → List Bool
  | [] => []
  | (key, value) :: rest =>
    (if key = joinKey then []
      else if key = childrenKey then
        match value with
        | .list items => vacuousItems c e items
        | .object fields => [(joinOf fields).combine (vacuousParts c e fields)]
        | _ => []
      else if value.isNull then []
      else
        match slot? c e key with
        | some (.scalar _ _) => [false]
        | some (.entity _ target) => [vacuous c target value]
        | none => []) ++ vacuousParts c e rest

def vacuousItems (c : Catalog) (e : Entity) : List Value → List Bool
  | [] => []
  | item :: rest => vacuous c e item :: vacuousItems c e rest

end

def meansConstraint [RegexLibrary] (kind : ScalarKind) (constraint : Value)
    (value : AttributeValue) : Bool :=
  match readConstraint kind "" constraint with
  | .ok k => holds k.condition value
  | .error _ => true

mutual

/-- A filter is true of a record of an entity, or of a missing one, whose attributes are null:
its parts are true, under ANY one of them, and without parts it is true. -/
def means [RegexLibrary] (c : Catalog) (e : Entity) (r : Option Record) : Value → Bool
  | .object fields => (joinOf fields).combine (meansParts c e r fields)
  | _ => true

/-- Which parts of an object are true. A filter on an entity attribute is true when it imposes
nothing, or when it is true of some record of the attribute, of a missing one if there is none. -/
def meansParts [RegexLibrary] (c : Catalog) (e : Entity) (r : Option Record) :
    List (String × Value) → List Bool
  | [] => []
  | (key, value) :: rest =>
    (if key = joinKey then []
      else if key = childrenKey then
        match value with
        | .list items => meansItems c e r items
        | .object fields => [(joinOf fields).combine (meansParts c e r fields)]
        | _ => []
      else if value.isNull then []
      else
        match slot? c e key with
        | some (.scalar a kind) => [meansConstraint kind value (valueAt a r)]
        | some (.entity a target) =>
          [vacuous c target value ||
            someRecord (valueAt a r).records fun r => means c target r value]
        | none => []) ++ meansParts c e r rest

def meansItems [RegexLibrary] (c : Catalog) (e : Entity) (r : Option Record) :
    List Value → List Bool
  | [] => []
  | item :: rest => means c e r item :: meansItems c e r rest

end

/-- A record of an entity, and a record that is reached from it through entity attributes. -/
inductive Reaches (c : Catalog) : Entity → Record → Entity → Record → Prop
  | refl (e : Entity) (r : Record) : Reaches c e r e r
  | step {e target o : Entity} {r s t : Record} {a : Attribute} : a ∈ e.attributes →
      a.scalarKind? = none → c.entity? a.typeName = some target → s ∈ (a.valueIn r).records →
      Reaches c target s o t → Reaches c e r o t

/-- At every level below a record, an entity attribute that does not repeat stores at most one
record. -/
def SingleRecords (c : Catalog) (e : Entity) (r : Record) : Prop :=
  ∀ o s, Reaches c e r o s → ∀ a ∈ o.attributes, a.scalarKind? = none → a.repeating = false →
    (a.valueIn s).records.length ≤ 1

/-- At every level of a filter, no object under ANY carries a filter on a repeating entity
attribute that imposes nothing. -/
def NoIdleBranch (c : Catalog) (e : Entity) (v : Value) : Prop :=
  ∀ o fields, Inside c e v o (.object fields) → joinOf fields = .any →
    ∀ a target w, Part c o fields (some a) target w → a.repeating = true →
      vacuous c target w = false

theorem slot?_scalar {c : Catalog} {e : Entity} {name : String} {a : Attribute}
    {kind : ScalarKind} (ha : e.attribute? name = some a) (hk : a.scalarKind? = some kind) :
    slot? c e name = some (.scalar a kind) := by
  rw [slot?, ha, Option.bind_some, hk]

theorem slot?_entity {c : Catalog} {e target : Entity} {name : String} {a : Attribute}
    (ha : e.attribute? name = some a) (hk : a.scalarKind? = none)
    (ht : c.entity? a.typeName = some target) : slot? c e name = some (.entity a target) := by
  rw [slot?, ha, Option.bind_some, hk, ht]
  rfl

theorem vacuousItems_eq_map (c : Catalog) (e : Entity) (items : List Value) :
    vacuousItems c e items = items.map (vacuous c e) := by
  induction items with
  | nil => rfl
  | cons item items ih => rw [vacuousItems, ih, List.map_cons]

theorem vacuousParts_eq_flatMap (c : Catalog) (e : Entity) (fields : Arguments) :
    vacuousParts c e fields = fields.flatMap fun field => vacuousParts c e [field] := by
  induction fields with
  | nil => rfl
  | cons field fields ih =>
    obtain ⟨key, value⟩ := field
    rw [List.flatMap_cons, ← ih]
    cases value <;> simp [vacuousParts]

theorem meansItems_eq_map [RegexLibrary] (c : Catalog) (e : Entity) (r : Option Record)
    (items : List Value) :
    meansItems c e r items = items.map (means c e r) := by
  induction items with
  | nil => rfl
  | cons item items ih => rw [meansItems, ih, List.map_cons]

/-- The parts of an object are those of its fields. -/
theorem meansParts_eq_flatMap [RegexLibrary] (c : Catalog) (e : Entity) (r : Option Record)
    (fields : Arguments) :
    meansParts c e r fields = fields.flatMap fun field => meansParts c e r [field] := by
  induction fields with
  | nil => rfl
  | cons field fields ih =>
    obtain ⟨key, value⟩ := field
    rw [List.flatMap_cons, ← ih]
    cases value <;> simp [meansParts]

/-- Truth values of the trees of an object join to those of its parts, when they agree field by
field, but for true ones that are left out under ALL. -/
theorem combine_flatten {join : Join} {fields : Arguments}
    {trees : List (List (FilterTree Constraint))} {val : FilterTree Constraint → Bool}
    {parts : String × Value → List Bool}
    (h : List.Forall₂ (fun field ts => ts.map val = parts field ∨
      join = .all ∧ ts = [] ∧ parts field = [true]) fields trees) :
    join.combine (trees.flatten.map val) = join.combine (fields.flatMap parts) := by
  -- Under `any` all parts are there; under `all` those that are missing hold.
  cases join with
  | any =>
    have heq : trees.flatten.map val = fields.flatMap parts := by
      induction h with
      | nil => rfl
      | cons hf _ ih =>
        rcases hf with hf | ⟨hj, _⟩
        · rw [List.flatten_cons, List.map_append, List.flatMap_cons, hf, ih]
        · cases hj
    rw [heq]
  | all =>
    rw [Bool.eq_iff_iff, Join.combine_all_iff, Join.combine_all_iff]
    induction h with
    | nil => rfl
    | cons hf _ ih =>
      simp only [List.flatten_cons, List.map_append, List.flatMap_cons, List.forall_mem_append, ih]
      rcases hf with hf | ⟨_, rfl, hf⟩
      · rw [hf]
      · simp [hf]

/-- The truth value of an object's tree is that of its parts, when what each field gives has the
truth values of the field's parts, or is left out under ALL because these are true. -/
theorem combine_parts {c : Catalog} {e : Entity} {fields : Arguments}
    {trees : List (List (FilterTree Constraint))} {val : FilterTree Constraint → Bool}
    {parts : String × Value → List Bool} (h : AllGive c e fields trees)
    (hfield : ∀ key value ts, (key, value) ∈ fields → Gives c e key value ts →
      ts.map val = parts (key, value) ∨
        joinOf fields = .all ∧ ts = [] ∧ parts (key, value) = [true]) :
    (joinOf fields).combine (trees.flatten.map val) =
      (joinOf fields).combine (fields.flatMap parts) := by
  apply combine_flatten
  apply Outcome.forall₂_imp_of_mem h
  intro field hf ts hg
  exact hfield field.1 field.2 ts hf hg

theorem vacuousParts_join (c : Catalog) (e : Entity) (value : Value) :
    vacuousParts c e [(joinKey, value)] = [] := by
  cases value <;> simp [vacuousParts]

theorem vacuousParts_children (c : Catalog) (e : Entity) (items : List Value) :
    vacuousParts c e [(childrenKey, .list items)] = items.map (vacuous c e) := by
  simp [vacuousParts, childrenKey_ne_joinKey, vacuousItems_eq_map]

theorem vacuousParts_child (c : Catalog) (e : Entity) (fields : Arguments) :
    vacuousParts c e [(childrenKey, .object fields)] = [vacuous c e (.object fields)] := by
  simp [vacuousParts, childrenKey_ne_joinKey, vacuous]

theorem vacuousParts_null (c : Catalog) (e : Entity) (key : String) :
    vacuousParts c e [(key, .null)] = [] := by
  simp [vacuousParts, Value.isNull]

/-- A constraint on a scalar always imposes something. -/
theorem vacuousParts_scalar {c : Catalog} {e : Entity} {key : String} {value : Value}
    {a : Attribute} {kind : ScalarKind} (hc : Constrained e key value a)
    (hk : a.scalarKind? = some kind) : vacuousParts c e [(key, value)] = [false] := by
  have hslot := slot?_scalar (c := c) hc.found hk
  cases value <;> simp [vacuousParts, hc.not_join, hc.not_children, hc.not_null, hslot]

theorem vacuousParts_entity {c : Catalog} {e target : Entity} {key : String} {value : Value}
    {a : Attribute} (hc : Constrained e key value a) (hk : a.scalarKind? = none)
    (ht : c.entity? a.typeName = some target) :
    vacuousParts c e [(key, value)] = [vacuous c target value] := by
  have hslot := slot?_entity hc.found hk ht
  cases value <;> simp [vacuousParts, hc.not_join, hc.not_children, hc.not_null, hslot]

/-- What holds at every level of a filter holds at every level of its parts. -/
theorem noIdleBranch_of_part {c : Catalog} {e target : Entity} {fields : Arguments}
    {a : Option Attribute} {v : Value} (h : NoIdleBranch c e (.object fields))
    (hp : Part c e fields a target v) : NoIdleBranch c target v :=
  fun o inner hi => h o inner (.step hp hi)

/-- Under ANY, what stands on a repeating attribute imposes something. -/
theorem join_all_of_idle {c : Catalog} {e target : Entity} {fields : Arguments} {a : Attribute}
    {v : Value} (h : NoIdleBranch c e (.object fields)) (hp : Part c e fields (some a) target v)
    (hrep : a.repeating = true) (hv : vacuous c target v = true) : joinOf fields = .all := by
  cases hj : joinOf fields with
  | all => rfl
  | any =>
    have hne := h e fields (.refl ..) hj a target v hp hrep
    rw [hv] at hne
    cases hne

/-- A filter imposes nothing exactly when nothing is left of its tree. -/
theorem vacuous_eq_isNone {c : Catalog} {v : Value} : ∀ (e : Entity) (t : FilterTree Constraint),
    readObject c e "" v = .ok t → NoIdleBranch c e v → vacuous c e v = t.simplify.isNone := by
  induction v using Value.filter_induction with
  | other v hv =>
    intro e t ht
    obtain ⟨fields, rfl⟩ := isObject_of_readObject ht
    cases hv
  | object fields hfields hitems =>
    intro e t ht hidle
    obtain ⟨trees, htrees, rfl⟩ := readObject_gives.mp ht
    -- Both sides join truth values by the same join, and these agree field by field.
    rw [vacuous, vacuousParts_eq_flatMap, FilterTree.simplify_isNone_node, eq_comm]
    apply combine_parts htrees
    intro key value ts hf hg
    have hpart := hfields _ hf
    cases hg with
    | join _ => exact Or.inl (vacuousParts_join c e value).symm
    | noChildren => exact Or.inl (vacuousParts_null c e _).symm
    | absent _ _ _ => exact Or.inl (vacuousParts_null c e key).symm
    | child hread =>
      rw [vacuousParts_child, hpart _ _ hread (noIdleBranch_of_part hidle (.child hf))]
      exact Or.inl rfl
    | @children items _ hread =>
      rw [vacuousParts_children]
      refine Or.inl (Outcome.map_eq_of_forall₂ hread fun item hi t hr => ?_)
      exact (hitems _ hf items rfl item hi e t hr (noIdleBranch_of_part hidle (.item hf hi))).symm
    | scalar hc hk _ =>
      rw [vacuousParts_scalar hc hk]
      exact Or.inl (by simp [FilterTree.simplify])
    | single hc hk htarget _ hread =>
      rw [vacuousParts_entity hc hk htarget,
        hpart _ _ hread (noIdleBranch_of_part hidle (.below hf hc hk htarget))]
      exact Or.inl (by simp [FilterTree.simplify_map])
    | @repeating _ _ a target t kept hc hk htarget hrep hread hkept =>
      have hp : Part c e fields (some a) target value := .below hf hc hk htarget
      have hv := hpart _ _ hread (noIdleBranch_of_part hidle hp)
      rw [vacuousParts_entity hc hk htarget]
      cases kept with
      | none =>
        -- The filter is left out of the tree, where it is idle, and so the join is ALL.
        rw [(FilterTree.perElement?_eq_some hkept).1] at hv
        exact Or.inr ⟨join_all_of_idle hidle hp hrep hv, rfl, by rw [hv]; rfl⟩
      | some s =>
        obtain ⟨hs, hself⟩ := FilterTree.simplify_of_perElement? hkept
        rw [hv, hs]
        exact Or.inl (by simp [FilterTree.simplify_map, hself])

/-- A tree that imposes nothing is true. -/
theorem eval_of_simplify_none {t : FilterTree Constraint} (h : t.simplify = none)
    (val : Constraint → Bool) : t.eval val = true := by
  rw [← FilterTree.value_simplify, h]
  rfl

theorem someRecord_true {records : List Record} {f : Option Record → Bool}
    (h : ∀ r, f r = true) : someRecord records f = true := by
  cases records with
  | nil => exact h none
  | cons r records => simp [someRecord_cons, h]

/-- With one record at most, each constraint of a tree is met by a record when the tree is. -/
theorem eval_someRecord_of_single {records : List Record} (h : records.length ≤ 1)
    (t : FilterTree Constraint) (val : Option Record → Constraint → Bool) :
    t.eval (fun k => someRecord records fun r => val r k) =
      someRecord records fun r => t.eval (val r) := by
  match records, h with
  | [], _ => rfl
  | [r], _ => simp [someRecord_cons]

/-- With any number of records, a leaf or a disjunction of leaves is met when one of its leaves
is met by a record. -/
theorem eval_someRecord_of_perElement? {t s : FilterTree Constraint}
    (h : t.perElement? = some (some s)) (records : List Record)
    (val : Option Record → Constraint → Bool) :
    s.eval (fun k => someRecord records fun r => val r k) =
      someRecord records fun r => t.eval (val r) := by
  -- Simplifying keeps the value, so it can be asked of what is kept.
  have hval : ∀ r, t.eval (val r) = s.eval (val r) := by
    intro r
    rw [← FilterTree.value_simplify, (FilterTree.simplify_of_perElement? h).1]
    rfl
  simp only [hval]
  cases records with
  | nil => rfl
  | cons first records =>
    rcases (FilterTree.perElement?_eq_some h).2 s rfl with ⟨k, rfl⟩ | ⟨ks, hne, rfl⟩
    · simp [someRecord_cons]
    · -- Records and leaves are both chosen, so the choices can change places.
      simp only [someRecord_cons, FilterTree.eval_node, List.map_map, Join.combine,
        List.isEmpty_map, List.isEmpty_eq_false_iff.mpr hne, Bool.false_or, List.any_map,
        Function.comp_def, FilterTree.eval_leaf, id]
      rw [Bool.eq_iff_iff]
      simp only [List.any_eq_true]
      constructor
      · rintro ⟨k, hk, r, hr, hold⟩
        exact ⟨r, hr, k, hk, hold⟩
      · rintro ⟨r, hr, k, hk, hold⟩
        exact ⟨k, hk, r, hr, hold⟩

theorem meansParts_join [RegexLibrary] (c : Catalog) (e : Entity) (r : Option Record)
    (value : Value) :
    meansParts c e r [(joinKey, value)] = [] := by
  cases value <;> simp [meansParts]

theorem meansParts_children [RegexLibrary] (c : Catalog) (e : Entity) (r : Option Record)
    (items : List Value) :
    meansParts c e r [(childrenKey, .list items)] = items.map (means c e r) := by
  simp [meansParts, childrenKey_ne_joinKey, meansItems_eq_map]

theorem meansParts_child [RegexLibrary] (c : Catalog) (e : Entity) (r : Option Record)
    (fields : Arguments) :
    meansParts c e r [(childrenKey, .object fields)] = [means c e r (.object fields)] := by
  simp [meansParts, childrenKey_ne_joinKey, means]

theorem meansParts_null [RegexLibrary] (c : Catalog) (e : Entity) (r : Option Record)
    (key : String) :
    meansParts c e r [(key, .null)] = [] := by
  simp [meansParts, Value.isNull]

/-- The part of a scalar attribute is the truth of its constraint. -/
theorem meansParts_scalar [RegexLibrary] {c : Catalog} {e : Entity} {key : String} {value : Value}
    {a : Attribute} {kind : ScalarKind} (hc : Constrained e key value a)
    (hk : a.scalarKind? = some kind) (r : Option Record) :
    meansParts c e r [(key, value)] = [meansConstraint kind value (valueAt a r)] := by
  have hslot := slot?_scalar (c := c) hc.found hk
  cases value <;> simp [meansParts, hc.not_join, hc.not_children, hc.not_null, hslot]

/-- The part of an entity attribute is true when the filter imposes nothing or some record meets it.
-/
theorem meansParts_entity [RegexLibrary] {c : Catalog} {e target : Entity} {key : String}
    {value : Value} {a : Attribute} (hc : Constrained e key value a) (hk : a.scalarKind? = none)
    (ht : c.entity? a.typeName = some target) (r : Option Record) :
    meansParts c e r [(key, value)] = [vacuous c target value ||
      someRecord (valueAt a r).records fun r => means c target r value] := by
  have hslot := slot?_entity hc.found hk ht
  cases value <;> simp [meansParts, hc.not_join, hc.not_children, hc.not_null, hslot]

/-- What holds at every level below a record holds below the records that are reached from it. -/
theorem singleRecords_below {c : Catalog} {e target : Entity} {r s : Record} {a : Attribute}
    (h : SingleRecords c e r) (ha : a ∈ e.attributes) (hk : a.scalarKind? = none)
    (ht : c.entity? a.typeName = some target) (hs : s ∈ (a.valueIn r).records) :
    SingleRecords c target s :=
  fun o t hreach => h o t (.step ha hk ht hs hreach)

theorem singleRecords_valueAt {c : Catalog} {e target : Entity} {r : Option Record}
    {a : Attribute} (h : ∀ s ∈ r, SingleRecords c e s) (ha : a ∈ e.attributes)
    (hk : a.scalarKind? = none) (ht : c.entity? a.typeName = some target) {s : Record}
    (hs : s ∈ (valueAt a r).records) : SingleRecords c target s := by
  cases r with
  | none => simp [valueAt, AttributeValue.records] at hs
  | some r => exact singleRecords_below (h r rfl) ha hk ht hs

/-- A missing record has no records at its attributes, a single one at most one. -/
theorem length_records_valueAt {c : Catalog} {e : Entity} {r : Option Record} {a : Attribute}
    (h : ∀ s ∈ r, SingleRecords c e s) (ha : a ∈ e.attributes) (hk : a.scalarKind? = none)
    (hrep : a.repeating = false) : (valueAt a r).records.length ≤ 1 := by
  cases r with
  | none => simp [valueAt, AttributeValue.records]
  | some r => exact h r rfl e r (.refl ..) a ha hk hrep

theorem dotless_of_attribute? {c : Catalog} (hc : c.Dotless) {e : Entity} (he : e ∈ c.entities)
    {key : String} {a : Attribute} (ha : e.attribute? key = some a) : '.' ∉ key.toList := by
  obtain ⟨hmem, rfl⟩ := Entity.attribute?_eq_some.mp ha
  exact hc e he a hmem

/-- A constraint on a scalar attribute holds of a record when it is true of the attribute's
value there. -/
theorem constraintHoldsAt_eq_means [RegexLibrary] {c : Catalog} (hc : c.Dotless) {e : Entity}
    (he : e ∈ c.entities) {key : String} {value : Value} {a : Attribute} {kind : ScalarKind}
    {k : Constraint} (ha : e.attribute? key = some a)
    (hread : readConstraint kind key value = .ok k) (r : Option Record) :
    constraintHoldsAt c e r k = meansConstraint kind value (valueAt a r) := by
  obtain ⟨_, _, _, _, _, rfl⟩ := readConstraint_eq_ok.mp hread
  rw [constraintHoldsAt_scalar (dotless_of_attribute? hc he ha) ha, meansConstraint,
    readConstraint_congr hread ""]

/-- The tree of a filter below an attribute is true of what the attribute's records say. -/
theorem eval_below [RegexLibrary] {c : Catalog} (hc : c.Dotless) {e target : Entity}
    (he : e ∈ c.entities) {key : String} {a : Attribute} (ha : e.attribute? key = some a)
    (ht : c.entity? a.typeName = some target) (t : FilterTree Constraint) (r : Option Record) :
    (t.map (Constraint.below (key ++ "."))).eval (constraintHoldsAt c e r) =
      t.eval fun k => someRecord (valueAt a r).records fun r => constraintHoldsAt c target r k := by
  rw [FilterTree.eval_map]
  apply FilterTree.eval_congr
  intro k _
  exact constraintHoldsAt_below (dotless_of_attribute? hc he ha) ha ht k r

/-- Below an attribute that does not repeat, the tree of a filter is true when the filter imposes
nothing or is true of the record there. -/
theorem eval_single [RegexLibrary] {c : Catalog} (hc : c.Dotless) {e target : Entity}
    (he : e ∈ c.entities) {key : String} {value : Value} {a : Attribute} {t : FilterTree Constraint}
    {r : Option Record} (ha : e.attribute? key = some a)
    (ht : c.entity? a.typeName = some target)
    (hlength : (valueAt a r).records.length ≤ 1)
    (hvac : vacuous c target value = t.simplify.isNone)
    (hbelow : (someRecord (valueAt a r).records fun r => t.eval (constraintHoldsAt c target r)) =
      someRecord (valueAt a r).records fun r => means c target r value) :
    (t.map (Constraint.below (key ++ "."))).eval (constraintHoldsAt c e r) =
      (vacuous c target value ||
        someRecord (valueAt a r).records fun r => means c target r value) := by
  rw [eval_below hc he ha ht, eval_someRecord_of_single hlength, hvac]
  cases hs : t.simplify with
  | some s => simp [hbelow]
  | none =>
    -- What imposes nothing is true of every record, so it does not matter which are there.
    have htrue : (someRecord (valueAt a r).records fun r =>
        t.eval (constraintHoldsAt c target r)) = true :=
      someRecord_true fun _ => eval_of_simplify_none hs _
    simp [htrue]

/-- Below a repeating attribute, what is kept of the tree of a filter is true when the filter is
true of one of the records there. -/
theorem eval_repeating [RegexLibrary] {c : Catalog} (hc : c.Dotless) {e target : Entity}
    (he : e ∈ c.entities)
    {key : String} {value : Value} {a : Attribute} {t s : FilterTree Constraint}
    {r : Option Record} (ha : e.attribute? key = some a)
    (ht : c.entity? a.typeName = some target) (hkept : t.perElement? = some (some s))
    (hvac : vacuous c target value = t.simplify.isNone)
    (hbelow : (someRecord (valueAt a r).records fun r => t.eval (constraintHoldsAt c target r)) =
      someRecord (valueAt a r).records fun r => means c target r value) :
    (s.map (Constraint.below (key ++ "."))).eval (constraintHoldsAt c e r) =
      (vacuous c target value ||
        someRecord (valueAt a r).records fun r => means c target r value) := by
  rw [eval_below hc he ha ht, eval_someRecord_of_perElement? hkept, hvac,
    (FilterTree.simplify_of_perElement? hkept).1, hbelow]
  rfl

/-- The tree of a filter is true of a record, or a missing one, when the filter is. -/
theorem eval_eq_means [RegexLibrary] {c : Catalog} (hc : c.Dotless) {v : Value} :
    ∀ (e : Entity) (t : FilterTree Constraint) (r : Option Record), e ∈ c.entities →
      readObject c e "" v = .ok t → NoIdleBranch c e v → (∀ s ∈ r, SingleRecords c e s) →
      t.eval (constraintHoldsAt c e r) = means c e r v := by
  -- By induction on the filter, for every record at once, as a filter on an attribute is asked of
  -- other records than the one above it.
  induction v using Value.filter_induction with
  | other v hv =>
    intro e t r _ ht
    obtain ⟨fields, rfl⟩ := isObject_of_readObject ht
    cases hv
  | object fields hfields hitems =>
    intro e t r he ht hidle hr
    obtain ⟨trees, htrees, rfl⟩ := readObject_gives.mp ht
    rw [means, meansParts_eq_flatMap, FilterTree.eval_node]
    apply combine_parts htrees
    intro key value ts hf hg
    have hpart := hfields _ hf
    have hbelow : ∀ {a : Attribute} {target : Entity} {t : FilterTree Constraint},
        Part c e fields (some a) target value → a ∈ e.attributes → a.scalarKind? = none →
        c.entity? a.typeName = some target → readObject c target "" value = .ok t →
        (someRecord (valueAt a r).records fun r => t.eval (constraintHoldsAt c target r)) =
          someRecord (valueAt a r).records fun r => means c target r value := by
      intro a target t hp ha hk htarget hread
      have hmem := (Catalog.entity?_eq_some.mp htarget).1
      have hidle' := noIdleBranch_of_part hidle hp
      apply someRecord_congr
      · intro _
        exact hpart target t none hmem hread hidle' (by simp)
      · intro s hs
        refine hpart target t (some s) hmem hread hidle' fun s' hs' => ?_
        obtain rfl := Option.some.inj hs'
        exact singleRecords_valueAt hr ha hk htarget hs
    cases hg with
    | join _ => exact Or.inl (meansParts_join c e r value).symm
    | noChildren => exact Or.inl (meansParts_null c e r _).symm
    | absent _ _ _ => exact Or.inl (meansParts_null c e r key).symm
    | @child _ t hread =>
      have hmeans := hpart e t r he hread (noIdleBranch_of_part hidle (.child hf)) hr
      rw [meansParts_child, List.map_singleton, hmeans]
      exact Or.inl rfl
    | @children items _ hread =>
      rw [meansParts_children]
      refine Or.inl (Outcome.map_eq_of_forall₂ hread fun item hi t ht => ?_)
      exact hitems _ hf items rfl item hi e t r he ht
        (noIdleBranch_of_part hidle (.item hf hi)) hr
    | scalar hcon hk hread =>
      rw [meansParts_scalar hcon hk, List.map_singleton, FilterTree.eval_leaf,
        constraintHoldsAt_eq_means hc he hcon.found hread]
      exact Or.inl rfl
    | @single _ _ a target t hcon hk htarget hrep hread =>
      have hp : Part c e fields (some a) target value := .below hf hcon hk htarget
      have ha := (Entity.attribute?_eq_some.mp hcon.found).1
      have hvac := vacuous_eq_isNone target t hread (noIdleBranch_of_part hidle hp)
      have hlength := length_records_valueAt hr ha hk hrep
      rw [meansParts_entity hcon hk htarget, List.map_singleton,
        eval_single hc he hcon.found htarget hlength hvac (hbelow hp ha hk htarget hread)]
      exact Or.inl rfl
    | @repeating _ _ a target t kept hcon hk htarget hrep hread hkept =>
      have hp : Part c e fields (some a) target value := .below hf hcon hk htarget
      have ha := (Entity.attribute?_eq_some.mp hcon.found).1
      have hvac := vacuous_eq_isNone target t hread (noIdleBranch_of_part hidle hp)
      rw [meansParts_entity hcon hk htarget]
      cases kept with
      | none =>
        -- The filter was dropped, so the object joins by ALL, where it changes nothing.
        rw [(FilterTree.perElement?_eq_some hkept).1] at hvac
        exact Or.inr ⟨join_all_of_idle hidle hp hrep hvac, rfl, by simp [hvac]⟩
      | some s =>
        have heval := eval_repeating hc he hcon.found htarget hkept hvac
          (hbelow hp ha hk htarget hread)
        exact Or.inl (congrArg (fun b => [b]) heval)

/-- The paths of the constraints of a tree lead to scalars. -/
theorem resolves_of_mem_leaves {c : Catalog} (hc : c.Dotless) {v : Value} :
    ∀ (e : Entity) (t : FilterTree Constraint), e ∈ c.entities → readObject c e "" v = .ok t →
      ∀ k ∈ t.leaves, Resolves c e (Constraint.path k) := by
  intro e t he ht k hk
  refine forall_leaves (P := fun e k => e ∈ c.entities → Resolves c e (Constraint.path k))
    ?_ ?_ e t ht k hk he
  · intro e a k ha hscalar he
    rw [path_of_not_mem (dotless_of_attribute? hc he ha)]
    exact ⟨a, ha, hscalar⟩
  · intro e target a key k ha hscalar htarget hbelow he
    -- A path below the attribute is the attribute's name before a path from its entity on.
    rw [path_below (dotless_of_attribute? hc he ha)]
    exact resolves_cons ha hscalar htarget (hbelow (Catalog.entity?_eq_some.mp htarget).1)

/-- The groups of a filter admit the records of which the filter is true, and the paths of their
constraints lead to scalars. -/
theorem admits_eq_means [RegexLibrary] {c : Catalog} (hc : c.Dotless) {e : Entity}
    (he : e ∈ c.entities)
    {f : Value} {groups : List FilterGroup} (hf : compile c e f = .ok groups) :
    (NoIdleBranch c e f → ∀ r, SingleRecords c e r →
      admits c e groups r = means c e (some r) f) ∧
    ∀ group ∈ groups, ∀ k ∈ group, Resolves c e (Constraint.path k) := by
  rcases compile_eq_ok.mp hf with ⟨rfl, rfl⟩ | ⟨t, ht, hgroups⟩
  · refine ⟨fun _ r _ => ?_, by simp⟩
    rw [means]
    · rfl
    · simp
  · constructor
    · intro hidle r hr
      have hsome : ∀ s ∈ some r, SingleRecords c e s := by
        intro s hs
        obtain rfl := Option.some.inj hs
        exact hr
      rw [← eval_eq_means hc e t (some r) he ht hidle hsome]
      exact FilterTree.groups?_eval (constraintHoldsAt c e (some r)) hgroups
    · intro group hgroup k hk
      -- What stands in a group was a leaf, and leaves resolve as they were read.
      have hleaf := FilterTree.mem_leaves_of_groups? hgroups hgroup hk
      exact resolves_of_mem_leaves hc e t he ht k hleaf

/-- No idle branch is in an object when none is at its level and none in its parts. -/
theorem noIdleBranch_object {c : Catalog} {e : Entity} {fields : Arguments}
    (hhere : joinOf fields = .any → ∀ a target w, Part c e fields (some a) target w →
      a.repeating = true → vacuous c target w = false)
    (hparts : ∀ a target w, Part c e fields a target w → NoIdleBranch c target w) :
    NoIdleBranch c e (.object fields) := by
  intro o inner hi
  cases hi with
  | refl => exact hhere
  | step hp hi => exact hparts _ _ _ hp o inner hi

/-- Without a join of its own an object joins by ALL, so only its one field matters. -/
theorem noIdleBranch_singleton {c : Catalog} {e : Entity} {key : String} {value : Value}
    (hj : key ≠ joinKey) (hc : key ≠ childrenKey)
    (h : ∀ a target, e.attribute? key = some a → c.entity? a.typeName = some target →
      NoIdleBranch c target value) : NoIdleBranch c e (.object [(key, value)]) := by
  apply noIdleBranch_object
  · intro hany
    simp [joinOf, joinFrom, hj] at hany
  · intro a target w hp
    cases hp with
    | item hmem _ => simp [Ne.symm hc] at hmem
    | child hmem => simp [Ne.symm hc] at hmem
    | below hmem hcon _ ht =>
      rw [List.mem_singleton, Prod.mk.injEq] at hmem
      obtain ⟨rfl, rfl⟩ := hmem
      exact h _ target hcon.found ht

/-- Below a record down to a depth, and no deeper is any, an entity attribute that does not repeat
stores at most one record. -/
def singleRecordsWithin (c : Catalog) : Nat → Entity → Record → Bool
  | 0, _, _ => false
  | n + 1, e, r => e.attributes.all fun a => a.isScalar ||
      (a.repeating || decide ((a.valueIn r).records.length ≤ 1)) &&
        (c.entity? a.typeName).all fun target =>
          (a.valueIn r).records.all (singleRecordsWithin c n target)

/-- It is enough to look as deep as the record goes. -/
theorem singleRecords_of_within {c : Catalog} {n : Nat} {e : Entity} {r : Record}
    (h : singleRecordsWithin c n e r = true) : SingleRecords c e r := by
  induction n generalizing e r with
  | zero => cases h
  | succ n ih =>
    intro o s hreach
    simp only [singleRecordsWithin, List.all_eq_true, Bool.or_eq_true, Bool.and_eq_true,
      decide_eq_true_eq] at h
    cases hreach with
    | refl =>
      intro a ha hk hrep
      rcases h a ha with hscalar | ⟨hlength, _⟩
      · simp [Attribute.isScalar, hk] at hscalar
      · simpa [hrep] using hlength
    | @step _ target _ _ _ _ a ha hk ht hs hreach =>
      rcases h a ha with hscalar | ⟨_, hbelow⟩
      · simp [Attribute.isScalar, hk] at hscalar
      · rw [ht] at hbelow
        exact ih (List.all_eq_true.mp hbelow _ hs) o s hreach

def mugFilter : Value :=
  .object
    [("_join", .string "ANY"), ("isDefault", .object [("eq", .boolean false)]),
     ("items", .object [("product", .object [("sku", .object [("eq", .string "MUG-BLK")])])])]

def mugQuote : Record :=
  .document
    [("isDefault", .bool true),
     ("items", .array
       [.object [("id", .string "201"), ("product", .null)],
        .object [("id", .string "202"), ("product", .object [("sku", .string "MUG-BLK")])]])]

/-- Under the filter's ANY stands a filter on items that does impose something. -/
theorem noIdleBranch_mugFilter : NoIdleBranch Storefront.catalog Storefront.quote mugFilter := by
  apply noIdleBranch_object
  · -- Neither attribute of the filter repeats.
    rintro - a target w hp hrep
    cases hp with
    | below hmem hc hk ht =>
      simp only [List.mem_cons, List.not_mem_nil, or_false, Prod.mk.injEq] at hmem
      rcases hmem with ⟨rfl, rfl⟩ | ⟨rfl, rfl⟩ | ⟨rfl, rfl⟩
      · exact absurd rfl hc.not_join
      · cases hc.found
        cases hk
      · cases hc.found
        cases ht
        rfl
  · -- Two levels down, where nothing is left that could branch.
    intro a target w hp
    cases hp with
    | item hmem _ => simp [childrenKey] at hmem
    | child hmem => simp [childrenKey] at hmem
    | below hmem hc hk ht =>
      simp only [List.mem_cons, List.not_mem_nil, or_false, Prod.mk.injEq] at hmem
      rcases hmem with ⟨rfl, rfl⟩ | ⟨rfl, rfl⟩ | ⟨rfl, rfl⟩
      · exact absurd rfl hc.not_join
      · cases hc.found
        cases hk
      · cases hc.found
        cases ht
        apply noIdleBranch_singleton (by decide) (by decide)
        intro a target ha ht
        cases ha
        cases ht
        apply noIdleBranch_singleton (by decide) (by decide)
        intro a target ha ht
        cases ha
        cases ht

/-- A quote with a black mug is admitted, for the second of its items. -/
theorem admits_mugQuote : ∃ groups,
    compile Storefront.catalog Storefront.quote mugFilter = .ok groups ∧
      admits Storefront.catalog Storefront.quote groups mugQuote =
        means Storefront.catalog Storefront.quote (some mugQuote) mugFilter ∧
      means Storefront.catalog Storefront.quote (some mugQuote) mugFilter = true := by
  have hdot : Storefront.catalog.Dotless := by
    unfold Catalog.Dotless
    decide
  have hquote : Storefront.quote ∈ Storefront.catalog.entities := by simp [Storefront.catalog]
  have hsingle : SingleRecords Storefront.catalog Storefront.quote mugQuote :=
    singleRecords_of_within (n := 4) rfl
  have hcompile : compile Storefront.catalog Storefront.quote mugFilter =
      .ok [[⟨"isDefault", .eq (.boolean false)⟩,
        ⟨"items.product.sku", .eq (.string "MUG-BLK")⟩]] := rfl
  refine ⟨_, hcompile, ?_, rfl⟩
  exact (admits_eq_means hdot hquote hcompile).1 noIdleBranch_mugFilter mugQuote hsingle

end EntityGraph.Filter
