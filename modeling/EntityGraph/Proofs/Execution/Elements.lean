import EntityGraph.Proofs.Execution.Stored
import EntityGraph.Proofs.Filter.Meaning

namespace EntityGraph

namespace Filter

variable {c : Catalog} {e target : Entity}

/-- Of null nothing holds but the test for it. -/
theorem holds_null [RegexLibrary] {condition : Condition} :
    holds condition .null = true ↔ condition = .null := by
  cases condition <;> simp [holds, holdsSingle, compare?, textOf?, AttributeValue.isNull]

/-- On null, each group needs a test for null. -/
theorem admitsValue_null [RegexLibrary] {groups : List FilterGroup} :
    admitsValue groups .null = true ↔ ∀ group ∈ groups, ∃ k ∈ group, k.condition = .null := by
  simp only [admitsValue, List.all_eq_true, List.any_eq_true, holds_null]

/-- An object of one key is that key's filter under the node. -/
theorem readObject_singleton {key : String} {value : Value} {t : FilterTree Constraint} :
    readObject c e "" (.object [(key, value)]) = .ok t ↔
      ∃ ts, Gives c e key value ts ∧ .node (joinOf [(key, value)]) ts = t := by
  rw [readObject_gives]
  constructor
  · rintro ⟨trees, htrees, rfl⟩
    obtain ⟨ts, _, hgives, hnil, rfl⟩ := List.forall₂_cons_left_iff.mp htrees
    obtain rfl := List.forall₂_nil_left_iff.mp hnil
    exact ⟨ts, hgives, by simp⟩
  · rintro ⟨ts, hgives, rfl⟩
    exact ⟨[ts], .cons hgives .nil, by simp⟩

/-- A filter that imposes something was read, and its groups are those of its tree. -/
theorem tree_of_compile {f : Value} {groups : List FilterGroup} (h : compile c e f = .ok groups)
    (hne : groups ≠ []) : ∃ t, readObject c e "" f = .ok t ∧ t.groups? = some groups := by
  rcases compile_eq_ok.mp h with ⟨_, rfl⟩ | ⟨t, ht, hgroups⟩
  · exact absurd rfl hne
  · exact ⟨t, ht, hgroups⟩

def admitsAt [RegexLibrary] (c : Catalog) (e : Entity) (groups : List FilterGroup) :
    Option Record → Bool
  | some r => admits c e groups r
  | none => admitsValue groups .null

/-- The groups of a tree admit what the tree holds of. -/
theorem admitsAt_eq_eval [RegexLibrary] {t : FilterTree Constraint} {groups : List FilterGroup}
    (h : t.groups? = some groups) (r : Option Record) :
    admitsAt c e groups r = t.eval (constraintHoldsAt c e r) := by
  cases r with
  | some r => exact FilterTree.groups?_eval (constraintHoldsAt c e (some r)) h
  | none => exact FilterTree.groups?_eval (constraintHoldsAt c e none) h

section Through

variable {a : Attribute} {f : Value} {groups outer : List FilterGroup}

/-- The key of a join can not hold a filter. -/
theorem ne_joinKey_of_gives {key : String} {t : FilterTree Constraint}
    {ts : List (FilterTree Constraint)} (hf : readObject c target "" f = .ok t)
    (h : Gives c e key f ts) : key ≠ joinKey := by
  rintro rfl
  obtain ⟨fields, rfl⟩ := isObject_of_readObject hf
  have hread := readField_eq_ok.mpr h
  rw [readField_join] at hread
  cases hread

/-- A filter through a repeating attribute admits a record when the filter admits one of the
records of the attribute, or the missing one if there is none. -/
theorem admits_through [RegexLibrary] (hc : c.Dotless) (he : e ∈ c.entities) (ha : a ∈ e.attributes)
    (hk : a.scalarKind? = none) (hrep : a.repeating = true)
    (ht : c.entity? a.typeName = some target) (hkey : a.name ≠ childrenKey)
    (hf : compile c target f = .ok groups) (hne : groups ≠ [])
    (hthrough : compile c e (.object [(a.name, f)]) = .ok outer) (r : Record) :
    admits c e outer r = someRecord (a.valueIn r).records (admitsAt c target groups) := by
  have hfound : e.attribute? a.name = some a := Entity.attribute?_eq_some.mpr ⟨ha, rfl⟩
  obtain ⟨t, hread, hgroups⟩ := tree_of_compile hf hne
  obtain ⟨u, hu, houter⟩ : ∃ u, readObject c e "" (.object [(a.name, f)]) = .ok u ∧
      u.groups? = some outer := by
    rcases compile_eq_ok.mp hthrough with ⟨hnull, _⟩ | hsome
    · cases hnull
    · exact hsome
  obtain ⟨ts, hgives, rfl⟩ := readObject_singleton.mp hu
  obtain ⟨fields, hobject⟩ := isObject_of_readObject hread
  have hcon : Constrained e a.name f a :=
    ⟨ne_joinKey_of_gives hread hgives, hkey, hfound, by rw [hobject]; rfl⟩
  obtain ⟨t', hread', hbelow⟩ := (gives_entity hcon hk ht).mp hgives
  obtain rfl := Except.ok.inj (hread.symm.trans hread')
  obtain ⟨kept', hkept', rfl⟩ := (belowAttribute_repeating hrep).mp hbelow
  rw [FilterTree.perElement?_map, Option.map_eq_some_iff] at hkept'
  obtain ⟨kept, hkept, rfl⟩ := hkept'
  cases kept with
  | none =>
    -- Nothing is left of the filter, so that it has no groups.
    have hnil := FilterTree.groups?_eq_some_nil.mpr (FilterTree.perElement?_eq_some hkept).1
    exact absurd (Option.some.inj (hgroups.symm.trans hnil)) hne
  | some s =>
    have heval : ∀ join, (FilterTree.node join [s.map (Constraint.below (a.name ++ "."))]).eval
        (constraintHoldsAt c e (some r)) =
          (s.map (Constraint.below (a.name ++ "."))).eval (constraintHoldsAt c e (some r)) := by
      intro join
      cases join <;> simp [Join.combine]
    calc admits c e outer r = admitsAt c e outer (some r) := rfl
      _ = (FilterTree.node _ _).eval (constraintHoldsAt c e (some r)) :=
        admitsAt_eq_eval houter (some r)
      _ = (s.map (Constraint.below (a.name ++ "."))).eval (constraintHoldsAt c e (some r)) :=
        heval _
      _ = s.eval fun k => someRecord (a.valueIn r).records fun r =>
          constraintHoldsAt c target r k := eval_below hc he hfound ht s (some r)
      _ = someRecord (a.valueIn r).records fun r => t.eval (constraintHoldsAt c target r) :=
        eval_someRecord_of_perElement? hkept _ (constraintHoldsAt c target)
      _ = _ := congrArg (someRecord _) (funext fun s => (admitsAt_eq_eval hgroups s).symm)

/-- Under the key of child filters a filter is one on the record itself. -/
theorem compile_children (hf : compile c target f = .ok groups) (hne : groups ≠ [])
    (hthrough : compile c e (.object [(childrenKey, f)]) = .ok outer) :
    compile c e f = .ok outer := by
  obtain ⟨t, hread, _⟩ := tree_of_compile hf hne
  obtain ⟨fields, rfl⟩ := isObject_of_readObject hread
  rcases compile_eq_ok.mp hthrough with ⟨hnull, _⟩ | ⟨u, hu, houter⟩
  · cases hnull
  · obtain ⟨ts, hgives, rfl⟩ := readObject_singleton.mp hu
    obtain ⟨v, hv, rfl⟩ := gives_child.mp hgives
    rw [FilterTree.groups?_congr (FilterTree.simplify_node_singleton _ v)] at houter
    exact compile_eq_ok.mpr (Or.inr ⟨v, hv, houter⟩)

end Through

end Filter

namespace Rendering

variable {c : Catalog} {e target : Entity} {f : OutputField} {groups : List FilterGroup}

/-- A filter that imposes something keeps an element of a list when it admits a record there. -/
theorem exists_kept_iff [RegexLibrary] (htarget : f.target = .object target) (hne : groups ≠ [])
    (value : AttributeValue) : (∃ item ∈ itemsOf value, keeps c f groups item = true) ↔
      ∃ r ∈ value.records, Filter.admits c target groups r = true := by
  have hkeeps : ∀ item, keeps c f groups item = true ↔
      ∃ r, item.record? = some r ∧ Filter.admits c target groups r = true := by
    intro item
    have hempty : groups.isEmpty = false := List.isEmpty_eq_false_iff.mpr hne
    rw [keeps, htarget, hempty, Bool.false_or]
    cases item.record? <;> simp
  have hrecords : ∀ r, r ∈ value.records ↔ ∃ item ∈ itemsOf value, item.record? = some r := by
    intro r
    cases value with
    | list items => simp [AttributeValue.records, itemsOf]
    | _ => simp [AttributeValue.records, itemsOf, AttributeValue.record?, eq_comm]
  simp only [hkeeps, hrecords]
  constructor
  · rintro ⟨item, hitem, r, hr, hadmits⟩
    exact ⟨r, ⟨item, hitem, hr⟩, hadmits⟩
  · rintro ⟨r, ⟨item, hitem, hr⟩, hadmits⟩
    exact ⟨item, hitem, r, hr, hadmits⟩

/-- A list is shown with one item for each element that the filter keeps. -/
theorem shown_eq_nil_iff [RegexLibrary] (hlist : f.type.list = true)
    {renderNested : RecordRendering} {value : AttributeValue} {j : Json}
    (h : (renderValue c e f none groups renderNested value).outcome = .ok j) :
    ∃ shown, j = .array shown ∧
      (shown ≠ [] ↔ ∃ item ∈ itemsOf value, keeps c f groups item = true) := by
  rw [renderValue, hlist, if_pos rfl, Tracked.outcome_bind, Tracked.outcome_mapM] at h
  obtain ⟨shown, hshown, h⟩ := Outcome.bind_eq_ok.mp h
  obtain rfl := Except.ok.inj h
  refine ⟨shown, rfl, ?_⟩
  have hlength := (Outcome.mapM_eq_ok.mp hshown).length_eq
  rw [← List.length_pos_iff, ← hlength, List.length_pos_iff, windowed]
  simp [List.filter_eq_nil_iff]

/-- A filter through a repeating attribute admits a record exactly when the filter on the
attribute's list keeps an element of it, but for a record with nothing there, which the one also
admits when the filter tests for null. Under the key of child filters it is one on the record
itself. -/
theorem admits_iff_kept [RegexLibrary] {a : Attribute} {filter : Value} {outer : List FilterGroup}
    (hc : c.Dotless) (he : e ∈ c.entities) (ha : a ∈ e.attributes) (hk : a.scalarKind? = none)
    (hrep : a.repeating = true) (ht : c.entity? a.typeName = some target)
    (hf : (Schema.outputField c a).outcome = .ok f)
    (hfilter : Filter.compile c target filter = .ok groups) (hne : groups ≠ [])
    (hthrough : Filter.compile c e (.object [(a.name, filter)]) = .ok outer) (r : Record) :
    (a.name ≠ childrenKey → (Filter.admits c e outer r = true ↔
      (∃ item ∈ itemsOf (a.valueIn r), keeps c f groups item = true) ∨
        (a.valueIn r).records = [] ∧ ∀ group ∈ groups, ∃ k ∈ group, k.condition = .null)) ∧
    (a.name = childrenKey → Filter.compile c e filter = .ok outer) ∧
    ∀ renderNested j, (renderValue c e f none groups renderNested (a.valueIn r)).outcome = .ok j →
      ∃ shown, j = .array shown ∧
        (shown ≠ [] ↔ ∃ item ∈ itemsOf (a.valueIn r), keeps c f groups item = true) := by
  have hfield := Schema.isOutputField hf
  refine ⟨fun hkey => ?_, fun hkey => ?_, fun renderNested j hj => ?_⟩
  · rw [Filter.admits_through hc he ha hk hrep ht hkey hfilter hne hthrough,
      exists_kept_iff (target_object hfield hk ht) hne]
    -- Without records the test through the attribute is asked of null, once.
    cases hrecords : (a.valueIn r).records with
    | nil =>
      have hnone : Filter.someRecord [] (Filter.admitsAt c target groups) =
        Filter.admitsValue groups .null := rfl
      rw [hnone, Filter.admitsValue_null]
      simp
    | cons first records =>
      rw [Filter.someRecord_cons, List.any_eq_true]
      simp [Filter.admitsAt]
  · rw [hkey] at hthrough
    exact Filter.compile_children hfilter hne hthrough
  · have hlist : f.type.list = true := by
      rw [hfield.type, TypeString.list_ofAttribute, hrep]
    exact shown_eq_nil_iff hlist hj

def orderItems : Attribute := .entity "items" "Items in order" "OrderItem" true false

def firstItem : Value := .object [("id", .object [("eq", .string "1")])]

def twoItems : Record :=
  .document [("items", .array [.object [("id", .string "1")], .object [("id", .string "2")]])]

/-- An order with the first item is found by it, and shows it. -/
theorem admits_iff_kept_twoItems : ∃ f groups outer,
    (Schema.outputField Storefront.catalog orderItems).outcome = .ok f ∧
      Filter.compile Storefront.catalog Storefront.orderItem firstItem = .ok groups ∧
      Filter.compile Storefront.catalog Storefront.order (.object [("items", firstItem)]) =
        .ok outer ∧
      Filter.admits Storefront.catalog Storefront.order outer twoItems = true ∧
      ∃ item ∈ itemsOf (orderItems.valueIn twoItems),
        keeps Storefront.catalog f groups item = true := by
  have hdot : Storefront.catalog.Dotless := by
    unfold Catalog.Dotless
    decide
  have horder : Storefront.order ∈ Storefront.catalog.entities := by simp [Storefront.catalog]
  have hitems : orderItems ∈ Storefront.order.attributes := .tail _ (.tail _ (.head _))
  have hfield : (Schema.outputField Storefront.catalog orderItems).outcome =
      .ok ⟨orderItems, .ofAttribute orderItems, .object Storefront.orderItem,
        Schema.outputParameters orderItems "OrderItemFilter"⟩ := rfl
  have hinner : Filter.compile Storefront.catalog Storefront.orderItem firstItem =
      .ok [[⟨"id", .eq (.string "1")⟩]] := rfl
  have houter : Filter.compile Storefront.catalog Storefront.order
      (.object [("items", firstItem)]) = .ok [[⟨"items.id", .eq (.string "1")⟩]] := rfl
  have hadmits : Filter.admits Storefront.catalog Storefront.order
      [[⟨"items.id", .eq (.string "1")⟩]] twoItems = true := rfl
  -- Through the order and within the list the filter finds the same first item.
  have hiff := (admits_iff_kept hdot horder hitems rfl rfl rfl hfield hinner (by simp) houter
    twoItems).1 (by decide)
  refine ⟨_, _, _, hfield, hinner, houter, hadmits, ?_⟩
  rcases hiff.mp hadmits with hkept | ⟨hnone, _⟩
  · exact hkept
  · cases hnone

def noQuantity : Value := .object [("qty", .object [("null", .boolean true)])]

def noItems : Record := .document [("items", .array [])]

/-- An order without items is found by a test for items without a quantity, and shows none. -/
theorem admits_noItems : ∃ f groups outer,
    (Schema.outputField Storefront.catalog orderItems).outcome = .ok f ∧
      Filter.compile Storefront.catalog Storefront.orderItem noQuantity = .ok groups ∧
      groups ≠ [] ∧
      Filter.compile Storefront.catalog Storefront.order (.object [("items", noQuantity)]) =
        .ok outer ∧
      Filter.admits Storefront.catalog Storefront.order outer noItems = true ∧
      ¬ ∃ item ∈ itemsOf (orderItems.valueIn noItems),
        keeps Storefront.catalog f groups item = true := by
  refine ⟨_, [[⟨"qty", .null⟩]], [[⟨"items.qty", .null⟩]], rfl, rfl, by simp, rfl, rfl, ?_⟩
  have hnone : itemsOf (orderItems.valueIn noItems) = [] := rfl
  simp [hnone]

end Rendering

end EntityGraph
