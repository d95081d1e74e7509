import EntityGraph.Proofs.Filter.Operands
import EntityGraph.Proofs.Filter.Parts
import EntityGraph.Proofs.Schema
import EntityGraph.Storefront.Catalog

namespace EntityGraph

def Catalog.Unreserved (c : Catalog) : Prop :=
  ∀ e ∈ c.entities, ∀ a ∈ e.attributes, a.name ≠ joinKey ∧ a.name ≠ childrenKey

namespace Filter

inductive NamesJoin : Value → Prop
  | null : NamesJoin .null
  | enum (join : Join) : NamesJoin (.enum join.name)
  | string (join : Join) : NamesJoin (.string join.name)

mutual

inductive Conforms (c : Catalog) : Entity → Value → Prop
  | object {e : Entity} {fields : Arguments} :
      (∀ field ∈ fields, FieldConforms c e field.1 field.2) → Conforms c e (.object fields)

inductive FieldConforms (c : Catalog) : Entity → String → Value → Prop
  | join {e : Entity} {value : Value} : NamesJoin value → FieldConforms c e joinKey value
  | noChildren {e : Entity} : FieldConforms c e childrenKey .null
  | child {e : Entity} {value : Value} : Conforms c e value → FieldConforms c e childrenKey value
  | children {e : Entity} {items : List Value} : (∀ item ∈ items, Conforms c e item) →
      FieldConforms c e childrenKey (.list items)
  | absent {e : Entity} {f : FilterField} : Schema.HasFilterField c e f →
      FieldConforms c e f.name .null
  | scalar {e : Entity} {value : Value} {a : Attribute} {kind : ScalarKind} :
      Schema.HasFilterField c e ⟨a, .scalar kind⟩ → IsConstraint kind value →
      FieldConforms c e a.name value
  | entity {e target : Entity} {value : Value} {a : Attribute} :
      Schema.HasFilterField c e ⟨a, .entity target⟩ → Conforms c target value →
      FieldConforms c e a.name value

end

/-- A join is read of what names one, and of nothing else. -/
theorem readJoin_isOk {v : Value} : (∃ join, readJoin v = .ok join) ↔ NamesJoin v := by
  constructor
  · intro h
    obtain ⟨join, h⟩ := h
    cases v with
    | null => exact .null
    -- As a name and as a text alike.
    | enum name =>
      rw [readJoin] at h
      split at h
      · next hn => exact ofName?_eq_some.mp hn ▸ .enum _
      · cases h
    | string name =>
      rw [readJoin] at h
      split at h
      · next hn => exact ofName?_eq_some.mp hn ▸ .string _
      · cases h
    | _ => simp [readJoin] at h
  · intro h
    cases h with
    | null => exact ⟨.all, rfl⟩
    | enum join => exact ⟨join, by cases join <;> rfl⟩
    | string join => exact ⟨join, by cases join <;> rfl⟩

/-- In a closed catalog every attribute has a field in the filter type of its entity. -/
theorem exists_hasFilterField {c : Catalog} (hc : c.Closed) {e : Entity} (he : e ∈ c.entities)
    {a : Attribute} (ha : a ∈ e.attributes) :
    ∃ target, Schema.HasFilterField c e ⟨a, target⟩ := by
  cases hk : a.scalarKind? with
  | some kind => exact ⟨.scalar kind, (Schema.hasFilterField_scalar hc he).mpr ⟨ha, hk⟩⟩
  | none =>
    obtain ⟨target, ht⟩ := hc e he a ha hk
    exact ⟨.entity target, (Schema.hasFilterField_entity hc he).mpr ⟨ha, hk, ht⟩⟩

/-- What is read of an entity is of its language. -/
theorem conforms_of_readObject {c : Catalog} (hc : c.Closed) {v : Value} :
    ∀ (e : Entity) (t : FilterTree Constraint), e ∈ c.entities → readObject c e "" v = .ok t →
      Conforms c e v := by
  induction v using Value.filter_induction with
  | other v hv =>
    intro e t _ ht
    obtain ⟨fields, rfl⟩ := isObject_of_readObject ht
    cases hv
  | object fields hfields hitems =>
    intro e t he ht
    obtain ⟨trees, htrees, _⟩ := readObject_gives.mp ht
    apply Conforms.object
    intro field hf
    obtain ⟨key, value⟩ := field
    obtain ⟨ts, _, hg⟩ := htrees.of_field hf
    -- On an entity attribute, repeating or not, stands a filter of the language of its entity.
    have hbelow : ∀ {a : Attribute} {target : Entity} {t : FilterTree Constraint},
        Constrained e key value a → a.scalarKind? = none → c.entity? a.typeName = some target →
        readObject c target "" value = .ok t → FieldConforms c e key value := by
      intro a target t hcon hk htarget hread
      obtain ⟨ha, rfl⟩ := Entity.attribute?_eq_some.mp hcon.found
      have hmem := (Catalog.entity?_eq_some.mp htarget).1
      have hfield := (Schema.hasFilterField_entity hc he).mpr ⟨ha, hk, htarget⟩
      exact .entity hfield (hfields _ hf target t hmem hread)
    cases hg with
    | join hread => exact .join (readJoin_isOk.mp ⟨_, hread⟩)
    | noChildren => exact .noChildren
    | child hread => exact .child (hfields _ hf e _ he hread)
    | children hread =>
      apply FieldConforms.children
      intro item hi
      obtain ⟨t, _, ht⟩ := Outcome.exists_mem_right hread hi
      exact hitems _ hf _ rfl item hi e t he ht
    | absent _ _ hfound =>
      obtain ⟨ha, rfl⟩ := Entity.attribute?_eq_some.mp hfound
      obtain ⟨target, hfield⟩ := exists_hasFilterField hc he ha
      exact .absent hfield
    | scalar hcon hk hread =>
      obtain ⟨ha, rfl⟩ := Entity.attribute?_eq_some.mp hcon.found
      have hfield := (Schema.hasFilterField_scalar hc he).mpr ⟨ha, hk⟩
      exact .scalar hfield ((readConstraint_isOk _).mp ⟨_, hread⟩)
    | single hcon hk htarget _ hread => exact hbelow hcon hk htarget hread
    | repeating hcon hk htarget _ hread _ => exact hbelow hcon hk htarget hread

/-- A field that the filter type has stands for its attribute, as no attribute is reserved. -/
theorem constrained_of_hasFilterField {c : Catalog} (hc : c.Closed) (hres : c.Unreserved)
    {e : Entity} (he : e ∈ c.entities) {a : Attribute} {target : FilterTarget}
    (hf : Schema.HasFilterField c e ⟨a, target⟩) {value : Value} (hnull : value.isNull = false) :
    Constrained e a.name value a := by
  obtain ⟨ha, _⟩ := (Schema.hasFilterField_iff hc he).mp hf
  obtain ⟨hj, hch⟩ := hres e he a ha
  exact ⟨hj, hch, Entity.attribute?_eq_some.mpr ⟨ha, rfl⟩, hnull⟩

theorem isObject_of_conforms {c : Catalog} {e : Entity} {v : Value} (h : Conforms c e v) :
    v.isObject = true := by
  cases h with
  | object _ => rfl

/-- A filter of the language of an entity fails to be read for its shape only. -/
theorem error_of_conforms {c : Catalog} (hc : c.Closed) (hres : c.Unreserved) {v : Value} :
    ∀ (e : Entity) (path : String) (err : Error), e ∈ c.entities → Conforms c e v →
      readObject c e path v = .error err → err = .filter .unsupportedShape := by
  induction v using Value.filter_induction with
  | other v hv =>
    intro e path err _ hconf
    rw [isObject_of_conforms hconf] at hv
    cases hv
  | object fields hfields hitems =>
    intro e path err he hconf herr
    obtain ⟨hall⟩ := hconf
    -- The first field that fails decides the error; every field of the language fails for its
    -- shape only.
    rw [readObject_object, Outcome.map_eq_error, Outcome.mapM_eq_error] at herr
    obtain ⟨before, ⟨key, value⟩, after, rfl, _, herr⟩ := herr
    have hf : (key, value) ∈ before ++ (key, value) :: after := List.mem_append_cons_self
    have hfield := hfields _ hf
    have hkey : FieldConforms c e key value := hall _ hf
    cases hkey with
    | join hnames =>
      obtain ⟨join, hread⟩ := readJoin_isOk.mpr hnames
      rw [readField_join, hread] at herr
      cases herr
    | noChildren =>
      rw [readField_children, readBranches] at herr
      cases herr
    | child hconf =>
      cases hconf with
      | object hinner =>
        rw [readField_children, readBranches, Outcome.map_eq_error] at herr
        exact hfield e path err he (.object hinner) herr
    | children hconf =>
      rw [readField_children, readBranches, Outcome.mapM_eq_error] at herr
      obtain ⟨left, item, right, rfl, _, herr⟩ := herr
      have hi : item ∈ left ++ item :: right := List.mem_append_cons_self
      rw [readChild, if_pos (isObject_of_conforms (hconf item hi))] at herr
      exact hitems _ hf _ rfl item hi e path err he (hconf item hi) herr
    | @absent _ f hhas =>
      obtain ⟨ha, _⟩ := (Schema.hasFilterField_iff hc he).mp hhas
      obtain ⟨hj, hch⟩ := hres e he f.definition ha
      have hfound := Entity.attribute?_eq_some.mpr ⟨ha, rfl⟩
      rw [FilterField.name, readField_null c path hj hch hfound] at herr
      cases herr
    | @scalar _ _ a _ hhas hconstraint =>
      obtain ⟨ha, hk⟩ := (Schema.hasFilterField_scalar hc he).mp hhas
      obtain ⟨k, hread⟩ := (readConstraint_isOk (path ++ a.name)).mpr hconstraint
      have hcon := constrained_of_hasFilterField hc hres he hhas
        (show value.isNull = false by obtain ⟨_, rfl, _⟩ := hconstraint; rfl)
      rw [readField_constrained c path hcon, readAttribute_scalar c _ value hk, hread] at herr
      cases herr
    | @entity _ target _ a hhas hconf =>
      obtain ⟨ha, hk, htarget⟩ := (Schema.hasFilterField_entity hc he).mp hhas
      have hmem := (Catalog.entity?_eq_some.mp htarget).1
      have hcon := constrained_of_hasFilterField hc hres he hhas
        (show value.isNull = false by cases hconf; rfl)
      rw [readField_constrained c path hcon, readAttribute_entity _ value hk htarget,
        Outcome.bind_eq_error] at herr
      rcases herr with herr | ⟨t, _, herr⟩
      · exact hfield target _ err hmem hconf herr
      · obtain ⟨err', hbelow, rfl⟩ := Outcome.mapError_eq_error.mp herr
        rw [(belowAttribute_eq_error.mp hbelow).2.2]

/-- Over a catalog whose entities are all there and whose attributes have no reserved names, what
is compiled is of the language of filters, and what is of the language is compiled or is too
complex. -/
theorem compile_language {c : Catalog} (hc : c.Closed) (hres : c.Unreserved) {e : Entity}
    (he : e ∈ c.entities) {v : Value} (hv : v ≠ .null) :
    (∀ groups, compile c e v = .ok groups → Conforms c e v) ∧
    (Conforms c e v → (∃ groups, compile c e v = .ok groups) ∨
      compile c e v = .error (.filter .unsupportedShape)) := by
  constructor
  · intro groups h
    rcases compile_eq_ok.mp h with ⟨hnull, _⟩ | ⟨t, ht, _⟩
    · exact absurd hnull hv
    · exact conforms_of_readObject hc e t he ht
  · intro hconf
    cases h : compile c e v with
    | ok groups => exact Or.inl ⟨groups, rfl⟩
    | error err =>
      right
      rcases compile_eq_error.mp h with ⟨_, hread⟩ | ⟨t, _, _, rfl⟩
      · rw [error_of_conforms hc hres e "" err he hconf hread]
      · rfl

/-- Orders with a black mug or a product whose name is from the first half of the alphabet, that
do not have one of two ids. -/
def mugOrders : Value :=
  .object
    [("_children", .list [.object [], .object [("_join", .enum "ALL"), ("customer", .null)]]),
     ("items", .object [("product", .object
       [("_join", .string "ANY"), ("sku", .object [("in", .string "MUG-BLK")]),
        ("name", .object [("to", .string "N"), ("eq", .null), ("from", .string "A")])])]),
     ("id", .object [("nin", .list [.number (.integer 7), .string "8"])])]

/-- The filter conforms at each of its three depths. -/
theorem conforms_mugOrders : Conforms Storefront.catalog Storefront.order mugOrders := by
  have hclosed : Storefront.catalog.Closed := by
    have hall : ∀ e ∈ Storefront.catalog.entities, ∀ a ∈ e.attributes, a.scalarKind? = none →
        (Storefront.catalog.entity? a.typeName).isSome = true := by decide
    intro e he a ha hk
    exact Option.isSome_iff_exists.mp (hall e he a ha hk)
  have hunreserved : Storefront.catalog.Unreserved := by
    unfold Catalog.Unreserved
    decide
  have horder : Storefront.order ∈ Storefront.catalog.entities := by simp [Storefront.catalog]
  have hcompile : compile Storefront.catalog Storefront.order mugOrders =
      .ok [[⟨"items.product.sku", .isIn [.string "MUG-BLK"]⟩,
          ⟨"items.product.name", .range (.string "A") (.string "N")⟩],
        [⟨"id", .notIn [.string "7", .string "8"]⟩]] := rfl
  have hne : mugOrders ≠ .null := by intro h; cases h
  exact (compile_language hclosed hunreserved horder hne).1 _ hcompile

end Filter

end EntityGraph
