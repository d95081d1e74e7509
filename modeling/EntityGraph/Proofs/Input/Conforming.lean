import EntityGraph.Proofs.Input.Canonical

namespace EntityGraph.Input

mutual

/-- A value of the input type of an entity: an object that names settable attributes only and gives
each that may not be left out, with values of their types. -/
inductive Conforms (c : Catalog) : Entity → Value → Prop
  | object {e : Entity} {entries : Arguments}
      (known : ∀ entry ∈ entries, ∃ a ∈ e.attributes, Schema.isSettable a = true ∧ a.name = entry.1)
      (required : ∀ a ∈ e.attributes, Schema.isSettable a = true → a.repeating = false →
        a.nullable = false → given? entries a.name ≠ none)
      (fields : ∀ a ∈ e.attributes, Schema.isSettable a = true → ∀ v,
        given? entries a.name = some v → ConformsField c a v) : Conforms c e (.object entries)

/-- A value of the type of an attribute: one item, or a list of items if the attribute repeats. -/
inductive ConformsField (c : Catalog) : Attribute → Value → Prop
  | single {a : Attribute} {v : Value} (item : ConformsItem c a v) : ConformsField c a v
  | list {a : Attribute} {items : List Value} (repeating : a.repeating = true)
      (all : ∀ item ∈ items, ConformsItem c a item) : ConformsField c a (.list items)

/-- A single value of the type of an attribute: a literal, or a value of the input type. -/
inductive ConformsItem (c : Catalog) : Attribute → Value → Prop
  | scalar {a : Attribute} {kind : ScalarKind} {v : Value} {j : Json}
      (isScalar : a.scalarKind? = some kind) (literal : IsLiteral kind v j) : ConformsItem c a v
  | record {a : Attribute} {t : Entity} {v : Value} (refers : a.scalarKind? = none)
      (target : c.entity? a.typeName = some t) (conforms : Conforms c t v) : ConformsItem c a v

end

inductive InputReaches (c : Catalog) : Entity → Entity → Prop
  | here (e : Entity) : InputReaches c e e
  | inside {e t u : Entity} {a : Attribute} : a ∈ e.attributes → Schema.isSettable a = true →
      a.scalarKind? = none → c.entity? a.typeName = some t → InputReaches c t u →
      InputReaches c e u

variable {c : Catalog}

theorem exists_canonicalItems {a : Attribute} {items : List Value}
    (h : ∀ item ∈ items, ConformsItem c a item ↔ ∃ j, CanonicalItem c a item j) :
    (∀ item ∈ items, ConformsItem c a item) ↔ ∃ js, CanonicalItems c a items js := by
  induction items with
  | nil => exact iff_of_true (fun _ h => absurd h List.not_mem_nil) ⟨[], .nil a⟩
  | cons item items ih =>
    rw [List.forall_mem_cons] at h ⊢
    rw [h.1, ih h.2]
    constructor
    · rintro ⟨⟨j, hj⟩, js, hjs⟩
      exact ⟨j :: js, .cons hj hjs⟩
    · rintro ⟨_, _ | ⟨hj, hjs⟩⟩
      exact ⟨⟨_, hj⟩, _, hjs⟩

/-- Conformance at a field, once it is known for the value and its members. -/
theorem conformsField_iff {v : Value}
    (hv : ∀ a, ConformsItem c a v ↔ ∃ j, CanonicalItem c a v j)
    (hitems : ∀ items, v = .list items → ∀ item ∈ items, ∀ a,
      ConformsItem c a item ↔ ∃ j, CanonicalItem c a item j) (a : Attribute) :
    ConformsField c a v ↔ ∃ j, CanonicalField c a v j := by
  constructor
  · intro h
    cases h with
    | single hitem =>
      obtain ⟨j, hj⟩ := (hv a).mp hitem
      -- A single value for a repeating attribute becomes a list of one.
      cases hr : a.repeating with
      | false => exact ⟨j, .single hr hj⟩
      | true => exact ⟨.array [j], .wrapped hr hj⟩
    | @list _ items hrepeating hall =>
      obtain ⟨js, hjs⟩ := (exists_canonicalItems fun item hi => hitems items rfl item hi a).mp hall
      exact ⟨.array js, .list hrepeating hjs⟩
  · rintro ⟨j, h⟩
    cases h with
    | single _ hitem | wrapped _ hitem => exact .single ((hv a).mpr ⟨_, hitem⟩)
    | @list _ items js hrepeating hall =>
      exact .list hrepeating
        ((exists_canonicalItems fun item hi => hitems items rfl item hi a).mpr ⟨js, hall⟩)

/-- Fields have a form together when each that is given has one and none needed is missing. -/
theorem exists_canonicalFields {as : List Attribute} {entries : Arguments} :
    (∃ given, CanonicalFields c as entries given) ↔ ∀ a ∈ as,
      (a.repeating = false → a.nullable = false → given? entries a.name ≠ none) ∧
        ∀ v, given? entries a.name = some v → ∃ j, CanonicalField c a v j := by
  induction as with
  | nil => exact iff_of_true ⟨[], .nil entries⟩ fun _ h => absurd h List.not_mem_nil
  | cons a as ih =>
    rw [List.forall_mem_cons, ← ih]
    constructor
    · -- ⟨hsome, hj, hrow⟩ | ⟨hnone, hmay, hrow⟩⟩ | Given or left out; the other rule is excluded by
      -- what is given.
      rintro ⟨_, _ | ⟨hsome, hj, hrow⟩ | ⟨hnone, hmay, hrow⟩⟩
      · refine ⟨⟨fun _ _ hnone => ?_, fun v hv => ?_⟩, _, hrow⟩
        · cases hnone.symm.trans hsome
        · exact Option.some.inj (hsome.symm.trans hv) ▸ ⟨_, hj⟩
      · refine ⟨⟨fun hr hn => ?_, fun v hv => ?_⟩, _, hrow⟩
        · rw [hr, hn] at hmay
          exact (hmay.elim Bool.false_ne_true Bool.false_ne_true).elim
        · cases hnone.symm.trans hv
    · rintro ⟨⟨hrequired, hgiven⟩, rest, hrow⟩
      cases hsome : given? entries a.name with
      | some v =>
        obtain ⟨j, hj⟩ := hgiven v hsome
        exact ⟨_, .given hsome hj hrow⟩
      | none =>
        refine ⟨rest, .omitted hsome ?_ hrow⟩
        by_contra hnot
        rw [not_or, Bool.not_eq_true, Bool.not_eq_true] at hnot
        exact hrequired hnot.1 hnot.2 hsome

theorem conforms_object_iff {entries : Arguments}
    (h : ∀ entry ∈ entries, ∀ a, ConformsField c a entry.2 ↔ ∃ j, CanonicalField c a entry.2 j)
    (e : Entity) :
    Conforms c e (.object entries) ↔ ∃ given, Canonical c e (.object entries) given := by
  constructor
  · rintro ⟨hknown, hrequired, hfields⟩
    have hrow : ∃ given, CanonicalFields c (e.attributes.filter Schema.isSettable) entries given := by
      refine exists_canonicalFields.mpr fun a ha => ?_
      obtain ⟨hmem, hset⟩ := List.mem_filter.mp ha
      exact ⟨hrequired a hmem hset,
        fun v hv => (h _ (mem_of_given? hv) a).mp (hfields a hmem hset v hv)⟩
    obtain ⟨given, hgiven⟩ := hrow
    exact ⟨given, .object hknown hgiven⟩
  · rintro ⟨given, ⟨hknown, hrow⟩⟩
    have hall := exists_canonicalFields.mp ⟨given, hrow⟩
    refine .object hknown ?_ ?_
    · exact fun a hmem hset => (hall a (List.mem_filter.mpr ⟨hmem, hset⟩)).1
    · intro a hmem hset v hv
      exact (h _ (mem_of_given? hv) a).mpr ((hall a (List.mem_filter.mpr ⟨hmem, hset⟩)).2 v hv)

/-- What conforms is what has a canonical form. By recursion on the value. -/
theorem conformsItem_iff (v : Value) (a : Attribute) :
    ConformsItem c a v ↔ ∃ j, CanonicalItem c a v j := by
  induction v using Value.filter_induction generalizing a with
  | other v hv =>
    constructor
    · intro h
      cases h with
      | scalar hk hliteral => exact ⟨_, .scalar hk hliteral⟩
      | record _ _ hconforms => cases hconforms; cases hv
    · rintro ⟨_, ⟨hk, hliteral⟩ | ⟨_, _, hcanonical⟩⟩
      · exact .scalar hk hliteral
      · cases hcanonical; cases hv
  | object entries hfields hitems =>
    -- An object, as soon as its values are known.
    have hobject : ∀ t, Conforms c t (.object entries) ↔
        ∃ given, Canonical c t (.object entries) given :=
      conforms_object_iff fun entry hentry =>
        conformsField_iff (hfields entry hentry) (hitems entry hentry)
    constructor
    · intro h
      cases h with
      | scalar hk hliteral => exact ⟨_, .scalar hk hliteral⟩
      | record hk ht hconforms =>
        obtain ⟨given, hgiven⟩ := (hobject _).mp hconforms
        exact ⟨.object given, .record hk ht hgiven⟩
    · rintro ⟨_, ⟨hk, hliteral⟩ | ⟨hk, ht, hcanonical⟩⟩
      · exact .scalar hk hliteral
      · exact .record hk ht ((hobject _).mpr ⟨_, hcanonical⟩)

theorem conforms_iff (e : Entity) (v : Value) : Conforms c e v ↔ ∃ given, Canonical c e v given := by
  cases v with
  | object entries =>
    exact conforms_object_iff (fun entry _ => conformsField_iff (conformsItem_iff entry.2)
      fun _ _ item _ => conformsItem_iff item) e
  | _ =>
    constructor
    · rintro ⟨⟩
    · rintro ⟨_, ⟨⟩⟩

theorem CanonicalItem.ne_null {a : Attribute} {v : Value} {j : Json} (h : CanonicalItem c a v j) :
    j ≠ .null := by
  cases h with
  | scalar _ hliteral => cases hliteral <;> rintro ⟨⟩
  | record => rintro ⟨⟩

theorem CanonicalField.ne_null {a : Attribute} {v : Value} {j : Json}
    (h : CanonicalField c a v j) : j ≠ .null := by
  cases h with
  | single _ hitem => exact hitem.ne_null
  | _ => rintro ⟨⟩

theorem CanonicalFields.cases_of_mem {as : List Attribute} {entries : Arguments} {given : Members}
    (h : CanonicalFields c as entries given) {member : String × Json} (hmem : member ∈ given) :
    ∃ a ∈ as, a.name = member.1 ∧ member.2 ≠ .null := by
  induction as generalizing given with
  | nil => cases h; cases hmem
  | cons a as ih =>
    have hrest : ∀ {rest}, CanonicalFields c as entries rest → member ∈ rest →
        ∃ b ∈ a :: as, b.name = member.1 ∧ member.2 ≠ .null := by
      intro rest hrow hmem
      obtain ⟨b, hb, hname, hnull⟩ := ih hrow hmem
      exact ⟨b, List.mem_cons_of_mem a hb, hname, hnull⟩
    cases h with
    | given _ hj hrow =>
      rcases List.mem_cons.mp hmem with rfl | hmem
      · exact ⟨a, List.mem_cons_self .., rfl, hj.ne_null⟩
      · exact hrest hrow hmem
    | omitted _ _ hrow => exact hrest hrow hmem

theorem keys_ofMembers (given : Members) :
    (Value.ofMembers given).map Prod.fst = given.map Prod.fst := by
  induction given with
  | nil => rfl
  | cons member rest ih => rw [Value.ofMembers, List.map_cons, List.map_cons, ih]

/-- Data without nulls gives as a value what it has. -/
theorem given?_ofMembers {given : Members} (h : ∀ member ∈ given, member.2 ≠ .null)
    (name : String) :
    given? (Value.ofMembers given) name = (given.lookup name).map Value.ofJson := by
  induction given with
  | nil => rfl
  | cons member rest ih =>
    obtain ⟨key, j⟩ := member
    rw [List.forall_mem_cons] at h
    have hnull : (Value.ofJson j).isNull = false := by
      cases j with
      | null => exact absurd rfl h.1
      | _ => rfl
    rw [given?, Value.ofMembers, List.filter_cons, hnull, Bool.not_false, if_pos rfl,
      List.lookup_cons, List.lookup_cons]
    cases name == key with
    | true => rfl
    | false => exact ih h.2

/-- Reading the form again finds the same under every name. -/
theorem CanonicalFields.again {as : List Attribute} (has : (as.map Attribute.name).Nodup)
    {entries entries' : Arguments} {given : Members} (h : CanonicalFields c as entries given)
    (hentries : ∀ entry ∈ entries, ∀ a j, CanonicalField c a entry.2 j →
      CanonicalField c a (.ofJson j) j)
    (hgiven : ∀ a ∈ as, given? entries' a.name = (given.lookup a.name).map Value.ofJson) :
    CanonicalFields c as entries' given := by
  induction as generalizing given with
  | nil => cases h; exact .nil entries'
  | cons a as ih =>
    rw [List.map_cons, List.nodup_cons] at has
    rw [List.forall_mem_cons] at hgiven
    cases h with
    | @given _ _ _ rest v j hsome hj hrow =>
      have hfirst : given? entries' a.name = some (.ofJson j) := by
        rw [hgiven.1, List.lookup_cons_self]
        rfl
      refine .given hfirst (hentries _ (mem_of_given? hsome) a j hj) (ih has.2 hrow fun b hb => ?_)
      -- Names are distinct, so that the rest does not see this member.
      have hne : b.name ≠ a.name := fun heq => has.1 (heq ▸ List.mem_map_of_mem hb)
      rw [hgiven.2 b hb, List.lookup_cons, beq_false_of_ne hne]
    | omitted hnone hmay hrow =>
      have hfirst : given? entries' a.name = none := by
        -- Nor does the rest bring a member of this name.
        have hlookup : given.lookup a.name = none := by
          refine List.lookup_eq_none_iff.mpr fun member hmem => bne_iff_ne.mpr fun heq => ?_
          obtain ⟨b, hb, hname, _⟩ := hrow.cases_of_mem hmem
          exact has.1 (heq ▸ hname ▸ List.mem_map_of_mem hb)
        rw [hgiven.1, hlookup]
        rfl
      exact .omitted hfirst hmay (ih has.2 hrow hgiven.2)

theorem Canonical.again_object {e : Entity} {entries : Arguments} {given : Members}
    (h : Canonical c e (.object entries) given)
    (hentries : ∀ entry ∈ entries, ∀ a j, CanonicalField c a entry.2 j →
      CanonicalField c a (.ofJson j) j) : Canonical c e (.ofJson (.object given)) given := by
  cases h with
  | object _ hrow =>
    have hnames : ((e.attributes.filter Schema.isSettable).map Attribute.name).Nodup :=
      (List.filter_sublist.map Attribute.name).nodup e.names_nodup
    -- Forms hold no null, so all members are given.
    have hnull : ∀ member ∈ given, member.2 ≠ .null := by
      intro member hmem
      obtain ⟨_, _, _, hnull⟩ := hrow.cases_of_mem hmem
      exact hnull
    have hgiven := given?_ofMembers hnull
    refine .object ?_ (hrow.again hnames hentries fun a _ => hgiven a.name)
    intro entry hentry
    have hkey : entry.1 ∈ given.map Prod.fst := by
      rw [← keys_ofMembers]
      exact List.mem_map_of_mem hentry
    obtain ⟨member, hmem, heq⟩ := List.mem_map.mp hkey
    obtain ⟨a, ha, hname, _⟩ := hrow.cases_of_mem hmem
    obtain ⟨hmem, hset⟩ := List.mem_filter.mp ha
    exact ⟨a, hmem, hset, hname.trans heq⟩

theorem canonicalItems_again {a : Attribute} {items : List Value} {js : List Json}
    (h : CanonicalItems c a items js)
    (hitems : ∀ item ∈ items, ∀ a j, CanonicalItem c a item j → CanonicalItem c a (.ofJson j) j) :
    CanonicalItems c a (Value.ofItems js) js := by
  induction items generalizing js with
  | nil =>
    cases h
    exact .nil a
  | cons item items ih =>
    rw [List.forall_mem_cons] at hitems
    cases h with
    | cons hj hjs => exact .cons (hitems.1 a _ hj) (ih hjs hitems.2)

theorem canonicalField_again {v : Value}
    (hv : ∀ a j, CanonicalItem c a v j → CanonicalItem c a (.ofJson j) j)
    (hitems : ∀ items, v = .list items → ∀ item ∈ items, ∀ a j,
      CanonicalItem c a item j → CanonicalItem c a (.ofJson j) j) (a : Attribute) (j : Json)
    (h : CanonicalField c a v j) : CanonicalField c a (.ofJson j) j := by
  cases h with
  | single hsingle hitem => exact .single hsingle (hv a j hitem)
  | @wrapped _ _ item hrepeating hitem =>
    exact .list hrepeating (.cons (hv a item hitem) (.nil a))
  | @list _ items js hrepeating hall =>
    exact .list hrepeating (canonicalItems_again hall (hitems items rfl))

/-- A canonical form is its own. By recursion on the value. -/
theorem canonicalItem_again (v : Value) (a : Attribute) (j : Json) (h : CanonicalItem c a v j) :
    CanonicalItem c a (.ofJson j) j := by
  induction v using Value.filter_induction generalizing a j with
  | other v hv =>
    cases h with
    | scalar hk hliteral => exact .scalar hk hliteral.ofJson
    | record _ _ hcanonical => cases hcanonical; cases hv
  | object entries hfields hitems =>
    cases h with
    | scalar hk hliteral => exact .scalar hk hliteral.ofJson
    | record hk ht hcanonical =>
      exact .record hk ht (hcanonical.again_object fun entry hentry =>
        canonicalField_again (hfields entry hentry) (hitems entry hentry))

/-- The data that comes out has, as a value, the same data. -/
theorem Canonical.again {e : Entity} {v : Value} {given : Members} (h : Canonical c e v given) :
    Canonical c e (.ofJson (.object given)) given := by
  cases v with
  | object entries =>
    exact h.again_object fun entry _ => canonicalField_again (canonicalItem_again entry.2)
      fun _ _ item _ => canonicalItem_again item
  | _ => cases h

theorem InputReaches.trans {e t u : Entity} (h : InputReaches c e t) (h' : InputReaches c t u) :
    InputReaches c e u := by
  induction h with
  | here => exact h'
  | inside ha hset hk ht _ ih => exact .inside ha hset hk ht (ih h')

theorem InputReaches.mem {e t : Entity} (h : InputReaches c e t) (he : e ∈ c.entities) :
    t ∈ c.entities := by
  induction h with
  | here => exact he
  | inside _ _ _ ht _ ih => exact ih (Catalog.entity?_eq_some.mp ht).1

/-- The input types that an entity's takes have their fields, if all can be set. -/
theorem closedInputs_reaches (hc : c.Closed) {e : Entity} (he : e ∈ c.entities)
    (hset : ∀ t, InputReaches c e t → ∃ a ∈ t.attributes, Schema.isSettable a = true) :
    Schema.ClosedInputs c (InputReaches c e) := by
  refine Schema.closedInputs_iff.mpr fun t ht => ⟨hset t ht, fun a ha hsettable hk => ?_⟩
  obtain ⟨u, hu⟩ := hc t (ht.mem he) a ha hk
  exact ⟨u, hu, ht.trans (.inside ha hsettable hk hu (.here u))⟩

/-- Over a closed catalog, where all that the input type of an entity takes can be set, exactly the
values of this type are accepted. What comes out is their data in the form that is stored, and it
is accepted again as it is. -/
theorem validate_isOk_iff (hc : c.Closed) {e : Entity} (he : e ∈ c.entities)
    (hset : ∀ t, InputReaches c e t → ∃ a ∈ t.attributes, Schema.isSettable a = true)
    (rootField path : String) (v : Value) :
    ((∃ given, (validate c rootField e path v).outcome = .ok given) ↔ Conforms c e v) ∧
      ∀ given, (validate c rootField e path v).outcome = .ok given →
        Canonical c e v given ∧ ∀ rootField' path',
          (validate c rootField' e path' (.ofJson (.object given))).outcome = .ok given := by
  have hclosed : Schema.ClosedInputs c (InputReaches c e) := closedInputs_reaches hc he hset
  have hread : ∀ rootField path v given,
      (validate c rootField e path v).outcome = .ok given ↔ Canonical c e v given :=
    fun rootField path v given => validate_eq_ok hclosed (.here e) path v given
  constructor
  · calc (∃ given, (validate c rootField e path v).outcome = .ok given)
      _ ↔ ∃ given, Canonical c e v given := exists_congr (hread rootField path v)
      _ ↔ Conforms c e v := (conforms_iff e v).symm
  · intro given h
    have hcanonical : Canonical c e v given := (hread rootField path v given).mp h
    exact ⟨hcanonical, fun rootField' path' => (hread rootField' path' _ given).mpr hcanonical.again⟩

def oneItemOrder : Value :=
  .object [("shippingMethod", .string "flatrate"), ("customer", .null),
    ("items", .object [("qty", .number (.integer 2))])]

/-- An order of one item, with the number in the form it is given back. -/
theorem validate_isOk_iff_oneItemOrder :
    Conforms Storefront.catalog Storefront.order oneItemOrder ∧
      Canonical Storefront.catalog Storefront.order oneItemOrder
        [("items", .array [.object [("qty", .number (.float 2.0))]]),
          ("shippingMethod", .string "flatrate")] := by
  have hsettable : ∀ t ∈ Storefront.catalog.entities,
      ∃ a ∈ t.attributes, Schema.isSettable a = true := by decide
  have hmem : Storefront.order ∈ Storefront.catalog.entities := by simp [Storefront.catalog]
  have hread : (validate Storefront.catalog "placeOrder" Storefront.order "order"
      oneItemOrder).outcome = .ok [("items", .array [.object [("qty", .number (.float 2.0))]]),
        ("shippingMethod", .string "flatrate")] := rfl
  obtain ⟨haccepted, hform⟩ := validate_isOk_iff Catalog.closed_storefront hmem
    (fun t ht => hsettable t (ht.mem hmem)) "placeOrder" "order" oneItemOrder
  exact ⟨haccepted.mp ⟨_, hread⟩, (hform _ hread).1⟩

end EntityGraph.Input
