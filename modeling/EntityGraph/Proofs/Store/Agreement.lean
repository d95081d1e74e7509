import EntityGraph.Proofs.Execution.Serving
import EntityGraph.Proofs.Execution.Stored
import EntityGraph.Proofs.Filter.Paths
import EntityGraph.Proofs.Finite
import EntityGraph.Proofs.Store.Paging
import EntityGraph.Regex.Engine

namespace EntityGraph

/-- The text by which a filter compares stored data that is no list: that of a text, and that of an
integer of 64 bits with a sign. -/
def Json.plainLabel? : Json → Option String
  | .string s => some s
  | .number n => n.int64?.map toString
  | _ => none

/-- What is plainly a label is one. -/
theorem Json.label?_of_plainLabel? {j : Json} {text : String} (h : j.plainLabel? = some text) :
    j.label? = some text := by
  cases j with
  | string s => exact h
  | number n =>
    cases n with
    | integer n =>
      obtain ⟨m, hm, rfl⟩ := Option.map_eq_some_iff.mp h
      rw [Number.int64?] at hm
      split at hm
      · rw [Option.some.inj hm]
        rfl
      · cases hm
    | float x => cases h
  | _ => cases h

def labelAt (name : String) (fields : Members) : Option String :=
  ((Record.document fields).raw name).bind Json.label?

def plainAt (name : String) (fields : Members) : Option String :=
  ((Record.document fields).raw name).bind Json.plainLabel?

def storesPlain (name : String) (fields : Members) : Bool := (plainAt name fields).isSome

theorem labelAt_of_plainAt {name : String} {fields : Members} {text : String}
    (h : plainAt name fields = some text) : labelAt name fields = some text := by
  obtain ⟨j, hj, htext⟩ := Option.bind_eq_some_iff.mp h
  exact Option.bind_eq_some_iff.mpr ⟨j, hj, Json.label?_of_plainLabel? htext⟩

namespace Filter

def equalTo (name text : String) : Value := .object [(name, .object [("eq", .string text)])]

def equalGroups (name text : String) : List FilterGroup := [[⟨name, .eq (.string text)⟩]]

theorem compare?_string_eq (s text : String) :
    (compare? (.string s) (.string text) == some .eq) = true ↔ s = text := by
  rw [beq_iff_eq, compare?, Option.some.injEq, Std.compare_eq_iff_eq]

/-- Data with a text is equal to that text, if a filter compares it by its text. -/
theorem holds_eq_ofJson [RegexLibrary] {j : Json} {label text : String}
    (hlabel : j.label? = some label) :
    holds (.eq (.string text)) (.ofJson j) = true ↔ j.plainLabel? = some text := by
  cases j with
  | string s =>
    rw [AttributeValue.ofJson, holds, holdsSingle, compare?_string_eq, Json.plainLabel?,
      Option.some.injEq]
    intro _ hlist
    cases hlist
  | number n =>
    rw [AttributeValue.ofJson, AttributeValue.ofNumber, Json.plainLabel?]
    cases hn : n.int64? with
    | none => simp [holds, holdsSingle, compare?]
    | some i =>
      have hround : (Int64.ofInt i).toInt = i :=
        Decimal.toInt_ofInt (Number.fitsInt64_of_int64? hn)
      rw [holds, holdsSingle, compare?, hround, beq_iff_eq, Option.some.injEq,
        Std.compare_eq_iff_eq, Option.map_some, Option.some.injEq]
      intro _ hlist
      cases hlist
  | _ => cases hlabel

structure HoldsText (e : Entity) (a : Attribute) : Prop where
  found : e.attribute? a.name = some a
  stored : a.IsStored
  kind : a.scalarKind? = some .id ∨ a.scalarKind? = some .string
  not_join : a.name ≠ joinKey
  not_children : a.name ≠ childrenKey
  dotless : '.' ∉ a.name.toList

namespace HoldsText

variable {c : Catalog} {e : Entity} {a : Attribute} {fields : Members} {text : String}

theorem of_scalar {name description : String} {kind : ScalarKind} {nullable : Bool}
    (found : e.attribute? name = some (.scalar name description kind nullable))
    (hkind : (Attribute.scalar name description kind nullable).scalarKind? = some .id ∨
      (Attribute.scalar name description kind nullable).scalarKind? = some .string)
    (hname : name ∉ [extensionKey, customKey, joinKey, childrenKey] ∧ '.' ∉ name.toList) :
    HoldsText e (.scalar name description kind nullable) := by
  obtain ⟨hname, hdot⟩ := hname
  simp only [List.mem_cons, List.not_mem_nil, or_false, not_or] at hname
  obtain ⟨hextension, hcustom, hjoin, hchildren⟩ := hname
  exact ⟨found, ⟨rfl, rfl, hextension, hcustom⟩, hkind, hjoin, hchildren, hdot⟩

theorem readConstraint_eq {kind : ScalarKind} (hkind : kind = .id ∨ kind = .string)
    (field text : String) :
    readConstraint kind field (.object [("eq", .string text)]) =
      .ok ⟨field, .eq (.string text)⟩ := by
  rcases hkind with rfl | rfl <;> rfl

/-- A filter by equality compiles to one test of the text. -/
theorem compile_equalTo (h : HoldsText e a) (c : Catalog) (text : String) :
    compile c e (equalTo a.name text) = .ok (equalGroups a.name text) := by
  obtain ⟨kind, hkind, hscalar⟩ : ∃ kind, (kind = .id ∨ kind = .string) ∧
      a.scalarKind? = some kind := by
    rcases h.kind with hk | hk
    · exact ⟨_, Or.inl rfl, hk⟩
    · exact ⟨_, Or.inr rfl, hk⟩
  -- One key, one operator, one leaf.
  have hread : readField c e "" (a.name, .object [("eq", .string text)]) =
      .ok [.leaf ⟨a.name, .eq (.string text)⟩] := by
    have hfound : filterable e "" a.name = .ok a := by rw [filterable, h.found]
    rw [readField, if_neg h.not_join, if_neg h.not_children, hfound, String.empty_append]
    change readAttribute c a a.name (.object [("eq", .string text)]) = _
    simp only [readAttribute, hscalar, readLeaf, readConstraint_eq hkind]
    rfl
  have htree : readObject c e "" (equalTo a.name text) =
      .ok (.node .all [.leaf ⟨a.name, .eq (.string text)⟩]) := by
    have hjoin : joinOf [(a.name, Value.object [("eq", .string text)])] = .all := by
      rw [joinOf, joinFrom, List.foldl_cons, if_neg h.not_join, List.foldl_nil]
    rw [equalTo, readObject_object, hjoin, List.mapM_cons, hread]
    rfl
  have hnull : (equalTo a.name text).isNull = false := rfl
  rw [compile, hnull, if_neg Bool.false_ne_true, htree]
  rfl

/-- A filter for a text asks for the value of its attribute. -/
theorem admits_equalGroups [RegexLibrary] (h : HoldsText e a) (r : Record) :
    admits c e (equalGroups a.name text) r = holds (.eq (.string text)) (a.valueIn r) := by
  have hpath : Constraint.path ⟨a.name, .eq (.string text)⟩ = [a.name] :=
    path_of_not_mem h.dotless
  rw [equalGroups, admits, List.all_cons, List.all_nil, Bool.and_true, List.any_cons, List.any_nil,
    Bool.or_false, constraintHolds, hpath]
  simp only [pathHolds, Entity.read_of_attribute? h.found]

/-- A record with a text at an attribute is found by that text, if it stores it plainly. -/
theorem admits_of_labelAt [RegexLibrary] (h : HoldsText e a) {label : String}
    (hlabel : labelAt a.name fields = some label) :
    admits c e (equalGroups a.name text) (.document fields) = true ↔
      plainAt a.name fields = some text := by
  obtain ⟨j, hj, hlabel⟩ := Option.bind_eq_some_iff.mp hlabel
  have hvalue : a.valueIn (.document fields) = .ofJson j :=
    h.stored.valueIn_of_some (h.stored.raw_eq ▸ hj)
  rw [h.admits_equalGroups, hvalue, holds_eq_ofJson hlabel, plainAt, hj, Option.bind_some]

end HoldsText

end Filter

namespace Store

/-- What is kept of a list is one item alone, where no two items can be kept together. -/
theorem filter_eq_singleton_iff {α : Type} {xs : List α} {keep : α → Bool} {x : α}
    (h : xs.Pairwise fun a b => keep a = true → keep b ≠ true) :
    xs.filter keep = [x] ↔ x ∈ xs ∧ keep x = true := by
  constructor
  · intro hfilter
    exact List.mem_filter.mp (hfilter ▸ List.mem_singleton_self x)
  · intro hx
    have hmem : x ∈ xs.filter keep := List.mem_filter.mpr hx
    have hpairwise := h.filter keep
    have hkept : ∀ y ∈ xs.filter keep, keep y = true := fun y hy => (List.mem_filter.mp hy).2
    revert hmem hpairwise hkept
    generalize xs.filter keep = ys
    intro hmem hpairwise hkept
    match ys with
    | [y] => rw [List.mem_singleton.mp hmem]
    | y :: z :: ys =>
      have hyz := (List.pairwise_cons.mp hpairwise).1 z (List.mem_cons_self ..)
      exact absurd (hkept z (by simp)) (hyz (hkept y (by simp)))

variable {e : Entity} {a : Attribute} {collection : Collection}
  {table : List (String × Nat)} {r : Members}

/-- Of the records that store an attribute plainly, a search for a text finds the one to which the
table of the attribute leads, and no other. -/
theorem fetch?_eq_some_iff_plain [RegexLibrary] (c : Catalog) (h : Filter.HoldsText e a)
    (htable : Tabulates (labelAt a.name) collection.records table) (text : String)
    (hplain : storesPlain a.name r = true) :
    collection.fetch? table text = some r ↔
      (collection.records.filter fun fields => Filter.admits c e (Filter.equalGroups a.name text)
        (.document fields)).filter (storesPlain a.name) = [r] := by
  -- Among plain labels the filter finds those that are equal, as the table does.
  have hkept : ∀ fields, (storesPlain a.name fields && Filter.admits c e
      (Filter.equalGroups a.name text) (.document fields)) = true ↔
        plainAt a.name fields = some text := by
    intro fields
    rw [Bool.and_eq_true_iff]
    constructor
    · rintro ⟨hstores, hadmits⟩
      obtain ⟨label, hlabel⟩ := Option.isSome_iff_exists.mp hstores
      exact (h.admits_of_labelAt (labelAt_of_plainAt hlabel)).mp hadmits
    · intro hfields
      exact ⟨Option.isSome_iff_exists.mpr ⟨text, hfields⟩,
        (h.admits_of_labelAt (labelAt_of_plainAt hfields)).mpr hfields⟩
  -- No two records have one label, so that it finds one at most.
  have hpairwise : collection.records.Pairwise fun x y =>
      (storesPlain a.name x && Filter.admits c e (Filter.equalGroups a.name text)
        (.document x)) = true →
      (storesPlain a.name y && Filter.admits c e (Filter.equalGroups a.name text)
        (.document y)) ≠ true := by
    refine htable.pairwise.imp fun {x y} hxy hx hy => ?_
    exact hxy text (labelAt_of_plainAt ((hkept x).mp hx)) (labelAt_of_plainAt ((hkept y).mp hy))
  obtain ⟨label, hr⟩ := Option.isSome_iff_exists.mp hplain
  rw [List.filter_filter, filter_eq_singleton_iff hpairwise, htable.fetch?_eq_some, hkept, hr,
    labelAt_of_plainAt hr]

/-- Where every record has a text at an attribute, a search for a text finds no other records than
those that store it plainly. -/
theorem filter_storesPlain_of_labelAt [RegexLibrary] (c : Catalog) (h : Filter.HoldsText e a)
    {records : List Members}
    (hlabels : ∀ fields ∈ records, ∃ label, labelAt a.name fields = some label) (text : String) :
    (records.filter fun fields => Filter.admits c e (Filter.equalGroups a.name text)
        (.document fields)).filter (storesPlain a.name) =
      records.filter fun fields => Filter.admits c e (Filter.equalGroups a.name text)
        (.document fields) := by
  refine List.filter_eq_self.mpr fun fields hfields => ?_
  obtain ⟨hmem, hadmits⟩ := List.mem_filter.mp hfields
  obtain ⟨label, hlabel⟩ := hlabels fields hmem
  exact Option.isSome_iff_exists.mpr ⟨text, (h.admits_of_labelAt hlabel).mp hadmits⟩

/-- Every storefront entity with ids has them in an attribute that filters compare by text. -/
theorem holdsText_id {entity : String} {e : Entity}
    (he : Storefront.catalog.entity? entity = some e) (hid : (e.attribute? "id").isSome = true) :
    ∃ a : Attribute, a.name = "id" ∧ Filter.HoldsText e a := by
  have hmem := (Catalog.entity?_eq_some.mp he).1
  have hname : "id" ∉ [extensionKey, customKey, joinKey, childrenKey] ∧
      '.' ∉ "id".toList := by decide
  simp only [Storefront.catalog, List.mem_cons, List.not_mem_nil, or_false] at hmem
  rcases hmem with rfl | rfl | rfl | rfl | rfl | rfl | rfl | rfl | rfl | rfl | rfl | rfl | rfl
  -- Product options and comments are the only ones without ids.
  all_goals first
    | exact ⟨_, rfl, .of_scalar rfl (Or.inl rfl) hname⟩
    | exact absurd hid (by decide)

theorem holdsText_sku : Filter.HoldsText Storefront.product
    (.scalar "sku" "SKU" .string false) :=
  .of_scalar rfl (Or.inr rfl) (by decide)

/-- A page from the start on that has room for all records shows all that a filter admits. -/
theorem search_of_size_le [RegexLibrary] {rules : StoreRules} {entity : String} {e : Entity}
    (he : rules.catalog.entity? entity = some e) (filter : List FilterGroup) {s : Store}
    {page : Page} (hstart : page.start = 0) (hsize : s.size entity ≤ page.limit) :
    s.search rules entity filter page = .ok (s.matching rules e filter entity) := by
  have hroom : (s.matching rules e filter entity).length ≤ page.limit :=
    Nat.le_trans (List.length_filter_le ..) hsize
  rw [search_eq he, Page.slice, hstart, List.drop_zero, List.take_of_length_le hroom]

/-- A record that stores its id plainly is the one that is looked up by an id exactly if it is the
one that a search for that id finds. -/
theorem fetchById_agrees [RegexLibrary] {s : Store} (hs : Indexed Service.storefrontRules s)
    (text : String) {entity : String} {e : Entity} {page : Page}
    (he : Service.storefrontRules.catalog.entity? entity = some e)
    (hid : (e.attribute? "id").isSome = true) (hstart : page.start = 0)
    (hsize : s.size entity ≤ page.limit) : ∃ groups fetched found,
      Filter.compile Service.storefrontRules.catalog e (Filter.equalTo "id" text) = .ok groups ∧
      s.fetchById Service.storefrontRules entity text = .ok fetched ∧
      s.search Service.storefrontRules entity groups page = .ok found ∧
      (∀ r, found = [r] → fetched = some r) ∧
      ∀ r, storesPlain "id" r → (fetched = some r ↔ found = [r]) := by
  obtain ⟨a, hname, ha⟩ := holdsText_id he hid
  have hlabels : ∀ fields ∈ (s.collection entity).records,
      ∃ label, labelAt a.name fields = some label := by
    rw [hname]
    exact (hs entity).identified
  have htable : Tabulates (labelAt a.name) (s.collection entity).records
      (s.collection entity).byId := by
    rw [hname]
    exact (hs entity).byId
  -- Every record has a text for its id, so that a search finds those with plain ids only.
  have hplain := filter_storesPlain_of_labelAt Service.storefrontRules.catalog ha hlabels text
  have hagree := fun r (hr : storesPlain a.name r = true) =>
    fetch?_eq_some_iff_plain Service.storefrontRules.catalog ha htable text hr
  rw [hplain] at hagree
  rw [hname] at hagree hplain
  refine ⟨_, _, _, hname ▸ ha.compile_equalTo Service.storefrontRules.catalog text,
    fetchById_eq he text, search_of_size_le he _ hstart hsize, fun r hfound => ?_, hagree⟩
  have hmem : r ∈ s.matching Service.storefrontRules e (Filter.equalGroups "id" text) entity :=
    hfound ▸ List.mem_singleton_self r
  rw [matching, ← hplain] at hmem
  exact (hagree r (List.mem_filter.mp hmem).2).mpr hfound

/-- A product that stores its SKU plainly is looked up by it exactly if it is the only one to do so
among those that a search for it finds. -/
theorem fetchByKey_agrees [RegexLibrary] {s : Store} (hs : Indexed Service.storefrontRules s)
    (text : String)
    {page : Page} (hstart : page.start = 0) (hsize : s.size "Product" ≤ page.limit) :
    ∃ groups fetched found,
      Filter.compile Service.storefrontRules.catalog Storefront.product
        (Filter.equalTo "sku" text) = .ok groups ∧
      s.fetchByKey Service.storefrontRules "Product" "sku" text = .ok fetched ∧
      s.search Service.storefrontRules "Product" groups page = .ok found ∧
      (∀ r, storesPlain "sku" r → (fetched = some r ↔ found.filter (storesPlain "sku") = [r])) ∧
      ((∀ r ∈ found, storesPlain "sku" r) →
        ∀ r, storesPlain "sku" r → (fetched = some r ↔ found = [r])) := by
  have he : Service.storefrontRules.catalog.entity? "Product" = some Storefront.product := rfl
  have hagree := fun r (hr : storesPlain "sku" r = true) =>
    fetch?_eq_some_iff_plain Service.storefrontRules.catalog holdsText_sku (hs "Product").byKey
      text hr
  refine ⟨_, _, _, holdsText_sku.compile_equalTo Service.storefrontRules.catalog text,
    fetchByKey_eq he rfl text, search_of_size_le he _ hstart hsize, hagree, fun hall r hr => ?_⟩
  rw [hagree r hr]
  exact Iff.of_eq (congrArg (· = [r]) (List.filter_eq_self.mpr hall))

/-- In a storefront after any calls, a record that stores its id plainly is the one that is looked
up by an id exactly if it is the one that a search for that id finds, and no search for an id finds
a record that a look-up does not. A product that stores its SKU plainly is looked up by it exactly
if it is the only one to do so among those that a search for it finds. -/
theorem lookups_agree [RegexLibrary] (calls : List ((Nat → String) × StoreCall)) (text : String) :
    let rules := Service.storefrontRules
    let s := empty.afterCalls rules calls
    (∀ entity e page, rules.catalog.entity? entity = some e → (e.attribute? "id").isSome →
      Page.start page = 0 → s.size entity ≤ page.limit → ∃ groups fetched found,
        Filter.compile rules.catalog e (Filter.equalTo "id" text) = .ok groups ∧
        s.fetchById rules entity text = .ok fetched ∧
        s.search rules entity groups page = .ok found ∧
        (∀ r, found = [r] → fetched = some r) ∧
        ∀ r, storesPlain "id" r → (fetched = some r ↔ found = [r])) ∧
    (∀ page, Page.start page = 0 → s.size "Product" ≤ page.limit → ∃ groups fetched found,
      Filter.compile rules.catalog Storefront.product (Filter.equalTo "sku" text) = .ok groups ∧
      s.fetchByKey rules "Product" "sku" text = .ok fetched ∧
      s.search rules "Product" groups page = .ok found ∧
      (∀ r, storesPlain "sku" r → (fetched = some r ↔ found.filter (storesPlain "sku") = [r])) ∧
      ((∀ r ∈ found, storesPlain "sku" r) →
        ∀ r, storesPlain "sku" r → (fetched = some r ↔ found = [r]))) := by
  intro rules s
  have hs : Indexed rules s := indexed_afterCalls calls
  exact ⟨fun _ _ _ he hid hstart hsize => fetchById_agrees hs text he hid hstart hsize,
    fun _ hstart hsize => fetchByKey_agrees hs text hstart hsize⟩

def mug : Members := [("id", .int 7), ("sku", .string "MUG")]

/-- A mug, found by id, by key and by filter. -/
theorem lookups_agree_mug :
    let rules := Service.storefrontRules
    let s := empty.afterCalls rules [(toString, .insert "Product" mug)]
    s.search rules "Product" (Filter.equalGroups "id" "7") ⟨0, 1⟩ = .ok [mug] ∧
      ∃ found, s.search rules "Product" (Filter.equalGroups "sku" "MUG") ⟨0, 1⟩ = .ok found ∧
        found.filter (storesPlain "sku") = [mug] := by
  intro rules s
  constructor
  · obtain ⟨groups, fetched, found, hgroups, hfetched, hfound, _, hagree⟩ :=
      (lookups_agree [(toString, .insert "Product" mug)] "7").1 "Product" Storefront.product ⟨0, 1⟩
        rfl rfl rfl (by decide)
    have hmug : fetched = some mug := (Except.ok.inj hfetched).symm.trans rfl
    obtain rfl : Filter.equalGroups "id" "7" = groups := Except.ok.inj hgroups
    exact hfound.trans (congrArg Except.ok ((hagree mug rfl).mp hmug))
  · obtain ⟨groups, fetched, found, hgroups, hfetched, hfound, hagree, _⟩ :=
      (lookups_agree [(toString, .insert "Product" mug)] "MUG").2 ⟨0, 1⟩ rfl (by decide)
    have hmug : fetched = some mug := (Except.ok.inj hfetched).symm.trans rfl
    obtain rfl : Filter.equalGroups "sku" "MUG" = groups := Except.ok.inj hgroups
    exact ⟨found, hfound, (hagree mug rfl).mp hmug⟩

def customMug : Members :=
  [("id", .string "1"), (customKey, .array
    [.object [("attribute_code", .string "sku"), ("value", .string "MUG")]])]

def hugeMug : Members := [("id", .int 0xffffffffffffffff), ("sku", .string "MUG")]

/-- A product whose SKU is a custom attribute is found by a search for the SKU, but not by looking
it up, and a product with an id beyond the integers with a sign is the other way around. -/
theorem lookups_disagree :
    let rules := Service.storefrontRules
    let custom := empty.afterCalls rules [(toString, .insert "Product" customMug)]
    let huge := empty.afterCalls rules [(toString, .insert "Product" hugeMug)]
    let bySku := Filter.equalGroups "sku" "MUG"
    let byId := Filter.equalGroups "id" "18446744073709551615"
    Filter.compile rules.catalog Storefront.product (Filter.equalTo "sku" "MUG") = .ok bySku ∧
    custom.search rules "Product" bySku ⟨0, 1⟩ = .ok [customMug] ∧
    custom.fetchByKey rules "Product" "sku" "MUG" = .ok none ∧
    Filter.compile rules.catalog Storefront.product
      (Filter.equalTo "id" "18446744073709551615") = .ok byId ∧
    huge.fetchById rules "Product" "18446744073709551615" = .ok (some hugeMug) ∧
    huge.search rules "Product" byId ⟨0, 1⟩ = .ok [] :=
  ⟨rfl, rfl, rfl, rfl, rfl, rfl⟩

end Store

end EntityGraph
