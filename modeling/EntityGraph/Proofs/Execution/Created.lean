import EntityGraph.Execution.Source
import EntityGraph.Proofs.Execution.Stored
import EntityGraph.Proofs.Input.Accepted
import EntityGraph.Proofs.Request.Fits
import EntityGraph.Proofs.Store.Calls
import EntityGraph.Proofs.Store.Ids
import EntityGraph.Regex.Engine

namespace EntityGraph

namespace Rendering

/-- What is shown of a scalar: what was given, or else the text of an id, null or no items. -/
def ShowsScalar (a : Attribute) (given : Option Json) (shown : Json) : Prop :=
  match given with
  | some j => shown = j
  | none =>
    if StoreRules.isId a then ∃ text, shown = .string text
    else shown = if a.repeating then .array [] else .null

/-- What is shown of a record inside a record, or of a list of them; `shows` says so of one. -/
def ShowsRecords (shows : Members → Members → Prop) (a : Attribute) (given : Option Json)
    (shown : Json) : Prop :=
  match given with
  | some (.object fields) => ∃ members, shown = .object members ∧ shows fields members
  | some (.array items) => ∃ js, shown = .array js ∧ List.Forall₂ (fun item j =>
      ∃ fields members, item = .object fields ∧ j = .object members ∧ shows fields members) items js
  | some _ => False
  | none => shown = if a.repeating then .array [] else .null

mutual

def Echoes : Request → Members → Members → Prop
  | .mk entity typename attributes, given, members => ∃ shown, EchoesAll attributes given shown ∧
      members = if typename then (typenameField, .string entity.name) :: shown else shown

def EchoesAll : List AttributeRequest → Members → Members → Prop
  | [], _, members => members = []
  | .mk a _ _ nested :: rest, given, members =>
    ∃ shown more, members = (a.name, shown) :: more ∧ (match nested with
      | some request => ShowsRecords (fun fields members => Echoes request fields members) a
          (given.lookup a.name) shown
      | none => ShowsScalar a (given.lookup a.name) shown) ∧ EchoesAll rest given more

end

end Rendering

/-- A request without arguments for what can be set or for an id that does not repeat, with
something asked of a record. -/
structure AttributeRequest.IsBare (a : AttributeRequest) : Prop where
  window : a.window = none
  filter : a.filter = []
  shown : Schema.isSettable a.definition = true ∨
    StoreRules.isId a.definition = true ∧ a.definition.repeating = false
  nested : a.definition.scalarKind? = none → ∃ n, a.nested = some n

inductive Request.Bare : Request → Prop
  | mk {r : Request} (attributes : ∀ a ∈ r.attributes, a.IsBare)
      (nested : ∀ a ∈ r.attributes, ∀ n, a.nested = some n → Bare n) : Bare r

/-- A bare request, one level at a time. -/
theorem Request.Bare.parts {r : Request} (h : r.Bare) : (∀ a ∈ r.attributes, a.IsBare) ∧
    ∀ a ∈ r.attributes, ∀ n, a.nested = some n → n.Bare := by
  cases h with
  | mk attributes nested => exact ⟨attributes, nested⟩

/-- Ids can not be set. -/
theorem StoreRules.isId_of_isSettable {a : Attribute} (hset : Schema.isSettable a = true) :
    isId a = false := by
  rw [Schema.isSettable, Bool.not_eq_true', Bool.or_eq_false_iff] at hset
  exact hset.1

namespace Input

variable {c : Catalog} {e : Entity} {given : Members}

/-- What acceptance says: only attributes that may be set, each with an accepted value, and none
left out that is needed. -/
theorem Accepted.parts (h : Accepted c e given) :
    (∀ entry ∈ given, ∃ a ∈ e.attributes, Schema.isSettable a = true ∧ a.name = entry.1) ∧
      (∀ a ∈ e.attributes, Schema.isSettable a = true → ∀ j,
        given.lookup a.name = some j → AcceptedValue c a j) ∧
      (∀ a ∈ e.attributes, Schema.isSettable a = true → given.lookup a.name = none →
        a.repeating = true ∨ a.nullable = true) := by
  cases h with
  | mk known value omitted => exact ⟨known, value, omitted⟩

/-- An id is never given. -/
theorem Accepted.lookup_id (h : Accepted c e given) {a : Attribute} (ha : a ∈ e.attributes)
    (hid : StoreRules.isId a = true) : given.lookup a.name = none := by
  cases h with
  | mk known _ _ =>
    cases hj : given.lookup a.name with
    | none => rfl
    | some j =>
      obtain ⟨b, hb, hset, hname⟩ := known _ (Keyed.mem_of_lookup hj)
      obtain rfl := List.inj_on_of_nodup_map e.names_nodup hb ha hname
      rw [StoreRules.isId_of_isSettable hset] at hid
      cases hid

/-- Only attributes are given. -/
theorem Accepted.lookup_other (h : Accepted c e given) {key : String}
    (hkey : ∀ a ∈ e.attributes, a.name ≠ key) : given.lookup key = none := by
  cases h with
  | mk known _ _ =>
    cases hj : given.lookup key with
    | none => rfl
    | some j =>
      obtain ⟨a, ha, _, hname⟩ := known _ (Keyed.mem_of_lookup hj)
      exact absurd hname (hkey a ha)

/-- An accepted item of a scalar attribute is rendered as a scalar of its kind. -/
theorem AcceptedItem.isScalar_of {a : Attribute} {j : Json} (h : AcceptedItem c a j)
    {kind : ScalarKind} (hk : a.scalarKind? = some kind) : Rendering.IsScalar kind j := by
  cases h with
  | scalar hkind form => exact Option.some.inj (hkind.symm.trans hk) ▸ form
  | record hnone _ _ => cases hnone.symm.trans hk

/-- An accepted item of an entity attribute is an accepted object of that entity. -/
theorem AcceptedItem.object_of {a : Attribute} {j : Json} (h : AcceptedItem c a j)
    (hk : a.scalarKind? = none) {t : Entity} (ht : c.entity? a.typeName = some t) :
    ∃ fields, j = .object fields ∧ Accepted c t fields := by
  cases h with
  | scalar hkind _ => cases hkind.symm.trans hk
  | record _ hfound accepted =>
    obtain rfl := Option.some.inj (hfound.symm.trans ht)
    exact ⟨_, rfl, accepted⟩

end Input

namespace Store

variable {rules : StoreRules} {e : Entity} {given : Members} {issued : Nat} {a : Attribute}

section Values

variable (rules issued) (hstored : a.IsStored) (ha : a ∈ e.attributes)

include hstored ha

/-- What an attribute of a record with its ids holds. -/
theorem valueIn_of_given {j : Json} (hj : given.lookup a.name = some j) : ∃ issued',
    a.valueIn (.document (rules.assignIds e issued given).1) =
      .ofJson (rules.fillValue a issued' j).1 := by
  obtain ⟨issued', hlookup⟩ := StoreRules.lookup_assignIds_of_some rules issued ha hj
  exact ⟨issued', hstored.valueIn_of_some hlookup⟩

variable (haccepted : Input.Accepted rules.catalog e given)

include haccepted

/-- The id of a created record is a generated one. -/
theorem valueIn_of_id (hid : StoreRules.isId a = true) : ∃ n,
    a.valueIn (.document (rules.assignIds e issued given).1) = .string (rules.ids n) := by
  obtain ⟨n, hlookup⟩ := StoreRules.lookup_assignIds_id rules issued ha hid
    (haccepted.lookup_id ha hid)
  exact ⟨n, hstored.valueIn_of_some hlookup⟩

/-- What the input leaves out reads as null. -/
theorem valueIn_of_omitted (hnames : e.PlainNames) (hid : StoreRules.isId a = false)
    (hnone : given.lookup a.name = none) :
    a.valueIn (.document (rules.assignIds e issued given).1) = .null := by
  refine hstored.valueIn_of_none (StoreRules.lookup_assignIds_of_none hnone ?_)
    (StoreRules.lookup_assignIds_of_none (haccepted.lookup_other ?_) ?_)
    (StoreRules.lookup_assignIds_of_none (haccepted.lookup_other ?_) ?_)
  · intro b hb hbid hname
    obtain rfl := List.inj_on_of_nodup_map e.names_nodup hb ha hname
    rw [hbid] at hid
    cases hid
  · exact fun b hb => (hnames b hb).1
  · exact fun b hb _ => (hnames b hb).1
  · exact fun b hb => (hnames b hb).2
  · exact fun b hb _ => (hnames b hb).2

end Values

end Store

namespace Rendering

variable {rules : StoreRules} {e : Entity} {given : Members} {issued : Nat} {a : Attribute}
  {f : OutputField} {window : Option Window} {renderNested : RecordRendering}

/-- What was left out is shown as null or as an empty list. -/
theorem renderValue_omitted [RegexLibrary] (hf : Schema.IsOutputField rules.catalog a f)
    (hopen : a.repeating = true ∨ a.nullable = true) :
    (renderValue rules.catalog e f window [] renderNested .null).outcome =
      .ok (if a.repeating then .array [] else .null) := by
  have hlist : f.type.list = a.repeating := hf.type ▸ TypeString.list_ofAttribute a
  cases hr : a.repeating with
  | true =>
    refine renderValue_list (hlist.trans hr) ?_
    rw [itemsOf, windowed_eq, Window.showing_nil]
    exact .nil
  | false =>
    have hnullable : a.nullable = true := hopen.resolve_left (Bool.eq_false_iff.mp hr)
    exact renderValue_null (hlist.trans hr) (hf.type ▸ TypeString.nonNull_ofAttribute hr hnullable)

def HoldsRecord (rules : StoreRules) (t : Entity) (item : Json) (value : AttributeValue) : Prop :=
  ∃ fields issued, item = .object fields ∧ Input.Accepted rules.catalog t fields ∧
    value = .record (.document (rules.assignIds t issued fields).1)

inductive HoldsRecords (rules : StoreRules) (a : Attribute) (t : Entity) :
    Option Json → AttributeValue → Prop
  | omitted : a.repeating = true ∨ a.nullable = true → HoldsRecords rules a t none .null
  | single {item : Json} {value : AttributeValue} : a.repeating = false →
      HoldsRecord rules t item value → HoldsRecords rules a t (some item) value
  | list {items : List Json} {values : List AttributeValue} : a.repeating = true →
      List.Forall₂ (HoldsRecord rules t) items values →
      HoldsRecords rules a t (some (.array items)) (.list values)

/-- Each member of a list of objects is filled on its own. -/
theorem holdsRecord_items {t : Entity} {items filled : List Json}
    (hitems : List.Forall₂ (fun item item' => ∃ fields issued, item = .object fields ∧
      item' = .object (rules.assignIds t issued fields).1) items filled)
    (haccepted : ∀ item ∈ items, ∀ fields, item = .object fields →
      Input.Accepted rules.catalog t fields) :
    List.Forall₂ (HoldsRecord rules t) items (AttributeValue.ofItems filled) := by
  induction hitems with
  | nil => exact .nil
  | cons hhead _ ih =>
    rw [List.forall_mem_cons] at haccepted
    obtain ⟨fields, issued, rfl, rfl⟩ := hhead
    exact .cons ⟨fields, issued, rfl, haccepted.1 fields rfl, rfl⟩ (ih haccepted.2)

section Attributes

variable (issued) (hnames : e.PlainNames) (hstored : a.IsStored) (ha : a ∈ e.attributes)
  (haccepted : Input.Accepted rules.catalog e given)

include hnames hstored ha haccepted

/-- What an entity attribute of the created record holds, against what was given there. -/
theorem holdsRecords {t : Entity} (hk : a.scalarKind? = none)
    (ht : rules.catalog.entity? a.typeName = some t) (hset : Schema.isSettable a = true) :
    HoldsRecords rules a t (given.lookup a.name)
      (a.valueIn (.document (rules.assignIds e issued given).1)) := by
  have hheld : rules.heldBy? a = some t := StoreRules.heldBy?_of_entity? hk ht
  have hid : StoreRules.isId a = false := StoreRules.isId_of_isSettable hset
  obtain ⟨_, hvalues, homitted⟩ := haccepted.parts
  cases hj : given.lookup a.name with
  | none =>
    -- Nothing was given, so nothing is stored.
    rw [Store.valueIn_of_omitted rules issued hstored ha haccepted hnames hid hj]
    exact .omitted (homitted a ha hset hj)
  | some j =>
    -- What was given is stored with its missing ids, those of nested objects too.
    obtain ⟨issued', hvalue⟩ := Store.valueIn_of_given rules issued hstored ha hj
    rw [hvalue]
    cases hvalues a ha hset j hj with
    | single hsingle item =>
      obtain ⟨fields, rfl, hfields⟩ := item.object_of hk ht
      rw [StoreRules.fillValue_object hheld]
      exact .single hsingle ⟨fields, issued', rfl, hfields, rfl⟩
    | @list _ items hrepeating all =>
      obtain ⟨filled, hfill, hitems⟩ := StoreRules.fillValue_array issued' hheld
        fun item hmem => ((all item hmem).object_of hk ht).imp fun _ h => h.1
      rw [hfill]
      refine .list hrepeating (holdsRecord_items hitems fun item hmem fields heq => ?_)
      obtain ⟨_, rfl, accepted⟩ := (all item hmem).object_of hk ht
      cases heq
      exact accepted

variable (hf : Schema.IsOutputField rules.catalog a f)

include hf

omit hnames in
/-- An id that was made up. -/
theorem renders_id [RegexLibrary] (hid : StoreRules.isId a = true) (hsingle : a.repeating = false) :
    ∃ shown, (renderValue rules.catalog e f window [] renderNested
        (a.valueIn (.document (rules.assignIds e issued given).1))).outcome = .ok shown ∧
      ShowsScalar a (given.lookup a.name) shown := by
  have hlist : f.type.list = false := (hf.type ▸ TypeString.list_ofAttribute a).trans hsingle
  have htarget : f.target = .scalar .id := target_scalar hf (beq_iff_eq.mp hid)
  obtain ⟨n, hvalue⟩ := Store.valueIn_of_id rules issued hstored ha haccepted hid
  refine ⟨.string (rules.ids n), ?_, ?_⟩
  · rw [hvalue, renderValue_single hlist rfl]
    exact renderElement_scalar htarget (.id (rules.ids n))
  · rw [haccepted.lookup_id ha hid, ShowsScalar, if_pos hid]
    exact ⟨rules.ids n, rfl⟩

/-- A scalar that could be given, or several; without a window they are all shown. -/
theorem renders_scalar [RegexLibrary] {kind : ScalarKind} (hk : a.scalarKind? = some kind)
    (hset : Schema.isSettable a = true) :
    ∃ shown, (renderValue rules.catalog e f window [] renderNested
        (a.valueIn (.document (rules.assignIds e issued given).1))).outcome = .ok shown ∧
      (window = none → ShowsScalar a (given.lookup a.name) shown) := by
  have hlist : f.type.list = a.repeating := hf.type ▸ TypeString.list_ofAttribute a
  have htarget : f.target = .scalar kind := target_scalar hf hk
  have hid : StoreRules.isId a = false := StoreRules.isId_of_isSettable hset
  obtain ⟨_, hvalues, homitted⟩ := haccepted.parts
  cases hj : given.lookup a.name with
  | none =>
    -- Left out: an empty list or null.
    refine ⟨if a.repeating then .array [] else .null, ?_, fun _ => ?_⟩
    · rw [Store.valueIn_of_omitted rules issued hstored ha haccepted hnames hid hj]
      exact renderValue_omitted hf (homitted a ha hset hj)
    · rw [ShowsScalar, hid]
      rfl
  | some j =>
    obtain ⟨issued', hvalue⟩ := Store.valueIn_of_given rules issued hstored ha hj
    -- Scalars other than the id are stored as given.
    rw [StoreRules.fillValue_scalar hk hid] at hvalue
    rw [hvalue]
    cases hvalues a ha hset j hj with
    | single hsingle item =>
      have hscalar : IsScalar kind j := item.isScalar_of hk
      refine ⟨j, ?_, fun _ => rfl⟩
      rw [renderValue_single (hlist.trans hsingle) (isNull_ofJson hscalar.ne_null)]
      exact renderElement_scalar htarget hscalar
    | @list _ items hrepeating all =>
      have hscalar : ∀ item ∈ items, IsScalar kind item := fun item hitem =>
        (all item hitem).isScalar_of hk
      have hitems : List.Forall₂ (fun item j => item ≠ .null ∧
          (renderElement e f renderNested (.ofJson item)).outcome = .ok j) items items :=
        List.forall₂_same.mpr fun item hitem => ⟨(hscalar item hitem).ne_null,
          renderElement_scalar htarget (hscalar item hitem)⟩
      refine ⟨.array (Window.showing window items), ?_, ?_⟩
      · refine renderValue_list (hlist.trans hrepeating) ?_
        rw [windowed_eq]
        exact Window.forall₂_showing window (renders_items hitems)
      · rintro rfl
        rfl

/-- A record that was given, or several. -/
theorem renders_records [RegexLibrary] {t : Entity} (hk : a.scalarKind? = none)
    (ht : rules.catalog.entity? a.typeName = some t) (hset : Schema.isSettable a = true)
    {shows : Members → Members → Prop}
    (hnested : ∀ fields issued', Input.Accepted rules.catalog t fields → ∃ members,
      (renderNested (.document (rules.assignIds t issued' fields).1)).outcome =
        .ok (.object members) ∧ shows fields members) :
    ∃ shown, (renderValue rules.catalog e f none [] renderNested
        (a.valueIn (.document (rules.assignIds e issued given).1))).outcome = .ok shown ∧
      ShowsRecords shows a (given.lookup a.name) shown := by
  have hlist : f.type.list = a.repeating := hf.type ▸ TypeString.list_ofAttribute a
  have htarget : f.target = .object t := target_object hf hk ht
  -- One object, whatever id its filling started from.
  have helement : ∀ {item value}, HoldsRecord rules t item value → value.isNull = false ∧
      ∃ fields members, item = .object fields ∧
        (renderElement e f renderNested value).outcome = .ok (.object members) ∧
        shows fields members := by
    rintro _ _ ⟨fields, issued', rfl, haccepted, rfl⟩
    obtain ⟨members, hmembers, hshows⟩ := hnested fields issued' haccepted
    exact ⟨rfl, fields, members, rfl, (renderElement_record htarget _).symm ▸ hmembers, hshows⟩
  have hholds := holdsRecords issued hnames hstored ha haccepted hk ht hset
  generalize given.lookup a.name = j at hholds
  generalize a.valueIn (.document (rules.assignIds e issued given).1) = value at hholds
  cases hholds with
  | omitted hopen =>
    exact ⟨if a.repeating then .array [] else .null, renderValue_omitted hf hopen, rfl⟩
  | single hsingle hholds =>
    obtain ⟨hnull, fields, members, rfl, hmembers, hshows⟩ := helement hholds
    refine ⟨.object members, ?_, members, rfl, hshows⟩
    rw [renderValue_single (hlist.trans hsingle) hnull]
    exact hmembers
  | @list items values hrepeating hholds =>
    obtain ⟨js, hjs, hshows⟩ : ∃ js, List.Forall₂ (fun value j => value.isNull = false ∧
        (renderElement e f renderNested value).outcome = .ok j) values js ∧
        List.Forall₂ (fun item j => ∃ fields members, item = .object fields ∧
          j = .object members ∧ shows fields members) items js := by
      -- Item by item, with what each is rendered to.
      clear hrepeating
      induction hholds with
      | nil => exact ⟨[], .nil, .nil⟩
      | cons hhead _ ih =>
        obtain ⟨js, hjs, hshown⟩ := ih
        obtain ⟨hnull, fields, members, rfl, hmembers, hshows⟩ := helement hhead
        exact ⟨.object members :: js, .cons ⟨hnull, hmembers⟩ hjs,
          .cons ⟨fields, members, rfl, rfl, hshows⟩ hshown⟩
    exact ⟨.array js, renderValue_list (hlist.trans hrepeating) hjs, js, rfl, hshows⟩

end Attributes

def ShowsCreated [RegexLibrary] (rules : StoreRules) (request : Request) : Prop :=
  ∀ given issued, Input.Accepted rules.catalog request.entity given → ∃ members,
    (render rules.catalog request
      (.document (rules.assignIds request.entity issued given).1)).outcome = .ok (.object members) ∧
      Echoes request given members

/-- Rendering answers with what was given, attribute by attribute, once it does so for nested
records. The induction is on the attributes that are asked for. -/
theorem echoes_renderAttributes [RegexLibrary] (issued : Nat)
    (hstored : ∀ a ∈ e.attributes, a.IsStored)
    (haccepted : Input.Accepted rules.catalog e given) {fields : List OutputField}
    (hfields : (Schema.objectFields rules.catalog e).outcome = .ok fields)
    {as : List AttributeRequest} (hfits : ∀ a ∈ as, a.Fits rules.catalog e)
    (hbare : ∀ a ∈ as, a.IsBare)
    (hnested : ∀ a ∈ as, ∀ n, a.nested = some n → ShowsCreated rules n) :
    ∃ members, (renderAttributes rules.catalog e fields as
        (.document (rules.assignIds e issued given).1)).outcome = .ok members ∧
      EchoesAll as given members := by
  have hnames : e.PlainNames := fun a ha =>
    ⟨(hstored a ha).not_extension, (hstored a ha).not_custom⟩
  induction as with
  | nil => exact ⟨[], by rw [renderAttributes]; rfl, by rw [EchoesAll]⟩
  | cons a as ih =>
    rw [List.forall_mem_cons] at hfits hbare hnested
    obtain ⟨more, hmore, hechoes⟩ := ih hfits.2 hbare.2 hnested.2
    obtain ⟨definition, window, filter, nested⟩ := a
    have hmem : definition ∈ e.attributes := hfits.1.mem
    obtain ⟨rfl, rfl⟩ : window = none ∧ filter = [] := ⟨hbare.1.window, hbare.1.filter⟩
    obtain ⟨f, hf, hfield⟩ := Schema.fieldNamed_objectFields hfields hmem
    have hname : f.name = definition.name := congrArg Attribute.name hfield.definition
    have hread : e.read f.name (.document (rules.assignIds e issued given).1) =
        .ok (definition.valueIn (.document (rules.assignIds e issued given).1)) :=
      Entity.read_of_attribute? (Entity.attribute?_eq_some.mpr ⟨hmem, hname.symm⟩) _
    cases nested with
    | some n =>
      have hk : definition.scalarKind? = none := hfits.1.not_scalar n rfl
      -- What refers to an entity is no id.
      have hset : Schema.isSettable definition = true := hbare.1.shown.resolve_right fun h => by
        cases hk.symm.trans (beq_iff_eq.mp h.1)
      obtain ⟨shown, hshown, hshows⟩ := renders_records issued hnames (hstored _ hmem) hmem
        haccepted hfield hk (hfits.1.target n rfl) hset (hnested.1 n rfl)
      refine ⟨_, renderAttributes_cons hf hread hshown hmore, ?_⟩
      rw [EchoesAll]
      exact ⟨shown, more, rfl, hshows, hechoes⟩
    | none =>
      obtain ⟨kind, hk⟩ : ∃ kind, definition.scalarKind? = some kind := by
        refine Option.ne_none_iff_exists'.mp fun hk => ?_
        obtain ⟨n, hn⟩ := hbare.1.nested hk
        cases hn
      obtain ⟨shown, hshown, hshows⟩ : ∃ shown, (renderValue rules.catalog e f none []
          (nestedRendering rules.catalog none) (definition.valueIn
            (.document (rules.assignIds e issued given).1))).outcome = .ok shown ∧
          ShowsScalar definition (given.lookup definition.name) shown := by
        rcases hbare.1.shown with hset | ⟨hid, hsingle⟩
        · obtain ⟨shown, hshown, hshows⟩ := renders_scalar issued hnames (hstored _ hmem) hmem
            haccepted hfield hk hset
          exact ⟨shown, hshown, hshows rfl⟩
        · exact renders_id issued (hstored _ hmem) hmem haccepted hfield hid hsingle
      refine ⟨_, renderAttributes_cons hf hread hshown hmore, ?_⟩
      rw [EchoesAll]
      exact ⟨shown, more, rfl, hshows, hechoes⟩

/-- What was accepted for a record is shown at every depth. -/
theorem showsCreated [RegexLibrary] (hc : rules.catalog.Closed)
    (hstored : ∀ e ∈ rules.catalog.entities, ∀ a ∈ e.attributes, a.IsStored) {request : Request}
    (hfits : request.Fits rules.catalog) (hbare : request.Bare) : ShowsCreated rules request := by
  -- On the request; what is nested is asked of the entities that the attributes refer to.
  induction request using Request.induction with
  | nested request ih =>
    intro given issued haccepted
    obtain ⟨entity, typename, attributes⟩ := request
    have hmem : entity ∈ rules.catalog.entities := (Request.fits_iff.mp hfits).1
    have hall : ∀ a ∈ attributes, a.Fits rules.catalog entity := (Request.fits_iff.mp hfits).2.2
    obtain ⟨hattributes, hnested⟩ := hbare.parts
    change Input.Accepted rules.catalog entity given at haccepted
    change ∃ members, (render rules.catalog (.mk entity typename attributes)
      (.document (rules.assignIds entity issued given).1)).outcome = _ ∧ _
    obtain ⟨fields, hfields⟩ := Schema.objectFields_isOk.mpr (hc entity hmem)
    obtain ⟨members, hmembers, hechoes⟩ := echoes_renderAttributes issued
      (hstored entity hmem) haccepted hfields hall hattributes
      fun a ha n hn => ih a ha n hn ((hall a ha).nested n hn) (hnested a ha n hn)
    refine ⟨if typename then (typenameField, .string entity.name) :: members else members, ?_, ?_⟩
    · rw [render_eq hmem hfields, hmembers]
      rfl
    · rw [Echoes]
      exact ⟨members, hechoes, rfl⟩

end Rendering

/-- A record that was taken is found under its id. -/
theorem Collection.Takes.fetch?_byId {c c' : Collection} {id : String} {key : Option String}
    {fields : Members} (h : c.Takes id key fields c') : c'.fetch? c'.byId id = some fields := by
  rw [Collection.fetch?, h.byId, h.records, List.lookup_append, h.freshId, Option.none_or,
    List.lookup_cons_self, Option.bind_some, List.getElem?_concat_length]

namespace Store

/-- A record that was created from an accepted value is found under an id that was given out for
it, and every request without arguments shows of it what was accepted, and an id for every id that
is asked for. -/
theorem created_echoes [RegexLibrary] {rules : StoreRules} (hc : rules.catalog.Closed)
    (hstored : ∀ e ∈ rules.catalog.entities, ∀ a ∈ e.attributes, a.IsStored) {e : Entity}
    (he : e ∈ rules.catalog.entities) {a : Attribute} (ha : a ∈ e.attributes) (hname : a.name = "id")
    (hid : StoreRules.isId a = true) {rootField path : String} {v : Value} (hv : v.IsData)
    {given : Members} (h : (Input.validate rules.catalog rootField e path v).outcome = .ok given)
    {s s' : Store} {created : Record}
    (hcreate : rules.source.create s e.name given = (.ok created, s')) :
    (∃ n, created.raw "id" = some (.string (rules.ids n)) ∧
      rules.source.fetchById s' e.name (rules.ids n) = .ok (some created)) ∧
    ∀ request : Request, request.Fits rules.catalog → request.entity = e → request.Bare →
      ∃ members, (Rendering.render rules.catalog request created).outcome = .ok (.object members) ∧
        Rendering.Echoes request given members := by
  have haccepted : Input.Accepted rules.catalog e given := Input.accepted_validate hv h
  have hfound : rules.catalog.entity? e.name = some e := Catalog.entity?_eq_some.mpr ⟨he, rfl⟩
  -- The record that was created is the one that the store has received.
  obtain ⟨rfl, hreceives⟩ : created = .document (rules.assignIds e s.issued given).1 ∧
      s.Receives rules e.name (rules.assignIds e s.issued given).1 s' := by
    rcases put_cases rules s e.name given with ⟨error, s₁, hput, _⟩ | ⟨e', s₁, he', hput, hreceives⟩
    · rw [StoreRules.source] at hcreate
      simp only [hput] at hcreate
      cases hcreate
    · obtain rfl := Option.some.inj (he'.symm.trans hfound)
      rw [StoreRules.source] at hcreate
      simp only [hput] at hcreate
      cases hcreate
      exact ⟨rfl, hreceives⟩
  refine ⟨?_, fun request hfits hrequest hbare => ?_⟩
  · obtain ⟨n, hlookup⟩ := StoreRules.lookup_assignIds_id rules s.issued ha hid
      (haccepted.lookup_id ha hid)
    have hraw : (Record.document (rules.assignIds e s.issued given).1).raw "id" =
        some (.string (rules.ids n)) := by
      rw [← hname, (hstored e he a ha).raw_eq, hlookup]
    obtain ⟨id, hidOf, htakes⟩ := hreceives.taken
    obtain rfl : rules.ids n = id := by
      rw [idOf?, Record.id?, hraw] at hidOf
      exact Option.some.inj hidOf
    refine ⟨n, hraw, ?_⟩
    change (s'.fetchById rules e.name (rules.ids n)).map _ = _
    rw [fetchById_eq hfound, htakes.fetch?_byId]
    rfl
  · subst hrequest
    exact Rendering.showsCreated hc hstored hfits hbare given s.issued haccepted

def parcelItem : Entity :=
  .ofAttributes "ParcelItem" "Parcel item entity."
    [.scalar "id" "Parcel item id" .id false, .scalar "qty" "Quantity of item" .int false]

def parcel : Entity :=
  .ofAttributes "Parcel" "Parcel entity."
    [.scalar "id" "Parcel id" .id false, .scalar "weight" "Weight" .float false,
     .scalar "note" "Note to the carrier" .string true,
     .entity "items" "Items in parcel" "ParcelItem" true false]

/-- Parcels and what is in them, without key attributes; ids are counted. -/
def parcelRules : StoreRules := ⟨⟨[parcel, parcelItem], by decide⟩, [], fun n => toString n⟩

def mugParcel : Value :=
  .object [("items", .object [("qty", .number (.integer 3))]), ("weight", .number (.integer 2))]

def parcelItemRequest : Request :=
  .mk parcelItem false
    [.mk (.scalar "qty" "Quantity of item" .int false) none [] none,
     .mk (.scalar "id" "Parcel item id" .id false) none [] none]

def parcelRequest : Request :=
  .mk parcel true
    [.mk (.scalar "id" "Parcel id" .id false) none [] none,
     .mk (.entity "items" "Items in parcel" "ParcelItem" true false) none []
       (some parcelItemRequest),
     .mk (.scalar "note" "Note to the carrier" .string true) none [] none]

theorem closed_parcelRules : parcelRules.catalog.Closed := by
  have hall : ∀ e ∈ parcelRules.catalog.entities, ∀ a ∈ e.attributes, a.scalarKind? = none →
      (parcelRules.catalog.entity? a.typeName).isSome = true := by decide
  intro e he a ha hk
  exact Option.isSome_iff_exists.mp (hall e he a ha hk)

theorem isStored_parcelRules :
    ∀ e ∈ parcelRules.catalog.entities, ∀ a ∈ e.attributes, a.IsStored := by
  have hparcel : ∀ a ∈ parcel.attributes, a.IsStored := by
    intro a ha
    have ha := Keyed.mem_of_mem_ofList ha
    simp only [List.mem_cons, List.not_mem_nil, or_false] at ha
    rcases ha with rfl | rfl | rfl | rfl <;> exact ⟨rfl, rfl, by decide, by decide⟩
  have hitem : ∀ a ∈ parcelItem.attributes, a.IsStored := by
    intro a ha
    have ha := Keyed.mem_of_mem_ofList ha
    simp only [List.mem_cons, List.not_mem_nil, or_false] at ha
    rcases ha with rfl | rfl <;> exact ⟨rfl, rfl, by decide, by decide⟩
  exact List.forall_mem_cons.mpr ⟨hparcel, List.forall_mem_singleton.mpr hitem⟩

theorem isData_mugParcel : mugParcel.IsData := by
  have hnumber : ∀ n : Int, 0 ≤ n → n < 10 → (Value.number (.integer n)).IsData :=
    fun n hlow hhigh => .number (.integer (by omega) (by omega))
  have hitem : (Value.object [("qty", .number (.integer 3))]).IsData :=
    .object (List.forall_mem_singleton.mpr (hnumber 3 (by decide) (by decide)))
  exact .object (List.forall_mem_cons.mpr
    ⟨hitem, List.forall_mem_singleton.mpr (hnumber 2 (by decide) (by decide))⟩)

theorem fits_parcelRequest : parcelRequest.Fits parcelRules.catalog := by
  have hscalar : ∀ (e : Entity) (a : Attribute), e.attribute? a.name = some a →
      AttributeRequest.Fits parcelRules.catalog e (.mk a none [] none) := fun e a ha =>
    ⟨(Entity.attribute?_eq_some.mp ha).1, nofun, nofun, nofun⟩
  have hitem : parcelItemRequest.Fits parcelRules.catalog :=
    Request.fits_iff.mpr ⟨.tail _ (.head _), by decide, List.forall_mem_cons.mpr
      ⟨hscalar _ _ rfl, List.forall_mem_singleton.mpr (hscalar _ _ rfl)⟩⟩
  have hitems : AttributeRequest.Fits parcelRules.catalog parcel
      (.mk (.entity "items" "Items in parcel" "ParcelItem" true false) none []
        (some parcelItemRequest)) := by
    have hfound : parcel.attribute? "items" =
        some (.entity "items" "Items in parcel" "ParcelItem" true false) := rfl
    refine ⟨(Entity.attribute?_eq_some.mp hfound).1, ?_, ?_, ?_⟩ <;> rintro _ ⟨⟩
    · rfl
    · rfl
    · exact hitem
  exact Request.fits_iff.mpr ⟨.head _, by decide, List.forall_mem_cons.mpr ⟨hscalar _ _ rfl,
    List.forall_mem_cons.mpr ⟨hitems, List.forall_mem_singleton.mpr (hscalar _ _ rfl)⟩⟩⟩

theorem bare_parcelRequest : parcelRequest.Bare := by
  have hitem : parcelItemRequest.Bare := by
    refine .mk (List.forall_mem_cons.mpr ⟨⟨rfl, rfl, .inl rfl, nofun⟩,
      List.forall_mem_singleton.mpr ⟨rfl, rfl, .inr ⟨rfl, rfl⟩, nofun⟩⟩) ?_
    exact List.forall_mem_cons.mpr ⟨nofun, List.forall_mem_singleton.mpr nofun⟩
  refine .mk (List.forall_mem_cons.mpr ⟨⟨rfl, rfl, .inr ⟨rfl, rfl⟩, nofun⟩,
    List.forall_mem_cons.mpr ⟨⟨rfl, rfl, .inl rfl, fun _ => ⟨_, rfl⟩⟩,
      List.forall_mem_singleton.mpr ⟨rfl, rfl, .inl rfl, nofun⟩⟩⟩) ?_
  refine List.forall_mem_cons.mpr ⟨nofun, List.forall_mem_cons.mpr
    ⟨?_, List.forall_mem_singleton.mpr nofun⟩⟩
  rintro _ ⟨⟩
  exact hitem

/-- A parcel of one mug, sent under rules whose generated ids are the numbers from one on. -/
theorem created_echoes_mugParcel : ∃ given created, ∃ s' : Store,
    (Input.validate parcelRules.catalog "sendParcel" parcel "parcel" mugParcel).outcome = .ok given ∧
    parcelRules.source.create .empty "Parcel" given = (.ok created, s') ∧
    (∃ n, created.raw "id" = some (.string (parcelRules.ids n)) ∧
      parcelRules.source.fetchById s' "Parcel" (parcelRules.ids n) = .ok (some created)) ∧
    ∃ members, (Rendering.render parcelRules.catalog parcelRequest created).outcome =
      .ok (.object members) ∧ Rendering.Echoes parcelRequest given members := by
  obtain ⟨given, created, s', hgiven, hcreate⟩ : ∃ given created s',
      (Input.validate parcelRules.catalog "sendParcel" parcel "parcel" mugParcel).outcome =
        .ok given ∧
      parcelRules.source.create .empty parcel.name given = (.ok created, s') :=
    ⟨_, _, _, rfl, rfl⟩
  obtain ⟨hfound, hshown⟩ := created_echoes closed_parcelRules isStored_parcelRules
    List.mem_cons_self List.mem_cons_self rfl rfl isData_mugParcel hgiven hcreate
  exact ⟨given, created, s', hgiven, hcreate, hfound,
    hshown parcelRequest fits_parcelRequest rfl bare_parcelRequest⟩

end Store

end EntityGraph
