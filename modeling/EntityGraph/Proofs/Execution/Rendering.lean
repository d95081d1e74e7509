import EntityGraph.Proofs.Execution.Scalars
import EntityGraph.Proofs.Request.Order
import EntityGraph.Proofs.Schema
import EntityGraph.Regex.Engine
import EntityGraph.Storefront.Catalog

namespace EntityGraph.Rendering

/-- Data in the form of a single value of a field; `nested` is the form of a record's members. -/
def IsSingle (target : OutputTarget) (nested : Entity → Members → Prop) (j : Json) : Prop :=
  match target with
  | .scalar kind => IsScalar kind j
  | .object t => ∃ members, j = .object members ∧ nested t members

/-- Data of a type: what is marked as never null is not null, and no item of a list is. -/
def IsOfType (type : TypeString) (single : Json → Prop) (j : Json) : Prop :=
  if type.list then ∃ items, j = .array items ∧ ∀ item ∈ items, item ≠ .null ∧ single item
  else j = .null ∧ type.nonNull = false ∨ j ≠ .null ∧ single j

mutual

/-- Members that a request asks for: the name of the type first, if it is asked for, and then the
attributes in the order of the request, none of them twice. -/
def Conforms (c : Catalog) : Request → Members → Prop
  | .mk entity typename attributes, members =>
    (members.map Prod.fst).Nodup ∧ ∃ shown, ConformsAll c entity attributes shown ∧
      members = if typename then (typenameField, .string entity.name) :: shown else shown

/-- Members for attributes of an entity, each of the type of its output field. A record that
nothing is asked of has no members. -/
def ConformsAll (c : Catalog) (entity : Entity) : List AttributeRequest → Members → Prop
  | [], members => members = []
  | .mk definition _ _ nested :: rest, members =>
    ∃ f shown more, members = (definition.name, shown) :: more ∧
      (Schema.objectField c entity definition.name).outcome = .ok f ∧
      IsOfType f.type (IsSingle f.target fun t members => match nested with
        | some request => request.entity = t ∧ Conforms c request members
        | none => members = []) shown ∧
      ConformsAll c entity rest more

end

/-- A value that is not null can be shown as a single value of a field; `nested` says so of a
record. -/
def SuitsSingle (target : OutputTarget) (nested : Record → Prop) (value : AttributeValue) : Prop :=
  match target with
  | .scalar kind => ∃ j, scalar? kind value = some j
  | .object _ => ∃ r, value.record? = some r ∧ nested r

/-- A value can be shown as a field: as a list, if no item that is shown is null, and otherwise as
null only where the type allows that. -/
def SuitsField [RegexLibrary] (c : Catalog) (f : OutputField) (window : Option Window)
    (filter : List FilterGroup) (nested : Record → Prop) (value : AttributeValue) : Prop :=
  if f.type.list then
    ∀ item ∈ windowed window ((itemsOf value).filter (keeps c f filter)),
      item.isNull = false ∧ SuitsSingle f.target nested item
  else if value.isNull || !keeps c f filter value then f.type.nonNull = false
  else SuitsSingle f.target nested value

mutual

/-- The values that a request asks of a record can be brought to the forms of their types. -/
def Suits [RegexLibrary] (c : Catalog) : Request → Record → Prop
  | .mk entity _ attributes, r => SuitsAll c entity attributes r

def SuitsAll [RegexLibrary] (c : Catalog) (entity : Entity) : List AttributeRequest → Record → Prop
  | [], _ => True
  | .mk definition window filter nested :: rest, r =>
    (∃ f, (Schema.objectField c entity definition.name).outcome = .ok f ∧
      SuitsField c f window filter (fun r => match nested with
        | some request => Suits c request r
        | none => True) (definition.valueIn r)) ∧
    SuitsAll c entity rest r

end

/-- The failures of a rendering: a null where none may be, or a value that is no scalar of its
type or no record. -/
inductive IsFault : Error → Prop
  | null (entity field : String) : IsFault (.nullViolation entity field)
  | scalar (entity field found : String) (kind : ScalarKind) :
      IsFault (.dataSource (.invalidScalar entity field found kind))
  | record (entity field found : String) :
      IsFault (.dataSource (.recordExpected entity field found))

/-- A computation ends well, with a result of a form, when a condition holds, and otherwise it
fails because of a value. -/
structure Brings {α : Type} (x : Except Error α) (condition : Prop) (form : α → Prop) : Prop where
  ok : condition → ∃ a, x = .ok a ∧ form a
  fails : ¬ condition → ∃ e, x = .error e ∧ IsFault e

namespace Brings

variable {α β : Type} {x : Except Error α} {p q : Prop} {form : α → Prop} {form' : β → Prop}

theorem of_ok {a : α} (h : form a) : Brings (.ok a) True form :=
  ⟨fun _ => ⟨a, rfl, h⟩, fun hn => absurd trivial hn⟩

/-- A fault is what is brought where the condition fails. -/
theorem of_error {e : Error} (h : IsFault e) (hp : ¬ p) : Brings (.error e) p form :=
  ⟨fun h => absurd h hp, fun _ => ⟨e, rfl, h⟩⟩

theorem failsIn (h : Brings x p form) : Outcome.FailsIn x IsFault := by
  intro err hx
  have hp : ¬ p := by
    intro hp
    obtain ⟨a, ha, _⟩ := h.ok hp
    cases hx.symm.trans ha
  obtain ⟨e, he, hfault⟩ := h.fails hp
  exact Except.error.inj (he.symm.trans hx) ▸ hfault

theorem congr (h : Brings x p form) (hpq : p ↔ q) : Brings x q form := by
  rwa [← propext hpq]

theorem imp {form' : α → Prop} (h : Brings x p form) (hf : ∀ a, form a → form' a) :
    Brings x p form' where
  ok hp := by
    obtain ⟨a, ha, hform⟩ := h.ok hp
    exact ⟨a, ha, hf a hform⟩
  fails := h.fails

/-- One step after another brings both conditions. -/
theorem bind {f : α → Except Error β} (h : Brings x p form)
    (hf : ∀ a, form a → Brings (f a) q form') : Brings (x >>= f) (p ∧ q) form' where
  ok := by
    rintro ⟨hp, hq⟩
    obtain ⟨a, rfl, ha⟩ := h.ok hp
    exact (hf a ha).ok hq
  fails hn := by
    by_cases hp : p
    · obtain ⟨a, rfl, ha⟩ := h.ok hp
      exact (hf a ha).fails fun hq => hn ⟨hp, hq⟩
    · obtain ⟨e, rfl, he⟩ := h.fails hp
      exact ⟨e, rfl, he⟩

theorem map {f : α → β} (h : Brings x p form) (hf : ∀ a, form a → form' (f a)) :
    Brings (x >>= fun a => .ok (f a)) p form' :=
  (h.bind fun a ha => of_ok (hf a ha)).congr (Iff.of_eq (and_true p))

/-- A row of steps brings the condition of each. -/
theorem mapM {f : β → Except Error α} {xs : List β} {condition : β → Prop}
    (h : ∀ b ∈ xs, Brings (f b) (condition b) form) :
    Brings (xs.mapM f) (∀ b ∈ xs, condition b) fun as => ∀ a ∈ as, form a := by
  induction xs with
  | nil => exact (of_ok (by simp)).congr (by simp)
  | cons b xs ih =>
    rw [List.forall_mem_cons] at h
    rw [List.mapM_cons]
    have hrest : ∀ a, form a → Brings (xs.mapM f >>= fun as => .ok (a :: as))
        (∀ b ∈ xs, condition b) fun as => ∀ a ∈ as, form a := fun a ha =>
      (ih h.2).map fun as has => List.forall_mem_cons.mpr ⟨ha, has⟩
    exact (h.1.bind hrest).congr List.forall_mem_cons.symm

end Brings

theorem IsSingle.ne_null {target : OutputTarget} {nested : Entity → Members → Prop} {j : Json}
    (h : IsSingle target nested j) : j ≠ .null := by
  cases target with
  | scalar kind => exact IsScalar.ne_null h
  | object t =>
    obtain ⟨members, rfl, _⟩ := h
    simp

variable {c : Catalog} {entity : Entity} {f : OutputField} {renderNested : RecordRendering}
  {condition : Record → Prop} {form : Entity → Members → Prop}

/-- A value that is not null is rendered as its target asks, or it is at fault. -/
theorem brings_renderElement (hnested : ∀ t, f.target = .object t → ∀ r,
      Brings (renderNested r).outcome (condition r)
        fun j => ∃ members, j = .object members ∧ form t members)
    (value : AttributeValue) :
    Brings (renderElement entity f renderNested value).outcome
      (SuitsSingle f.target condition value) fun j => j ≠ .null ∧ IsSingle f.target form j := by
  suffices h : Brings (renderElement entity f renderNested value).outcome
      (SuitsSingle f.target condition value) (IsSingle f.target form) from
    h.imp fun j h => ⟨h.ne_null, h⟩
  rw [renderElement]
  cases ht : f.target with
  | scalar kind =>
    dsimp only
    cases hj : scalar? kind value with
    | none => exact .of_error (.scalar ..) (by simp [SuitsSingle, hj])
    | some j => exact (Brings.of_ok (isScalar_scalar? hj)).congr (by simp [SuitsSingle, hj])
  | object t =>
    dsimp only
    cases hr : value.record? with
    | none => exact .of_error (.record ..) (by simp [SuitsSingle, hr])
    | some r => exact (hnested t ht r).congr (by simp [SuitsSingle, hr])

/-- Null is a violation where the type forbids it. -/
theorem brings_renderNull (entity : Entity) (f : OutputField) (nonNull : Bool) :
    Brings (renderNull entity f nonNull).outcome (nonNull = false)
      fun j => j = .null ∧ nonNull = false := by
  cases nonNull with
  | true =>
    show Brings (.error (.nullViolation entity.name f.name)) _ _
    exact .of_error (.null ..) (by simp)
  | false => exact (Brings.of_ok ⟨rfl, rfl⟩).congr (by simp)

/-- No item of an attribute's list is null. -/
theorem elementNonNull_ofAttribute {a : Attribute} (h : (TypeString.ofAttribute a).list = true) :
    (TypeString.ofAttribute a).elementNonNull = true := by
  cases hr : a.repeating with
  | true => simp [TypeString.ofAttribute, hr, TypeString.nonNullListOf]
  | false =>
    cases hn : a.nullable <;>
      simp [TypeString.ofAttribute, hr, hn, TypeString.named, TypeString.required] at h

/-- One attribute, with its null, list and single cases as the type has them. -/
theorem brings_renderValue [RegexLibrary] (hf : f.type = .ofAttribute f.definition)
    (hnested : ∀ t, f.target = .object t → ∀ r, Brings (renderNested r).outcome (condition r)
      fun j => ∃ members, j = .object members ∧ form t members)
    (window : Option Window) (filter : List FilterGroup) (value : AttributeValue) :
    Brings (renderValue c entity f window filter renderNested value).outcome
      (SuitsField c f window filter condition value)
      (IsOfType f.type (IsSingle f.target form)) := by
  rw [renderValue, SuitsField]
  by_cases hlist : f.type.list = true
  · -- The items that are shown are those that the filter keeps and that the window lets through.
    rw [if_pos hlist, if_pos hlist, Tracked.outcome_bind, Tracked.outcome_mapM]
    have hitem : ∀ item ∈ windowed window ((itemsOf value).filter (keeps c f filter)),
        Brings (if item.isNull then renderNull entity f f.type.elementNonNull
            else renderElement entity f renderNested item).outcome
          (item.isNull = false ∧ SuitsSingle f.target condition item)
          fun j => j ≠ .null ∧ IsSingle f.target form j := by
      intro item _
      cases hnull : item.isNull with
      | true =>
        have helement : f.type.elementNonNull = true := hf ▸ elementNonNull_ofAttribute (hf ▸ hlist)
        rw [if_pos rfl, helement]
        exact .of_error (.null ..) (by simp)
      | false =>
        rw [if_neg (by simp)]
        exact (brings_renderElement hnested item).congr (by simp)
    refine (Brings.mapM hitem).map fun items hitems => ?_
    rw [IsOfType, if_pos hlist]
    exact ⟨items, rfl, hitems⟩
  · rw [if_neg hlist, if_neg hlist]
    split
    · refine (brings_renderNull entity f f.type.nonNull).imp fun j hj => ?_
      rw [IsOfType, if_neg hlist]
      exact Or.inl hj
    · refine (brings_renderElement hnested value).imp fun j hj => ?_
      rw [IsOfType, if_neg hlist]
      exact Or.inr hj

abbrev BringsRecord [RegexLibrary] (c : Catalog) (request : Request) : Prop :=
  ∀ r, Brings (render c request r).outcome (Suits c request r)
    fun j => ∃ members, j = .object members ∧ Conforms c request members

/-- All attributes of a record, by induction on what is asked for, given the nested records. -/
theorem brings_renderAttributes [RegexLibrary] {fields : List OutputField}
    (hfields : (Schema.objectFields c entity).outcome = .ok fields) {as : List AttributeRequest}
    (has : ∀ a ∈ as, a.Fits c entity)
    (hnested : ∀ a ∈ as, ∀ n, a.nested = some n → BringsRecord c n) (r : Record) :
    Brings (renderAttributes c entity fields as r).outcome (SuitsAll c entity as r)
      (ConformsAll c entity as) := by
  induction as with
  | nil =>
    rw [renderAttributes]
    exact .of_ok rfl
  | cons a as ih =>
    rw [List.forall_mem_cons] at has hnested
    obtain ⟨definition, window, filter, nested⟩ := a
    have hmem : definition ∈ entity.attributes := has.1.mem
    obtain ⟨f, hf, hfield⟩ := Schema.fieldNamed_objectFields hfields hmem
    have hobject : (Schema.objectField c entity definition.name).outcome = .ok f :=
      (Schema.objectField_of_objectFields hfields _).trans hf
    have hname : f.name = definition.name := congrArg Attribute.name hfield.definition
    have hread : entity.read f.name r = .ok (definition.valueIn r) :=
      Entity.read_of_attribute? (Entity.attribute?_eq_some.mpr ⟨hmem, hname.symm⟩) r
    -- The attribute's field is found, and its value read, whatever the record holds.
    rw [renderAttributes.eq_def, SuitsAll.eq_def]
    simp only [Tracked.outcome_bind, Tracked.outcome_mapError, Tracked.outcome_lift, hobject,
      Except.ok.injEq, exists_eq_left']
    rw [Outcome.bind_of_eq_ok (Outcome.mapError_eq_ok.mpr hf),
      Outcome.bind_of_eq_ok (Outcome.mapError_eq_ok.mpr hread)]
    refine (brings_renderValue (hfield.definition ▸ hfield.type) ?_ window filter _).bind
      fun shown hshown => (ih has.2 hnested.2).map fun more hmore => by
        rw [ConformsAll.eq_def]
        exact ⟨f, shown, more, rfl, hobject, hshown, hmore⟩
    intro t ht r
    cases nested with
    | none => exact .of_ok ⟨[], rfl, rfl⟩
    | some n =>
      -- What is nested is asked of the entity that the field holds.
      have hentity : n.entity = t := by
        have htarget := ht ▸ hfield.target
        cases htarget with
        | entity _ hfound => exact Option.some.inj ((has.1.target n rfl).symm.trans hfound)
      refine (hnested.1 n rfl r).imp fun j hj => ?_
      obtain ⟨members, rfl, hmembers⟩ := hj
      exact ⟨members, rfl, hentity, hmembers⟩

/-- The keys come in the order of the request. -/
theorem keys_of_conformsAll {as : List AttributeRequest} {members : Members}
    (h : ConformsAll c entity as members) :
    members.map Prod.fst = as.map AttributeRequest.name := by
  induction as generalizing members with
  | nil =>
    rw [ConformsAll.eq_def] at h
    rw [h]
    rfl
  | cons a as ih =>
    obtain ⟨definition, window, filter, nested⟩ := a
    rw [ConformsAll.eq_def] at h
    obtain ⟨f, shown, more, rfl, _, _, hmore⟩ := h
    rw [List.map_cons, List.map_cons, ih hmore]
    rfl

/-- The members of a record have names of their own. -/
theorem keys_nodup {request : Request} {xs : List Expansion} (h : request.Follows xs)
    {members : Members} (hm : ConformsAll c request.entity request.attributes members) :
    ((if request.typename then (typenameField, Json.string request.entity.name) :: members
      else members).map Prod.fst).Nodup := by
  have hkeys := keys_of_conformsAll hm
  have hself : typenameField ∉ members.map Prod.fst := by
    rw [hkeys, h.mem_names]
    simp
  have hnodup : (members.map Prod.fst).Nodup := by
    rw [hkeys]
    cases h.distinct with
    | mk hn _ => exact hn
  cases request.typename with
  | true => exact List.nodup_cons.mpr ⟨hself, hnodup⟩
  | false => exact hnodup

/-- Requests that fit a catalog and follow selections are rendered in their form, wherever the
entities that they are about refer to entities that are there. -/
theorem brings_render [RegexLibrary] {S : Entity → Prop} (hS : c.ClosedOn S) {request : Request}
    {xs : List Expansion} (hfits : request.Fits c) (hfollows : request.Follows xs)
    (hs : S request.entity) : BringsRecord c request := by
  -- On the request; what is nested is asked of entities that are in `S` with those they refer to.
  induction request using Request.induction generalizing xs with
  | nested request ih =>
    intro r
    obtain ⟨entity, typename, attributes⟩ := request
    have hentity : (Schema.objectType c entity.name).outcome = .ok entity := by
      rw [Schema.outcome_objectType, Catalog.require_eq_ok, Catalog.entity?_eq_some]
      exact ⟨hS.mem hs, rfl⟩
    have hmem := (Request.fits_iff.mp hfits).2.2
    have hnested : ∀ a ∈ attributes, ∀ n, a.nested = some n → BringsRecord c n := by
      intro a ha n hn
      have ha' := hmem a ha
      have htarget : S n.entity := hS.target hs ha'.mem (ha'.not_scalar n hn) (ha'.target n hn)
      exact ih a ha n hn (ha'.nested n hn) (hfollows.nested ha hn) htarget
    obtain ⟨fields, hfields⟩ := Schema.objectFields_isOk.mpr fun a ha hk => by
      obtain ⟨t, ht, _⟩ := hS.refers hs a ha hk
      exact ⟨t, ht⟩
    -- The output type is looked at only where an attribute is asked for.
    have hall : ∃ fields, (fieldsFor c entity attributes).outcome = .ok fields ∧
        Brings (renderAttributes c entity fields attributes r).outcome
          (SuitsAll c entity attributes r) (ConformsAll c entity attributes) := by
      cases attributes with
      | nil =>
        refine ⟨[], rfl, ?_⟩
        rw [renderAttributes]
        exact .of_ok rfl
      | cons a as =>
        refine ⟨fields, Outcome.mapError_eq_ok.mpr hfields, ?_⟩
        exact brings_renderAttributes hfields hmem hnested r
    obtain ⟨fields, hfields, hbrings⟩ := hall
    rw [render, Suits]
    simp only [Tracked.outcome_bind, Tracked.outcome_mapError]
    rw [Outcome.bind_of_eq_ok (Outcome.mapError_eq_ok.mpr hentity), Outcome.bind_of_eq_ok hfields]
    refine hbrings.map fun members hmembers => ⟨_, rfl, ?_⟩
    rw [Conforms]
    exact ⟨keys_nodup hfollows hmembers, members, hmembers, rfl⟩

/-- In a catalog whose entities are all there, a planned request asks for what is selected, in the
order of selection, and every record is either shown in the form of the request or has a value that
can not be brought to its form; then the rendering fails because of a value. -/
theorem render_planned [RegexLibrary] (hc : c.Closed) {returnType : String} {asked : Expansion}
    {request : Request} (h : Planning.plan c returnType asked = .ok request) (r : Record) :
    request.Follows [asked] ∧
      (Suits c request r → ∃ members, (render c request r).outcome = .ok (.object members) ∧
        Conforms c request members) ∧
      (¬ Suits c request r → ∃ e, (render c request r).outcome = .error e ∧ IsFault e) := by
  obtain ⟨type, _, h⟩ := Outcome.bind_eq_ok.mp h
  obtain ⟨e, he, h⟩ := Outcome.bind_eq_ok.mp h
  have hmem : e ∈ c.entities :=
    (Catalog.entity?_eq_some.mp (Catalog.require_eq_ok.mp (Outcome.mapError_eq_ok.mp he))).1
  have hfollows : request.Follows [asked] :=
    Planning.follows_planAll asked (Request.follows_new e) h
  obtain ⟨hfits, hentity⟩ := Planning.fits_planAll asked (Request.fits_new hmem) h
  have hbrings := brings_render hc.closedOn hfits hfollows (hentity ▸ hmem) r
  refine ⟨hfollows, fun hs => ?_, hbrings.fails⟩
  obtain ⟨j, hj, members, rfl, hmembers⟩ := hbrings.ok hs
  exact ⟨members, hj, hmembers⟩

def orderOverview : List Selection :=
  [.field "items" none [] [] [.field "product" none [] [] [.field "sku" none [] [] []]],
   .field "__typename" none [] [] [], .field "id" none [] [] [],
   .field "customer" none [] [] [.field "id" none [] [] []],
   .field "items" none [] [] [.field "id" none [] [] []]]

def mugOrder : Record :=
  .document [("id", .int 7), ("items", .array [.object [("id", .string "1"),
    ("product", .object [("sku", .string "MUG-BLK"), ("price", .null)])]])]

/-- An order with one item and no customer, at two levels of nesting. -/
theorem render_mugOrder :
    ∃ request, Planning.plan Storefront.catalog "Order"
        ((Reading.ofValues []).expand ⟨[], []⟩ orderOverview) = .ok request ∧
      Conforms Storefront.catalog request
        [("__typename", .string "Order"),
         ("items", .array [.object [("product", .object [("sku", .string "MUG-BLK")]),
           ("id", .string "1")]]),
         ("id", .string "7"), ("customer", .null)] := by
  have hplan : ∃ request, Planning.plan Storefront.catalog "Order"
        ((Reading.ofValues []).expand ⟨[], []⟩ orderOverview) = .ok request ∧
      (render Storefront.catalog request mugOrder).outcome = .ok (.object
        [("__typename", .string "Order"),
         ("items", .array [.object [("product", .object [("sku", .string "MUG-BLK")]),
           ("id", .string "1")]]),
         ("id", .string "7"), ("customer", .null)]) := ⟨_, rfl, rfl⟩
  obtain ⟨request, hplan, hrender⟩ := hplan
  obtain ⟨_, hok, hfails⟩ := render_planned Catalog.closed_storefront hplan mugOrder
  -- Were the order not to suit, the rendering would fail, and it does not.
  by_cases hs : Suits Storefront.catalog request mugOrder
  · obtain ⟨members, hmembers, hconforms⟩ := hok hs
    rw [hrender] at hmembers
    cases hmembers
    exact ⟨request, hplan, hconforms⟩
  · obtain ⟨e, he, _⟩ := hfails hs
    rw [hrender] at he
    cases he

end EntityGraph.Rendering
