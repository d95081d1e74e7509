import EntityGraph.Execution.Rendering
import EntityGraph.Proofs.Catalog
import EntityGraph.Proofs.Execution.Scalars
import EntityGraph.Proofs.Schema

/-!
Stored values as responses show them, without windows and filters. An attribute that looks up the
member of its name has what is stored there, and what is stored in the form of its type is shown as
it is.
-/

namespace EntityGraph

structure Attribute.IsStored (a : Attribute) : Prop where
  read : a.read = fun r => r.core a.name
  compute : a.compute = none
  not_extension : a.name ≠ extensionKey
  not_custom : a.name ≠ customKey

def Entity.PlainNames (e : Entity) : Prop :=
  ∀ a ∈ e.attributes, a.name ≠ extensionKey ∧ a.name ≠ customKey

namespace Attribute.IsStored

variable {a : Attribute} (h : a.IsStored) {fields : Members}

include h

theorem raw_eq : (Record.document fields).raw a.name = fields.lookup a.name := by
  rw [Record.raw, if_neg (not_or.mpr ⟨h.not_extension, h.not_custom⟩)]
  rfl

theorem read_eq : a.read (.document fields) = (fields.lookup a.name).map .ofJson := by
  rw [h.read, ← h.raw_eq]
  rfl

/-- What the document has under the name is the value. -/
theorem valueIn_of_some {j : Json} (hj : fields.lookup a.name = some j) :
    a.valueIn (.document fields) = .ofJson j := by
  have hread : a.read (.document fields) = some (.ofJson j) := by
    rw [h.read_eq, hj]
    rfl
  simp only [valueIn, h.compute, hread]

/-- Without a member under the name, extensions or custom attributes there is no value. -/
theorem valueIn_of_none (hnone : fields.lookup a.name = none)
    (hextension : fields.lookup extensionKey = none) (hcustom : fields.lookup customKey = none) :
    a.valueIn (.document fields) = .null := by
  have hread : a.read (.document fields) = none := by
    rw [h.read_eq, hnone]
    rfl
  have hextra : (Record.document fields).extension a.name = none := by
    rw [Record.extension, hextension]
    rfl
  have hentry : (Record.document fields).custom a.name = none := by
    rw [Record.custom, hcustom]
  simp only [valueIn, h.compute, hread, hextra, hentry, Option.getD_none]

end Attribute.IsStored

theorem TypeString.list_ofAttribute (a : Attribute) : (ofAttribute a).list = a.repeating := by
  cases hr : a.repeating <;> cases hn : a.nullable <;>
    simp [ofAttribute, hr, hn, nonNullListOf, named, required]

theorem TypeString.nonNull_ofAttribute {a : Attribute} (hr : a.repeating = false)
    (hn : a.nullable = true) : (ofAttribute a).nonNull = false := by
  simp [ofAttribute, hr, hn, named]

def Window.showing {α : Type} (window : Option Window) (items : List α) : List α :=
  window.elim items fun w => w.slice items

theorem Window.showing_nil {α : Type} (window : Option Window) :
    showing window ([] : List α) = [] := by
  cases window with
  | none => rfl
  | some w =>
    simp only [showing, Option.elim_some, slice, List.drop_nil]
    cases w.limit <;> simp

/-- A window shows the same places of two lists. -/
theorem Window.forall₂_showing {α β : Type} {R : α → β → Prop} {as : List α} {bs : List β}
    (window : Option Window) (h : List.Forall₂ R as bs) :
    List.Forall₂ R (showing window as) (showing window bs) := by
  cases window with
  | none => exact h
  | some w =>
    have hdrop := List.forall₂_drop w.start h
    simp only [showing, Option.elim_some, slice]
    cases w.limit with
    | none => exact hdrop
    | some limit => exact List.forall₂_take limit hdrop

namespace Rendering

theorem windowed_eq (window : Option Window) (items : List AttributeValue) :
    windowed window items = Window.showing window items := by
  cases window <;> rfl

/-- Data of a scalar type is shown as it is stored. -/
theorem scalar?_ofJson {kind : ScalarKind} {j : Json} (h : IsScalar kind j) :
    scalar? kind (.ofJson j) = some j := by
  cases h with
  | string s => rfl
  | id s => rfl
  | @int n hfits =>
    have hvalue : AttributeValue.ofJson (.int n) = .int (.ofInt n) := by
      rw [Json.int, AttributeValue.ofJson, AttributeValue.ofNumber, Number.int64?, if_pos hfits]
    rw [hvalue, scalar?, Decimal.toInt_ofInt hfits]
  | @float x hx =>
    have hvalue : AttributeValue.ofJson (.number (.float x)) = .float x := rfl
    rw [hvalue, scalar?, finite?, if_pos hx]
  | boolean b => rfl

theorem isNull_ofJson {j : Json} (h : j ≠ .null) : (AttributeValue.ofJson j).isNull = false := by
  cases j with
  | null => exact absurd rfl h
  | number n =>
    rw [AttributeValue.ofJson, AttributeValue.ofNumber]
    cases n.int64? <;> rfl
  | _ => rfl

variable {c : Catalog} {e : Entity} {a : Attribute} {f : OutputField}
  {renderNested : RecordRendering}

/-- Without a filter every value is kept. -/
theorem keeps_nil [RegexLibrary] (c : Catalog) (f : OutputField) (value : AttributeValue) :
    keeps c f [] value = true := rfl

variable {window : Option Window}

/-- A single value that is there is rendered as an element. -/
theorem renderValue_single [RegexLibrary] (hlist : f.type.list = false) {value : AttributeValue}
    (hvalue : value.isNull = false) : renderValue c e f window [] renderNested value =
      renderElement e f renderNested value := by
  rw [renderValue, hlist, if_neg Bool.false_ne_true, hvalue, keeps_nil]
  rfl

theorem renderValue_null [RegexLibrary] (hlist : f.type.list = false)
    (hnull : f.type.nonNull = false) :
    (renderValue c e f window [] renderNested .null).outcome = .ok .null := by
  rw [renderValue, hlist, if_neg Bool.false_ne_true, AttributeValue.isNull, Bool.true_or,
    if_pos rfl, renderNull, hnull]
  rfl

/-- A null where none may be. -/
theorem renderValue_violation [RegexLibrary] (hlist : f.type.list = false)
    (hnull : f.type.nonNull = true) :
    (renderValue c e f window [] renderNested .null).outcome =
      .error (.nullViolation e.name f.name) := by
  rw [renderValue, hlist, if_neg Bool.false_ne_true, AttributeValue.isNull, Bool.true_or,
    if_pos rfl, renderNull, hnull]
  rfl

/-- A list is rendered member by member inside the window. -/
theorem renderValue_items [RegexLibrary] (hlist : f.type.list = true) (value : AttributeValue) :
    (renderValue c e f window [] renderNested value).outcome =
      ((windowed window (itemsOf value)).mapM fun item : AttributeValue =>
        (if item.isNull then renderNull e f f.type.elementNonNull
          else renderElement e f renderNested item).outcome).map Json.array := by
  have hkept : (itemsOf value).filter (keeps c f []) = itemsOf value :=
    List.filter_eq_self.mpr fun item _ => keeps_nil c f item
  rw [renderValue, hlist, if_pos rfl, hkept, Tracked.outcome_bind, Tracked.outcome_mapM]
  generalize List.mapM (m := Except Error) _ _ = shown
  cases shown <;> rfl

theorem renderValue_list [RegexLibrary] (hlist : f.type.list = true) {value : AttributeValue}
    {shown : List Json} (h : List.Forall₂ (fun item j => item.isNull = false ∧
        (renderElement e f renderNested item).outcome = .ok j)
      (windowed window (itemsOf value)) shown) :
    (renderValue c e f window [] renderNested value).outcome = .ok (.array shown) := by
  rw [renderValue_items hlist]
  refine Outcome.map_eq_ok.mpr ⟨shown, Outcome.mapM_eq_ok.mpr ?_, rfl⟩
  refine h.imp fun item j hitem => ?_
  rw [hitem.1]
  exact hitem.2

/-- A record is rendered by the nested request. -/
theorem renderElement_record {t : Entity} (htarget : f.target = .object t) (r : Record) :
    renderElement e f renderNested (.record r) = renderNested r := by
  rw [renderElement, htarget]
  rfl

theorem renderElement_scalar {kind : ScalarKind} (hkind : f.target = .scalar kind) {j : Json}
    (hj : IsScalar kind j) :
    (renderElement e f renderNested (.ofJson j)).outcome = .ok j := by
  rw [renderElement, hkind]
  dsimp only
  rw [scalar?_ofJson hj]
  rfl

theorem target_scalar (hf : Schema.IsOutputField c a f) {kind : ScalarKind}
    (hk : a.scalarKind? = some kind) : f.target = .scalar kind := by
  have htarget := hf.target
  revert htarget
  generalize f.target = target
  intro htarget
  cases htarget with
  | scalar hkind => rw [Option.some.inj (hkind.symm.trans hk)]
  | entity hnone _ => cases hnone.symm.trans hk

theorem target_object (hf : Schema.IsOutputField c a f)
    (hk : a.scalarKind? = none) {t : Entity} (ht : c.entity? a.typeName = some t) :
    f.target = .object t := by
  have htarget := hf.target
  revert htarget
  generalize f.target = target
  intro htarget
  cases htarget with
  | scalar hkind => cases hkind.symm.trans hk
  | entity _ hfound => rw [Option.some.inj (hfound.symm.trans ht)]

/-- The items of a list, each shown as data. -/
theorem renders_items {items js : List Json} (h : List.Forall₂ (fun item j => item ≠ .null ∧
      (renderElement e f renderNested (.ofJson item)).outcome = .ok j) items js) :
    List.Forall₂ (fun item j => item.isNull = false ∧
      (renderElement e f renderNested item).outcome = .ok j)
        (itemsOf (.ofJson (.array items))) js := by
  rw [AttributeValue.ofJson, itemsOf]
  induction h with
  | nil => exact .nil
  | cons hitem _ ih => exact .cons ⟨isNull_ofJson hitem.1, hitem.2⟩ ih

def nestedRendering [RegexLibrary] (c : Catalog) : Option Request → RecordRendering
  | some request => render c request
  | none => fun _ => pure (.object [])

section Attributes

variable {fields : List OutputField} {definition : Attribute} {filter : List FilterGroup}
  {nested : Option Request} {rest : List AttributeRequest} {r : Record} {value : AttributeValue}
  (hf : Schema.fieldNamed e fields definition.name = .ok f) (hread : e.read f.name r = .ok value)

include hf hread

/-- One attribute, then the rest. -/
theorem renderAttributes_eq [RegexLibrary] :
    (renderAttributes c e fields (.mk definition window filter nested :: rest) r).outcome =
      (renderValue c e f window filter (nestedRendering c nested) value).outcome >>= fun shown =>
        (renderAttributes c e fields rest r).outcome.map ((definition.name, shown) :: ·) := by
  rw [renderAttributes.eq_def]
  simp only [Tracked.outcome_bind, Tracked.outcome_mapError, Tracked.outcome_lift]
  rw [Outcome.bind_of_eq_ok (Outcome.mapError_eq_ok.mpr hf),
    Outcome.bind_of_eq_ok (Outcome.mapError_eq_ok.mpr hread)]
  change (renderValue c e f window filter (nestedRendering c nested) value).outcome >>= _ = _
  congr 1

theorem renderAttributes_cons [RegexLibrary] {shown : Json} {more : Members}
    (hshown : (renderValue c e f window filter (nestedRendering c nested) value).outcome = .ok shown)
    (hmore : (renderAttributes c e fields rest r).outcome = .ok more) :
    (renderAttributes c e fields (.mk definition window filter nested :: rest) r).outcome =
      .ok ((definition.name, shown) :: more) := by
  rw [renderAttributes_eq hf hread, Outcome.bind_of_eq_ok hshown, hmore]
  rfl

end Attributes

/-- A record of a registered entity as its attributes show it. -/
theorem render_eq [RegexLibrary] (he : e ∈ c.entities) {fields : List OutputField}
    (hfields : (Schema.objectFields c e).outcome = .ok fields) (typename : Bool)
    (attributes : List AttributeRequest) (r : Record) :
    (render c (.mk e typename attributes) r).outcome =
      (renderAttributes c e fields attributes r).outcome.map fun members =>
        .object (if typename then (typenameField, .string e.name) :: members else members) := by
  have hentity : (Schema.objectType c e.name).outcome = .ok e := by
    rw [Schema.outcome_objectType, Catalog.require_eq_ok, Catalog.entity?_eq_some]
    exact ⟨he, rfl⟩
  -- Without attributes no fields are looked up, and none are needed.
  obtain ⟨fields', hfields', hsame⟩ : ∃ fields',
      (fieldsFor c e attributes).outcome = .ok fields' ∧
      (renderAttributes c e fields' attributes r).outcome =
        (renderAttributes c e fields attributes r).outcome := by
    cases attributes with
    | nil => exact ⟨[], rfl, by rw [renderAttributes, renderAttributes]⟩
    | cons a as => exact ⟨fields, Outcome.mapError_eq_ok.mpr hfields, rfl⟩
  rw [render]
  simp only [Tracked.outcome_bind, Tracked.outcome_mapError]
  rw [Outcome.bind_of_eq_ok (Outcome.mapError_eq_ok.mpr hentity), Outcome.bind_of_eq_ok hfields',
    hsame]
  cases (renderAttributes c e fields attributes r).outcome <;> rfl

end Rendering

end EntityGraph
