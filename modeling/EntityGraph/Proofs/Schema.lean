import EntityGraph.Proofs.Catalog
import EntityGraph.Proofs.Outcome
import EntityGraph.Schema.Fields

namespace EntityGraph

instance {ε : Type} : LawfulMonad (Tracked ε) := by
  refine LawfulMonad.mk' _ ?_ ?_ ?_
  · intro α x
    obtain ⟨outcome, uses⟩ := x
    cases outcome <;> simp [Functor.map, Tracked.andThen, Tracked.lift]
  · intro α β a f
    simp [pure, bind, Tracked.andThen, Tracked.lift]
  · intro α β γ x f g
    obtain ⟨outcome, uses⟩ := x
    cases outcome with
    | error err => simp [bind, Tracked.andThen]
    | ok a => cases h : (f a).outcome <;> simp [bind, Tracked.andThen, h]

/-- What follows matters only where it is reached. -/
theorem Tracked.bind_congr {ε α β : Type} {x : Tracked ε α} {f g : α → Tracked ε β}
    (h : ∀ a, x.outcome = .ok a → f a = g a) : x >>= f = x >>= g := by
  obtain ⟨outcome, uses⟩ := x
  cases outcome with
  | error err => rfl
  | ok a =>
    show Tracked.andThen _ f = Tracked.andThen _ g
    simp only [Tracked.andThen, h a rfl]

theorem Tracked.map_eq {ε α β : Type} (g : α → β) (x : Tracked ε α) :
    g <$> x = ⟨x.outcome.map g, x.uses⟩ := by
  obtain ⟨outcome, uses⟩ := x
  cases outcome with
  | error err => rfl
  | ok a =>
    show (⟨.ok (g a), uses ++ []⟩ : Tracked ε β) = _
    rw [List.append_nil]
    rfl

/-- Computations that end alike up to a function are followed alike by what tells no more. -/
theorem Tracked.bind_congr_of_map {ε α β γ : Type} {x x' : Tracked ε α} {g : α → β}
    (h : g <$> x' = g <$> x) {f f' : α → Tracked ε γ}
    (hf : ∀ a a', x.outcome = .ok a → x'.outcome = .ok a' → g a' = g a → f' a' = f a) :
    x' >>= f' = x >>= f := by
  obtain ⟨outcome, uses⟩ := x
  obtain ⟨outcome', uses'⟩ := x'
  rw [Tracked.map_eq, Tracked.map_eq, Tracked.mk.injEq] at h
  obtain ⟨houtcome, rfl⟩ := h
  cases outcome with
  | error err =>
    obtain rfl := Outcome.map_eq_error.mp houtcome
    rfl
  | ok a =>
    obtain ⟨a', rfl, ha⟩ := Outcome.map_eq_ok.mp houtcome
    show Tracked.andThen _ f' = Tracked.andThen _ f
    simp only [Tracked.andThen, hf a a' rfl rfl ha]

theorem Tracked.mapM_congr {ε α β : Type} {f g : α → Tracked ε β} {xs : List α}
    (h : ∀ x ∈ xs, f x = g x) : xs.mapM f = xs.mapM g := by
  induction xs with
  | nil => rfl
  | cons x xs ih =>
    rw [List.forall_mem_cons] at h
    rw [List.mapM_cons, List.mapM_cons, h.1, ih h.2]

/-- The outcome of a row of computations is that of their outcomes in a row. -/
theorem Tracked.outcome_mapM {ε α β : Type} (f : α → Tracked ε β) (xs : List α) :
    (xs.mapM f).outcome = xs.mapM fun x => (f x).outcome := by
  induction xs with
  | nil => rfl
  | cons x xs ih =>
    simp only [List.mapM_cons, Tracked.outcome_bind, ih]
    rfl

/-- Uses aside, a loop is the loop of outcomes. -/
theorem Tracked.outcome_foldlM {ε α β : Type} (f : β → α → Tracked ε β) (xs : List α) (b : β) :
    (xs.foldlM f b).outcome = xs.foldlM (fun b a => (f b a).outcome) b := by
  induction xs generalizing b with
  | nil => rfl
  | cons a xs ih =>
    simp only [List.foldlM_cons, Tracked.outcome_bind, ih]

theorem Tracked.outcome_noted {ε α β : Type} (f : α → Tracked ε β) (use : List β → TypeUse)
    (xs : List α) : (xs.mapM f >>= fun ys => Tracked.note (use ys) >>= fun _ => pure ys).outcome =
      xs.mapM fun x => (f x).outcome := by
  simp only [Tracked.outcome_bind, Tracked.outcome_note, Tracked.outcome_pure, Tracked.outcome_mapM]
  cases xs.mapM fun x => (f x).outcome <;> rfl

namespace Schema

theorem outcome_objectType (c : Catalog) (name : String) :
    (objectType c name).outcome = c.require name := by
  simp only [objectType, Tracked.outcome_bind, Tracked.outcome_lift, Tracked.outcome_note]
  cases c.require name <;> rfl

theorem outcome_filterType (c : Catalog) (name : String) :
    (filterType c name).outcome = c.require name := by
  simp only [filterType, Tracked.outcome_bind, Tracked.outcome_lift, Tracked.outcome_note]
  cases c.require name <;> rfl

theorem outcome_inputType (c : Catalog) (name : String) :
    (inputType c name).outcome = c.require name := by
  simp only [inputType, Tracked.outcome_bind, Tracked.outcome_lift, Tracked.outcome_note]
  cases c.require name <;> rfl

theorem filterField_scalar {c : Catalog} {a : Attribute} {kind : ScalarKind}
    (hk : a.scalarKind? = some kind) :
    (filterField c a).outcome = .ok ⟨a, .scalar kind⟩ := by
  rw [filterField, filterTarget, hk]
  rfl

theorem filterField_entity {c : Catalog} {a : Attribute} (hk : a.scalarKind? = none) :
    (filterField c a).outcome = (c.require a.typeName).map fun t => ⟨a, .entity t⟩ := by
  rw [filterField, filterTarget, hk]
  simp only [Tracked.outcome_bind, outcome_filterType]
  cases c.require a.typeName <;> rfl

theorem filterField_of_entity? {c : Catalog} {a : Attribute} {target : Entity}
    (hk : a.scalarKind? = none) (ht : c.entity? a.typeName = some target) :
    (filterField c a).outcome = .ok ⟨a, .entity target⟩ := by
  rw [filterField_entity hk, Catalog.require_eq_ok.mpr ht]
  rfl

/-- A filter field compiles when its attribute refers to something. -/
theorem filterField_isOk {c : Catalog} {a : Attribute} :
    (∃ f, (filterField c a).outcome = .ok f) ↔
      (a.scalarKind? = none → ∃ t, c.entity? a.typeName = some t) := by
  cases hk : a.scalarKind? with
  | some kind => simp [filterField_scalar hk]
  | none =>
    rw [filterField_entity hk, Outcome.map_isOk]
    simp [Catalog.require_eq_ok]

def HasFilterField (c : Catalog) (e : Entity) (f : FilterField) : Prop :=
  ∃ fields, (filterFields c e).outcome = .ok fields ∧ f ∈ fields

/-- Filter fields are compiled attribute by attribute. -/
theorem filterFields_eq_ok {c : Catalog} {e : Entity} {fields : List FilterField} :
    (filterFields c e).outcome = .ok fields ↔
      List.Forall₂ (fun a f => (filterField c a).outcome = .ok f) e.attributes fields := by
  rw [filterFields, Tracked.outcome_noted]
  exact Outcome.mapM_eq_ok

/-- The filter type of an entity has fields when all entities that it refers to are there. -/
theorem filterFields_isOk {c : Catalog} {e : Entity} :
    (∃ fields, (filterFields c e).outcome = .ok fields) ↔
      ∀ a ∈ e.attributes, a.scalarKind? = none → ∃ t, c.entity? a.typeName = some t := by
  simp only [filterFields_eq_ok, ← Outcome.mapM_eq_ok, ← filterField_isOk]
  exact Outcome.mapM_isOk

/-- In a catalog whose entities are all there, the filter type of an entity has a field for each
attribute. -/
theorem hasFilterField_iff {c : Catalog} (hc : c.Closed) {e : Entity} (he : e ∈ c.entities)
    {f : FilterField} : HasFilterField c e f ↔
      f.definition ∈ e.attributes ∧ (filterField c f.definition).outcome = .ok f := by
  have hfield : ∀ a f, (filterField c a).outcome = .ok f → f.definition = a := by
    intro a f h
    obtain ⟨target, _, h⟩ := Outcome.bind_eq_ok.mp (Tracked.outcome_bind _ _ ▸ h)
    exact Except.ok.inj h ▸ rfl
  have hall : ∃ fields, (filterFields c e).outcome = .ok fields := filterFields_isOk.mpr (hc e he)
  constructor
  · intro h
    obtain ⟨fields, hfields, hf⟩ := h
    obtain ⟨a, ha, hfa⟩ := Outcome.exists_mem_left (filterFields_eq_ok.mp hfields) hf
    obtain rfl := hfield a f hfa
    exact ⟨ha, hfa⟩
  · intro h
    obtain ⟨ha, hfa⟩ := h
    obtain ⟨fields, hfields⟩ := hall
    obtain ⟨g, hg, hga⟩ := Outcome.exists_mem_right (filterFields_eq_ok.mp hfields) ha
    obtain rfl := Except.ok.inj (hfa.symm.trans hga)
    exact ⟨fields, hfields, hg⟩

/-- Which scalar fields there are, over a closed catalog. -/
theorem hasFilterField_scalar {c : Catalog} (hc : c.Closed) {e : Entity} (he : e ∈ c.entities)
    {a : Attribute} {kind : ScalarKind} : HasFilterField c e ⟨a, .scalar kind⟩ ↔
      a ∈ e.attributes ∧ a.scalarKind? = some kind := by
  rw [hasFilterField_iff hc he]
  refine and_congr_right fun ha => ?_
  cases hk : a.scalarKind? with
  | some other => simp [filterField_scalar hk]
  | none =>
    obtain ⟨target, ht⟩ := hc e he a ha hk
    simp [filterField_of_entity? hk ht]

/-- Which entity fields there are, over a closed catalog. -/
theorem hasFilterField_entity {c : Catalog} (hc : c.Closed) {e : Entity} (he : e ∈ c.entities)
    {a : Attribute} {target : Entity} : HasFilterField c e ⟨a, .entity target⟩ ↔
      a ∈ e.attributes ∧ a.scalarKind? = none ∧ c.entity? a.typeName = some target := by
  rw [hasFilterField_iff hc he]
  refine and_congr_right fun ha => ?_
  cases hk : a.scalarKind? with
  | some kind => simp [filterField_scalar hk]
  | none =>
    obtain ⟨other, ht⟩ := hc e he a ha hk
    simp [filterField_of_entity? hk ht, ht]

inductive Holds (c : Catalog) (a : Attribute) : OutputTarget → Prop
  | scalar {kind : ScalarKind} : a.scalarKind? = some kind → Holds c a (.scalar kind)
  | entity {t : Entity} : a.scalarKind? = none → c.entity? a.typeName = some t →
      Holds c a (.object t)

theorem outputField_scalar {c : Catalog} {a : Attribute} {kind : ScalarKind}
    (hk : a.scalarKind? = some kind) : (outputField c a).outcome =
      .ok ⟨a, .ofAttribute a, .scalar kind, outputParameters a kind.filterName⟩ := by
  rw [outputField, outputTarget, hk]
  rfl

theorem outputField_entity {c : Catalog} {a : Attribute} (hk : a.scalarKind? = none) :
    (outputField c a).outcome = (c.require a.typeName).map fun t =>
      ⟨a, .ofAttribute a, .object t, outputParameters a t.filterName⟩ := by
  rw [outputField, outputTarget, hk]
  simp only [Tracked.outcome_bind, outcome_objectType, outcome_filterType]
  cases c.require a.typeName <;> rfl

theorem outputField_isOk {c : Catalog} {a : Attribute} :
    (∃ f, (outputField c a).outcome = .ok f) ↔
      (a.scalarKind? = none → ∃ t, c.entity? a.typeName = some t) := by
  cases hk : a.scalarKind? with
  | some kind => simp [outputField_scalar hk]
  | none =>
    rw [outputField_entity hk, Outcome.map_isOk]
    simp [Catalog.require_eq_ok]

/-- The output field of an attribute has the type of the attribute and holds what it refers to. -/
structure IsOutputField (c : Catalog) (a : Attribute) (f : OutputField) : Prop where
  definition : f.definition = a
  type : f.type = .ofAttribute a
  target : Holds c a f.target

/-- What a compiled output field is, told without the steps. -/
theorem isOutputField {c : Catalog} {a : Attribute} {f : OutputField}
    (h : (outputField c a).outcome = .ok f) : IsOutputField c a f := by
  cases hk : a.scalarKind? with
  | some kind =>
    rw [outputField_scalar hk] at h
    exact Except.ok.inj h ▸ ⟨rfl, rfl, .scalar hk⟩
  | none =>
    rw [outputField_entity hk] at h
    obtain ⟨t, ht, rfl⟩ := Outcome.map_eq_ok.mp h
    exact ⟨rfl, rfl, .entity hk (Catalog.require_eq_ok.mp ht)⟩

theorem objectFields_eq_ok {c : Catalog} {e : Entity} {fields : List OutputField} :
    (objectFields c e).outcome = .ok fields ↔
      List.Forall₂ (fun a f => (outputField c a).outcome = .ok f) e.attributes fields := by
  rw [objectFields, Tracked.outcome_noted]
  exact Outcome.mapM_eq_ok

/-- The output type of an entity has fields when all entities that it refers to are there. -/
theorem objectFields_isOk {c : Catalog} {e : Entity} :
    (∃ fields, (objectFields c e).outcome = .ok fields) ↔
      ∀ a ∈ e.attributes, a.scalarKind? = none → ∃ t, c.entity? a.typeName = some t := by
  simp only [objectFields_eq_ok, ← Outcome.mapM_eq_ok, ← outputField_isOk]
  exact Outcome.mapM_isOk

/-- A single field is looked up among all fields of its entity. -/
theorem objectField_of_objectFields {c : Catalog} {e : Entity} {fields : List OutputField}
    (h : (objectFields c e).outcome = .ok fields) (name : String) :
    (objectField c e name).outcome = fieldNamed e fields name := by
  rw [objectField, Tracked.outcome_bind, h]
  rfl

/-- The output type of an entity has a field for each attribute. -/
theorem fieldNamed_objectFields {c : Catalog} {e : Entity} {fields : List OutputField}
    (h : (objectFields c e).outcome = .ok fields) {a : Attribute} (ha : a ∈ e.attributes) :
    ∃ f, fieldNamed e fields a.name = .ok f ∧ IsOutputField c a f := by
  have hall := objectFields_eq_ok.mp h
  obtain ⟨g, hg, hga⟩ := Outcome.exists_mem_right hall ha
  have hname : g.name = a.name := congrArg Attribute.name (isOutputField hga).definition
  cases hfind : fields.find? fun f => f.name == a.name with
  | none => simpa [hname] using List.find?_eq_none.mp hfind g hg
  | some f =>
    refine ⟨f, by rw [fieldNamed, hfind], ?_⟩
    -- The attributes of an entity have names of their own.
    obtain ⟨b, hb, hfb⟩ := Outcome.exists_mem_left hall (List.mem_of_find?_eq_some hfind)
    have hfname : f.name = a.name := by simpa using List.find?_some hfind
    have hbname : b.name = a.name := by
      rw [← hfname, OutputField.name, (isOutputField hfb).definition]
    exact List.inj_on_of_nodup_map e.names_nodup hb ha hbname ▸ isOutputField hfb

theorem inputField_scalar {c : Catalog} {a : Attribute} {kind : ScalarKind}
    (hk : a.scalarKind? = some kind) :
    (inputField c a).outcome = .ok ⟨a, inputTypeString a kind.name, .scalar kind⟩ := by
  rw [inputField, inputTarget, hk]
  rfl

theorem inputField_entity {c : Catalog} {a : Attribute} (hk : a.scalarKind? = none) :
    (inputField c a).outcome = (c.require a.typeName).map fun t =>
      ⟨a, inputTypeString a t.inputName, .object t⟩ := by
  rw [inputField, inputTarget, hk]
  simp only [Tracked.outcome_bind, outcome_inputType]
  cases c.require a.typeName <;> rfl

theorem inputField_isOk {c : Catalog} {a : Attribute} :
    (∃ f, (inputField c a).outcome = .ok f) ↔
      (a.scalarKind? = none → ∃ t, c.entity? a.typeName = some t) := by
  cases hk : a.scalarKind? with
  | some kind => simp [inputField_scalar hk]
  | none =>
    rw [inputField_entity hk, Outcome.map_isOk]
    simp [Catalog.require_eq_ok]

/-- The input type of an entity has fields when some attribute is settable and all entities that
the settable ones refer to are there. -/
theorem inputFields_eq_ok {c : Catalog} {e : Entity} {fields : List InputField} :
    (inputFields c e).outcome = .ok fields ↔ (∃ a ∈ e.attributes, isSettable a = true) ∧
      List.Forall₂ (fun a f => (inputField c a).outcome = .ok f) (e.attributes.filter isSettable)
        fields := by
  -- An empty list of fields is refused, and fields are read one for each settable attribute.
  have hempty : ∀ fields, List.Forall₂ (fun a f => (inputField c a).outcome = .ok f)
      (e.attributes.filter isSettable) fields →
        (fields.isEmpty = false ↔ ∃ a ∈ e.attributes, isSettable a = true) := by
    intro fields hfields
    have hlength := hfields.length_eq
    rw [List.isEmpty_eq_false_iff, ← List.length_pos_iff, ← hlength, List.length_pos_iff, ne_eq,
      List.filter_eq_nil_iff]
    simp
  rw [inputFields, Tracked.outcome_bind, Tracked.outcome_mapM, Outcome.bind_eq_ok]
  constructor
  · rintro ⟨read, hread, h⟩
    rw [Outcome.mapM_eq_ok] at hread
    split at h
    · cases h
    · next hsome =>
      obtain rfl := Except.ok.inj h
      exact ⟨(hempty _ hread).mp (by simpa using hsome), hread⟩
  · rintro ⟨hsettable, hfields⟩
    refine ⟨fields, Outcome.mapM_eq_ok.mpr hfields, ?_⟩
    rw [if_neg (by simpa using (hempty _ hfields).mpr hsettable)]
    rfl

/-- An input field takes an object only of an entity that a settable attribute refers to. -/
theorem target_of_inputFields {c : Catalog} {e : Entity} {fields : List InputField}
    (h : (inputFields c e).outcome = .ok fields) {f : InputField} (hf : f ∈ fields) {t : Entity}
    (ht : f.target = .object t) : ∃ a ∈ e.attributes, isSettable a = true ∧
      a.scalarKind? = none ∧ c.entity? a.typeName = some t := by
  obtain ⟨a, ha, hfield⟩ := Outcome.exists_mem_left (inputFields_eq_ok.mp h).2 hf
  obtain ⟨hmem, hset⟩ := List.mem_filter.mp ha
  refine ⟨a, hmem, hset, ?_⟩
  cases hk : a.scalarKind? with
  | some kind =>
    rw [inputField_scalar hk] at hfield
    obtain rfl := Except.ok.inj hfield
    cases ht
  | none =>
    rw [inputField_entity hk] at hfield
    obtain ⟨entity, hentity, rfl⟩ := Outcome.map_eq_ok.mp hfield
    obtain rfl := InputTarget.object.inj ht
    exact ⟨rfl, Catalog.require_eq_ok.mp hentity⟩

end Schema

end EntityGraph
