import EntityGraph.Proofs.Execution.Created
import EntityGraph.Proofs.Request.WellFormed

namespace EntityGraph

open Outcome (FailsExactly)

/-- Attributes of a kind have no value in a new record, though they must have one; all others can be
given, or are single ids. -/
structure Entity.LacksOnly (kind : Entity → Attribute → Prop) (e : Entity) : Prop where
  names : e.PlainNames
  lacking : ∀ a ∈ e.attributes, kind e a → a.repeating = false ∧ a.nullable = false ∧
    ∀ fields : Members, (∀ key, (∀ b ∈ e.attributes, b.name ≠ key) → fields.lookup key = none) →
      a.valueIn (.document fields) = .null
  kept : ∀ a ∈ e.attributes, ¬ kind e a → a.IsStored ∧
    (Schema.isSettable a = true ∨ StoreRules.isId a = true ∧ a.repeating = false)

namespace Rendering

inductive ShowsRecord (window : Option Window) : Option Json → Members → Prop
  | single (fields : Members) : ShowsRecord window (some (.object fields)) fields
  | item {items : List Json} {fields : Members} :
      .object fields ∈ Window.showing window items → ShowsRecord window (some (.array items)) fields

def IsViolation (kind : Entity → Attribute → Prop) (err : Error) : Prop :=
  ∃ e a, kind e a ∧ err = .nullViolation e.name a.name

end Rendering

open Rendering (ShowsRecord IsViolation)

/-- A request shows an attribute of a kind, of the record that was given or of one inside it. -/
inductive Request.Shows (kind : Entity → Attribute → Prop) : Request → Members → Prop
  | here {q : Request} {given : Members} {a : AttributeRequest} : a ∈ q.attributes →
      kind q.entity a.definition → Shows kind q given
  | nested {q n : Request} {given fields : Members} {a : AttributeRequest} : a ∈ q.attributes →
      a.nested = some n → ShowsRecord a.window (given.lookup a.name) fields →
      Shows kind n fields → Shows kind q given

def AttributeRequest.Shows (kind : Entity → Attribute → Prop) (e : Entity) (given : Members)
    (a : AttributeRequest) : Prop :=
  kind e a.definition ∨ ∃ n fields, a.nested = some n ∧
    ShowsRecord a.window (given.lookup a.name) fields ∧ n.Shows kind fields

/-- A request shows what one of its attributes does. -/
theorem Request.shows_iff {kind : Entity → Attribute → Prop} {q : Request} {given : Members} :
    q.Shows kind given ↔ ∃ a ∈ q.attributes, a.Shows kind q.entity given := by
  constructor
  · intro h
    cases h with
    | here ha hkind => exact ⟨_, ha, .inl hkind⟩
    | nested ha hn hrecord hshows => exact ⟨_, ha, .inr ⟨_, _, hn, hrecord, hshows⟩⟩
  · rintro ⟨a, ha, hkind | ⟨n, fields, hn, hrecord, hshows⟩⟩
    · exact .here ha hkind
    · exact .nested ha hn hrecord hshows

def Request.Unfiltered (q : Request) : Prop := q.Carries fun _ _ filter => filter = []

namespace Rendering

variable {rules : StoreRules} {kind : Entity → Attribute → Prop} {e : Entity} {given : Members}
  {issued : Nat} {f : OutputField}

/-- The records of an attribute are shown unless one of them is not. -/
theorem failsExactly_records [RegexLibrary] {a : Attribute} {t : Entity} {window : Option Window}
    {renderNested : RecordRendering} {p : Members → Prop} {P : Error → Prop}
    (hf : Schema.IsOutputField rules.catalog a f) (hk : a.scalarKind? = none)
    (ht : rules.catalog.entity? a.typeName = some t) {j : Option Json} {value : AttributeValue}
    (hholds : HoldsRecords rules a t j value)
    (hnested : ∀ fields issued', Input.Accepted rules.catalog t fields →
      FailsExactly (renderNested (.document (rules.assignIds t issued' fields).1)).outcome
        (p fields) P) :
    FailsExactly (renderValue rules.catalog e f window [] renderNested value).outcome
      (∃ fields, ShowsRecord window j fields ∧ p fields) P := by
  have hlist : f.type.list = a.repeating := hf.type ▸ TypeString.list_ofAttribute a
  have htarget : f.target = .object t := target_object hf hk ht
  have helement : ∀ {item value}, HoldsRecord rules t item value → value.isNull = false ∧
      FailsExactly (renderElement e f renderNested value).outcome
        (∃ fields, item = .object fields ∧ p fields) P := by
    rintro _ _ ⟨fields, issued', rfl, haccepted, rfl⟩
    refine ⟨rfl, ?_⟩
    rw [renderElement_record htarget]
    refine (hnested fields issued' haccepted).congr ⟨fun h => ⟨fields, rfl, h⟩, ?_⟩
    rintro ⟨_, ⟨⟩, h⟩
    exact h
  cases hholds with
  | omitted hopen =>
    -- What was left out could be, so that it is shown as null or as a list without items.
    exact .of_ok (renderValue_omitted hf hopen) (by rintro ⟨_, ⟨⟩, _⟩)
  | single hsingle hholds =>
    obtain ⟨hnull, hfails⟩ := helement hholds
    obtain ⟨fields, _, rfl, _, _⟩ := hholds
    rw [renderValue_single (hlist.trans hsingle) hnull]
    refine hfails.congr ⟨?_, ?_⟩
    · rintro ⟨_, ⟨⟩, h⟩
      exact ⟨fields, .single fields, h⟩
    · rintro ⟨_, ⟨⟩, h⟩
      exact ⟨fields, rfl, h⟩
  | @list items values hrepeating hholds =>
    have hitems : List.Forall₂ (fun item value => FailsExactly
        (if value.isNull then renderNull e f f.type.elementNonNull
          else renderElement e f renderNested value).outcome
        (∃ fields, item = .object fields ∧ p fields) P) items values := by
      refine hholds.imp fun item value h => ?_
      obtain ⟨hnull, hfails⟩ := helement h
      rw [hnull]
      exact hfails
    -- Only the records inside the window are shown at all.
    rw [renderValue_items (hlist.trans hrepeating), itemsOf, windowed_eq]
    refine ((FailsExactly.mapM (Window.forall₂_showing window hitems)).map _).congr ⟨?_, ?_⟩
    · rintro ⟨item, hitem, fields, rfl, h⟩
      exact ⟨fields, .item hitem, h⟩
    · rintro ⟨fields, ⟨⟩ | ⟨hitem⟩, h⟩
      exact ⟨_, hitem, fields, rfl, h⟩

section Attributes

variable (issued) (hc : rules.catalog.Closed) (he : e ∈ rules.catalog.entities)
  (hlacks : e.LacksOnly kind) (haccepted : Input.Accepted rules.catalog e given)

include hc he hlacks haccepted

/-- An attribute is shown unless it is of the kind, or shows one in what is nested. -/
theorem failsExactly_attribute [RegexLibrary] {a : AttributeRequest}
    (hfits : a.Fits rules.catalog e) (hf : Schema.IsOutputField rules.catalog a.definition f)
    (hnested : ∀ n, a.nested = some n → ∀ fields issued',
      Input.Accepted rules.catalog n.entity fields →
        FailsExactly (render rules.catalog n
          (.document (rules.assignIds n.entity issued' fields).1)).outcome (n.Shows kind fields)
          (IsViolation kind)) :
    FailsExactly (renderValue rules.catalog e f a.window [] (nestedRendering rules.catalog a.nested)
      (a.definition.valueIn (.document (rules.assignIds e issued given).1))).outcome
      (a.Shows kind e given) (IsViolation kind) := by
  have hmem : a.definition ∈ e.attributes := hfits.mem
  by_cases hkind : kind e a.definition
  · -- Nothing is stored under a name that no attribute has, so there is nothing to compute it of.
    obtain ⟨hsingle, hrequired, hnull⟩ := hlacks.lacking a.definition hmem hkind
    have hlist : f.type.list = false := (hf.type ▸ TypeString.list_ofAttribute _).trans hsingle
    have hnonNull : f.type.nonNull = true := by
      rw [hf.type, TypeString.ofAttribute, hsingle, hrequired]
      rfl
    have hname : f.name = a.definition.name := congrArg Attribute.name hf.definition
    rw [hnull _ fun key hkey => StoreRules.lookup_assignIds_of_none (haccepted.lookup_other hkey)
      fun b hb _ => hkey b hb]
    refine .of_error (renderValue_violation hlist hnonNull) ⟨e, a.definition, hkind, ?_⟩
      (.inl hkind)
    rw [hname]
  · obtain ⟨hstored, hkept⟩ := hlacks.kept a.definition hmem hkind
    cases hk : a.definition.scalarKind? with
    | some scalarKind =>
      -- A scalar was given, or it is an id that was made.
      have hshown : ∃ shown, (renderValue rules.catalog e f a.window []
          (nestedRendering rules.catalog a.nested)
          (a.definition.valueIn (.document (rules.assignIds e issued given).1))).outcome =
            .ok shown := by
        rcases hkept with hset | ⟨hid, hsingle⟩
        · obtain ⟨shown, hshown, _⟩ := renders_scalar issued hlacks.names hstored hmem haccepted
            hf hk hset
          exact ⟨shown, hshown⟩
        · obtain ⟨shown, hshown, _⟩ := renders_id issued hstored hmem haccepted hf hid hsingle
          exact ⟨shown, hshown⟩
      obtain ⟨shown, hshown⟩ := hshown
      refine .of_ok hshown ?_
      rintro (h | ⟨n, _, hn, _⟩)
      · exact hkind h
      · cases hk.symm.trans (hfits.not_scalar n hn)
    | none =>
      -- The records that were given for it are shown as the nested request shows them.
      have hset : Schema.isSettable a.definition = true := hkept.resolve_right fun h => by
        cases hk.symm.trans (beq_iff_eq.mp h.1)
      obtain ⟨t, ht⟩ := hc e he _ hmem hk
      have hholds := holdsRecords issued hlacks.names hstored hmem haccepted hk ht hset
      refine (failsExactly_records (p := fun fields => ∃ n, a.nested = some n ∧
        n.Shows kind fields) hf hk ht hholds ?_).congr ⟨?_, ?_⟩
      · intro fields issued' hfields
        cases hn : a.nested with
        | none => exact .of_ok rfl (by simp)
        | some n =>
          obtain rfl : t = n.entity := Option.some.inj (ht.symm.trans (hfits.target n hn))
          exact (hnested n hn fields issued' hfields).congr (by simp)
      · rintro ⟨fields, hrecord, n, hn, hshows⟩
        exact .inr ⟨n, fields, hn, hrecord, hshows⟩
      · rintro (h | ⟨n, fields, hn, hrecord, hshows⟩)
        · exact absurd h hkind
        · exact ⟨fields, hrecord, n, hn, hshows⟩

/-- A rendering fails exactly at what it shows, once that holds of nested records. One step for each
attribute that is asked for. -/
theorem failsExactly_renderAttributes [RegexLibrary] {fields : List OutputField}
    (hfields : (Schema.objectFields rules.catalog e).outcome = .ok fields)
    {as : List AttributeRequest} (hfits : ∀ a ∈ as, a.Fits rules.catalog e)
    (hfilter : ∀ a ∈ as, a.filter = [])
    (hnested : ∀ a ∈ as, ∀ n, a.nested = some n → ∀ fields issued',
      Input.Accepted rules.catalog n.entity fields →
        FailsExactly (render rules.catalog n
          (.document (rules.assignIds n.entity issued' fields).1)).outcome (n.Shows kind fields)
          (IsViolation kind)) :
    FailsExactly (renderAttributes rules.catalog e fields as
      (.document (rules.assignIds e issued given).1)).outcome
      (∃ a ∈ as, a.Shows kind e given) (IsViolation kind) := by
  -- On the attributes: the first is shown and then the others, or it is the failure itself.
  induction as with
  | nil => exact .of_ok (by rw [renderAttributes]; rfl) (by simp)
  | cons a as ih =>
    rw [List.forall_mem_cons] at hfits hfilter hnested
    have hattribute := fun f hf => failsExactly_attribute (f := f) issued hc he hlacks haccepted
      hfits.1 hf hnested.1
    obtain ⟨definition, window, filter, nested⟩ := a
    obtain rfl : filter = [] := hfilter.1
    have hmem : definition ∈ e.attributes := hfits.1.mem
    obtain ⟨f, hf, hfield⟩ := Schema.fieldNamed_objectFields hfields hmem
    have hname : f.name = definition.name := congrArg Attribute.name hfield.definition
    have hread : e.read f.name (.document (rules.assignIds e issued given).1) =
        .ok (definition.valueIn (.document (rules.assignIds e issued given).1)) :=
      Entity.read_of_attribute? (Entity.attribute?_eq_some.mpr ⟨hmem, hname.symm⟩) _
    rw [renderAttributes_eq hf hread]
    refine ((hattribute f hfield).bind fun shown _ =>
      (ih hfits.2 hfilter.2 hnested.2).map ((definition.name, shown) :: ·)).congr ?_
    exact (List.exists_mem_cons_iff _ _ _).symm

end Attributes

/-- A record that was created of accepted data is shown, unless the request shows an attribute of
the kind, and then that is the failure. -/
theorem failsExactly_render [RegexLibrary] (hc : rules.catalog.Closed)
    (hlacks : ∀ e ∈ rules.catalog.entities, e.LacksOnly kind) {q : Request}
    (hfits : q.Fits rules.catalog) (hfree : q.Unfiltered) (given : Members) (issued : Nat)
    (haccepted : Input.Accepted rules.catalog q.entity given) :
    FailsExactly (render rules.catalog q
      (.document (rules.assignIds q.entity issued given).1)).outcome (q.Shows kind given)
      (IsViolation kind) := by
  -- On the request; what is nested is asked of the entities that the attributes refer to.
  induction q using Request.induction generalizing given issued with
  | nested q ih =>
    have hall := Request.carries_iff.mp hfree
    obtain ⟨entity, typename, attributes⟩ := q
    have hmem : entity ∈ rules.catalog.entities := (Request.fits_iff.mp hfits).1
    have hattributes : ∀ a ∈ attributes, a.Fits rules.catalog entity :=
      (Request.fits_iff.mp hfits).2.2
    obtain ⟨fields, hfields⟩ := Schema.objectFields_isOk.mpr (hc entity hmem)
    have hmembers := failsExactly_renderAttributes issued hc hmem (hlacks entity hmem) haccepted
      hfields hattributes (fun a ha => (hall a ha).here) fun a ha n hn given issued hgiven =>
        ih a ha n hn ((hattributes a ha).nested n hn) ((hall a ha).nested n hn) given issued hgiven
    show FailsExactly (render rules.catalog (.mk entity typename attributes) _).outcome _ _
    rw [render_eq hmem hfields]
    exact (hmembers.map _).congr (Request.shows_iff (q := .mk entity typename attributes)).symm

end Rendering

end EntityGraph
