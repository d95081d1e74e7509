import EntityGraph.Input
import EntityGraph.Proofs.Execution.Scalars
import EntityGraph.Proofs.Filter.Reading
import EntityGraph.Proofs.Finite
import EntityGraph.Proofs.Keyed
import EntityGraph.Proofs.Schema

namespace EntityGraph.Input

mutual

/-- Data for a record of an entity: settable attributes in the forms of their types, and all of
them that may not be left out. -/
inductive Accepted (c : Catalog) : Entity → Members → Prop
  | mk {e : Entity} {given : Members}
      (known : ∀ entry ∈ given, ∃ a ∈ e.attributes, Schema.isSettable a = true ∧ a.name = entry.1)
      (value : ∀ a ∈ e.attributes, Schema.isSettable a = true → ∀ j,
        given.lookup a.name = some j → AcceptedValue c a j)
      (omitted : ∀ a ∈ e.attributes, Schema.isSettable a = true → given.lookup a.name = none →
        a.repeating = true ∨ a.nullable = true) : Accepted c e given

inductive AcceptedValue (c : Catalog) : Attribute → Json → Prop
  | single {a : Attribute} {j : Json} (single : a.repeating = false) (item : AcceptedItem c a j) :
      AcceptedValue c a j
  | list {a : Attribute} {items : List Json} (repeating : a.repeating = true)
      (all : ∀ j ∈ items, AcceptedItem c a j) : AcceptedValue c a (.array items)

inductive AcceptedItem (c : Catalog) : Attribute → Json → Prop
  | scalar {a : Attribute} {kind : ScalarKind} {j : Json} (isScalar : a.scalarKind? = some kind)
      (form : Rendering.IsScalar kind j) : AcceptedItem c a j
  | record {a : Attribute} {t : Entity} {given : Members} (refers : a.scalarKind? = none)
      (target : c.entity? a.typeName = some t) (accepted : Accepted c t given) :
      AcceptedItem c a (.object given)

end

structure IsInputField (c : Catalog) (f : InputField) : Prop where
  list : f.type.list = f.definition.repeating
  elementNonNull : f.type.list = true → f.type.elementNonNull = true
  nullable : f.type.nonNull = false →
    f.definition.repeating = true ∨ f.definition.nullable = true
  scalar : ∀ kind, f.target = .scalar kind → f.definition.scalarKind? = some kind
  object : ∀ t, f.target = .object t → f.definition.scalarKind? = none ∧
    c.entity? f.definition.typeName = some t

variable {c : Catalog} {rootField : String}

theorem isInputField {a : Attribute} {f : InputField}
    (h : (Schema.inputField c a).outcome = .ok f) : f.definition = a ∧ IsInputField c f := by
  -- What the type says of an attribute, whatever the name in it.
  have htype : ∀ name, (Schema.inputTypeString a name).list = a.repeating ∧
      ((Schema.inputTypeString a name).list = true →
        (Schema.inputTypeString a name).elementNonNull = true) ∧
      ((Schema.inputTypeString a name).nonNull = false →
        a.repeating = true ∨ a.nullable = true) := by
    intro name
    cases hr : a.repeating <;> cases hn : a.nullable <;>
      simp [Schema.inputTypeString, hr, hn, TypeString.listOf, TypeString.named,
        TypeString.required]
  cases hk : a.scalarKind? with
  | some kind =>
    rw [Schema.inputField_scalar hk] at h
    cases h
    obtain ⟨hlist, helement, hnull⟩ := htype kind.name
    refine ⟨rfl, hlist, helement, hnull, ?_, nofun⟩
    rintro _ ⟨⟩
    exact hk
  | none =>
    rw [Schema.inputField_entity hk] at h
    obtain ⟨t, ht, rfl⟩ := Outcome.map_eq_ok.mp h
    obtain ⟨hlist, helement, hnull⟩ := htype t.inputName
    refine ⟨rfl, hlist, helement, hnull, nofun, ?_⟩
    rintro _ ⟨⟩
    exact ⟨hk, Catalog.require_eq_ok.mp ht⟩

def ReadsItem (c : Catalog) (read : FieldReader Json) : Prop :=
  ∀ f path j, IsInputField c f → (read f path).outcome = .ok j → AcceptedItem c f.definition j

def ReadsValue (c : Catalog) (read : FieldReader Json) : Prop :=
  ∀ f path j, IsInputField c f → (read f path).outcome = .ok j → AcceptedValue c f.definition j

/-- A scalar that is read has the form of its type. -/
theorem isScalar_scalar? {kind : ScalarKind} {v : Value} {j : Json} (hv : v.IsData)
    (h : scalar? kind v = some j) : Rendering.IsScalar kind j := by
  unfold scalar? at h
  split at h
  · exact Option.some.inj h ▸ .string _
  · exact Option.some.inj h ▸ .id _
  · exact Option.some.inj h ▸ .id _
  · next n =>
    obtain ⟨i, hi, rfl⟩ := Option.map_eq_some_iff.mp h
    exact .int (Number.fitsInt64_of_int64? hi)
  · exact Option.some.inj h ▸ .float hv.of_number.isFinite_toFloat
  · exact Option.some.inj h ▸ .boolean _
  · cases h

/-- What is no object is read as a scalar or not at all. -/
theorem readsItem_other {v : Value} (hv : v.IsData) (hobject : v.isObject = false) :
    ReadsItem c (readElement c rootField v) := by
  rintro ⟨definition, type, target⟩ path j hf h
  cases target with
  | scalar kind =>
    rw [readElement] at h
    cases hj : scalar? kind v with
    | some j' =>
      rw [hj] at h
      cases h
      exact .scalar (hf.scalar kind rfl) (isScalar_scalar? hv hj)
    | none =>
      rw [hj] at h
      cases h
  | object e =>
    cases v with
    | object fields => cases hobject
    | _ =>
      rw [readElement] at h
      · cases h
      · nofun

/-- A list is read member by member. -/
theorem readElements_accepted {items : List Value}
    (hitems : ∀ item ∈ items, ReadsItem c (readElement c rootField item)) {f : InputField}
    (hf : IsInputField c f) (hlist : f.type.list = true) {path : String} {i : Nat}
    {js : List Json} (h : (readElements c rootField items f path i).outcome = .ok js) :
    ∀ j ∈ js, AcceptedItem c f.definition j := by
  induction items generalizing i js with
  | nil =>
    rw [readElements] at h
    cases h
    exact List.forall_mem_nil _
  | cons item items ih =>
    rw [List.forall_mem_cons] at hitems
    rw [readElements] at h
    split at h
    · -- Null among the members is refused.
      rw [if_pos (hf.elementNonNull hlist)] at h
      cases h
    · rw [Tracked.outcome_bind] at h
      obtain ⟨j, hj, h⟩ := Outcome.bind_eq_ok.mp h
      rw [Tracked.outcome_bind] at h
      obtain ⟨rest, hrest, h⟩ := Outcome.bind_eq_ok.mp h
      cases h
      exact List.forall_mem_cons.mpr ⟨hitems.1 f _ j hf hj, ih hitems.2 hrest⟩

theorem readsValue_fieldReaders {fields : Arguments}
    (hfields : ∀ field ∈ fields, ReadsItem c (readElement c rootField field.2))
    (hitems : ∀ field ∈ fields, ∀ items, field.2 = .list items →
      ∀ item ∈ items, ReadsItem c (readElement c rootField item)) :
    ∀ reader ∈ fieldReaders c rootField fields, ReadsValue c reader.2 := by
  induction fields with
  | nil => simp [fieldReaders]
  | cons field fields ih =>
    rw [List.forall_mem_cons] at hfields hitems
    obtain ⟨key, value⟩ := field
    have hrest := ih hfields.2 hitems.2
    cases value with
    | null =>
      rw [fieldReaders]
      exact hrest
    | list items =>
      -- A list is read item by item, unless the field does not repeat.
      rw [fieldReaders]
      refine List.forall_mem_cons.mpr ⟨fun f path j hf h => ?_, hrest⟩
      dsimp only at h
      split at h
      · next hlist =>
        rw [Tracked.outcome_bind] at h
        obtain ⟨js, hjs, h⟩ := Outcome.bind_eq_ok.mp h
        cases h
        exact .list (hf.list ▸ hlist) (readElements_accepted (hitems.1 items rfl) hf hlist hjs)
      · next hlist =>
        exact .single (hf.list ▸ Bool.eq_false_iff.mpr hlist) (hfields.1 f path j hf h)
    | _ =>
      -- Any other value makes a list of one where the field repeats.
      rw [fieldReaders]
      · refine List.forall_mem_cons.mpr ⟨fun f path j hf h => ?_, hrest⟩
        dsimp only at h
        split at h
        · next hlist =>
          rw [Tracked.outcome_bind] at h
          obtain ⟨j, hj, h⟩ := Outcome.bind_eq_ok.mp h
          cases h
          refine .list (hf.list ▸ hlist) (List.forall_mem_singleton.mpr ?_)
          exact hfields.1 f _ j hf hj
        · next hlist =>
          exact .single (hf.list ▸ Bool.eq_false_iff.mpr hlist) (hfields.1 f path j hf h)
      all_goals simp

/-- A field is left out where it may be, or read by one of the readers. -/
theorem readGiven_cases {path : String} {readers : List (String × FieldReader Json)}
    {f : InputField} {entry : Option (String × Json)}
    (h : (readGiven rootField path readers f).outcome = .ok entry) :
    entry = none ∧ f.type.nonNull = false ∨
      ∃ read fieldPath j, (f.name, read) ∈ readers ∧ (read f fieldPath).outcome = .ok j ∧
        entry = some (f.name, j) := by
  rw [readGiven] at h
  cases hread : readers.lookup f.name with
  | some read =>
    rw [hread] at h
    dsimp only at h
    rw [Tracked.outcome_bind] at h
    obtain ⟨j, hj, h⟩ := Outcome.bind_eq_ok.mp h
    cases h
    -- The reader that is found is one of the readers.
    obtain ⟨before, after, rfl, _⟩ := List.lookup_eq_some_iff.mp hread
    exact Or.inr ⟨read, _, j, List.mem_append_cons_self, hj, rfl⟩
  | none =>
    rw [hread] at h
    dsimp only at h
    split at h
    · cases h
    · next hnull =>
      cases h
      exact Or.inl ⟨rfl, Bool.eq_false_iff.mpr hnull⟩

/-- What the fields give is accepted, those that are left out included. -/
theorem accepted_readFields {entries : Arguments} {readers : List (String × FieldReader Json)}
    (hreaders : ∀ reader ∈ readers, ReadsValue c reader.2) {e : Entity} {path : String}
    {given : Members} (h : (readFields c rootField entries readers e path).outcome = .ok given) :
    Accepted c e given := by
  rw [readFields, Tracked.outcome_bind] at h
  obtain ⟨fields, hfields, h⟩ := Outcome.bind_eq_ok.mp h
  split at h
  · cases h
  rw [Tracked.outcome_bind, Tracked.outcome_mapM] at h
  obtain ⟨read, hread, h⟩ := Outcome.bind_eq_ok.mp h
  cases h
  have hall := (Schema.inputFields_eq_ok.mp (Outcome.mapError_eq_ok.mp hfields)).2
  have hread := Outcome.mapM_eq_ok.mp hread
  -- Each member of the data comes from a field of a settable attribute.
  have hentry : ∀ entry ∈ read.filterMap id, ∃ a ∈ e.attributes, Schema.isSettable a = true ∧
      a.name = entry.1 ∧ AcceptedValue c a entry.2 := by
    intro entry hentry
    obtain ⟨o, ho, rfl⟩ := List.mem_filterMap.mp hentry
    obtain ⟨f, hf, hfread⟩ := Outcome.exists_mem_left hread ho
    obtain ⟨a, ha, hfield⟩ := Outcome.exists_mem_left hall hf
    obtain ⟨rfl, hinput⟩ := isInputField hfield
    obtain ⟨hmem, hset⟩ := List.mem_filter.mp ha
    rcases readGiven_cases hfread with ⟨⟨⟩, _⟩ | ⟨reader, fieldPath, j, hreader, hj, ⟨⟩⟩
    exact ⟨f.definition, hmem, hset, rfl, hreaders _ hreader f fieldPath j hinput hj⟩
  refine .mk ?_ ?_ ?_
  · intro entry hmem
    obtain ⟨a, ha, hset, hname, _⟩ := hentry entry hmem
    exact ⟨a, ha, hset, hname⟩
  · intro a ha _ j hj
    obtain ⟨b, hb, _, hname, hvalue⟩ := hentry (a.name, j) (Keyed.mem_of_lookup hj)
    exact List.inj_on_of_nodup_map e.names_nodup hb ha hname ▸ hvalue
  · intro a ha hset hnone
    obtain ⟨f, hf, hfield⟩ := Outcome.exists_mem_right hall (List.mem_filter.mpr ⟨ha, hset⟩)
    obtain ⟨rfl, hinput⟩ := isInputField hfield
    obtain ⟨o, ho, hfread⟩ := Outcome.exists_mem_right hread hf
    rcases readGiven_cases hfread with ⟨_, hnull⟩ | ⟨_, _, j, _, _, rfl⟩
    · exact hinput.nullable hnull
    · have hmem : (f.definition.name, j) ∈ read.filterMap id :=
        List.mem_filterMap.mpr ⟨_, ho, rfl⟩
      have hne := List.lookup_eq_none_iff.mp hnone _ hmem
      simp at hne

/-- Every value is read to something accepted. By recursion on the value. -/
theorem readsItem_readElement {v : Value} (hv : v.IsData) :
    ReadsItem c (readElement c rootField v) := by
  induction v using Value.filter_induction with
  | other v hobject => exact readsItem_other hv hobject
  | object fields hfields hitems =>
    rintro ⟨definition, type, target⟩ path j hf h
    cases target with
    | scalar kind =>
      rw [readElement] at h
      cases kind <;> cases h
    | object e =>
      rw [readElement, Tracked.outcome_bind] at h
      obtain ⟨given, hgiven, h⟩ := Outcome.bind_eq_ok.mp h
      cases h
      obtain ⟨hrefers, htarget⟩ := hf.object e rfl
      refine .record hrefers htarget (accepted_readFields (readsValue_fieldReaders ?_ ?_) hgiven)
      · exact fun field hfield => hfields field hfield (hv.field hfield)
      · intro field hfield items heq item hitem
        exact hitems field hfield items heq item hitem ((heq ▸ hv.field hfield).item hitem)

/-- A value that is accepted gives data for a record of the entity. -/
theorem accepted_validate {e : Entity} {path : String} {v : Value} (hv : v.IsData)
    {given : Members} (h : (validate c rootField e path v).outcome = .ok given) :
    Accepted c e given := by
  cases v with
  | object fields =>
    rw [validate] at h
    refine accepted_readFields (readsValue_fieldReaders ?_ ?_) h
    · exact fun field hfield => readsItem_readElement (hv.field hfield)
    · intro field hfield items heq item hitem
      exact readsItem_readElement ((heq ▸ hv.field hfield).item hitem)
  | _ =>
    rw [validate] at h
    · cases h
    · nofun

end EntityGraph.Input
