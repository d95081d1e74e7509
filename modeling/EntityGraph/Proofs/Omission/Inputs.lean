import EntityGraph.Proofs.Input.Canonical
import EntityGraph.Proofs.Omission.Values

namespace EntityGraph

/-- Nothing is given under a key, or the same up to some nulls. -/
theorem OmitsFields.given? {service : Service} {place : Place} {fields fields' : Arguments}
    (h : OmitsFields service place fields fields') (key : String) :
    Input.given? fields key = none ∧ Input.given? fields' key = none ∨
      ∃ v v', Input.given? fields key = some v ∧ Input.given? fields' key = some v' ∧
        Omits service (place.inside service key) v v' := by
  induction fields generalizing fields' with
  | nil => cases h; exact Or.inl ⟨rfl, rfl⟩
  | cons field fields ih =>
    cases h with
    | omitted _ h => exact ih h
    | @kept _ name v v' _ fields' hv h =>
      rw [Input.given?, Input.given?, List.filter_cons, List.filter_cons, hv.isNull_eq]
      cases v.isNull with
      | true => exact ih h
      | false =>
        rw [Bool.not_false, if_pos rfl, if_pos rfl, List.lookup_cons, List.lookup_cons]
        cases hkey : key == name with
        | true => exact Or.inr ⟨v, v', rfl, rfl, beq_iff_eq.mp hkey ▸ hv⟩
        | false => exact ih h

namespace Input

variable {service : Service} {rootField : String} {v v' : Value}

/-- A value is read as another one is from which it differs by some nulls, where it stands at the
place of the field. -/
def ReadsAlike (service : Service) (rootField : String) (v : Value) : Prop :=
  ∀ place v' f path, Omits service place v v' → (∀ t, f.target = .object t → place = .input t) →
    readElement service.catalog rootField v' f path = readElement service.catalog rootField v f path

theorem readElement_scalar_of_object (c : Catalog) {f : InputField} {kind : ScalarKind}
    (hf : f.target = .scalar kind) (fields fields' : Arguments) (path : String) :
    readElement c rootField (.object fields') f path =
      readElement c rootField (.object fields) f path := by
  obtain ⟨definition, type, target⟩ := f
  cases hf
  rw [readElement, readElement]
  cases kind <;> rfl

theorem readsAlike_other (hv : v.isObject = false) : ReadsAlike service rootField v := by
  intro place v' f path h _
  obtain ⟨definition, type, target⟩ := f
  cases h with
  | same => rfl
  | list _ =>
    cases target with
    | scalar kind =>
      rw [readElement, readElement]
      cases kind <;> rfl
    | object t => rw [readElement, readElement] <;> rintro _ ⟨⟩
  | object _ _ => cases hv

/-- Members of a list are read alike. -/
theorem readElements_omits {items items' : List Value} {place : Place}
    (h : OmitsItems service place items items')
    (hitems : ∀ item ∈ items, ReadsAlike service rootField item) {f : InputField}
    (hf : ∀ t, f.target = .object t → place = .input t) (path : String) (i : Nat) :
    readElements service.catalog rootField items' f path i =
      readElements service.catalog rootField items f path i := by
  induction items generalizing items' i with
  | nil => cases h; rfl
  | cons item items ih =>
    rw [List.forall_mem_cons] at hitems
    cases h with
    | cons hv h =>
      rw [readElements, readElements, hv.isNull_eq, hitems.1 place _ f _ hv hf,
        ih h hitems.2 (i + 1)]

theorem readValue_omits (hv : ReadsAlike service rootField v)
    (hitems : ∀ items, v = .list items → ∀ item ∈ items, ReadsAlike service rootField item)
    {place : Place} (h : Omits service place v v') {f : InputField}
    (hf : ∀ t, f.target = .object t → place = .input t) (path : String) :
    readValue service.catalog rootField v' f path = readValue service.catalog rootField v f path := by
  have helement : ∀ path, readElement service.catalog rootField v' f path =
      readElement service.catalog rootField v f path := fun path => hv place v' f path h hf
  cases h with
  | same => rfl
  | list hlist =>
    rw [readValue, readValue, helement, readElements_omits hlist (hitems _ rfl) hf]
  | object _ _ => rw [readValue, readValue, helement, helement] <;> rintro _ ⟨⟩

/-- The value of a field stands at the place that is inside the object under the field's name. -/
theorem inside_of_inputFields {e : Entity} {fields : List InputField}
    (h : (Schema.inputFields service.catalog e).outcome = .ok fields) {f : InputField}
    (hf : f ∈ fields) {t : Entity} (ht : f.target = .object t) :
    (Place.input e).inside service f.name = .input t := by
  obtain ⟨a, ha, hfield⟩ := Outcome.exists_mem_left (Schema.inputFields_eq_ok.mp h).2 hf
  obtain ⟨rfl, hinput⟩ := isInputField hfield
  have hfound : e.attribute? f.name = some f.definition :=
    Entity.attribute?_eq_some.mpr ⟨(List.mem_filter.mp ha).1, rfl⟩
  obtain ⟨hk, htarget⟩ := hinput.object t ht
  rw [Place.inside, hfound]
  show Place.ofGiven service f.definition = _
  rw [Place.ofGiven, hk]
  show Place.ofEntity service .input f.definition.typeName = _
  rw [Place.ofEntity, htarget]

/-- A key that the input type knows is the name of one of its fields. -/
theorem all_ne_of_knows {e : Entity} {fields : List InputField}
    (h : (Schema.inputFields service.catalog e).outcome = .ok fields) {key : String}
    (hkey : (Place.input e).knows service key = true) :
    (fields.all fun f => f.name != key) = false := by
  obtain ⟨a, ha, hset⟩ := (Option.any_eq_true _ _).mp hkey
  obtain ⟨hmem, rfl⟩ := Entity.attribute?_eq_some.mp ha
  obtain ⟨f, hf, hfield⟩ := Outcome.exists_mem_right (Schema.inputFields_eq_ok.mp h).2
    (List.mem_filter.mpr ⟨hmem, hset⟩)
  obtain ⟨rfl, _⟩ := isInputField hfield
  refine List.all_eq_false.mpr ⟨f, hf, ?_⟩
  simp [InputField.name]

/-- The fields of an object are read as without some of its nulls. -/
theorem readFields_omits {e : Entity} {entries entries' : Arguments}
    (h : OmitsFields service (.input e) entries entries')
    (hentries : ∀ entry ∈ entries, ∀ place v' f path, Omits service place entry.2 v' →
      (∀ t, f.target = .object t → place = .input t) →
      readValue service.catalog rootField v' f path =
        readValue service.catalog rootField entry.2 f path) (path : String) :
    readFields service.catalog rootField entries'
        (fieldReaders service.catalog rootField entries') e path =
      readFields service.catalog rootField entries
        (fieldReaders service.catalog rootField entries) e path := by
  rw [readFields, readFields]
  refine Tracked.bind_congr fun fields hfields => ?_
  rw [Tracked.outcome_mapError] at hfields
  have hfields := Outcome.mapError_eq_ok.mp hfields
  have hgiven : ∀ f ∈ fields,
      readGiven rootField path (fieldReaders service.catalog rootField entries') f =
        readGiven rootField path (fieldReaders service.catalog rootField entries) f := by
    intro f hf
    rw [readGiven, readGiven, lookup_fieldReaders, lookup_fieldReaders]
    rcases h.given? f.name with ⟨hnone, hnone'⟩ | ⟨v, v', hsome, hsome', hv⟩
    · rw [hnone, hnone']
    · have hread := fun path => hentries _ (mem_of_given? hsome) _ v' f path hv fun t ht =>
        inside_of_inputFields hfields hf ht
      rw [hsome, hsome']
      dsimp only [Option.map_some]
      rw [hread]
  -- What is left out was known, so the first unknown key stays the first.
  have hknown : ∀ key, (Place.input e).knows service key = true →
      (fields.all fun f => f.name != key) = false := fun key hkey => all_ne_of_knows hfields hkey
  rcases h.find?_unknown hknown with ⟨hnone, hnone'⟩ | ⟨_, _, _, hsome, hsome'⟩
  · rw [hnone, hnone']
    dsimp only
    rw [Tracked.mapM_congr hgiven]
  · rw [hsome, hsome']

/-- Every value is read alike without its nulls. By recursion on the value. -/
theorem readsAlike_readElement (v : Value) : ReadsAlike service rootField v := by
  induction v using Value.filter_induction with
  | other v hv => exact readsAlike_other hv
  | object entries hfields hitems =>
    intro place v' f path h hplace
    cases h with
    | same => rfl
    | @object _ _ entries' _ h =>
      cases htarget : f.target with
      | scalar kind => exact readElement_scalar_of_object _ htarget entries entries' path
      | object t =>
        obtain rfl := hplace t htarget
        obtain ⟨definition, type, target⟩ := f
        cases htarget
        have hentries : ∀ entry ∈ entries, ∀ place v' f path, Omits service place entry.2 v' →
            (∀ t, f.target = .object t → place = .input t) →
            readValue service.catalog rootField v' f path =
              readValue service.catalog rootField entry.2 f path :=
          fun entry hentry place v' f path hv hf =>
            readValue_omits (hfields entry hentry) (hitems entry hentry) hv hf path
        rw [readElement, readElement, readFields_omits h hentries path]

/-- A value for a new record is accepted as without some of its nulls. -/
theorem validate_omits {e : Entity} (h : Omits service (.input e) v v') (path : String) :
    validate service.catalog rootField e path v' = validate service.catalog rootField e path v := by
  cases h with
  | same => rfl
  | list _ => rfl
  | object _ hfields =>
    rw [validate, validate]
    exact readFields_omits hfields (fun entry _ place v' f path hv hf =>
      readValue_omits (readsAlike_readElement entry.2)
        (fun _ _ item _ => readsAlike_readElement item) hv hf path) path

end Input

end EntityGraph
