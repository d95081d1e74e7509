import EntityGraph.Proofs.Input
import EntityGraph.Proofs.Input.Accepted

namespace EntityGraph.Input

def given? (entries : Arguments) (name : String) : Option Value :=
  (entries.filter fun entry => !entry.2.isNull).lookup name

inductive IsLiteral : ScalarKind → Value → Json → Prop
  | string (s : String) : IsLiteral .string (.string s) (.string s)
  | int {n : Int} : Decimal.fitsInt64 n = true → IsLiteral .int (.number (.integer n)) (.int n)
  | float (n : Number) : IsLiteral .float (.number n) (.number (.float n.toFloat))
  | boolean (b : Bool) : IsLiteral .boolean (.boolean b) (.bool b)
  | id (s : String) : IsLiteral .id (.string s) (.string s)
  | numberedId (n : Int) : IsLiteral .id (.number (.integer n)) (.string (toString n))

mutual

/-- A value of the input type of an entity, and its data in the form that is stored: the settable
attributes that are given, in the order of their declaration. -/
inductive Canonical (c : Catalog) : Entity → Value → Members → Prop
  | object {e : Entity} {entries : Arguments} {given : Members}
      (known : ∀ entry ∈ entries, ∃ a ∈ e.attributes, Schema.isSettable a = true ∧ a.name = entry.1)
      (fields : CanonicalFields c (e.attributes.filter Schema.isSettable) entries given) :
      Canonical c e (.object entries) given

/-- The data of some attributes: each that is given, and none that is not and may be left out. -/
inductive CanonicalFields (c : Catalog) : List Attribute → Arguments → Members → Prop
  | nil (entries : Arguments) : CanonicalFields c [] entries []
  | given {a : Attribute} {as : List Attribute} {entries : Arguments} {rest : Members} {v : Value}
      {j : Json} : given? entries a.name = some v → CanonicalField c a v j →
      CanonicalFields c as entries rest → CanonicalFields c (a :: as) entries ((a.name, j) :: rest)
  | omitted {a : Attribute} {as : List Attribute} {entries : Arguments} {rest : Members} :
      given? entries a.name = none → (a.repeating = true ∨ a.nullable = true) →
      CanonicalFields c as entries rest → CanonicalFields c (a :: as) entries rest

/-- The data of a value of an attribute: a list if the attribute repeats, of one item for a single
value. -/
inductive CanonicalField (c : Catalog) : Attribute → Value → Json → Prop
  | single {a : Attribute} {v : Value} {j : Json} (single : a.repeating = false)
      (item : CanonicalItem c a v j) : CanonicalField c a v j
  | wrapped {a : Attribute} {v : Value} {j : Json} (repeating : a.repeating = true)
      (item : CanonicalItem c a v j) : CanonicalField c a v (.array [j])
  | list {a : Attribute} {items : List Value} {js : List Json} (repeating : a.repeating = true)
      (all : CanonicalItems c a items js) : CanonicalField c a (.list items) (.array js)

inductive CanonicalItems (c : Catalog) : Attribute → List Value → List Json → Prop
  | nil (a : Attribute) : CanonicalItems c a [] []
  | cons {a : Attribute} {v : Value} {j : Json} {items : List Value} {js : List Json} :
      CanonicalItem c a v j → CanonicalItems c a items js →
      CanonicalItems c a (v :: items) (j :: js)

inductive CanonicalItem (c : Catalog) : Attribute → Value → Json → Prop
  | scalar {a : Attribute} {kind : ScalarKind} {v : Value} {j : Json}
      (isScalar : a.scalarKind? = some kind) (literal : IsLiteral kind v j) : CanonicalItem c a v j
  | record {a : Attribute} {t : Entity} {v : Value} {given : Members}
      (refers : a.scalarKind? = none) (target : c.entity? a.typeName = some t)
      (canonical : Canonical c t v given) : CanonicalItem c a v (.object given)

end

variable {c : Catalog} {S : Entity → Prop} {rootField : String}

/-- The literals of each kind, in both directions. -/
theorem scalar?_eq_some {kind : ScalarKind} {v : Value} {j : Json} :
    scalar? kind v = some j ↔ IsLiteral kind v j := by
  constructor
  · intro h
    unfold scalar? at h
    split at h
    · exact Option.some.inj h ▸ .string _
    · exact Option.some.inj h ▸ .id _
    · exact Option.some.inj h ▸ .numberedId _
    · next n =>
      -- An integer has to fit; a float is none.
      obtain ⟨i, hi, rfl⟩ := Option.map_eq_some_iff.mp h
      cases n with
      | integer n =>
        rw [Number.int64?] at hi
        split at hi
        · next hfits =>
          cases hi
          exact .int hfits
        · cases hi
      | float x => cases hi
    · exact Option.some.inj h ▸ .float _
    · exact Option.some.inj h ▸ .boolean _
    · cases h
  · intro h
    cases h with
    | int hfits =>
      rw [scalar?, Number.int64?, if_pos hfits]
      rfl
    | _ => rfl

/-- Data of a literal is a literal that stands for itself. -/
theorem IsLiteral.ofJson {kind : ScalarKind} {v : Value} {j : Json} (h : IsLiteral kind v j) :
    IsLiteral kind (.ofJson j) j := by
  cases h with
  | string s => exact .string s
  | int hfits => exact .int hfits
  | float n => exact .float (.float n.toFloat)
  | boolean b => exact .boolean b
  | id s => exact .id s
  | numberedId n => exact .id (toString n)

theorem CanonicalItem.not_list {a : Attribute} {items : List Value} {j : Json} :
    ¬CanonicalItem c a (.list items) j := by
  intro h
  cases h with
  | scalar _ hliteral => cases hliteral
  | record _ _ hcanonical => cases hcanonical

theorem CanonicalItem.not_null {a : Attribute} {j : Json} : ¬CanonicalItem c a .null j := by
  intro h
  cases h with
  | scalar _ hliteral => cases hliteral
  | record _ _ hcanonical => cases hcanonical

structure IsFieldOf (c : Catalog) (S : Entity → Prop) (a : Attribute) (f : InputField) : Prop where
  definition : f.definition = a
  isInputField : IsInputField c f
  takes : Takes S f
  nonNull : f.type.nonNull = true ↔ a.repeating = false ∧ a.nullable = false

theorem nonNull_inputTypeString (a : Attribute) (name : String) :
    (Schema.inputTypeString a name).nonNull = true ↔ a.repeating = false ∧ a.nullable = false := by
  cases hr : a.repeating <;> cases hn : a.nullable <;>
    simp [Schema.inputTypeString, hr, hn, TypeString.listOf, TypeString.named, TypeString.required]

theorem nonNull_inputField {a : Attribute} {f : InputField}
    (h : (Schema.inputField c a).outcome = .ok f) :
    f.type.nonNull = true ↔ a.repeating = false ∧ a.nullable = false := by
  cases hk : a.scalarKind? with
  | some kind =>
    rw [Schema.inputField_scalar hk] at h
    cases h
    exact nonNull_inputTypeString a kind.name
  | none =>
    rw [Schema.inputField_entity hk] at h
    obtain ⟨t, _, rfl⟩ := Outcome.map_eq_ok.mp h
    exact nonNull_inputTypeString a t.inputName

/-- Input types of entities have a field for each settable attribute. -/
theorem exists_fields (hS : Schema.ClosedInputs c S) {e : Entity} (he : S e) :
    ∃ fields, (Schema.inputFields c e).outcome = .ok fields ∧
      List.Forall₂ (IsFieldOf c S) (e.attributes.filter Schema.isSettable) fields := by
  obtain ⟨fields, hfields, htakes⟩ := hS e he
  have hall := (Schema.inputFields_eq_ok.mp hfields).2
  refine ⟨fields, hfields, (Outcome.forall₂_imp_of_mem hall.flip fun f hf a hfield => ?_).flip⟩
  obtain ⟨hdefinition, hinput⟩ := isInputField hfield
  exact ⟨hdefinition, hinput, htakes f hf, nonNull_inputField hfield⟩

def readValue (c : Catalog) (rootField : String) : Value → FieldReader Json
  | .list items, f, path =>
    if f.type.list then do return .array (← readElements c rootField items f path 0)
    else readElement c rootField (.list items) f path
  | value, f, path =>
    if f.type.list then do return .array [← readElement c rootField value f s!"{path}[0]"]
    else readElement c rootField value f path

/-- The readers of an object are those of what it gives. -/
theorem lookup_fieldReaders (c : Catalog) (rootField : String) (entries : Arguments)
    (name : String) : (fieldReaders c rootField entries).lookup name =
      (given? entries name).map (readValue c rootField) := by
  induction entries with
  | nil =>
    rw [fieldReaders]
    rfl
  | cons entry entries ih =>
    obtain ⟨key, value⟩ := entry
    -- A value that is not null has its reader in front of those of the rest.
    have hcons : value.isNull = false →
        fieldReaders c rootField ((key, value) :: entries) =
          (key, readValue c rootField value) :: fieldReaders c rootField entries := by
      intro hnull
      cases value with
      | null => cases hnull
      | list items =>
        rw [fieldReaders]
        rfl
      | _ =>
        rw [fieldReaders]
        · rfl
        all_goals simp
    cases hnull : value.isNull with
    | true =>
      obtain rfl := Value.eq_null_of_isNull hnull
      rw [fieldReaders, ih]
      rfl
    | false =>
      have hgiven : given? ((key, value) :: entries) name =
          ((key, value) :: entries.filter fun entry => !entry.2.isNull).lookup name := by
        rw [given?, List.filter_cons, hnull]
        rfl
      rw [hcons hnull, List.lookup_cons, ih, hgiven, List.lookup_cons]
      cases name == key <;> rfl

def ReadsAs (c : Catalog) (S : Entity → Prop) (rootField : String) (v : Value) : Prop :=
  ∀ a f path j, IsFieldOf c S a f →
    ((readElement c rootField v f path).outcome = .ok j ↔ CanonicalItem c a v j)

/-- A scalar is read exactly in its canonical form. -/
theorem readElement_scalar {a : Attribute} {f : InputField} {kind : ScalarKind}
    (hf : IsFieldOf c S a f) (htarget : f.target = .scalar kind) (v : Value) (path : String)
    (j : Json) : (readElement c rootField v f path).outcome = .ok j ↔ CanonicalItem c a v j := by
  obtain ⟨definition, type, target⟩ := f
  cases htarget
  have hk : a.scalarKind? = some kind := hf.definition ▸ hf.isInputField.scalar kind rfl
  -- The form is the literal's, since the attribute is a scalar.
  have hitem : CanonicalItem c a v j ↔ scalar? kind v = some j := by
    rw [scalar?_eq_some]
    constructor
    · intro h
      cases h with
      | scalar hk' hliteral => exact Option.some.inj (hk.symm.trans hk') ▸ hliteral
      | record hk' => cases hk.symm.trans hk'
    · exact .scalar hk
  rw [readElement, hitem]
  cases scalar? kind v with
  | some j' =>
    rw [Option.some.injEq]
    exact ⟨Except.ok.inj, congrArg _⟩
  | none =>
    constructor
    · rintro ⟨⟩
    · rintro ⟨⟩

/-- The same of everything that is no object. -/
theorem readsAs_other {v : Value} (hv : v.isObject = false) : ReadsAs c S rootField v := by
  intro a f path j hf
  cases htarget : f.target with
  | scalar kind => exact readElement_scalar hf htarget v path j
  | object t =>
    obtain ⟨definition, type, target⟩ := f
    cases htarget
    have hk : a.scalarKind? = none := hf.definition ▸ (hf.isInputField.object t rfl).1
    refine iff_of_false ?_ ?_
    · cases v with
      | object entries => cases hv
      | _ =>
        rw [readElement]
        · rintro ⟨⟩
        · rintro _ ⟨⟩
    · intro h
      cases h with
      | scalar hk' _ => cases hk.symm.trans hk'
      | record _ _ hcanonical => cases hcanonical; cases hv

/-- Members of a list, each in its own form. -/
theorem readElements_eq_ok {items : List Value}
    (hitems : ∀ item ∈ items, ReadsAs c S rootField item) {a : Attribute} {f : InputField}
    (hf : IsFieldOf c S a f) (hlist : f.type.list = true) (path : String) (i : Nat)
    (js : List Json) :
    (readElements c rootField items f path i).outcome = .ok js ↔ CanonicalItems c a items js := by
  induction items generalizing i js with
  | nil =>
    rw [readElements]
    constructor
    · rintro ⟨⟩
      exact .nil a
    · rintro ⟨⟩
      rfl
  | cons item items ih =>
    rw [List.forall_mem_cons] at hitems
    rw [readElements]
    cases hnull : item.isNull with
    | true =>
      -- Neither side takes null as a member.
      obtain rfl := Value.eq_null_of_isNull hnull
      rw [if_pos rfl, if_pos (hf.isInputField.elementNonNull hlist)]
      constructor
      · rintro ⟨⟩
      · rintro ⟨⟩
        exact (CanonicalItem.not_null ‹_›).elim
    | false =>
      rw [if_neg Bool.false_ne_true, Tracked.outcome_bind, Outcome.bind_eq_ok]
      constructor
      · rintro ⟨j, hj, h⟩
        rw [Tracked.outcome_bind, Outcome.bind_eq_ok] at h
        obtain ⟨rest, hrest, h⟩ := h
        cases h
        exact .cons ((hitems.1 a f _ j hf).mp hj) ((ih hitems.2 (i + 1) rest).mp hrest)
      · rintro (_ | ⟨hj, hrest⟩)
        refine ⟨_, (hitems.1 a f _ _ hf).mpr hj, ?_⟩
        rw [Tracked.outcome_bind, (ih hitems.2 (i + 1) _).mpr hrest]
        rfl

/-- A value at a field: null, list or single, as the field has it. -/
theorem readValue_eq_ok {v : Value} (hv : ReadsAs c S rootField v)
    (hitems : ∀ items, v = .list items → ∀ item ∈ items, ReadsAs c S rootField item)
    {a : Attribute} {f : InputField} (hf : IsFieldOf c S a f) (path : String) (j : Json) :
    (readValue c rootField v f path).outcome = .ok j ↔ CanonicalField c a v j := by
  have hrepeats : f.type.list = a.repeating := hf.definition ▸ hf.isInputField.list
  cases hlist : f.type.list with
  | false =>
    -- What does not repeat takes any value as an item.
    have hread : readValue c rootField v f path = readElement c rootField v f path := by
      unfold readValue
      split <;> rw [hlist, if_neg Bool.false_ne_true]
    have hsingle : a.repeating = false := hrepeats ▸ hlist
    rw [hread, hv a f path j hf]
    constructor
    · exact .single hsingle
    · intro h
      cases h with
      | single _ hitem => exact hitem
      | wrapped hrepeating _ | list hrepeating _ => cases hsingle.symm.trans hrepeating
  | true =>
    have hrepeating : a.repeating = true := hrepeats ▸ hlist
    unfold readValue
    split
    · next items =>
      rw [if_pos hlist, Tracked.outcome_bind, Outcome.bind_eq_ok]
      constructor
      · rintro ⟨js, hjs, ⟨⟩⟩
        exact .list hrepeating ((readElements_eq_ok (hitems items rfl) hf hlist path 0 js).mp hjs)
      · intro h
        cases h with
        | single hsingle _ => cases hrepeating.symm.trans hsingle
        | wrapped _ hitem => exact absurd hitem CanonicalItem.not_list
        | @list _ _ js _ hall =>
          exact ⟨js, (readElements_eq_ok (hitems items rfl) hf hlist path 0 js).mpr hall, rfl⟩
    · next hnot =>
      rw [if_pos hlist, Tracked.outcome_bind, Outcome.bind_eq_ok]
      constructor
      · rintro ⟨item, hitem, ⟨⟩⟩
        exact .wrapped hrepeating ((hv a f _ item hf).mp hitem)
      · intro h
        cases h with
        | single hsingle _ => cases hrepeating.symm.trans hsingle
        | @wrapped _ _ item _ hitem => exact ⟨item, (hv a f _ item hf).mpr hitem, rfl⟩
        | @list _ items _ _ _ => exact absurd rfl (hnot items)

/-- What is left out passes where it may be. -/
theorem readGiven_none {entries : Arguments} {a : Attribute} {f : InputField}
    (hf : IsFieldOf c S a f) (hgiven : given? entries a.name = none) (path : String)
    (entry : Option (String × Json)) :
    (readGiven rootField path (fieldReaders c rootField entries) f).outcome = .ok entry ↔
      (a.repeating = true ∨ a.nullable = true) ∧ entry = none := by
  have hname : f.name = a.name := congrArg Attribute.name hf.definition
  have hlookup : (fieldReaders c rootField entries).lookup f.name = none := by
    rw [lookup_fieldReaders, hname, hgiven]
    rfl
  rw [readGiven, hlookup]
  dsimp only
  by_cases hnonNull : f.type.nonNull = true
  · -- Needed and not given: neither side holds.
    obtain ⟨hrepeating, hnullable⟩ := hf.nonNull.mp hnonNull
    rw [if_pos hnonNull, hrepeating, hnullable]
    constructor
    · rintro ⟨⟩
    · rintro ⟨hmay | hmay, _⟩
      · cases hmay
      · cases hmay
  · have hmay : a.repeating = true ∨ a.nullable = true := by
      rw [hf.nonNull] at hnonNull
      revert hnonNull
      cases a.repeating <;> cases a.nullable <;> decide
    rw [if_neg hnonNull]
    exact ⟨fun h => ⟨hmay, (Except.ok.inj h).symm⟩, fun h => congrArg _ h.2.symm⟩

theorem readGiven_some {entries : Arguments} {a : Attribute} {f : InputField}
    (hf : IsFieldOf c S a f) {v : Value} (hgiven : given? entries a.name = some v)
    (hv : ∀ path j, (readValue c rootField v f path).outcome = .ok j ↔ CanonicalField c a v j)
    (path : String) (entry : Option (String × Json)) :
    (readGiven rootField path (fieldReaders c rootField entries) f).outcome = .ok entry ↔
      ∃ j, CanonicalField c a v j ∧ some (a.name, j) = entry := by
  have hname : f.name = a.name := congrArg Attribute.name hf.definition
  have hlookup : (fieldReaders c rootField entries).lookup f.name =
      some (readValue c rootField v) := by
    rw [lookup_fieldReaders, hname, hgiven]
    rfl
  rw [readGiven, hlookup]
  dsimp only
  rw [Tracked.outcome_bind, Outcome.bind_eq_ok, hname]
  refine exists_congr fun j => and_congr (hv _ j) ?_
  exact ⟨Except.ok.inj, congrArg _⟩

theorem mem_of_given? {entries : Arguments} {name : String} {v : Value}
    (h : given? entries name = some v) : (name, v) ∈ entries :=
  List.mem_of_mem_filter (Keyed.mem_of_lookup h)

/-- The fields of an object are read as the data of their attributes, one after the other. -/
theorem readRow_eq_ok {entries : Arguments} {as : List Attribute} {fields : List InputField}
    (hfields : List.Forall₂ (IsFieldOf c S) as fields)
    (hentries : ∀ entry ∈ entries, ∀ a f path j, IsFieldOf c S a f →
      ((readValue c rootField entry.2 f path).outcome = .ok j ↔ CanonicalField c a entry.2 j))
    (path : String) (given : Members) :
    (∃ read, (fields.mapM fun f =>
        (readGiven rootField path (fieldReaders c rootField entries) f).outcome) = .ok read ∧
      read.filterMap id = given) ↔ CanonicalFields c as entries given := by
  induction hfields generalizing given with
  | nil =>
    constructor
    · rintro ⟨read, ⟨⟩, rfl⟩
      exact .nil entries
    · rintro ⟨⟩
      exact ⟨[], rfl, rfl⟩
  | @cons a f as fields hf _ ih =>
    -- One attribute at a time: left out, or given and read in its form.
    cases hgiven : given? entries a.name with
    | none =>
      have hread : ∀ entry, (readGiven rootField path (fieldReaders c rootField entries) f).outcome =
          .ok entry ↔ (a.repeating = true ∨ a.nullable = true) ∧ entry = none :=
        readGiven_none hf hgiven path
      constructor
      · rintro ⟨read, hall, rfl⟩
        obtain ⟨entry, rest, hentry, hrest, rfl⟩ := Outcome.mapM_cons_eq_ok.mp hall
        obtain ⟨hmay, rfl⟩ := (hread entry).mp hentry
        exact .omitted hgiven hmay ((ih _).mp ⟨rest, hrest, rfl⟩)
      · intro h
        cases h with
        | given hsome => cases hgiven.symm.trans hsome
        | omitted _ hmay hrow =>
          obtain ⟨rest, hrest, rfl⟩ := (ih _).mpr hrow
          have hentry := (hread none).mpr ⟨hmay, rfl⟩
          exact ⟨none :: rest, Outcome.mapM_cons_eq_ok.mpr ⟨_, rest, hentry, hrest, rfl⟩, rfl⟩
    | some v =>
      have hread := readGiven_some hf hgiven
        (fun path j => hentries _ (mem_of_given? hgiven) a f path j hf) path
      constructor
      · rintro ⟨read, hall, rfl⟩
        obtain ⟨entry, rest, hentry, hrest, rfl⟩ := Outcome.mapM_cons_eq_ok.mp hall
        obtain ⟨j, hj, rfl⟩ := (hread entry).mp hentry
        exact .given hgiven hj ((ih _).mp ⟨rest, hrest, rfl⟩)
      · intro h
        cases h with
        | @given _ _ _ _ w j hsome hj hrow =>
          obtain rfl := Option.some.inj (hgiven.symm.trans hsome)
          obtain ⟨rest, hrest, rfl⟩ := (ih _).mpr hrow
          have hentry := (hread (some (a.name, j))).mpr ⟨j, hj, rfl⟩
          exact ⟨some (a.name, j) :: rest,
            Outcome.mapM_cons_eq_ok.mpr ⟨_, rest, hentry, hrest, rfl⟩, rfl⟩
        | omitted hnone => cases hgiven.symm.trans hnone

/-- An object is read if it names settable attributes only, and as the data of these. -/
theorem readFields_eq_ok (hS : Schema.ClosedInputs c S) {entries : Arguments}
    (hentries : ∀ entry ∈ entries, ∀ a f path j, IsFieldOf c S a f →
      ((readValue c rootField entry.2 f path).outcome = .ok j ↔ CanonicalField c a entry.2 j))
    {e : Entity} (he : S e) (path : String) (given : Members) :
    (readFields c rootField entries (fieldReaders c rootField entries) e path).outcome = .ok given ↔
      Canonical c e (.object entries) given := by
  obtain ⟨fields, hfields, hall⟩ := exists_fields hS he
  -- Unknown keys are looked for first, before any value is read.
  have hknown : entries.find? (fun entry => fields.all fun f => f.name != entry.1) = none ↔
      ∀ entry ∈ entries, ∃ a ∈ e.attributes, Schema.isSettable a = true ∧ a.name = entry.1 := by
    rw [List.find?_eq_none]
    refine forall₂_congr fun entry _ => ?_
    have hnames : fields.map InputField.name =
        (e.attributes.filter Schema.isSettable).map Attribute.name :=
      Outcome.map_eq_of_forall₂ hall fun _ _ _ hf => congrArg Attribute.name hf.definition
    have hmem : entry.1 ∈ fields.map InputField.name ↔
        ∃ a ∈ e.attributes, Schema.isSettable a = true ∧ a.name = entry.1 := by
      rw [hnames]
      simp [and_assoc]
    rw [← hmem]
    simp
  rw [readFields, Tracked.outcome_bind, Tracked.outcome_mapError,
    Outcome.bind_of_eq_ok (Outcome.mapError_eq_ok.mpr hfields)]
  cases hfind : entries.find? fun entry => fields.all fun f => f.name != entry.1 with
  | some entry =>
    constructor
    · rintro ⟨⟩
    · rintro ⟨known, _⟩
      cases hfind.symm.trans (hknown.mpr known)
  | none =>
    dsimp only
    rw [Tracked.outcome_bind, Tracked.outcome_mapM, Outcome.bind_eq_ok]
    have hrow := readRow_eq_ok hall hentries path given
    constructor
    · rintro ⟨read, hread, ⟨⟩⟩
      exact .object (hknown.mp hfind) (hrow.mp ⟨read, hread, rfl⟩)
    · intro h
      cases h with
      | object _ hgiven =>
        obtain ⟨read, hread, rfl⟩ := hrow.mpr hgiven
        exact ⟨read, hread, rfl⟩

/-- The reader and the canonical form agree on every value. By recursion on the value. -/
theorem readsAs_readElement (hS : Schema.ClosedInputs c S) (v : Value) :
    ReadsAs c S rootField v := by
  induction v using Value.filter_induction with
  | other v hv => exact readsAs_other hv
  | object entries hfields hitems =>
    intro a f path j hf
    cases htarget : f.target with
    | scalar kind => exact readElement_scalar hf htarget _ path j
    | object t =>
      have htake : S t := hf.takes t htarget
      obtain ⟨definition, type, target⟩ := f
      cases htarget
      obtain ⟨hk, ht⟩ := hf.isInputField.object t rfl
      obtain rfl := hf.definition
      -- The values inside are smaller, and the reader is told of them by induction.
      have hentries : ∀ entry ∈ entries, ∀ a f path j, IsFieldOf c S a f →
          ((readValue c rootField entry.2 f path).outcome = .ok j ↔ CanonicalField c a entry.2 j) :=
        fun entry hentry a f path j hf =>
          readValue_eq_ok (hfields entry hentry) (hitems entry hentry) hf path j
      have hread := readFields_eq_ok hS hentries htake path
      rw [readElement, Tracked.outcome_bind, Outcome.bind_eq_ok]
      constructor
      · rintro ⟨given, hgiven, ⟨⟩⟩
        exact .record hk ht ((hread given).mp hgiven)
      · intro h
        cases h with
        | scalar hk' _ => cases hk.symm.trans hk'
        | @record _ t' _ given _ ht' hcanonical =>
          obtain rfl := Option.some.inj (ht.symm.trans ht')
          exact ⟨given, (hread given).mpr hcanonical, rfl⟩

/-- A value is accepted as the data that it has in the form that is stored, and no other. -/
theorem validate_eq_ok (hS : Schema.ClosedInputs c S) {e : Entity} (he : S e) (path : String)
    (v : Value) (given : Members) :
    (validate c rootField e path v).outcome = .ok given ↔ Canonical c e v given := by
  cases v with
  | object entries =>
    rw [validate]
    exact readFields_eq_ok hS (fun entry _ a f path j hf =>
      readValue_eq_ok (readsAs_readElement hS entry.2)
        (fun _ _ item _ => readsAs_readElement hS item) hf path j) he path given
  | _ =>
    rw [validate]
    · constructor
      · rintro ⟨⟩
      · rintro ⟨⟩
    · rintro _ ⟨⟩

end EntityGraph.Input
