import EntityGraph.Proofs.Filter.Language

/-!
How filters fail to be read. The first field that fails decides the error, and a filter below a
repeating attribute can be refused for its shape before the fields after it are looked at. Main
statement: a filter with a format error is reported as too complex exactly when such a refusal
comes first.
-/

namespace EntityGraph.Filter

inductive Fails (c : Catalog) (e : Entity) (path : String) : String → Value → Error → Prop
  | join {value : Value} {err : FilterError} : readJoin value = .error err →
      Fails c e path joinKey value (.filter err)
  | notChildren {value : Value} : value.isNull = false → value.isObject = false →
      (∀ items, value ≠ .list items) → Fails c e path childrenKey value (.filter .invalidChildren)
  | child {fields : Arguments} {err : Error} : readObject c e path (.object fields) = .error err →
      Fails c e path childrenKey (.object fields) err
  | item {left right : List Value} {item : Value} {err : Error} :
      (∀ v ∈ left, ∃ t, readObject c e "" v = .ok t) → item.isObject = true →
      readObject c e path item = .error err →
      Fails c e path childrenKey (.list (left ++ item :: right)) err
  | notItem {left right : List Value} {item : Value} :
      (∀ v ∈ left, ∃ t, readObject c e "" v = .ok t) → item.isObject = false →
      Fails c e path childrenKey (.list (left ++ item :: right)) (.filter .invalidChildren)
  | unknown {key : String} {value : Value} : key ≠ joinKey → key ≠ childrenKey →
      e.attribute? key = none →
      Fails c e path key value (.filter (.unknownAttribute e.name (path ++ key)))
  | constraint {key : String} {value : Value} {a : Attribute} {kind : ScalarKind}
      {err : FilterError} : Constrained e key value a → a.scalarKind? = some kind →
      readConstraint kind (path ++ key) value = .error err →
      Fails c e path key value (.filter err)
  | unregistered {key : String} {value : Value} {a : Attribute} : Constrained e key value a →
      a.scalarKind? = none → c.entity? a.typeName = none →
      Fails c e path key value (.schema (.unknownEntity a.typeName))
  | below {key : String} {value : Value} {a : Attribute} {target : Entity} {err : Error} :
      Constrained e key value a → a.scalarKind? = none → c.entity? a.typeName = some target →
      readObject c target (path ++ key ++ ".") value = .error err → Fails c e path key value err
  | shape {key : String} {value : Value} {a : Attribute} {target : Entity}
      {t : FilterTree Constraint} : Constrained e key value a → a.scalarKind? = none →
      c.entity? a.typeName = some target → a.repeating = true →
      readObject c target "" value = .ok t → t.perElement? = none →
      Fails c e path key value (.filter .unsupportedShape)

/-- Whether a filter is read does not depend on the path at which it stands. -/
theorem read_at_path {c : Catalog} {e : Entity} {v : Value} (path : String) :
    (∃ t, readObject c e path v = .ok t) ↔ ∃ t, readObject c e "" v = .ok t := by
  constructor
  · intro h
    obtain ⟨_, h⟩ := h
    obtain ⟨t, ht, _⟩ := readObject_below_eq_ok.mp h
    exact ⟨t, ht⟩
  · intro h
    obtain ⟨t, ht⟩ := h
    exact ⟨_, readObject_below_eq_ok.mpr ⟨t, ht, rfl⟩⟩

theorem readChild_isOk {c : Catalog} {e : Entity} {path : String} {item : Value} :
    (∃ t, readChild c e path item = .ok t) ↔ ∃ t, readObject c e "" item = .ok t := by
  rw [← read_at_path path]
  simp only [readChild_eq_ok]

/-- Child filters fail as the first one that fails, or because they are no objects. -/
theorem readBranches_eq_error {c : Catalog} {e : Entity} {path : String} {value : Value}
    {err : Error} : readBranches c e path value = .error err →
      Fails c e path childrenKey value err := by
  intro h
  cases value with
  | null => cases h
  | list items =>
    -- The first branch that fails, with those before it read.
    obtain ⟨left, item, right, rfl, hleft, h⟩ := Outcome.mapM_eq_error.mp h
    simp only [readChild_isOk] at hleft
    rw [readChild] at h
    cases hobj : item.isObject with
    | true =>
      rw [hobj, if_pos rfl] at h
      exact .item hleft hobj h
    | false =>
      rw [hobj] at h
      obtain rfl := Except.error.inj h
      exact .notItem hleft hobj
  | object fields => exact .child (Outcome.map_eq_error.mp h)
  | _ =>
    obtain rfl := Except.error.inj h
    exact .notChildren rfl rfl (by simp)

/-- A filter on an attribute fails as it does alone, or because its shape is refused. -/
theorem readAttribute_eq_error {c : Catalog} {e : Entity} {path key : String} {value : Value}
    {a : Attribute} {err : Error} (hcon : Constrained e key value a)
    (h : readAttribute c a (path ++ key) value = .error err) : Fails c e path key value err := by
  cases hk : a.scalarKind? with
  | some kind =>
    rw [readAttribute_scalar c _ value hk, Outcome.map_eq_error, Outcome.mapError_eq_error] at h
    obtain ⟨err', h, rfl⟩ := h
    exact .constraint hcon hk h
  | none =>
    cases ht : c.entity? a.typeName with
    | none =>
      have hrequire : c.require a.typeName = .error (.unknownEntity a.typeName) :=
        Catalog.require_eq_error.mpr ⟨ht, rfl⟩
      rw [readAttribute, hk] at h
      simp only [hrequire] at h
      obtain rfl := Except.error.inj h
      exact .unregistered hcon hk ht
    | some target =>
      rw [readAttribute_entity _ value hk ht, Outcome.bind_eq_error] at h
      rcases h with h | ⟨t', hread, h⟩
      · exact .below hcon hk ht h
      · obtain ⟨err', hbelow, rfl⟩ := Outcome.mapError_eq_error.mp h
        obtain ⟨hrep, hnone, rfl⟩ := belowAttribute_eq_error.mp hbelow
        obtain ⟨t, ht', rfl⟩ := readObject_below_eq_ok.mp hread
        -- The path changes the leaves only, so the tree is refused without it as well.
        rw [FilterTree.perElement?_map, Option.map_eq_none_iff] at hnone
        exact .shape hcon hk ht hrep ht' hnone

/-- The error of a field that is not read. -/
theorem fails_of_readField {c : Catalog} {e : Entity} {path key : String} {value : Value}
    {err : Error} (h : readField c e path (key, value) = .error err) :
    Fails c e path key value err := by
  by_cases hj : key = joinKey
  · subst hj
    rw [readField_join, Outcome.map_eq_error, Outcome.mapError_eq_error] at h
    obtain ⟨err', h, rfl⟩ := h
    exact .join h
  · by_cases hc : key = childrenKey
    · subst hc
      rw [readField_children] at h
      exact readBranches_eq_error h
    · cases ha : e.attribute? key with
      | none =>
        -- The look-up is before anything else, so the value does not matter.
        have hfound : filterable e path key = .error (.unknownAttribute e.name (path ++ key)) := by
          rw [filterable, ha]
        simp only [readField, hj, hc, ↓reduceIte, hfound] at h
        obtain rfl := Except.error.inj h
        exact .unknown hj hc ha
      | some a =>
        cases hn : value.isNull with
        | true =>
          obtain rfl := Value.eq_null_of_isNull hn
          rw [readField_null c path hj hc ha] at h
          cases h
        | false =>
          have hcon : Constrained e key value a := ⟨hj, hc, ha, hn⟩
          rw [readField_constrained c path hcon] at h
          exact readAttribute_eq_error hcon h

/-- An object that is not read fails at the first of its fields that does. -/
theorem readObject_eq_error {c : Catalog} {e : Entity} {path : String} {fields : Arguments}
    {err : Error} (h : readObject c e path (.object fields) = .error err) :
    ∃ before key value after, fields = before ++ (key, value) :: after ∧
      (∃ t, readObject c e "" (.object before) = .ok t) ∧ Fails c e path key value err := by
  rw [readObject_object, Outcome.map_eq_error, Outcome.mapM_eq_error] at h
  obtain ⟨before, ⟨key, value⟩, after, rfl, hbefore, h⟩ := h
  refine ⟨before, key, value, after, rfl, ?_, fails_of_readField h⟩
  rw [← read_at_path path, readObject_object, Outcome.map_isOk]
  exact Outcome.mapM_isOk.mpr hbefore

/-- An object fails with the error of a field when the fields before it are read. -/
theorem readObject_of_readField {c : Catalog} {e : Entity} {path : String}
    {before after : Arguments} {field : String × Value} {err : Error}
    (hbefore : ∃ t, readObject c e "" (.object before) = .ok t)
    (h : readField c e path field = .error err) :
    readObject c e path (.object (before ++ field :: after)) = .error err := by
  rw [← read_at_path path, readObject_object, Outcome.map_isOk, Outcome.mapM_isOk] at hbefore
  rw [readObject_object, Outcome.map_eq_error]
  exact Outcome.mapM_eq_error.mpr ⟨before, field, after, rfl, hbefore, h⟩

/-- The error names the field, the operator and the type that was looked for. -/
theorem readOperand_error {kind : ScalarKind} {field : String} {op : Operator} {v : Value}
    {err : FilterError} (h : readOperand kind field op v = .error err) :
    err = .invalidOperand field op.key kind := by
  rw [readOperand] at h
  cases ho : operand? kind v with
  | some x => simp [ho] at h
  | none => simpa [ho, eq_comm] using h

theorem readText_error {field : String} {op : Operator} {v : Value} {err : FilterError}
    (h : readText field op v = .error err) : err = .invalidOperand field op.key .string := by
  cases v with
  | string s => cases h
  | _ => exact (Except.error.inj h).symm

theorem readFlag_error {field : String} {op : Operator} {v : Value} {err : FilterError}
    (h : readFlag field op v = .error err) : err = .invalidOperand field op.key .boolean := by
  cases v with
  | boolean b => cases h
  | _ => exact (Except.error.inj h).symm

theorem readOperands_error {kind : ScalarKind} {field : String} {op : Operator} {v : Value}
    {err : FilterError} (h : readOperands kind field op v = .error err) :
    err = .invalidOperand field op.key kind := by
  cases v with
  | list items =>
    obtain ⟨_, _, _, _, _, h⟩ := Outcome.mapM_eq_error.mp h
    exact readOperand_error h
  | _ => exact readOperand_error (Outcome.map_eq_error.mp h)

/-- The operand of an operator is at fault, or the operator is one end of a range alone. -/
theorem readCondition_error {kind : ScalarKind} {field : String} {op : Operator} {v : Value}
    {err : FilterError} (h : readCondition kind field op v = .error err) :
    err = .incompleteRange field ∨ ∃ expected, err = .invalidOperand field op.key expected := by
  cases op with
  | lower | upper => exact Or.inl (Except.error.inj h).symm
  | like | findInSet => exact Or.inr ⟨_, readText_error (Outcome.map_eq_error.mp h)⟩
  | isIn | notIn => exact Or.inr ⟨_, readOperands_error (Outcome.map_eq_error.mp h)⟩
  | null | notNull => exact Or.inr ⟨_, readFlag_error (Outcome.map_eq_error.mp h)⟩
  | _ => exact Or.inr ⟨_, readOperand_error (Outcome.map_eq_error.mp h)⟩

theorem readRange_error {kind : ScalarKind} {field : String} {lower upper : Value}
    {err : FilterError} (h : readRange kind field lower upper = .error err) :
    ∃ op : Operator, err = .invalidOperand field op.key kind := by
  rcases Outcome.bind_eq_error.mp h with h | ⟨_, _, h⟩
  · exact ⟨.lower, readOperand_error h⟩
  · rcases Outcome.bind_eq_error.mp h with h | ⟨_, _, h⟩
    · exact ⟨.upper, readOperand_error h⟩
    · cases h

/-- The error names the field and the first key that is no operator. -/
theorem readOperators_error {kind : ScalarKind} {field : String} {entries : Arguments}
    {err : FilterError} (h : readOperators kind field entries = .error err) :
    ∃ key, err = .unknownOperator field key := by
  obtain ⟨_, ⟨key, value⟩, _, _, _, h⟩ := Outcome.mapM_eq_error.mp h
  cases hk : Operator.ofKey? kind key with
  | some op => simp [hk] at h
  | none => exact ⟨key, by simpa [hk, eq_comm] using h⟩

/-- No constraint on a scalar is too complex. -/
theorem readConstraint_error {kind : ScalarKind} {field : String} {v : Value} {err : FilterError}
    (h : readConstraint kind field v = .error err) : err ≠ .unsupportedShape := by
  cases v with
  | object entries =>
    rcases Outcome.bind_eq_error.mp h with h | ⟨operators, _, h⟩
    · obtain ⟨key, rfl⟩ := readOperators_error h
      simp
    · rcases Outcome.bind_eq_error.mp h with h | ⟨_, _, h⟩
      · rw [readCombination.eq_def] at h
        split at h
        · obtain ⟨op, rfl⟩ := readRange_error h
          simp
        · obtain ⟨op, rfl⟩ := readRange_error h
          simp
        · obtain rfl | ⟨expected, rfl⟩ := readCondition_error h <;> simp
        · obtain rfl := Except.error.inj h
          simp
      · cases h
  | _ =>
    obtain rfl := Except.error.inj h
    simp

/-- The error names what stands in the place of the join. -/
theorem readJoin_error {v : Value} {err : FilterError} (h : readJoin v = .error err) :
    err = .invalidJoin v.text := by
  unfold readJoin at h
  dsimp only at h
  split at h
  · cases h
  · exact (Except.error.inj h).symm

inductive Faulty (c : Catalog) : Entity → Value → Prop
  | notObject {e : Entity} {v : Value} : v.isObject = false → Faulty c e v
  | join {e : Entity} {fields : Arguments} {value : Value} : (joinKey, value) ∈ fields →
      ¬ NamesJoin value → Faulty c e (.object fields)
  | notChildren {e : Entity} {fields : Arguments} {value : Value} :
      (childrenKey, value) ∈ fields → value.isNull = false → value.isObject = false →
      (∀ items, value ≠ .list items) → Faulty c e (.object fields)
  | unknown {e : Entity} {fields : Arguments} {key : String} {value : Value} :
      (key, value) ∈ fields → key ≠ joinKey → key ≠ childrenKey → e.attribute? key = none →
      Faulty c e (.object fields)
  | constraint {e : Entity} {fields : Arguments} {key : String} {value : Value} {a : Attribute}
      {kind : ScalarKind} : (key, value) ∈ fields → Constrained e key value a →
      a.scalarKind? = some kind → ¬ IsConstraint kind value → Faulty c e (.object fields)
  | part {e target : Entity} {fields : Arguments} {a : Option Attribute} {v : Value} :
      Part c e fields a target v → Faulty c target v → Faulty c e (.object fields)

/-- A filter below a repeating attribute is read and is neither one constraint nor a disjunction
of constraints, and all that stands before it is read. -/
inductive Refused (c : Catalog) : Entity → Value → Prop
  | shape {e target : Entity} {before after : Arguments} {key : String} {value : Value}
      {a : Attribute} {t : FilterTree Constraint} :
      (∃ s, readObject c e "" (.object before) = .ok s) → Constrained e key value a →
      a.scalarKind? = none → c.entity? a.typeName = some target → a.repeating = true →
      readObject c target "" value = .ok t → t.perElement? = none →
      Refused c e (.object (before ++ (key, value) :: after))
  | entity {e target : Entity} {before after : Arguments} {key : String} {value : Value}
      {a : Attribute} : (∃ s, readObject c e "" (.object before) = .ok s) →
      Constrained e key value a → a.scalarKind? = none → c.entity? a.typeName = some target →
      Refused c target value → Refused c e (.object (before ++ (key, value) :: after))
  | child {e : Entity} {before after fields : Arguments} :
      (∃ s, readObject c e "" (.object before) = .ok s) → Refused c e (.object fields) →
      Refused c e (.object (before ++ (childrenKey, .object fields) :: after))
  | item {e : Entity} {before after : Arguments} {left right : List Value} {item : Value} :
      (∃ s, readObject c e "" (.object before) = .ok s) →
      (∀ v ∈ left, ∃ t, readObject c e "" v = .ok t) → Refused c e item →
      Refused c e (.object (before ++ (childrenKey, .list (left ++ item :: right)) :: after))

theorem isObject_of_refused {c : Catalog} {e : Entity} {v : Value} (h : Refused c e v) :
    v.isObject = true := by
  cases h <;> rfl

/-- What has a format error is not read. -/
theorem not_read_of_faulty {c : Catalog} {e : Entity} {v : Value} (h : Faulty c e v) :
    ¬ ∃ t, readObject c e "" v = .ok t := by
  -- A field that gives nothing keeps the object around it from being read.
  have hfield : ∀ {e : Entity} {fields : Arguments} {key : String} {value : Value},
      (key, value) ∈ fields → (∀ ts, ¬ Gives c e key value ts) →
      ¬ ∃ t, readObject c e "" (.object fields) = .ok t := by
    intro e fields key value hf hno hread
    obtain ⟨t, ht⟩ := hread
    obtain ⟨trees, htrees, _⟩ := readObject_gives.mp ht
    obtain ⟨ts, _, hg⟩ := htrees.of_field hf
    exact hno ts hg
  induction h with
  | notObject hobj =>
    intro hread
    obtain ⟨t, ht⟩ := hread
    obtain ⟨fields, rfl⟩ := isObject_of_readObject ht
    cases hobj
  | join hf hnames =>
    apply hfield hf
    intro ts hg
    rw [← readField_eq_ok, readField_join, Outcome.map_eq_ok] at hg
    obtain ⟨join, hread, _⟩ := hg
    exact hnames (readJoin_isOk.mp ⟨join, Outcome.mapError_eq_ok.mp hread⟩)
  | @notChildren _ _ value hf hnull hobj hlist =>
    apply hfield hf
    intro ts hg
    rw [← readField_eq_ok, readField_children] at hg
    cases value with
    | null => cases hnull
    | object inner => cases hobj
    | list items => exact hlist items rfl
    | _ => cases hg
  | unknown hf hj hc hnone =>
    apply hfield hf
    intro ts hg
    rw [← readField_eq_ok, readField, if_neg hj, if_neg hc] at hg
    obtain ⟨a, ha, _⟩ := Outcome.bind_eq_ok.mp hg
    rw [Outcome.mapError_eq_ok, filterable_eq_ok, hnone] at ha
    cases ha
  | @constraint _ _ key value _ _ hf hcon hk hno =>
    apply hfield hf
    intro ts hg
    rw [← readField_eq_ok, readField_constrained c "" hcon, readAttribute_scalar c _ value hk,
      Outcome.map_eq_ok] at hg
    obtain ⟨k, hread, _⟩ := hg
    exact hno ((readConstraint_isOk _).mp ⟨k, Outcome.mapError_eq_ok.mp hread⟩)
  | part hp _ ih =>
    intro hread
    obtain ⟨t, ht⟩ := hread
    exact ih (read_of_part ht hp)

/-- A filter that is refused is not read, whatever its path. -/
theorem error_of_refused {c : Catalog} {e : Entity} {v : Value} (h : Refused c e v) :
    ∀ path, readObject c e path v = .error (.filter .unsupportedShape) := by
  -- By induction on where the refusal stands: nothing before it fails, so it is what the object
  -- around it fails with.
  induction h with
  | @shape e target before after key value a t hbefore hcon hk ht hrep hread hnone =>
    intro path
    apply readObject_of_readField hbefore
    have hbelow := readObject_below_eq_ok.mpr
      ⟨t, hread, (rfl : t.map (Constraint.below (path ++ key ++ ".")) = _)⟩
    have herr : belowAttribute a (t.map (Constraint.below (path ++ key ++ "."))) =
        .error .unsupportedShape :=
      belowAttribute_eq_error.mpr ⟨hrep, by rw [FilterTree.perElement?_map, hnone]; rfl, rfl⟩
    rw [readField_constrained c path hcon, readAttribute_entity _ value hk ht, hbelow]
    exact Outcome.mapError_eq_error.mpr ⟨_, herr, rfl⟩
  | entity hbefore hcon hk ht _ ih =>
    intro path
    apply readObject_of_readField hbefore
    rw [readField_constrained c path hcon, readAttribute_entity _ _ hk ht, ih]
    rfl
  | child hbefore _ ih =>
    intro path
    apply readObject_of_readField hbefore
    rw [readField_children, readBranches, ih]
    rfl
  | @item e before after left right item hbefore hleft hrefused ih =>
    intro path
    apply readObject_of_readField hbefore
    rw [readField_children, readBranches]
    refine Outcome.mapM_eq_error.mpr ⟨left, item, right, rfl, ?_, ?_⟩
    · intro v hv
      exact readChild_isOk.mpr (hleft v hv)
    · rw [readChild, if_pos (isObject_of_refused hrefused)]
      exact ih path

/-- A filter that is too complex to be read is refused. -/
theorem refused_of_error {c : Catalog} {v : Value} : ∀ (e : Entity) (path : String),
    readObject c e path v = .error (.filter .unsupportedShape) → Refused c e v := by
  induction v using Value.filter_induction with
  | other v hv =>
    intro e path h
    cases v with
    | object fields => cases hv
    | _ => simp [readObject] at h
  | object fields hfields hitems =>
    intro e path h
    obtain ⟨before, key, value, after, rfl, hbefore, hfails⟩ := readObject_eq_error h
    have hf : (key, value) ∈ before ++ (key, value) :: after := List.mem_append_cons_self
    have hfield := hfields _ hf
    cases hfails with
    | join hread => cases readJoin_error hread
    | child hread => exact .child hbefore (hfield e path hread)
    | item hleft _ hread =>
      have hi := hitems _ hf _ rfl _ List.mem_append_cons_self
      exact .item hbefore hleft (hi e path hread)
    -- Constraints fail with format errors only.
    | constraint _ _ hread => exact absurd rfl (readConstraint_error hread)
    | below hcon hk ht hread => exact .entity hbefore hcon hk ht (hfield _ _ hread)
    | shape hcon hk ht hrep hread hnone => exact .shape hbefore hcon hk ht hrep hread hnone

/-- A filter that is not read has a fault of its own, or leads to an entity that is not there. -/
theorem failsIn_readObject {c : Catalog} {P : Error → Prop} (hfilter : ∀ fault, P (.filter fault))
    (hschema : ∀ fault, P (.schema fault)) {v : Value} : ∀ (e : Entity) (path : String),
    Outcome.FailsIn (readObject c e path v) P := by
  induction v using Value.filter_induction with
  | other v hv =>
    intro e path err h
    cases v with
    | object fields => cases hv
    | _ =>
      simp only [readObject] at h
      exact Except.error.inj h ▸ hfilter _
  | object fields hfields hitems =>
    intro e path err h
    obtain ⟨before, key, value, after, rfl, _, hfails⟩ := readObject_eq_error h
    have hf : (key, value) ∈ before ++ (key, value) :: after := List.mem_append_cons_self
    cases hfails with
    | join | notChildren | notItem | unknown | constraint | shape => exact hfilter _
    | unregistered => exact hschema _
    | child hread => exact hfields _ hf e path _ hread
    | item _ _ hread => exact hitems _ hf _ rfl _ List.mem_append_cons_self e path _ hread
    | below _ _ _ hread => exact hfields _ hf _ _ _ hread

/-- Where the entities that an entity leads to are all there, a filter on it that is not read is
too complex or has a format error. -/
theorem error_of_closedOn {c : Catalog} {S : Entity → Prop} (hS : c.ClosedOn S) {v : Value} :
    ∀ (e : Entity) (path : String) (err : Error), S e → readObject c e path v = .error err →
      ∃ fault, err = .filter fault ∧ (fault = .unsupportedShape ∨ Faulty c e v) := by
  induction v using Value.filter_induction with
  | other v hv =>
    intro e path err _ h
    cases v with
    | object fields => cases hv
    | _ =>
      simp only [readObject] at h
      exact ⟨_, (Except.error.inj h).symm, Or.inr (.notObject rfl)⟩
  | object fields hfields hitems =>
    intro e path err he h
    -- What fails is one field, and it fails in one of ten ways.
    obtain ⟨before, key, value, after, rfl, _, hfails⟩ := readObject_eq_error h
    have hf : (key, value) ∈ before ++ (key, value) :: after := List.mem_append_cons_self
    have hfield := hfields _ hf
    cases hfails with
    | join hread =>
      refine ⟨_, rfl, Or.inr (.join hf ?_)⟩
      intro hnames
      obtain ⟨join, hjoin⟩ := readJoin_isOk.mpr hnames
      rw [hread] at hjoin
      cases hjoin
    | notChildren hnull hobj hlist => exact ⟨_, rfl, Or.inr (.notChildren hf hnull hobj hlist)⟩
    | child hread =>
      obtain ⟨fault, rfl, hfault⟩ := hfield e path err he hread
      exact ⟨fault, rfl, hfault.imp_right (.part (.child hf))⟩
    | item _ _ hread =>
      have hi := hitems _ hf _ rfl _ List.mem_append_cons_self
      obtain ⟨fault, rfl, hfault⟩ := hi e path err he hread
      exact ⟨fault, rfl, hfault.imp_right (.part (.item hf List.mem_append_cons_self))⟩
    | notItem _ hobj =>
      exact ⟨_, rfl, Or.inr (.part (.item hf List.mem_append_cons_self) (.notObject hobj))⟩
    | unknown hj hch hnone => exact ⟨_, rfl, Or.inr (.unknown hf hj hch hnone)⟩
    | constraint hcon hk hread =>
      refine ⟨_, rfl, Or.inr (.constraint hf hcon hk ?_)⟩
      intro hconstraint
      obtain ⟨k, hk⟩ := (readConstraint_isOk (path ++ key)).mpr hconstraint
      rw [hread] at hk
      cases hk
    | unregistered hcon hk hnone =>
      -- This way is not open on a closed set.
      obtain ⟨target, ht, _⟩ := hS.refers he _ (Entity.attribute?_eq_some.mp hcon.found).1 hk
      rw [hnone] at ht
      cases ht
    | below hcon hk ht hread =>
      have htarget := hS.target he (Entity.attribute?_eq_some.mp hcon.found).1 hk ht
      obtain ⟨fault, rfl, hfault⟩ := hfield _ _ err htarget hread
      exact ⟨fault, rfl, hfault.imp_right (.part (.below hf hcon hk ht))⟩
    | shape _ _ _ _ _ _ => exact ⟨_, rfl, Or.inl rfl⟩

/-- Over a closed catalog a filter fails for its shape or for a fault in its format. -/
theorem error_of_closed {c : Catalog} (hc : c.Closed) {v : Value} (e : Entity) (path : String)
    (err : Error) (he : e ∈ c.entities) (h : readObject c e path v = .error err) :
    ∃ fault, err = .filter fault ∧ (fault = .unsupportedShape ∨ Faulty c e v) :=
  error_of_closedOn hc.closedOn e path err he h

theorem compile_of_readObject_error {c : Catalog} {e : Entity} {v : Value} {err : Error}
    (hv : v ≠ .null) (h : readObject c e "" v = .error err) : compile c e v = .error err :=
  compile_eq_error.mpr (Or.inl ⟨hv, h⟩)

/-- A filter with a format error is reported as too complex exactly when the filter below a
repeating attribute is refused first. Over a catalog whose entities are all there, every other
filter with a format error is reported with a format error, and a filter without one is compiled
or is too complex. -/
theorem compile_faulty {c : Catalog} {e : Entity} {v : Value} (hv : v ≠ .null) :
    (Faulty c e v → (compile c e v = .error (.filter .unsupportedShape) ↔ Refused c e v)) ∧
    (c.Closed → e ∈ c.entities →
      (Faulty c e v → ¬ Refused c e v → ∃ fault, fault ≠ .unsupportedShape ∧
        compile c e v = .error (.filter fault)) ∧
      (¬ Faulty c e v → (∃ groups, compile c e v = .ok groups) ∨
        compile c e v = .error (.filter .unsupportedShape))) := by
  refine ⟨?_, fun hc he => ⟨?_, ?_⟩⟩
  · intro hfaulty
    constructor
    · intro h
      rcases compile_eq_error.mp h with ⟨_, hread⟩ | ⟨t, ht, _⟩
      · exact refused_of_error e "" hread
      · exact absurd ⟨t, ht⟩ (not_read_of_faulty hfaulty)
    · intro hrefused
      exact compile_of_readObject_error hv (error_of_refused hrefused "")
  · intro hfaulty hrefused
    cases hread : readObject c e "" v with
    | ok t => exact absurd ⟨t, hread⟩ (not_read_of_faulty hfaulty)
    | error err =>
      obtain ⟨fault, rfl, _⟩ := error_of_closed hc e "" err he hread
      refine ⟨fault, ?_, compile_of_readObject_error hv hread⟩
      intro hfault
      subst hfault
      exact hrefused (refused_of_error e "" hread)
  · intro hfaulty
    cases h : compile c e v with
    | ok groups => exact Or.inl ⟨groups, rfl⟩
    | error err =>
      right
      -- It fails while it is read, or its tree has no groups.
      rcases compile_eq_error.mp h with ⟨_, hread⟩ | ⟨t, _, _, rfl⟩
      · obtain ⟨fault, rfl, rfl | hfault⟩ := error_of_closed hc e "" err he hread
        · rfl
        · exact absurd hfault hfaulty
      · rfl

/-- Orders with an item that is a mug and one of a batch, and with an attribute that orders do
not have. -/
def mugBatches : Value :=
  .object
    [("items", .object [("product", .object [("sku", .object [("eq", .string "MUG-BLK")])]),
       ("id", .object [("eq", .string "201")])]),
     ("zzz", .object [("eq", .number (.integer 1))])]

/-- The filter names an attribute that orders do not have. -/
theorem faulty_mugBatches : Faulty Storefront.catalog Storefront.order mugBatches := by
  have hmem : ("zzz", Value.object [("eq", .number (.integer 1))]) ∈
      [("items", Value.object [("product", .object [("sku", .object [("eq", .string "MUG-BLK")])]),
         ("id", .object [("eq", .string "201")])]),
       ("zzz", Value.object [("eq", .number (.integer 1))])] := by simp
  exact .unknown hmem (by decide) (by decide) rfl

/-- A filter on the items of an order that is refused hides the format error after it. -/
theorem compile_mugBatches :
    compile Storefront.catalog Storefront.order mugBatches = .error (.filter .unsupportedShape) := by
  have hitems : Constrained Storefront.order "items"
      (.object [("product", .object [("sku", .object [("eq", .string "MUG-BLK")])]),
        ("id", .object [("eq", .string "201")])])
      (.entity "items" "Items in order" "OrderItem" true false) :=
    ⟨by decide, by decide, rfl, rfl⟩
  have hrefused : Refused Storefront.catalog Storefront.order mugBatches :=
    @Refused.shape _ _ Storefront.orderItem [] _ _ _ _ _ ⟨_, rfl⟩ hitems rfl rfl rfl rfl rfl
  have hne : mugBatches ≠ .null := by
    intro h
    cases h
  exact ((compile_faulty hne).1 faulty_mugBatches).mpr hrefused

/-- A filter that is reported as too complex need not be well formed. -/
theorem not_well_formed_of_unsupported : ¬ ∀ (c : Catalog) (e : Entity) (v : Value),
    compile c e v = .error (.filter .unsupportedShape) → ¬ Faulty c e v := by
  intro h
  exact h Storefront.catalog Storefront.order mugBatches rfl faulty_mugBatches

end EntityGraph.Filter
