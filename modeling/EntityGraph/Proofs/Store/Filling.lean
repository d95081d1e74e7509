import EntityGraph.Proofs.Store.Ids

/-!
Ids fill the gaps of a record and nothing else. An object is reached from a record through
attributes of entities, singly or in lists. Main statements: every object that is reached has all
its ids afterwards, whatever was there is where it was, and filling in ids again changes nothing.
-/

namespace EntityGraph.StoreRules

variable {rules : StoreRules} {e t : Entity} {issued : Nat}

def isIdKey (e : Entity) (key : String) : Bool := (e.attribute? key).any isId

def holder? (rules : StoreRules) (e : Entity) (key : String) : Option Entity :=
  (e.attribute? key).bind rules.heldBy?

def missingIds (e : Entity) (fields : Members) : List String :=
  (e.attributes.filter fun a => isId a && (fields.lookup a.name).isNone).map Attribute.name

inductive Reaches (rules : StoreRules) : Entity → Members → Entity → Members → Prop
  | here (e : Entity) (fields : Members) : Reaches rules e fields e fields
  | held {e t u : Entity} {fields inner found : Members} {key : String} :
      (key, .object inner) ∈ fields → rules.holder? e key = some t →
      Reaches rules t inner u found → Reaches rules e fields u found
  | listed {e t u : Entity} {fields inner found : Members} {key : String} {items : List Json} :
      (key, .array items) ∈ fields → rules.holder? e key = some t → .object inner ∈ items →
      Reaches rules t inner u found → Reaches rules e fields u found

def HasIds (e : Entity) (fields : Members) : Prop :=
  ∀ a ∈ e.attributes, isId a = true →
    a.name ∈ fields.map Prod.fst ∧ (a.name, Json.null) ∉ fields

mutual

/-- An object and the object that it is with its gaps filled: the members in their places, and
behind them the ids that it did not have. -/
inductive Filled (rules : StoreRules) : Entity → Members → Members → Prop
  | intro {e : Entity} {fields kept added : Members} :
      FilledMembers rules e fields kept → added.map Prod.fst = missingIds e fields →
      (∀ member ∈ added, ∃ n, member.2 = .string (rules.ids n)) →
      Filled rules e fields (kept ++ added)

inductive FilledMembers (rules : StoreRules) : Entity → Members → Members → Prop
  | nil (e : Entity) : FilledMembers rules e [] []
  | cons {e : Entity} {key : String} {value filled : Json} {rest restFilled : Members} :
      FilledValue rules e key value filled → FilledMembers rules e rest restFilled →
      FilledMembers rules e ((key, value) :: rest) ((key, filled) :: restFilled)

/-- The value under a key: a null that is to be an id becomes one, objects of an entity are
filled, and everything else stays. -/
inductive FilledValue (rules : StoreRules) : Entity → String → Json → Json → Prop
  | id {e : Entity} {key : String} (n : Nat) : isIdKey e key = true →
      FilledValue rules e key .null (.string (rules.ids n))
  | object {e t : Entity} {key : String} {inner filled : Members} :
      rules.holder? e key = some t → Filled rules t inner filled →
      FilledValue rules e key (.object inner) (.object filled)
  | array {e t : Entity} {key : String} {items filled : List Json} :
      rules.holder? e key = some t → FilledItems rules t items filled →
      FilledValue rules e key (.array items) (.array filled)
  | same {e : Entity} {key : String} {value : Json} :
      (isIdKey e key = true → value ≠ .null) →
      (∀ t, rules.holder? e key = some t →
        (∀ inner, value ≠ .object inner) ∧ ∀ items, value ≠ .array items) →
      FilledValue rules e key value value

/-- Items of a list of objects of an entity; an item that is no object stays. -/
inductive FilledItems (rules : StoreRules) : Entity → List Json → List Json → Prop
  | nil (t : Entity) : FilledItems rules t [] []
  | object {t : Entity} {inner filled : Members} {rest restFilled : List Json} :
      Filled rules t inner filled → FilledItems rules t rest restFilled →
      FilledItems rules t (.object inner :: rest) (.object filled :: restFilled)
  | other {t : Entity} {item : Json} {rest restFilled : List Json} :
      (∀ inner, item ≠ .object inner) → FilledItems rules t rest restFilled →
      FilledItems rules t (item :: rest) (item :: restFilled)

end

/-- The ids that are not there come at the end, each once. -/
theorem exists_appendFor (rules : StoreRules) {as : List Attribute}
    (has : (as.map Attribute.name).Nodup) (issued : Nat) (fields : Members) :
    ∃ added : Members, (rules.appendFor as issued fields).1 = fields ++ added ∧
      added.map Prod.fst =
        (as.filter fun a => isId a && (fields.lookup a.name).isNone).map Attribute.name ∧
      ∀ member ∈ added, ∃ n, member.2 = .string (rules.ids n) := by
  induction as generalizing issued fields with
  | nil => exact ⟨[], (List.append_nil fields).symm, rfl, nofun⟩
  | cons a as ih =>
    rw [List.map_cons, List.nodup_cons] at has
    rw [appendFor_cons, List.filter_cons]
    split
    · obtain ⟨added, heq, hkeys, hids⟩ :=
        ih has.2 (issued + 1) (fields ++ [(a.name, .string (rules.ids issued))])
      -- The id that is appended has another name than those still missing.
      have hfilter : as.filter (fun b => isId b &&
          ((fields ++ [(a.name, Json.string (rules.ids issued))]).lookup b.name).isNone) =
          as.filter fun b => isId b && (fields.lookup b.name).isNone := by
        refine List.filter_congr fun b hb => ?_
        have hne : b.name ≠ a.name := fun h => has.1 (h ▸ List.mem_map_of_mem hb)
        have hsingle : [(a.name, Json.string (rules.ids issued))].lookup b.name = none := by
          rw [List.lookup_cons, beq_false_of_ne hne]
          rfl
        rw [List.lookup_append, hsingle, Option.or_none]
      refine ⟨(a.name, .string (rules.ids issued)) :: added, ?_, ?_, ?_⟩
      · rw [heq, List.append_assoc, List.singleton_append]
      · rw [List.map_cons, List.map_cons, hkeys, hfilter]
      · exact List.forall_mem_cons.mpr ⟨⟨issued, rfl⟩, hids⟩
    · exact ih has.2 issued fields

/-- Filling adds no key and takes none away. -/
theorem missingIds_fillFields (rules : StoreRules) (e : Entity) (issued : Nat) (fields : Members) :
    missingIds e (rules.fillFields e issued fields).1 = missingIds e fields := by
  have hnone : ∀ key, ((rules.fillFields e issued fields).1.lookup key).isNone =
      (fields.lookup key).isNone := by
    intro key
    rcases lookup_fillFields rules e issued fields key with ⟨h, hf⟩ | ⟨value, n, h, hf⟩ <;>
      rw [h, hf]
    rfl
  simp only [missingIds, hnone]

/-- Filling what an object holds and then the object itself. -/
theorem Filled.assignIds (issued : Nat) {fields : Members}
    (h : FilledMembers rules e fields (rules.fillFields e issued fields).1) :
    Filled rules e fields (rules.assignIds e issued fields).1 := by
  obtain ⟨added, heq, hkeys, hids⟩ := exists_appendFor rules e.names_nodup
    (rules.fillFields e issued fields).2 (rules.fillFields e issued fields).1
  rw [assignIds_eq, heq]
  exact .intro h (hkeys.trans (missingIds_fillFields rules e issued fields)) hids

/-- Objects of a list are filled one after the other, with the ids going on. -/
theorem fillItems_object (issued : Nat) (inner : Members) (rest : List Json) :
    rules.fillItems t issued (.object inner :: rest) =
      (.object (rules.assignIds t issued inner).1 ::
        (rules.fillItems t (rules.assignIds t issued inner).2 rest).1,
        (rules.fillItems t (rules.assignIds t issued inner).2 rest).2) := by
  rw [fillItems]
  rfl

theorem fillItems_other (issued : Nat) {item : Json} (h : ∀ inner, item ≠ .object inner)
    (rest : List Json) :
    rules.fillItems t issued (item :: rest) =
      (item :: (rules.fillItems t issued rest).1, (rules.fillItems t issued rest).2) := by
  cases item with
  | object inner => exact absurd rfl (h inner)
  | _ => simp only [fillItems]

theorem fillMember_null {key : String} (h : isIdKey e key = true) :
    rules.fillMember e issued key .null = (.string (rules.ids issued), issued + 1) := by
  obtain ⟨a, ha, hid⟩ := (Option.any_eq_true _ _).mp h
  simp only [fillMember, ha, fillValue, hid, ↓reduceIte]

theorem fillMember_object {key : String} (h : rules.holder? e key = some t) (inner : Members) :
    rules.fillMember e issued key (.object inner) =
      (.object (rules.assignIds t issued inner).1, (rules.assignIds t issued inner).2) := by
  obtain ⟨a, ha, hheld⟩ := Option.bind_eq_some_iff.mp h
  simp only [fillMember, ha, fillValue, hheld]
  rfl

theorem fillMember_array {key : String} (h : rules.holder? e key = some t) (items : List Json) :
    rules.fillMember e issued key (.array items) =
      (.array (rules.fillItems t issued items).1, (rules.fillItems t issued items).2) := by
  obtain ⟨a, ha, hheld⟩ := Option.bind_eq_some_iff.mp h
  simp only [fillMember, ha, fillValue, hheld]

/-- A value without a gap stays as it is. -/
theorem fillMember_same {key : String} {value : Json} (hid : isIdKey e key = true → value ≠ .null)
    (hheld : ∀ t, rules.holder? e key = some t →
      (∀ inner, value ≠ .object inner) ∧ ∀ items, value ≠ .array items) :
    rules.fillMember e issued key value = (value, issued) := by
  rw [fillMember]
  cases ha : e.attribute? key with
  | none => rfl
  | some a =>
    rw [isIdKey, ha, Option.any_some] at hid
    simp only [holder?, ha, Option.bind_some] at hheld
    cases value with
    | null =>
      -- Nothing here is an id, nor does it hold objects of an entity.
      have hnot : isId a = false := Bool.eq_false_iff.mpr fun h => hid h rfl
      simp only [fillValue, hnot, Bool.false_eq_true, ↓reduceIte]
    | object inner =>
      have hnone : rules.heldBy? a = none :=
        Option.eq_none_iff_forall_ne_some.mpr fun t ht => (hheld t ht).1 inner rfl
      simp only [fillValue, hnone]
    | array items =>
      have hnone : rules.heldBy? a = none :=
        Option.eq_none_iff_forall_ne_some.mpr fun t ht => (hheld t ht).2 items rfl
      simp only [fillValue, hnone]
    | _ => simp only [fillValue]

/-- A value that has nothing to fill stays. -/
theorem FilledValue.of_same {key : String} {value : Json}
    (hid : isIdKey e key = true → value ≠ .null)
    (hheld : ∀ t, rules.holder? e key = some t →
      (∀ inner, value ≠ .object inner) ∧ ∀ items, value ≠ .array items) :
    FilledValue rules e key value (rules.fillMember e issued key value).1 := by
  rw [fillMember_same hid hheld]
  exact .same hid hheld

theorem FilledItems.of_other {item : Json} {rest : List Json} (h : ∀ inner, item ≠ .object inner)
    (hrest : FilledItems rules t rest (rules.fillItems t issued rest).1) :
    FilledItems rules t (item :: rest) (rules.fillItems t issued (item :: rest)).1 := by
  rw [fillItems_other issued h]
  exact .other h hrest

-- The induction is on the data: the catalog may lead back to the same entity without end.
mutual

theorem filledValue (e : Entity) (issued : Nat) (key : String) : ∀ value : Json,
    FilledValue rules e key value (rules.fillMember e issued key value).1
  | .null => by
    by_cases hid : isIdKey e key = true
    · rw [fillMember_null hid]
      exact .id issued hid
    · exact .of_same (fun h => absurd h hid) fun _ _ => ⟨nofun, nofun⟩
  | .object inner => by
    cases ht : rules.holder? e key with
    | none => exact .of_same (fun _ => nofun) fun t h => nomatch ht.symm.trans h
    | some t =>
      rw [fillMember_object ht]
      exact .object ht (.assignIds issued (filledMembers t issued inner))
  -- Objects and lists of them call for the other two, on what is inside.
  | .array items => by
    cases ht : rules.holder? e key with
    | none => exact .of_same (fun _ => nofun) fun t h => nomatch ht.symm.trans h
    | some t =>
      rw [fillMember_array ht]
      exact .array ht (filledItems t issued items)
  | .bool _ => .of_same (fun _ => nofun) fun _ _ => ⟨nofun, nofun⟩
  | .number _ => .of_same (fun _ => nofun) fun _ _ => ⟨nofun, nofun⟩
  | .string _ => .of_same (fun _ => nofun) fun _ _ => ⟨nofun, nofun⟩

theorem filledItems (t : Entity) (issued : Nat) : ∀ items : List Json,
    FilledItems rules t items (rules.fillItems t issued items).1
  | [] => by
    rw [fillItems]
    exact .nil t
  | .object inner :: rest => by
    rw [fillItems_object]
    exact .object (.assignIds issued (filledMembers t issued inner)) (filledItems t _ rest)
  | .null :: rest => .of_other nofun (filledItems t issued rest)
  | .bool _ :: rest => .of_other nofun (filledItems t issued rest)
  | .number _ :: rest => .of_other nofun (filledItems t issued rest)
  | .string _ :: rest => .of_other nofun (filledItems t issued rest)
  | .array _ :: rest => .of_other nofun (filledItems t issued rest)

/-- Members are filled in their places. -/
theorem filledMembers (e : Entity) (issued : Nat) : ∀ fields : Members,
    FilledMembers rules e fields (rules.fillFields e issued fields).1
  | [] => by
    rw [fillFields]
    exact .nil e
  | (key, value) :: rest => by
    rw [fillFields_cons]
    exact .cons (filledValue e issued key value) (filledMembers e _ rest)

end

/-- Each object is filled as far as the entity reaches. By recursion on the data. -/
theorem filled_assignIds (rules : StoreRules) (e : Entity) (issued : Nat) (fields : Members) :
    Filled rules e fields (rules.assignIds e issued fields).1 :=
  .assignIds issued (filledMembers e issued fields)

/-- The keys stay, in their order. -/
theorem FilledMembers.keys_eq {fields filled : Members} (h : FilledMembers rules e fields filled) :
    filled.map Prod.fst = fields.map Prod.fst := by
  induction fields generalizing filled with
  | nil => cases h; rfl
  | cons member rest ih =>
    cases h with
    | cons _ hrest => rw [List.map_cons, List.map_cons, ih hrest]

/-- Every member that is filled was there, with a value that it fills. -/
theorem FilledMembers.exists_of_mem {fields filled : Members}
    (h : FilledMembers rules e fields filled) {key : String} {value' : Json}
    (hmem : (key, value') ∈ filled) : ∃ value, FilledValue rules e key value value' := by
  induction fields generalizing filled with
  | nil => cases h; cases hmem
  | cons member rest ih =>
    cases h with
    | cons hvalue hrest =>
      rcases List.mem_cons.mp hmem with heq | hmem
      · cases heq
        exact ⟨_, hvalue⟩
      · exact ih hrest hmem

theorem FilledItems.exists_of_mem {items filled : List Json} (h : FilledItems rules t items filled)
    {found : Members} (hmem : .object found ∈ filled) :
    ∃ inner, Filled rules t inner found := by
  induction items generalizing filled with
  | nil => cases h; cases hmem
  | cons item rest ih =>
    cases h with
    | object hinner hrest =>
      rcases List.mem_cons.mp hmem with heq | hmem
      · cases heq
        exact ⟨_, hinner⟩
      · exact ih hrest hmem
    | other hother hrest =>
      rcases List.mem_cons.mp hmem with heq | hmem
      · exact absurd heq.symm (hother found)
      · exact ih hrest hmem

/-- A member of a filled object is an id that was given to it, or fills a value. -/
theorem Filled.cases_of_mem {fields filled : Members} (h : Filled rules e fields filled)
    {key : String} {value' : Json} (hmem : (key, value') ∈ filled) :
    (∃ n, value' = .string (rules.ids n)) ∨ ∃ value, FilledValue rules e key value value' := by
  obtain ⟨hkept, _, hids⟩ := h
  rcases List.mem_append.mp hmem with hmem | hmem
  · exact Or.inr (hkept.exists_of_mem hmem)
  · exact Or.inl (hids _ hmem)

theorem isIdKey_name {a : Attribute} (ha : a ∈ e.attributes) : isIdKey e a.name = isId a := by
  rw [isIdKey, Entity.attribute?_eq_some.mpr ⟨ha, rfl⟩, Option.any_some]

/-- What is filled has ids wherever the entity has them. -/
theorem Filled.hasIds {fields filled : Members} (h : Filled rules e fields filled) :
    HasIds e filled := by
  intro a ha hid
  constructor
  · obtain ⟨hkept, hadded, _⟩ := h
    rw [List.map_append, List.mem_append, hkept.keys_eq, hadded]
    cases hl : fields.lookup a.name with
    | none =>
      refine Or.inr (List.mem_map_of_mem (List.mem_filter.mpr ⟨ha, ?_⟩))
      rw [hid, hl]
      rfl
    | some value => exact Or.inl (List.mem_map_of_mem (Keyed.mem_of_lookup hl))
  · intro hnull
    rcases h.cases_of_mem hnull with ⟨n, h⟩ | ⟨value, hvalue⟩
    · cases h
    · cases hvalue with
      | same hnot _ => exact hnot ((isIdKey_name ha).trans hid) rfl

/-- What is reached from a filled object is filled. -/
theorem Filled.of_reaches {filled found : Members} (hr : Reaches rules e filled t found) :
    ∀ {fields}, Filled rules e fields filled → ∃ before, Filled rules t before found := by
  induction hr with
  | here e fields => exact fun h => ⟨_, h⟩
  | @held e t u fields inner found key hmem ht _ ih =>
    intro before h
    rcases h.cases_of_mem hmem with ⟨n, hn⟩ | ⟨value, hvalue⟩
    · -- An id that was issued is a text and reaches nothing.
      cases hn
    · cases hvalue with
      | object ht' hinner =>
        cases ht.symm.trans ht'
        exact ih hinner
      | same _ hnot => exact absurd rfl ((hnot t ht).1 inner)
  | @listed e t u fields inner found key items hmem ht hitem _ ih =>
    intro before h
    rcases h.cases_of_mem hmem with ⟨n, hn⟩ | ⟨value, hvalue⟩
    · cases hn
    · cases hvalue with
      | array ht' hitems =>
        cases ht.symm.trans ht'
        obtain ⟨_, hinner⟩ := hitems.exists_of_mem hitem
        exact ih hinner
      | same _ hnot => exact absurd rfl ((hnot t ht).2 items)

theorem appendFor_of_mem {as : List Attribute} {fields : Members}
    (h : ∀ a ∈ as, isId a = true → a.name ∈ fields.map Prod.fst) (issued : Nat) :
    rules.appendFor as issued fields = (fields, issued) := by
  induction as with
  | nil => rfl
  | cons a as ih =>
    rw [List.forall_mem_cons] at h
    have hthere : ¬(isId a && (fields.lookup a.name).isNone) = true := by
      intro hmissing
      rw [Bool.and_eq_true, Option.isNone_iff_eq_none] at hmissing
      obtain ⟨member, hmem, hname⟩ := List.mem_map.mp (h.1 hmissing.1)
      have hne : a.name ≠ member.1 :=
        bne_iff_ne.mp (List.lookup_eq_none_iff.mp hmissing.2 member hmem)
      exact hne hname.symm
    rw [appendFor_cons, if_neg hthere, ih h.2]

/-- An object that has its ids, and nothing to fill in what it holds, stays as it is. -/
theorem assignIds_eq_self {fields : Members} (hids : HasIds e fields)
    (hinside : rules.fillFields e issued fields = (fields, issued)) :
    rules.assignIds e issued fields = (fields, issued) := by
  have hthere : ∀ a ∈ e.attributes, isId a = true → a.name ∈ fields.map Prod.fst :=
    fun a ha hid => (hids a ha hid).1
  rw [assignIds, hinside]
  exact appendFor_of_mem hthere issued

mutual

theorem fillMember_filled {e : Entity} (issued : Nat) {key : String} : ∀ {value filled : Json},
    FilledValue rules e key value filled →
    rules.fillMember e issued key filled = (filled, issued)
  | _, .object inner, .object ht h => by
    have hinside := fillFields_filled issued inner fun _ hmem => h.cases_of_mem hmem
    rw [fillMember_object ht, assignIds_eq_self h.hasIds hinside]
  | _, .array items, .array ht h => by
    rw [fillMember_array ht, fillItems_filled issued items h]
  | _, .string _, .id _ _ => fillMember_same (fun _ => nofun) fun _ _ => ⟨nofun, nofun⟩
  | _, _, .same hid hheld => fillMember_same hid hheld

theorem fillItems_filled {t : Entity} (issued : Nat) : ∀ (filled : List Json) {items : List Json},
    FilledItems rules t items filled → rules.fillItems t issued filled = (filled, issued)
  | [], _, _ => by rw [fillItems]
  | .object inner :: rest, _, .object h hrest => by
    have hinside := fillFields_filled issued inner fun _ hmem => h.cases_of_mem hmem
    rw [fillItems_object, assignIds_eq_self h.hasIds hinside, fillItems_filled issued rest hrest]
  | item :: rest, _, .other hother hrest => by
    rw [fillItems_other issued hother, fillItems_filled issued rest hrest]

/-- What is filled is not filled again. -/
theorem fillFields_filled {e : Entity} (issued : Nat) : ∀ filled : Members,
    (∀ member ∈ filled, (∃ n, member.2 = .string (rules.ids n)) ∨
      ∃ value, FilledValue rules e member.1 value member.2) →
    rules.fillFields e issued filled = (filled, issued)
  | [], _ => by rw [fillFields]
  | (key, value) :: rest, h => by
    rw [List.forall_mem_cons] at h
    have hvalue : rules.fillMember e issued key value = (value, issued) := by
      rcases h.1 with ⟨n, rfl⟩ | ⟨before, hbefore⟩
      · exact fillMember_same (fun _ => nofun) fun _ _ => ⟨nofun, nofun⟩
      · exact fillMember_filled issued hbefore
    rw [fillFields_cons, hvalue, fillFields_filled issued rest h.2]

end

/-- A filled object stays as it is when ids are filled in again, and no id is given out. -/
theorem Filled.assignIds_eq {fields filled : Members} (h : Filled rules e fields filled)
    (issued : Nat) : rules.assignIds e issued filled = (filled, issued) :=
  assignIds_eq_self h.hasIds (fillFields_filled issued filled fun _ hmem => h.cases_of_mem hmem)

/-- What filling in ids does to an object: all that it reaches has its ids, nothing but the gaps
is changed, and there is nothing more to fill. -/
structure FillsGaps (rules : StoreRules) (e : Entity) (fields given : Members) : Prop where
  hasIds : ∀ t found, Reaches rules e given t found → HasIds t found
  filled : Filled rules e fields given
  again : ∀ issued, rules.assignIds e issued given = (given, issued)

/-- Ids are filled into the gaps of an object and of all that it reaches, and nowhere else. -/
theorem assignIds_fillsGaps (rules : StoreRules) (e : Entity) (issued : Nat) (fields : Members) :
    FillsGaps rules e fields (rules.assignIds e issued fields).1 := by
  have hfilled : Filled rules e fields (rules.assignIds e issued fields).1 :=
    filled_assignIds rules e issued fields
  refine ⟨fun t found hreaches => ?_, hfilled, hfilled.assignIds_eq⟩
  obtain ⟨before, hfound⟩ := hfilled.of_reaches hreaches
  exact hfound.hasIds

end EntityGraph.StoreRules
