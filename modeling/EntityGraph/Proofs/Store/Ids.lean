import EntityGraph.Proofs.Catalog
import EntityGraph.Proofs.Keyed
import EntityGraph.Store

namespace EntityGraph.StoreRules

variable {rules : StoreRules} {e : Entity} {issued : Nat}

def appendFor (rules : StoreRules) (as : List Attribute) (issued : Nat) (fields : Members) :
    Members × Nat :=
  as.foldl
    (fun (fields, issued) a =>
      if isId a && (fields.lookup a.name).isNone then
        (fields ++ [(a.name, .string (rules.ids issued))], issued + 1)
      else (fields, issued))
    (fields, issued)

/-- Ids that are missing are appended in the order of the attributes. -/
theorem appendFor_cons (a : Attribute) (as : List Attribute) (issued : Nat) (fields : Members) :
    rules.appendFor (a :: as) issued fields =
      if isId a && (fields.lookup a.name).isNone then
        rules.appendFor as (issued + 1) (fields ++ [(a.name, .string (rules.ids issued))])
      else rules.appendFor as issued fields := by
  rw [appendFor, List.foldl_cons]
  dsimp only
  split <;> rfl

/-- What is there already stays. -/
theorem lookup_appendFor_of_some {as : List Attribute} {fields : Members} {key : String}
    {j : Json} (h : fields.lookup key = some j) :
    (rules.appendFor as issued fields).1.lookup key = some j := by
  induction as generalizing issued fields with
  | nil => exact h
  | cons a as ih =>
    rw [appendFor_cons]
    split
    · refine ih ?_
      rw [List.lookup_append, h, Option.some_or]
    · exact ih h

/-- What is not there and no id stays away. -/
theorem lookup_appendFor_of_none {as : List Attribute} {fields : Members} {key : String}
    (h : fields.lookup key = none) (hid : ∀ a ∈ as, isId a = true → a.name ≠ key) :
    (rules.appendFor as issued fields).1.lookup key = none := by
  induction as generalizing issued fields with
  | nil => exact h
  | cons a as ih =>
    rw [List.forall_mem_cons] at hid
    rw [appendFor_cons]
    split
    · next hmissing =>
      have hne : a.name ≠ key := hid.1 (Bool.and_eq_true_iff.mp hmissing).1
      refine ih ?_ hid.2
      rw [List.lookup_append, h, Option.none_or, List.lookup_cons, beq_false_of_ne (Ne.symm hne)]
      rfl
    · exact ih h hid.2

/-- An id that is not there is given. -/
theorem lookup_appendFor_id {as : List Attribute} {a : Attribute} (ha : a ∈ as)
    (hid : isId a = true) {fields : Members} (h : fields.lookup a.name = none) :
    ∃ n, (rules.appendFor as issued fields).1.lookup a.name = some (.string (rules.ids n)) := by
  induction as generalizing issued fields with
  | nil => cases ha
  | cons b as ih =>
    rw [appendFor_cons]
    -- Either the first attribute is the one, or the look-up goes on past it.
    by_cases hname : b.name = a.name ∧ isId b = true
    · have hmissing : (isId b && (fields.lookup b.name).isNone) = true := by
        rw [hname.1, hname.2, h]
        rfl
      refine ⟨issued, ?_⟩
      rw [if_pos hmissing]
      refine lookup_appendFor_of_some ?_
      rw [List.lookup_append, h, hname.1, List.lookup_cons_self]
      rfl
    · have hrest : a ∈ as := by
        rcases List.mem_cons.mp ha with rfl | hrest
        · exact absurd ⟨rfl, hid⟩ hname
        · exact hrest
      split
      · next hmissing =>
        have hne : b.name ≠ a.name := fun heq => hname ⟨heq, (Bool.and_eq_true_iff.mp hmissing).1⟩
        refine ih hrest ?_
        rw [List.lookup_append, h, Option.none_or, List.lookup_cons, beq_false_of_ne (Ne.symm hne)]
        rfl
      · exact ih hrest h

def fillMember (rules : StoreRules) (e : Entity) (issued : Nat) (key : String) (value : Json) :
    Json × Nat :=
  match e.attribute? key with
  | some a => rules.fillValue a issued value
  | none => (value, issued)

theorem fillFields_cons (key : String) (value : Json) (rest : Members) :
    rules.fillFields e issued ((key, value) :: rest) =
      ((key, (rules.fillMember e issued key value).1) ::
        (rules.fillFields e (rules.fillMember e issued key value).2 rest).1,
        (rules.fillFields e (rules.fillMember e issued key value).2 rest).2) := by
  rw [fillFields]
  rfl

/-- Members stay under their keys. -/
theorem lookup_fillFields (rules : StoreRules) (e : Entity) (issued : Nat) (fields : Members)
    (key : String) :
    fields.lookup key = none ∧ (rules.fillFields e issued fields).1.lookup key = none ∨
      ∃ value issued', fields.lookup key = some value ∧
        (rules.fillFields e issued fields).1.lookup key =
          some (rules.fillMember e issued' key value).1 := by
  induction fields generalizing issued with
  | nil => exact Or.inl ⟨rfl, by rw [fillFields]; rfl⟩
  | cons field fields ih =>
    obtain ⟨name, value⟩ := field
    rw [fillFields_cons, List.lookup_cons, List.lookup_cons]
    by_cases hkey : key = name
    · subst hkey
      rw [beq_self_eq_true]
      exact Or.inr ⟨value, issued, rfl, rfl⟩
    · rw [beq_false_of_ne hkey]
      exact ih _

theorem heldBy?_of_entity? {a : Attribute} {t : Entity} (hk : a.scalarKind? = none)
    (ht : rules.catalog.entity? a.typeName = some t) : rules.heldBy? a = some t := by
  rw [heldBy?, Attribute.isScalar, hk]
  exact ht

/-- A scalar that is no id stays as it is. -/
theorem fillValue_scalar {a : Attribute} {kind : ScalarKind} (hk : a.scalarKind? = some kind)
    (hid : isId a = false) (value : Json) : rules.fillValue a issued value = (value, issued) := by
  have hheld : rules.heldBy? a = none := by
    rw [heldBy?, Attribute.isScalar, hk]
    rfl
  cases value with
  | null => rw [fillValue, hid]; rfl
  | object fields => rw [fillValue, hheld]
  | array items => rw [fillValue, hheld]
  | _ => rw [fillValue] <;> nofun

theorem fillValue_object {a : Attribute} {t : Entity} (hheld : rules.heldBy? a = some t)
    (fields : Members) : (rules.fillValue a issued (.object fields)).1 =
      .object (rules.assignIds t issued fields).1 := by
  rw [fillValue, hheld]
  rfl

theorem fillItems_cons (rules : StoreRules) (t : Entity) (issued : Nat) (fields : Members)
    (rest : List Json) : ∃ issued',
    (rules.fillItems t issued (.object fields :: rest)).1 =
      .object (rules.assignIds t issued fields).1 :: (rules.fillItems t issued' rest).1 := by
  rw [fillItems]
  exact ⟨_, rfl⟩

/-- The objects of a list get their ids one by one. -/
theorem fillValue_array (issued : Nat) {a : Attribute} {t : Entity}
    (hheld : rules.heldBy? a = some t) {items : List Json} (hitems : ∀ item ∈ items, ∃ fields, item = .object fields) :
    ∃ filled, (rules.fillValue a issued (.array items)).1 = .array filled ∧
      List.Forall₂ (fun item item' => ∃ fields issued', item = .object fields ∧
        item' = .object (rules.assignIds t issued' fields).1) items filled := by
  have hfill : (rules.fillValue a issued (.array items)).1 =
      .array (rules.fillItems t issued items).1 := by
    rw [fillValue, hheld]
  refine ⟨_, hfill, ?_⟩
  clear hfill
  induction items generalizing issued with
  | nil =>
    rw [fillItems]
    exact .nil
  | cons item items ih =>
    rw [List.forall_mem_cons] at hitems
    obtain ⟨fields, rfl⟩ := hitems.1
    obtain ⟨issued', hcons⟩ := fillItems_cons rules t issued fields items
    rw [hcons]
    exact .cons ⟨fields, issued, rfl, rfl⟩ (ih issued' hitems.2)

/-- Filling first, appending then. -/
theorem assignIds_eq (fields : Members) : (rules.assignIds e issued fields).1 =
    (rules.appendFor e.attributes (rules.fillFields e issued fields).2
      (rules.fillFields e issued fields).1).1 := rfl

/-- A member that is given is still there, with ids in what it holds. -/
theorem lookup_assignIds_of_some (rules : StoreRules) (issued : Nat) {a : Attribute}
    (ha : a ∈ e.attributes) {fields : Members} {value : Json} (h : fields.lookup a.name = some value) :
    ∃ issued', (rules.assignIds e issued fields).1.lookup a.name =
      some (rules.fillValue a issued' value).1 := by
  have hfound : e.attribute? a.name = some a := Entity.attribute?_eq_some.mpr ⟨ha, rfl⟩
  rcases lookup_fillFields rules e issued fields a.name with
    ⟨hnone, _⟩ | ⟨value', issued', hvalue, hfilled⟩
  · cases hnone.symm.trans h
  · obtain rfl := Option.some.inj (hvalue.symm.trans h)
    refine ⟨issued', ?_⟩
    rw [assignIds_eq, lookup_appendFor_of_some hfilled, fillMember, hfound]

/-- Filling brings in no key. -/
theorem lookup_fillFields_of_none {fields : Members} {key : String}
    (h : fields.lookup key = none) : (rules.fillFields e issued fields).1.lookup key = none := by
  rcases lookup_fillFields rules e issued fields key with
    ⟨_, hnone⟩ | ⟨value, _, hvalue, _⟩
  · exact hnone
  · cases h.symm.trans hvalue

/-- What is not given and no id stays away. -/
theorem lookup_assignIds_of_none {fields : Members} {key : String} (h : fields.lookup key = none)
    (hid : ∀ a ∈ e.attributes, isId a = true → a.name ≠ key) :
    (rules.assignIds e issued fields).1.lookup key = none := by
  rw [assignIds_eq]
  exact lookup_appendFor_of_none (lookup_fillFields_of_none h) hid

/-- An id that is not given is made up. -/
theorem lookup_assignIds_id (rules : StoreRules) (issued : Nat) {a : Attribute}
    (ha : a ∈ e.attributes) (hid : isId a = true) {fields : Members} (h : fields.lookup a.name = none) :
    ∃ n, (rules.assignIds e issued fields).1.lookup a.name = some (.string (rules.ids n)) := by
  rw [assignIds_eq]
  exact lookup_appendFor_id ha hid (lookup_fillFields_of_none h)

end EntityGraph.StoreRules
