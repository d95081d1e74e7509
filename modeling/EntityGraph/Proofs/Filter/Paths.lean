import EntityGraph.Filter.Match
import EntityGraph.Proofs.Filter.Reading
import EntityGraph.Proofs.Text

/-!
The paths of constraints. What an object reads as below a path is what it reads as alone with the
path before every constraint, and a constraint below an attribute holds when it holds for one of
the records of the attribute.
-/

namespace EntityGraph

def Constraint.below (path : String) (k : Constraint) : Constraint :=
  ⟨path ++ k.field, k.condition⟩

namespace Filter

theorem readOperand_eq_ok {kind : ScalarKind} {field : String} {op : Operator} {v : Value}
    {x : Operand} : readOperand kind field op v = .ok x ↔ operand? kind v = some x := by
  rw [readOperand]
  cases operand? kind v <;> simp

/-- The name of the field is only for the error: operands that are read are read under any name. -/
theorem readOperands_congr {kind : ScalarKind} {field : String} {op : Operator} {v : Value}
    {xs : List Operand} (h : readOperands kind field op v = .ok xs) (field' : String) :
    readOperands kind field' op v = .ok xs := by
  cases v with
  | list items =>
    rw [readOperands, Outcome.mapM_eq_ok] at h ⊢
    simpa only [readOperand_eq_ok] using h
  | _ =>
    simp only [readOperands, Outcome.map_eq_ok, readOperand_eq_ok] at h ⊢
    exact h

theorem readText_congr {field : String} {op : Operator} {v : Value} {s : String}
    (h : readText field op v = .ok s) (field' : String) : readText field' op v = .ok s := by
  cases v <;> simp_all [readText]

theorem readFlag_congr {field : String} {op : Operator} {v : Value} {b : Bool}
    (h : readFlag field op v = .ok b) (field' : String) : readFlag field' op v = .ok b := by
  cases v <;> simp_all [readFlag]

theorem readOperand_congr {kind : ScalarKind} {field : String} {op : Operator} {v : Value}
    {x : Operand} (h : readOperand kind field op v = .ok x) (field' : String) :
    readOperand kind field' op v = .ok x := by
  rw [readOperand_eq_ok] at h ⊢
  exact h

theorem map_congr_ok {ε α β : Type} {x y : Except ε α} {f : α → β} {b : β}
    (hxy : ∀ a, x = .ok a → y = .ok a) (h : x.map f = .ok b) : y.map f = .ok b := by
  obtain ⟨a, ha, hb⟩ := Outcome.map_eq_ok.mp h
  exact Outcome.map_eq_ok.mpr ⟨a, hxy a ha, hb⟩

/-- A condition that is read does not depend on the name its field goes by. -/
theorem readCondition_congr {kind : ScalarKind} {field : String} {op : Operator} {v : Value}
    {condition : Condition} (h : readCondition kind field op v = .ok condition)
    (field' : String) : readCondition kind field' op v = .ok condition := by
  cases op with
  | like => exact map_congr_ok (fun s hs => readText_congr hs field') h
  | findInSet => exact map_congr_ok (fun s hs => readText_congr hs field') h
  | isIn => exact map_congr_ok (fun xs hxs => readOperands_congr hxs field') h
  | notIn => exact map_congr_ok (fun xs hxs => readOperands_congr hxs field') h
  | null => exact map_congr_ok (fun b hb => readFlag_congr hb field') h
  | notNull => exact map_congr_ok (fun b hb => readFlag_congr hb field') h
  | lower => cases h
  | upper => cases h
  | _ => exact map_congr_ok (fun x hx => readOperand_congr hx field') h

theorem readRange_congr {kind : ScalarKind} {field : String} {lower upper : Value}
    {condition : Condition} (h : readRange kind field lower upper = .ok condition)
    (field' : String) : readRange kind field' lower upper = .ok condition := by
  obtain ⟨l, hl, h⟩ := Outcome.bind_eq_ok.mp h
  obtain ⟨u, hu, h⟩ := Outcome.bind_eq_ok.mp h
  refine Outcome.bind_eq_ok.mpr ⟨l, readOperand_congr hl field', ?_⟩
  exact Outcome.bind_eq_ok.mpr ⟨u, readOperand_congr hu field', h⟩

theorem readOperators_congr {kind : ScalarKind} {field : String} {entries : Arguments}
    {operators : List (Operator × Value)} (h : readOperators kind field entries = .ok operators)
    (field' : String) : readOperators kind field' entries = .ok operators := by
  rw [readOperators, Outcome.mapM_eq_ok] at h ⊢
  refine h.imp fun entry operator ho => ?_
  cases hk : Operator.ofKey? kind entry.1 with
  | none => simp [hk] at ho
  | some op => simpa [hk] using ho

/-- The combination of operators does not depend on the name its field goes by. -/
theorem readCombination_congr {kind : ScalarKind} {field : String}
    {operators : List (Operator × Value)} {condition : Condition}
    (h : readCombination kind field operators = .ok condition) (field' : String) :
    readCombination kind field' operators = .ok condition := by
  rw [readCombination.eq_def] at h ⊢
  split at h
  · exact readRange_congr h field'
  · exact readRange_congr h field'
  · exact readCondition_congr h field'
  · cases h

/-- A constraint is read from an object of operators that combine, and keeps the name of its field.
-/
theorem readConstraint_eq_ok {kind : ScalarKind} {field : String} {value : Value}
    {k : Constraint} : readConstraint kind field value = .ok k ↔ ∃ entries operators,
      value = .object entries ∧ readOperators kind field entries = .ok operators ∧
        readCombination kind field operators = .ok k.condition ∧ k.field = field := by
  constructor
  · intro h
    cases value with
    | object entries =>
      obtain ⟨operators, ho, h⟩ := Outcome.bind_eq_ok.mp h
      obtain ⟨condition, hc, h⟩ := Outcome.bind_eq_ok.mp h
      obtain rfl := Except.ok.inj h
      exact ⟨entries, operators, rfl, ho, hc, rfl⟩
    | _ => cases h
  · rintro ⟨entries, operators, rfl, ho, hc, rfl⟩
    exact Outcome.bind_eq_ok.mpr ⟨operators, ho, Outcome.bind_eq_ok.mpr ⟨_, hc, rfl⟩⟩

/-- The condition of a constraint does not depend on the path of what it constrains. -/
theorem readConstraint_congr {kind : ScalarKind} {field : String} {value : Value}
    {k : Constraint} (h : readConstraint kind field value = .ok k) (field' : String) :
    readConstraint kind field' value = .ok ⟨field', k.condition⟩ := by
  obtain ⟨entries, operators, hv, ho, hc, _⟩ := readConstraint_eq_ok.mp h
  exact readConstraint_eq_ok.mpr ⟨entries, operators, hv, readOperators_congr ho field',
    readCombination_congr hc field', rfl⟩

theorem toOption_filterable (e : Entity) (path name : String) :
    (filterable e path name).toOption = e.attribute? name := by
  rw [filterable]
  cases e.attribute? name <;> rfl

/-- Under a path a constraint is the one that is read without it, with the path before its field. -/
theorem readConstraint_below (kind : ScalarKind) (path field : String) (value : Value) :
    (readConstraint kind (path ++ field) value).toOption =
      (readConstraint kind field value).toOption.map (Constraint.below path) := by
  -- Errors name the path, so only the constraints that are read are compared.
  cases h : readConstraint kind field value with
  | error err =>
    cases h' : readConstraint kind (path ++ field) value with
    | error err' => rfl
    | ok k' => cases h.symm.trans (readConstraint_congr h' field)
  | ok k =>
    obtain ⟨_, _, _, _, _, rfl⟩ := readConstraint_eq_ok.mp h
    rw [readConstraint_congr h (path ++ k.field)]
    rfl

theorem belowAttribute_map (a : Attribute) (f : Constraint → Constraint)
    (t : FilterTree Constraint) :
    belowAttribute a (t.map f) = (belowAttribute a t).map (List.map (FilterTree.map f)) := by
  rw [belowAttribute, belowAttribute, FilterTree.perElement?_map]
  cases a.repeating with
  | false => rfl
  | true =>
    cases t.perElement? with
    | none => rfl
    | some kept => cases kept <;> rfl

theorem below_below (path field : String) :
    (fun k => Constraint.below path (Constraint.below field k)) =
      Constraint.below (path ++ field) := by
  funext k
  simp [Constraint.below, String.append_assoc]

/-- What is read under an attribute moves below a path when it does so for every nested object.
Scalars and entities go one step, arguments of a repeating attribute two. -/
theorem readAttribute_below {c : Catalog} {a : Attribute} {value : Value}
    (h : ∀ e path, (readObject c e path value).toOption =
      (readObject c e "" value).toOption.map (FilterTree.map (Constraint.below path)))
    (path field : String) : (readAttribute c a (path ++ field) value).toOption =
      (readAttribute c a field value).toOption.map
        (List.map (FilterTree.map (Constraint.below path))) := by
  rw [readAttribute, readAttribute]
  cases a.scalarKind? with
  | some kind =>
    simp only [readLeaf, Outcome.toOption_bind, Outcome.toOption_mapError, readConstraint_below]
    cases (readConstraint kind field value).toOption <;> rfl
  | none =>
    simp only [Outcome.toOption_bind, Outcome.toOption_mapError, h _ (path ++ field ++ "."),
      h _ (field ++ ".")]
    cases (c.require a.typeName).toOption with
    | none => rfl
    | some target =>
      simp only [Option.bind_some]
      cases (readObject c target "" value).toOption with
      | none => rfl
      | some t =>
        simp only [Option.map_some, Option.bind_some]
        -- Two paths in front of a field are one.
        rw [String.append_assoc, ← below_below path, ← FilterTree.map_map, belowAttribute_map,
          Outcome.toOption_map]

/-- Alternatives are an object or a list of them, and each moves below the path on its own. -/
theorem readBranches_below {c : Catalog} {e : Entity} {value : Value} (path : String)
    (h : ∀ e path, (readObject c e path value).toOption =
      (readObject c e "" value).toOption.map (FilterTree.map (Constraint.below path)))
    (hitems : ∀ items, value = .list items → ∀ item ∈ items, ∀ e path,
      (readObject c e path item).toOption =
        (readObject c e "" item).toOption.map (FilterTree.map (Constraint.below path))) :
    (readBranches c e path value).toOption =
      (readBranches c e "" value).toOption.map
        (List.map (FilterTree.map (Constraint.below path))) := by
  cases value with
  | list items =>
    refine Outcome.toOption_mapM_congr fun item hi => ?_
    rw [readChild, readChild]
    split
    · exact hitems items rfl item hi e path
    · rfl
  | object fields =>
    rw [readBranches, readBranches, Outcome.toOption_map, Outcome.toOption_map, h e path]
    cases (readObject c e "" (.object fields)).toOption <;> rfl
  | _ => rfl

/-- What a filter reads as below a path is what it reads as alone, with the path before every
constraint. -/
theorem readObject_below (c : Catalog) (v : Value) : ∀ e path, (readObject c e path v).toOption =
    (readObject c e "" v).toOption.map (FilterTree.map (Constraint.below path)) := by
  induction v using Value.filter_induction with
  | other v hv =>
    intro e path
    cases v with
    | object fields => cases hv
    | _ => simp only [readObject]; rfl
  | object fields hfields hitems =>
    intro e path
    -- Errors name the path at which they stand, so only what is read is compared.
    have hfield : ∀ field ∈ fields, (readField c e path field).toOption =
        (readField c e "" field).toOption.map
          (List.map (FilterTree.map (Constraint.below path))) := by
      intro field hf
      rw [readField, readField]
      split
      · rw [Outcome.toOption_map]
        cases ((readJoin field.2).mapError Error.filter).toOption <;> rfl
      · split
        · exact readBranches_below path (hfields field hf) (hitems field hf)
        · simp only [Outcome.toOption_bind, Outcome.toOption_mapError, toOption_filterable]
          cases e.attribute? field.1 with
          | none => rfl
          | some a =>
            simp only [Option.bind_some, String.empty_append]
            split
            · rfl
            · exact readAttribute_below (hfields field hf) path field.1
    simp only [readObject_object, Outcome.toOption_map, Outcome.toOption_mapM_congr hfield]
    cases (fields.mapM (readField c e "")).toOption with
    | none => rfl
    | some trees => simp [List.map_flatten]

def valueAt (a : Attribute) : Option Record → AttributeValue
  | some r => a.valueIn r
  | none => .null

/-- A condition on records holds of one of them; where there is none it is asked of a missing
record. -/
def someRecord (records : List Record) (holds : Option Record → Bool) : Bool :=
  match records with
  | [] => holds none
  | records => records.any fun r => holds (some r)

/-- A constraint holds of a record; of a missing record every attribute is null. -/
def constraintHoldsAt [RegexLibrary] (c : Catalog) (e : Entity) (r : Option Record)
    (k : Constraint) : Bool :=
  match r with
  | some r => constraintHolds c e r k
  | none => holds k.condition .null

def Resolves (c : Catalog) : Entity → List String → Prop
  | _, [] => False
  | e, [name] => ∃ a, e.attribute? name = some a ∧ a.isScalar = true
  | e, name :: path => ∃ a target, e.attribute? name = some a ∧ a.scalarKind? = none ∧
      c.entity? a.typeName = some target ∧ Resolves c target path

theorem path_ne_nil (k : Constraint) : Constraint.path k ≠ [] := Text.splitText_ne_nil '.' k.field

theorem path_of_not_mem {k : Constraint} (h : '.' ∉ k.field.toList) :
    Constraint.path k = [k.field] :=
  Text.splitText_of_not_mem h

/-- The path below a key begins with the key, since a key holds no dot. -/
theorem path_below {key : String} (h : '.' ∉ key.toList) (k : Constraint) :
    Constraint.path (k.below (key ++ ".")) = key :: Constraint.path k :=
  Text.splitText_dot h k.field

/-- A path resolves from its first name on: the name is no scalar's, and the rest resolves at its
entity. -/
theorem resolves_cons {c : Catalog} {e target : Entity} {name : String} {a : Attribute}
    {path : List String} (ha : e.attribute? name = some a) (hk : a.scalarKind? = none)
    (ht : c.entity? a.typeName = some target) (h : Resolves c target path) :
    Resolves c e (name :: path) := by
  cases path with
  | nil => exact h.elim
  | cons next path => exact ⟨a, target, ha, hk, ht, h⟩

/-- Among records that are there, some record means any of them. -/
theorem someRecord_cons (r : Record) (records : List Record) (f : Option Record → Bool) :
    someRecord (r :: records) f = (r :: records).any fun r => f (some r) := rfl

/-- Two tests agree on some record when they agree on each and, where there is none, on absence. -/
theorem someRecord_congr {records : List Record} {f g : Option Record → Bool}
    (hnone : records = [] → f none = g none) (hsome : ∀ r ∈ records, f (some r) = g (some r)) :
    someRecord records f = someRecord records g := by
  cases records with
  | nil => exact hnone rfl
  | cons r records =>
    rw [someRecord_cons, someRecord_cons, Bool.eq_iff_iff, List.any_eq_true, List.any_eq_true]
    refine exists_congr fun s => and_congr_right fun hs => ?_
    rw [hsome s hs]

/-- A constraint on a field of the record is about the value there. -/
theorem constraintHoldsAt_scalar [RegexLibrary] {c : Catalog} {e : Entity} {a : Attribute}
    {k : Constraint}
    (hdot : '.' ∉ k.field.toList) (ha : e.attribute? k.field = some a) (r : Option Record) :
    constraintHoldsAt c e r k = holds k.condition (valueAt a r) := by
  cases r with
  | none => rfl
  | some r =>
    rw [constraintHoldsAt, constraintHolds, path_of_not_mem hdot]
    simp only [pathHolds, Entity.read_of_attribute? ha, valueAt]

/-- A constraint below a key holds when it holds at some record under that key. -/
theorem constraintHoldsAt_below [RegexLibrary] {c : Catalog} {e target : Entity} {key : String}
    {a : Attribute} (hdot : '.' ∉ key.toList) (ha : e.attribute? key = some a)
    (ht : c.entity? a.typeName = some target) (k : Constraint) (r : Option Record) :
    constraintHoldsAt c e r (k.below (key ++ ".")) =
      someRecord (valueAt a r).records fun r => constraintHoldsAt c target r k := by
  cases r with
  | none => rfl
  | some r =>
    have htarget : targetOf? c e key = some target := by
      rw [targetOf?, ha, Option.bind_some, ht]
    have hcondition : (k.below (key ++ ".")).condition = k.condition := rfl
    rw [constraintHoldsAt, constraintHolds, path_below hdot, hcondition, valueAt]
    -- The path below the attribute has a name at least, so the descent goes through its records.
    cases hpath : Constraint.path k with
    | nil => exact absurd hpath (path_ne_nil k)
    | cons name path =>
      simp only [pathHolds, Entity.read_of_attribute? ha, htarget, ← hpath]
      cases (a.valueIn r).records <;> rfl

end Filter

end EntityGraph
