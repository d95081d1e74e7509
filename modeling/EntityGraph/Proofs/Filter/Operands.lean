import EntityGraph.Proofs.Filter.Paths
import EntityGraph.TypeString

namespace EntityGraph.Filter

/-- A literal of a scalar type. Integers stand for floating-point numbers and for ids as well. -/
inductive IsLiteral : ScalarKind → Value → Prop
  | string (s : String) : IsLiteral .string (.string s)
  | text (s : String) : IsLiteral .id (.string s)
  | whole (n : Int) : IsLiteral .id (.number (.integer n))
  | int {n : Int} : Decimal.fitsInt64 n = true → IsLiteral .int (.number (.integer n))
  | float (n : Number) : IsLiteral .float (.number n)
  | boolean (b : Bool) : IsLiteral .boolean (.boolean b)

/-- A value that is not null has a type of scalars: it is a literal, or where the type is a list,
a list of literals, or a literal that stands for a list of one. -/
def HasType (type : TypeString) (v : Value) : Prop :=
  ∃ kind, ScalarKind.ofName? type.name = some kind ∧
    (IsLiteral kind v ∨ type.list = true ∧ ∃ items, v = .list items ∧ ∀ item ∈ items,
      IsLiteral kind item ∨ item = .null ∧ type.elementNonNull = false)

def IsOperand (kind : ScalarKind) (op : Operator) (v : Value) : Prop :=
  ∃ type, TypeString.parse (op.operandType kind) = .ok type ∧ HasType type v

/-- An entry of a constraint: an operator of the vocabulary, with an operand of its type. -/
def IsEntry (kind : ScalarKind) (entry : String × Value) : Prop :=
  ∃ op ∈ Operator.vocabulary kind, op.key = entry.1 ∧ IsOperand kind op entry.2

def given (entries : Arguments) : Arguments := entries.filter fun entry => !entry.2.isNull

/-- A constraint on a scalar: an object with one operator that is no end of a range, or with both
ends of a range. -/
def IsConstraint (kind : ScalarKind) (v : Value) : Prop :=
  ∃ entries, v = .object entries ∧ (∀ entry ∈ given entries, IsEntry kind entry) ∧
    ((∃ key, (given entries).map Prod.fst = [key] ∧
        key ≠ Operator.lower.key ∧ key ≠ Operator.upper.key) ∨
      (given entries).map Prod.fst = [Operator.lower.key, Operator.upper.key] ∨
      (given entries).map Prod.fst = [Operator.upper.key, Operator.lower.key])

/-- A value is an operand for a scalar type exactly when it is a literal of the type. -/
theorem operand?_isSome {kind : ScalarKind} {v : Value} :
    (∃ x, operand? kind v = some x) ↔ IsLiteral kind v := by
  constructor
  · intro h
    obtain ⟨x, hx⟩ := h
    rw [operand?.eq_def] at hx
    split at hx
    · exact .string _
    · exact .text _
    · exact .whole _
    · next n =>
      -- An integer has to fit; a float is no integer, whole or not.
      obtain ⟨i, hi, _⟩ := Option.map_eq_some_iff.mp hx
      cases n with
      | integer n =>
        rw [Number.int64?] at hi
        split at hi
        · next hfits => exact .int hfits
        · cases hi
      | float x => cases hi
    · exact .float _
    · exact .boolean _
    · cases hx
  · intro h
    cases h with
    | @int n hfits => exact ⟨.int n, by simp [operand?, Number.int64?, hfits]⟩
    | _ => exact ⟨_, rfl⟩

theorem readOperand_isOk {kind : ScalarKind} {field : String} {op : Operator} {v : Value} :
    (∃ x, readOperand kind field op v = .ok x) ↔ IsLiteral kind v := by
  rw [← operand?_isSome]
  simp only [readOperand_eq_ok]

/-- A set of operands is read of a literal or of a list of literals. -/
theorem readOperands_isOk {kind : ScalarKind} {field : String} {op : Operator} {v : Value} :
    (∃ xs, readOperands kind field op v = .ok xs) ↔
      IsLiteral kind v ∨ ∃ items, v = .list items ∧ ∀ item ∈ items, IsLiteral kind item := by
  cases v with
  | list items =>
    have hno : ¬ IsLiteral kind (.list items) := by intro h; cases h
    simp only [readOperands, Outcome.mapM_isOk, readOperand_isOk, hno, false_or]
    constructor
    · intro h
      exact ⟨items, rfl, h⟩
    · intro h
      obtain ⟨_, ⟨⟩, h⟩ := h
      exact h
  | _ =>
    simp only [readOperands, Outcome.map_isOk, readOperand_isOk, reduceCtorEq, false_and,
      exists_false, or_false]

theorem readText_isOk {field : String} {op : Operator} {v : Value} :
    (∃ s, readText field op v = .ok s) ↔ IsLiteral .string v := by
  constructor
  · intro h
    obtain ⟨s, hs⟩ := h
    cases v with
    | string s => exact .string s
    | _ => cases hs
  · intro h
    cases h with
    | string s => exact ⟨s, rfl⟩

/-- The operand of a null test is a truth value whatever the type of the attribute is. -/
theorem readFlag_isOk {field : String} {op : Operator} {v : Value} :
    (∃ b, readFlag field op v = .ok b) ↔ IsLiteral .boolean v := by
  constructor
  · intro h
    obtain ⟨b, hb⟩ := h
    cases v with
    | boolean b => exact .boolean b
    | _ => cases hb
  · intro h
    cases h with
    | boolean b => exact ⟨b, rfl⟩

theorem parse_name (kind : ScalarKind) : TypeString.parse kind.name = .ok (.named kind.name) := by
  cases kind <;> rfl

theorem parse_list (kind : ScalarKind) :
    TypeString.parse ("[" ++ kind.name ++ "!]") = .ok (.listOf kind.name) := by
  cases kind <;> rfl

theorem hasType_named {kind : ScalarKind} {v : Value} :
    HasType (.named kind.name) v ↔ IsLiteral kind v := by
  rw [HasType]
  constructor
  · intro h
    obtain ⟨other, hk, hv | ⟨hlist, _⟩⟩ := h
    · have hkind := (ScalarKind.ofName?_name kind).symm.trans hk
      exact Option.some.inj hkind ▸ hv
    · cases hlist
  · intro h
    exact ⟨kind, ScalarKind.ofName?_name kind, Or.inl h⟩

/-- A value of a list type is a list of literals, or a literal that stands for a list of one. -/
theorem hasType_listOf {kind : ScalarKind} {v : Value} :
    HasType (.listOf kind.name) v ↔
      IsLiteral kind v ∨ ∃ items, v = .list items ∧ ∀ item ∈ items, IsLiteral kind item := by
  rw [HasType]
  constructor
  · intro h
    obtain ⟨other, hk, hv⟩ := h
    have hkind := (ScalarKind.ofName?_name kind).symm.trans hk
    obtain rfl := Option.some.inj hkind
    refine hv.imp_right ?_
    intro hitems
    obtain ⟨_, items, hv, hitems⟩ := hitems
    refine ⟨items, hv, fun item hi => ?_⟩
    rcases hitems item hi with hlit | ⟨_, hnull⟩
    · exact hlit
    · cases hnull
  · intro h
    refine ⟨kind, ScalarKind.ofName?_name kind, h.imp_right ?_⟩
    intro hitems
    obtain ⟨items, hv, hitems⟩ := hitems
    exact ⟨rfl, items, hv, fun item hi => Or.inl (hitems item hi)⟩

theorem isOperand_of_named {kind other : ScalarKind} {op : Operator} {v : Value}
    (h : op.operandType kind = other.name) : IsOperand kind op v ↔ IsLiteral other v := by
  rw [IsOperand, h, parse_name]
  simp [hasType_named]

/-- Where the operand type is a list the operator takes a set of literals. -/
theorem isOperand_of_list {kind : ScalarKind} {op : Operator} {v : Value}
    (h : op.operandType kind = "[" ++ kind.name ++ "!]") : IsOperand kind op v ↔
      IsLiteral kind v ∨ ∃ items, v = .list items ∧ ∀ item ∈ items, IsLiteral kind item := by
  rw [IsOperand, h, parse_list]
  simp [hasType_listOf]

/-- An operator alone is read with an operand of its type, unless it is an end of a range. -/
theorem readCondition_isOk {kind : ScalarKind} {field : String} {op : Operator} {v : Value} :
    (∃ condition, readCondition kind field op v = .ok condition) ↔
      (op ≠ .lower ∧ op ≠ .upper) ∧ IsOperand kind op v := by
  cases op with
  | lower | upper => simp [readCondition]
  | like | findInSet =>
    simp only [readCondition, Outcome.map_isOk, readText_isOk, ne_eq, reduceCtorEq,
      not_false_eq_true, and_self, true_and]
    exact (isOperand_of_named rfl).symm
  | isIn | notIn =>
    simp only [readCondition, Outcome.map_isOk, readOperands_isOk, ne_eq, reduceCtorEq,
      not_false_eq_true, and_self, true_and]
    exact (isOperand_of_list rfl).symm
  | null | notNull =>
    simp only [readCondition, Outcome.map_isOk, readFlag_isOk, ne_eq, reduceCtorEq,
      not_false_eq_true, and_self, true_and]
    exact (isOperand_of_named rfl).symm
  | _ =>
    simp only [readCondition, Outcome.map_isOk, readOperand_isOk, ne_eq, reduceCtorEq,
      not_false_eq_true, and_self, true_and]
    exact (isOperand_of_named rfl).symm

/-- A range is read when both ends are operands. -/
theorem readRange_isOk {kind : ScalarKind} {field : String} {lower upper : Value} :
    (∃ condition, readRange kind field lower upper = .ok condition) ↔
      IsOperand kind .lower lower ∧ IsOperand kind .upper upper := by
  rw [isOperand_of_named rfl, isOperand_of_named rfl]
  constructor
  · intro h
    obtain ⟨condition, h⟩ := h
    obtain ⟨l, hl, h⟩ := Outcome.bind_eq_ok.mp h
    obtain ⟨u, hu, _⟩ := Outcome.bind_eq_ok.mp h
    exact ⟨readOperand_isOk.mp ⟨l, hl⟩, readOperand_isOk.mp ⟨u, hu⟩⟩
  · intro h
    obtain ⟨l, hl⟩ := readOperand_isOk.mpr h.1
    obtain ⟨u, hu⟩ := readOperand_isOk.mpr h.2
    exact ⟨.range l u, Outcome.bind_eq_ok.mpr ⟨l, hl, Outcome.bind_eq_ok.mpr ⟨u, hu, rfl⟩⟩⟩

theorem Operator.key_injective : Function.Injective Operator.key := by
  intro op other h
  cases op <;> cases other <;> first | rfl | exact absurd h (by decide)

/-- A key names the operator of the vocabulary that has it. -/
theorem Operator.ofKey?_eq_some {kind : ScalarKind} {key : String} {op : Operator} :
    Operator.ofKey? kind key = some op ↔ op ∈ Operator.vocabulary kind ∧ op.key = key := by
  constructor
  · intro h
    exact ⟨List.mem_of_find?_eq_some h, by simpa using List.find?_some h⟩
  · intro h
    obtain ⟨hmem, rfl⟩ := h
    cases hfind : Operator.ofKey? kind op.key with
    | none => simpa using List.find?_eq_none.mp hfind op hmem
    | some other =>
      have hkey : other.key = op.key := by simpa using List.find?_some hfind
      rw [Operator.key_injective hkey]

/-- The operators are read one by one, those with a null operand left out. -/
theorem readOperators_eq_ok {kind : ScalarKind} {field : String} {entries : Arguments}
    {operators : List (Operator × Value)} : readOperators kind field entries = .ok operators ↔
      List.Forall₂ (fun entry operator => (operator.1 ∈ Operator.vocabulary kind ∧
        operator.1.key = entry.1) ∧ entry.2 = operator.2) (given entries) operators := by
  rw [readOperators, Outcome.mapM_eq_ok, given]
  constructor
  · apply List.Forall₂.imp
    intro entry operator h
    rw [← Operator.ofKey?_eq_some]
    cases hk : Operator.ofKey? kind entry.1 with
    | none => simp [hk] at h
    | some op =>
      have ho : (op, entry.2) = operator := by simpa [hk] using h
      exact ho ▸ ⟨rfl, rfl⟩
  · apply List.Forall₂.imp
    intro entry operator h
    rw [← Operator.ofKey?_eq_some] at h
    simp [h.1, h.2]

theorem readCombination_single (kind : ScalarKind) (field : String) (op : Operator) (v : Value) :
    readCombination kind field [(op, v)] = readCondition kind field op v := by
  cases op <;> rfl

theorem pair_of_map_fst {α β : Type} {xs : List (α × β)} {a b : α}
    (h : xs.map Prod.fst = [a, b]) : ∃ x y, xs = [(a, x), (b, y)] := by
  obtain ⟨⟨a', x⟩, rest, rfl, rfl, hrest⟩ := List.map_eq_cons_iff.mp h
  obtain ⟨⟨b', y⟩, rfl, rfl⟩ := List.map_eq_singleton_iff.mp hrest
  exact ⟨x, y, rfl⟩

/-- The combinations that make a condition: one operator that is no end of a range, or both
ends. -/
theorem readCombination_isOk {kind : ScalarKind} {field : String}
    {operators : List (Operator × Value)} :
    (∃ condition, readCombination kind field operators = .ok condition) ↔
      (∀ operator ∈ operators, IsOperand kind operator.1 operator.2) ∧
      ((∃ op, operators.map Prod.fst = [op] ∧ op ≠ .lower ∧ op ≠ .upper) ∨
        operators.map Prod.fst = [.lower, .upper] ∨ operators.map Prod.fst = [.upper, .lower]) := by
  constructor
  · intro h
    obtain ⟨condition, h⟩ := h
    rw [readCombination.eq_def] at h
    split at h
    · have hboth := readRange_isOk.mp ⟨condition, h⟩
      simp [hboth.1, hboth.2]
    · -- The bounds in either order.
      have hboth := readRange_isOk.mp ⟨condition, h⟩
      simp [hboth.1, hboth.2]
    · obtain ⟨hop, hoperand⟩ := readCondition_isOk.mp ⟨condition, h⟩
      simp [hop, hoperand]
    · cases h
  · intro h
    obtain ⟨hoperands, ⟨op, hops, hop⟩ | hops | hops⟩ := h
    · obtain ⟨⟨op, v⟩, rfl, rfl⟩ := List.map_eq_singleton_iff.mp hops
      rw [readCombination_single]
      exact readCondition_isOk.mpr ⟨hop, hoperands (op, v) (by simp)⟩
    · obtain ⟨l, u, rfl⟩ := pair_of_map_fst hops
      have hl := hoperands (.lower, l) (by simp)
      have hu := hoperands (.upper, u) (by simp)
      exact readRange_isOk.mpr ⟨hl, hu⟩
    · obtain ⟨u, l, rfl⟩ := pair_of_map_fst hops
      have hl := hoperands (.lower, l) (by simp)
      have hu := hoperands (.upper, u) (by simp)
      exact readRange_isOk.mpr ⟨hl, hu⟩

theorem keys_of_operators {kind : ScalarKind} {entries : Arguments}
    {operators : List (Operator × Value)}
    (h : List.Forall₂ (fun entry operator => (operator.1 ∈ Operator.vocabulary kind ∧
      operator.1.key = entry.1) ∧ entry.2 = operator.2) entries operators) :
    entries.map Prod.fst = (operators.map Prod.fst).map Operator.key := by
  induction h with
  | nil => rfl
  | cons hentry _ ih => simp [hentry.1.2, ih]

/-- The keys of operators are one key or the two ends of a range just when the operators are. -/
theorem keys_iff {entries : Arguments} {operators : List (Operator × Value)}
    (h : entries.map Prod.fst = (operators.map Prod.fst).map Operator.key) :
    ((∃ key, entries.map Prod.fst = [key] ∧
        key ≠ Operator.lower.key ∧ key ≠ Operator.upper.key) ∨
      entries.map Prod.fst = [Operator.lower.key, Operator.upper.key] ∨
      entries.map Prod.fst = [Operator.upper.key, Operator.lower.key]) ↔
    ((∃ op, operators.map Prod.fst = [op] ∧ op ≠ .lower ∧ op ≠ .upper) ∨
      operators.map Prod.fst = [.lower, .upper] ∨ operators.map Prod.fst = [.upper, .lower]) := by
  -- Keys tell operators apart, so a list of keys is that of one list of operators.
  have hpair : ∀ a b : Operator, entries.map Prod.fst = [a.key, b.key] ↔
      operators.map Prod.fst = [a, b] := by
    intro a b
    rw [h]
    exact Function.Injective.eq_iff (List.map_injective_iff.mpr Operator.key_injective)
      (a := operators.map Prod.fst) (b := [a, b])
  rw [hpair, hpair, h]
  refine or_congr_left ?_
  constructor
  · intro hkey
    obtain ⟨key, hkey, hlower, hupper⟩ := hkey
    obtain ⟨op, hop, rfl⟩ := List.map_eq_singleton_iff.mp hkey
    exact ⟨op, hop, fun h => hlower (h ▸ rfl), fun h => hupper (h ▸ rfl)⟩
  · intro hop
    obtain ⟨op, hop, hlower, hupper⟩ := hop
    refine ⟨op.key, by rw [hop]; rfl, ?_, ?_⟩
    · exact fun h => hlower (Operator.key_injective h)
    · exact fun h => hupper (Operator.key_injective h)

/-- The constraints on a scalar that are read. -/
theorem readConstraint_isOk (field : String) {kind : ScalarKind} {v : Value} :
    (∃ k, readConstraint kind field v = .ok k) ↔ IsConstraint kind v := by
  constructor
  · intro h
    obtain ⟨k, h⟩ := h
    obtain ⟨entries, operators, rfl, ho, hcomb, _⟩ := readConstraint_eq_ok.mp h
    obtain ⟨hoperands, hops⟩ := readCombination_isOk.mp ⟨_, hcomb⟩
    have hentries := readOperators_eq_ok.mp ho
    refine ⟨entries, rfl, ?_, (keys_iff (keys_of_operators hentries)).mpr hops⟩
    intro entry he
    obtain ⟨operator, hmem, ⟨hvocab, hkey⟩, hvalue⟩ := Outcome.exists_mem_right hentries he
    exact ⟨operator.1, hvocab, hkey, hvalue ▸ hoperands operator hmem⟩
  · intro h
    obtain ⟨entries, rfl, hentries, hkeys⟩ := h
    -- Each entry has an operator of the vocabulary, and keys tell operators apart.
    have hread : ∃ operators, readOperators kind field entries = .ok operators := by
      rw [readOperators]
      apply Outcome.mapM_isOk.mpr
      intro entry he
      obtain ⟨op, hvocab, hkey, _⟩ := hentries entry he
      have hfind := Operator.ofKey?_eq_some.mpr ⟨hvocab, hkey⟩
      exact ⟨(op, entry.2), by simp [hfind]⟩
    obtain ⟨operators, ho⟩ := hread
    have hforall := readOperators_eq_ok.mp ho
    have hops := (keys_iff (keys_of_operators hforall)).mp hkeys
    have hoperands : ∀ operator ∈ operators, IsOperand kind operator.1 operator.2 := by
      intro operator hmem
      obtain ⟨entry, he, ⟨_, hkey⟩, hvalue⟩ := Outcome.exists_mem_left hforall hmem
      obtain ⟨op, _, hop, hoperand⟩ := hentries entry he
      obtain rfl := Operator.key_injective (hop.trans hkey.symm)
      exact hvalue ▸ hoperand
    obtain ⟨condition, hcomb⟩ := readCombination_isOk.mpr ⟨hoperands, hops⟩
    exact ⟨⟨field, condition⟩,
      readConstraint_eq_ok.mpr ⟨entries, operators, rfl, ho, hcomb, rfl⟩⟩

end EntityGraph.Filter
