import EntityGraph.Proofs.Filter.Operands
import EntityGraph.Regex.Engine

/-!
Conditions on lists and on sets of operands. A list is met by what its items are, at any depth, and
a set of operands is asked for one by one. Main statement: a value is in a set when it equals one of
the set's operands, and it differs from all of them when it is outside the set and can be compared
with each.
-/

namespace EntityGraph

namespace AttributeValue

/-- Induction over the items of lists. -/
@[elab_as_elim]
theorem induction {P : AttributeValue → Prop} (single : ∀ v, (∀ items, v ≠ .list items) → P v)
    (list : ∀ items, (∀ item ∈ items, P item) → P (.list items)) : ∀ v, P v := by
  intro v
  refine @AttributeValue.rec P (fun items => ∀ item ∈ items, P item) ?_ ?_ ?_ ?_ ?_ list ?_ ?_ ?_ v
  · exact single _ nofun
  · exact fun b => single _ nofun
  · exact fun n => single _ nofun
  · exact fun x => single _ nofun
  · exact fun s => single _ nofun
  · exact fun r => single _ nofun
  · simp
  · exact fun item items hitem hitems => List.forall_mem_cons.mpr ⟨hitem, hitems⟩

mutual

def leaves : AttributeValue → List AttributeValue
  | .list items => leavesOf items
  | value => [value]

def leavesOf : List AttributeValue → List AttributeValue
  | [] => []
  | item :: rest => leaves item ++ leavesOf rest

end

theorem leavesOf_eq_flatMap (items : List AttributeValue) :
    leavesOf items = items.flatMap leaves := by
  induction items with
  | nil => rfl
  | cons item items ih => rw [leavesOf, ih, List.flatMap_cons]

theorem leaves_single {v : AttributeValue} (h : ∀ items, v ≠ .list items) : leaves v = [v] := by
  cases v with
  | list items => exact absurd rfl (h items)
  | _ => rfl

end AttributeValue

namespace Condition

def asksPresence : Condition → Bool
  | .null | .notNull => true
  | _ => false

/-- The condition is met by a list when all of its items meet it, and not when one of them does. -/
def asksAll : Condition → Bool
  | .neq _ | .notIn _ => true
  | _ => false

end Condition

namespace Filter

section Leaves

variable [RegexLibrary] {condition : Condition}

theorem holds_single {v : AttributeValue} (h : ∀ items, v ≠ .list items) :
    holds condition v = holdsSingle v condition := by
  cases v with
  | list items => exact absurd rfl (h items)
  | _ => rfl

theorem holdsAll_eq_all (items : List AttributeValue) :
    holdsAll condition items = items.all (holds condition) := by
  induction items with
  | nil => rfl
  | cons item items ih => rw [holdsAll, ih, List.all_cons]

theorem holdsAny_eq_any (items : List AttributeValue) :
    holdsAny condition items = items.any (holds condition) := by
  induction items with
  | nil => rfl
  | cons item items ih => rw [holdsAny, ih, List.any_cons]

/-- A list meets a condition that asks for all when every item meets it. -/
theorem holds_list_all (h : condition.asksAll = true) (items : List AttributeValue) :
    holds condition (.list items) = items.all (holds condition) := by
  cases condition with
  | neq | notIn => rw [holds, holdsAll_eq_all]
  | _ => cases h

/-- A list meets any other condition but one of presence when an item meets it. -/
theorem holds_list_any (hpresence : condition.asksPresence = false)
    (h : condition.asksAll = false) (items : List AttributeValue) :
    holds condition (.list items) = items.any (holds condition) := by
  cases condition with
  | neq | notIn => cases h
  | null | notNull => cases hpresence
  | _ => rw [holds, holdsAny_eq_any] <;> exact nofun

/-- A condition that asks for all holds of a value when it holds of every leaf. -/
theorem holds_iff_forall_leaves (h : condition.asksAll = true) (v : AttributeValue) :
    holds condition v = true ↔ ∀ leaf ∈ v.leaves, holdsSingle leaf condition = true := by
  induction v using AttributeValue.induction with
  | single v hv =>
    rw [holds_single hv, AttributeValue.leaves_single hv, List.forall_mem_singleton]
  | list items ih =>
    rw [holds_list_all h, List.all_eq_true, AttributeValue.leaves,
      AttributeValue.leavesOf_eq_flatMap, List.forall_mem_flatMap]
    exact forall₂_congr ih

/-- Any other condition that does not ask for presence holds of a value when it holds of a leaf. -/
theorem holds_iff_exists_leaf (hpresence : condition.asksPresence = false)
    (h : condition.asksAll = false) (v : AttributeValue) :
    holds condition v = true ↔ ∃ leaf ∈ v.leaves, holdsSingle leaf condition = true := by
  induction v using AttributeValue.induction with
  | single v hv =>
    rw [holds_single hv, AttributeValue.leaves_single hv]
    simp
  | list items ih =>
    rw [holds_list_any hpresence h, List.any_eq_true, AttributeValue.leaves,
      AttributeValue.leavesOf_eq_flatMap]
    simp only [List.mem_flatMap]
    constructor
    · rintro ⟨item, hi, hitem⟩
      obtain ⟨leaf, hleaf, hholds⟩ := (ih item hi).mp hitem
      exact ⟨leaf, ⟨item, hi, hleaf⟩, hholds⟩
    · rintro ⟨leaf, ⟨item, hi, hleaf⟩, hholds⟩
      exact ⟨item, hi, (ih item hi).mpr ⟨leaf, hleaf, hholds⟩⟩

end Leaves

section Operands

variable {v leaf : AttributeValue} {x : Operand} {xs : List Operand}

/-- To differ from an operand a value must be comparable with it. -/
theorem holdsSingle_neq [RegexLibrary] : holdsSingle leaf (.neq x) = true ↔
    ∃ order, compare? leaf x = some order ∧ order ≠ .eq := by
  rw [holdsSingle]
  cases compare? leaf x <;> simp

/-- To be outside a set a value must not be null, but need not be comparable with the operands. -/
theorem holdsSingle_notIn [RegexLibrary] : holdsSingle leaf (.notIn xs) = true ↔
    leaf.isNull = false ∧ ∀ x ∈ xs, compare? leaf x ≠ some .eq := by
  simp [holdsSingle]

/-- Null is compared with nothing. -/
theorem isNull_of_compare? {order : Ordering} (h : compare? leaf x = some order) :
    leaf.isNull = false := by
  cases leaf with
  | null => cases h
  | _ => rfl

/-- A value is in a set when it equals one of the set's operands. -/
theorem holds_isIn [RegexLibrary] : holds (.isIn xs) v = true ↔ ∃ x ∈ xs, holds (.eq x) v = true :=
    by
  simp only [@holds_iff_exists_leaf _ (.isIn xs) rfl rfl,
    fun x => @holds_iff_exists_leaf _ (.eq x) rfl rfl, holdsSingle, List.any_eq_true]
  constructor
  · rintro ⟨leaf, hleaf, x, hx, heq⟩
    exact ⟨x, hx, leaf, hleaf, heq⟩
  · rintro ⟨x, hx, leaf, hleaf, heq⟩
    exact ⟨leaf, hleaf, x, hx, heq⟩

/-- A value differs from each operand of a set when it is outside the set and each of its leaves
can be compared with each operand. -/
theorem holds_neq_all [RegexLibrary] (hne : xs ≠ []) : (∀ x ∈ xs, holds (.neq x) v = true) ↔
    holds (.notIn xs) v = true ∧
      ∀ leaf ∈ v.leaves, ∀ x ∈ xs, (compare? leaf x).isSome = true := by
  simp only [@holds_iff_forall_leaves _ (.notIn xs) rfl,
    fun x => @holds_iff_forall_leaves _ (.neq x) rfl, holdsSingle_neq, holdsSingle_notIn]
  constructor
  · intro h
    refine ⟨fun leaf hleaf => ⟨?_, fun x hx heq => ?_⟩, fun leaf hleaf x hx => ?_⟩
    · obtain ⟨x, hx⟩ := List.exists_mem_of_ne_nil xs hne
      obtain ⟨order, horder, _⟩ := h x hx leaf hleaf
      exact isNull_of_compare? horder
    · obtain ⟨order, horder, hdiffers⟩ := h x hx leaf hleaf
      exact hdiffers (Option.some.inj (horder.symm.trans heq))
    · obtain ⟨order, horder, _⟩ := h x hx leaf hleaf
      exact Option.isSome_iff_exists.mpr ⟨order, horder⟩
  · rintro ⟨houtside, hcompares⟩ x hx leaf hleaf
    obtain ⟨order, horder⟩ := Option.isSome_iff_exists.mp (hcompares leaf hleaf x hx)
    refine ⟨order, horder, ?_⟩
    rintro rfl
    exact (houtside leaf hleaf).2 x hx horder

end Operands

variable {kind : ScalarKind} {field : String} {op : Operator} {operand : Value} {k : Constraint}

def single (op : Operator) (operand : Value) : Value := .object [(op.key, operand)]

/-- An object of one operator is read when the operator has a meaning for the type and its operand
fits. -/
theorem readConstraint_single : readConstraint kind field (single op operand) = .ok k ↔
    (op ∈ Operator.vocabulary kind ∧ operand.isNull = false) ∧
      ∃ condition, readCondition kind field op operand = .ok condition ∧
        ⟨field, condition⟩ = k := by
  rw [readConstraint_eq_ok]
  constructor
  · rintro ⟨_, operators, ⟨⟩, ho, hcondition, rfl⟩
    have hentries := readOperators_eq_ok.mp ho
    cases hnull : operand.isNull with
    | true =>
      -- A null operand is left out, and no operator is no condition.
      rw [given, List.filter_singleton, hnull] at hentries
      obtain rfl := List.forall₂_nil_left_iff.mp hentries
      cases hcondition
    | false =>
      rw [given, List.filter_singleton, hnull] at hentries
      obtain ⟨⟨other, _⟩, rest, ⟨⟨hmem, hkey⟩, rfl⟩, hrest, rfl⟩ :=
        List.forall₂_cons_left_iff.mp hentries
      have hop : other = op := Operator.key_injective hkey
      subst hop
      obtain rfl := List.forall₂_nil_left_iff.mp hrest
      rw [readCombination_single] at hcondition
      exact ⟨⟨hmem, rfl⟩, _, hcondition, rfl⟩
  · rintro ⟨⟨hmem, hnull⟩, condition, hcondition, rfl⟩
    refine ⟨_, [(op, operand)], rfl, readOperators_eq_ok.mpr ?_, ?_, rfl⟩
    · rw [given, List.filter_singleton, hnull]
      exact .cons ⟨⟨hmem, rfl⟩, rfl⟩ .nil
    · rw [readCombination_single]
      exact hcondition

/-- The operands that a value lists: one that is no list stands for a list of one. -/
def listed : Value → List Value
  | .list items => items
  | operand => [operand]

/-- The operands of a set are those of what the value lists, one by one. -/
theorem readOperands_eq_ok {xs : List Operand} : readOperands kind field op operand = .ok xs ↔
    List.Forall₂ (fun item x => operand? kind item = some x) (listed operand) xs := by
  cases operand with
  | list items => simp only [readOperands, Outcome.mapM_eq_ok, readOperand_eq_ok, listed]
  | _ =>
    simp only [readOperands, Outcome.map_eq_ok, readOperand_eq_ok, listed]
    constructor
    · rintro ⟨x, hx, rfl⟩
      exact .cons hx .nil
    · intro h
      obtain ⟨x, rest, hx, hrest, rfl⟩ := List.forall₂_cons_left_iff.mp h
      obtain rfl := List.forall₂_nil_left_iff.mp hrest
      exact ⟨x, hx, rfl⟩

/-- A value meets a filter of one operator: the filter is read, and its condition holds. -/
def Meets [RegexLibrary] (kind : ScalarKind) (field : String) (op : Operator) (operand : Value)
    (v : AttributeValue) : Prop :=
  ∃ k, readConstraint kind field (single op operand) = .ok k ∧ holds k.condition v = true

def Comparable (kind : ScalarKind) (leaf : AttributeValue) (x : Value) : Prop :=
  ∃ y, operand? kind x = some y ∧ (compare? leaf y).isSome = true

/-- A value is comparable with a literal when it is with the operand that the literal stands for. -/
theorem comparable_iff {leaf : AttributeValue} {x : Value} {y : Operand}
    (hy : operand? kind x = some y) :
    Comparable kind leaf x ↔ (compare? leaf y).isSome = true := by
  rw [Comparable, hy]
  simp

/-- The operators that compare with one operand and with a set of them come together. -/
theorem vocabulary_sets (hop : op = .isIn ∨ op = .notIn) (h : op ∈ Operator.vocabulary kind) :
    Operator.eq ∈ Operator.vocabulary kind ∧ Operator.neq ∈ Operator.vocabulary kind ∧
      Operator.isIn ∈ Operator.vocabulary kind ∧ Operator.notIn ∈ Operator.vocabulary kind := by
  rcases hop with rfl | rfl <;> cases kind <;> revert h <;> decide

section Sets

/-- Statements about the members of two lists agree when they do of the pairs. -/
theorem forall_mem_congr {α β : Type} {R : α → β → Prop} {P : α → Prop} {Q : β → Prop}
    {items : List α} {others : List β} (h : List.Forall₂ R items others)
    (hPQ : ∀ {a b}, R a b → (P a ↔ Q b)) : (∀ a ∈ items, P a) ↔ ∀ b ∈ others, Q b := by
  induction h with
  | nil => simp
  | cons hR _ ih => rw [List.forall_mem_cons, List.forall_mem_cons, hPQ hR, ih]

theorem exists_mem_congr {α β : Type} {R : α → β → Prop} {P : α → Prop} {Q : β → Prop}
    {items : List α} {others : List β} (h : List.Forall₂ R items others)
    (hPQ : ∀ {a b}, R a b → (P a ↔ Q b)) : (∃ a ∈ items, P a) ↔ ∃ b ∈ others, Q b := by
  induction h with
  | nil => simp
  | cons hR _ ih => rw [List.exists_mem_cons_iff, List.exists_mem_cons_iff, hPQ hR, ih]

variable {x xs : Value} {y : Operand} {ys : List Operand} {v : AttributeValue}

/-- Where a filter is read, to meet it is to meet its condition. -/
theorem meets_of_read [RegexLibrary] (h : readConstraint kind field (single op operand) = .ok k) :
    Meets kind field op operand v ↔ holds k.condition v = true := by
  constructor
  · rintro ⟨k', hk', hholds⟩
    rw [Except.ok.inj (h.symm.trans hk')]
    exact hholds
  · exact fun hholds => ⟨k, h, hholds⟩

theorem isNull_of_operand? (hy : operand? kind x = some y) : x.isNull = false := by
  cases x with
  | null => cases kind <;> cases hy
  | _ => rfl

/-- An operator that compares with one operand is read with a literal. -/
theorem read_one {make : Operand → Condition}
    (hread : readCondition kind field op x = (readOperand kind field op x).map make)
    (hmem : op ∈ Operator.vocabulary kind) (hy : operand? kind x = some y) :
    readConstraint kind field (single op x) = .ok ⟨field, make y⟩ := by
  refine readConstraint_single.mpr ⟨⟨hmem, isNull_of_operand? hy⟩, make y, ?_, rfl⟩
  rw [hread, readOperand_eq_ok.mpr hy]
  rfl

/-- An operator that compares with a set of operands is read with the literals of the set. -/
theorem read_set {make : List Operand → Condition}
    (hread : readCondition kind field op xs = (readOperands kind field op xs).map make)
    (hmem : op ∈ Operator.vocabulary kind)
    (hys : List.Forall₂ (fun item y => operand? kind item = some y) (listed xs) ys) :
    readConstraint kind field (single op xs) = .ok ⟨field, make ys⟩ := by
  have hnull : xs.isNull = false := by
    cases xs with
    | null =>
      obtain ⟨y, _, hy, _⟩ := List.forall₂_cons_left_iff.mp hys
      exact isNull_of_operand? hy
    | _ => rfl
  refine readConstraint_single.mpr ⟨⟨hmem, hnull⟩, make ys, ?_, rfl⟩
  rw [hread, readOperands_eq_ok.mpr hys]
  rfl

/-- The operands of a set that is read. -/
theorem operands_of_read (hop : op = .isIn ∨ op = .notIn)
    (h : readConstraint kind field (single op xs) = .ok k) :
    op ∈ Operator.vocabulary kind ∧
      ∃ ys, List.Forall₂ (fun item y => operand? kind item = some y) (listed xs) ys := by
  obtain ⟨⟨hmem, _⟩, condition, hcondition, _⟩ := readConstraint_single.mp h
  refine ⟨hmem, ?_⟩
  rcases hop with rfl | rfl
  all_goals
    obtain ⟨ys, hys, _⟩ := Outcome.map_eq_ok.mp hcondition
    exact ⟨ys, readOperands_eq_ok.mp hys⟩

/-- Where a set of operands is read, each of its operands is read alone. A value is in the set when
it equals one of the operands. It differs from all of them when it is outside the set and each of
its leaves can be compared with each operand. -/
theorem sets_pointwise [RegexLibrary] (hop : op = .isIn ∨ op = .notIn)
    (h : readConstraint kind field (single op xs) = .ok k) (hne : listed xs ≠ []) :
    (∀ other, other = .isIn ∨ other = .notIn →
      ∃ k, readConstraint kind field (single other xs) = .ok k) ∧
    (∀ x ∈ listed xs, ∀ other, other = .eq ∨ other = .neq →
      ∃ k, readConstraint kind field (single other x) = .ok k) ∧
    (∀ v, Meets kind field .isIn xs v ↔ ∃ x ∈ listed xs, Meets kind field .eq x v) ∧
    (∀ v, (∀ x ∈ listed xs, Meets kind field .neq x v) ↔ Meets kind field .notIn xs v ∧
      ∀ leaf ∈ v.leaves, ∀ x ∈ listed xs, Comparable kind leaf x) := by
  obtain ⟨hmem, ys, hys⟩ := operands_of_read hop h
  obtain ⟨heq, hneq, hin, hnot⟩ := vocabulary_sets hop hmem
  have hisIn : readConstraint kind field (single .isIn xs) = .ok ⟨field, .isIn ys⟩ :=
    read_set rfl hin hys
  have hnotIn : readConstraint kind field (single .notIn xs) = .ok ⟨field, .notIn ys⟩ :=
    read_set rfl hnot hys
  -- Both kinds of operators read the same operands, so the set splits into its members.
  have hone : ∀ {x y}, operand? kind x = some y →
      readConstraint kind field (single .eq x) = .ok ⟨field, .eq y⟩ ∧
        readConstraint kind field (single .neq x) = .ok ⟨field, .neq y⟩ :=
    fun hy => ⟨read_one rfl heq hy, read_one rfl hneq hy⟩
  refine ⟨?_, ?_, fun v => ?_, fun v => ?_⟩
  · rintro other (rfl | rfl)
    · exact ⟨_, hisIn⟩
    · exact ⟨_, hnotIn⟩
  · intro x hx other hother
    obtain ⟨y, _, hy⟩ := Outcome.exists_mem_right hys hx
    rcases hother with rfl | rfl
    · exact ⟨_, (hone hy).1⟩
    · exact ⟨_, (hone hy).2⟩
  · rw [meets_of_read hisIn, holds_isIn]
    exact (exists_mem_congr hys fun hy => meets_of_read (hone hy).1).symm
  · -- Over an empty set every value would be unequal, and none would have to compare.
    have hne' : ys ≠ [] := by
      rintro rfl
      exact hne (List.forall₂_nil_right_iff.mp hys)
    have hall : (∀ x ∈ listed xs, Meets kind field .neq x v) ↔
        ∀ y ∈ ys, holds (.neq y) v = true :=
      forall_mem_congr hys fun hy => meets_of_read (hone hy).2
    have hcompares : ∀ leaf, (∀ x ∈ listed xs, Comparable kind leaf x) ↔
        ∀ y ∈ ys, (compare? leaf y).isSome = true :=
      fun leaf => forall_mem_congr hys fun hy => comparable_iff hy
    rw [meets_of_read hnotIn, hall, holds_neq_all hne']
    simp only [hcompares]

/-- A list of integers, one of them in a list of its own, is outside a set of others and differs
from each of its operands. -/
theorem sets_pointwise_integers :
    readConstraint .int "" (single .notIn (.list [.number (.integer 1), .number (.integer 2)])) =
      .ok ⟨"", .notIn [.int 1, .int 2]⟩ ∧
    ∀ x ∈ [.number (.integer 1), .number (.integer 2)],
      Meets .int "" .neq x (.list [.int 3, .list [.int 4]]) := by
  have hread : readConstraint .int ""
      (single .notIn (.list [.number (.integer 1), .number (.integer 2)])) =
        .ok ⟨"", .notIn [.int 1, .int 2]⟩ := rfl
  refine ⟨hread, ?_⟩
  have hcompares : ∀ leaf ∈ (AttributeValue.list [.int 3, .list [.int 4]]).leaves,
      ∀ x ∈ [.number (.integer 1), .number (.integer 2)], Comparable .int leaf x := by
    have hone : operand? .int (.number (.integer 1)) = some (.int 1) := rfl
    have htwo : operand? .int (.number (.integer 2)) = some (.int 2) := rfl
    simp [AttributeValue.leaves, AttributeValue.leavesOf, comparable_iff hone, comparable_iff htwo,
      compare?]
  refine ((sets_pointwise (.inr rfl) hread nofun).2.2.2 _).mpr ⟨?_, hcompares⟩
  exact (meets_of_read hread).mpr rfl

/-- A text that stands for no integer is outside a set of integers, and differs from none of
them. -/
theorem text_outside_integers :
    Meets .int "" .notIn (.list [.number (.integer 1)]) (.string "abc") ∧
      ¬ Meets .int "" .neq (.number (.integer 1)) (.string "abc") := by
  have hnotIn : readConstraint .int "" (single .notIn (.list [.number (.integer 1)])) =
      .ok ⟨"", .notIn [.int 1]⟩ := rfl
  have hneq : readConstraint .int "" (single .neq (.number (.integer 1))) =
      .ok ⟨"", .neq (.int 1)⟩ := rfl
  have hnone : compare? (.string "abc") (.int 1) = none := rfl
  rw [meets_of_read hnotIn, meets_of_read hneq]
  simp [holds, holdsSingle, hnone, AttributeValue.isNull]

end Sets

end Filter

end EntityGraph
