import EntityGraph.Proofs.Filter.Parts
import EntityGraph.Proofs.Number

namespace EntityGraph

/-- Lists are equal when their items are equal in pairs. -/
theorem beq_list_iff {α : Type} [BEq α] {xs ys : List α} :
    (xs == ys) = true ↔ List.Forall₂ (fun x y => (x == y) = true) xs ys := by
  induction xs generalizing ys with
  | nil => cases ys <;> simp
  | cons x xs ih =>
    cases ys with
    | nil => simp
    | cons y ys => rw [List.cons_beq_cons, Bool.and_eq_true, List.forall₂_cons, ih]

theorem beq_list_self {α : Type} [BEq α] {xs : List α} :
    (xs == xs) = true ↔ ∀ x ∈ xs, (x == x) = true := by
  rw [beq_list_iff, List.forall₂_same]

theorem forall₂_trans {α : Type} {R : α → α → Prop} (hR : ∀ x y z, R x y → R y z → R x z)
    {xs ys zs : List α} (hxy : List.Forall₂ R xs ys) (hyz : List.Forall₂ R ys zs) :
    List.Forall₂ R xs zs := by
  induction hxy generalizing zs with
  | nil => exact hyz
  | cons hx _ ih =>
    cases hyz with
    | cons hy hyz => exact .cons (hR _ _ _ hx hy) (ih hyz)

instance listPartialEquivBEq {α : Type} [BEq α] [PartialEquivBEq α] :
    PartialEquivBEq (List α) where
  symm h := by
    rw [beq_list_iff] at h ⊢
    exact h.flip.imp fun _ _ => PartialEquivBEq.symm
  trans hxy hyz := by
    rw [beq_list_iff] at hxy hyz ⊢
    exact forall₂_trans (R := fun x y : α => (x == y) = true)
      (fun _ _ _ => PartialEquivBEq.trans) hxy hyz

theorem Operand.beq_eq (x y : Operand) : (x == y) = instBEqOperand.beq x y := rfl

instance : PartialEquivBEq Operand where
  symm := by
    intro x y h
    rw [Operand.beq_eq] at h ⊢
    cases x <;> cases y <;> simp only [instBEqOperand.beq, Bool.false_eq_true] at h ⊢ <;>
      exact PartialEquivBEq.symm h
  trans := by
    intro x y z hxy hyz
    rw [Operand.beq_eq] at hxy hyz ⊢
    cases x <;> cases y <;> simp only [instBEqOperand.beq, Bool.false_eq_true] at hxy <;>
      cases z <;> simp only [instBEqOperand.beq, Bool.false_eq_true] at hyz ⊢ <;>
      exact PartialEquivBEq.trans hxy hyz

def Condition.operands : Condition → List Operand
  | .eq v | .neq v | .lt v | .lteq v | .gt v | .gteq v => [v]
  | .isIn vs | .notIn vs => vs
  | .range lower upper => [lower, upper]
  | .like _ | .findInSet _ | .null | .notNull => []

def Condition.form : Condition → Condition
  | .eq _ => .eq (.boolean false)
  | .neq _ => .neq (.boolean false)
  | .lt _ => .lt (.boolean false)
  | .lteq _ => .lteq (.boolean false)
  | .gt _ => .gt (.boolean false)
  | .gteq _ => .gteq (.boolean false)
  | .isIn _ => .isIn []
  | .notIn _ => .notIn []
  | .range _ _ => .range (.boolean false) (.boolean false)
  | other => other

/-- Conditions are equal when they have one form and equal operands. -/
theorem Condition.beq_iff {x y : Condition} :
    (x == y) = true ↔ x.form = y.form ∧ (x.operands == y.operands) = true := by
  cases x <;> cases y <;> first
    | (show false = true ↔ _; simp [form])
    | (show true = true ↔ _; simp [form, operands])
    | (show ((_ : Operand) == _) = true ↔ _; simp [form, operands])
    | (show ((_ : List Operand) == _) = true ↔ _; simp [form, operands])
    | (show ((_ : String) == _) = true ↔ _; simp [form, operands])
    | (show ((_ : Operand) == _ && (_ : Operand) == _) = true ↔ _; simp [form, operands])

instance : PartialEquivBEq Condition where
  symm := by
    intro x y h
    obtain ⟨hf, ho⟩ := Condition.beq_iff.mp h
    exact Condition.beq_iff.mpr ⟨hf.symm, PartialEquivBEq.symm ho⟩
  trans := by
    intro x y z hxy hyz
    obtain ⟨hf, ho⟩ := Condition.beq_iff.mp hxy
    obtain ⟨hf', ho'⟩ := Condition.beq_iff.mp hyz
    exact Condition.beq_iff.mpr ⟨hf.trans hf', PartialEquivBEq.trans ho ho'⟩

theorem Constraint.beq_iff {x y : Constraint} :
    (x == y) = true ↔ x.field = y.field ∧ (x.condition == y.condition) = true := by
  show instBEqConstraint.beq x y = true ↔ _
  simp [instBEqConstraint.beq]

instance : PartialEquivBEq Constraint where
  symm := by
    intro x y h
    obtain ⟨hf, hc⟩ := Constraint.beq_iff.mp h
    exact Constraint.beq_iff.mpr ⟨hf.symm, PartialEquivBEq.symm hc⟩
  trans := by
    intro x y z hxy hyz
    obtain ⟨hf, hc⟩ := Constraint.beq_iff.mp hxy
    obtain ⟨hf', hc'⟩ := Constraint.beq_iff.mp hyz
    exact Constraint.beq_iff.mpr ⟨hf.trans hf', PartialEquivBEq.trans hc hc'⟩

/-- Only an operand that is no number can make a condition unequal to itself. -/
theorem Condition.beq_self {x : Condition} :
    (x == x) = true ↔ ∀ v ∈ x.operands, (v == v) = true := by
  rw [beq_iff, beq_list_self]
  simp

theorem Constraint.beq_self {k : Constraint} :
    (k == k) = true ↔ (k.condition == k.condition) = true := by
  rw [beq_iff]
  simp

namespace Filter

/-- An operand that is read of a value without NaN equals itself. -/
theorem operand?_beq_self {kind : ScalarKind} {v : Value} (hv : v.NaNFree) {o : Operand}
    (h : operand? kind v = some o) : (o == o) = true := by
  rw [operand?.eq_def] at h
  split at h
  · obtain rfl := Option.some.inj h
    exact beq_self_eq_true (α := String) _
  · obtain rfl := Option.some.inj h
    exact beq_self_eq_true (α := String) _
  · obtain rfl := Option.some.inj h
    exact beq_self_eq_true (α := String) _
  · obtain ⟨i, _, rfl⟩ := Option.map_eq_some_iff.mp h
    exact beq_self_eq_true (α := Int) _
  · obtain rfl := Option.some.inj h
    exact Floating.beq_self (Number.isNaN_toFloat hv.isNaN)
  · obtain rfl := Option.some.inj h
    exact beq_self_eq_true (α := Bool) _
  · cases h

theorem readOperand_beq_self {kind : ScalarKind} {field : String} {op : Operator} {v : Value}
    (hv : v.NaNFree) {o : Operand} (h : readOperand kind field op v = .ok o) : (o == o) = true :=
  operand?_beq_self hv (readOperand_eq_ok.mp h)

theorem readOperands_beq_self {kind : ScalarKind} {field : String} {op : Operator} {v : Value}
    (hv : v.NaNFree) {os : List Operand} (h : readOperands kind field op v = .ok os) :
    ∀ o ∈ os, (o == o) = true := by
  rw [readOperands.eq_def] at h
  split at h
  · intro o ho
    obtain ⟨item, hi, hr⟩ := Outcome.exists_mem_left (Outcome.mapM_eq_ok.mp h) ho
    exact readOperand_beq_self (hv.item hi) hr
  · obtain ⟨o, hr, rfl⟩ := Outcome.map_eq_ok.mp h
    simpa using readOperand_beq_self hv hr

theorem readCondition_beq_self {kind : ScalarKind} {field : String} {op : Operator} {v : Value}
    (hv : v.NaNFree) {k : Condition} (h : readCondition kind field op v = .ok k) :
    (k == k) = true := by
  rw [Condition.beq_self]
  cases op with
  | lower => cases h
  | upper => cases h
  | null =>
    obtain ⟨b, _, rfl⟩ := Outcome.map_eq_ok.mp h
    cases b <;> simp [Condition.operands]
  | notNull =>
    obtain ⟨b, _, rfl⟩ := Outcome.map_eq_ok.mp h
    cases b <;> simp [Condition.operands]
  -- A text has no numbers in it. All other operators have the operands that were read.
  | like | findInSet =>
    obtain ⟨s, _, rfl⟩ := Outcome.map_eq_ok.mp h
    simp [Condition.operands]
  | isIn | notIn =>
    obtain ⟨os, hr, rfl⟩ := Outcome.map_eq_ok.mp h
    exact readOperands_beq_self hv hr
  | _ =>
    obtain ⟨o, hr, rfl⟩ := Outcome.map_eq_ok.mp h
    simpa [Condition.operands] using readOperand_beq_self hv hr

theorem readRange_beq_self {kind : ScalarKind} {field : String} {lower upper : Value}
    (hl : lower.NaNFree) (hu : upper.NaNFree) {k : Condition}
    (h : readRange kind field lower upper = .ok k) : (k == k) = true := by
  obtain ⟨l, hrl, h⟩ := Outcome.bind_eq_ok.mp h
  obtain ⟨u, hru, h⟩ := Outcome.bind_eq_ok.mp h
  obtain rfl := Except.ok.inj h
  rw [Condition.beq_self]
  simp [Condition.operands, readOperand_beq_self hl hrl, readOperand_beq_self hu hru]

/-- Reading operators brings in no NaN. -/
theorem nanFree_of_readOperators {kind : ScalarKind} {field : String} {entries : Arguments}
    {operators : List (Operator × Value)} (he : ∀ entry ∈ entries, entry.2.NaNFree)
    (h : readOperators kind field entries = .ok operators) :
    ∀ operator ∈ operators, operator.2.NaNFree := by
  intro operator ho
  obtain ⟨⟨key, v⟩, hm, hr⟩ := Outcome.exists_mem_left (Outcome.mapM_eq_ok.mp h) ho
  have hv : v.NaNFree := he (key, v) (List.mem_of_mem_filter hm)
  dsimp only at hr
  split at hr
  · obtain rfl := Except.ok.inj hr
    exact hv
  · cases hr

theorem readCombination_beq_self {kind : ScalarKind} {field : String}
    {operators : List (Operator × Value)} (ho : ∀ operator ∈ operators, operator.2.NaNFree)
    {k : Condition} (h : readCombination kind field operators = .ok k) : (k == k) = true := by
  rw [readCombination.eq_def] at h
  split at h
  · simp only [List.forall_mem_cons] at ho
    exact readRange_beq_self ho.1 ho.2.1 h
  · simp only [List.forall_mem_cons] at ho
    exact readRange_beq_self ho.2.1 ho.1 h
  · simp only [List.forall_mem_cons] at ho
    exact readCondition_beq_self ho.1 h
  · cases h

theorem readConstraint_beq_self {kind : ScalarKind} {field : String} {v : Value} (hv : v.NaNFree)
    {k : Constraint} (h : readConstraint kind field v = .ok k) : (k == k) = true := by
  obtain ⟨entries, operators, rfl, ho, hc, _⟩ := readConstraint_eq_ok.mp h
  have he : ∀ entry ∈ entries, entry.2.NaNFree := fun _ => hv.field
  exact Constraint.beq_self.mpr (readCombination_beq_self (nanFree_of_readOperators he ho) hc)

theorem below_beq_self {path : String} {ks : List Constraint}
    (h : ∀ k ∈ ks, (k == k) = true) :
    ∀ k ∈ ks.map (Constraint.below path), (k == k) = true := by
  intro k hk
  obtain ⟨k, hm, rfl⟩ := List.mem_map.mp hk
  exact Constraint.beq_self.mpr (Constraint.beq_self (k := k).mp (h k hm))

/-- The constraints that are read of a value without NaN equal themselves. -/
theorem readObject_beq_self (c : Catalog) (v : Value) : ∀ {e : Entity} {t : FilterTree Constraint},
    v.NaNFree → readObject c e "" v = .ok t → ∀ k ∈ t.leaves, (k == k) = true := by
  induction v using Value.filter_induction with
  | other v hv =>
    intro e t _ h
    obtain ⟨fields, rfl⟩ := isObject_of_readObject h
    cases hv
  | object fields ihfield ihitem =>
    intro e t hv h
    obtain ⟨trees, htrees, rfl⟩ := readObject_gives.mp h
    intro k hk
    rw [FilterTree.leaves_node, List.mem_flatMap] at hk
    obtain ⟨t, ht, hk⟩ := hk
    obtain ⟨ts, hts, ht⟩ := List.mem_flatten.mp ht
    obtain ⟨key, value, hf, hg⟩ := htrees.of_tree hts
    have hvalue : value.NaNFree := hv.field hf
    cases hg with
    | join | noChildren | absent => cases ht
    | child hread =>
      obtain rfl := List.mem_singleton.mp ht
      exact ihfield _ hf hvalue hread k hk
    | children hread =>
      obtain ⟨item, hi, hread⟩ := Outcome.exists_mem_left hread ht
      exact ihitem _ hf _ rfl item hi (hvalue.item hi) hread k hk
    | scalar hcon hkind hread =>
      obtain rfl := List.mem_singleton.mp ht
      rw [FilterTree.leaves_leaf, List.mem_singleton] at hk
      rw [hk]
      exact readConstraint_beq_self hvalue hread
    | single hcon hkind htarget hrep hread =>
      obtain rfl := List.mem_singleton.mp ht
      rw [FilterTree.leaves_map] at hk
      exact below_beq_self (ihfield _ hf hvalue hread) k hk
    | @repeating _ _ _ _ _ kept hcon hkind htarget hrep hread hkept =>
      -- What is kept has leaves of the tree that was read only.
      obtain ⟨s, rfl, rfl⟩ : ∃ s, kept = some s ∧ t = s.map (Constraint.below (key ++ ".")) := by
        cases kept with
        | none => cases ht
        | some s => exact ⟨s, rfl, List.mem_singleton.mp ht⟩
      have hsub := FilterTree.leaves_simplify (FilterTree.simplify_of_perElement? hkept).1
      rw [FilterTree.leaves_map] at hk
      exact below_beq_self (fun k hk => ihfield _ hf hvalue hread k (hsub.mem hk)) k hk

/-- The groups of a filter without NaN equal themselves. -/
theorem compile_beq_self {c : Catalog} {e : Entity} {v : Value} {groups : List FilterGroup}
    (hv : v.NaNFree) (h : compile c e v = .ok groups) : (groups == groups) = true := by
  rcases compile_eq_ok.mp h with ⟨_, rfl⟩ | ⟨t, hread, hgroups⟩
  · rfl
  · refine beq_list_self.mpr fun group hg => beq_list_self.mpr fun k hk => ?_
    exact readObject_beq_self c v hv hread k (FilterTree.mem_leaves_of_groups? hgroups hg hk)

/-- A filter on bare scalars that is compiled of a value without NaN equals itself. -/
theorem compileScalar_beq_self {kind : ScalarKind} {v : Value} {groups : List FilterGroup}
    (hv : v.NaNFree) (h : compileScalar kind v = .ok groups) : (groups == groups) = true := by
  rw [compileScalar] at h
  split at h
  · obtain rfl := Except.ok.inj h
    rfl
  · obtain ⟨k, hread, h⟩ := Outcome.bind_eq_ok.mp h
    obtain rfl := Except.ok.inj h
    simpa [beq_list_self] using readConstraint_beq_self hv hread

end Filter

end EntityGraph
