import EntityGraph.Filter.Tree
import EntityGraph.Proofs.Outcome

/-!
The meaning of filter trees, and what simplification keeps of it. Main statement:
`simplify_normalForm`: a simplified tree is in normal form, has the value of the tree it comes from,
and has its leaves in their order.
-/

namespace EntityGraph

/-- Truth values joined. A join of nothing is true. -/
def Join.combine : Join → List Bool → Bool
  | .all, values => values.all id
  | .any, values => values.isEmpty || values.any id

theorem Join.combine_all_iff {values : List Bool} :
    Join.all.combine values = true ↔ ∀ b ∈ values, b = true := by
  simp [Join.combine]

/-- An empty `any` holds, as the empty `all` does. -/
theorem Join.combine_any_iff {values : List Bool} :
    Join.any.combine values = true ↔ values = [] ∨ true ∈ values := by
  simp [Join.combine]

namespace FilterTree

variable {α β : Type}

/-- Induction with a hypothesis for every child of a node. -/
@[elab_as_elim]
theorem induction {P : FilterTree α → Prop} (leaf : ∀ a, P (.leaf a))
    (node : ∀ join children, (∀ t ∈ children, P t) → P (.node join children)) : ∀ t, P t := by
  intro t
  refine @FilterTree.rec α P (fun ts => ∀ t ∈ ts, P t) leaf node (by simp) ?_ t
  intro t ts ht hts s hs
  rcases List.mem_cons.mp hs with rfl | hs
  · exact ht
  · exact hts s hs

mutual

def eval (val : α → Bool) : FilterTree α → Bool
  | .leaf a => val a
  | .node join children => join.combine (evals val children)

def evals (val : α → Bool) : List (FilterTree α) → List Bool
  | [] => []
  | t :: rest => eval val t :: evals val rest

end

mutual

def leaves : FilterTree α → List α
  | .leaf a => [a]
  | .node _ children => leavesOf children

def leavesOf : List (FilterTree α) → List α
  | [] => []
  | t :: rest => leaves t ++ leavesOf rest

end

mutual

def map (f : α → β) : FilterTree α → FilterTree β
  | .leaf a => .leaf (f a)
  | .node join children => .node join (maps f children)

def maps (f : α → β) : List (FilterTree α) → List (FilterTree β)
  | [] => []
  | t :: rest => map f t :: maps f rest

end

theorem evals_eq_map (val : α → Bool) (ts : List (FilterTree α)) :
    evals val ts = ts.map (eval val) := by
  induction ts with
  | nil => rfl
  | cons t ts ih => rw [evals, ih, List.map_cons]

theorem leavesOf_eq_flatMap (ts : List (FilterTree α)) : leavesOf ts = ts.flatMap leaves := by
  induction ts with
  | nil => rfl
  | cons t ts ih => rw [leavesOf, ih, List.flatMap_cons]

theorem maps_eq_map (f : α → β) (ts : List (FilterTree α)) : maps f ts = ts.map (map f) := by
  induction ts with
  | nil => rfl
  | cons t ts ih => rw [maps, ih, List.map_cons]

@[simp] theorem eval_leaf (val : α → Bool) (a : α) : eval val (.leaf a) = val a := by
  rw [eval]

@[simp] theorem eval_node (val : α → Bool) (join : Join) (ts : List (FilterTree α)) :
    eval val (.node join ts) = join.combine (ts.map (eval val)) := by
  rw [eval, evals_eq_map]

@[simp] theorem leaves_leaf (a : α) : leaves (.leaf a) = [a] := by
  rw [leaves]

@[simp] theorem leaves_node (join : Join) (ts : List (FilterTree α)) :
    leaves (.node join ts) = ts.flatMap leaves := by
  rw [leaves, leavesOf_eq_flatMap]

@[simp] theorem map_leaf (f : α → β) (a : α) : map f (.leaf a) = .leaf (f a) := by
  rw [map]

@[simp] theorem map_node (f : α → β) (join : Join) (ts : List (FilterTree α)) :
    map f (.node join ts) = .node join (ts.map (map f)) := by
  rw [map, maps_eq_map]

/-- Only the leaves of a tree decide its value. -/
theorem eval_congr {v w : α → Bool} {t : FilterTree α} (h : ∀ a ∈ t.leaves, v a = w a) :
    t.eval v = t.eval w := by
  induction t using FilterTree.induction with
  | leaf a => simpa using h a (by simp)
  | node join ts ih =>
    have hts : ts.map (eval v) = ts.map (eval w) := by
      apply List.map_congr_left
      intro t ht
      apply ih t ht
      intro a ha
      exact h a (by rw [leaves_node]; exact List.mem_flatMap.mpr ⟨t, ht, ha⟩)
    rw [eval_node, eval_node, hts]

theorem eval_map (val : β → Bool) (f : α → β) (t : FilterTree α) :
    (t.map f).eval val = t.eval (fun a => val (f a)) := by
  induction t using FilterTree.induction with
  | leaf a => simp
  | node join ts ih =>
    rw [map_node, eval_node, eval_node, List.map_map]
    exact congrArg join.combine (List.map_congr_left ih)

/-- Mapping keeps the order of the leaves. -/
theorem leaves_map (f : α → β) (t : FilterTree α) : (t.map f).leaves = t.leaves.map f := by
  induction t using FilterTree.induction with
  | leaf a => simp
  | node join ts ih =>
    rw [map_node, leaves_node, leaves_node, List.flatMap_map, List.map_flatMap]
    exact List.flatMap_congr ih

theorem map_map {γ : Type} (g : β → γ) (f : α → β) (t : FilterTree α) :
    (t.map f).map g = t.map (fun a => g (f a)) := by
  induction t using FilterTree.induction with
  | leaf a => simp
  | node join ts ih =>
    rw [map_node, map_node, map_node, List.map_map]
    exact congrArg (FilterTree.node join) (List.map_congr_left ih)

def contribution (join : Join) (t : FilterTree α) : List (FilterTree α) :=
  (t.simplify.map (splice join)).getD []

/-- A branch that simplifies to nothing contributes nothing. -/
theorem contribution_of_none {join : Join} {t : FilterTree α} (h : t.simplify = none) :
    contribution join t = [] := by
  rw [contribution, h]; rfl

theorem contribution_of_some {join : Join} {t s : FilterTree α} (h : t.simplify = some s) :
    contribution join t = splice join s := by
  rw [contribution, h]; rfl

/-- A disjunction is absorbed by a child that imposes nothing; otherwise the children of a node
contribute in their order. -/
theorem simplifyChildren_eq_some {join : Join} {ts ss : List (FilterTree α)} :
    simplifyChildren join ts = some ss ↔
      (join = .any → ∀ t ∈ ts, t.simplify ≠ none) ∧ ts.flatMap (contribution join) = ss := by
  induction ts generalizing ss with
  | nil => simp [simplifyChildren]
  | cons t ts ih =>
    rw [List.flatMap_cons]
    -- A child that imposes nothing ends a disjunction and is passed over by a conjunction.
    cases h : t.simplify with
    | some s =>
      simp only [simplifyChildren, h, Option.map_eq_some_iff, ih, contribution_of_some h,
        List.forall_mem_cons]
      constructor
      · rintro ⟨rest, ⟨hany, rfl⟩, rfl⟩
        exact ⟨fun hj => ⟨by simp, hany hj⟩, rfl⟩
      · rintro ⟨hany, rfl⟩
        exact ⟨_, ⟨fun hj => (hany hj).2, rfl⟩, rfl⟩
    | none =>
      cases join with
      | all => simpa [simplifyChildren, h, contribution_of_none h] using ih
      | any => simp [simplifyChildren, h]

/-- One node of the recursion: gather what the children give, then assemble. -/
theorem simplify_node (join : Join) (ts : List (FilterTree α)) :
    simplify (.node join ts) = (simplifyChildren join ts).bind (assemble join) := by
  rw [simplify]

/-- Nothing in a tree in normal form can be simplified: a node has at least two children, and no
child is a node of the same join. -/
inductive Normal : FilterTree α → Prop where
  | leaf (a : α) : Normal (.leaf a)
  | node {join : Join} {children : List (FilterTree α)} : 2 ≤ children.length →
      (∀ t ∈ children, Normal t) → (∀ t ∈ children, ∀ inner, t ≠ .node join inner) →
      Normal (.node join children)

/-- What is spliced in is normal and no node of the join it is spliced into. -/
theorem normal_of_mem_splice {join : Join} {s t : FilterTree α} (hs : Normal s)
    (ht : t ∈ splice join s) : Normal t ∧ ∀ inner, t ≠ .node join inner := by
  cases hs with
  | leaf a =>
    rw [splice, List.mem_singleton] at ht
    exact ⟨ht ▸ .leaf a, by simp [ht]⟩
  | @node other children hlen hnormal hjoin =>
    rw [splice] at ht
    -- The children of a spliced node have other joins than the node, and so than the one it is in.
    split at ht
    · next h => exact ⟨hnormal t ht, fun inner => h ▸ hjoin t ht inner⟩
    · next h =>
      rw [List.mem_singleton] at ht
      exact ⟨ht ▸ .node hlen hnormal hjoin, by simp [ht, h]⟩

theorem splice_ne_nil {join : Join} {s : FilterTree α} (hs : Normal s) : splice join s ≠ [] := by
  cases hs with
  | leaf a => simp [splice]
  | node hlen _ _ =>
    rw [splice]
    split
    · exact List.ne_nil_of_length_pos (by omega)
    · simp

/-- Normal branches under another join than theirs assemble to a normal tree. -/
theorem normal_of_assemble {join : Join} {ss : List (FilterTree α)} {s : FilterTree α}
    (hn : ∀ t ∈ ss, Normal t ∧ ∀ inner, t ≠ .node join inner) (h : assemble join ss = some s) :
    Normal s := by
  match ss, h with
  | [t], h =>
    obtain rfl : t = s := Option.some.inj h
    exact (hn t (by simp)).1
  | t :: u :: rest, h =>
    obtain rfl : FilterTree.node join (t :: u :: rest) = s := Option.some.inj h
    exact .node (by simp) (fun v hv => (hn v hv).1) (fun v hv => (hn v hv).2)

/-- Simplification ends in normal form. -/
theorem normal_of_simplify {t s : FilterTree α} (h : t.simplify = some s) : Normal s := by
  induction t using FilterTree.induction generalizing s with
  | leaf a =>
    rw [simplify] at h
    exact Option.some.inj h ▸ .leaf a
  | node join ts ih =>
    rw [simplify_node] at h
    obtain ⟨ss, hss, hs⟩ := Option.bind_eq_some_iff.mp h
    obtain ⟨_, rfl⟩ := simplifyChildren_eq_some.mp hss
    refine normal_of_assemble ?_ hs
    intro u hu
    obtain ⟨t, ht, hu⟩ := List.mem_flatMap.mp hu
    cases hsimp : t.simplify with
    | none => simp [contribution_of_none hsimp] at hu
    | some r =>
      rw [contribution_of_some hsimp] at hu
      exact normal_of_mem_splice (ih t ht hsimp) hu

theorem assemble_eq_none {join : Join} {ts : List (FilterTree α)} :
    assemble join ts = none ↔ ts = [] := by
  match ts with
  | [] => simp [assemble]
  | [t] => simp [assemble]
  | t :: u :: rest => simp [assemble]

/-- A node comes to nothing exactly when every branch does. -/
theorem flatMap_contribution_eq_nil {join : Join} {ts : List (FilterTree α)} :
    ts.flatMap (contribution join) = [] ↔ ∀ t ∈ ts, t.simplify = none := by
  rw [List.flatMap_eq_nil_iff]
  refine forall₂_congr fun t _ => ?_
  cases h : t.simplify with
  | none => simp [contribution_of_none h]
  | some s => simp [contribution_of_some h, splice_ne_nil (normal_of_simplify h)]

/-- A conjunction imposes nothing when none of its children does. -/
theorem simplify_all_eq_none {ts : List (FilterTree α)} :
    simplify (.node .all ts) = none ↔ ∀ t ∈ ts, t.simplify = none := by
  have hc : simplifyChildren .all ts = some (ts.flatMap (contribution .all)) :=
    simplifyChildren_eq_some.mpr ⟨by simp, rfl⟩
  rw [simplify_node, hc, Option.bind_some, assemble_eq_none, flatMap_contribution_eq_nil]

/-- A disjunction imposes nothing when it is empty or one of its children imposes nothing. -/
theorem simplify_any_eq_none {ts : List (FilterTree α)} :
    simplify (.node .any ts) = none ↔ ts = [] ∨ ∃ t ∈ ts, t.simplify = none := by
  rw [simplify_node]
  cases h : simplifyChildren .any ts with
  | none =>
    -- Were there no such child, the children would have been simplified.
    have hn : ∃ t ∈ ts, t.simplify = none := by
      by_contra hne
      have hs := simplifyChildren_eq_some.mpr
        ⟨fun _ t ht htn => hne ⟨t, ht, htn⟩, (rfl : ts.flatMap (contribution .any) = _)⟩
      rw [h] at hs
      cases hs
    simp [hn]
  | some ss =>
    obtain ⟨hsome, rfl⟩ := simplifyChildren_eq_some.mp h
    rw [Option.bind_some, assemble_eq_none, flatMap_contribution_eq_nil]
    constructor
    · intro hall
      refine Or.inl (List.eq_nil_iff_forall_not_mem.mpr fun t ht => ?_)
      exact hsome rfl t ht (hall t ht)
    · rintro (rfl | ⟨t, ht, htn⟩)
      · simp
      · exact absurd htn (hsome rfl t ht)

/-- Emptiness goes up the tree as a value does: any empty branch under `any`, all of them under
`all`. -/
theorem simplify_isNone_node (join : Join) (ts : List (FilterTree α)) :
    (simplify (.node join ts)).isNone = join.combine (ts.map fun t => t.simplify.isNone) := by
  rw [Bool.eq_iff_iff, Option.isNone_iff_eq_none]
  cases join with
  | all => simp [simplify_all_eq_none, Join.combine_all_iff]
  | any => simp [simplify_any_eq_none, Join.combine_any_iff]

/-- A branch that is simple already and of another join contributes itself. -/
theorem contribution_of_ne {join : Join} {t : FilterTree α} (h : t.simplify = some t)
    (hj : ∀ inner, t ≠ .node join inner) : contribution join t = [t] := by
  rw [contribution_of_some h]
  cases t with
  | leaf a => rfl
  | node other ts =>
    have hne : other ≠ join := fun ho => hj ts (ho ▸ rfl)
    rw [splice, if_neg hne]

/-- A tree in normal form is left as it is. -/
theorem simplify_of_normal {t : FilterTree α} (h : Normal t) : t.simplify = some t := by
  induction h with
  | leaf a => rw [simplify]
  | @node join ts hlen _ hjoin ih =>
    -- No child has the join of the node, so each contributes itself alone.
    have hts : ts.flatMap (contribution join) = ts := by
      have hsingle : ∀ t ∈ ts, contribution join t = [t] :=
        fun t ht => contribution_of_ne (ih t ht) (hjoin t ht)
      rw [List.flatMap_congr hsingle, List.flatMap_singleton']
    have hc : simplifyChildren join ts = some ts :=
      simplifyChildren_eq_some.mpr ⟨fun _ t ht => by simp [ih t ht], hts⟩
    rw [simplify_node, hc, Option.bind_some]
    match ts, hlen with
    | t :: u :: rest, _ => rfl

/-- A node of one child is simplified as this child. -/
theorem simplify_node_singleton (join : Join) (t : FilterTree α) :
    simplify (.node join [t]) = t.simplify := by
  cases h : t.simplify with
  | none => cases join <;> simp [simplify, simplifyChildren, h, assemble]
  | some s =>
    have hc : simplifyChildren join [t] = some (splice join s) := by
      simp [simplifyChildren, h]
    rw [simplify_node, hc, Option.bind_some]
    cases normal_of_simplify h with
    | leaf a => rfl
    | @node inner children hlen _ _ =>
      rw [splice]
      split
      · next hj =>
        subst hj
        match children, hlen with
        | u :: v :: rest, _ => rfl
      · rfl

/-- A node depends on its children through what they simplify to. -/
theorem simplify_node_congr (join : Join) {ts us : List (FilterTree α)}
    (h : ts.map simplify = us.map simplify) :
    simplify (.node join ts) = simplify (.node join us) := by
  suffices hc : simplifyChildren join ts = simplifyChildren join us by
    rw [simplify_node, simplify_node, hc]
  induction ts generalizing us with
  | nil =>
    rw [List.map_nil] at h
    rw [List.map_eq_nil_iff.mp h.symm]
  | cons t ts ih =>
    cases us with
    | nil => simp at h
    | cons u us =>
      obtain ⟨ht, hts⟩ := List.cons.inj h
      simp only [simplifyChildren, ht, ih hts]

/-- The value of what simplification leaves; what imposes nothing is true. -/
def value (val : α → Bool) (s : Option (FilterTree α)) : Bool := s.elim true (eval val)

/-- Assembling keeps the value of what is assembled, also of nothing and of a single branch. -/
theorem value_assemble (val : α → Bool) (join : Join) (ts : List (FilterTree α)) :
    value val (assemble join ts) = join.combine (ts.map (eval val)) := by
  match ts with
  | [] => cases join <;> rfl
  | [t] => cases join <;> simp [assemble, value, Join.combine]
  | t :: u :: rest => rw [assemble, value, Option.elim_some, eval_node] <;> simp

/-- Splicing under `all` keeps what holds of all. -/
theorem forall_mem_splice_all (val : α → Bool) (s : FilterTree α) :
    (∀ t ∈ splice .all s, t.eval val = true) ↔ s.eval val = true := by
  cases s with
  | leaf a => simp [splice]
  | node join ts =>
    cases join with
    | all => simp [splice, Join.combine_all_iff]
    | any => simp [splice]

/-- Splicing under `any` keeps what holds of some, since no normal node is empty. -/
theorem exists_mem_splice_any (val : α → Bool) {s : FilterTree α} (hs : Normal s) :
    (∃ t ∈ splice .any s, t.eval val = true) ↔ s.eval val = true := by
  have hne : splice .any s ≠ [] := splice_ne_nil hs
  cases s with
  | leaf a => simp [splice]
  | node join ts =>
    cases join with
    | all => simp [splice]
    | any =>
      -- An empty disjunction is true without a true child; normal form excludes it.
      have hts : ts ≠ [] := by simpa [splice] using hne
      simp [splice, Join.combine_any_iff, hts]

/-- Under `all` an empty branch holds and may be left out. -/
theorem combine_all_contribution (val : α → Bool) {ts : List (FilterTree α)}
    (h : ∀ t ∈ ts, value val t.simplify = t.eval val) :
    Join.all.combine ((ts.flatMap (contribution .all)).map (eval val)) =
      Join.all.combine (ts.map (eval val)) := by
  rw [Bool.eq_iff_iff, Join.combine_all_iff, Join.combine_all_iff]
  simp only [List.forall_mem_map, List.forall_mem_flatMap]
  refine forall₂_congr fun t ht => ?_
  rw [← h t ht]
  cases hs : t.simplify with
  | none => simp [contribution_of_none hs, value]
  | some s => rw [contribution_of_some hs]; exact forall_mem_splice_all val s

/-- Under `any` an empty branch would decide the node, so none may be among the children. -/
theorem combine_any_contribution (val : α → Bool) {ts : List (FilterTree α)}
    (hsome : ∀ t ∈ ts, t.simplify ≠ none) (h : ∀ t ∈ ts, value val t.simplify = t.eval val) :
    Join.any.combine ((ts.flatMap (contribution .any)).map (eval val)) =
      Join.any.combine (ts.map (eval val)) := by
  -- No child is empty, so a node has as much to choose from as before.
  have hnil : ts.flatMap (contribution .any) = [] ↔ ts = [] := by
    rw [flatMap_contribution_eq_nil]
    refine ⟨fun hall => List.eq_nil_iff_forall_not_mem.mpr fun t ht => ?_, by rintro rfl; simp⟩
    exact hsome t ht (hall t ht)
  -- What a child contributes holds somewhere when the child does.
  have hchild : ∀ t ∈ ts, (∃ u ∈ contribution .any t, u.eval val = true) ↔ t.eval val = true := by
    intro t ht
    rw [← h t ht]
    cases hs : t.simplify with
    | none => exact absurd hs (hsome t ht)
    | some s =>
      rw [contribution_of_some hs]
      exact exists_mem_splice_any val (normal_of_simplify hs)
  rw [Bool.eq_iff_iff, Join.combine_any_iff, Join.combine_any_iff, List.map_eq_nil_iff,
    List.map_eq_nil_iff, hnil]
  refine or_congr_right ?_
  simp only [List.mem_map, List.mem_flatMap]
  constructor
  · rintro ⟨u, ⟨t, ht, hu⟩, hval⟩
    exact ⟨t, ht, (hchild t ht).mp ⟨u, hu, hval⟩⟩
  · rintro ⟨t, ht, hval⟩
    obtain ⟨u, hu, hval⟩ := (hchild t ht).mpr hval
    exact ⟨u, ⟨t, ht, hu⟩, hval⟩

/-- Simplification keeps the value of a tree. -/
theorem value_simplify (val : α → Bool) (t : FilterTree α) :
    value val t.simplify = t.eval val := by
  induction t using FilterTree.induction with
  | leaf a => rw [simplify, value, Option.elim_some]
  | node join ts ih =>
    rw [eval_node]
    cases h : simplify (.node join ts) with
    | none =>
      -- Nothing is left: every child of a conjunction imposes nothing, or one of a disjunction.
      rw [value, Option.elim_none, eq_comm]
      cases join with
      | all =>
        rw [Join.combine_all_iff, List.forall_mem_map]
        intro t ht
        rw [← ih t ht, simplify_all_eq_none.mp h t ht, value, Option.elim_none]
      | any =>
        rw [Join.combine_any_iff, List.map_eq_nil_iff]
        refine (simplify_any_eq_none.mp h).imp_right ?_
        rintro ⟨t, ht, htn⟩
        refine List.mem_map.mpr ⟨t, ht, ?_⟩
        rw [← ih t ht, htn, value, Option.elim_none]
    | some s =>
      -- What is left joins the contributions of the children.
      rw [← h, simplify_node]
      obtain ⟨ss, hss, _⟩ := Option.bind_eq_some_iff.mp (simplify_node join ts ▸ h)
      obtain ⟨hsome, rfl⟩ := simplifyChildren_eq_some.mp hss
      rw [hss, Option.bind_some, value_assemble]
      cases join with
      | all => exact combine_all_contribution val ih
      | any => exact combine_any_contribution val (hsome rfl) ih

/-- Splicing keeps the leaves and their order. -/
theorem leaves_of_splice (join : Join) (s : FilterTree α) :
    (splice join s).flatMap leaves = s.leaves := by
  cases s with
  | leaf a => simp [splice]
  | node other ts =>
    rw [splice]
    split <;> simp

theorem leaves_of_assemble {join : Join} {ts : List (FilterTree α)} {s : FilterTree α}
    (h : assemble join ts = some s) : s.leaves = ts.flatMap leaves := by
  match ts, h with
  | [t], h =>
    obtain rfl : t = s := Option.some.inj h
    simp
  | t :: u :: rest, h =>
    obtain rfl : FilterTree.node join (t :: u :: rest) = s := Option.some.inj h
    rw [leaves_node]

/-- Simplification drops leaves and keeps the order of the others. -/
theorem leaves_simplify {t s : FilterTree α} (h : t.simplify = some s) :
    s.leaves.Sublist t.leaves := by
  induction t using FilterTree.induction generalizing s with
  | leaf a =>
    rw [simplify] at h
    rw [Option.some.inj h]
  | node join ts ih =>
    rw [simplify_node] at h
    obtain ⟨ss, hss, hs⟩ := Option.bind_eq_some_iff.mp h
    obtain ⟨_, rfl⟩ := simplifyChildren_eq_some.mp hss
    -- The leaves that are left are those the children contribute, child by child.
    rw [leaves_of_assemble hs, leaves_node, List.flatMap_assoc]
    refine List.Sublist.flatMap_right ts fun t ht => ?_
    cases hr : t.simplify with
    | none => simp [contribution_of_none hr]
    | some r =>
      rw [contribution_of_some hr, leaves_of_splice]
      exact ih t ht hr

/-- Simplifying again changes nothing. -/
theorem simplify_simplify (t : FilterTree α) : t.simplify.bind simplify = t.simplify := by
  cases h : t.simplify with
  | none => rfl
  | some s => exact simplify_of_normal (normal_of_simplify h)

/-- Simplification leaves nothing, or a tree in normal form whose leaves are leaves of the first
one, in their order. To simplify it again changes nothing. What is left means what the first tree
means; so nothing is left only of a tree that imposes nothing. -/
theorem simplify_normalForm (t : FilterTree α) :
    (t.simplify = none ∨
      ∃ s, t.simplify = some s ∧ Normal s ∧ s.leaves.Sublist t.leaves) ∧
    t.simplify.bind simplify = t.simplify ∧
    ∀ val : α → Bool, value val t.simplify = t.eval val := by
  refine ⟨?_, simplify_simplify t, fun val => value_simplify val t⟩
  cases h : t.simplify with
  | none => exact Or.inl rfl
  | some s => exact Or.inr ⟨s, rfl, normal_of_simplify h, leaves_simplify h⟩

-- The conjunction that its one child leaves of a disjunction is spliced into the one above.
example : simplify (.node .all [.node .any [.node .all [.leaf 1, .leaf 2]], .node .any [],
    .leaf 3]) = some (.node .all [.leaf 1, .leaf 2, .leaf 3]) := by
  rfl

@[simp] theorem leaf?_leaf (a : α) : leaf? (.leaf a) = some a := rfl

@[simp] theorem leaf?_node (join : Join) (ts : List (FilterTree α)) :
    leaf? (.node join ts) = none := rfl

/-- All branches are leaves exactly when the list is one of leaves. -/
theorem mapM_leaf?_eq_some {ts : List (FilterTree α)} {as : List α} :
    ts.mapM leaf? = some as ↔ ts = as.map .leaf := by
  rw [Outcome.option_mapM_eq_some]
  induction ts generalizing as with
  | nil => cases as <;> simp
  | cons t ts ih =>
    rw [List.forall₂_cons_left_iff]
    cases as with
    | nil => simp
    | cons a as =>
      cases t with
      | leaf b => simp [ih, and_comm, eq_comm (a := b)]
      | node join us => simp

theorem leaves_map_leaf (as : List α) : (as.map FilterTree.leaf).flatMap leaves = as := by
  induction as with
  | nil => rfl
  | cons a as ih => simp [ih]

/-- A group keeps the leaves it is read from. -/
theorem leaves_of_flat? {t : FilterTree α} {as : List α} (h : t.flat? = some as) :
    t.leaves = as := by
  cases t with
  | leaf a => simpa [flat?] using h
  | node join ts =>
    rw [mapM_leaf?_eq_some.mp h, leaves_node, leaves_map_leaf]

/-- A leaf or a disjunction of leaves is true when one of its leaves is. -/
theorem any_of_flat? (val : α → Bool) {t : FilterTree α} {as : List α} (hn : Normal t)
    (hall : ∀ ts, t ≠ .node .all ts) (h : t.flat? = some as) : as.any val = t.eval val := by
  cases hn with
  | leaf a =>
    obtain rfl : [a] = as := Option.some.inj h
    simp
  | @node join ts hlen _ _ =>
    obtain rfl : ts = as.map .leaf := mapM_leaf?_eq_some.mp h
    have hne : as ≠ [] := by
      rw [List.length_map] at hlen
      exact List.ne_nil_of_length_pos (by omega)
    cases join with
    | all => exact absurd rfl (hall _)
    | any => simp [Join.combine, hne, List.any_map, Function.comp_def]

/-- The value of the groups is the value of the branches they are read from. -/
theorem all_any_of_flat? (val : α → Bool) {ts : List (FilterTree α)} {groups : List (List α)}
    (hn : ∀ t ∈ ts, Normal t) (hall : ∀ t ∈ ts, ∀ inner, t ≠ .node .all inner)
    (h : List.Forall₂ (fun t group => flat? t = some group) ts groups) :
    (groups.all fun group => group.any val) = Join.all.combine (ts.map (eval val)) := by
  induction h with
  | nil => rfl
  | @cons t group ts groups ht _ ih =>
    rw [List.forall_mem_cons] at hn hall
    rw [List.all_cons, ih hn.2 hall.2, any_of_flat? val hn.1 hall.1 ht]
    simp [Join.combine]

/-- The groups of a tree hold together exactly when the tree does. -/
theorem groups?_eval (val : α → Bool) {t : FilterTree α} {groups : List (List α)}
    (h : t.groups? = some groups) : (groups.all fun group => group.any val) = t.eval val := by
  rw [← value_simplify]
  rw [groups?] at h
  split at h
  · next hs =>
    obtain rfl := Option.some.inj h
    simp [hs, value]
  · next children hs =>
    rw [hs, value, Option.elim_some, eval_node]
    -- In normal form no child of the conjunction is one itself, so each is one group.
    cases normal_of_simplify hs with
    | node _ hnormal hjoin =>
      exact all_any_of_flat? val hnormal hjoin (Outcome.option_mapM_eq_some.mp h)
  · next s hnot hs =>
    obtain ⟨as, has, rfl⟩ := Option.map_eq_some_iff.mp h
    rw [hs, value, Option.elim_some, ← any_of_flat? val (normal_of_simplify hs) hnot has]
    simp

/-- What stands in a group is a leaf of the tree. -/
theorem mem_leaves_of_groups? {t : FilterTree α} {groups : List (List α)}
    (h : t.groups? = some groups) {group : List α} (hg : group ∈ groups) {a : α}
    (ha : a ∈ group) : a ∈ t.leaves := by
  rw [groups?] at h
  split at h
  · next hs =>
    obtain rfl := Option.some.inj h
    simp at hg
  · next children hs =>
    obtain ⟨u, hu, hflat⟩ := Outcome.exists_mem_left (Outcome.option_mapM_eq_some.mp h) hg
    refine (leaves_simplify hs).mem ?_
    rw [leaves_node]
    exact List.mem_flatMap.mpr ⟨u, hu, leaves_of_flat? hflat ▸ ha⟩
  · next s hnot hs =>
    obtain ⟨as, has, rfl⟩ := Option.map_eq_some_iff.mp h
    obtain rfl := List.mem_singleton.mp hg
    exact (leaves_simplify hs).mem (leaves_of_flat? has ▸ ha)

/-- A tree has no groups exactly when it imposes nothing. -/
theorem groups?_eq_some_nil {t : FilterTree α} : t.groups? = some [] ↔ t.simplify = none := by
  constructor
  · intro h
    rw [groups?] at h
    split at h
    · assumption
    · next children hs =>
      cases normal_of_simplify hs with
      | node hlen _ _ =>
        cases Outcome.option_mapM_eq_some.mp h
        simp at hlen
    · obtain ⟨_, _, h⟩ := Option.map_eq_some_iff.mp h
      cases h
  · intro h
    rw [groups?, h]

/-- The groups depend on the simplified tree alone. -/
theorem groups?_congr {t u : FilterTree α} (h : t.simplify = u.simplify) :
    t.groups? = u.groups? := by
  rw [groups?, groups?, h]

theorem perElement?_congr {t u : FilterTree α} (h : t.simplify = u.simplify) :
    t.perElement? = u.perElement? := by
  rw [perElement?, perElement?, h]

theorem eq_map_leaf_of_all {ts : List (FilterTree α)}
    (h : (ts.all fun t => t.leaf?.isSome) = true) : ∃ as : List α, ts = as.map .leaf := by
  induction ts with
  | nil => exact ⟨[], rfl⟩
  | cons t ts ih =>
    rw [List.all_cons, Bool.and_eq_true] at h
    obtain ⟨as, rfl⟩ := ih h.2
    cases t with
    | leaf a => exact ⟨a :: as, rfl⟩
    | node join us => simp at h

/-- What is kept below a repeating attribute is the simplified tree, a leaf or a disjunction of
leaves. -/
theorem perElement?_eq_some {t : FilterTree α} {kept : Option (FilterTree α)}
    (h : t.perElement? = some kept) : t.simplify = kept ∧
      ∀ s, kept = some s → (∃ a, s = .leaf a) ∨
        ∃ as : List α, as ≠ [] ∧ s = .node .any (as.map .leaf) := by
  rw [perElement?] at h
  split at h
  · next hs =>
    obtain rfl := Option.some.inj h
    exact ⟨hs, by simp⟩
  · next a hs =>
    obtain rfl := Option.some.inj h
    exact ⟨hs, fun s h => Or.inl ⟨a, (Option.some.inj h).symm⟩⟩
  · next children hs =>
    split at h
    · next hleaf =>
      obtain rfl := Option.some.inj h
      refine ⟨hs, fun s h => Or.inr ?_⟩
      obtain ⟨as, rfl⟩ := eq_map_leaf_of_all hleaf
      -- A normal node has more than one child.
      cases normal_of_simplify hs with
      | node hlen _ _ =>
        refine ⟨as, ?_, (Option.some.inj h).symm⟩
        rintro rfl
        simp at hlen
    · cases h
  · cases h

/-- What is kept for the elements is simplified already. -/
theorem simplify_of_perElement? {t s : FilterTree α} (h : t.perElement? = some (some s)) :
    t.simplify = some s ∧ s.simplify = some s := by
  have hs := (perElement?_eq_some h).1
  exact ⟨hs, simplify_of_normal (normal_of_simplify hs)⟩

theorem splice_map (f : α → β) (join : Join) (t : FilterTree α) :
    splice join (t.map f) = (splice join t).map (map f) := by
  cases t with
  | leaf a => simp [splice]
  | node other ts =>
    rw [map_node, splice, splice]
    split <;> simp

theorem assemble_map (f : α → β) (join : Join) (ts : List (FilterTree α)) :
    assemble join (ts.map (map f)) = (assemble join ts).map (map f) := by
  match ts with
  | [] => simp [assemble]
  | [t] => simp [assemble]
  | t :: u :: rest => simp [assemble]

theorem simplifyChildren_map (f : α → β) (join : Join) {ts : List (FilterTree α)}
    (h : ∀ t ∈ ts, (t.map f).simplify = t.simplify.map (map f)) :
    simplifyChildren join (ts.map (map f)) = (simplifyChildren join ts).map (List.map (map f)) := by
  induction ts with
  | nil => rfl
  | cons t ts ih =>
    rw [List.forall_mem_cons] at h
    have hts := ih h.2
    cases hs : t.simplify with
    | none =>
      cases join with
      | all => simpa [simplifyChildren, h.1, hs] using hts
      | any => simp [simplifyChildren, h.1, hs]
    | some s =>
      simp [simplifyChildren, h.1, hs, hts, splice_map, Option.map_map, Function.comp_def]

/-- Mapping the leaves before or after simplifying is the same. -/
theorem simplify_map (f : α → β) (t : FilterTree α) :
    (t.map f).simplify = t.simplify.map (map f) := by
  induction t using FilterTree.induction with
  | leaf a => simp [simplify]
  | node join ts ih =>
    rw [map_node, simplify_node, simplify_node, simplifyChildren_map f join ih]
    cases simplifyChildren join ts with
    | none => rfl
    | some ss => exact assemble_map f join ss

theorem leaf?_isSome_map (f : α → β) (t : FilterTree α) :
    (t.map f).leaf?.isSome = t.leaf?.isSome := by
  cases t <;> simp

/-- Neither the shape nor the verdict depends on what stands at the leaves. -/
theorem perElement?_map (f : α → β) (t : FilterTree α) :
    (t.map f).perElement? = t.perElement?.map (Option.map (map f)) := by
  rw [perElement?, perElement?, simplify_map]
  cases t.simplify with
  | none => rfl
  | some s =>
    cases s with
    | leaf a => simp
    | node join ts =>
      cases join with
      | all => simp
      | any =>
        simp only [Option.map_some, map_node, List.all_map, Function.comp_def, leaf?_isSome_map]
        split <;> simp

end FilterTree

end EntityGraph
