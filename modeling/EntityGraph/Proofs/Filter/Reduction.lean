import EntityGraph.Proofs.Filter.Tree
import Mathlib.Logic.Relation

/-!
Filter trees reduced one node at a time. Every chain of reductions ends, and none changes what
simplification makes of a tree, so a tree without groups is one that can be reduced to a
disjunction over a conjunction and no further. Main statement: `groups?_exact`.
-/

namespace EntityGraph

namespace FilterTree

open Relation (ReflTransGen EqvGen)

variable {α : Type}

inductive Step : FilterTree α → FilterTree α → Prop where
  /-- A node without children vanishes from a conjunction. -/
  | vanish (before after : List (FilterTree α)) (inner : Join) :
      Step (.node .all (before ++ .node inner [] :: after)) (.node .all (before ++ after))
  /-- A node without children absorbs the disjunction that it stands in. -/
  | absorb (before after : List (FilterTree α)) (inner : Join) :
      Step (.node .any (before ++ .node inner [] :: after)) (.node .any [])
  /-- A node of one child is this child. -/
  | collapse (join : Join) (t : FilterTree α) : Step (.node join [t]) t
  /-- The children of a node take its place in a node of the same join. -/
  | splice (join : Join) (before after : List (FilterTree α)) {ts : List (FilterTree α)} :
      ts ≠ [] → Step (.node join (before ++ .node join ts :: after))
        (.node join (before ++ (ts ++ after)))
  /-- A child of a node is reduced. -/
  | child (join : Join) (before after : List (FilterTree α)) {t u : FilterTree α} :
      Step t u → Step (.node join (before ++ t :: after)) (.node join (before ++ u :: after))

abbrev Reduces : FilterTree α → FilterTree α → Prop := ReflTransGen Step

abbrev Equivalent : FilterTree α → FilterTree α → Prop := EqvGen Step

def Irreducible (t : FilterTree α) : Prop := ∀ u, ¬ Step t u

inductive Mixed : FilterTree α → Prop where
  | here {ts inner : List (FilterTree α)} : .node .all inner ∈ ts → Mixed (.node .any ts)
  | inside {join : Join} {ts : List (FilterTree α)} {t : FilterTree α} :
      t ∈ ts → Mixed t → Mixed (.node join ts)

def conjunction (groups : List (List α)) : FilterTree α :=
  .node .all (groups.map fun group => .node .any (group.map .leaf))

mutual

def nodes : FilterTree α → Nat
  | .leaf _ => 0
  | .node _ children => nodesOf children + 1

def nodesOf : List (FilterTree α) → Nat
  | [] => 0
  | t :: rest => nodes t + nodesOf rest

end

@[simp] theorem nodesOf_append (ts us : List (FilterTree α)) :
    nodesOf (ts ++ us) = nodesOf ts + nodesOf us := by
  induction ts with
  | nil => rw [List.nil_append, nodesOf, Nat.zero_add]
  | cons t ts ih => rw [List.cons_append, nodesOf, nodesOf, ih, Nat.add_assoc]

/-- Each step leaves fewer nodes. -/
theorem Step.nodes_lt {t u : FilterTree α} (h : Step t u) : u.nodes < t.nodes := by
  induction h with
  | vanish before after inner => simp only [nodes, nodesOf_append, nodesOf]; omega
  | absorb before after inner => simp only [nodes, nodesOf_append, nodesOf]; omega
  | collapse join t => simp only [nodes, nodesOf]; omega
  | splice join before after _ => simp only [nodes, nodesOf_append, nodesOf]; omega
  | child join before after _ ih => simp only [nodes, nodesOf_append, nodesOf]; omega

theorem step_wellFounded : WellFounded fun u t : FilterTree α => Step t u :=
  Subrelation.wf (fun h => h.nodes_lt) (measure nodes).wf

/-- Every tree reduces as far as it goes, since the number of nodes falls. -/
theorem exists_irreducible (t : FilterTree α) : ∃ s, Reduces t s ∧ Irreducible s := by
  induction t using step_wellFounded.induction with
  | _ t ih =>
    by_cases h : ∃ u, Step t u
    · obtain ⟨u, hu⟩ := h
      obtain ⟨s, hs, hirr⟩ := ih u hu
      exact ⟨s, .head hu hs, hirr⟩
    · exact ⟨t, .refl, fun u hu => h ⟨u, hu⟩⟩

theorem simplify_node_nil (join : Join) :
    simplify (.node join ([] : List (FilterTree α))) = none := by
  cases join <;> simp [simplify_all_eq_none, simplify_any_eq_none]

/-- Nodes with the same contributions simplify alike, provided both or neither have an empty branch
under `any`. -/
theorem simplify_congr {join : Join} {ts us : List (FilterTree α)}
    (hany : join = .any → ((∀ t ∈ ts, t.simplify ≠ none) ↔ ∀ u ∈ us, u.simplify ≠ none))
    (h : (join = .any → ∀ t ∈ ts, t.simplify ≠ none) →
      ts.flatMap (contribution join) = us.flatMap (contribution join)) :
    simplify (.node join ts) = simplify (.node join us) := by
  -- A node is simplified to what its children come to together, or to nothing.
  suffices hc : simplifyChildren join ts = simplifyChildren join us by
    rw [simplify_node, simplify_node, hc]
  apply Option.ext
  intro ss
  rw [simplifyChildren_eq_some, simplifyChildren_eq_some, ← forall_congr' hany]
  exact and_congr_right fun hsome => by rw [h hsome]

/-- What a node is assembled from comes back when it is spliced into one of the same join. -/
theorem splice_assemble {join : Join} {ss : List (FilterTree α)}
    (h : ∀ t ∈ ss, ∀ inner, t ≠ .node join inner) :
    ((assemble join ss).map (FilterTree.splice join)).getD [] = ss := by
  match ss with
  | [] => rfl
  | [.leaf a] => rfl
  | [.node other ts] =>
    have hne : other ≠ join := fun hj => h _ (List.mem_singleton_self _) ts (hj ▸ rfl)
    simp [assemble, FilterTree.splice, hne]
  | t :: u :: rest => simp [assemble, FilterTree.splice]

/-- A node contributes to one of the same join what its children would. -/
theorem contribution_node {join : Join} {ts : List (FilterTree α)}
    (hany : join = .any → ∀ t ∈ ts, t.simplify ≠ none) :
    contribution join (.node join ts) = ts.flatMap (contribution join) := by
  have hc : simplifyChildren join ts = some (ts.flatMap (contribution join)) :=
    simplifyChildren_eq_some.mpr ⟨hany, rfl⟩
  rw [contribution, simplify_node, hc, Option.bind_some]
  -- What the children contribute is in normal form, so that no part of it is of this join.
  apply splice_assemble
  intro u hu
  obtain ⟨t, -, hu⟩ := List.mem_flatMap.mp hu
  cases hs : t.simplify with
  | none => simp [contribution_of_none hs] at hu
  | some s =>
    rw [contribution_of_some hs] at hu
    exact (normal_of_mem_splice (normal_of_simplify hs) hu).2

/-- A node inside one of the same join may be opened. -/
theorem simplify_splice (join : Join) (before after : List (FilterTree α))
    {ts : List (FilterTree α)} (hts : ts ≠ []) :
    simplify (.node join (before ++ .node join ts :: after)) =
      simplify (.node join (before ++ (ts ++ after))) := by
  -- An empty disjunction imposes nothing without a child that does; hence the children.
  have hiff : simplify (.node .any ts) ≠ none ↔ ∀ t ∈ ts, t.simplify ≠ none := by
    simp [simplify_any_eq_none, hts]
  apply simplify_congr
  · rintro rfl
    simp only [List.forall_mem_append, List.forall_mem_cons, hiff]
  · intro hsome
    have hbelow : join = .any → ∀ t ∈ ts, t.simplify ≠ none := by
      rintro rfl
      exact hiff.mp (hsome rfl _ (by simp))
    simp only [List.flatMap_append, List.flatMap_cons, contribution_node hbelow]

/-- A reduction does not change what simplification makes of a tree. -/
theorem Step.simplify_eq {t u : FilterTree α} (h : Step t u) : t.simplify = u.simplify := by
  induction h with
  | vanish before after inner =>
    apply simplify_congr
    · rintro ⟨⟩
    · intro _
      simp only [List.flatMap_append, List.flatMap_cons,
        contribution_of_none (simplify_node_nil inner), List.nil_append]
  | absorb before after inner =>
    rw [simplify_node_nil, simplify_any_eq_none]
    exact .inr ⟨.node inner [], by simp, simplify_node_nil inner⟩
  | collapse join t => exact simplify_node_singleton join t
  | splice join before after hts => exact simplify_splice join before after hts
  | child join before after _ ih =>
    apply simplify_node_congr
    rw [List.map_append, List.map_append, List.map_cons, List.map_cons, ih]

/-- Equivalent trees simplify alike. -/
theorem Equivalent.simplify_eq {t u : FilterTree α} (h : Equivalent t u) :
    t.simplify = u.simplify := by
  induction h with
  | rel _ _ h => exact h.simplify_eq
  | refl _ => rfl
  | symm _ _ _ ih => exact ih.symm
  | trans _ _ _ _ _ ih ih' => exact ih.trans ih'

/-- No step changes the meaning. -/
theorem Reduces.equivalent {t u : FilterTree α} (h : Reduces t u) : Equivalent t u := by
  induction h with
  | refl => exact .refl _
  | tail _ h ih => exact .trans _ _ _ ih (.rel _ _ h)

theorem Irreducible.of_mem {join : Join} {ts : List (FilterTree α)} {t : FilterTree α}
    (h : Irreducible (.node join ts)) (ht : t ∈ ts) : Irreducible t := by
  obtain ⟨before, after, rfl⟩ := List.append_of_mem ht
  exact fun u hu => h _ (.child join before after hu)

/-- Below an irreducible node nothing is empty. -/
theorem Irreducible.ne_empty {join inner : Join} {ts : List (FilterTree α)} {t : FilterTree α}
    (h : Irreducible (.node join ts)) (ht : t ∈ ts) : t ≠ .node inner [] := by
  obtain ⟨before, after, rfl⟩ := List.append_of_mem ht
  rintro rfl
  cases join with
  | all => exact h _ (.vanish before after inner)
  | any => exact h _ (.absorb before after inner)

/-- What can not be reduced is in normal form or a node without children. -/
theorem Irreducible.normal_or_empty {t : FilterTree α} (h : Irreducible t) :
    Normal t ∨ ∃ join, t = .node join [] := by
  induction t using FilterTree.induction with
  | leaf a => exact .inl (.leaf a)
  | node join ts ih =>
    match ts with
    | [] => exact .inr ⟨join, rfl⟩
    | [t] => exact absurd (.collapse join t) (h t)
    | t :: u :: rest =>
      -- A child without children would vanish or absorb, and one of the same join be spliced.
      have hnormal : ∀ s ∈ t :: u :: rest, Normal s := by
        intro s hs
        refine (ih s hs (h.of_mem hs)).resolve_right ?_
        rintro ⟨inner, hempty⟩
        exact h.ne_empty hs hempty
      refine .inl (.node (by simp) hnormal ?_)
      rintro s hs inner rfl
      have hinner : inner ≠ [] := by
        rintro rfl
        exact h.ne_empty hs rfl
      obtain ⟨before, after, happ⟩ := List.append_of_mem hs
      rw [happ] at h
      exact h _ (.splice join before after hinner)

/-- Reductions to normal form lead to the simplified tree and nowhere else. -/
theorem reduces_iff_simplify {t s : FilterTree α} (hs : Normal s) :
    Reduces t s ↔ t.simplify = some s := by
  constructor
  · intro h
    rw [h.equivalent.simplify_eq, simplify_of_normal hs]
  · intro h
    -- Wherever the reductions of the tree end, the end is simplified to the same.
    obtain ⟨u, hu, hirr⟩ := exists_irreducible t
    have husimp : u.simplify = some s := by rw [← hu.equivalent.simplify_eq, h]
    obtain hnormal | ⟨join, rfl⟩ := hirr.normal_or_empty
    · rw [simplify_of_normal hnormal] at husimp
      exact Option.some.inj husimp ▸ hu
    · rw [simplify_node_nil] at husimp
      cases husimp

/-- An `all` under an `any`, here or further down. -/
theorem mixed_node {join : Join} {ts : List (FilterTree α)} :
    Mixed (.node join ts) ↔
      (join = .any ∧ ∃ inner, .node .all inner ∈ ts) ∨ ∃ t ∈ ts, Mixed t := by
  constructor
  · intro h
    cases h with
    | here hinner => exact .inl ⟨rfl, _, hinner⟩
    | inside ht h => exact .inr ⟨_, ht, h⟩
  · rintro (⟨rfl, inner, hinner⟩ | ⟨t, ht, h⟩)
    · exact .here hinner
    · exact .inside ht h

theorem not_mixed_leaf (a : α) : ¬ Mixed (.leaf a) := nofun

theorem leaf?_eq_none {t : FilterTree α} : t.leaf? = none ↔ ∃ join ts, t = .node join ts := by
  cases t <;> simp

/-- In normal form a disjunction is over leaves, or it has a conjunction among its children. -/
theorem flat?_eq_none {t : FilterTree α} (hn : Normal t) (hall : ∀ ts, t ≠ .node .all ts) :
    t.flat? = none ↔ Mixed t := by
  cases hn with
  | leaf a => simp [flat?, not_mixed_leaf]
  | @node join ts _ _ hjoin =>
    cases join with
    | all => exact absurd rfl (hall ts)
    | any =>
      rw [flat?, Outcome.option_mapM_eq_none, mixed_node]
      constructor
      · rintro ⟨t, ht, hleaf⟩
        obtain ⟨inner, us, rfl⟩ := leaf?_eq_none.mp hleaf
        cases inner with
        | all => exact .inl ⟨rfl, us, ht⟩
        | any => exact absurd rfl (hjoin _ ht us)
      · rintro (⟨-, us, hus⟩ | ⟨t, ht, hmixed⟩)
        · exact ⟨_, hus, rfl⟩
        · refine ⟨t, ht, ?_⟩
          cases t with
          | leaf a => exact absurd hmixed (not_mixed_leaf a)
          | node inner us => rfl

/-- A normal tree is refused exactly where an `all` stands under an `any`. -/
theorem groups?_eq_none_of_normal {s : FilterTree α} (hn : Normal s) :
    s.groups? = none ↔ Mixed s := by
  rw [groups?, simplify_of_normal hn]
  split
  · next h => cases h
  · next ts h =>
    -- Each child of the conjunction is one group: a leaf or a disjunction in normal form.
    obtain rfl := Option.some.inj h
    cases hn with
    | node _ hnormal hjoin =>
      rw [Outcome.option_mapM_eq_none, mixed_node]
      constructor
      · rintro ⟨t, ht, hflat⟩
        exact .inr ⟨t, ht, (flat?_eq_none (hnormal t ht) (hjoin t ht)).mp hflat⟩
      · rintro (⟨⟨⟩, -⟩ | ⟨t, ht, hmixed⟩)
        exact ⟨t, ht, (flat?_eq_none (hnormal t ht) (hjoin t ht)).mpr hmixed⟩
  · next other hall h =>
    obtain rfl := Option.some.inj h
    rw [Option.map_eq_none_iff]
    exact flat?_eq_none hn hall

theorem Irreducible.groups?_eq_none {s : FilterTree α} (h : Irreducible s) :
    s.groups? = none ↔ Mixed s := by
  obtain hnormal | ⟨join, rfl⟩ := h.normal_or_empty
  · exact groups?_eq_none_of_normal hnormal
  · simp [groups?_eq_some_nil.mpr (simplify_node_nil join), mixed_node]

/-- A conjunction of groups has no `all` under an `any`. -/
theorem not_mixed_conjunction (groups : List (List α)) : ¬ Mixed (conjunction groups) := by
  rw [conjunction, mixed_node]
  rintro (⟨⟨⟩, -⟩ | ⟨t, ht, hmixed⟩)
  obtain ⟨group, -, rfl⟩ := List.mem_map.mp ht
  obtain ⟨-, inner, hinner⟩ | ⟨u, hu, hmixed⟩ := mixed_node.mp hmixed
  · obtain ⟨a, -, ha⟩ := List.mem_map.mp hinner
    cases ha
  · obtain ⟨a, -, rfl⟩ := List.mem_map.mp hu
    exact not_mixed_leaf a hmixed

/-- A conjunction comes of a conjunction, or out of a disjunction that held it alone. -/
theorem Step.of_all {t : FilterTree α} {inner : List (FilterTree α)}
    (h : Step t (.node .all inner)) : (∃ outer, t = .node .all outer) ∨ Mixed t := by
  cases h with
  | vanish before after inner => exact .inl ⟨_, rfl⟩
  | collapse join _ =>
    cases join with
    | all => exact .inl ⟨_, rfl⟩
    | any => exact .inr (.here (List.mem_singleton_self _))
  | splice _ before after _ => exact .inl ⟨_, rfl⟩
  | child _ before after _ => exact .inl ⟨_, rfl⟩

/-- No reduction puts a conjunction below a disjunction. -/
theorem Step.mixed {t u : FilterTree α} (h : Step t u) (hu : Mixed u) : Mixed t := by
  induction h with
  | vanish before after inner =>
    obtain ⟨⟨⟩, -⟩ | ⟨s, hs, hmixed⟩ := mixed_node.mp hu
    exact .inside (by grind) hmixed
  | absorb before after inner => simp [mixed_node] at hu
  | collapse join t => exact .inside (List.mem_singleton_self t) hu
  | @splice join before after ts _ =>
    -- What stands in the node now stood there before, or in the child that was spliced.
    have hts : (.node join ts : FilterTree α) ∈ before ++ .node join ts :: after := by simp
    obtain ⟨rfl, inner, hinner⟩ | ⟨s, hs, hmixed⟩ := mixed_node.mp hu
    · by_cases hmem : .node .all inner ∈ ts
      · exact .inside hts (.here hmem)
      · have hnode : FilterTree.node .all inner ∈ before ++ .node .any ts :: after := by grind
        exact .here hnode
    · by_cases hmem : s ∈ ts
      · exact .inside hts (.inside hmem hmixed)
      · exact .inside (t := s) (by grind) hmixed
  | @child join before after t u hstep ih =>
    have ht : t ∈ before ++ t :: after := by simp
    obtain ⟨rfl, inner, hinner⟩ | ⟨s, hs, hmixed⟩ := mixed_node.mp hu
    · by_cases heq : .node .all inner = u
      · -- The child is a conjunction now; it was one before, or it came out of a disjunction.
        subst heq
        obtain ⟨outer, rfl⟩ | hmixed := hstep.of_all
        · exact .here ht
        · exact .inside ht hmixed
      · have hnode : FilterTree.node .all inner ∈ before ++ t :: after := by grind
        exact .here hnode
    · by_cases heq : s = u
      · exact .inside ht (ih (heq ▸ hmixed))
      · exact .inside (t := s) (by grind) hmixed

/-- Mixture goes backwards: if it is left, it was there before. -/
theorem Reduces.mixed {t u : FilterTree α} (h : Reduces t u) (hu : Mixed u) : Mixed t := by
  induction h with
  | refl => exact hu
  | tail _ hstep ih => exact ih (hstep.mixed hu)

/-- A tree whose disjunctions are over leaves and disjunctions has groups. -/
theorem groups?_ne_none_of_not_mixed {t : FilterTree α} (h : ¬ Mixed t) : t.groups? ≠ none := by
  obtain ⟨s, hs, hirr⟩ := exists_irreducible t
  rw [groups?_congr hs.equivalent.simplify_eq, Ne, hirr.groups?_eq_none]
  exact fun hmixed => h (hs.mixed hmixed)

/-- Equivalence inside one place of a node. -/
theorem Equivalent.child {t u : FilterTree α} (h : Equivalent t u) (join : Join)
    (before after : List (FilterTree α)) :
    Equivalent (.node join (before ++ t :: after)) (.node join (before ++ u :: after)) := by
  induction h with
  | rel _ _ h => exact .rel _ _ (.child join before after h)
  | refl _ => exact .refl _
  | symm _ _ _ ih => exact .symm _ _ ih
  | trans _ _ _ _ _ ih ih' => exact .trans _ _ _ ih ih'

/-- Equivalence of all children, place by place, with those done already in front. -/
theorem Equivalent.children (join : Join) {ts us : List (FilterTree α)}
    (h : List.Forall₂ Equivalent ts us) (before : List (FilterTree α)) :
    Equivalent (.node join (before ++ ts)) (.node join (before ++ us)) := by
  -- Child after child; those that are replaced already stand before the others.
  induction h generalizing before with
  | nil => exact .refl _
  | @cons t u ts us ht _ ih =>
    have hrest := ih (before ++ [u])
    rw [List.append_assoc, List.append_assoc] at hrest
    exact .trans _ _ _ (ht.child join before ts) hrest

/-- A branch that is read as a group is equivalent to the `any` of its leaves. -/
theorem equivalent_of_flat? {t : FilterTree α} {group : List α} (hn : Normal t)
    (hall : ∀ ts, t ≠ .node .all ts) (h : t.flat? = some group) :
    Equivalent t (.node .any (group.map .leaf)) := by
  cases hn with
  | leaf a =>
    obtain rfl : [a] = group := Option.some.inj h
    exact .symm _ _ (.rel _ _ (.collapse .any (.leaf a)))
  | @node join ts _ _ _ =>
    obtain rfl : ts = group.map .leaf := mapM_leaf?_eq_some.mp h
    cases join with
    | all => exact absurd rfl (hall _)
    | any => exact .refl _

theorem equivalent_of_forall_flat? {ts : List (FilterTree α)} {groups : List (List α)}
    (hn : ∀ t ∈ ts, Normal t) (hall : ∀ t ∈ ts, ∀ inner, t ≠ .node .all inner)
    (h : List.Forall₂ (fun t group => flat? t = some group) ts groups) :
    List.Forall₂ Equivalent ts (groups.map fun group => .node .any (group.map .leaf)) := by
  induction h with
  | nil => exact .nil
  | cons ht _ ih =>
    rw [List.forall_mem_cons] at hn hall
    exact .cons (equivalent_of_flat? hn.1 hall.1 ht) (ih hn.2 hall.2)

/-- A tree that has groups is their conjunction, up to reductions. -/
theorem equivalent_conjunction {t : FilterTree α} {groups : List (List α)}
    (h : t.groups? = some groups) : Equivalent t (conjunction groups) := by
  obtain ⟨s, hs, hirr⟩ := exists_irreducible t
  refine .trans _ _ _ hs.equivalent ?_
  rw [groups?_congr hs.equivalent.simplify_eq] at h
  obtain hnormal | ⟨join, rfl⟩ := hirr.normal_or_empty
  · -- In normal form each child of a conjunction is a group, and anything else is the only one.
    rw [groups?, simplify_of_normal hnormal] at h
    split at h
    · next hs => cases hs
    · next ts hs =>
      obtain rfl := Option.some.inj hs
      cases hnormal with
      | node _ hbelow hjoin =>
        have hflat := Outcome.option_mapM_eq_some.mp h
        exact Equivalent.children .all (equivalent_of_forall_flat? hbelow hjoin hflat) []
    · next other hall hs =>
      obtain rfl := Option.some.inj hs
      obtain ⟨group, hgroup, rfl⟩ := Option.map_eq_some_iff.mp h
      have hsingle : Step (conjunction [group]) (.node .any (group.map .leaf)) := .collapse .all _
      exact .trans _ _ _ (equivalent_of_flat? hnormal hall hgroup) (.symm _ _ (.rel _ _ hsingle))
  · obtain rfl : [] = groups :=
      Option.some.inj ((groups?_eq_some_nil.mpr (simplify_node_nil join)).symm.trans h)
    -- Nodes without children of either join are the child of a conjunction and what it leaves.
    have hcollapse : Step (.node .all [.node join []]) (.node join ([] : List (FilterTree α))) :=
      .collapse .all _
    have hvanish : Step (.node .all [.node join []]) (conjunction ([] : List (List α))) :=
      .vanish [] [] join
    exact .trans _ _ _ (.symm _ _ (.rel _ _ hcollapse)) (.rel _ _ hvanish)

/-- A normal branch gives a group with something in it. -/
theorem ne_nil_of_flat? {t : FilterTree α} {group : List α} (hn : Normal t)
    (h : t.flat? = some group) : group ≠ [] := by
  cases hn with
  | leaf a =>
    obtain rfl : [a] = group := Option.some.inj h
    exact List.cons_ne_nil a []
  | @node join ts hlen _ _ =>
    obtain rfl : ts = group.map .leaf := mapM_leaf?_eq_some.mp h
    rw [List.length_map] at hlen
    exact List.ne_nil_of_length_pos (by omega)

/-- No group is empty. -/
theorem nil_notMem_groups? {t : FilterTree α} {groups : List (List α)}
    (h : t.groups? = some groups) : [] ∉ groups := by
  intro hmem
  rw [groups?] at h
  split at h
  · obtain rfl := Option.some.inj h
    cases hmem
  · next ts hs =>
    cases normal_of_simplify hs with
    | node _ hnormal _ =>
      obtain ⟨u, hu, hflat⟩ := Outcome.exists_mem_left (Outcome.option_mapM_eq_some.mp h) hmem
      exact ne_nil_of_flat? (hnormal u hu) hflat rfl
  · next other _ hs =>
    obtain ⟨group, hgroup, rfl⟩ := Option.map_eq_some_iff.mp h
    exact ne_nil_of_flat? (normal_of_simplify hs) hgroup (List.mem_singleton.mp hmem).symm

/-- The groups of a tree are not empty and hold together exactly when the tree does. The tree can
be reduced until nothing in it can, and has no groups exactly when a disjunction over a conjunction
is then left. The trees with groups are those that are a conjunction of disjunctions of leaves up
to reductions. -/
theorem groups?_exact (t : FilterTree α) :
    (∀ groups, t.groups? = some groups → [] ∉ groups ∧
      ∀ val : α → Bool, (groups.all fun group => group.any val) = t.eval val) ∧
    ((∃ s, Reduces t s ∧ Irreducible s) ∧
      ∀ s, Reduces t s → Irreducible s → (t.groups? = none ↔ Mixed s)) ∧
    (t.groups? ≠ none ↔ ∃ groups, Equivalent t (conjunction groups)) := by
  refine ⟨fun groups h => ⟨nil_notMem_groups? h, fun val => groups?_eval val h⟩,
    ⟨exists_irreducible t, fun s hs hirr => ?_⟩, ?_, ?_⟩
  · rw [groups?_congr hs.equivalent.simplify_eq]
    exact hirr.groups?_eq_none
  · intro h
    obtain ⟨groups, hgroups⟩ := Option.ne_none_iff_exists'.mp h
    exact ⟨groups, equivalent_conjunction hgroups⟩
  · rintro ⟨groups, h⟩
    rw [groups?_congr h.simplify_eq]
    exact groups?_ne_none_of_not_mixed (not_mixed_conjunction groups)

end FilterTree

end EntityGraph
