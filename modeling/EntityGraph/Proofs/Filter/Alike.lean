import EntityGraph.Proofs.Filter.Tree
import EntityGraph.Proofs.Paired

namespace EntityGraph.FilterTree

variable {α β γ δ : Type}

/-- The leaves of two trees belong together, with the children of each node in the same order or
in any, as the flag says. -/
inductive Alike (ordered : Bool) (r : α → β → Prop) : FilterTree α → FilterTree β → Prop
  | leaf {a : α} {b : β} : r a b → Alike ordered r (.leaf a) (.leaf b)
  | node {join : Join} {xs : List (FilterTree α)} {zs ys : List (FilterTree β)} :
      List.Forall₂ (Alike ordered r) xs zs → zs.Perm ys → (ordered = true → zs = ys) →
      Alike ordered r (.node join xs) (.node join ys)

variable {ordered : Bool} {r : α → β → Prop} {join : Join}

theorem alike_node {xs : List (FilterTree α)} {ys : List (FilterTree β)}
    (h : Paired ordered (Alike ordered r) xs ys) :
    Alike ordered r (.node join xs) (.node join ys) := by
  obtain ⟨zs, hzs, hperm, hordered⟩ := h
  exact .node hzs hperm hordered

namespace Alike

/-- A leaf is alike only to a leaf. -/
theorem of_leaf {a : α} {u : FilterTree β} (h : Alike ordered r (.leaf a) u) :
    ∃ b, r a b ∧ u = .leaf b := by
  cases h with
  | leaf hab => exact ⟨_, hab, rfl⟩

/-- A node is alike only to a node of the same join. -/
theorem of_node {xs : List (FilterTree α)} {u : FilterTree β}
    (h : Alike ordered r (.node join xs) u) :
    ∃ ys, Paired ordered (Alike ordered r) xs ys ∧ u = .node join ys := by
  cases h with
  | node hzs hperm hordered => exact ⟨_, ⟨_, hzs, hperm, hordered⟩, rfl⟩

/-- Trees stay alike when their leaves are mapped to leaves that belong together. -/
theorem map {s : γ → δ → Prop} {f : α → γ} {g : β → δ} (hs : ∀ a b, r a b → s (f a) (g b))
    {t : FilterTree α} {u : FilterTree β} (h : Alike ordered r t u) :
    Alike ordered s (t.map f) (u.map g) := by
  induction t using FilterTree.induction generalizing u with
  | leaf a =>
    obtain ⟨b, hab, rfl⟩ := h.of_leaf
    rw [map_leaf, map_leaf]
    exact .leaf (hs a b hab)
  | node join xs ih =>
    obtain ⟨ys, hys, rfl⟩ := h.of_node
    rw [map_node, map_node]
    exact alike_node (hys.map fun x hx y hxy => ih x hx hxy)

/-- Below a node of a join, alike trees contribute children that are alike in pairs. -/
theorem splice {t : FilterTree α} {u : FilterTree β} (h : Alike ordered r t u) (join : Join) :
    Paired ordered (Alike ordered r) (splice join t) (splice join u) := by
  cases t with
  | leaf a =>
    obtain ⟨b, hab, rfl⟩ := h.of_leaf
    exact .single (.leaf hab)
  | node inner xs =>
    obtain ⟨ys, hys, rfl⟩ := h.of_node
    rw [FilterTree.splice, FilterTree.splice]
    split
    · exact hys
    · exact .single h

end Alike

/-- Nodes of alike children are alike when they are put together, or neither imposes anything. -/
theorem alike_assemble {xs : List (FilterTree α)} {ys : List (FilterTree β)}
    (h : Paired ordered (Alike ordered r) xs ys) :
    Option.Rel (Alike ordered r) (assemble join xs) (assemble join ys) := by
  match xs with
  | [] =>
    obtain rfl := h.eq_nil
    exact .none
  | [x] =>
    obtain ⟨y, hxy, rfl⟩ := h.of_single
    exact .some hxy
  | x :: x' :: rest =>
    match ys, h.length_eq with
    | y :: y' :: rest', _ => exact .some (alike_node h)

theorem alike_contribution {t : FilterTree α} {u : FilterTree β}
    (h : Option.Rel (Alike ordered r) t.simplify u.simplify) :
    Paired ordered (Alike ordered r) (contribution join t) (contribution join u) := by
  rw [contribution, contribution]
  revert h
  generalize t.simplify = s
  generalize u.simplify = s'
  intro h
  cases h with
  | none => exact .nil
  | some hs => exact hs.splice join

/-- Children that simplify to trees that are alike are absorbed alike. -/
theorem alike_simplifyChildren (join : Join) {xs : List (FilterTree α)} {ys : List (FilterTree β)}
    (h : Paired ordered (fun x y => Option.Rel (Alike ordered r) x.simplify y.simplify) xs ys) :
    Option.Rel (Paired ordered (Alike ordered r)) (simplifyChildren join xs)
      (simplifyChildren join ys) := by
  have hnone : ∀ {s : Option (FilterTree α)} {s' : Option (FilterTree β)},
      Option.Rel (Alike ordered r) s s' → (s = none ↔ s' = none) := by
    rintro _ _ (_ | _) <;> simp
  -- An empty branch here has its like there.
  have hbranches : (∀ x ∈ xs, x.simplify ≠ none) ↔ ∀ y ∈ ys, y.simplify ≠ none := by
    constructor
    · intro hxs y hy
      obtain ⟨x, hx, hxy⟩ := h.exists_left hy
      exact fun hyn => hxs x hx ((hnone hxy).mpr hyn)
    · intro hys x hx
      obtain ⟨y, hy, hxy⟩ := h.exists_right hx
      exact fun hxn => hys y hy ((hnone hxy).mp hxn)
  by_cases hkept : join = .any → ∀ x ∈ xs, x.simplify ≠ none
  · have hkept' : join = .any → ∀ y ∈ ys, y.simplify ≠ none := fun hj => hbranches.mp (hkept hj)
    rw [simplifyChildren_eq_some.mpr ⟨hkept, rfl⟩, simplifyChildren_eq_some.mpr ⟨hkept', rfl⟩,
      List.flatMap_def, List.flatMap_def]
    exact .some (h.map fun x _ y hxy => alike_contribution hxy).flatten
  · have hxs : simplifyChildren join xs = none := Option.eq_none_iff_forall_ne_some.mpr
      fun ss hss => hkept (simplifyChildren_eq_some.mp hss).1
    have hys : simplifyChildren join ys = none := Option.eq_none_iff_forall_ne_some.mpr
      fun ss hss => hkept fun hj => hbranches.mpr ((simplifyChildren_eq_some.mp hss).1 hj)
    rw [hxs, hys]
    exact .none

/-- Trees that are alike impose nothing together, or simplify to trees that are alike. -/
theorem alike_simplify {t : FilterTree α} {u : FilterTree β} (h : Alike ordered r t u) :
    Option.Rel (Alike ordered r) t.simplify u.simplify := by
  induction t using FilterTree.induction generalizing u with
  | leaf a =>
    obtain ⟨b, hab, rfl⟩ := h.of_leaf
    rw [simplify, simplify]
    exact .some (.leaf hab)
  | node join xs ih =>
    obtain ⟨ys, hys, rfl⟩ := h.of_node
    have hchildren := alike_simplifyChildren join (hys.imp fun x hx y hxy => ih x hx hxy)
    rw [simplify_node, simplify_node]
    revert hchildren
    generalize simplifyChildren join xs = ss
    generalize simplifyChildren join ys = ss'
    intro hchildren
    cases hchildren with
    | none => exact .none
    | some hss => exact alike_assemble hss

/-- The leaves of alike flat trees belong together in pairs. -/
theorem alike_flat? {t : FilterTree α} {u : FilterTree β} (h : Alike ordered r t u) {as : List α}
    {bs : List β} (hs : t.flat? = some as) (hs' : u.flat? = some bs) : Paired ordered r as bs := by
  cases t with
  | leaf a =>
    obtain ⟨b, hab, rfl⟩ := h.of_leaf
    obtain rfl := Option.some.inj hs
    obtain rfl := Option.some.inj hs'
    exact .single hab
  | node join xs =>
    obtain ⟨ys, hys, rfl⟩ := h.of_node
    refine hys.transfer (Outcome.option_mapM_eq_some.mp hs) (Outcome.option_mapM_eq_some.mp hs') ?_
    intro x _ y a b hxy ha hb
    cases hxy with
    | leaf hab =>
      obtain rfl := Option.some.inj ha
      obtain rfl := Option.some.inj hb
      exact hab
    | node _ _ _ => cases ha

/-- The groups of trees that are alike. -/
theorem alike_groups? {t : FilterTree α} {u : FilterTree β} (h : Alike ordered r t u)
    {groups : List (List α)} {groups' : List (List β)} (ht : t.groups? = some groups)
    (hu : u.groups? = some groups') : Paired ordered (Paired ordered r) groups groups' := by
  have hsimple := alike_simplify h
  rw [groups?] at ht hu
  revert hsimple ht hu
  generalize t.simplify = s
  generalize u.simplify = s'
  intro ht hu hsimple
  cases hsimple with
  | none =>
    obtain rfl := Option.some.inj ht
    obtain rfl := Option.some.inj hu
    exact .nil
  | @some s s' hs =>
    -- A leaf is a group by itself, a disjunction is one group, and a conjunction has several.
    cases hs with
    | leaf hab =>
      obtain rfl := Option.some.inj ht
      obtain rfl := Option.some.inj hu
      exact .single (.single hab)
    | @node join xs zs ys hzs hperm hordered =>
      have hnode : Alike ordered r (.node join xs) (.node join ys) := .node hzs hperm hordered
      cases join with
      | all =>
        have hchildren : Paired ordered (Alike ordered r) xs ys := ⟨zs, hzs, hperm, hordered⟩
        exact hchildren.transfer (Outcome.option_mapM_eq_some.mp ht)
          (Outcome.option_mapM_eq_some.mp hu) fun x _ y as bs hxy has hbs =>
            alike_flat? hxy has hbs
      | any =>
        obtain ⟨as, has, rfl⟩ := Option.map_eq_some_iff.mp ht
        obtain ⟨bs, hbs, rfl⟩ := Option.map_eq_some_iff.mp hu
        exact .single (alike_flat? hnode has hbs)

end EntityGraph.FilterTree
