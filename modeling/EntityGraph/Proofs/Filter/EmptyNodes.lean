import EntityGraph.Proofs.Filter.Parts
import EntityGraph.Regex.Engine
import EntityGraph.Storefront.Catalog

/-!
Empty filters inside filters. A filter that imposes nothing can be replaced by the empty object
wherever it stands. An object under ANY imposes nothing when a child filter of it, or the filter
on an entity attribute of it that does not repeat, imposes nothing. On a repeating attribute such
a filter is dropped instead.
-/

namespace EntityGraph.Filter

inductive Replaced (c : Catalog) (o : Entity) (v w : Value) : Entity → Value → Value → Prop
  | here : Replaced c o v w o v w
  | item {e : Entity} {before after : Arguments} {left right : List Value} {item item' : Value} :
      Replaced c o v w e item item' →
      Replaced c o v w e
        (.object (before ++ (childrenKey, .list (left ++ item :: right)) :: after))
        (.object (before ++ (childrenKey, .list (left ++ item' :: right)) :: after))
  | child {e : Entity} {before after inner inner' : Arguments} :
      Replaced c o v w e (.object inner) (.object inner') →
      Replaced c o v w e (.object (before ++ (childrenKey, .object inner) :: after))
        (.object (before ++ (childrenKey, .object inner') :: after))
  | entity {e target : Entity} {before after : Arguments} {key : String} {value value' : Value}
      {a : Attribute} : Constrained e key value a → a.scalarKind? = none →
      c.entity? a.typeName = some target → Replaced c o v w target value value' →
      Replaced c o v w e (.object (before ++ (key, value) :: after))
        (.object (before ++ (key, value') :: after))

/-- A filter can take the place of another one: where the other is read it is read, and the two
simplify alike. -/
def Replaceable (c : Catalog) (e : Entity) (v w : Value) : Prop :=
  ∀ t, readObject c e "" v = .ok t → ∃ u, readObject c e "" w = .ok u ∧ u.simplify = t.simplify

/-- What stands under any key but that of the join has no part in the join. -/
theorem joinOf_replace {before after : Arguments} {key : String} (h : key ≠ joinKey)
    (value value' : Value) :
    joinOf (before ++ (key, value) :: after) = joinOf (before ++ (key, value') :: after) := by
  simp [joinOf, joinFrom, h]

/-- A field can be replaced by one that gives trees which simplify alike. -/
theorem replaceable_field {c : Catalog} {e : Entity} {before after : Arguments} {key : String}
    {value value' : Value} (hj : key ≠ joinKey)
    (h : ∀ ts, Gives c e key value ts → ∃ us, Gives c e key value' us ∧
      us.map FilterTree.simplify = ts.map FilterTree.simplify) :
    Replaceable c e (.object (before ++ (key, value) :: after))
      (.object (before ++ (key, value') :: after)) := by
  intro t ht
  obtain ⟨trees, htrees, rfl⟩ := readObject_gives.mp ht
  obtain ⟨as, ts, bs, has, hts, hbs, rfl⟩ := Outcome.forall₂_append_cons.mp htrees
  obtain ⟨us, hus, hsimp⟩ := h ts hts
  have hread : AllGive c e (before ++ (key, value') :: after) (as ++ us :: bs) :=
    Outcome.forall₂_append_cons.mpr ⟨as, us, bs, has, hus, hbs, rfl⟩
  refine ⟨_, readObject_gives.mpr ⟨_, hread, rfl⟩, ?_⟩
  -- The field is no join, and its new trees simplify as the old ones do.
  rw [joinOf_replace hj value' value]
  apply FilterTree.simplify_node_congr
  simp only [List.flatten_append, List.flatten_cons, List.map_append, hsimp]

/-- What simplifies alike imposes alike on the record above a repeating attribute. -/
theorem belowAttribute_congr {a : Attribute} {t u : FilterTree Constraint}
    {ts : List (FilterTree Constraint)} (h : u.simplify = t.simplify)
    (hts : belowAttribute a t = .ok ts) : ∃ us, belowAttribute a u = .ok us ∧
      us.map FilterTree.simplify = ts.map FilterTree.simplify := by
  rw [belowAttribute] at hts ⊢
  cases hrep : a.repeating with
  | false =>
    rw [hrep] at hts
    obtain rfl := Except.ok.inj hts
    exact ⟨[u], rfl, by simp [h]⟩
  | true =>
    -- What is kept below a repeating attribute is a function of the simplified tree.
    rw [hrep, FilterTree.perElement?_congr h.symm] at hts
    exact ⟨ts, hts, rfl⟩

/-- A filter takes the place of another one inside filters as well. -/
theorem replaceable_of_replaced {c : Catalog} {o e : Entity} {v w f f' : Value}
    (h : Replaceable c o v w) (hr : Replaced c o v w e f f') : Replaceable c e f f' := by
  induction hr with
  | here => exact h
  | @item e _ _ left right item item' _ ih =>
    apply replaceable_field childrenKey_ne_joinKey
    intro ts hts
    rw [gives_children] at hts
    obtain ⟨as, t, bs, has, ht, hbs, rfl⟩ := Outcome.forall₂_append_cons.mp hts
    obtain ⟨u, hu, hsimp⟩ := ih t ht
    refine ⟨as ++ u :: bs, gives_children.mpr ?_, by simp [hsimp]⟩
    exact Outcome.forall₂_append_cons.mpr ⟨as, u, bs, has, hu, hbs, rfl⟩
  | child _ ih =>
    apply replaceable_field childrenKey_ne_joinKey
    intro ts hts
    obtain ⟨t, ht, rfl⟩ := gives_child.mp hts
    obtain ⟨u, hu, hsimp⟩ := ih t ht
    exact ⟨[u], gives_child.mpr ⟨u, hu, rfl⟩, by simp [hsimp]⟩
  | @entity e target _ _ key value value' a hcon hk ht _ ih =>
    apply replaceable_field hcon.not_join
    intro ts hts
    obtain ⟨t, hread, hts⟩ := (gives_entity hcon hk ht).mp hts
    obtain ⟨u, hu, hsimp⟩ := ih t hread
    -- What takes the place is read as well, so it is an object and not null.
    have hcon' : Constrained e key value' a := by
      obtain ⟨fields, rfl⟩ := isObject_of_readObject hu
      exact ⟨hcon.not_join, hcon.not_children, hcon.found, rfl⟩
    have hbelow : (u.map (Constraint.below (key ++ "."))).simplify =
        (t.map (Constraint.below (key ++ "."))).simplify := by
      rw [FilterTree.simplify_map, FilterTree.simplify_map, hsimp]
    obtain ⟨us, hus, hsame⟩ := belowAttribute_congr hbelow hts
    exact ⟨us, (gives_entity hcon' hk ht).mpr ⟨u, hu, hus⟩, hsame⟩

theorem inside_of_replaced {c : Catalog} {o e : Entity} {v w f f' : Value}
    (hr : Replaced c o v w e f f') : Inside c e f o v := by
  induction hr with
  | here => exact .refl o v
  | item _ ih => exact .step (.item List.mem_append_cons_self List.mem_append_cons_self) ih
  | child _ ih => exact .step (.child List.mem_append_cons_self) ih
  | entity hcon hk ht _ ih => exact .step (.below List.mem_append_cons_self hcon hk ht) ih

theorem isObject_of_inside {c : Catalog} {e o : Entity} {f : Value} {fields : Arguments}
    (hi : Inside c e f o (.object fields)) : ∃ inner, f = .object inner := by
  cases hi with
  | refl => exact ⟨_, rfl⟩
  | step _ _ => exact ⟨_, rfl⟩

theorem compile_object {c : Catalog} {e : Entity} {fields : Arguments}
    {groups : List FilterGroup} : compile c e (.object fields) = .ok groups ↔
      ∃ t, readObject c e "" (.object fields) = .ok t ∧ t.groups? = some groups := by
  simp [compile_eq_ok]

/-- Replacing an object by what can take its place leaves the groups of a filter. -/
theorem compile_replaced {c : Catalog} {o e : Entity} {fields : Arguments} {w f f' : Value}
    {groups : List FilterGroup} (h : Replaceable c o (.object fields) w)
    (hr : Replaced c o (.object fields) w e f f') (hf : compile c e f = .ok groups) :
    compile c e f' = .ok groups := by
  obtain ⟨inner, rfl⟩ := isObject_of_inside (inside_of_replaced hr)
  obtain ⟨t, ht, hgroups⟩ := compile_object.mp hf
  obtain ⟨u, hu, hsimp⟩ := replaceable_of_replaced h hr t ht
  refine compile_eq_ok.mpr (Or.inr ⟨u, hu, ?_⟩)
  rw [FilterTree.groups?_congr hsimp]
  exact hgroups

/-- A filter compiles to no groups exactly when nothing is left of its tree. -/
theorem compile_eq_nil {c : Catalog} {e : Entity} {v : Value} {t : FilterTree Constraint}
    (h : readObject c e "" v = .ok t) : compile c e v = .ok [] ↔ t.simplify = none := by
  obtain ⟨fields, rfl⟩ := isObject_of_readObject h
  rw [compile_object, ← FilterTree.groups?_eq_some_nil]
  constructor
  · intro hc
    obtain ⟨u, hu, hgroups⟩ := hc
    obtain rfl := Except.ok.inj (h.symm.trans hu)
    exact hgroups
  · intro hgroups
    exact ⟨t, h, hgroups⟩

/-- A child filter of an object, or the filter on an entity attribute of it that does not repeat,
imposes nothing. -/
def HasIdlePart (c : Catalog) (e : Entity) (fields : Arguments) : Prop :=
  ∃ a target w, Part c e fields a target w ∧ (∀ b ∈ a, b.repeating = false) ∧
    compile c target w = .ok []

/-- An object has no parts but filters on repeating attributes, and these impose nothing. -/
def OnlyIdleLists (c : Catalog) (e : Entity) (fields : Arguments) : Prop :=
  (∀ key value a, (key, value) ∈ fields → Constrained e key value a → a.scalarKind? = none) ∧
    ∀ a target w, Part c e fields a target w →
      (∃ b ∈ a, b.repeating = true) ∧ compile c target w = .ok []

/-- What imposes nothing is dropped below a repeating attribute. -/
theorem perElement?_of_simplify_none {t : FilterTree Constraint} (h : t.simplify = none) :
    t.perElement? = some none := by
  rw [FilterTree.perElement?, h]

/-- A field gives a tree that imposes nothing exactly when a part of the object that stands in it,
on no repeating attribute, imposes nothing. -/
theorem hasIdlePart_iff {c : Catalog} {e : Entity} {fields : Arguments}
    {trees : List (List (FilterTree Constraint))}
    (h : AllGive c e fields trees) :
    HasIdlePart c e fields ↔ ∃ t ∈ trees.flatten, t.simplify = none := by
  constructor
  · intro hidle
    obtain ⟨a, target, w, hp, hsingle, hw⟩ := hidle
    cases hp with
    | item hf hi =>
      obtain ⟨ts, hts, hg⟩ := h.of_field hf
      obtain ⟨t, ht, hread⟩ := Outcome.exists_mem_right (gives_children.mp hg) hi
      exact ⟨t, List.mem_flatten.mpr ⟨ts, hts, ht⟩, (compile_eq_nil hread).mp hw⟩
    | child hf =>
      obtain ⟨ts, hts, hg⟩ := h.of_field hf
      obtain ⟨t, hread, rfl⟩ := gives_child.mp hg
      exact ⟨t, List.mem_flatten.mpr ⟨_, hts, by simp⟩, (compile_eq_nil hread).mp hw⟩
    | below hf hcon hk ht =>
      obtain ⟨ts, hts, hg⟩ := h.of_field hf
      obtain ⟨t, hread, hbelow⟩ := (gives_entity hcon hk ht).mp hg
      obtain rfl := (belowAttribute_single (hsingle _ rfl)).mp hbelow
      refine ⟨_, List.mem_flatten.mpr ⟨_, hts, List.mem_singleton_self _⟩, ?_⟩
      rw [FilterTree.simplify_map, (compile_eq_nil hread).mp hw]
      rfl
  · intro hnone
    -- The kind of the field that gives the tree says which part of the object is idle.
    obtain ⟨t, ht, hnone⟩ := hnone
    obtain ⟨ts, hts, ht⟩ := List.mem_flatten.mp ht
    obtain ⟨key, value, hf, hg⟩ := h.of_tree hts
    cases hg with
    | join _ => simp at ht
    | noChildren => simp at ht
    | absent _ _ _ => simp at ht
    | child hread =>
      obtain rfl := List.mem_singleton.mp ht
      exact ⟨none, e, _, .child hf, by simp, (compile_eq_nil hread).mpr hnone⟩
    | children hread =>
      obtain ⟨item, hi, hread⟩ := Outcome.exists_mem_left hread ht
      exact ⟨none, e, item, .item hf hi, by simp, (compile_eq_nil hread).mpr hnone⟩
    | scalar _ _ _ =>
      obtain rfl := List.mem_singleton.mp ht
      simp [FilterTree.simplify] at hnone
    | @single _ _ a target t hcon hk htarget hrep hread =>
      obtain rfl := List.mem_singleton.mp ht
      rw [FilterTree.simplify_map, Option.map_eq_none_iff] at hnone
      refine ⟨some a, target, value, .below hf hcon hk htarget, ?_,
        (compile_eq_nil hread).mpr hnone⟩
      intro b hb
      rw [← Option.some.inj hb, hrep]
    | @repeating _ _ _ _ _ kept _ _ _ _ _ hkept =>
      -- What is kept below a repeating attribute still imposes something.
      cases kept with
      | none => simp at ht
      | some s =>
        obtain rfl := List.mem_singleton.mp ht
        rw [FilterTree.simplify_map, (FilterTree.simplify_of_perElement? hkept).2] at hnone
        cases hnone

/-- The fields of an object give no trees exactly when it has no parts but idle ones on repeating
attributes. -/
theorem onlyIdleLists_iff {c : Catalog} {e : Entity} {fields : Arguments}
    {trees : List (List (FilterTree Constraint))}
    (h : AllGive c e fields trees) :
    OnlyIdleLists c e fields ↔ trees.flatten = [] := by
  rw [List.flatten_eq_nil_iff]
  constructor
  · intro hidle ts hts
    obtain ⟨hscalar, hparts⟩ := hidle
    obtain ⟨key, value, hf, hg⟩ := h.of_tree hts
    cases hg with
    | join _ => rfl
    | noChildren => rfl
    | absent _ _ _ => rfl
    | child _ =>
      obtain ⟨⟨_, hb, _⟩, _⟩ := hparts none e _ (.child hf)
      cases hb
    | @children items ts hread =>
      cases hread with
      | nil => rfl
      | cons _ _ =>
        obtain ⟨⟨_, hb, _⟩, _⟩ := hparts none e _ (.item hf (List.mem_cons_self ..))
        cases hb
    | scalar hcon hk _ =>
      have hnone := hscalar key value _ hf hcon
      rw [hk] at hnone
      cases hnone
    | single hcon hk htarget hrep _ =>
      obtain ⟨⟨b, hb, hb'⟩, _⟩ := hparts _ _ _ (.below hf hcon hk htarget)
      obtain rfl := Option.some.inj hb
      rw [hrep] at hb'
      cases hb'
    | repeating hcon hk htarget _ hread hkept =>
      obtain ⟨_, hw⟩ := hparts _ _ _ (.below hf hcon hk htarget)
      have hnone := perElement?_of_simplify_none ((compile_eq_nil hread).mp hw)
      rw [hkept] at hnone
      obtain rfl := Option.some.inj hnone
      rfl
  · intro hnil
    -- Each field gives nothing, which leaves joins, nulls and idle filters on repeating attributes.
    have hgives : ∀ {key value}, (key, value) ∈ fields → Gives c e key value [] := by
      intro key value hf
      obtain ⟨ts, hts, hg⟩ := h.of_field hf
      rw [hnil ts hts] at hg
      exact hg
    constructor
    · intro key value a hf hcon
      cases hk : a.scalarKind? with
      | none => rfl
      | some kind =>
        have hg := readField_of_gives (hgives hf)
        rw [readField_constrained c "" hcon, readAttribute, hk] at hg
        obtain ⟨k, _, hk⟩ := Outcome.bind_eq_ok.mp hg
        cases hk
    · intro a target w hp
      cases hp with
      | item hf hi =>
        cases gives_children.mp (hgives hf)
        cases hi
      | child hf =>
        obtain ⟨t, _, ht⟩ := gives_child.mp (hgives hf)
        cases ht
      | @below key _ a _ hf hcon hk htarget =>
        obtain ⟨t, hread, hbelow⟩ := (gives_entity hcon hk htarget).mp (hgives hf)
        cases hrep : a.repeating with
        | false => cases (belowAttribute_single hrep).mp hbelow
        | true =>
          obtain ⟨kept, hkept, hnil⟩ := (belowAttribute_repeating hrep).mp hbelow
          refine ⟨⟨a, rfl, hrep⟩, (compile_eq_nil hread).mpr ?_⟩
          cases kept with
          | some s => cases hnil
          | none =>
            have hsimp := (FilterTree.perElement?_eq_some hkept).1
            rw [FilterTree.simplify_map, Option.map_eq_none_iff] at hsimp
            exact hsimp

/-- When an object under ANY imposes nothing. -/
theorem compile_any_eq_nil {c : Catalog} {e : Entity} {fields : Arguments}
    {t : FilterTree Constraint} (ht : readObject c e "" (.object fields) = .ok t)
    (hj : joinOf fields = .any) : compile c e (.object fields) = .ok [] ↔
      HasIdlePart c e fields ∨ OnlyIdleLists c e fields := by
  rw [compile_eq_nil ht]
  obtain ⟨trees, htrees, rfl⟩ := readObject_gives.mp ht
  rw [hj, FilterTree.simplify_any_eq_none, hasIdlePart_iff htrees, onlyIdleLists_iff htrees,
    or_comm]

/-- A filter that imposes nothing can be replaced by the empty object. -/
theorem replaceable_empty {c : Catalog} {e : Entity} {v : Value} (h : compile c e v = .ok []) :
    Replaceable c e v (.object []) := by
  intro t ht
  refine ⟨.node .all [], readObject_gives.mpr ⟨[], .nil, rfl⟩, ?_⟩
  rw [(compile_eq_nil ht).mp h, FilterTree.simplify_all_eq_none]
  simp

/-- The filter on a repeating attribute can be left out when it imposes nothing. -/
theorem replaceable_dropped {c : Catalog} {e target : Entity} {before after : Arguments}
    {key : String} {value : Value} {a : Attribute} (hcon : Constrained e key value a)
    (hk : a.scalarKind? = none) (ht : c.entity? a.typeName = some target)
    (hrep : a.repeating = true) (hvalue : compile c target value = .ok []) :
    Replaceable c e (.object (before ++ (key, value) :: after)) (.object (before ++ after)) := by
  intro t hread
  obtain ⟨trees, htrees, rfl⟩ := readObject_gives.mp hread
  obtain ⟨as, ts, bs, has, hts, hbs, rfl⟩ := Outcome.forall₂_append_cons.mp htrees
  obtain ⟨u, hu, hbelow⟩ := (gives_entity hcon hk ht).mp hts
  have hnone : (u.map (Constraint.below (key ++ "."))).simplify = none := by
    rw [FilterTree.simplify_map, (compile_eq_nil hu).mp hvalue]
    rfl
  obtain ⟨kept, hkept, rfl⟩ := (belowAttribute_repeating hrep).mp hbelow
  rw [perElement?_of_simplify_none hnone] at hkept
  obtain rfl := Option.some.inj hkept
  refine ⟨_, readObject_gives.mpr ⟨as ++ bs, List.rel_append has hbs, rfl⟩, ?_⟩
  have hjoin : joinOf (before ++ (key, value) :: after) = joinOf (before ++ after) := by
    simp [joinOf, joinFrom, hcon.not_join]
  simp [hjoin]

/-- An object under ANY inside a filter. When a part of it imposes nothing that is not on a
repeating attribute, or all of its parts are on repeating attributes and impose nothing, and only
then, it imposes nothing, and the filter with the empty object in its place has the same groups.
What imposes nothing on a repeating attribute can be left out of it. -/
theorem compile_any_object {c : Catalog} {e o : Entity} {f f' : Value} {fields : Arguments}
    {groups : List FilterGroup} (hf : compile c e f = .ok groups) (hj : joinOf fields = .any)
    (hr : Replaced c o (.object fields) (.object []) e f f') :
    (compile c o (.object fields) = .ok [] ↔ HasIdlePart c o fields ∨ OnlyIdleLists c o fields) ∧
    (compile c o (.object fields) = .ok [] → compile c e f' = .ok groups) ∧
    ∀ before key value after a target g, fields = before ++ (key, value) :: after →
      Constrained o key value a → a.scalarKind? = none → c.entity? a.typeName = some target →
      a.repeating = true → compile c target value = .ok [] →
      Replaced c o (.object fields) (.object (before ++ after)) e f g →
      compile c e g = .ok groups := by
  refine ⟨?_, ?_, ?_⟩
  · obtain ⟨inner, rfl⟩ := isObject_of_inside (inside_of_replaced hr)
    obtain ⟨t, ht, _⟩ := compile_object.mp hf
    obtain ⟨u, hu⟩ := read_of_inside (inside_of_replaced hr) ht
    exact compile_any_eq_nil hu hj
  · intro hnil
    exact compile_replaced (replaceable_empty hnil) hr hf
  · intro before key value after a target g hfields hcon hk ht hrep hvalue hg
    subst hfields
    exact compile_replaced (replaceable_dropped hcon hk ht hrep hvalue) hg hf

def anyCustomer : Arguments :=
  [("_join", .string "ANY"), ("customer", .object []),
   ("shippingMethod", .object [("eq", .string "courier")])]

/-- Beside another constraint, an empty filter on the customer leaves only that constraint. -/
theorem compile_anyCustomer :
    compile Storefront.catalog Storefront.order (.object anyCustomer) = .ok [] ∧
    compile Storefront.catalog Storefront.order
      (.object [("_children", .list [.object []]), ("id", .object [("eq", .string "7")])]) =
        .ok [[⟨"id", .eq (.string "7")⟩]] := by
  have hcompile : compile Storefront.catalog Storefront.order
      (.object [("_children", .list [.object anyCustomer]), ("id", .object [("eq", .string "7")])]) =
        .ok [[⟨"id", .eq (.string "7")⟩]] := rfl
  have hreplaced : Replaced Storefront.catalog Storefront.order (.object anyCustomer) (.object [])
      Storefront.order
      (.object [("_children", .list [.object anyCustomer]), ("id", .object [("eq", .string "7")])])
      (.object [("_children", .list [.object []]), ("id", .object [("eq", .string "7")])]) :=
    @Replaced.item _ _ _ _ _ [] _ [] [] _ _ .here
  have hcustomer : Constrained Storefront.order "customer" (.object [])
      (.entity "customer" "Customer who placed the order" "Customer" false true) :=
    ⟨by decide, by decide, rfl, rfl⟩
  -- The customer is one attribute, not a list of them, so that its empty node stays.
  have hpart : HasIdlePart Storefront.catalog Storefront.order anyCustomer := by
    refine ⟨_, Storefront.customer, .object [], .below ?_ hcustomer rfl rfl, ?_, rfl⟩
    · simp [anyCustomer]
    · intro b hb
      rw [← Option.some.inj hb]
      rfl
  obtain ⟨hidle, hsame, _⟩ := compile_any_object hcompile rfl hreplaced
  have hnil := hidle.mpr (Or.inl hpart)
  exact ⟨hnil, hsame hnil⟩

def anyItems : Arguments :=
  [("_join", .string "ANY"), ("items", .object []),
   ("shippingMethod", .object [("eq", .string "courier")])]

/-- An empty filter on the items of an order does not make the disjunction around it true: it is
left out, and orders that go another way are refused. -/
theorem not_absorbed_by_items : ¬ ∀ (c : Catalog) (e o : Entity) (f f' : Value)
    (fields : Arguments) (groups : List FilterGroup), compile c e f = .ok groups →
      joinOf fields = .any →
      (∃ a target w, Part c o fields a target w ∧ compile c target w = .ok []) →
      Replaced c o (.object fields) (.object []) e f f' →
      ∃ groups', compile c e f' = .ok groups' ∧
        ∀ r, admits c e groups' r = admits c e groups r := by
  intro h
  have hcompile : compile Storefront.catalog Storefront.order (.object anyItems) =
      .ok [[⟨"shippingMethod", .eq (.string "courier")⟩]] := rfl
  -- The same empty node below a repeating attribute, which drops it.
  have hitems : Constrained Storefront.order "items" (.object [])
      (.entity "items" "Items in order" "OrderItem" true false) :=
    ⟨by decide, by decide, rfl, rfl⟩
  have hpart : ∃ a target w,
      Part Storefront.catalog Storefront.order anyItems a target w ∧
        compile Storefront.catalog target w = .ok [] := by
    refine ⟨_, Storefront.orderItem, .object [], .below ?_ hitems rfl rfl, rfl⟩
    simp [anyItems]
  obtain ⟨groups, hgroups, hadmits⟩ := h _ _ _ _ _ _ _ hcompile rfl hpart .here
  have hempty : compile Storefront.catalog Storefront.order (.object []) = .ok [] := rfl
  obtain rfl := Except.ok.inj (hempty.symm.trans hgroups)
  -- An order by post would have to pass.
  have hpost := hadmits (.document [("shippingMethod", .string "post")])
  cases hpost

end EntityGraph.Filter
