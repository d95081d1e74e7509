import EntityGraph.Proofs.Execution.RootPlan
import EntityGraph.Proofs.Request.Repeated
import EntityGraph.Storefront.Catalog
import EntityGraph.Storefront.Roots

namespace EntityGraph

/-- The root field of a name has that name. -/
theorem RootFields.name_of_get {roots : RootFields} {kind : RootKind} {name : String}
    {f : RootField} (h : roots.get kind name = .ok f) : f.name = name := by
  rw [get] at h
  split at h
  · next g hg =>
    obtain rfl := Except.ok.inj h
    exact Keyed.key_of_find? hg
  · cases h

namespace PlannedItem

variable {c : Catalog} {roots : RootFields} {pages : PageDefaults} {kind : RootKind}

def planMore (c : Catalog) (roots : RootFields) (pages : PageDefaults) (kind : RootKind)
    (planned : List PlannedItem) (item : Item) : Except Error (List PlannedItem) :=
  (ofItem c roots pages kind item).outcome >>= fun next => next.addTo kind planned

/-- Planning is one loop over the fields. -/
theorem outcome_planAll (items : List Item) : (planAll c roots pages kind items).outcome =
    items.foldlM (planMore c roots pages kind) [] := by
  rw [planAll, Tracked.outcome_foldlM]
  simp only [Tracked.outcome_bind, Tracked.outcome_lift]
  rfl

/-- An item at the root asks for the type's name, or it is planned with its name and its
arguments. -/
theorem ofItem_cases {item : Item} {x : PlannedItem}
    (h : (ofItem c roots pages kind item).outcome = .ok x) :
    item.head.name = typenameField ∧ x = .typename ∨ item.head.name ≠ typenameField ∧
      ∃ plan, x = .field plan ∧ plan.field.name = item.head.name ∧
        plan.arguments = item.head.arguments := by
  obtain ⟨⟨name, label, arguments, selected⟩, inner⟩ := item
  rw [ofItem, Tracked.outcome_bind] at h
  obtain ⟨_, _, h⟩ := Outcome.bind_eq_ok.mp h
  split at h
  · next hname => exact Or.inl ⟨hname, (Except.ok.inj h).symm⟩
  · next hname =>
    simp only [Tracked.outcome_bind, Tracked.outcome_lift] at h
    obtain ⟨f, hf, h⟩ := Outcome.bind_eq_ok.mp h
    obtain ⟨_, _, h⟩ := Outcome.bind_eq_ok.mp h
    obtain ⟨step, _, h⟩ := Outcome.bind_eq_ok.mp h
    obtain ⟨request, _, h⟩ := Outcome.bind_eq_ok.mp h
    obtain rfl := Except.ok.inj h
    exact Or.inr ⟨hname, _, rfl, RootFields.name_of_get (Outcome.mapError_eq_ok.mp hf), rfl⟩

theorem name_ofItem {item : Item} {x : PlannedItem}
    (h : (ofItem c roots pages kind item).outcome = .ok x) : x.name = item.head.name := by
  obtain ⟨hname, rfl⟩ | ⟨_, plan, rfl, hname, _⟩ := ofItem_cases h
  · exact hname.symm
  · exact hname

theorem name_combine {x y z : PlannedItem} (h : combine kind x y = .ok z) : z.name = x.name := by
  obtain ⟨rfl, _⟩ | ⟨_, _, _, rfl, _, _, _, rfl⟩ := combine_cases h <;> rfl

def combineWith (kind : RootKind) (next : PlannedItem) :
    Option PlannedItem → Except Error PlannedItem
  | none => .ok next
  | some existing => combine kind existing next

theorem name_combineWith {next z : PlannedItem} {planned : List PlannedItem}
    (h : combineWith kind next (Keyed.find? name next.name planned) = .ok z) :
    z.name = next.name := by
  cases hfound : Keyed.find? name next.name planned with
  | none =>
    rw [hfound] at h
    rw [Except.ok.inj h]
  | some existing =>
    rw [hfound] at h
    exact (name_combine h).trans (Keyed.key_of_find? hfound)

/-- A planned item takes the place of the one of its name that stands there already. -/
theorem addTo_eq (next : PlannedItem) (planned : List PlannedItem) : next.addTo kind planned =
    (combineWith kind next (Keyed.find? name next.name planned)).map fun x =>
      Keyed.insert name x planned := by
  induction planned with
  | nil => rfl
  | cons existing rest ih =>
    rw [addTo, Keyed.find?_cons]
    by_cases hname : existing.name = next.name
    · rw [if_pos hname, if_pos hname, combineWith]
      cases h : combine kind existing next with
      | error err => rfl
      | ok x =>
        have hx : existing.name = x.name := (name_combine h).symm
        simp only [Except.map, Keyed.insert, if_pos hx]
    · rw [if_neg hname, if_neg hname, ih]
      cases h : combineWith kind next (Keyed.find? name next.name rest) with
      | error err => rfl
      | ok x =>
        have hx : existing.name ≠ x.name := fun hx => hname (hx.trans (name_combineWith h))
        simp only [Except.map, Keyed.insert, if_neg hx]

/-- A planned item agrees with arguments: whatever is the same as these is the same as its own. -/
def Agrees (x : PlannedItem) (arguments : Arguments) : Prop :=
  ∀ plan, x = .field plan → ∀ other, arguments.same other = true →
    plan.arguments.same other = true

/-- The arguments of the first are kept, and agree with those of the second. -/
theorem agrees_combine {x y z : PlannedItem} (h : combine kind x y = .ok z) :
    (∀ arguments, x.Agrees arguments → z.Agrees arguments) ∧
      ∀ plan, y = .field plan → z.Agrees plan.arguments := by
  obtain ⟨rfl, htype⟩ | ⟨existing, next, request, rfl, rfl, hsame, _, rfl⟩ := combine_cases h
  · refine ⟨fun _ h => h, ?_⟩
    -- The type's name has no arguments.
    rintro plan rfl other rfl
    cases htype with
    | inl hx => cases hx
    | inr hy => cases hy
  · constructor
    · rintro arguments hagrees _ ⟨⟩
      exact hagrees existing rfl
    · rintro _ ⟨⟩ _ ⟨⟩ other hother
      exact Arguments.same_trans hsame hother

/-- After an item is added, what stands under its name agrees with its arguments. -/
theorem found_addTo {next : PlannedItem} {planned all : List PlannedItem}
    (h : next.addTo kind planned = .ok all) : ∃ x, Keyed.find? name next.name all = some x ∧
      ∀ plan, next = .field plan → x.Agrees plan.arguments := by
  rw [addTo_eq] at h
  obtain ⟨x, hx, rfl⟩ := Outcome.map_eq_ok.mp h
  refine ⟨x, by rw [Keyed.find?_insert, if_pos (name_combineWith hx)], ?_⟩
  cases hfound : Keyed.find? name next.name planned with
  | none =>
    rw [hfound] at hx
    obtain rfl := Except.ok.inj hx
    rintro plan rfl _ ⟨⟩
    exact fun _ h => h
  | some existing =>
    rw [hfound] at hx
    exact (agrees_combine hx).2

/-- What stands under a name is still there after an item is added, with its arguments. -/
theorem kept_addTo {next x : PlannedItem} {planned all : List PlannedItem}
    (h : next.addTo kind planned = .ok all) {key : String}
    (hx : Keyed.find? name key planned = some x) : ∃ y, Keyed.find? name key all = some y ∧
      ∀ arguments, x.Agrees arguments → y.Agrees arguments := by
  rw [addTo_eq] at h
  obtain ⟨z, hz, rfl⟩ := Outcome.map_eq_ok.mp h
  have hname := name_combineWith hz
  by_cases hkey : next.name = key
  · subst hkey
    rw [hx] at hz
    exact ⟨z, by rw [Keyed.find?_insert, if_pos hname], (agrees_combine hz).1⟩
  · have hne : z.name ≠ key := fun hz => hkey (hname.symm.trans hz)
    exact ⟨x, by rw [Keyed.find?_insert, if_neg hne, hx], fun _ h => h⟩

/-- A field that is planned stays, and agrees with whatever it agreed with. -/
theorem kept_planMore {x : PlannedItem} {items : List Item} {planned all : List PlannedItem}
    (h : items.foldlM (planMore c roots pages kind) planned = .ok all) {key : String}
    (hx : Keyed.find? name key planned = some x) : ∃ y, Keyed.find? name key all = some y ∧
      ∀ arguments, x.Agrees arguments → y.Agrees arguments := by
  refine Outcome.of_foldlM_eq_ok (I := fun planned => ∃ y, Keyed.find? name key planned = some y ∧
    ∀ arguments, x.Agrees arguments → y.Agrees arguments) ?_ ⟨x, hx, fun _ h => h⟩ h
  rintro planned₁ item planned₂ ⟨y, hy, hxy⟩ hitem
  obtain ⟨next, _, hadd⟩ := Outcome.bind_eq_ok.mp hitem
  obtain ⟨z, hz, hyz⟩ := kept_addTo hadd hy
  exact ⟨z, hz, fun arguments hagrees => hyz arguments (hxy arguments hagrees)⟩

/-- For every planned item, what stands under its name in the end agrees with its arguments. -/
theorem agrees_of_mem {items : List Item} {planned : List PlannedItem}
    (h : (planAll c roots pages kind items).outcome = .ok planned) {first : Item}
    (hfirst : first ∈ items) : ∃ x, Keyed.find? name first.head.name planned = some x ∧
      (first.head.name ≠ typenameField → x.Agrees first.head.arguments) := by
  obtain ⟨before, after, rfl⟩ := List.append_of_mem hfirst
  rw [outcome_planAll, List.foldlM_append] at h
  obtain ⟨planned₁, _, h⟩ := Outcome.bind_eq_ok.mp h
  rw [List.foldlM_cons] at h
  obtain ⟨planned₂, hitem, h⟩ := Outcome.bind_eq_ok.mp h
  obtain ⟨next, hnext, hadd⟩ := Outcome.bind_eq_ok.mp hitem
  obtain ⟨x, hx, hagrees⟩ := found_addTo hadd
  rw [name_ofItem hnext] at hx
  obtain ⟨y, hy, hkept⟩ := kept_planMore h hx
  refine ⟨y, hy, fun hname => hkept _ ?_⟩
  obtain ⟨htypename, _⟩ | ⟨_, plan, rfl, _, harguments⟩ := ofItem_cases hnext
  · exact absurd htypename hname
  · exact harguments ▸ hagrees plan rfl

def merged : PlannedItem → PlannedItem → Except Error PlannedItem
  | .field existing, .field next =>
    ((existing.request.merge next.request).mapError .schema).map fun request =>
      .field { existing with request }
  | existing, _ => .ok existing

/-- An item at the root that is selected again with the same arguments is merged with what stands
under its name. -/
theorem planAll_again {first again : Item} (hagain : again.Repeats first) {items : List Item}
    (hfirst : first ∈ items) {planned : List PlannedItem}
    (h : (planAll c roots pages kind items).outcome = .ok planned) {next : PlannedItem}
    (hnext : (ofItem c roots pages kind again).outcome = .ok next) :
    ∃ existing, Keyed.find? name next.name planned = some existing ∧
      (planAll c roots pages kind (items ++ [again])).outcome =
        (existing.merged next).map fun x => Keyed.insert name x planned := by
  obtain ⟨existing, hexisting, hagrees⟩ := agrees_of_mem h hfirst
  rw [← hagain.name, ← name_ofItem hnext] at hexisting
  refine ⟨existing, hexisting, ?_⟩
  -- Merged with what is there; the arguments agree, so only the requests may conflict.
  have hcombine : combine kind existing next = existing.merged next := by
    cases existing with
    | typename => cases next <;> rfl
    | field plan =>
      obtain ⟨_, rfl⟩ | ⟨hattribute, nextPlan, rfl, _, harguments⟩ := ofItem_cases hnext
      · rfl
      · have hagrees := hagrees (hagain.name ▸ hattribute) plan rfl again.head.arguments hagain.same
        rw [combine, harguments, if_pos hagrees, merged]
  -- The last item is planned after all others.
  have hlast : (planAll c roots pages kind (items ++ [again])).outcome =
      planMore c roots pages kind planned again := by
    rw [outcome_planAll, List.foldlM_append, ← outcome_planAll, Outcome.bind_of_eq_ok h,
      List.foldlM_cons]
    cases planMore c roots pages kind planned again <;> rfl
  rw [hlast, planMore, Outcome.bind_of_eq_ok hnext, addTo_eq, hexisting, combineWith, hcombine]

end PlannedItem

namespace Planning

/-- A field that is selected again with the same arguments. At the root what both ask of the records
is merged. Below it the windows agree, the filters have the same groups in some order, and what the
fields ask for is merged exactly when they have them in the same order; that is so when the fields
of the given filters stand in the same order. The type's name may be asked for again anywhere. -/
theorem planned_again (c : Catalog) {first again : Item} (hagain : again.Repeats first) :
    (∀ {roots : RootFields} {pages : PageDefaults} {kind : RootKind} {items : List Item}
      {planned : List PlannedItem} {next : PlannedItem}, first ∈ items →
      (PlannedItem.planAll c roots pages kind items).outcome = .ok planned →
      (PlannedItem.ofItem c roots pages kind again).outcome = .ok next →
      ∃ existing, Keyed.find? PlannedItem.name next.name planned = some existing ∧
        (PlannedItem.planAll c roots pages kind (items ++ [again])).outcome =
          (existing.merged next).map fun x => Keyed.insert PlannedItem.name x planned) ∧
    (∀ {r m : Request} {before : Expansion} {items : List Item} {next : AttributeRequest},
      before.items = .ok items → first ∈ items → planAll c r before = .ok m →
      again.head.label = none → again.head.name ≠ typenameField →
      planAttribute c r.entity again.head (planBelow c (again.inner ())) = .ok next →
      ∃ prior existing,
        planAttribute c r.entity first.head (planBelow c (first.inner ())) = .ok prior ∧
        m.attribute? again.head.name = some existing ∧ prior.window = next.window ∧
        Filter.SameGroups false prior.filter next.filter ∧
        ((first.head.arguments.value "filter").Alike true (again.head.arguments.value "filter") →
          (prior.filter == next.filter) = true) ∧
        planAll c r (before.andThen fun _ => again.expansion) =
          if prior.filter == next.filter then
            ((Request.joinNested existing.nested next.nested).map fun nested =>
              m.put (existing.withNested nested)).mapError .schema
          else .error (.schema (.conflictingArguments r.entity.name again.head.name))) ∧
    ∀ {r m : Request} {before : Expansion}, planAll c r before = .ok m →
      again.head.label = none → again.head.name = typenameField →
      planAll c r (before.andThen fun _ => again.expansion) = .ok (m.withTypename true) := by
  refine ⟨fun hfirst hplanned hnext => PlannedItem.planAll_again hagain hfirst hplanned hnext,
    fun hitems hfirst hbefore hlabel hattribute hnext =>
      planAll_again hagain hitems hfirst hbefore hlabel hattribute hnext,
    fun hbefore hlabel hname => ?_⟩
  -- The typename has no arguments that could conflict.
  rw [planAll_andThen, Outcome.bind_of_eq_ok hbefore]
  exact planAll_typename hname hlabel

def selecting (name : String) (arguments : Arguments) (below : String) : Item :=
  ⟨⟨name, none, arguments, true⟩,
    fun _ => .field ⟨below, none, [], false⟩ (fun _ => .done) fun _ => .done⟩

def firstTwo : Arguments := [("start", .number (.integer 0)), ("limit", .number (.integer 2))]

/-- Two orders that are asked for twice, and two items of an order, with the arguments in either
order. -/
theorem planned_again_firstTwo :
    (∃ orders, (PlannedItem.planAll Storefront.catalog Storefront.roots .standard .query
      [selecting "orders" firstTwo "id",
        selecting "orders" firstTwo.reverse "shippingMethod"]).outcome = .ok [orders]) ∧
    ∃ request, planAll Storefront.catalog (.new Storefront.order)
        ((selecting "items" firstTwo "id").expansion.andThen fun _ =>
          (selecting "items" firstTwo.reverse "qty").expansion) = .ok request ∧
      request.text = "Order[items(0,2):OrderItem[id qty]]" := by
  have hkeyed : Value.Keyed (.object firstTwo) := by
    refine .object (by decide) fun field hfield => ?_
    simp only [firstTwo, List.mem_cons, List.not_mem_nil, or_false] at hfield
    rcases hfield with rfl | rfl <;> exact .number _
  -- The same two arguments the other way round.
  have hagain : ∀ name below below',
      (selecting name firstTwo.reverse below').Repeats (selecting name firstTwo below) :=
    fun _ _ _ => ⟨rfl, hkeyed, rfl⟩
  constructor
  · have hfirst : (PlannedItem.planAll Storefront.catalog Storefront.roots .standard .query
        [selecting "orders" firstTwo "id"]).outcome = .ok _ := rfl
    obtain ⟨existing, hexisting, hplanned⟩ :=
      (planned_again Storefront.catalog (hagain "orders" "id" "shippingMethod")).1 (.head _) hfirst
        rfl
    obtain rfl := Option.some.inj hexisting
    exact ⟨_, hplanned⟩
  · have hfirst : planAll Storefront.catalog (.new Storefront.order)
        (selecting "items" firstTwo "id").expansion = .ok _ := rfl
    obtain ⟨prior, existing, hprior, hexisting, _, _, hordered, hplanned⟩ :=
      (planned_again Storefront.catalog (hagain "items" "id" "qty")).2.1 rfl (.head _) hfirst rfl
        (by decide) rfl
    obtain rfl := Except.ok.inj hprior
    obtain rfl := Option.some.inj hexisting
    rw [hordered .null, if_pos rfl] at hplanned
    exact ⟨_, hplanned, rfl⟩

def manyPieces : Arguments :=
  [("qty", .object [("gt", .number (.integer 1))]), ("id", .object [("neq", .number (.integer 5))])]

/-- The ids of some items of an order and their quantities, with the fields of the filter in
reverse, are not merged: the arguments are the same, and yet they are said to be in conflict. -/
theorem refused_for_order_of_fields : ¬ ∀ (c : Catalog) (r m : Request) (first again : Item)
    (next : AttributeRequest), again.Repeats first → planAll c r first.expansion = .ok m →
      again.head.label = none → again.head.name ≠ typenameField →
      planAttribute c r.entity again.head (planBelow c (again.inner ())) = .ok next →
      (∀ existing, m.attribute? again.head.name = some existing →
        ∃ nested, Request.joinNested existing.nested next.nested = .ok nested) →
      planAll c r (first.expansion.andThen fun _ => again.expansion) ≠
        .error (.schema (.conflictingArguments r.entity.name again.head.name)) := by
  intro h
  have hnumber : ∀ key n, Value.Keyed (.object [(key, .number n)]) := fun key n =>
    .object (List.nodup_singleton key) (List.forall_mem_singleton.mpr (.number n))
  -- Two operators on different fields of an item, in either order: the filters mean the same and
  -- compile to different groups.
  have hfilter : Value.Keyed (.object manyPieces) := by
    refine .object (by decide) fun field hfield => ?_
    simp only [manyPieces, List.mem_cons, List.not_mem_nil, or_false] at hfield
    rcases hfield with rfl | rfl <;> exact hnumber _ _
  have hkeyed : Value.Keyed (.object [("filter", .object manyPieces)]) :=
    .object (List.nodup_singleton _) (List.forall_mem_singleton.mpr hfilter)
  have hfirst : planAll Storefront.catalog (.new Storefront.order)
      (selecting "items" [("filter", .object manyPieces)] "id").expansion = .ok _ := rfl
  refine h Storefront.catalog (.new Storefront.order) _
    (selecting "items" [("filter", .object manyPieces)] "id")
    (selecting "items" [("filter", .object manyPieces.reverse)] "qty") _ ⟨rfl, hkeyed, ?_⟩ hfirst
    rfl (by decide) rfl ?_ ?_
  · decide
  · intro existing hexisting
    obtain rfl := Option.some.inj hexisting
    exact ⟨_, rfl⟩
  · rfl

end Planning

end EntityGraph
