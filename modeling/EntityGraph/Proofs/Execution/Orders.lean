import EntityGraph.Execution.Service
import EntityGraph.Proofs.Execution.ReadBack
import EntityGraph.Proofs.Execution.RootPlan
import EntityGraph.Regex.Engine
import EntityGraph.Storefront.Roots

namespace EntityGraph

structure Attribute.IsPlain (a : Attribute) : Prop where
  read : a.read = fun r => r.core a.name
  compute : a.compute = none

@[simp] theorem Attribute.isPlain_scalar (name description : String) (kind : ScalarKind)
    (nullable : Bool) : (scalar name description kind nullable).IsPlain := ⟨rfl, rfl⟩

@[simp] theorem Attribute.isPlain_entity (name description entityName : String)
    (repeating nullable : Bool) :
    (entity name description entityName repeating nullable).IsPlain := ⟨rfl, rfl⟩

@[simp] theorem Attribute.name_scalar (name description : String) (kind : ScalarKind)
    (nullable : Bool) : (scalar name description kind nullable).name = name := rfl

@[simp] theorem Attribute.name_computed (a : Attribute) (f : Record → AttributeValue) :
    (a.computed f).name = a.name := rfl

/-- An extended entity has its own attributes and the further ones. -/
theorem Entity.mem_extendMissing {e : Entity} {more : List Attribute} {a : Attribute}
    (h : a ∈ (e.extendMissing more).attributes) : a ∈ e.attributes ∨ a ∈ more := by
  induction more generalizing e with
  | nil => exact .inl h
  | cons b more ih =>
    rcases ih h with h | h
    · dsimp only at h
      split at h
      · exact .inl h
      · rcases Keyed.mem_of_mem_insert h with rfl | h
        · exact .inr List.mem_cons_self
        · exact .inl h
    · exact .inr (List.mem_cons_of_mem b h)

theorem Attribute.isPlain_of_discovered {fields : List (String × String)} {a : Attribute}
    (h : a ∈ discoverAttributes fields) : a.IsPlain := by
  obtain ⟨field, _, hfield⟩ := List.mem_filterMap.mp h
  obtain ⟨kind, _, rfl⟩ := Option.map_eq_some_iff.mp hfield
  exact isPlain_scalar _ _ _ _

namespace Storefront

def IsCustomerName (e : Entity) (a : Attribute) : Prop := e.name = "Customer" ∧ a.name = "name"

theorem forall_ofAttributes {name description : String} {as : List Attribute}
    {P : Attribute → Prop} (h : ∀ a ∈ as, P a) :
    ∀ a ∈ (Entity.ofAttributes name description as).attributes, P a :=
  fun a ha => h a (Keyed.mem_of_mem_ofList ha)

theorem isPlain_customer : ∀ a ∈ customer.attributes, a.name ≠ "name" → a.IsPlain :=
  forall_ofAttributes (by simp)

theorem isPlain_product : ∀ a ∈ product.attributes, a.IsPlain := by
  intro a ha
  rcases Entity.mem_extendMissing ha with ha | ha
  · exact forall_ofAttributes (by simp) a ha
  · exact Attribute.isPlain_of_discovered ha

/-- All attributes of the storefront are read from the record, but for the name of a customer. -/
theorem isPlain_storefront : ∀ e ∈ catalog.entities, ∀ a ∈ e.attributes,
    ¬ IsCustomerName e a → a.IsPlain := by
  intro e he a ha hname
  simp only [catalog, List.mem_cons, List.not_mem_nil, or_false] at he
  rcases he with rfl | rfl | rfl | rfl | rfl | rfl | rfl | rfl | rfl | rfl | rfl | rfl | rfl
  · exact isPlain_customer a ha fun h => hname ⟨rfl, h⟩
  all_goals
    first
    | exact isPlain_product a ha
    | exact forall_ofAttributes (by simp) a ha

/-- Nothing but the name of a customer is lacking in a new record. -/
theorem lacksOnly_storefront : ∀ e ∈ catalog.entities, e.LacksOnly IsCustomerName := by
  have hnames : ∀ e ∈ catalog.entities, ∀ a ∈ e.attributes,
      a.name ≠ extensionKey ∧ a.name ≠ customKey := by decide
  have hkept : ∀ e ∈ catalog.entities, ∀ a ∈ e.attributes,
      ¬ (e.name = "Customer" ∧ a.name = "name") → Schema.isSettable a = true ∨
        StoreRules.isId a = true ∧ a.repeating = false := by decide
  intro e he
  refine ⟨hnames e he, ?_, fun a ha hname => ⟨?_, hkept e he a ha hname⟩⟩
  · rintro a ha ⟨hentity, hname⟩
    obtain rfl : customer = e := by
      have hfound : catalog.entity? "Customer" = some e := Catalog.entity?_eq_some.mpr ⟨he, hentity⟩
      exact Option.some.inj hfound
    obtain rfl : (Attribute.scalar "name" "Customer name" .string false).computed fullName = a := by
      have hfound : customer.attribute? "name" = some a := Entity.attribute?_eq_some.mpr ⟨ha, hname⟩
      exact Option.some.inj hfound
    refine ⟨rfl, rfl, fun fields hfields => ?_⟩
    -- A first and a last name would be members that no attribute stands for.
    have hfirst : (Record.document fields).core "firstname" = none := by
      rw [Record.core, Record.raw, if_neg (by decide), Record.fields, hfields _ (by decide)]
      rfl
    have hlast : (Record.document fields).core "lastname" = none := by
      rw [Record.core, Record.raw, if_neg (by decide), Record.fields, hfields _ (by decide)]
      rfl
    show fullName (.document fields) = .null
    simp [fullName, hfirst, hlast]
  · obtain ⟨hread, hcompute⟩ := isPlain_storefront e he a ha hname
    exact ⟨hread, hcompute, (hnames e he a ha).1, (hnames e he a ha).2⟩

end Storefront

def AskedField.Unfiltered (f : AskedField) : Prop := ∀ argument ∈ f.arguments, argument.1 ≠ "filter"

namespace Planning

variable {c : Catalog}

/-- Without a filter among the arguments there is none to compile. -/
theorem null_of_readArguments {a : Attribute} {arguments : Arguments} {scope : Scope}
    (hfree : ∀ argument ∈ arguments, argument.1 ≠ "filter")
    (h : readArguments a arguments = .ok scope) : scope.filter = .null := by
  -- On the arguments that are read so far: none of them has set a filter.
  refine Outcome.of_foldlM_along (I := fun _ (s : Scope) => s.filter = .null) ?_ rfl h
  rintro done ⟨name, value⟩ after s s' hsplit hs hread
  have hname : name ≠ "filter" := hfree (name, value) (hsplit ▸ List.mem_append_cons_self)
  rw [readArgument] at hread
  split at hread
  · split at hread
    · exact Except.ok.inj hread ▸ hs
    · obtain ⟨n, _, rfl⟩ := Outcome.map_eq_ok.mp hread
      split <;> exact hs
  · rw [if_neg fun h => hname h.1] at hread
    cases hread

/-- A field without filter asks for an attribute without one. -/
theorem Names.unfiltered {e : Entity} {f : AskedField} {a : AttributeRequest}
    {target : Option Entity} (hfree : f.Unfiltered) (h : Names c e f.name f.arguments a target) :
    a.filter = [] := by
  cases h with
  | scalar _ hscope _ _ hfilter =>
    rw [null_of_readArguments hfree hscope] at hfilter
    exact (Except.ok.inj hfilter).symm
  | entity _ hscope _ _ _ hfilter =>
    rw [null_of_readArguments hfree hscope, Filter.compile_null] at hfilter
    exact (Except.ok.inj hfilter).symm

/-- What is planned without filter arguments filters nothing. -/
theorem unfiltered_plan {type : String} {x : Expansion} (hx : x.All AskedField.Unfiltered)
    {q : Request} (h : plan c type x = .ok q) : q.Unfiltered := by
  obtain ⟨_, e, _, _, h⟩ := plan_eq_ok.mp h
  exact carries_planAll Names.unfiltered hx (Request.carries_new e) h

end Planning

/-- A step that makes a new record takes what was accepted for it. -/
theorem RootPlan.creates_of_stepOf {c : Catalog} {f : RootField} {arguments : Arguments}
    {pages : PageDefaults} {argument : String} {step : RootStep}
    (hf : f.action = .create argument) (h : (stepOf c f arguments pages).outcome = .ok step) :
    ∃ value e given, arguments.lookup argument = some value ∧ c.entity? f.entity = some e ∧
      (Input.validate c f.name e argument value).outcome = .ok given ∧ step = .create given := by
  rw [stepOf, hf] at h
  dsimp only at h
  rw [createStep] at h
  split at h
  · cases h
  · next value hvalue =>
    simp only [Tracked.outcome_bind, Tracked.outcome_mapError, Schema.outcome_inputType] at h
    obtain ⟨e, he, h⟩ := Outcome.bind_eq_ok.mp h
    obtain ⟨given, hgiven, h⟩ := Outcome.bind_eq_ok.mp h
    rw [given?, Option.filter_eq_some_iff] at hvalue
    exact ⟨value, e, given, hvalue.1, Catalog.require_eq_ok.mp (Outcome.mapError_eq_ok.mp he),
      hgiven, (Except.ok.inj h).symm⟩

def Store.GivesFreshId (s : Store) (rules : StoreRules) (e : Entity) (given : Members) : Prop :=
  ∀ id, idOf? (rules.assignIds e s.issued given).1 = some id →
    (s.collection e.name).byId.lookup id = none

/-- A creation shows the record that the source made. -/
theorem Service.resolve_created [RegexLibrary] {σ : Type} (service : Service)
    {source : RecordSource σ} {state after : σ} {plan : RootPlan} {given : Members} {r : Record}
    (hstep : plan.step = .create given)
    (hcreate : source.create state plan.field.entity given = (.ok r, after)) :
    (service.resolve source state plan).1.outcome =
        (Rendering.render service.catalog plan.request r).outcome ∧
      (service.resolve source state plan).2 = after := by
  constructor
  · simp only [resolve, hstep, hcreate]
    rfl
  · simp only [resolve, hstep, hcreate]

theorem Rendering.object_of_render [RegexLibrary] {c : Catalog} {q : Request} {r : Record}
    {j : Json} (h : (render c q r).outcome = .ok j) : ∃ members, j = .object members := by
  obtain ⟨e, typename, attributes⟩ := q
  rw [render] at h
  simp only [Tracked.outcome_bind] at h
  obtain ⟨_, _, h⟩ := Outcome.bind_eq_ok.mp h
  obtain ⟨_, _, h⟩ := Outcome.bind_eq_ok.mp h
  obtain ⟨_, _, h⟩ := Outcome.bind_eq_ok.mp h
  exact ⟨_, (Except.ok.inj h).symm⟩

structure RootPlan.Plain (c : Catalog) (pages : PageDefaults) (plan : RootPlan) : Prop where
  step : (stepOf c plan.field plan.arguments pages).outcome = .ok plan.step
  unfiltered : plan.request.Unfiltered

namespace PlannedItem

variable {c : Catalog} {roots : RootFields} {pages : PageDefaults} {kind : RootKind}

def Plain (c : Catalog) (pages : PageDefaults) : PlannedItem → Prop
  | .typename => True
  | .field plan => plan.Plain c pages

/-- Merging plain fields gives a plain one. -/
theorem plain_combine {x y m : PlannedItem} (hx : x.Plain c pages) (hy : y.Plain c pages)
    (h : combine kind x y = .ok m) : m.Plain c pages := by
  obtain ⟨rfl, _⟩ | ⟨existing, next, request, rfl, rfl, _, hmerge, rfl⟩ := combine_cases h
  · exact hx
  · exact ⟨hx.step, Request.carries_merge hx.unfiltered hy.unfiltered hmerge⟩

/-- Items that ask for nothing filtered are planned so. -/
theorem plain_planAll {items : List Item}
    (hfree : ∀ item ∈ items, (item.inner ()).All AskedField.Unfiltered)
    {planned : List PlannedItem} (h : (planAll c roots pages kind items).outcome = .ok planned) :
    ∀ x ∈ planned, x.Plain c pages := by
  refine of_planAll (fun hx hy _ => plain_combine hx hy) (fun item hitem x hx => ?_) h
  cases x with
  | typename => trivial
  | field plan =>
    obtain ⟨_, _, hstep, hrequest⟩ := ofItem_field hx
    exact ⟨hstep, Planning.unfiltered_plan (hfree item hitem) hrequest⟩

end PlannedItem

namespace Storefront

def rulesWith (ids : Nat → String) : StoreRules := ⟨catalog, [("Product", "sku")], ids⟩

/-- The record of an accepted order: what was given, with an id wherever there was none. -/
def placed (ids : Nat → String) (s : Store) (given : Members) : Members :=
  ((rulesWith ids).assignIds order s.issued given).1

/-- An accepted order whose id is a new one is put behind the orders that there are, and is found
under that id. -/
theorem create_order [RegexLibrary] {ids : Nat → String} {s : Store} {given : Members}
    (haccepted : Input.Accepted catalog order given)
    (hfresh : s.GivesFreshId (rulesWith ids) order given) :
    ∃ after n, (rulesWith ids).source.create s "Order" given =
        (.ok (.document (placed ids s given)), after) ∧
      idOf? (placed ids s given) = some (ids n) ∧
      (after.collection "Order").records =
        (s.collection "Order").records ++ [placed ids s given] ∧
      (rulesWith ids).source.fetchById after "Order" (ids n) =
        .ok (some (.document (placed ids s given))) := by
  have hid : order.attribute? "id" = some (.scalar "id" "Order id" .id false) := rfl
  have hmem := (Entity.attribute?_eq_some.mp hid).1
  have hentity : (rulesWith ids).catalog.entity? "Order" = some order := rfl
  obtain ⟨n, hlookup⟩ := StoreRules.lookup_assignIds_id (rulesWith ids) s.issued hmem rfl
    (haccepted.lookup_id hmem rfl)
  have hgiven : idOf? (placed ids s given) = some (ids n) := by
    rw [placed, idOf?, Record.id?, Record.raw, if_neg (by decide)]
    exact congrArg (Option.bind · Json.label?) hlookup
  -- Orders are found by their ids only.
  have hkey : ∀ text, (rulesWith ids).keyText? "Order" (placed ids s given) = some text →
      (s.collection "Order").byKey.lookup text = none := by
    rintro _ ⟨⟩
  have hfirst := Store.put_of_fresh hentity hgiven (hfresh _ hgiven) hkey
  -- The store takes the record, and finds it under the id that it was given.
  rcases Store.put_cases (rulesWith ids) s "Order" given with
    ⟨error, after, hput, _⟩ | ⟨e, after, he, hput, hreceives⟩
  · rw [hput] at hfirst
    cases hfirst
  · obtain rfl := Option.some.inj (he.symm.trans hentity)
    obtain ⟨id, htaken, htakes⟩ := hreceives.taken
    obtain rfl := Option.some.inj (htaken.symm.trans hgiven)
    refine ⟨after, n, ?_, hgiven, htakes.records, ?_⟩
    · rw [StoreRules.source]
      simp only [hput]
      rfl
    · change (after.fetchById (rulesWith ids) "Order" (ids n)).map _ = _
      rw [Store.fetchById_eq hentity, htakes.fetch?_byId]
      rfl

/-- An order that is placed is an accepted one. If its id is a new one, its record is put behind the
orders that there are and is what is found under that id, and it is shown unless the name of one of
its customers is shown, which no customer of a new order has. -/
theorem placeOrder_reads_back [RegexLibrary] {pages : PageDefaults} {items : List Item}
    {planned : List PlannedItem}
    (hplanned : (PlannedItem.planAll catalog roots pages .mutation items).outcome = .ok planned)
    (hfree : ∀ item ∈ items, (item.inner ()).All AskedField.Unfiltered) {plan : RootPlan}
    (hplan : .field plan ∈ planned)
    (hdata : ∀ value, plan.arguments.lookup "order" = some value → value.IsData) :
    ∃ value given, plan.arguments.lookup "order" = some value ∧
      (Input.validate catalog "placeOrder" order "order" value).outcome = .ok given ∧
      ∀ (ids : Nat → String) (s : Store), s.GivesFreshId (rulesWith ids) order given →
        ∃ shown after n, Service.resolve ⟨catalog, roots, pages⟩ (rulesWith ids).source s plan =
            (shown, after) ∧
          idOf? (placed ids s given) = some (ids n) ∧
          (after.collection "Order").records =
            (s.collection "Order").records ++ [placed ids s given] ∧
          (rulesWith ids).source.fetchById after "Order" (ids n) =
            .ok (some (.document (placed ids s given))) ∧
          (plan.request.Shows IsCustomerName given →
            shown.outcome = .error (.nullViolation "Customer" "name")) ∧
          (¬ plan.request.Shows IsCustomerName given →
            ∃ members, shown.outcome = .ok (.object members)) := by
  have hset : ∀ e ∈ catalog.entities, ∃ a ∈ e.attributes, Schema.isSettable a = true := by decide
  obtain ⟨coverage⟩ : Nonempty (Schema.Coverage catalog roots) :=
    Schema.coverage_of_closed Catalog.closed_storefront hset (by decide)
  have hanswerable : plan.Answerable catalog roots .mutation :=
    PlannedItem.answerable_planAll coverage (by decide) hplanned _ hplan
  have hplain : plan.Plain catalog pages := PlannedItem.plain_planAll hfree hplanned _ hplan
  -- There is no other field to ask for.
  have hfield : plan.field = ⟨"placeOrder", "Place a new order.", "Order", .create "order"⟩ :=
    List.mem_singleton.mp hanswerable.field
  have hentity : plan.request.entity = order := by
    have hentity := hanswerable.entity
    rw [hfield] at hentity
    exact (Option.some.inj hentity).symm
  obtain ⟨value, e, given, hvalue, he, hgiven, hstep⟩ :=
    RootPlan.creates_of_stepOf (by rw [hfield]) hplain.step
  rw [hfield] at he hgiven
  obtain rfl : order = e := Option.some.inj he
  have haccepted := Input.accepted_validate (hdata value hvalue) hgiven
  -- What was accepted is created, and what was created is shown.
  refine ⟨value, given, hvalue, hgiven, fun ids s hfresh => ?_⟩
  obtain ⟨after, n, hcreate, hid, hrecords, hfound⟩ := create_order haccepted hfresh
  have hname : plan.field.entity = "Order" := by rw [hfield]
  rw [← hname] at hcreate
  obtain ⟨hshown, hafter⟩ := Service.resolve_created ⟨catalog, roots, pages⟩ hstep hcreate
  have hclosed : (rulesWith ids).catalog.Closed := Catalog.closed_storefront
  obtain ⟨hfails, hends⟩ := Rendering.failsExactly_render hclosed lacksOnly_storefront
    hanswerable.fits hplain.unfiltered given s.issued (hentity ▸ haccepted)
  rw [hentity] at hfails hends
  refine ⟨_, after, n, Prod.ext rfl hafter, hid, hrecords, hfound, fun hshows => ?_,
    fun hshows => ?_⟩
  · obtain ⟨_, hfailed, e, a, ⟨he, ha⟩, rfl⟩ := hfails hshows
    rw [hshown, ← he, ← ha]
    exact hfailed
  · obtain ⟨j, hj⟩ := hends hshows
    obtain ⟨members, rfl⟩ := Rendering.object_of_render hj
    exact ⟨members, hshown.trans hj⟩

def emailOrder : Value :=
  .object [("shippingMethod", .string "post"), ("customer", .object [("email", .string "a@b")])]

def ofCustomer (name : String) : Expansion :=
  .field ⟨"customer", none, [], true⟩
    (fun _ => .field ⟨name, none, [], false⟩ (fun _ => .done) fun _ => .done) fun _ => .done

def placing (name : String) : Item :=
  ⟨⟨"placeOrder", none, [("order", emailOrder)], true⟩, fun _ => ofCustomer name⟩

theorem unfiltered_ofCustomer (name : String) : (ofCustomer name).All AskedField.Unfiltered :=
  .field nofun (.field nofun .done .done) .done

theorem isData_emailOrder : emailOrder.IsData :=
  .object (List.forall_mem_cons.mpr ⟨.string _, List.forall_mem_singleton.mpr
    (.object (List.forall_mem_singleton.mpr (.string _)))⟩)

/-- The email address of the customer is shown. -/
theorem placeOrder_reads_back_email : ∃ plan given shown after members, ∃ n : Nat,
    (PlannedItem.planAll catalog roots .standard .mutation [placing "email"]).outcome =
      .ok [.field plan] ∧
    (Input.validate catalog "placeOrder" order "order" emailOrder).outcome = .ok given ∧
    Service.resolve ⟨catalog, roots, .standard⟩ (rulesWith toString).source .empty plan =
      (shown, after) ∧
    idOf? (placed toString .empty given) = some (toString n) ∧
    (after.collection "Order").records = [placed toString .empty given] ∧
    (rulesWith toString).source.fetchById after "Order" (toString n) =
      .ok (some (.document (placed toString .empty given))) ∧
    shown.outcome = .ok (.object members) := by
  obtain ⟨plan, hplanned, harguments, hattributes⟩ : ∃ plan,
      (PlannedItem.planAll catalog roots .standard .mutation [placing "email"]).outcome =
        .ok [.field plan] ∧ plan.arguments = [("order", emailOrder)] ∧
      plan.request = .mk order false [.mk (.entity "customer" "Customer who placed the order"
        "Customer" false true) none [] (some (.mk customer false
          [.mk (.scalar "email" "Customer email address" .string false) none [] none]))] :=
    ⟨_, rfl, rfl, rfl⟩
  have hdata : ∀ value, plan.arguments.lookup "order" = some value → value.IsData := by
    rw [harguments]
    rintro _ ⟨⟩
    exact isData_emailOrder
  obtain ⟨value, given, hvalue, hgiven, hresolve⟩ := placeOrder_reads_back hplanned
    (List.forall_mem_singleton.mpr (unfiltered_ofCustomer _)) List.mem_cons_self hdata
  rw [harguments] at hvalue
  obtain rfl : emailOrder = value := Option.some.inj hvalue
  obtain ⟨shown, after, n, hresolved, hid, hrecords, hfound, _, hshown⟩ :=
    hresolve toString .empty fun _ _ => rfl
  -- Neither the customer nor the email address is the name of a customer.
  have hother : ¬ plan.request.Shows IsCustomerName given := by
    rw [hattributes]
    intro hshows
    obtain ⟨a, ha, hcustomer⟩ := Request.shows_iff.mp hshows
    obtain rfl := List.mem_singleton.mp ha
    rcases hcustomer with hkind | ⟨n, fields, ⟨⟩, _, hshows⟩
    · exact absurd hkind.1 (by decide)
    · obtain ⟨b, hb, hemail⟩ := Request.shows_iff.mp hshows
      obtain rfl := List.mem_singleton.mp hb
      rcases hemail with hkind | ⟨n, fields, ⟨⟩, _⟩
      exact absurd hkind.2 (by decide)
  obtain ⟨members, hmembers⟩ := hshown hother
  exact ⟨plan, given, shown, after, members, n, hplanned, hgiven, hresolved, hid, hrecords, hfound,
    hmembers⟩

/-- The name of the customer is refused, though the order is stored. -/
theorem not_read_back_name : ∃ plan given after,
    (ofCustomer "name").All AskedField.Unfiltered ∧
    (PlannedItem.planAll catalog roots .standard .mutation [placing "name"]).outcome =
      .ok [.field plan] ∧
    (Input.validate catalog "placeOrder" order "order" emailOrder).outcome = .ok given ∧
    (Service.resolve ⟨catalog, roots, .standard⟩ (rulesWith toString).source .empty plan).2 =
      after ∧
    (rulesWith toString).source.fetchById after "Order" "1" =
      .ok (some (.document (placed toString .empty given))) ∧
    (Service.resolve ⟨catalog, roots, .standard⟩ (rulesWith toString).source .empty
      plan).1.outcome = .error (.nullViolation "Customer" "name") :=
  ⟨_, _, _, unfiltered_ofCustomer _, rfl, rfl, rfl, rfl, rfl⟩

end Storefront

end EntityGraph
