import EntityGraph.Proofs.Execution.Planned
import EntityGraph.Proofs.Omission.Inputs
import EntityGraph.Proofs.Omission.Requests

namespace EntityGraph

variable {service : Service} {kind : RootKind}

namespace RootPlan

variable {f : RootField} {arguments arguments' : Arguments}

/-- Null is not given. -/
theorem given?_eq (arguments : Arguments) (name : String) : given? arguments name =
    if ((arguments.lookup name).getD .null).isNull then none
    else some ((arguments.lookup name).getD .null) := by
  rw [given?]
  cases arguments.lookup name with
  | none => rfl
  | some v =>
    rw [Option.filter_some, Option.getD_some]
    cases v.isNull <;> rfl

/-- An argument with nothing known inside stays as it is, be it null or not there. -/
theorem lookup_omits (h : OmitsFields service (.rootField f) arguments arguments')
    (hkeys : (arguments.map Prod.fst).Nodup) {name : String}
    (hplace : (Place.rootField f).inside service name = .elsewhere) :
    (arguments'.lookup name).getD .null = (arguments.lookup name).getD .null := by
  have hv := h.omits_lookup hkeys name
  rw [hplace] at hv
  exact hv.eq_of_elsewhere

theorem given?_omits (h : OmitsFields service (.rootField f) arguments arguments')
    (hkeys : (arguments.map Prod.fst).Nodup) {name : String}
    (hplace : (Place.rootField f).inside service name = .elsewhere) :
    given? arguments' name = given? arguments name := by
  rw [given?_eq, given?_eq, lookup_omits h hkeys hplace]

/-- A look-up by id or key. -/
theorem lookupStep_omits (h : OmitsFields service (.rootField f) arguments arguments')
    (hkeys : (arguments.map Prod.fst).Nodup) {key : Option String}
    (haction : f.action = .lookup key) :
    lookupStep f.name arguments' key = lookupStep f.name arguments key := by
  have hgiven : ∀ name, given? arguments' name = given? arguments name := fun name =>
    given?_omits h hkeys (by rw [Place.inside, haction])
  have hkeyed : readKeyed f.name arguments' key = readKeyed f.name arguments key := by
    cases key with
    | none => rfl
    | some key => rw [readKeyed, readKeyed, hgiven]
  rw [lookupStep, lookupStep, hgiven, hkeyed]

/-- A search, with its filter and its page. -/
theorem searchStep_omits (h : OmitsFields service (.rootField f) arguments arguments')
    (hkeys : (arguments.map Prod.fst).Nodup) (haction : f.action = .search) (pages : PageDefaults) :
    searchStep service.catalog f arguments' pages =
      searchStep service.catalog f arguments pages := by
  have hwindow : ∀ name, name ≠ "filter" →
      (arguments'.lookup name).getD .null = (arguments.lookup name).getD .null := by
    intro name hname
    refine lookup_omits h hkeys ?_
    rw [Place.inside, haction]
    exact if_neg hname
  -- The page is read from other arguments, where nothing is left out.
  have hpage : readPage f.name arguments' pages = readPage f.name arguments pages := by
    rw [readPage, readPage, hwindow "start" (by decide), hwindow "limit" (by decide)]
  rw [searchStep, searchStep]
  refine Outcome.bind_congr fun e he => ?_
  have hfound : service.catalog.entity? f.entity = some e :=
    Catalog.require_eq_ok.mp (Outcome.mapError_eq_ok.mp he)
  have hfilter := h.omits_lookup hkeys "filter"
  have hplace : (Place.rootField f).inside service "filter" = .filter e := by
    rw [Place.inside, haction]
    show (if "filter" = "filter" then Place.ofEntity service .filter f.entity else .elsewhere) = _
    rw [if_pos rfl, Place.ofEntity, hfound]
  rw [hplace] at hfilter
  rw [Filter.compile_omits hfilter, hpage]

/-- A creation, with its input. -/
theorem createStep_omits (h : OmitsFields service (.rootField f) arguments arguments')
    (hkeys : (arguments.map Prod.fst).Nodup) {argument : String}
    (haction : f.action = .create argument) :
    createStep service.catalog f arguments' argument =
      createStep service.catalog f arguments argument := by
  have hvalue := h.omits_lookup hkeys argument
  rw [createStep, createStep, given?_eq, given?_eq, hvalue.isNull_eq]
  cases ((arguments.lookup argument).getD .null).isNull with
  | true => rfl
  | false =>
    rw [if_neg Bool.false_ne_true, if_neg Bool.false_ne_true]
    dsimp only
    refine Tracked.bind_congr fun e he => ?_
    rw [Tracked.outcome_mapError, Schema.outcome_inputType] at he
    have hfound : service.catalog.entity? f.entity = some e :=
      Catalog.require_eq_ok.mp (Outcome.mapError_eq_ok.mp he)
    -- The input is read at the entity of the field.
    have hplace : (Place.rootField f).inside service argument = .input e := by
      rw [Place.inside, haction]
      show (if argument = argument then Place.ofEntity service .input f.entity else .elsewhere) = _
      rw [if_pos rfl, Place.ofEntity, hfound]
    rw [hplace] at hvalue
    rw [Input.validate_omits hvalue]

theorem stepOf_omits (h : OmitsFields service (.rootField f) arguments arguments')
    (hkeys : (arguments.map Prod.fst).Nodup) :
    stepOf service.catalog f arguments' service.pages =
      stepOf service.catalog f arguments service.pages := by
  rw [stepOf, stepOf]
  cases haction : f.action with
  | lookup key => dsimp only; rw [lookupStep_omits h hkeys haction]
  | search => dsimp only; rw [searchStep_omits h hkeys haction]
  | create argument => exact createStep_omits h hkeys haction

/-- Names of arguments are checked for what is there, and what is left out was known. -/
theorem checkArguments_omits (h : OmitsFields service (.rootField f) arguments arguments') :
    checkArguments f arguments' service.pages = checkArguments f arguments service.pages := by
  have hknown : ∀ name, (Place.rootField f).knows service name = true →
      ((f.parameters service.pages).all fun p => p.name != name) = false := by
    intro name hname
    obtain ⟨p, hp, heq⟩ := List.any_eq_true.mp hname
    exact List.all_eq_false.mpr ⟨p, hp, by simpa using heq⟩
  rw [checkArguments, checkArguments]
  rcases h.find?_unknown hknown with ⟨hnone, hnone'⟩ | ⟨_, _, _, hsome, hsome'⟩
  · rw [hnone, hnone']
  · rw [hsome, hsome']

end RootPlan

structure ItemOmits (service : Service) (kind : RootKind) (item item' : Item) : Prop where
  head : AskedOmits service ((FieldScope.root kind).place service item.head.name) item.head item'.head
  inner : ExpansionOmits service ((FieldScope.root kind).below service item.head.name)
    (item.inner ()) (item'.inner ())

/-- What is asked for at a root has its items, or its fault, without some of the nulls too. -/
theorem ExpansionOmits.items {x x' : Expansion}
    (h : ExpansionOmits service (.root kind) x x') :
    (∃ err, x.items = .error err ∧ x'.items = .error err) ∨
      ∃ items items', x.items = .ok items ∧ x'.items = .ok items' ∧
        List.Forall₂ (ItemOmits service kind) items items' := by
  induction x generalizing x' with
  | done => cases h; exact Or.inr ⟨[], [], rfl, rfl, .nil⟩
  | fault err => cases h; exact Or.inl ⟨err, rfl, rfl⟩
  | field head inner rest _ ih =>
    cases h with
    | field hhead hinner hrest =>
      rw [Expansion.items, Expansion.items]
      rcases ih () hrest with ⟨err, herr, herr'⟩ | ⟨items, items', hitems, hitems', hall⟩
      · rw [herr, herr']
        exact Or.inl ⟨err, rfl, rfl⟩
      · rw [hitems, hitems']
        exact Or.inr ⟨_, _, rfl, rfl, .cons ⟨hhead, hinner⟩ hall⟩

namespace PlannedItem

/-- A planned item without the arguments it was planned from, which have no effect any more. -/
def withoutArguments : PlannedItem → PlannedItem
  | .typename => .typename
  | .field plan => .field { plan with arguments := [] }

@[simp] theorem name_withoutArguments (x : PlannedItem) : x.withoutArguments.name = x.name := by
  cases x <;> rfl

theorem names_withoutArguments (planned : List PlannedItem) :
    (planned.map withoutArguments).map name = planned.map name := by
  rw [List.map_map]
  exact List.map_congr_left fun x _ => name_withoutArguments x

/-- The same request is planned below a root field. -/
theorem plan_omits {f : RootField} (hf : service.roots.get kind f.name = .ok f)
    {x x' : Expansion}
    (h : ExpansionOmits service ((FieldScope.root kind).below service f.name) x x') :
    Planning.plan service.catalog f.returnType.text x' =
      Planning.plan service.catalog f.returnType.text x := by
  rw [Planning.plan, Planning.plan]
  refine Outcome.bind_congr fun type htype => Outcome.bind_congr fun e he => ?_
  have hparse := Outcome.mapError_eq_ok.mp htype
  have hfound := Catalog.require_eq_ok.mp (Outcome.mapError_eq_ok.mp he)
  refine Planning.planAll_omits (e := e) ?_ rfl
  simpa only [FieldScope.below, hf, hparse, FieldScope.ofName, hfound] using h

/-- An item is planned to the same up to its arguments. -/
theorem ofItem_omits {item item' : Item} (h : ItemOmits service kind item item') :
    withoutArguments <$> ofItem service.catalog service.roots service.pages kind item' =
      withoutArguments <$> ofItem service.catalog service.roots service.pages kind item := by
  obtain ⟨⟨name, label, arguments, selected⟩, inner⟩ := item
  obtain ⟨⟨name', label', arguments', selected'⟩, inner'⟩ := item'
  obtain ⟨⟨rfl, rfl, rfl, hkeys, harguments⟩, hinner⟩ := h
  rw [ofItem, ofItem, map_bind, map_bind]
  refine bind_congr fun _ => ?_
  split
  · rfl
  · rw [map_bind, map_bind]
    refine Tracked.bind_congr fun f hf => ?_
    have hget : service.roots.get kind name' = .ok f := Outcome.mapError_eq_ok.mp hf
    obtain rfl := RootFields.name_of_get hget
    have harguments : OmitsFields service (.rootField f) arguments arguments' := by
      rwa [FieldScope.place, hget] at harguments
    rw [RootPlan.checkArguments_omits harguments, RootPlan.stepOf_omits harguments hkeys,
      plan_omits hget hinner]
    simp only [map_bind, map_pure, withoutArguments]

def addNew (next : PlannedItem) (planned : List PlannedItem) : List PlannedItem :=
  if next.name ∈ planned.map name then planned else planned ++ [next]

/-- An item with a name of its own, or one that asks for the type's name, is added without being
compared with another one. -/
theorem addTo_eq_addNew {next : PlannedItem} {planned : List PlannedItem}
    (h : next = .typename ∨ next.name ∉ planned.map name) :
    next.addTo kind planned = .ok (next.addNew planned) := by
  induction planned with
  | nil => rfl
  | cons existing rest ih =>
    rw [addTo]
    by_cases hname : existing.name = next.name
    · -- Only the name of the type can be planned already.
      have hmem : next.name ∈ (existing :: rest).map name := hname ▸ List.mem_cons_self
      obtain rfl : next = .typename := h.resolve_right fun hnot => hnot hmem
      rw [if_pos hname, addNew, if_pos hmem]
      cases existing <;> rfl
    · have hmem : next.name ∈ (existing :: rest).map name ↔ next.name ∈ rest.map name := by
        rw [List.map_cons, List.mem_cons]
        exact or_iff_right fun heq => hname heq.symm
      rw [if_neg hname, ih (h.imp_right fun hnot hrest => hnot (hmem.mpr hrest)), addNew, addNew]
      simp only [hmem]
      split <;> rfl

/-- Adding a planned field does not look at the arguments of the others. -/
theorem map_addNew (next : PlannedItem) (planned : List PlannedItem) :
    (next.addNew planned).map withoutArguments =
      next.withoutArguments.addNew (planned.map withoutArguments) := by
  rw [addNew, addNew, names_withoutArguments, name_withoutArguments]
  split
  · rfl
  · rw [List.map_append]
    rfl

theorem names_addNew {next : PlannedItem} {planned : List PlannedItem} {key : String}
    (h : key ∈ (next.addNew planned).map name) : key = next.name ∨ key ∈ planned.map name := by
  rw [addNew] at h
  split at h
  · exact Or.inr h
  · rw [List.map_append, List.mem_append] at h
    exact h.symm.imp_left List.mem_singleton.mp

def fieldNames (items : List Item) : List String :=
  (items.map (·.head.name)).filter (· ≠ typenameField)

theorem fieldNames_cons (item : Item) (items : List Item) : fieldNames (item :: items) =
    if item.head.name = typenameField then fieldNames items
    else item.head.name :: fieldNames items := by
  rw [fieldNames, List.map_cons, List.filter_cons]
  by_cases hitem : item.head.name = typenameField <;> simp [hitem, fieldNames]

structure Distinct (items : List Item) (planned : List PlannedItem) : Prop where
  nodup : (fieldNames items).Nodup
  fresh : ∀ key ∈ fieldNames items, key ∉ planned.map name

/-- Once the first item is planned, the others still have names of their own. -/
theorem Distinct.next {item : Item} {items : List Item} {planned : List PlannedItem}
    (h : Distinct (item :: items) planned) {x : PlannedItem}
    (hx : (ofItem service.catalog service.roots service.pages kind item).outcome = .ok x) :
    (x = .typename ∨ x.name ∉ planned.map name) ∧ Distinct items (x.addNew planned) := by
  obtain ⟨hnodup, hfresh⟩ := h
  have hname : x.name = item.head.name := name_ofItem hx
  rw [fieldNames_cons] at hnodup hfresh
  rcases ofItem_cases hx with ⟨hitem, rfl⟩ | ⟨hitem, _⟩
  · rw [if_pos hitem] at hnodup hfresh
    refine ⟨Or.inl rfl, hnodup, fun key hkey hmem => ?_⟩
    rcases names_addNew hmem with rfl | hmem
    · -- The name of the type is not among the names of fields.
      simp [fieldNames, name] at hkey
    · exact hfresh key hkey hmem
  · rw [if_neg hitem] at hnodup hfresh
    rw [List.nodup_cons] at hnodup
    rw [List.forall_mem_cons] at hfresh
    refine ⟨Or.inr (hname ▸ hfresh.1), hnodup.2, fun key hkey hmem => ?_⟩
    rcases names_addNew hmem with rfl | hmem
    · exact hnodup.1 (hname ▸ hkey)
    · exact hfresh.2 key hkey hmem

/-- Items with names of their own are planned to the same up to their arguments, after planned ones
that are the same up to theirs. -/
theorem foldlM_omits {items items' : List Item}
    (h : List.Forall₂ (ItemOmits service kind) items items') {planned planned' : List PlannedItem}
    (hplanned : planned'.map withoutArguments = planned.map withoutArguments)
    (hdistinct : Distinct items planned) :
    let more := fun (planned : List PlannedItem) (item : Item) => do
      let next ← ofItem service.catalog service.roots service.pages kind item
      Tracked.lift (next.addTo kind planned)
    List.map withoutArguments <$> items'.foldlM more planned' =
      List.map withoutArguments <$> items.foldlM more planned := by
  intro more
  -- Along both rows the planned items stay the same up to arguments, and those to come stay
  -- distinct from them, so that no two are ever compared with the arguments that they have.
  induction h generalizing planned planned' with
  | nil =>
    rw [List.foldlM_nil, List.foldlM_nil, map_pure, map_pure, hplanned]
  | @cons item item' items items' hitem _ ih =>
    rw [List.foldlM_cons, List.foldlM_cons, map_bind, map_bind]
    simp only [more, bind_assoc]
    refine Tracked.bind_congr_of_map (ofItem_omits hitem) fun x x' hx hx' hsame => ?_
    obtain ⟨hnew, hrest⟩ := hdistinct.next hx
    have hnew' : x' = .typename ∨ x'.name ∉ planned'.map name := by
      rw [← name_withoutArguments x', hsame, name_withoutArguments, ← names_withoutArguments planned',
        hplanned, names_withoutArguments]
      refine hnew.imp_left ?_
      rintro rfl
      cases x' with
      | typename => rfl
      | field plan => cases hsame
    have hnext : (x'.addNew planned').map withoutArguments =
        (x.addNew planned).map withoutArguments := by
      rw [map_addNew, map_addNew, hsame, hplanned]
    rw [addTo_eq_addNew hnew, addTo_eq_addNew hnew']
    exact ih hnext hrest

/-- Items with names of their own are planned to the same up to their arguments. -/
theorem planAll_omits {items items' : List Item}
    (h : List.Forall₂ (ItemOmits service kind) items items') (hnames : (fieldNames items).Nodup) :
    List.map withoutArguments <$>
        planAll service.catalog service.roots service.pages kind items' =
      List.map withoutArguments <$>
        planAll service.catalog service.roots service.pages kind items :=
  foldlM_omits h rfl ⟨hnames, fun _ _ => List.not_mem_nil⟩

end PlannedItem

end EntityGraph
