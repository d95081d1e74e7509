import EntityGraph.Json.Writer
import EntityGraph.Proofs.Document.Keeping
import EntityGraph.Proofs.Execution.Effects
import EntityGraph.Regex.Engine

namespace EntityGraph

/-- Of the root fields only searches can not be null. -/
theorem RootField.nonNull_returnType (f : RootField) :
    f.returnType.nonNull = true ↔ f.action = .search := by
  rw [RootField.returnType]
  cases f.action <;> simp [TypeString.nonNullListOf, TypeString.named]

namespace Service

variable {σ : Type} {service : Service} {source : RecordSource σ} {kind : RootKind}

def answer [RegexLibrary] (service : Service) (source : RecordSource σ) (kind : RootKind)
    (state : σ) :
    PlannedItem → Except Error Json
  | .typename => .ok (.string kind.typeName)
  | .field plan => (service.resolve source state plan).1.outcome

def shown : Except Error Json → Json
  | .ok value => value
  | .error _ => .null

def fault? (name : String) : Except Error Json → Option ResponseError
  | .ok _ => none
  | .error e => some ⟨e, some name⟩

def isRequired : PlannedItem → Bool
  | .typename => false
  | .field plan => plan.field.returnType.nonNull

/-- Resolving an item that makes no record adds its value and its error, and leaves the state. -/
theorem step_eq [RegexLibrary] (service : Service) (source : RecordSource σ) (kind : RootKind)
    {item : PlannedItem} (hitem : item.creation? = none) (done : Resolution σ) :
    let next := Resolution.step service source kind done item
    let value := service.answer source kind done.state item
    next.members = done.members ++ [(item.name, shown value)] ∧
      next.errors = done.errors ++ (fault? item.name value).toList ∧
      next.refused = (done.refused || (fault? item.name value).isSome && isRequired item) ∧
      next.state = done.state := by
  intro next value
  cases item with
  | typename => exact ⟨rfl, (List.append_nil _).symm, (Bool.or_false _).symm, rfl⟩
  | field plan =>
    -- Only creations change the state, and there is none.
    have hstate : (service.resolve source done.state plan).2 = done.state := by
      obtain ⟨f, arguments, step, request⟩ := plan
      cases step with
      | create fields => cases hitem
      | _ => rfl
    have hanswer : (service.resolve source done.state plan).1.outcome = value := rfl
    simp only [next, Resolution.step, hstate]
    split
    · next found hfound =>
      obtain hvalue : value = .ok found := hanswer.symm.trans hfound
      rw [hvalue]
      exact ⟨rfl, (List.append_nil _).symm, (Bool.or_false _).symm, rfl⟩
    · next e he =>
      obtain hvalue : value = .error e := hanswer.symm.trans he
      rw [hvalue]
      exact ⟨rfl, rfl, rfl, rfl⟩

/-- What one step adds, all of them add in turn. -/
theorem foldl_step_eq [RegexLibrary] (service : Service) (source : RecordSource σ) (kind : RootKind)
    {planned : List PlannedItem} (h : ∀ item ∈ planned, item.creation? = none)
    (done : Resolution σ) :
    let after := planned.foldl (Resolution.step service source kind) done
    let value := service.answer source kind done.state
    after.members = done.members ++ planned.map (fun item => (item.name, shown (value item))) ∧
      after.errors = done.errors ++ planned.filterMap (fun item => fault? item.name (value item)) ∧
      after.refused = (done.refused || planned.any fun item =>
        (fault? item.name (value item)).isSome && isRequired item) ∧
      after.state = done.state := by
  induction planned generalizing done with
  | nil => exact ⟨(List.append_nil _).symm, (List.append_nil _).symm, (Bool.or_false _).symm, rfl⟩
  | cons item planned ih =>
    rw [List.forall_mem_cons] at h
    obtain ⟨hmembers, herrors, hrefused, hstate⟩ :=
      step_eq service source kind h.1 done
    obtain ⟨hmembers', herrors', hrefused', hstate'⟩ :=
      ih h.2 (Resolution.step service source kind done item)
    -- The state stays, so that the later answers are those of the first state.
    intro after value
    refine ⟨hmembers'.trans ?_, herrors'.trans ?_, hrefused'.trans ?_, hstate'.trans hstate⟩
    · rw [hmembers, hstate, List.append_assoc]
      rfl
    · rw [herrors, hstate, List.append_assoc, List.filterMap_cons]
      cases fault? item.name (value item) <;> rfl
    · rw [hrefused, hstate, Bool.or_assoc]
      rfl

def prepareOperation (request : OperationRequest) (document : Document) (operation : Operation) :
    Except Error Prepared := do
  let kind ← rootOf operation.type
  let asked := fun r : Reading => (r.expandRoot document operation.selections).items
  let items ← asked (.ofValues (request.values ++ operation.defaults))
  if ← asksForSchema items then
    return .schema kind do
      checkName request operation
      asked (.ofGiven request.values operation.defaults)
  else return .records kind items

/-- Reading, choosing and preparing, each after the other. -/
theorem prepare_eq (request : OperationRequest) : prepare request =
    Document.read request.text >>= fun document =>
      document.select request.operation >>= prepareOperation request document := rfl

def executeOperation [RegexLibrary] (service : Service) (source : RecordSource σ) (state : σ)
    (request : OperationRequest) (document : Document) (operation : Operation) : Execution σ :=
  match prepareOperation request document operation with
  | .ok prepared => service.run source state prepared
  | .error e => ⟨.failed e, state, []⟩

/-- Items that do not ask about the schema do not when some of them are left out. -/
theorem asksForSchema_filter {items : List Item} (h : asksForSchema items = .ok false)
    (keep : Item → Bool) : asksForSchema (items.filter keep) = .ok false := by
  have hnone : ∀ name ∈ items.map (·.head.name), introspectionFields.contains name ≠ true := by
    intro name hname hcontains
    have hany : (items.map (·.head.name)).any introspectionFields.contains = true :=
      List.any_eq_true.mpr ⟨name, hname, hcontains⟩
    rw [asksForSchema, hany] at h
    simp only [Bool.not_true, Bool.false_eq_true, if_false] at h
    split at h <;> cases h
  have hkept : ((items.filter keep).map (·.head.name)).any introspectionFields.contains = false := by
    rw [List.any_eq_false]
    intro name hname
    exact hnone name ((List.filter_sublist.map _).subset hname)
  rw [asksForSchema, hkept]
  rfl

/-- An operation with the root fields of one name only asks for the items of that name. -/
theorem prepareOperation_keepField {request : OperationRequest} {document : Document}
    {operation : Operation} {items : List Item}
    (h : prepareOperation request document operation = .ok (.records kind items)) (name : String) :
    prepareOperation request document (operation.keepField document name) =
      .ok (.records kind (items.filter (·.head.name = name))) := by
  obtain ⟨root, hroot, h⟩ := Outcome.bind_eq_ok.mp h
  obtain ⟨asked, hasked, h⟩ := Outcome.bind_eq_ok.mp h
  obtain ⟨asks, hasks, h⟩ := Outcome.bind_eq_ok.mp h
  cases asks with
  | true => cases h
  | false =>
    cases h
    refine Outcome.bind_eq_ok.mpr ⟨_, hroot, Outcome.bind_eq_ok.mpr ⟨_,
      Reading.items_keepField hasked name, Outcome.bind_eq_ok.mpr ⟨false, ?_, rfl⟩⟩⟩
    exact asksForSchema_filter hasks _

theorem executeOperation_of_prepare [RegexLibrary] {request : OperationRequest}
    {document : Document} {operation : Operation} {prepared : Prepared} (state : σ)
    (h : prepareOperation request document operation = .ok prepared) :
    service.executeOperation source state request document operation =
      service.run source state prepared := by
  rw [executeOperation, h]

/-- The response of a planned operation is that of its fields. -/
theorem response_of_planAll [RegexLibrary] (state : σ) {items : List Item}
    {planned : List PlannedItem}
    (h : (PlannedItem.planAll service.catalog service.roots service.pages kind items).outcome =
      .ok planned) :
    (service.run source state (.records kind items)).response =
      (service.resolveAll source kind state planned).response := by
  rw [run]
  simp only [h]

/-- A planned field is the one registered under its name. -/
theorem get_of_planAll {items : List Item} {planned : List PlannedItem}
    (h : (PlannedItem.planAll service.catalog service.roots service.pages kind items).outcome =
      .ok planned) {plan : RootPlan} (hplan : .field plan ∈ planned) :
    service.roots.get kind plan.field.name = .ok plan.field := by
  obtain ⟨item, _, own, hown, heffect⟩ :=
    Outcome.exists_mem_left (PlannedItem.plansAs_firsts h) hplan
  cases own with
  | typename => cases heffect
  | field own =>
    obtain ⟨hget, _⟩ := PlannedItem.ofItem_field hown
    have hname : item.head.name = own.field.name := (PlannedItem.name_ofItem hown).symm
    have hfield : own.field = plan.field := congrArg Prod.fst (Option.some.inj heffect)
    rw [hname, hfield] at hget
    exact hget

/-- The response to planned items that make no records, put together from their answers. -/
theorem run_of_planAll [RegexLibrary] (source : RecordSource σ) {items : List Item}
    {planned : List PlannedItem}
    (h : (PlannedItem.planAll service.catalog service.roots service.pages kind items).outcome =
      .ok planned) (hnone : ∀ x ∈ planned, x.creation? = none) (state : σ) :
    let done := service.run source state (.records kind items)
    let value := service.answer source kind state
    done.response.data =
        (if planned.any fun x => (fault? x.name (value x)).isSome && isRequired x then .null
        else .object (planned.map fun x => (x.name, shown (value x)))) ∧
      done.response.errors = planned.filterMap (fun x => fault? x.name (value x)) ∧
      done.state = state := by
  intro done value
  -- All fields are answered from the state at the start.
  obtain ⟨hmembers, herrors, hrefused, hstate⟩ :=
    foldl_step_eq service source kind hnone (.start state)
  have hresponse : done.response = (service.resolveAll source kind state planned).response :=
    response_of_planAll state h
  have hdone : done.state = (service.resolveAll source kind state planned).state :=
    state_of_planAll source state h
  refine ⟨?_, ?_, hdone.trans hstate⟩
  · rw [hresponse, Resolution.response, resolveAll, hmembers, hrefused]
    rfl
  · rw [hresponse, Resolution.response, resolveAll, herrors]
    rfl

def answerTo [RegexLibrary] (service : Service) (source : RecordSource σ) (kind : RootKind)
    (state : σ) (planned : List PlannedItem) (name : String) : Except Error Json :=
  match Keyed.find? PlannedItem.name name planned with
  | some x => service.answer source kind state x
  | none => .ok .null

def IsSearch (service : Service) (kind : RootKind) (name : String) : Prop :=
  ∃ f, service.roots.get kind name = .ok f ∧ f.returnType.nonNull = true ∧ f.action = .search

/-- A planned item with an answer that makes all data null is a search that fails. -/
theorem refuses_iff [RegexLibrary] {items : List Item} {planned : List PlannedItem}
    (h : (PlannedItem.planAll service.catalog service.roots service.pages kind items).outcome =
      .ok planned) (state : σ) {x : PlannedItem} (hx : x ∈ planned) :
    ((fault? x.name (service.answer source kind state x)).isSome && isRequired x) = true ↔
      (∃ e, service.answer source kind state x = .error e) ∧ service.IsSearch kind x.name := by
  have hfault : (fault? x.name (service.answer source kind state x)).isSome = true ↔
      ∃ e, service.answer source kind state x = .error e := by
    cases service.answer source kind state x <;> simp [fault?]
  rw [Bool.and_eq_true_iff, hfault]
  refine and_congr_right fun ⟨e, he⟩ => ?_
  cases x with
  | typename => cases he
  | field plan =>
    have hget := get_of_planAll h hx
    constructor
    · intro hrequired
      exact ⟨plan.field, hget, hrequired, plan.field.nonNull_returnType.mp hrequired⟩
    · rintro ⟨f, hf, hrequired, _⟩
      obtain rfl := Except.ok.inj (hget.symm.trans hf)
      exact hrequired

section ByName

variable {planned : List PlannedItem} (hnodup : (planned.map PlannedItem.name).Nodup)

include hnodup

/-- The answer under a name is the answer of the field that has it. -/
theorem answerTo_of_mem [RegexLibrary] (state : σ) {x : PlannedItem} (hx : x ∈ planned) :
    service.answerTo source kind state planned x.name = service.answer source kind state x := by
  rw [answerTo, (Keyed.find?_eq_some hnodup).mpr ⟨hx, rfl⟩]

/-- What is gathered from the answers depends on the names and on the answer to each. -/
theorem map_answerTo [RegexLibrary] {β : Type} (f : String → Except Error Json → β) (state : σ) :
    planned.map (fun x => f x.name (service.answer source kind state x)) =
      (planned.map PlannedItem.name).map fun name =>
        f name (service.answerTo source kind state planned name) := by
  rw [List.map_map]
  refine List.map_congr_left fun x hx => ?_
  rw [Function.comp_apply, answerTo_of_mem hnodup state hx]

theorem filterMap_answerTo [RegexLibrary] {β : Type} (f : String → Except Error Json → Option β)
    (state : σ) :
    planned.filterMap (fun x => f x.name (service.answer source kind state x)) =
      (planned.map PlannedItem.name).filterMap fun name =>
        f name (service.answerTo source kind state planned name) := by
  rw [List.filterMap_map]
  refine List.filterMap_congr fun x hx => ?_
  rw [Function.comp_apply, answerTo_of_mem hnodup state hx]

/-- Planned items make all data null exactly if one of them is a search that fails. -/
theorem any_refuses_iff [RegexLibrary] (source : RecordSource σ) {items : List Item}
    (hplan : (PlannedItem.planAll service.catalog service.roots service.pages kind items).outcome =
      .ok planned) (state : σ) :
    (planned.any fun x => (fault? x.name (service.answer source kind state x)).isSome &&
        isRequired x) = true ↔
      ∃ name ∈ planned.map PlannedItem.name,
        (∃ e, service.answerTo source kind state planned name = .error e) ∧
          service.IsSearch kind name := by
  rw [List.any_eq_true]
  constructor
  · rintro ⟨x, hx, hrefuses⟩
    refine ⟨x.name, List.mem_map_of_mem hx, ?_⟩
    rw [answerTo_of_mem hnodup state hx]
    exact (refuses_iff hplan state hx).mp hrefuses
  · rintro ⟨_, hname, hfails⟩
    obtain ⟨x, hx, rfl⟩ := List.mem_map.mp hname
    rw [answerTo_of_mem hnodup state hx] at hfails
    exact ⟨x, hx, (refuses_iff hplan state hx).mpr hfails⟩

/-- With the selections of one planned item only, the response has its answer and nothing else. -/
theorem alone_of_planAll [RegexLibrary] {request : OperationRequest} {document : Document}
    {operation : Operation} {items : List Item}
    (hoperation : prepareOperation request document operation = .ok (.records kind items))
    (hplan : (PlannedItem.planAll service.catalog service.roots service.pages kind items).outcome =
      .ok planned) (hnone : ∀ x ∈ planned, x.creation? = none) (state : σ) {x : PlannedItem}
    (hx : x ∈ planned) :
    let alone := service.executeOperation source state request document
      (operation.keepField document x.name)
    let value := service.answer source kind state x
    alone.response.errors = (fault? x.name value).toList ∧
      (∀ v, value = .ok v → alone.response.data = .object [(x.name, v)]) ∧
      alone.state = state := by
  intro alone value
  -- Of the planned items only that of the name is left.
  have hone := PlannedItem.planAll_filter hplan x.name
  rw [Keyed.filter_of_mem hnodup hx] at hone
  have halone : alone = service.run source state
      (.records kind (items.filter (·.head.name = x.name))) :=
    executeOperation_of_prepare state (prepareOperation_keepField hoperation x.name)
  obtain ⟨hdata, herrors, hstate⟩ := run_of_planAll source hone
    (List.forall_mem_singleton.mpr (hnone x hx)) state
  rw [halone]
  refine ⟨herrors.trans ?_, fun v hv => hdata.trans ?_, hstate⟩
  · rw [List.filterMap_cons]
    cases fault? x.name (service.answer source kind state x) <;> rfl
  · have hanswer : service.answer source kind state x = .ok v := hv
    simp [hanswer, fault?, shown]

end ByName

/-- In an operation on records that is planned and in which no root field makes any, every root
field has the value or the error that it has when only its selections are kept. There is an error
for each field that fails, in the order in which the fields come first, with the field it stands
for. All data is null when a search fails, and otherwise an object with the fields in order, null
where they failed. -/
theorem fields_isolated [RegexLibrary] (service : Service) (source : RecordSource σ) (state : σ)
    {request : OperationRequest} {document : Document} {operation : Operation} {kind : RootKind}
    {items : List Item} {planned : List PlannedItem}
    (hread : Document.read request.text = .ok document)
    (hselect : document.select request.operation = .ok operation)
    (hprepare : prepare request = .ok (.records kind items))
    (hplan : (PlannedItem.planAll service.catalog service.roots service.pages kind items).outcome =
      .ok planned)
    (hnone : ∀ item ∈ items, ∀ f, service.roots.get kind item.head.name = .ok f →
      f.action.creates = false) :
    let names := Keyed.ofList id (items.map (·.head.name))
    let done := service.execute source state request
    let only := fun name => service.executeOperation source state request document
      (operation.keepField document name)
    ∃ value : String → Except Error Json,
      (∀ name ∈ names, (only name).response.errors = (fault? name (value name)).toList ∧
        (∀ v, value name = .ok v → (only name).response.data = .object [(name, v)]) ∧
        (only name).state = state) ∧
      done.response.errors = names.filterMap (fun name => fault? name (value name)) ∧
      (done.response.data = .null ↔
        ∃ name ∈ names, (∃ e, value name = .error e) ∧ service.IsSearch kind name) ∧
      (done.response.data ≠ .null →
        done.response.data = .object (names.map fun name => (name, shown (value name)))) ∧
      done.state = state := by
  intro names done only
  have hoperation : prepareOperation request document operation = .ok (.records kind items) := by
    rw [← hprepare, prepare_eq, hread]
    exact (Outcome.bind_of_eq_ok hselect _).symm
  have hnames : planned.map PlannedItem.name = names := PlannedItem.names_planAll hplan
  -- After merging no name stands twice, so that an answer can be told by its name.
  have hnodup : (planned.map PlannedItem.name).Nodup := by
    rw [hnames]
    simpa using Keyed.nodup_ofList id (items.map (·.head.name))
  have hmakes := PlannedItem.creation?_of_planAll hplan hnone
  have hdone : done = service.run source state (.records kind items) :=
    execute_of_prepare source state hprepare
  obtain ⟨hdata, herrors, hstate⟩ := run_of_planAll source hplan hmakes state
  rw [← hdone, map_answerTo hnodup fun name value => (name, shown value), hnames] at hdata
  rw [← hdone, filterMap_answerTo hnodup fault?, hnames] at herrors
  have hrefuses := any_refuses_iff hnodup source hplan state
  rw [hnames] at hrefuses
  refine ⟨service.answerTo source kind state planned, fun name hname => ?_, herrors, ?_,
    fun hnull => ?_, hdone ▸ hstate⟩
  · -- The operation that keeps one name plans that field alone.
    obtain ⟨x, hx, rfl⟩ := List.mem_map.mp (hnames ▸ hname)
    rw [answerTo_of_mem hnodup state hx]
    exact alone_of_planAll hnodup hoperation hplan hmakes state hx
  · rw [← hrefuses, hdata]
    split
    · next hrefused => exact iff_of_true rfl hrefused
    · next hrefused => exact iff_of_false (fun hnull => by cases hnull) hrefused
  · rw [hdata] at hnull ⊢
    split at hnull
    · exact absurd rfl hnull
    · next hrefused => rw [if_neg hrefused]

/-- A request that asks for records has a document and an operation in it. -/
theorem exists_operation {request : OperationRequest} {prepared : Prepared}
    (h : prepare request = .ok prepared) : ∃ document operation,
      Document.read request.text = .ok document ∧
        document.select request.operation = .ok operation := by
  rw [prepare_eq] at h
  obtain ⟨document, hread, h⟩ := Outcome.bind_eq_ok.mp h
  obtain ⟨operation, hselect, _⟩ := Outcome.bind_eq_ok.mp h
  exact ⟨document, operation, hread, hselect⟩

def failingQuery : OperationRequest :=
  ⟨"\x7b product(id: 1, sku: \"MUG\") \x7b id \x7d __typename orders \x7b id \x7d \x7d", none, []⟩

/-- A query of which one field is ambiguous: its error stands alone. -/
theorem fields_isolated_failingQuery : ∃ (names : List String) (value : String → Except Error Json),
    (storefront.execute storefrontRules.source .empty failingQuery).response.data =
      .object (names.map fun name => (name, shown (value name))) ∧
    names.filterMap (fun name => fault? name (value name)) =
      [⟨.resolutionAmbiguity "product" "id" "sku", some "product"⟩] := by
  obtain ⟨items, hprepare⟩ := prepare_of_recordsRoot? failingQuery .query (by decide +kernel)
  obtain ⟨document, operation, hread, hselect⟩ := exists_operation hprepare
  have herrors : (storefront.execute storefrontRules.source .empty failingQuery).response.errors =
      [⟨.resolutionAmbiguity "product" "id" "sku", some "product"⟩] := by decide +kernel
  have hdata : (storefront.execute storefrontRules.source .empty failingQuery).response.data.isNull =
      false := by decide +kernel
  have hnone : ∀ f ∈ storefront.roots.query, f.action.creates = false := by decide
  cases hplan : (PlannedItem.planAll storefront.catalog storefront.roots storefront.pages .query
      items).outcome with
  | error e =>
    -- Planning does not fail here, for then there would be no data.
    have hrefused := refused_of_planAll storefrontRules.source Store.empty hplan
    rw [execute_of_prepare storefrontRules.source .empty hprepare, hrefused.data] at hdata
    cases hdata
  | ok planned =>
    obtain ⟨value, _, hvalues, _, hobject, _⟩ := fields_isolated storefront storefrontRules.source
      .empty hread hselect hprepare hplan fun item _ f hf => hnone f (RootFields.get_eq_ok hf)
    refine ⟨_, value, hobject fun hnull => ?_, hvalues.symm.trans herrors⟩
    rw [hnull] at hdata
    cases hdata

def makingThenSearching : OperationRequest :=
  ⟨"\x7b make(note: \x7btext: \"a\"\x7d) \x7b text \x7d notes \x7b text \x7d \x7d", none, []⟩

/-- The data of the operation of a request with the root fields of one name only, as text. -/
def dataAlone [RegexLibrary] (service : Service) (source : RecordSource σ) (state : σ)
    (request : OperationRequest) (name : String) : Except Error String := do
  let document ← Document.read request.text
  let operation ← document.select request.operation
  return (service.executeOperation source state request document
    (operation.keepField document name)).response.data.write

/-- A search finds the record that a root field before it makes, and does not when only its own
selections are kept. -/
theorem search_sees_made_note :
    recordsRoot? makingThenSearching = some .query ∧
    (noteBook.execute noteRules.source .empty makingThenSearching).response.data.write =
      "\x7b\"make\":\x7b\"text\":\"a\"\x7d,\"notes\":[\x7b\"text\":\"a\"\x7d]\x7d" ∧
    (noteBook.dataAlone noteRules.source .empty makingThenSearching "notes").toOption =
      some "\x7b\"notes\":[]\x7d" := by
  refine ⟨?_, ?_, ?_⟩ <;> decide +kernel

end Service

end EntityGraph
