import EntityGraph.Proofs.Execution.Planned
import EntityGraph.Proofs.Execution.Serving
import EntityGraph.Proofs.Store.Calls
import EntityGraph.Regex.Engine

namespace EntityGraph

def PlannedItem.creation? (x : PlannedItem) : Option (String × Members) :=
  x.effect.bind fun (f, _, step) => step.created?.map fun fields => (f.entity, fields)

/-- The record that an item of a root is to make, with its entity, when it is planned on its own. -/
def Item.creation? (c : Catalog) (roots : RootFields) (pages : PageDefaults) (kind : RootKind)
    (item : Item) : Option (String × Members) :=
  (PlannedItem.ofItem c roots pages kind item).outcome.toOption.bind PlannedItem.creation?

namespace PlannedItem

variable {c : Catalog} {roots : RootFields} {pages : PageDefaults} {kind : RootKind}

/-- The records to make are those of the first items of their names. -/
theorem creations_firsts {items : List Item} {planned : List PlannedItem}
    (h : (planAll c roots pages kind items).outcome = .ok planned) :
    planned.filterMap creation? =
      (Keyed.firsts (·.head.name) items).filterMap (Item.creation? c roots pages kind) := by
  have hfirsts := plansAs_firsts h
  clear h
  generalize Keyed.firsts (·.head.name) items = firsts at hfirsts ⊢
  induction hfirsts with
  | nil => rfl
  | @cons item x _ _ hitem _ ih =>
    obtain ⟨own, hown, heffect⟩ := hitem
    have hcreation : item.creation? c roots pages kind = x.creation? := by
      rw [Item.creation?, hown]
      exact congrArg (Option.bind · _) heffect
    rw [List.filterMap_cons, List.filterMap_cons, hcreation, ih]

/-- An item whose root field makes no records makes none. -/
theorem creation?_of_not_creates {item : Item}
    (h : ∀ f, roots.get kind item.head.name = .ok f → f.action.creates = false) :
    item.creation? c roots pages kind = none := by
  rw [Item.creation?]
  cases hitem : (ofItem c roots pages kind item).outcome with
  | error err => rfl
  | ok x =>
    cases x with
    | typename => rfl
    | field plan =>
      obtain ⟨hfield, _, hstep, _⟩ := ofItem_field hitem
      have hnone := RootPlan.created?_of_stepOf (h plan.field hfield) hstep
      simp [Except.toOption, creation?, effect, hnone]

/-- Where no root field that is asked for makes records, the first items make none. -/
theorem creations_eq_nil {items : List Item}
    (h : ∀ item ∈ items, ∀ f, roots.get kind item.head.name = .ok f → f.action.creates = false) :
    (Keyed.firsts (·.head.name) items).filterMap (Item.creation? c roots pages kind) = [] :=
  List.filterMap_eq_nil_iff.mpr fun item hitem =>
    creation?_of_not_creates (h item (Keyed.mem_of_mem_firsts hitem))

/-- Where no field creates, nothing that is planned does. -/
theorem creation?_of_planAll {items : List Item} {planned : List PlannedItem}
    (hplan : (planAll c roots pages kind items).outcome = .ok planned)
    (h : ∀ item ∈ items, ∀ f, roots.get kind item.head.name = .ok f → f.action.creates = false) :
    ∀ x ∈ planned, x.creation? = none :=
  List.filterMap_eq_nil_iff.mp ((creations_firsts hplan).trans (creations_eq_nil h))

end PlannedItem

namespace Store

variable {rules : StoreRules} {s s' : Store}

/-- Records are put one after another, refused ones included; with what the store received. -/
inductive Tries (rules : StoreRules) :
    Store → List (String × Members) → List (String × Members) → Store → Prop
  | nil (s : Store) : Tries rules s [] [] s
  | received {s s₁ s' : Store} {entity : String} {fields stored : Members}
      {rest received : List (String × Members)}
      (first : put rules entity fields s = (.ok stored, s₁))
      (more : Tries rules s₁ rest received s') :
      Tries rules s ((entity, fields) :: rest) ((entity, stored) :: received) s'
  | refused {s s₁ s' : Store} {entity : String} {fields : Members} {e : SourceError}
      {rest received : List (String × Members)}
      (first : put rules entity fields s = (.error e, s₁))
      (more : Tries rules s₁ rest received s') :
      Tries rules s ((entity, fields) :: rest) received s'

theorem Tries.eq_of_nil {received : List (String × Members)} (h : Tries rules s [] received s') :
    s' = s := by
  cases h
  rfl

/-- Exactly the records that the store received are added, in their order. -/
theorem Tries.records {tried received : List (String × Members)}
    (h : Tries rules s tried received s') (entity : String) :
    (s'.collection entity).records =
      (s.collection entity).records ++ receivedBy entity received := by
  induction h with
  | nil s => exact (List.append_nil _).symm
  | @received s s₁ s' owner fields stored rest received first _ ih =>
    rw [ih, (receives_of_put_eq_ok first).records, List.append_assoc]
    simp only [receivedBy, List.filterMap_cons]
    split <;> simp_all
  | refused first _ ih => rw [ih, collection_of_put_eq_error first]

end Store

/-- An operation is refused as a whole: there is one error, which stands for no field, and the
source is as it was. -/
structure Execution.Refused {σ : Type} (x : Execution σ) (state : σ) (e : Error) : Prop where
  data : x.response.data = .null
  errors : x.response.errors = [⟨e, none⟩]
  state : x.state = state

namespace Service

section Effects

variable [RegexLibrary]

/-- Resolving an item puts the record that it is to make, and changes nothing else. -/
theorem state_step (service : Service) (rules : StoreRules) (kind : RootKind)
    (done : Resolution Store) (item : PlannedItem) :
    (Resolution.step service rules.source kind done item).state =
      match item.creation? with
      | some (entity, fields) => (Store.put rules entity fields done.state).2
      | none => done.state := by
  cases item with
  | typename => rfl
  | field plan =>
    obtain ⟨f, arguments, step, request⟩ := plan
    have hstate : (Resolution.step service rules.source kind done
        (.field ⟨f, arguments, step, request⟩)).state =
          (service.resolve rules.source done.state ⟨f, arguments, step, request⟩).2 := by
      rw [Resolution.step]
      dsimp only
      split <;> rfl
    rw [hstate]
    cases step <;> rfl

/-- What one step does to the store, all of them do in turn. -/
theorem tries_foldl (service : Service) (rules : StoreRules) (kind : RootKind)
    (planned : List PlannedItem) (done : Resolution Store) :
    ∃ received, Store.Tries rules done.state (planned.filterMap PlannedItem.creation?) received
      (planned.foldl (Resolution.step service rules.source kind) done).state := by
  induction planned generalizing done with
  | nil => exact ⟨[], .nil _⟩
  | cons item planned ih =>
    obtain ⟨received, hmore⟩ := ih (Resolution.step service rules.source kind done item)
    rw [List.foldl_cons, List.filterMap_cons]
    -- A step leaves the state that its creation, if it has one, leaves.
    have hstate := state_step service rules kind done item
    cases hcreation : item.creation? with
    | none =>
      rw [hcreation] at hstate
      rw [hstate] at hmore
      exact ⟨received, hmore⟩
    | some creation =>
      obtain ⟨entity, fields⟩ := creation
      rw [hcreation] at hstate
      dsimp only at hstate ⊢
      rcases hput : Store.put rules entity fields done.state with ⟨result, s₁⟩
      rw [hput] at hstate
      cases result with
      | ok stored => exact ⟨_, .received hput (hstate ▸ hmore)⟩
      | error e => exact ⟨_, .refused hput (hstate ▸ hmore)⟩

variable {service : Service}

/-- An operation that is prepared is run. -/
theorem execute_of_prepare {σ : Type} (source : RecordSource σ) (state : σ)
    {request : OperationRequest} {operation : Prepared} (h : prepare request = .ok operation) :
    service.execute source state request = service.run source state operation := by
  unfold execute
  split
  · next hoperation =>
    cases hoperation.symm.trans h
    rfl
  · next he => cases he.symm.trans h

/-- An operation that cannot be prepared is refused, and the store is as before. -/
theorem refused_of_prepare {σ : Type} (source : RecordSource σ) (state : σ)
    {request : OperationRequest} {e : Error} (h : prepare request = .error e) :
    (service.execute source state request).Refused state e := by
  unfold execute
  split
  · next hoperation => cases hoperation.symm.trans h
  · next he =>
    cases he.symm.trans h
    exact ⟨rfl, rfl, rfl⟩

/-- Questions about the schema change nothing, and are refused where they can not be answered. -/
theorem run_schema {σ : Type} (source : RecordSource σ) (state : σ) (kind : RootKind)
    (asked : Except Error (List Item)) :
    (service.run source state (.schema kind asked)).state = state ∧
      ∀ e, (service.introspect kind asked).outcome = .error e →
        (service.run source state (.schema kind asked)).Refused state e := by
  rw [run]
  cases (service.introspect kind asked).outcome with
  | ok members =>
    refine ⟨rfl, fun e he => ?_⟩
    cases he
  | error err =>
    refine ⟨rfl, ?_⟩
    rintro _ ⟨⟩
    exact ⟨rfl, rfl, rfl⟩

/-- An operation that cannot be planned is refused, and the store is as before. -/
theorem refused_of_planAll {σ : Type} (source : RecordSource σ) (state : σ) {kind : RootKind}
    {items : List Item} {e : Error}
    (h : (PlannedItem.planAll service.catalog service.roots service.pages kind items).outcome =
      .error e) :
    (service.run source state (.records kind items)).Refused state e := by
  rw [run]
  simp only [h]
  exact ⟨rfl, rfl, rfl⟩

/-- The store after a planned operation is the one after all its fields. -/
theorem state_of_planAll {σ : Type} (source : RecordSource σ) (state : σ) {kind : RootKind}
    {items : List Item} {planned : List PlannedItem}
    (h : (PlannedItem.planAll service.catalog service.roots service.pages kind items).outcome =
      .ok planned) :
    (service.run source state (.records kind items)).state =
      (service.resolveAll source kind state planned).state := by
  rw [run]
  simp only [h]

/-- The records that the first items of their names are to make are put in order. -/
theorem tries_of_planAll (rules : StoreRules) (s : Store) {kind : RootKind} {items : List Item}
    {planned : List PlannedItem}
    (h : (PlannedItem.planAll service.catalog service.roots service.pages kind items).outcome =
      .ok planned) :
    ∃ received, Store.Tries rules s ((Keyed.firsts (·.head.name) items).filterMap
      (Item.creation? service.catalog service.roots service.pages kind)) received
      (service.run rules.source s (.records kind items)).state := by
  obtain ⟨received, htries⟩ := tries_foldl service rules kind planned (.start s)
  rw [PlannedItem.creations_firsts h] at htries
  rw [state_of_planAll rules.source s h]
  exact ⟨received, htries⟩

/-- An operation that can not be prepared or planned, or that asks about the schema and can not be
answered, is refused as a whole. An operation on records is not planned unless each of its items can
be. Where it is planned, the records that the first items of their names are to make are put in
order, each once, and nothing else changes; in particular nothing does where no root field that is
asked for makes records. -/
theorem execute_effects (service : Service) (rules : StoreRules) (s : Store)
    (request : OperationRequest) :
    let done := service.execute rules.source s request
    (∀ e, prepare request = .error e → done.Refused s e) ∧
    (∀ kind asked, prepare request = .ok (.schema kind asked) → done.state = s ∧
      ∀ e, (service.introspect kind asked).outcome = .error e → done.Refused s e) ∧
    ∀ kind items, prepare request = .ok (.records kind items) →
      let plan := (PlannedItem.planAll service.catalog service.roots service.pages kind items).outcome
      let firsts := Keyed.firsts (·.head.name) items
      (∀ item ∈ items, ∀ e, (PlannedItem.ofItem service.catalog service.roots service.pages kind
        item).outcome = .error e → ∃ e', plan = .error e') ∧
      (∀ e, plan = .error e → done.Refused s e) ∧
      (∀ planned, plan = .ok planned → ∃ received, Store.Tries rules s
        (firsts.filterMap (Item.creation? service.catalog service.roots service.pages kind)) received
        done.state ∧
        ∀ entity, (done.state.collection entity).records =
          (s.collection entity).records ++ Store.receivedBy entity received) ∧
      ((∀ item ∈ items, ∀ f, service.roots.get kind item.head.name = .ok f →
        f.action.creates = false) → done.state = s) := by
  refine ⟨fun e he => refused_of_prepare rules.source s he, fun kind asked hschema => ?_,
    fun kind items hrecords => ?_⟩
  · rw [execute_of_prepare rules.source s hschema]
    exact run_schema rules.source s kind asked
  · rw [execute_of_prepare rules.source s hrecords]
    intro plan firsts
    refine ⟨fun item hitem e he => PlannedItem.planAll_of_error hitem he,
      fun e he => refused_of_planAll rules.source s he, fun planned hplan => ?_, fun hnone => ?_⟩
    · -- What the steps try is what the distinct fields ask for, in their first places.
      obtain ⟨received, htries⟩ := tries_of_planAll rules s hplan
      exact ⟨received, htries, htries.records⟩
    · -- Without a record to make there is nothing to try, be the operation planned or not.
      cases hplan : plan with
      | error e => exact (refused_of_planAll rules.source s hplan).state
      | ok planned =>
        obtain ⟨received, htries⟩ := tries_of_planAll rules s hplan
        rw [PlannedItem.creations_eq_nil hnone] at htries
        exact htries.eq_of_nil

end Effects

def recordsRoot? (request : OperationRequest) : Option RootKind :=
  match prepare request with
  | .ok (.records kind _) => some kind
  | _ => none

theorem prepare_of_recordsRoot? (request : OperationRequest) (kind : RootKind)
    (h : recordsRoot? request = some kind) : ∃ items, prepare request = .ok (.records kind items) := by
  unfold recordsRoot? at h
  split at h
  · next items hprepare =>
    cases h
    exact ⟨items, hprepare⟩
  · cases h

def orderTwice : OperationRequest :=
  ⟨"mutation \x7b placeOrder(order: \x7bshippingMethod: \"post\"\x7d) \x7b id \x7d ...Again \x7d " ++
    "fragment Again on Mutation \x7b placeOrder(order: \x7bshippingMethod: \"post\"\x7d) " ++
    "\x7b shippingMethod \x7d \x7d", none, []⟩

/-- Two fields of one name are one effect, and an empty request is refused. -/
theorem execute_effects_orderTwice :
    (∃ received,
      (∀ entity, ((storefront.execute storefrontRules.source .empty orderTwice).state.collection
        entity).records = Store.receivedBy entity received) ∧
      (Store.receivedBy "Order" received).length = 1) ∧
    ∃ e, (storefront.execute storefrontRules.source .empty ⟨"", none, []⟩).Refused .empty e := by
  constructor
  · obtain ⟨items, hprepare⟩ := prepare_of_recordsRoot? orderTwice .mutation
      (by decide +kernel)
    -- Evaluated: one order in the end.
    have hsize : (storefront.execute storefrontRules.source .empty orderTwice).state.size "Order" =
        1 := by decide +kernel
    obtain ⟨_, hrefused, hplanned, _⟩ :=
      (execute_effects storefront storefrontRules .empty orderTwice).2.2 .mutation items hprepare
    cases hplan : (PlannedItem.planAll storefront.catalog storefront.roots storefront.pages .mutation
        items).outcome with
    | error e =>
      rw [(hrefused e hplan).state] at hsize
      cases hsize
    | ok planned =>
      obtain ⟨received, _, hrecords⟩ := hplanned planned hplan
      refine ⟨received, hrecords, ?_⟩
      exact (congrArg List.length (hrecords "Order")).symm.trans hsize
  · have hfails : (prepare ⟨"", none, []⟩).isOk = false := by decide +kernel
    cases hprepare : prepare ⟨"", none, []⟩ with
    | error e => exact ⟨e, (execute_effects storefront storefrontRules .empty _).1 e hprepare⟩
    | ok operation =>
      rw [hprepare] at hfails
      cases hfails

def noteBook : Service where
  catalog := ⟨[.ofAttributes "Note" "" [.scalar "id" "" .id false, .scalar "text" "" .string false]],
    by decide⟩
  roots := .ofLists [⟨"make", "", "Note", .create "note"⟩, ⟨"notes", "", "Note", .search⟩] []
  pages := .standard

def noteRules : StoreRules := ⟨noteBook.catalog, [], toString⟩

def makingQuery : OperationRequest :=
  ⟨"\x7b make(note: \x7btext: \"a\"\x7d) \x7b text \x7d \x7d", none, []⟩

/-- A query of a root with a field that makes records changes the store. -/
theorem query_makes_note :
    recordsRoot? makingQuery = some .query ∧ Store.empty.size "Note" = 0 ∧
    (noteBook.execute noteRules.source .empty makingQuery).response.errors = [] ∧
    (noteBook.execute noteRules.source .empty makingQuery).state.size "Note" = 1 := by
  refine ⟨?_, rfl, ?_, ?_⟩ <;> decide +kernel

end Service

end EntityGraph
