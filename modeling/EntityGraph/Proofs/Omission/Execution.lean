import EntityGraph.Proofs.Execution.Variables
import EntityGraph.Proofs.Omission.Documents
import EntityGraph.Proofs.Omission.Roots
import EntityGraph.Regex.Engine

namespace EntityGraph

def OperationType.scope : OperationType → FieldScope
  | .query => .root .query
  | .mutation => .root .mutation
  | .subscription => .other

def Operation.reading (operation : Operation) (request : OperationRequest) : Reading :=
  .ofValues (request.values ++ operation.defaults)

/-- An operation of a document, as a request runs it, and another one that has the same selections
and the same fragments without some of the nulls in arguments and directives. -/
structure OperationOmits (service : Service) (spread : FieldScope → String → Prop)
    (request request' : OperationRequest) (document document' : Document)
    (operation operation' : Operation) : Prop where
  type : operation'.type = operation.type
  selections : SelectionsOmit service (operation.reading request) (operation'.reading request')
    spread operation.type.scope operation.selections operation'.selections
  fragments : FragmentsOmit service (operation.reading request) (operation'.reading request')
    spread document document'

namespace Service

variable {service : Service} {request request' : OperationRequest}
  {document document' : Document} {operation operation' : Operation} {kind : RootKind}

def asked (request : OperationRequest) (document : Document) (operation : Operation) :
    Except Error (List Item) :=
  ((operation.reading request).expandRoot document operation.selections).items

/-- An operation selects no root field twice. The name of the root's type may be. -/
def selectsOnce (request : OperationRequest) (document : Document) (operation : Operation) : Bool :=
  match asked request document operation with
  | .ok items => decide (PlannedItem.fieldNames items).Nodup
  | .error _ => true

theorem scope_of_rootOf {type : OperationType} (h : rootOf type = .ok kind) :
    type.scope = .root kind := by
  cases type with
  | query | mutation => cases h; rfl
  | subscription => cases h

/-- Whether the schema is asked for does not depend on nulls. -/
theorem asksForSchema_omits {items items' : List Item}
    (h : List.Forall₂ (ItemOmits service kind) items items') :
    asksForSchema items' = asksForSchema items := by
  have hnames : (items'.map fun item => item.head.name) = items.map fun item => item.head.name :=
    Outcome.map_eq_of_forall₂ h fun _ _ _ hitem => hitem.head.name
  rw [asksForSchema, asksForSchema, hnames]

theorem prepareOperation_of_fault (hkind : rootOf operation.type = .ok kind) {err : Error}
    (h : asked request document operation = .error err) :
    prepareOperation request document operation = .error err := by
  rw [asked, Operation.reading] at h
  rw [prepareOperation, hkind, Outcome.bind_of_eq_ok rfl]
  dsimp only
  rw [h]
  rfl

/-- Items that do not ask about the schema are prepared as they are. -/
theorem prepareOperation_of_items (hkind : rootOf operation.type = .ok kind) {items : List Item}
    (h : asked request document operation = .ok items) :
    prepareOperation request document operation = asksForSchema items >>= fun asks =>
      if asks then .ok (.schema kind do
        checkName request operation
        ((Reading.ofGiven request.values operation.defaults).expandRoot document
          operation.selections).items)
      else .ok (.records kind items) := by
  rw [asked, Operation.reading] at h
  rw [prepareOperation, hkind, Outcome.bind_of_eq_ok rfl]
  dsimp only
  rw [Outcome.bind_of_eq_ok h]
  rfl

/-- An operation on records asks for items without some of the nulls in arguments, or both have the
same fault. -/
theorem prepareOperation_omits {spread : FieldScope → String → Prop}
    (h : OperationOmits service spread request request' document document' operation operation')
    (hrecords : isAboutSchema request document operation = false)
    (honce : selectsOnce request document operation = true) :
    (∃ err, prepareOperation request document operation = .error err ∧
        prepareOperation request' document' operation' = .error err) ∨
      ∃ kind items items', prepareOperation request document operation = .ok (.records kind items) ∧
        prepareOperation request' document' operation' = .ok (.records kind items') ∧
        List.Forall₂ (ItemOmits service kind) items items' ∧
        (PlannedItem.fieldNames items).Nodup := by
  cases hkind : rootOf operation.type with
  | error err =>
    refine Or.inl ⟨err, ?_, ?_⟩
    · rw [prepareOperation, hkind]
      rfl
    · rw [prepareOperation, h.type, hkind]
      rfl
  | ok kind =>
    have hkind' : rootOf operation'.type = .ok kind := h.type ▸ hkind
    have hexpand := Reading.expandRoot_omits h.fragments h.selections
    rw [scope_of_rootOf hkind] at hexpand
    rcases hexpand.items with ⟨err, herr, herr'⟩ | ⟨items, items', hitems, hitems', hall⟩
    · exact Or.inl ⟨err, prepareOperation_of_fault hkind herr,
        prepareOperation_of_fault hkind' herr'⟩
    · have hprepared := prepareOperation_of_items hkind hitems
      have hprepared' := prepareOperation_of_items hkind' hitems'
      rw [asksForSchema_omits hall] at hprepared'
      cases hasks : asksForSchema items with
      | error err =>
        rw [hasks] at hprepared hprepared'
        exact Or.inl ⟨err, hprepared, hprepared'⟩
      | ok asks =>
        rw [hasks, Outcome.bind_of_eq_ok rfl] at hprepared hprepared'
        cases asks with
        | true =>
          -- The operation would be one about the schema.
          rw [isAboutSchema, hprepared] at hrecords
          cases hrecords
        | false =>
          have hitems : asked request document operation = .ok items := hitems
          rw [selectsOnce, hitems] at honce
          exact Or.inr ⟨kind, items, items', hprepared, hprepared', hall, of_decide_eq_true honce⟩

section

variable {σ : Type} (source : RecordSource σ) (state : σ)

/-- Planned items are resolved alike whatever arguments they were planned from. -/
theorem resolveAll_withoutArguments [RegexLibrary] (planned : List PlannedItem) :
    service.resolveAll source kind state (planned.map PlannedItem.withoutArguments) =
      service.resolveAll source kind state planned := by
  rw [resolveAll, resolveAll, List.foldl_map]
  congr 1
  funext done item
  cases item <;> rfl

/-- Items of different names do the same without some of the nulls in arguments. -/
theorem run_omits [RegexLibrary] {items items' : List Item}
    (h : List.Forall₂ (ItemOmits service kind) items items')
    (hnames : (PlannedItem.fieldNames items).Nodup) :
    service.run source state (.records kind items') =
      service.run source state (.records kind items) := by
  have hplan := PlannedItem.planAll_omits h hnames
  rw [Tracked.map_eq, Tracked.map_eq, Tracked.mk.injEq] at hplan
  obtain ⟨houtcome, huses⟩ := hplan
  rw [run, run]
  dsimp only
  rw [huses]
  cases hplanned : (PlannedItem.planAll service.catalog service.roots service.pages kind
      items).outcome with
  | error err =>
    rw [hplanned] at houtcome
    rw [Outcome.map_eq_error.mp houtcome]
  | ok planned =>
    rw [hplanned] at houtcome
    obtain ⟨planned', hplanned', hsame⟩ := Outcome.map_eq_ok.mp houtcome
    -- The plans differ in the arguments alone, and nothing that is resolved reads those.
    have hresolved : service.resolveAll source kind state planned' =
        service.resolveAll source kind state planned := calc
      _ = service.resolveAll source kind state (planned'.map PlannedItem.withoutArguments) :=
        (resolveAll_withoutArguments source state planned').symm
      _ = service.resolveAll source kind state (planned.map PlannedItem.withoutArguments) := by
        rw [hsame]
      _ = service.resolveAll source kind state planned :=
        resolveAll_withoutArguments source state planned
    rw [hplanned']
    dsimp only
    rw [hresolved]

/-- An operation on records that selects no root field twice does the same when nulls with known
keys are left out of its arguments and directives. -/
theorem execute_omits [RegexLibrary] {spread : FieldScope → String → Prop}
    (hread : Document.read request.text = .ok document)
    (hselect : document.select request.operation = .ok operation)
    (hread' : Document.read request'.text = .ok document')
    (hselect' : document'.select request'.operation = .ok operation')
    (h : OperationOmits service spread request request' document document' operation operation')
    (hrecords : isAboutSchema request document operation = false)
    (honce : selectsOnce request document operation = true) :
    service.execute source state request' = service.execute source state request := by
  rw [execute_eq_executeOperation state hread hselect,
    execute_eq_executeOperation state hread' hselect', executeOperation, executeOperation]
  rcases prepareOperation_omits h hrecords honce with
    ⟨err, herr, herr'⟩ | ⟨kind, items, items', hitems, hitems', hall, hnames⟩
  · rw [herr, herr']
  · rw [hitems, hitems']
    exact run_omits source state hall hnames

end

/-- An operation that places an order of one item, with more fields of the order and of the item. -/
def placing (fields item : List (String × Literal)) : Operation :=
  ⟨.mutation, none, [], [.field "placeOrder" none
    [("order", .object (("shippingMethod", .string "post") :: fields ++
      [("items", .list [.object (("qty", .number (.integer 2)) :: item)])]))] []
    [.spread "Part" []]]⟩

/-- The part of an order that is shown, with more arguments, keys of the filter, and bounds. -/
def orderPart (arguments keys bounds : List (String × Literal)) : Fragment :=
  ⟨"Part", [.field "items" none (arguments ++ [("filter", .object (keys ++
    [("qty", .object (("gt", .number (.integer 1)) :: bounds))]))]) []
    [.field "qty" none [] [] []]]⟩

inductive SpreadOnOrder : FieldScope → String → Prop
  | part : SpreadOnOrder (.record Storefront.order) "Part"

/-- An order that is placed and shown with nulls, one of them a variable that has no value. -/
def orderWithNulls : OperationRequest :=
  ⟨"mutation($n:Int)\x7bplaceOrder(order:\x7bshippingMethod:\"post\",customer:null," ++
    "items:[\x7bqty:2,product:null\x7d]\x7d)\x7b...Part\x7d\x7d" ++
    "fragment Part on Order\x7bitems(limit:$n,filter:\x7b_join:null,qty:\x7bgt:1,lt:null\x7d\x7d)" ++
    "\x7bqty\x7d\x7d", none, []⟩

def orderWithoutNulls : OperationRequest :=
  ⟨"mutation\x7bplaceOrder(order:\x7bshippingMethod:\"post\",items:[\x7bqty:2\x7d]\x7d)" ++
    "\x7b...Part\x7d\x7d" ++
    "fragment Part on Order\x7bitems(filter:\x7bqty:\x7bgt:1\x7d\x7d)\x7bqty\x7d\x7d", none, []⟩

theorem read_orderWithNulls : Document.read orderWithNulls.text =
    .ok ⟨[placing [("customer", .null)] [("product", .null)]],
      [orderPart [("limit", .reference "n")] [("_join", .null)] [("lt", .null)]]⟩ := by
  cbv

theorem read_orderWithoutNulls : Document.read orderWithoutNulls.text =
    .ok ⟨[placing [] []], [orderPart [] [] []]⟩ := by
  cbv

theorem operationOmits_order : OperationOmits storefront SpreadOnOrder orderWithNulls
    orderWithoutNulls
    ⟨[placing [("customer", .null)] [("product", .null)]],
      [orderPart [("limit", .reference "n")] [("_join", .null)] [("lt", .null)]]⟩
    ⟨[placing [] []], [orderPart [] [] []]⟩
    (placing [("customer", .null)] [("product", .null)]) (placing [] []) where
  type := rfl
  selections := by
    -- The item of the input lacks its product, the order its customer.
    have hitem : Omits storefront (.input Storefront.orderItem)
        (.object [("qty", .number (.integer 2)), ("product", .null)])
        (.object [("qty", .number (.integer 2))]) :=
      .object (by decide) (.kept (.same _ _) (.omitted rfl (.nil _)))
    have horder : Omits storefront (.input Storefront.order)
        (.object [("shippingMethod", .string "post"), ("customer", .null), ("items",
          .list [.object [("qty", .number (.integer 2)), ("product", .null)]])])
        (.object [("shippingMethod", .string "post"), ("items",
          .list [.object [("qty", .number (.integer 2))]])]) :=
      .object (by decide) (.kept (.same _ _) (.omitted rfl
        (.kept (.list (.cons hitem (.nil _))) (.nil _))))
    exact .field (.kept horder (.nil _)) .nil (.spread .part .nil (.nil _)) (.nil _)
  fragments := by
    refine ⟨rfl, ?_⟩
    rintro _ _ _ _ ⟨⟩ ⟨⟩ ⟨⟩
    -- In the fragment a limit, a join and a bound are null.
    have hqty : Omits storefront (.constraint .float)
        (.object [("gt", .number (.integer 1)), ("lt", .null)])
        (.object [("gt", .number (.integer 1))]) :=
      .object (by decide) (.kept (.same _ _) (.omitted rfl (.nil _)))
    have hfilter : Omits storefront (.filter Storefront.orderItem)
        (.object [("_join", .null), ("qty",
          .object [("gt", .number (.integer 1)), ("lt", .null)])])
        (.object [("qty", .object [("gt", .number (.integer 1))])]) :=
      .object (by decide) (.omitted rfl (.kept hqty (.nil _)))
    exact .field (.omitted rfl (.kept hfilter (.nil _))) .nil
      (.field (.nil _) .nil (.nil _) (.nil _)) (.nil _)

/-- The order is placed and shown alike in both ways. -/
theorem execute_omits_order :
    (storefront.execute storefrontRules.source .empty orderWithNulls).response.data.write =
      "\x7b\"placeOrder\":\x7b\"items\":[\x7b\"qty\":2.0\x7d]\x7d\x7d" ∧
    (storefront.execute storefrontRules.source .empty orderWithNulls).state.size "Order" = 1 ∧
    storefront.execute storefrontRules.source .empty orderWithoutNulls =
      storefront.execute storefrontRules.source .empty orderWithNulls := by
  refine ⟨?_, ?_, ?_⟩
  · rw [execute_eq_executeOperation Store.empty read_orderWithNulls rfl]
    decide +kernel
  · rw [execute_eq_executeOperation Store.empty read_orderWithNulls rfl]
    decide +kernel
  · exact execute_omits storefrontRules.source .empty read_orderWithNulls rfl
      read_orderWithoutNulls rfl operationOmits_order (by decide +kernel) (by decide +kernel)

end Service

end EntityGraph
