import EntityGraph.Proofs.Document.Substitution
import EntityGraph.Proofs.Execution.Isolation
import EntityGraph.Regex.Engine
import Mathlib

namespace EntityGraph

/-- What a variable of an operation stands for: the value that it is given, be it null, or else its
default, or else null. -/
def Operation.valueOf (operation : Operation) (values : Arguments) (name : String) : Value :=
  match values.lookup name with
  | some value => value
  | none => (operation.defaults.lookup name).getD .null

/-- An operation with what they stand for in the places of its variables, of which it has none
any more. -/
def Operation.substitute (operation : Operation) (values : Arguments) : Operation :=
  { operation with
    defaults := []
    selections := Selection.substituteAll (operation.valueOf values) operation.selections }

/-- A variable that is given has its value, and another one its default. -/
theorem Operation.assign_eq (operation : Operation) (values : Arguments) :
    (Reading.ofValues (values ++ operation.defaults)).assign = operation.valueOf values := by
  funext name
  show Reading.assignment (values ++ operation.defaults) name = _
  rw [Reading.assignment, List.lookup_append, valueOf]
  cases values.lookup name <;> rfl

namespace Reading

variable {r : Reading} {d d' : Document}

/-- Entering depends on the fragments alone. -/
theorem enter_congr (h : d'.fragments = d.fragments) (opened : List String) (name : String) :
    d'.enter opened name = d.enter opened name := by
  rw [Document.enter, Document.enter, Document.fragment?, Document.fragment?, h]

/-- What selections ask for depends on the fragments of a document, and not on its operations. -/
theorem within_congr (h : d'.fragments = d.fragments)
    (below? : Option (List Selection → Expansion)) (more : Nat) (opened : List String) :
    r.within d' below? more opened = r.within d below? more opened := by
  have hopening : ∀ more opened,
      openings r d' below? more opened = openings r d below? more opened := by
    intro more
    induction more with
    | zero =>
      intro opened
      funext name after
      rw [openings, openings, enter_congr h]
    | succ more ih =>
      intro opened
      funext name after
      rw [openings, openings, enter_congr h]
      simp only [within_eq, ih]
  rw [within_eq, within_eq, hopening]

theorem expandRoot_congr (h : d'.fragments = d.fragments) (ss : List Selection) :
    r.expandRoot d' ss = r.expandRoot d ss := by
  have hbelow : r.expand d' = r.expand d := by
    funext inner
    rw [expand, expand, within_congr h, h]
  rw [expandRoot, expandRoot, hbelow, within_congr h, h]

end Reading

namespace Service

variable {σ : Type} {service : Service} {source : RecordSource σ} {request : OperationRequest}
  {document : Document} {operation : Operation}

theorem prepare_eq_prepareOperation (hread : Document.read request.text = .ok document)
    (hselect : document.select request.operation = .ok operation) :
    prepare request = prepareOperation request document operation := by
  rw [prepare_eq, Outcome.bind_of_eq_ok hread, Outcome.bind_of_eq_ok hselect]

/-- Executing a request is executing the operation that it has. -/
theorem execute_eq_executeOperation [RegexLibrary] (state : σ)
    (hread : Document.read request.text = .ok document)
    (hselect : document.select request.operation = .ok operation) :
    service.execute source state request =
      service.executeOperation source state request document operation := by
  have hprepare := prepare_eq_prepareOperation hread hselect
  cases h : prepareOperation request document operation with
  | ok prepared =>
    rw [execute_of_prepare source state (hprepare.trans h), executeOperation_of_prepare state h]
  | error e =>
    rw [executeOperation, h]
    unfold execute
    split
    · next hok => cases hok.symm.trans (hprepare.trans h)
    · next he =>
      cases he.symm.trans (hprepare.trans h)
      rfl

def isAboutSchema (request : OperationRequest) (document : Document) (operation : Operation) :
    Bool :=
  match prepareOperation request document operation with
  | .ok (.schema _ _) => true
  | _ => false

/-- Operations of one type that ask for the same at their roots are prepared alike, unless they ask
about the schema. -/
theorem prepareOperation_congr {request' : OperationRequest} {document' : Document}
    {operation' : Operation} (htype : operation'.type = operation.type)
    (hasked : (Reading.ofValues (request'.values ++ operation'.defaults)).expandRoot document'
      operation'.selections =
        (Reading.ofValues (request.values ++ operation.defaults)).expandRoot document
          operation.selections)
    (hrecords : isAboutSchema request document operation = false) :
    prepareOperation request' document' operation' =
      prepareOperation request document operation := by
  rw [prepareOperation, prepareOperation]
  dsimp only
  rw [htype, hasked]
  refine Outcome.bind_congr fun kind hkind => Outcome.bind_congr fun items hitems =>
    Outcome.bind_congr fun asks hasks => ?_
  cases asks with
  | false => rfl
  | true =>
    -- About the schema the two may differ, and this operation is not.
    have hschema : ∃ asked, prepareOperation request document operation =
        .ok (.schema kind asked) :=
      ⟨_, Outcome.bind_eq_ok.mpr ⟨kind, hkind, Outcome.bind_eq_ok.mpr ⟨items, hitems,
        Outcome.bind_eq_ok.mpr ⟨true, hasks, rfl⟩⟩⟩⟩
    obtain ⟨asked, hschema⟩ := hschema
    rw [isAboutSchema, hschema] at hrecords
    cases hrecords

/-- An operation on records does the same as the one with what they stand for in the places of its
variables, executed on the fragments with the same in them and without values for variables. So
does every request that has this operation and these fragments. -/
theorem execute_substitute [RegexLibrary] (service : Service) (source : RecordSource σ) (state : σ)
    (hread : Document.read request.text = .ok document)
    (hselect : document.select request.operation = .ok operation)
    (hrecords : isAboutSchema request document operation = false) :
    let substituted := document.substitute (operation.valueOf request.values)
    let constant := operation.substitute request.values
    service.executeOperation source state { request with values := [] } substituted constant =
        service.execute source state request ∧
      ∀ (request' : OperationRequest) (document' : Document),
        Document.read request'.text = .ok document' → document'.fragments = substituted.fragments →
        document'.select request'.operation = .ok constant →
          service.execute source state request' = service.execute source state request := by
  intro substituted constant
  -- Whatever values are given then, there are no variables left to have them.
  have hasked : ∀ values, (Reading.ofValues values).expandRoot substituted constant.selections =
      (Reading.ofValues (request.values ++ operation.defaults)).expandRoot document
        operation.selections := by
    intro values
    have h := Reading.expandRoot_substitute (request.values ++ operation.defaults) values document
      operation.selections
    rwa [operation.assign_eq request.values] at h
  rw [execute_eq_executeOperation state hread hselect]
  constructor
  · rw [executeOperation, executeOperation,
      prepareOperation_congr (by rfl) (hasked _) hrecords]
  · intro request' document' hread' hfragments hselect'
    have hsame := (Reading.expandRoot_congr hfragments constant.selections).trans
      (hasked (request'.values ++ constant.defaults))
    rw [execute_eq_executeOperation state hread' hselect', executeOperation, executeOperation,
      prepareOperation_congr (by rfl) hsame hrecords]

/-- A document that places an order and shows a part of it, from the shipping method, the condition
on which the part is left out, and the defaults of variables. -/
def orderDocument (defaults : Arguments) (method condition : Literal) : Document :=
  ⟨[⟨.mutation, none, defaults, [.field "placeOrder" none
    [("order", .object [("shippingMethod", method)])] [] [.spread "Part" []]]⟩],
    [⟨"Part", [.field "shippingMethod" none [] [⟨"skip", [("if", condition)]⟩] []]⟩]⟩

def orderInVariables : OperationRequest :=
  ⟨"mutation($m:String=\"post\")\x7bplaceOrder(order:\x7bshippingMethod:$m\x7d)\x7b...Part\x7d\x7d" ++
    "fragment Part on Order\x7bshippingMethod@skip(if:$s)\x7d", none, [("s", .boolean false)]⟩

def orderInConstants : OperationRequest :=
  ⟨"mutation\x7bplaceOrder(order:\x7bshippingMethod:\"post\"\x7d)\x7b...Part\x7d\x7d" ++
    "fragment Part on Order\x7bshippingMethod@skip(if:false)\x7d", none, []⟩

/-- The text with variables is read as it should be. -/
theorem read_orderInVariables : Document.read orderInVariables.text =
    .ok (orderDocument [("m", .string "post")] (.reference "m") (.reference "s")) := by
  cbv

theorem read_orderInConstants : Document.read orderInConstants.text =
    .ok (orderDocument [] (.string "post") (.boolean false)) := by
  cbv

/-- The order is placed and shown alike in both ways. -/
theorem execute_substitute_order :
    (storefront.execute storefrontRules.source .empty orderInConstants).response.data.write =
      "\x7b\"placeOrder\":\x7b\"shippingMethod\":\"post\"\x7d\x7d" ∧
    (storefront.execute storefrontRules.source .empty orderInConstants).state.size "Order" = 1 ∧
    storefront.execute storefrontRules.source .empty orderInConstants =
      storefront.execute storefrontRules.source .empty orderInVariables := by
  refine ⟨?_, ?_, ?_⟩
  · rw [execute_eq_executeOperation Store.empty read_orderInConstants rfl]
    decide +kernel
  · rw [execute_eq_executeOperation Store.empty read_orderInConstants rfl]
    decide +kernel
  · exact (execute_substitute storefront storefrontRules.source .empty read_orderInVariables rfl
      (by decide +kernel)).2 orderInConstants _ read_orderInConstants rfl rfl

end Service

end EntityGraph
