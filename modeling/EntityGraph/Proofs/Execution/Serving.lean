import EntityGraph.Execution.Service
import EntityGraph.Proofs.Execution.Rendering
import EntityGraph.Proofs.Execution.RootPlan
import EntityGraph.Regex.Engine
import EntityGraph.Storefront.Roots

namespace EntityGraph

open Outcome (FailsIn)

theorem Document.failsIn_enter (d : Document) (opened : List String) (name : String) :
    FailsIn (d.enter opened name) Error.Unrelated := by
  rw [enter]
  split
  · exact .of_error nofun
  · split
    · exact .of_error nofun
    · exact .of_ok _

theorem Document.failsIn_read (text : String) : FailsIn (read text) Error.Unrelated := by
  unfold read
  split
  · exact .of_ok _
  · exact .of_error nofun

theorem Document.failsIn_select (d : Document) (name : Option String) :
    FailsIn (d.select name) Error.Unrelated := by
  unfold select
  split
  · exact .of_ok _
  · split
    · exact .of_ok _
    · exact .of_error nofun
  · exact .of_ok _
  · exact .of_error nofun

namespace Service

theorem failsIn_rootOf (type : OperationType) : FailsIn (rootOf type) Error.Unrelated := by
  cases type with
  | query => exact .of_ok _
  | mutation => exact .of_ok _
  | subscription => exact .of_error nofun

theorem failsIn_asksForSchema (items : List Item) :
    FailsIn (asksForSchema items) Error.Unrelated := by
  simp only [asksForSchema]
  split
  · exact .of_ok false
  · split
    · exact .of_ok true
    · exact .of_error nofun

/-- What an operation asks for at its root has the faults of its document and its variables only. -/
theorem faultsIn_expandRoot (values : Arguments) (d : Document) (asked : List Selection) :
    ((Reading.ofValues values).expandRoot d asked).FaultsIn Error.Unrelated :=
  Reading.faultsIn_expandRoot
    (fun directives => Reading.failsIn_skipsBy (fun _ _ _ => nofun) _ directives)
    (fun opened name => d.failsIn_enter opened name) asked

/-- Preparing an operation fails because of its text, its variables or its kind. -/
theorem failsIn_prepare (request : OperationRequest) :
    FailsIn (prepare request) Error.Unrelated := by
  refine (Document.failsIn_read request.text).bind fun document _ => ?_
  refine (document.failsIn_select request.operation).bind fun operation _ => ?_
  refine (failsIn_rootOf operation.type).bind fun kind _ => ?_
  refine (faultsIn_expandRoot _ _ _).failsIn_items.bind fun items _ => ?_
  refine (failsIn_asksForSchema items).bind fun asks _ => ?_
  cases asks with
  | true => exact .of_ok _
  | false => exact .of_ok _

/-- What an operation holds below its fields faults in nothing that concerns the schema. -/
theorem faultsIn_of_prepare {request : OperationRequest} {kind : RootKind} {items : List Item}
    (h : prepare request = .ok (.records kind items)) :
    ∀ item ∈ items, (item.inner ()).FaultsIn Error.Unrelated := by
  obtain ⟨document, _, h⟩ := Outcome.bind_eq_ok.mp h
  obtain ⟨operation, _, h⟩ := Outcome.bind_eq_ok.mp h
  obtain ⟨_, _, h⟩ := Outcome.bind_eq_ok.mp h
  obtain ⟨asked, hasked, h⟩ := Outcome.bind_eq_ok.mp h
  obtain ⟨asks, _, h⟩ := Outcome.bind_eq_ok.mp h
  cases asks with
  | true => cases h
  | false =>
    cases h
    exact fun item hitem => (faultsIn_expandRoot _ _ _).of_mem_items hasked hitem

/-- The failures of a field that is resolved: its arguments name two records, its data source
fails, or a value is not as its type says. -/
inductive IsResolution : Error → Prop
  | ambiguity (field first second : String) : IsResolution (.resolutionAmbiguity field first second)
  | source (fault : SourceError) : IsResolution (.dataSource fault)
  | null (entity field : String) : IsResolution (.nullViolation entity field)

theorem IsResolution.unrelated {e : Error} (h : IsResolution e) : e.Unrelated := by
  cases h <;> nofun

/-- Faults of a rendering are faults of resolution. -/
theorem IsResolution.of_isFault {e : Error} (h : Rendering.IsFault e) : IsResolution e := by
  cases h with
  | null entity field => exact .null entity field
  | scalar entity field found kind => exact .source _
  | record entity field found => exact .source _

theorem failsIn_dataSource {α : Type} (x : Except SourceError α) :
    FailsIn (x.mapError Error.dataSource) IsResolution := by
  cases x with
  | ok a => exact .of_ok a
  | error fault => exact .of_error (.source fault)

variable {σ : Type} {service : Service} (source : RecordSource σ)

section Resolve

variable [RegexLibrary] {plan : RootPlan}
  (hrender : Rendering.BringsRecord service.catalog plan.request)

include hrender

theorem failsIn_render (r : Record) :
    FailsIn (Rendering.render service.catalog plan.request r).outcome IsResolution :=
  ((hrender r).failsIn).imp fun _ h => .of_isFault h

theorem failsIn_renderOptional (r : Option Record) :
    FailsIn (Rendering.renderOptional service.catalog plan.request r).outcome IsResolution := by
  cases r with
  | none => exact .of_ok _
  | some r => exact failsIn_render hrender r

/-- A root field whose request can be rendered fails in no other way than resolutions do. -/
theorem failsIn_resolve (state : σ) :
    FailsIn (service.resolve source state plan).1.outcome IsResolution := by
  rw [resolve]
  cases plan.step with
  | byId id =>
    dsimp only
    rw [Tracked.outcome_bind]
    exact (failsIn_dataSource _).bind fun r _ => failsIn_renderOptional hrender r
  | byKey field key =>
    dsimp only
    rw [Tracked.outcome_bind]
    exact (failsIn_dataSource _).bind fun r _ => failsIn_renderOptional hrender r
  | ambiguous first second => exact .of_error (.ambiguity _ first second)
  | search filter page =>
    simp only [Tracked.outcome_bind, Tracked.outcome_mapM]
    refine (failsIn_dataSource _).bind fun records _ => ?_
    exact (FailsIn.mapM fun r _ => failsIn_render hrender r).bind fun _ _ => .of_ok _
  | create fields =>
    dsimp only
    rw [Tracked.outcome_bind]
    exact (failsIn_dataSource _).bind fun r _ => failsIn_render hrender r

end Resolve

def OfResolution (errors : List ResponseError) : Prop :=
  ∀ e ∈ errors, IsResolution e.error ∧ ∃ field, e.field = some field

/-- Resolving one more item adds no other errors than those of resolutions. -/
theorem ofResolution_step [RegexLibrary] {kind : RootKind} {done : Resolution σ}
    (hdone : OfResolution done.errors) {item : PlannedItem} (hitem : ∀ plan, item = .field plan →
      Rendering.BringsRecord service.catalog plan.request) :
    OfResolution (Resolution.step service source kind done item).errors := by
  cases item with
  | typename => exact hdone
  | field plan =>
    have hresolve := failsIn_resolve source (hitem plan rfl) done.state
    simp only [Resolution.step]
    split
    · exact hdone
    · next e he =>
      refine List.forall_mem_append.mpr ⟨hdone, List.forall_mem_singleton.mpr ?_⟩
      exact ⟨hresolve e he, _, rfl⟩

/-- Once planned, fields fail in resolution alone. -/
theorem ofResolution_resolveAll [RegexLibrary] {kind : RootKind} {planned : List PlannedItem}
    (hplanned : ∀ plan, .field plan ∈ planned → Rendering.BringsRecord service.catalog plan.request)
    (state : σ) : OfResolution (service.resolveAll source kind state planned).errors := by
  -- The step keeps it from any state of the resolution on.
  have hfold : ∀ done : Resolution σ, OfResolution done.errors →
      OfResolution (planned.foldl (Resolution.step service source kind) done).errors := by
    induction planned with
    | nil => exact fun _ hdone => hdone
    | cons item rest ih =>
      intro done hdone
      refine ih (fun plan hplan => hplanned plan (List.mem_cons_of_mem _ hplan)) _ ?_
      refine ofResolution_step source hdone fun plan hitem => hplanned plan ?_
      exact hitem ▸ List.mem_cons_self
  exact hfold _ (by simp [OfResolution, Resolution.start])

def FailsToPlan (service : Service) (request : OperationRequest) (e : Error) : Prop :=
  ∃ kind items, prepare request = .ok (.records kind items) ∧
    (PlannedItem.planAll service.catalog service.roots service.pages kind items).outcome = .error e

/-- What is wrong with an operation on records over a schema that can be written down: the errors
of fields are those of resolutions, and every fault of the schema is found in planning, in what is
asked. -/
structure Served (service : Service) (request : OperationRequest) (e : ResponseError) : Prop where
  resolution : ∀ field, e.field = some field → IsResolution e.error
  asked : ∀ fault, e.error = .schema fault → fault.IsAsked
  planning : ∀ fault, e.error = .schema fault → e.field = none ∧ service.FailsToPlan request e.error

/-- A refusal is served when its schema fault is one of planning. -/
theorem served_of_failed {request : OperationRequest} {err : Error}
    (h : ∀ fault, err = .schema fault → fault.IsAsked ∧ service.FailsToPlan request err) :
    ∀ e ∈ (Response.failed err).errors, Served service request e := by
  have herrors : (Response.failed err).errors = [⟨err, none⟩] := rfl
  rw [herrors, List.forall_mem_singleton]
  exact ⟨nofun, fun fault hfault => (h fault hfault).1,
    fun fault hfault => ⟨rfl, (h fault hfault).2⟩⟩

/-- Every error of a run is served, refusal or resolution. -/
theorem served_run [RegexLibrary] (coverage : Schema.Coverage service.catalog service.roots)
    {kind : RootKind} (hnames : ∀ f ∈ service.roots.fields kind, TypeString.IsName f.entity)
    {request : OperationRequest} {items : List Item}
    (hprepare : prepare request = .ok (.records kind items)) (state : σ) :
    ∀ e ∈ (service.run source state (.records kind items)).response.errors,
      Served service request e := by
  simp only [run]
  split
  · next planned hplan =>
    have hanswerable := PlannedItem.answerable_planAll coverage hnames hplan
    -- What is planned is asked of entities that the schema covers, so that it can be shown.
    have hrender : ∀ plan, .field plan ∈ planned →
        Rendering.BringsRecord service.catalog plan.request := by
      intro plan hmem
      obtain ⟨hfield, hentity, hfits, xs, hfollows⟩ := hanswerable _ hmem
      obtain ⟨e, he, hobject, _, _⟩ := coverage.root hfield
      have hsame : e = plan.request.entity := Option.some.inj (he.symm.trans hentity)
      exact Rendering.brings_render coverage.objects_closed hfits hfollows (hsame ▸ hobject)
    intro e he
    obtain ⟨hkind, _⟩ := ofResolution_resolveAll source hrender state e he
    exact ⟨fun _ _ => hkind, fun fault hfault => absurd hfault (hkind.unrelated fault),
      fun fault hfault => absurd hfault (hkind.unrelated fault)⟩
  · next err hplan =>
    have hasked := PlannedItem.failsIn_planAll coverage hnames (faultsIn_of_prepare hprepare)
      err hplan
    exact served_of_failed fun fault hfault => ⟨hasked fault hfault, kind, items, hprepare, hplan⟩

def asksAboutSchema (request : OperationRequest) : Bool :=
  match prepare request with
  | .ok (.schema _ _) => true
  | _ => false

/-- When the schema can be written down and the names of the root entities can be those of types,
every fault of the schema that an operation on records is answered with is found in planning, in
what the operation asks for, and the errors of fields are those of resolutions. -/
theorem execute_served [RegexLibrary] {text : String} (hsdl : service.sdl.outcome = .ok text)
    (hnames : ∀ f ∈ service.roots.query ++ service.roots.mutation, TypeString.IsName f.entity)
    (state : σ) {request : OperationRequest} (hrecords : asksAboutSchema request = false) :
    ∀ e ∈ (service.execute source state request).response.errors, Served service request e := by
  obtain ⟨coverage⟩ := Schema.coverage_of_print hsdl
  unfold asksAboutSchema at hrecords
  unfold execute
  cases hprepare : prepare request with
  | error err =>
    have hunrelated := failsIn_prepare request err hprepare
    exact served_of_failed fun fault hfault => absurd hfault (hunrelated fault)
  | ok operation =>
    cases operation with
    | schema kind asked =>
      rw [hprepare] at hrecords
      cases hrecords
    | records kind items =>
      refine served_run source coverage (fun f hf => hnames f ?_) hprepare state
      exact RootFields.mem_append_of_mem_fields hf

def storefront : Service := ⟨Storefront.catalog, Storefront.roots, .standard⟩

def storefrontRules : StoreRules := ⟨Storefront.catalog, [("Product", "sku")], toString⟩

def misspelledOrder : OperationRequest :=
  ⟨"\x7b order(id: 7) \x7b id custmer \x7b id \x7d \x7d \x7d", none, []⟩

/-- A misspelled field of an order is refused, with no field to blame. -/
theorem execute_misspelledOrder : ∃ fault,
    (storefront.execute storefrontRules.source ⟨[], 0⟩ misspelledOrder).response.errors =
      [⟨.schema fault, none⟩] ∧ fault.IsAsked ∧
    storefront.FailsToPlan misspelledOrder (.schema fault) := by
  have hset : ∀ e ∈ Storefront.catalog.entities, ∃ a ∈ e.attributes,
      Schema.isSettable a = true := by decide
  obtain ⟨coverage⟩ : Nonempty (Schema.Coverage Storefront.catalog Storefront.roots) :=
    Schema.coverage_of_closed Catalog.closed_storefront hset (by decide)
  obtain ⟨text, hsdl⟩ : ∃ text, storefront.sdl.outcome = .ok text :=
    Schema.print_isOk coverage .standard
  have hnames : ∀ f ∈ storefront.roots.query ++ storefront.roots.mutation,
      TypeString.IsName f.entity := by decide
  have hrecords : asksAboutSchema misspelledOrder = false := by decide +kernel
  have herrors :
      (storefront.execute storefrontRules.source ⟨[], 0⟩ misspelledOrder).response.errors =
        [⟨.schema (.unknownAttribute "Order" "custmer"), none⟩] := by decide +kernel
  have hserved := execute_served storefrontRules.source hsdl hnames ⟨[], 0⟩ hrecords _
    (herrors ▸ List.mem_singleton_self _)
  exact ⟨_, herrors, hserved.asked _ rfl, (hserved.planning _ rfl).2⟩

def nameless : Service where
  catalog := ⟨[.ofAttributes "" "" [.scalar "id" "" .id false, .scalar "sku" "" .string false]],
    by decide⟩
  roots := .ofLists [⟨"thing", "", "", .lookup none⟩] []
  pages := .standard

def namelessLookup : OperationRequest := ⟨"\x7b thing(id: 1) \x7b id \x7d \x7d", none, []⟩

def namelessRules : StoreRules := ⟨nameless.catalog, [], toString⟩

/-- The schema of an entity without a name can be written down, but a look-up of its records is
refused, as the type of its root field can not be read. -/
theorem not_served_nameless :
    (∃ text, nameless.sdl.outcome = .ok text) ∧
    (∀ f ∈ nameless.roots.query ++ nameless.roots.mutation,
      f.entity.toList.all TypeString.isNameChar = true) ∧
    asksAboutSchema namelessLookup = false ∧
    (nameless.execute namelessRules.source ⟨[], 0⟩ namelessLookup).response.errors =
      [⟨.schema (.invalidTypeString ""), none⟩] := by
  have hclosed : nameless.catalog.Closed := by
    have hall : ∀ e ∈ nameless.catalog.entities, ∀ a ∈ e.attributes,
        a.scalarKind? ≠ none := by decide
    exact fun e he a ha hk => absurd hk (hall e he a ha)
  have hset : ∀ e ∈ nameless.catalog.entities, ∃ a ∈ e.attributes,
      Schema.isSettable a = true := by decide
  obtain ⟨coverage⟩ : Nonempty (Schema.Coverage nameless.catalog nameless.roots) :=
    Schema.coverage_of_closed hclosed hset (by decide)
  exact ⟨Schema.print_isOk coverage .standard, by decide, by decide +kernel, by decide +kernel⟩

end Service

end EntityGraph
