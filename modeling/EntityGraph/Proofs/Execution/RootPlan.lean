import EntityGraph.Execution.RootPlan
import EntityGraph.Proofs.Input
import EntityGraph.Proofs.Request.Faults
import EntityGraph.Proofs.Request.Order
import EntityGraph.Proofs.TypeString

namespace EntityGraph

open Outcome (FailsIn)

variable {c : Catalog} {roots : RootFields}

namespace RootPlan

theorem failsIn_readId (field : String) (value : Value) :
    FailsIn (readId field value) Error.Unrelated := by
  unfold readId
  split
  · exact .of_ok _
  · exact .of_ok _
  · exact .of_error nofun

theorem failsIn_readKey (field key : String) (value : Value) :
    FailsIn (readKey field key value) Error.Unrelated := by
  unfold readKey
  split
  · exact .of_ok _
  · exact .of_error nofun

theorem failsIn_readGiven {α : Type} {read : Value → Except Error α}
    (hread : ∀ value, FailsIn (read value) Error.Unrelated) (value : Option Value) :
    FailsIn (readGiven read value) Error.Unrelated := by
  cases value with
  | none => exact .of_ok none
  | some value => exact (hread value).map some

theorem failsIn_readKeyed (field : String) (arguments : Arguments) (key : Option String) :
    FailsIn (readKeyed field arguments key) Error.Unrelated := by
  cases key with
  | none => exact .of_ok none
  | some key => exact (failsIn_readGiven (failsIn_readKey field key) _).map _

theorem failsIn_lookupStep (field : String) (arguments : Arguments) (key : Option String) :
    FailsIn (lookupStep field arguments key) Error.Unrelated := by
  refine (failsIn_readGiven (failsIn_readId field) _).bind fun id _ => ?_
  refine (failsIn_readKeyed field arguments key).bind fun byKey _ => ?_
  split
  · exact .of_ok _
  · exact .of_ok _
  · exact .of_ok _
  · exact .of_error nofun
  · exact .of_error nofun

theorem failsIn_readPage (field : String) (arguments : Arguments) (pages : PageDefaults) :
    FailsIn (readPage field arguments pages) Error.Unrelated := by
  have hint : ∀ (argument : String) (value : Value),
      FailsIn (Planning.intArgument field argument value) Error.Unrelated :=
    fun _ => Planning.failsIn_intArgument fun _ => nofun
  refine (hint "start" _).bind fun start _ => ?_
  refine (hint "limit" _).bind fun limit _ => ?_
  intro err h
  obtain ⟨fault, _, rfl⟩ := Outcome.mapError_eq_error.mp h
  nofun

/-- The step of a root field whose types are there is planned, or its arguments are refused. -/
theorem failsIn_stepOf (coverage : Schema.Coverage c roots) {kind : RootKind} {f : RootField}
    (hf : f ∈ roots.fields kind) (arguments : Arguments) (pages : PageDefaults) :
    FailsIn (stepOf c f arguments pages).outcome Error.Unrelated := by
  obtain ⟨e, he, _, hsearch, hcreate⟩ := coverage.root hf
  -- The entity of a covered root is there.
  have hrequire : (c.require f.entity).mapError Error.schema = .ok e :=
    Outcome.mapError_eq_ok.mpr (Catalog.require_eq_ok.mpr he)
  rw [stepOf]
  cases ha : f.action with
  | lookup key => exact failsIn_lookupStep f.name arguments key
  | search =>
    show FailsIn (searchStep c f arguments pages) Error.Unrelated
    rw [searchStep, Outcome.bind_of_eq_ok hrequire]
    refine (Planning.failsIn_compile coverage.filters_closed (hsearch ha) _).bind fun _ _ => ?_
    exact (failsIn_readPage f.name arguments pages).bind fun _ _ => .of_ok _
  | create argument =>
    show FailsIn (createStep c f arguments argument).outcome Error.Unrelated
    rw [createStep]
    split
    · exact .of_error nofun
    · next value _ =>
      rw [Tracked.outcome_bind, Tracked.outcome_mapError, Schema.outcome_inputType,
        Outcome.bind_of_eq_ok hrequire, Tracked.outcome_bind]
      -- The input ends in an argument's fault, which no schema fault is.
      refine (FailsIn.imp (Input.ends_validate coverage.inputs_closed (hcreate argument ha) argument
        value) ?_).bind fun _ _ => .of_ok _
      rintro _ ⟨field, argument, reason, rfl⟩
      nofun

/-- Arguments of a root field fail only for themselves. -/
theorem failsIn_checkArguments (f : RootField) (arguments : Arguments) (pages : PageDefaults) :
    FailsIn (checkArguments f arguments pages) Error.Unrelated := by
  rw [checkArguments]
  split
  · exact .of_error nofun
  · exact .of_ok ()

/-- A plan of a root field whose request can be answered: it fits the catalog, follows what is
selected and asks for records of the field's entity. -/
structure Answerable (c : Catalog) (roots : RootFields) (kind : RootKind) (plan : RootPlan) :
    Prop where
  field : plan.field ∈ roots.fields kind
  entity : c.entity? plan.field.entity = some plan.request.entity
  fits : plan.request.Fits c
  follows : ∃ xs, plan.request.Follows xs

end RootPlan

/-- What is found under a name is registered. -/
theorem RootFields.get_eq_ok {kind : RootKind} {name : String} {f : RootField}
    (h : roots.get kind name = .ok f) : f ∈ roots.fields kind := by
  rw [get] at h
  split at h
  · next g hg =>
    obtain rfl := Except.ok.inj h
    exact List.mem_of_find?_eq_some hg
  · cases h

/-- A name that is not registered is asked for by the operation. -/
theorem RootFields.failsIn_get (kind : RootKind) (name : String) :
    FailsIn ((roots.get kind name).mapError Error.schema) Error.Asked := by
  rw [get]
  split
  · exact .of_ok _
  · exact .of_error (Error.asked_schema (.rootField kind.typeName name))

/-- Root fields of one root with one name are the same. -/
theorem RootFields.eq_of_name_eq {kind : RootKind} {f g : RootField} (hf : f ∈ roots.fields kind)
    (hg : g ∈ roots.fields kind) (h : f.name = g.name) : f = g := by
  cases kind with
  | query => exact List.inj_on_of_nodup_map roots.query_nodup hf hg h
  | mutation => exact List.inj_on_of_nodup_map roots.mutation_nodup hf hg h

/-- The type of a root field whose entity has a name that types can have is read as it is
written, so the request for the field is planned from what is asked of the entity. -/
theorem RootField.plan_returnType {f : RootField} (hname : TypeString.IsName f.entity) {e : Entity}
    (he : c.entity? f.entity = some e) (x : Expansion) :
    Planning.plan c f.returnType.text x = Planning.planAll c (Request.new e) x := by
  have htype : f.returnType.name = f.entity := by
    rw [returnType]
    split <;> rfl
  have hplain : f.returnType.IsPlain := by
    intro hlist
    rw [returnType] at hlist ⊢
    split at hlist
    · cases hlist
    · rfl
  have hparse : (TypeString.parse f.returnType.text).mapError Error.schema = .ok f.returnType :=
    Outcome.mapError_eq_ok.mpr (TypeString.parse_text (htype ▸ hname) hplain)
  have hrequire : (c.require f.returnType.name).mapError Error.schema = .ok e :=
    Outcome.mapError_eq_ok.mpr (Catalog.require_eq_ok.mpr (htype ▸ he))
  rw [Planning.plan, Outcome.bind_of_eq_ok hparse, Outcome.bind_of_eq_ok hrequire]

namespace PlannedItem

open RootPlan (Answerable)

variable {kind : RootKind} {pages : PageDefaults}

/-- Over a schema that covers all that it refers to, the plan of an item at the root fails because
of what is asked. -/
theorem failsIn_ofItem (coverage : Schema.Coverage c roots)
    (hnames : ∀ f ∈ roots.fields kind, TypeString.IsName f.entity) {item : Item}
    (hitem : (item.inner ()).FaultsIn Error.Unrelated) :
    FailsIn (ofItem c roots pages kind item).outcome Error.Asked := by
  obtain ⟨⟨name, label, arguments, selected⟩, inner⟩ := item
  rw [ofItem, Tracked.outcome_bind]
  have hlabel : FailsIn (Planning.rejectLabel name label) Error.Unrelated :=
    Planning.failsIn_rejectLabel Error.unrelated_unsupportedOperation name label
  refine (hlabel.imp fun _ h => h.asked).bind fun _ _ => ?_
  split
  · exact .of_ok _
  · simp only [Tracked.outcome_bind, Tracked.outcome_lift]
    refine (RootFields.failsIn_get kind name).bind fun f hf => ?_
    have hmem : f ∈ roots.fields kind :=
      RootFields.get_eq_ok (Outcome.mapError_eq_ok.mp hf)
    obtain ⟨e, he, hobject, _, _⟩ := coverage.root hmem
    -- The arguments are checked, the step is planned, and then what is asked of the records.
    refine ((RootPlan.failsIn_checkArguments f arguments pages).imp fun _ h => h.asked).bind
      fun _ _ => ?_
    refine ((RootPlan.failsIn_stepOf coverage hmem arguments pages).imp fun _ h => h.asked).bind
      fun _ _ => ?_
    rw [RootField.plan_returnType (hnames f hmem) he]
    exact (Planning.failsIn_planAll coverage hitem (r := Request.new e) hobject).bind
      fun _ _ => .of_ok _

/-- What the plan of a root field is made of. -/
theorem ofItem_field {item : Item} {plan : RootPlan}
    (h : (ofItem c roots pages kind item).outcome = .ok (.field plan)) :
    roots.get kind item.head.name = .ok plan.field ∧ plan.arguments = item.head.arguments ∧
      (RootPlan.stepOf c plan.field plan.arguments pages).outcome = .ok plan.step ∧
      Planning.plan c plan.field.returnType.text (item.inner ()) = .ok plan.request := by
  obtain ⟨⟨name, label, arguments, selected⟩, inner⟩ := item
  rw [ofItem, Tracked.outcome_bind] at h
  obtain ⟨_, _, h⟩ := Outcome.bind_eq_ok.mp h
  split at h
  · cases h
  · simp only [Tracked.outcome_bind, Tracked.outcome_lift] at h
    obtain ⟨f, hf, h⟩ := Outcome.bind_eq_ok.mp h
    obtain ⟨_, _, h⟩ := Outcome.bind_eq_ok.mp h
    obtain ⟨step, hstep, h⟩ := Outcome.bind_eq_ok.mp h
    obtain ⟨request, hrequest, h⟩ := Outcome.bind_eq_ok.mp h
    obtain ⟨rfl⟩ := Except.ok.inj h
    exact ⟨Outcome.mapError_eq_ok.mp hf, rfl, hstep, hrequest⟩

/-- What is planned can be answered: its field is registered and its type string is read back. -/
theorem answerable_ofItem (hnames : ∀ f ∈ roots.fields kind, TypeString.IsName f.entity)
    (coverage : Schema.Coverage c roots) {item : Item} {plan : RootPlan}
    (h : (ofItem c roots pages kind item).outcome = .ok (.field plan)) :
    Answerable c roots kind plan := by
  obtain ⟨hget, _, _, hrequest⟩ := ofItem_field h
  have hmem : plan.field ∈ roots.fields kind := RootFields.get_eq_ok hget
  obtain ⟨e, he, _, _, _⟩ := coverage.root hmem
  rw [RootField.plan_returnType (hnames plan.field hmem) he] at hrequest
  obtain ⟨hfits, hentity⟩ := Planning.fits_planAll (item.inner ())
    (Request.fits_new (Catalog.entity?_eq_some.mp he).1) hrequest
  have hfollows := Planning.follows_planAll (item.inner ()) (Request.follows_new e) hrequest
  exact ⟨hmem, hentity ▸ he, hfits, _, hfollows⟩

/-- A planned item that can be answered; the name of the root's type always can. -/
def Answerable (c : Catalog) (roots : RootFields) (kind : RootKind) : PlannedItem → Prop
  | .typename => True
  | .field plan => plan.Answerable c roots kind

/-- Fields of one name fail to merge only over what is asked. -/
theorem failsIn_combine (x y : PlannedItem) : FailsIn (combine kind x y) Error.Asked := by
  cases x with
  | typename => exact .of_ok _
  | field existing =>
    cases y with
    | typename => exact .of_ok _
    | field next =>
      rw [combine]
      split
      · exact ((Request.failsIn_merge existing.request next.request).mapError
          fun _ h => h.asked).map _
      · exact .of_error (Error.asked_schema (.arguments kind.typeName next.field.name))

theorem failsIn_addTo (next : PlannedItem) (planned : List PlannedItem) :
    FailsIn (next.addTo kind planned) Error.Asked := by
  induction planned with
  | nil => exact .of_ok _
  | cons existing rest ih =>
    rw [addTo]
    split
    · exact (failsIn_combine existing next).map _
    · exact ih.map _

/-- Two plans are combined to the first, unless both are of fields: their arguments agree then, and
their requests are merged. -/
theorem combine_cases {x y m : PlannedItem} (h : combine kind x y = .ok m) :
    m = x ∧ (x = .typename ∨ y = .typename) ∨
      ∃ existing next request, x = .field existing ∧ y = .field next ∧
        existing.arguments.same next.arguments = true ∧
        existing.request.merge next.request = .ok request ∧
        m = .field { existing with request } := by
  cases x with
  | typename => exact .inl ⟨(Except.ok.inj h).symm, .inl rfl⟩
  | field existing =>
    cases y with
    | typename => exact .inl ⟨(Except.ok.inj h).symm, .inr rfl⟩
    | field next =>
      rw [combine] at h
      split at h
      · next hsame =>
        obtain ⟨request, hmerge, rfl⟩ := Outcome.map_eq_ok.mp h
        exact .inr ⟨existing, next, request, rfl, rfl, hsame, Outcome.mapError_eq_ok.mp hmerge, rfl⟩
      · cases h

/-- Two plans of one root field are combined to one that can be answered. -/
theorem answerable_combine {x y m : PlannedItem} (hx : x.Answerable c roots kind)
    (hy : y.Answerable c roots kind) (hname : x.name = y.name) (h : combine kind x y = .ok m) :
    m.Answerable c roots kind := by
  obtain ⟨rfl, _⟩ | ⟨existing, next, request, rfl, rfl, _, hmerge, rfl⟩ := combine_cases h
  · exact hx
  · -- Two fields of one name are the same field, so that both requests are for its entity.
    have hfield : existing.field = next.field :=
      RootFields.eq_of_name_eq hx.field hy.field hname
    have hentity : existing.request.entity = next.request.entity :=
      Option.some.inj (hx.entity.symm.trans (hfield ▸ hy.entity))
    obtain ⟨xs, hxs⟩ := hx.follows
    obtain ⟨ys, hys⟩ := hy.follows
    obtain ⟨hfits, he⟩ := Request.fits_merge hx.fits hy.fits hentity hmerge
    exact ⟨hx.field, he ▸ hx.entity, hfits, _, Request.follows_merge hxs hys hmerge⟩

/-- Over a schema that covers all that it refers to, the plan of an operation fails because of what
is asked. -/
theorem failsIn_planAll (coverage : Schema.Coverage c roots)
    (hnames : ∀ f ∈ roots.fields kind, TypeString.IsName f.entity) {items : List Item}
    (hitems : ∀ item ∈ items, (item.inner ()).FaultsIn Error.Unrelated) :
    FailsIn (planAll c roots pages kind items).outcome Error.Asked := by
  rw [planAll, Tracked.outcome_foldlM]
  refine .foldlM fun planned item hitem => ?_
  rw [Tracked.outcome_bind]
  exact (failsIn_ofItem coverage hnames (hitems item hitem)).bind
    fun next _ => failsIn_addTo next planned

section Kept

variable {I : PlannedItem → Prop} (hcombine : ∀ {x y m : PlannedItem}, I x → I y →
  x.name = y.name → combine kind x y = .ok m → I m)

include hcombine

/-- An invariant of planned fields is kept by adding one, when merging keeps it. -/
theorem of_addTo {next : PlannedItem} (hnext : I next) {planned all : List PlannedItem}
    (hplanned : ∀ x ∈ planned, I x) (h : next.addTo kind planned = .ok all) : ∀ x ∈ all, I x := by
  induction planned generalizing all with
  | nil =>
    obtain rfl := Except.ok.inj h
    exact List.forall_mem_singleton.mpr hnext
  | cons existing rest ih =>
    rw [List.forall_mem_cons] at hplanned
    rw [addTo] at h
    split at h
    · next hname =>
      obtain ⟨m, hm, rfl⟩ := Outcome.map_eq_ok.mp h
      exact List.forall_mem_cons.mpr ⟨hcombine hplanned.1 hnext hname hm, hplanned.2⟩
    · obtain ⟨more, hmore, rfl⟩ := Outcome.map_eq_ok.mp h
      exact List.forall_mem_cons.mpr ⟨hplanned.1, ih hplanned.2 hmore⟩

/-- What holds of the plan of each item, and is kept by combining two plans of one name, holds of
all that is planned. -/
theorem of_planAll {items : List Item} (hitem : ∀ item ∈ items, ∀ x,
      (ofItem c roots pages kind item).outcome = .ok x → I x) {planned : List PlannedItem}
    (h : (planAll c roots pages kind items).outcome = .ok planned) : ∀ x ∈ planned, I x := by
  rw [planAll, Tracked.outcome_foldlM] at h
  refine Outcome.of_foldlM_along (I := fun _ planned => ∀ x ∈ planned, I x)
    (fun {done item after before _} hitems hbefore hafter => ?_) (by simp) h
  rw [Tracked.outcome_bind] at hafter
  obtain ⟨next, hnext, hadd⟩ := Outcome.bind_eq_ok.mp hafter
  have hmem : item ∈ items := hitems ▸ List.mem_append_cons_self
  exact of_addTo hcombine (hitem item hmem next hnext) hbefore hadd

end Kept

/-- Over a schema that covers all that it refers to, what is planned can be answered. -/
theorem answerable_planAll (coverage : Schema.Coverage c roots)
    (hnames : ∀ f ∈ roots.fields kind, TypeString.IsName f.entity) {items : List Item}
    {planned : List PlannedItem} (h : (planAll c roots pages kind items).outcome = .ok planned) :
    ∀ x ∈ planned, x.Answerable c roots kind := by
  refine of_planAll answerable_combine (fun item _ x hx => ?_) h
  cases x with
  | typename => trivial
  | field plan => exact answerable_ofItem hnames coverage hx

end PlannedItem

end EntityGraph
