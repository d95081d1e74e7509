import EntityGraph.Proofs.Document.Faults
import EntityGraph.Proofs.Filter.Faults
import EntityGraph.Proofs.Request.Fits
import EntityGraph.Proofs.Schema.Reachable

namespace EntityGraph

inductive SchemaError.IsAsked : SchemaError → Prop
  | rootField (root field : String) : IsAsked (.unknownRootField root field)
  | attribute (entity field : String) : IsAsked (.unknownAttribute entity field)
  | arguments (entity field : String) : IsAsked (.conflictingArguments entity field)
  | selection (entity field : String) : IsAsked (.scalarSelection entity field)

/-- A failure is about the schema only where something is asked of it that it does not have. -/
def Error.Asked (e : Error) : Prop := ∀ fault, e = .schema fault → fault.IsAsked

def Error.Unrelated (e : Error) : Prop := ∀ fault, e ≠ .schema fault

theorem Error.Unrelated.asked {e : Error} (h : e.Unrelated) : e.Asked :=
  fun fault hfault => absurd hfault (h fault)

theorem Error.unrelated_unsupportedOperation (reason : String) :
    (Error.unsupportedOperation reason).Unrelated := by
  rintro _ ⟨⟩

theorem Error.unrelated_invalidArgument (field argument reason : String) :
    (Error.invalidArgument field argument reason).Unrelated := by
  rintro _ ⟨⟩

theorem Error.asked_schema {fault : SchemaError} (h : fault.IsAsked) :
    (Error.schema fault).Asked := by
  rintro _ ⟨⟩
  exact h

open Outcome (FailsIn)

namespace Request

def IsConflict (fault : SchemaError) : Prop :=
  ∃ entity field, fault = .conflictingArguments entity field

theorem IsConflict.asked {fault : SchemaError} (h : IsConflict fault) :
    (Error.schema fault).Asked := by
  obtain ⟨entity, field, rfl⟩ := h
  exact Error.asked_schema (.arguments entity field)

/-- Nested requests fail to merge over a conflict below. -/
theorem failsIn_joinNested {x y : Option Request}
    (hmerge : ∀ n, y = some n → ∀ r : Request, FailsIn (r.merge n) IsConflict) :
    FailsIn (joinNested x y) IsConflict := by
  cases x with
  | none => exact .of_ok y
  | some r =>
    cases y with
    | none => exact .of_ok (some r)
    | some n => exact (hmerge n rfl r).map some

/-- An attribute is refused over a conflict, its own or one below. -/
theorem failsIn_add {r : Request} {a : AttributeRequest}
    (hmerge : ∀ n, a.nested = some n → ∀ r : Request, FailsIn (r.merge n) IsConflict) :
    FailsIn (r.add a) IsConflict := by
  rw [add_eq]
  refine FailsIn.map ?_ r.put
  cases r.attribute? a.name with
  | none => exact .of_ok a
  | some x =>
    rw [joinAttribute]
    split
    · exact (failsIn_joinNested hmerge).map x.withNested
    · exact .of_error ⟨_, _, rfl⟩

/-- Requests that can not be merged conflict. -/
theorem failsIn_merge (r s : Request) : FailsIn (r.merge s) IsConflict := by
  induction s using Request.induction generalizing r with
  | nested s ih =>
    rw [merge_eq]
    generalize r.withTypename s.typename = r
    -- What is added in a row conflicts only where one of them does.
    have hall : ∀ {as : List AttributeRequest} {r : Request}, (∀ a ∈ as, a ∈ s.attributes) →
        FailsIn (r.addAll as) IsConflict := by
      intro as
      induction as with
      | nil => exact fun {r} _ => .of_ok r
      | cons a as ihas =>
        intro r has
        rw [List.forall_mem_cons] at has
        rw [addAll]
        exact (failsIn_add fun n hn r => ih a has.1 n hn r).bind fun _ _ => ihas has.2
    exact hall fun _ ha => ha

end Request

theorem FilterError.unrelated (fault : FilterError) : (Error.filter fault).Unrelated := nofun

namespace Planning

variable {c : Catalog} {roots : RootFields}

section

variable {P : Error → Prop}

theorem failsIn_rejectLabel (hP : ∀ reason, P (.unsupportedOperation reason)) (name : String)
    (label : Option String) : FailsIn (rejectLabel name label) P := by
  cases label with
  | none => exact .of_ok ()
  | some label => exact .of_error (hP _)

theorem failsIn_intArgument {field argument : String}
    (hP : ∀ reason, P (.invalidArgument field argument reason)) (value : Value) :
    FailsIn (intArgument field argument value) P := by
  cases value with
  | null => exact .of_ok none
  | number n =>
    rw [intArgument]
    cases n.int64? with
    | none => exact .of_error (hP _)
    | some i => exact .of_ok (some i)
  | _ => exact .of_error (hP _)

theorem failsIn_readArgument {a : Attribute}
    (hP : ∀ argument reason, P (.invalidArgument a.name argument reason)) (scope : Scope)
    (argument : String × Value) : FailsIn (readArgument a scope argument) P := by
  rw [readArgument]
  split
  · split
    · exact .of_ok scope
    · exact (failsIn_intArgument (hP _) _).map _
  · split
    · exact .of_ok _
    · exact .of_error (hP _ _)

theorem failsIn_readWindow {a : Attribute}
    (hP : ∀ argument reason, P (.invalidArgument a.name argument reason)) (scope : Scope) :
    FailsIn (readWindow a scope) P := by
  intro err h
  obtain ⟨fault, _, rfl⟩ := Outcome.mapError_eq_error.mp h
  exact hP _ _

/-- A scalar has two faults: fields asked below it, and its filter. -/
theorem failsIn_planScalar {e : Entity} {a : Attribute}
    (hselection : P (.schema (.scalarSelection e.name a.name)))
    (hfilter : ∀ fault, P (.filter fault)) (kind : ScalarKind) (window : Option Window)
    (filter : Value) (selected : Bool) :
    FailsIn (planScalar e a kind window filter selected) P := by
  cases selected with
  | true => exact .of_error hselection
  | false =>
    refine FailsIn.bind (fun err h => ?_) fun _ _ => .of_ok _
    obtain ⟨fault, _, rfl⟩ := Outcome.mapError_eq_error.mp h
    exact hfilter fault

end

/-- On closed entities a filter fails only for itself. -/
theorem failsIn_compile {S : Entity → Prop} (hS : c.ClosedOn S) {e : Entity} (he : S e)
    (v : Value) : FailsIn (Filter.compile c e v) Error.Unrelated := by
  intro err h
  rcases Filter.compile_eq_error.mp h with ⟨_, hread⟩ | ⟨_, _, _, rfl⟩
  · obtain ⟨fault, rfl, _⟩ := Filter.error_of_closedOn hS e "" err he hread
    exact FilterError.unrelated fault
  · exact FilterError.unrelated .unsupportedShape

/-- Over a schema that covers all that it refers to, planning an attribute fails because of what is
asked. -/
theorem failsIn_planAttribute (coverage : Schema.Coverage c roots) {e : Entity}
    (he : coverage.objects e) (f : AskedField) {planInner : Entity → Except Error Request}
    (hinner : ∀ t, coverage.objects t → FailsIn (planInner t) Error.Asked) :
    FailsIn (planAttribute c e f planInner) Error.Asked := by
  rw [planAttribute_eq]
  refine FailsIn.bind ?_ fun a ha => ?_
  · intro err h
    obtain ⟨fault, hfault, rfl⟩ := Outcome.mapError_eq_error.mp h
    rw [Entity.requireAttribute] at hfault
    split at hfault
    · cases hfault
    · obtain rfl := Except.error.inj hfault
      exact Error.asked_schema (.attribute e.name f.name)
  · -- From here on only the attribute's target could be missing, and it is covered.
    have hmem : a ∈ e.attributes :=
      (Entity.attribute?_eq_some.mp (requireAttribute_eq_ok.mp (Outcome.mapError_eq_ok.mp ha))).1
    have harguments : FailsIn (readArguments a f.arguments) Error.Unrelated :=
      .foldlM fun scope argument _ =>
        failsIn_readArgument (Error.unrelated_invalidArgument _) scope argument
    refine (harguments.imp fun _ h => h.asked).bind fun scope _ => ?_
    have hwindow : FailsIn (readWindow a scope) Error.Unrelated :=
      failsIn_readWindow (Error.unrelated_invalidArgument _) scope
    refine (hwindow.imp fun _ h => h.asked).bind fun window _ => ?_
    rw [planKind]
    cases hk : a.scalarKind? with
    | some kind =>
      exact failsIn_planScalar (Error.asked_schema (.selection e.name a.name))
        (fun fault => (FilterError.unrelated fault).asked) kind window scope.filter f.selected
    | none =>
      obtain ⟨t, ht, hobject⟩ := coverage.objects_closed.refers he a hmem hk
      have hrequire : (c.require a.typeName).mapError Error.schema = .ok t :=
        Outcome.mapError_eq_ok.mpr (Catalog.require_eq_ok.mpr ht)
      have hfilter := failsIn_compile coverage.filters_closed
        (coverage.filters_of_objects he a hmem hk ht) scope.filter
      dsimp only
      rw [Outcome.bind_of_eq_ok hrequire]
      refine (hfilter.imp fun _ h => h.asked).bind fun filter _ => ?_
      split
      · exact ((hinner t hobject).map some).bind fun _ _ => .of_ok _
      · exact .of_ok _

/-- Over a schema that covers all that it refers to, planning fails because of what is asked. -/
theorem failsIn_planAll (coverage : Schema.Coverage c roots) {x : Expansion}
    (hx : x.FaultsIn Error.Unrelated) {r : Request} (hr : coverage.objects r.entity) :
    FailsIn (planAll c r x) Error.Asked := by
  -- On the expansion, for whatever request the attributes are added to.
  induction hx generalizing r with
  | done => exact .of_ok r
  | fault he => exact .of_error he.asked
  | @field head inner rest _ _ ihinner ihrest =>
    rw [planAll]
    have hlabel : FailsIn (rejectLabel head.name head.label) Error.Unrelated :=
      failsIn_rejectLabel Error.unrelated_unsupportedOperation head.name head.label
    refine (hlabel.imp fun _ h => h.asked).bind fun _ _ => ?_
    split
    · exact ihrest hr
    · have hattribute := failsIn_planAttribute coverage hr head
        fun t ht => ihinner (r := Request.new t) ht
      refine hattribute.bind fun a _ => ?_
      have hadd : FailsIn (r.add a) Request.IsConflict :=
        Request.failsIn_add fun n _ s => Request.failsIn_merge s n
      refine (hadd.mapError fun _ h => h.asked).bind fun r' hr' => ihrest ?_
      obtain ⟨z, _, _, rfl⟩ := Request.add_eq_ok.mp (Outcome.mapError_eq_ok.mp hr')
      exact hr

end Planning

end EntityGraph
