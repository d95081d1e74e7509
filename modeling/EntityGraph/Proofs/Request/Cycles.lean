import EntityGraph.Proofs.Document.Walking
import EntityGraph.Proofs.Request.Faults
import EntityGraph.Proofs.Request.Rewriting

namespace EntityGraph

open Outcome (FailsIn)

def Error.Acyclic (e : Error) : Prop := ∀ name, e ≠ .cyclicFragment name

namespace Planning

variable {c : Catalog} {q : Request} {f : AskedField}

/-- What planning does with a field that asks for an attribute, once its arguments are read. The
selections of a field are planned as a request of their own, which the attribute is then added
with. -/
def visitKind (c : Catalog) (q : Request) (f : AskedField) (a : Attribute) (scope : Scope)
    (window : Option Window) : Except Error (Visit Request) :=
  match a.scalarKind? with
  | some kind => do
    let asked ← planScalar q.entity a kind window scope.filter f.selected
    ((q.add asked).mapError .schema).map .stay
  | none => do
    let target ← (c.require a.typeName).mapError .schema
    let filter ← Filter.compile c target scope.filter
    if f.selected then
      .ok (.below (Request.new target) fun n =>
        (q.add (.make a window filter (some n))).mapError .schema)
    else ((q.add (.make a window filter none)).mapError .schema).map .stay

def visitAttribute (c : Catalog) (q : Request) (f : AskedField) : Except Error (Visit Request) := do
  let a ← (q.entity.requireAttribute f.name).mapError .schema
  let scope ← readArguments a f.arguments
  let window ← readWindow a scope
  visitKind c q f a scope window

/-- Planning as a walk. The type's name is taken note of, whatever is selected of it. -/
def planner (c : Catalog) : Visitor Request where
  visit q f _ := do
    rejectLabel f.name f.label
    if f.name = typenameField then .ok (.stay (q.withTypename true)) else visitAttribute c q f

theorem visitKind_resume (walk : Request → Except Error Request) (a : Attribute) (scope : Scope)
    (window : Option Window) : (visitKind c q f a scope window >>= fun v => v.resume walk) =
      planKind c q.entity f (fun t => walk (.new t)) a scope window >>= fun asked =>
        (q.add asked).mapError Error.schema := by
  -- An attribute that is added with nothing below it leaves nothing to be walked.
  have hstay : ∀ asked : AttributeRequest,
      ((((q.add asked).mapError Error.schema).map Visit.stay) >>= fun v => v.resume walk) =
        (q.add asked).mapError Error.schema := by
    intro asked
    cases q.add asked <;> rfl
  rw [visitKind, planKind]
  cases a.scalarKind? with
  | some kind =>
    dsimp only
    rw [bind_assoc]
    simp only [hstay]
  | none =>
    simp only [bind_assoc]
    congr 1
    funext target
    congr 1
    funext filter
    cases f.selected with
    | false => exact hstay _
    | true =>
      simp only [↓reduceIte]
      show (walk (Request.new target) >>= _) = _
      cases walk (Request.new target) <;> rfl

/-- Visiting a field and going on below it is planning it. -/
theorem visitAttribute_resume (walk : Request → Except Error Request) :
    (visitAttribute c q f >>= fun v => v.resume walk) =
      planAttribute c q.entity f (fun t => walk (.new t)) >>= fun asked =>
        (q.add asked).mapError Error.schema := by
  rw [visitAttribute, planAttribute_eq]
  simp only [bind_assoc, visitKind_resume]

/-- What is planned is the end of a walk. -/
theorem planAll_eq_run (c : Catalog) (q : Request) (x : Expansion) :
    planAll c q x = (planner c).run q x := by
  -- On the expansion: what stands below a field is planned for a request of its own in both.
  induction x generalizing q with
  | done => rfl
  | fault e => rfl
  | field head inner rest ihinner ihrest =>
    rw [planAll, Visitor.run, planner]
    simp only [bind_assoc]
    congr 1
    funext _
    by_cases hname : head.name = typenameField
    · simp only [hname, ↓reduceIte]
      exact ihrest () _
    · simp only [hname, ↓reduceIte, ihinner, ihrest]
      rw [← bind_assoc, ← bind_assoc, visitAttribute_resume]
      rfl

theorem suits_planner (r : Reading) (d : Document) : r.Suits d none (planner c) :=
  ⟨fun _ _ _ _ => rfl, .inl rfl⟩

/-- How planning goes on after a field that asks for an attribute: below it if it selects
something. -/
inductive Continues (q : Request) (f : AskedField) : Visit Request → Prop
  | stay (s : Request) : f.selected = false → Continues q f (.stay s)
  | below (t : Request) (make : Request → AttributeRequest) : f.selected = true →
      Continues q f (.below t fun n => (q.add (make n)).mapError .schema)

theorem continues_visitKind {a : Attribute} {scope : Scope} {window : Option Window}
    {visit : Visit Request} (h : visitKind c q f a scope window = .ok visit) :
    Continues q f visit := by
  have hstay : ∀ {asked : AttributeRequest}, f.selected = false →
      ((q.add asked).mapError Error.schema).map Visit.stay = .ok visit → Continues q f visit := by
    intro asked hs h
    obtain ⟨s, _, rfl⟩ := Outcome.map_eq_ok.mp h
    exact .stay s hs
  rw [visitKind] at h
  split at h
  · obtain ⟨asked, hasked, hadd⟩ := Outcome.bind_eq_ok.mp h
    exact hstay (planScalar_eq_ok.mp hasked).1 hadd
  · obtain ⟨target, _, h⟩ := Outcome.bind_eq_ok.mp h
    obtain ⟨filter, _, h⟩ := Outcome.bind_eq_ok.mp h
    split at h
    · next hs => exact Except.ok.inj h ▸ .below (Request.new target) _ hs
    · next hs => exact hstay (Bool.eq_false_iff.mpr hs) h

theorem continues_visitAttribute {visit : Visit Request}
    (h : visitAttribute c q f = .ok visit) : Continues q f visit := by
  obtain ⟨a, _, h⟩ := Outcome.bind_eq_ok.mp h
  obtain ⟨scope, _, h⟩ := Outcome.bind_eq_ok.mp h
  obtain ⟨window, _, h⟩ := Outcome.bind_eq_ok.mp h
  exact continues_visitKind h

/-- A visit of a field, in its two forms. -/
theorem planner_eq_ok {x : Expansion} {visit : Visit Request}
    (h : (planner c).visit q f x = .ok visit) :
    f.name = typenameField ∧ visit = .stay (q.withTypename true) ∨
      f.name ≠ typenameField ∧ Continues q f visit := by
  obtain ⟨_, _, h⟩ := Outcome.bind_eq_ok.mp h
  split at h
  · next hname => exact .inl ⟨hname, (Except.ok.inj h).symm⟩
  · next hname => exact .inr ⟨hname, continues_visitAttribute h⟩

theorem acyclic_schema {α : Type} (x : Except SchemaError α) :
    FailsIn (x.mapError Error.schema) Error.Acyclic := by
  intro err h
  obtain ⟨fault, _, rfl⟩ := Outcome.mapError_eq_error.mp h
  exact nofun

/-- No filter is a cycle of fragments. -/
theorem acyclic_compile (e : Entity) (v : Value) :
    FailsIn (Filter.compile c e v) Error.Acyclic := by
  intro err h
  rcases Filter.compile_eq_error.mp h with ⟨_, hread⟩ | ⟨_, _, _, rfl⟩
  · exact Filter.failsIn_readObject (fun _ => nofun) (fun _ => nofun) e "" err hread
  · exact nofun

/-- Planning finds no fragment that spreads itself by what it does with one field. -/
theorem acyclic_visitAttribute (q : Request) (f : AskedField) :
    FailsIn (visitAttribute c q f) Error.Acyclic := by
  refine (acyclic_schema _).bind fun a _ => ?_
  refine FailsIn.bind (.foldlM fun scope argument _ =>
    failsIn_readArgument (fun _ _ => nofun) scope argument) fun scope _ => ?_
  refine (failsIn_readWindow (fun _ _ => nofun) scope).bind fun window _ => ?_
  rw [visitKind]
  split
  · exact (failsIn_planScalar nofun (fun _ => nofun) _ _ _ _).bind
      fun _ _ => (acyclic_schema _).map _
  · refine (acyclic_schema _).bind fun target _ => ?_
    refine (acyclic_compile target scope.filter).bind fun filter _ => ?_
    split
    · exact .of_ok _
    · exact (acyclic_schema _).map _

/-- Planning descends to every field that selects something, except to that of the type's name. -/
theorem descends_planner (c : Catalog) : Reading.Descends (· ≠ typenameField) (planner c) := by
  constructor
  -- It stays at the fields that select nothing, and at that of the type's name.
  · intro q f x q' h hselected
    rcases planner_eq_ok h with ⟨hname, _⟩ | ⟨_, hcontinues⟩
    · exact not_not_intro hname
    · cases hcontinues with
      | stay _ hs => cases hs.symm.trans hselected
  · intro q f x t back h
    rcases planner_eq_ok h with ⟨_, hvisit⟩ | ⟨hname, _⟩
    · cases hvisit
    · exact hname
  -- Neither visiting a field nor coming back from it is what finds a cycle.
  · intro q f x name h
    have hfails : FailsIn ((planner c).visit q f x) Error.Acyclic := by
      refine (failsIn_rejectLabel (fun _ => nofun) f.name f.label).bind fun _ _ => ?_
      split
      · exact .of_ok _
      · exact acyclic_visitAttribute q f
    exact hfails _ h name rfl
  · intro q f x t back h n name hback
    rcases planner_eq_ok h with ⟨_, hvisit⟩ | ⟨_, hcontinues⟩
    · cases hvisit
    · cases hcontinues with
      | below => exact acyclic_schema _ _ hback name rfl

end Planning

def collector : Visitor (List Item) where
  visit items f x := .ok (.stay (items ++ [⟨f, fun _ => x⟩]))

theorem run_collector (x : Expansion) (before : List Item) :
    collector.run before x = x.items.map (before ++ ·) := by
  induction x generalizing before with
  | done => exact congrArg Except.ok (List.append_nil before).symm
  | fault e => rfl
  | field head inner rest _ ihrest =>
    rw [Visitor.run, Expansion.items]
    refine (ihrest () _).trans ?_
    cases (rest ()).items with
    | error e => rfl
    | ok after => exact congrArg Except.ok (List.append_assoc before [_] after)

/-- The items of a root are what the collector gathers. -/
theorem items_eq_run (x : Expansion) : x.items = collector.run [] x := by
  rw [run_collector]
  cases x.items <;> rfl

theorem suits_collector (r : Reading) (d : Document) :
    r.Suits d (some (r.expand d)) collector :=
  ⟨fun _ _ _ _ => rfl, .inr nofun⟩

theorem descends_collector : Reading.Descends (fun _ => False) collector :=
  ⟨fun _ _ => not_false, nofun, nofun, nofun⟩

namespace Planning

open Reading (ofValues Guarded Cyclic)

theorem skips_ne_cyclic (values : Arguments) (directives : List Directive) (name : String) :
    (ofValues values).skips directives ≠ .error (.cyclicFragment name) := by
  intro h
  have hfails : FailsIn ((ofValues values).skips directives) Error.Acyclic :=
    Reading.failsIn_skipsBy (fun _ _ _ => nofun) _ directives
  exact hfails _ h name rfl

/-- Planning walks under guard. -/
theorem guarded_planBelow (c : Catalog) (d : Document) (values : Arguments) (ss : List Selection)
    (e : Entity) : Guarded (ofValues values) d (planner c) (· ≠ typenameField) ss (.new e)
      (planBelow c ((ofValues values).expand d ss) e) := by
  rw [planBelow, planAll_eq_run, Reading.expand_eq]
  exact Reading.guarded_run (suits_planner _ d) (descends_planner c) (skips_ne_cyclic values) ss _

/-- The walk for root fields is guarded and goes below none of them. -/
theorem guarded_roots (d : Document) (values : Arguments) (ss : List Selection) :
    Guarded (ofValues values) d collector (fun _ => False) ss []
      ((ofValues values).expandRoot d ss).items := by
  rw [items_eq_run, Reading.expandRoot_eq]
  exact Reading.guarded_run (suits_collector _ d) descends_collector (skips_ne_cyclic values) ss []

/-- A cycle can only come from the walk. -/
theorem plan_eq_error {c : Catalog} {type : String} {x : Expansion} {err : Error}
    (h : plan c type x = .error err) (herr : ¬ err.Acyclic) :
    ∃ e, planBelow c x e = .error err := by
  rcases Outcome.bind_eq_error.mp h with h | ⟨t, _, h⟩
  · exact absurd (acyclic_schema _ err h) herr
  · rcases Outcome.bind_eq_error.mp h with h | ⟨e, _, h⟩
    · exact absurd (acyclic_schema _ err h) herr
    · exact ⟨e, h⟩

/-- Planning selections of an entity and finding the fields at a root are walks that end, on whose
stack of open fragments none stands twice, and which end well over no fragment that spreads itself
and blame none that does not. Planning does not look below the field of the type's name, and the
fields at a root are found without looking below any; what is below each is planned with no
fragment open. -/
theorem guarded_planning (c : Catalog) (d : Document) (values : Arguments) (ss : List Selection) :
    (∀ e, Guarded (ofValues values) d (planner c) (· ≠ typenameField) ss (.new e)
      (planBelow c ((ofValues values).expand d ss) e)) ∧
    (∀ type, (Cyclic (ofValues values) d (· ≠ typenameField) ss →
        ∀ q, plan c type ((ofValues values).expand d ss) ≠ .ok q) ∧
      (¬ Cyclic (ofValues values) d (· ≠ typenameField) ss →
        ∀ name, plan c type ((ofValues values).expand d ss) ≠ .error (.cyclicFragment name))) ∧
    Guarded (ofValues values) d collector (fun _ => False) ss []
      ((ofValues values).expandRoot d ss).items ∧
    ∀ items, ((ofValues values).expandRoot d ss).items = .ok items →
      (ofValues values).Covers d (fun item name inner => item.head.name = name ∧
        item.inner () = (ofValues values).expand d inner) ss items := by
  refine ⟨guarded_planBelow c d values ss, fun type => ⟨?_, ?_⟩, guarded_roots d values ss,
    Reading.covers_expandRoot ss⟩
  · intro hcyclic q hq
    obtain ⟨_, e, _, _, hplan⟩ := plan_eq_ok.mp hq
    exact (guarded_planBelow c d values ss e).caught hcyclic q hplan
  · intro hacyclic name herr
    obtain ⟨e, hplan⟩ := plan_eq_error herr fun h => h name rfl
    exact (guarded_planBelow c d values ss e).spared hacyclic name hplan

def selfSpread : Document := ⟨[], [⟨"A", [.spread "A" []]⟩]⟩

def typenameOfSelfSpread : List Selection := [.field typenameField none [] [] [.spread "A" []]]

/-- Below the field of the type's name a fragment may spread itself, and the plan is made. -/
theorem not_caught_below_typename : ¬ ∀ (c : Catalog) (d : Document) (values : Arguments)
    (ss : List Selection) (type : String), Cyclic (ofValues values) d (fun _ => True) ss →
      ∀ q, plan c type ((ofValues values).expand d ss) ≠ .ok q := by
  intro h
  have hself : Reading.Meets (ofValues []) selfSpread (fun _ => True) [.spread "A" []] "A" :=
    .here (List.mem_singleton_self _) rfl
  have hcyclic : Cyclic (ofValues []) selfSpread (fun _ => True) typenameOfSelfSpread :=
    ⟨"A", _, .field (List.mem_singleton_self _) rfl trivial hself, rfl, hself⟩
  have hok : (plan Storefront.catalog "Order"
      ((ofValues []).expand selfSpread typenameOfSelfSpread)).isOk = true := by decide +kernel
  cases hq : plan Storefront.catalog "Order"
      ((ofValues []).expand selfSpread typenameOfSelfSpread) with
  | error e =>
    rw [hq] at hok
    cases hok
  | ok q => exact h Storefront.catalog selfSpread [] typenameOfSelfSpread "Order" hcyclic q hq

end Planning

end EntityGraph
