import EntityGraph.Proofs.Schema.Handles
import EntityGraph.Proofs.Schema.Reachable

namespace EntityGraph.Schema

variable {c : Catalog} {roots : RootFields} {types : Reachable}

inductive Needed (c : Catalog) (roots : RootFields) : TypeKind → String → Prop
  | root {f : RootField} : f ∈ roots.query ++ roots.mutation → Needed c roots .object f.entity
  | created {f : RootField} {argument : String} : f ∈ roots.query ++ roots.mutation →
      f.action = .create argument → Needed c roots .input f.entity
  | searched {f : RootField} : f ∈ roots.query ++ roots.mutation → f.action = .search →
      Needed c roots .filter f.entity
  | shown {name : String} {e : Entity} {a : Attribute} : Needed c roots .object name →
      c.entity? name = some e → a ∈ e.attributes → a.scalarKind? = none →
      Needed c roots .object a.typeName
  | given {name : String} {e : Entity} {a : Attribute} : Needed c roots .input name →
      c.entity? name = some e → a ∈ e.attributes → a.scalarKind? = none → a.isComputed = false →
      Needed c roots .input a.typeName
  | selected {name : String} {e : Entity} {a : Attribute} : Needed c roots .object name →
      c.entity? name = some e → a ∈ e.attributes → a.scalarKind? = none →
      Needed c roots .filter a.typeName
  | constrained {name : String} {e : Entity} {a : Attribute} : Needed c roots .filter name →
      c.entity? name = some e → a ∈ e.attributes → a.scalarKind? = none →
      Needed c roots .filter a.typeName

def Reachable.of (types : Reachable) : TypeKind → List Entity
  | .object => types.objects
  | .input => types.inputs
  | .filter => types.filters

def Coverage.of (coverage : Coverage c roots) : TypeKind → Entity → Prop
  | .object => coverage.objects
  | .input => coverage.inputs
  | .filter => coverage.filters

theorem isSettable_entity {a : Attribute} (hk : a.scalarKind? = none) :
    isSettable a = !a.isComputed := by
  simp [isSettable, hk]

theorem RootFields.exists_kind {f : RootField} (hf : f ∈ roots.query ++ roots.mutation) :
    ∃ kind : RootKind, f ∈ roots.fields kind := by
  rcases List.mem_append.mp hf with hf | hf
  · exact ⟨.query, hf⟩
  · exact ⟨.mutation, hf⟩

/-- What a schema needs is covered, for each way in which it comes to be needed. -/
theorem Needed.covered (coverage : Coverage c roots) {k : TypeKind} {name : String}
    (h : Needed c roots k name) : ∃ e, c.entity? name = some e ∧ coverage.of k e := by
  induction h with
  | root hf =>
    obtain ⟨kind, hf⟩ := RootFields.exists_kind hf
    obtain ⟨e, he, hobject, _⟩ := coverage.root hf
    exact ⟨e, he, hobject⟩
  | created hf ha =>
    obtain ⟨kind, hf⟩ := RootFields.exists_kind hf
    obtain ⟨e, he, _, _, hinput⟩ := coverage.root hf
    exact ⟨e, he, hinput _ ha⟩
  | searched hf ha =>
    obtain ⟨kind, hf⟩ := RootFields.exists_kind hf
    obtain ⟨e, he, _, hfilter, _⟩ := coverage.root hf
    exact ⟨e, he, hfilter ha⟩
  -- One rule for each way to need a type from one that is needed.
  | shown _ he ha hk ih =>
    obtain ⟨e', he', hcovered⟩ := ih
    obtain rfl := Option.some.inj (he'.symm.trans he)
    exact coverage.objects_closed.refers hcovered _ ha hk
  | given _ he ha hk hstored ih =>
    obtain ⟨e', he', hcovered⟩ := ih
    obtain rfl := Option.some.inj (he'.symm.trans he)
    have hset := (isSettable_entity hk).trans (congrArg not hstored)
    exact (closedInputs_iff.mp coverage.inputs_closed _ hcovered).2 _ ha hset hk
  | selected _ he ha hk ih =>
    obtain ⟨e', he', hcovered⟩ := ih
    obtain rfl := Option.some.inj (he'.symm.trans he)
    obtain ⟨t, ht, _⟩ := coverage.objects_closed.refers hcovered _ ha hk
    exact ⟨t, ht, coverage.filters_of_objects hcovered _ ha hk ht⟩
  | constrained _ he ha hk ih =>
    obtain ⟨e', he', hcovered⟩ := ih
    obtain rfl := Option.some.inj (he'.symm.trans he)
    exact coverage.filters_closed.refers hcovered _ ha hk

/-- Every entity that a schema needs is there, and the input types among what it needs have fields:
some attribute can be set. -/
structure Complete (c : Catalog) (roots : RootFields) : Prop where
  known : ∀ {k name}, Needed c roots k name → ∃ e, c.entity? name = some e
  settable : ∀ {name e}, Needed c roots .input name → c.entity? name = some e →
    ∃ a ∈ e.attributes, isSettable a = true

def NeededEntity (c : Catalog) (roots : RootFields) (k : TypeKind) (e : Entity) : Prop :=
  Needed c roots k e.name ∧ c.entity? e.name = some e

theorem Needed.entity {k : TypeKind} {name : String} (h : Needed c roots k name) {e : Entity}
    (he : c.entity? name = some e) : NeededEntity c roots k e := by
  obtain rfl := (Catalog.entity?_eq_some.mp he).2
  exact ⟨h, he⟩

/-- When all that a schema needs is there, this covers what its root fields and types refer to. -/
def Complete.coverage (hc : Complete c roots) : Coverage c roots where
  objects := NeededEntity c roots .object
  inputs := NeededEntity c roots .input
  filters := NeededEntity c roots .filter
  objects_closed := by
    refine ⟨fun he => (Catalog.entity?_eq_some.mp he.2).1, fun he a ha hk => ?_⟩
    have hneeded := he.1.shown he.2 ha hk
    obtain ⟨t, ht⟩ := hc.known hneeded
    exact ⟨t, ht, hneeded.entity ht⟩
  inputs_closed := by
    refine closedInputs_iff.mpr fun e he => ⟨hc.settable he.1 he.2, fun a ha hset hk => ?_⟩
    -- Of an input only what is stored is given.
    have hstored : a.isComputed = false := by simpa [isSettable_entity hk] using hset
    have hneeded := he.1.given he.2 ha hk hstored
    obtain ⟨t, ht⟩ := hc.known hneeded
    exact ⟨t, ht, hneeded.entity ht⟩
  filters_closed := by
    refine ⟨fun he => (Catalog.entity?_eq_some.mp he.2).1, fun he a ha hk => ?_⟩
    have hneeded := he.1.constrained he.2 ha hk
    obtain ⟨t, ht⟩ := hc.known hneeded
    exact ⟨t, ht, hneeded.entity ht⟩
  filters_of_objects := fun he _ ha hk _ ht => (he.1.selected he.2 ha hk).entity ht
  root := by
    intro kind f hf
    have hf := RootFields.mem_append_of_mem_fields hf
    obtain ⟨e, he⟩ := hc.known (Needed.root hf)
    exact ⟨e, he, (Needed.root hf).entity he, fun ha => (Needed.searched hf ha).entity he,
      fun _ ha => (Needed.created hf ha).entity he⟩

/-- The least coverage is what is needed. -/
theorem Complete.coverage_of (hc : Complete c roots) (k : TypeKind) :
    hc.coverage.of k = NeededEntity c roots k := by
  cases k <;> rfl

theorem complete_of_coverage (coverage : Coverage c roots) : Complete c roots where
  known h := by
    obtain ⟨e, he, _⟩ := h.covered coverage
    exact ⟨e, he⟩
  settable h he := by
    obtain ⟨e', he', hcovered⟩ := h.covered coverage
    obtain rfl := Option.some.inj (he'.symm.trans he)
    exact (closedInputs_iff.mp coverage.inputs_closed _ hcovered).1

theorem coverage_of_reachable_of (h : (reachable c roots).outcome = .ok types) :
    ∃ coverage : Coverage c roots, ∀ k e, coverage.of k e ↔ e ∈ types.of k := by
  obtain ⟨coverage, hobjects, hinputs, hfilters⟩ := coverage_of_reachable h
  refine ⟨coverage, fun k => ?_⟩
  cases k with
  | object => exact hobjects
  | input => exact hinputs
  | filter => exact hfilters

/-- A schema that covers all that it refers to reaches types that it covers. -/
theorem reachable_isOk_of (coverage : Coverage c roots) :
    ∃ types, (reachable c roots).outcome = .ok types ∧ ∀ k, ∀ e ∈ types.of k, coverage.of k e := by
  obtain ⟨types, htypes, hobjects, hinputs, hfilters⟩ := reachable_isOk coverage
  refine ⟨types, htypes, fun k => ?_⟩
  cases k with
  | object => exact hobjects
  | input => exact hinputs
  | filter => exact hfilters

/-- The types that a schema reaches are there when all that it needs is, and only then. -/
theorem reachable_isOk_iff :
    (∃ types, (reachable c roots).outcome = .ok types) ↔ Complete c roots := by
  constructor
  · rintro ⟨types, htypes⟩
    obtain ⟨coverage, _⟩ := coverage_of_reachable htypes
    exact complete_of_coverage coverage
  · intro hc
    obtain ⟨types, htypes, _⟩ := reachable_isOk_of hc.coverage
    exact ⟨types, htypes⟩

/-- The entities of the types that a schema reaches are those that it needs. -/
theorem mem_reachable_iff (h : (reachable c roots).outcome = .ok types) {k : TypeKind}
    {e : Entity} : e ∈ types.of k ↔ NeededEntity c roots k e := by
  constructor
  · intro he
    have hc := reachable_isOk_iff.mp ⟨types, h⟩
    obtain ⟨types', h', hall⟩ := reachable_isOk_of hc.coverage
    obtain rfl := Except.ok.inj (h.symm.trans h')
    exact hc.coverage_of k ▸ hall k e he
  · rintro ⟨hneeded, he⟩
    obtain ⟨coverage, hcoverage⟩ := coverage_of_reachable_of h
    obtain ⟨e', he', hcovered⟩ := hneeded.covered coverage
    obtain rfl := Option.some.inj (he'.symm.trans he)
    exact (hcoverage k _).mp hcovered

end EntityGraph.Schema
