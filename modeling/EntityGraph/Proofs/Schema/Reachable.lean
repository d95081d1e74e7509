import EntityGraph.Proofs.Schema
import EntityGraph.Schema.Printer

namespace EntityGraph

theorem RootFields.mem_append_of_mem_fields {roots : RootFields} {kind : RootKind} {f : RootField}
    (hf : f ∈ roots.fields kind) : f ∈ roots.query ++ roots.mutation := by
  cases kind with
  | query => exact List.mem_append_left _ hf
  | mutation => exact List.mem_append_right _ hf

namespace Schema

variable {c : Catalog}

def Names (c : Catalog) (entities : List Entity) (name : String) : Prop :=
  ∃ e ∈ entities, c.entity? name = some e

theorem Names.mem {entities : List Entity} {name : String} (h : Names c entities name)
    {e : Entity} (he : c.entity? name = some e) : e ∈ entities := by
  obtain ⟨d, hd, hname⟩ := h
  exact Option.some.inj (hname.symm.trans he) ▸ hd

section Steps

variable {next : Entity → Tracked SchemaError (List String)} {name : String} {e : Entity}
  {stack : List String} {visited : List Entity}

theorem walk_unknown (h : c.entity? name = none) :
    walk c next (name :: stack) visited = Tracked.fail (.unknownEntity name) := by
  rw [walk]
  split
  · rfl
  · next hfound => cases h.symm.trans hfound

theorem walk_seen (h : c.entity? name = some e)
    (hseen : (visited.map Entity.name).contains e.name = true) :
    walk c next (name :: stack) visited = walk c next stack visited := by
  rw [walk]
  split
  · next hnone => cases hnone.symm.trans h
  · next e' hfound =>
    obtain rfl := Option.some.inj (h.symm.trans hfound)
    rw [dif_pos hseen]

/-- A new entity is kept, and its targets go on top of the stack. -/
theorem walk_new (h : c.entity? name = some e)
    (hnew : ¬ (visited.map Entity.name).contains e.name = true) :
    walk c next (name :: stack) visited =
      next e >>= fun found => walk c next (found.reverse ++ stack) (visited ++ [e]) := by
  rw [walk]
  split
  · next hnone => cases hnone.symm.trans h
  · next e' hfound =>
    obtain rfl := Option.some.inj (h.symm.trans hfound)
    rw [dif_neg hnew]

end Steps

/-- A walk ends with all that it had visited and all that was on its stack, and from everything
that it visited on the way with all that is found there. -/
theorem walk_eq_ok {next : Entity → Tracked SchemaError (List String)} {stack : List String}
    {visited result : List Entity} (hv : ∀ e ∈ visited, e ∈ c.entities)
    (h : (walk c next stack visited).outcome = .ok result) :
    visited ⊆ result ∧ (∀ name ∈ stack, Names c result name) ∧
      ∀ e ∈ result, e ∈ visited ∨ e ∈ c.entities ∧
        ∃ found, (next e).outcome = .ok found ∧ ∀ name ∈ found, Names c result name := by
  induction stack, visited using walk.induct c with
  | case1 visited =>
    rw [walk] at h
    obtain rfl := Except.ok.inj h
    exact ⟨List.Subset.refl _, by simp, fun e he => Or.inl he⟩
  | case2 name stack visited hnone =>
    rw [walk_unknown hnone] at h
    cases h
  | case3 name stack visited e hfound hseen ih =>
    rw [walk_seen hfound hseen] at h
    obtain ⟨hsub, hstack, hall⟩ := ih hv h
    refine ⟨hsub, List.forall_mem_cons.mpr ⟨?_, hstack⟩, hall⟩
    -- The entity was visited under its name, which is that of no other one.
    obtain ⟨d, hd, hname⟩ := List.mem_map.mp (List.contains_iff_mem.mp hseen)
    have hsame : c.entity? name = some d := by
      rw [Catalog.entity?_eq_some]
      exact ⟨hv d hd, hname.trans (Catalog.entity?_eq_some.mp hfound).2⟩
    exact ⟨d, hsub hd, hsame⟩
  | case4 name stack visited e hfound hnew ih =>
    have hmem := (Catalog.entity?_eq_some.mp hfound).1
    rw [walk_new hfound hnew, Tracked.outcome_bind] at h
    obtain ⟨found, hnext, h⟩ := Outcome.bind_eq_ok.mp h
    obtain ⟨hsub, hstack, hall⟩ := ih found
      (List.forall_mem_append.mpr ⟨hv, List.forall_mem_singleton.mpr hmem⟩) h
    have he : e ∈ result := hsub (List.mem_append_right _ (List.mem_singleton_self e))
    rw [List.forall_mem_append] at hstack
    refine ⟨fun d hd => hsub (List.mem_append_left _ hd),
      List.forall_mem_cons.mpr ⟨⟨e, he, hfound⟩, hstack.2⟩, fun d hd => ?_⟩
    rcases hall d hd with hd | hd
    · rcases List.mem_append.mp hd with hd | hd
      · exact Or.inl hd
      · obtain rfl := List.mem_singleton.mp hd
        exact Or.inr ⟨hmem, found, hnext, fun name hname =>
          hstack.1 name (List.mem_reverse.mpr hname)⟩
    · exact Or.inr hd

/-- A walk over entities that lead to one another ends. -/
theorem walk_isOk {S : Entity → Prop} {next : Entity → Tracked SchemaError (List String)}
    (hnext : ∀ e, S e → ∃ found, (next e).outcome = .ok found ∧
      ∀ name ∈ found, ∃ t, c.entity? name = some t ∧ S t) {stack : List String}
    {visited : List Entity} (hstack : ∀ name ∈ stack, ∃ e, c.entity? name = some e ∧ S e)
    (hv : ∀ e ∈ visited, S e) :
    ∃ result, (walk c next stack visited).outcome = .ok result ∧ ∀ e ∈ result, S e := by
  -- As the walk goes: the stack holds names of such entities only, and so does what is found.
  induction stack, visited using walk.induct c with
  | case1 visited =>
    rw [walk]
    exact ⟨visited, rfl, hv⟩
  | case2 name stack visited hnone =>
    obtain ⟨e, he, _⟩ := hstack name List.mem_cons_self
    cases hnone.symm.trans he
  | case3 name stack visited e hfound hseen ih =>
    rw [List.forall_mem_cons] at hstack
    rw [walk_seen hfound hseen]
    exact ih hstack.2 hv
  | case4 name stack visited e hfound hnew ih =>
    rw [List.forall_mem_cons] at hstack
    obtain ⟨d, hd, hs⟩ := hstack.1
    obtain rfl := Option.some.inj (hfound.symm.trans hd)
    obtain ⟨found, hok, hnames⟩ := hnext _ hs
    rw [walk_new hfound hnew, Tracked.outcome_bind, Outcome.bind_of_eq_ok hok]
    refine ih found (List.forall_mem_append.mpr ⟨fun name hname => ?_, hstack.2⟩)
      (List.forall_mem_append.mpr ⟨hv, List.forall_mem_singleton.mpr hs⟩)
    exact hnames name (List.mem_reverse.mp hname)

theorem mem_targets {attributes : List Attribute} {a : Attribute} (ha : a ∈ attributes)
    (hk : a.scalarKind? = none) : a.typeName ∈ targets attributes :=
  List.mem_map_of_mem (List.mem_filter.mpr ⟨ha, by simp [Attribute.isScalar, hk]⟩)

theorem of_mem_targets {attributes : List Attribute} {name : String}
    (h : name ∈ targets attributes) : ∃ a ∈ attributes, a.scalarKind? = none ∧ a.typeName = name := by
  obtain ⟨a, ha, rfl⟩ := List.mem_map.mp h
  obtain ⟨hmem, hscalar⟩ := List.mem_filter.mp ha
  exact ⟨a, hmem, by simpa [Attribute.isScalar] using hscalar, rfl⟩

theorem objectTargets_eq_ok {e : Entity} {found : List String}
    (h : (objectTargets c e).outcome = .ok found) : found = targets e.attributes := by
  obtain ⟨_, _, h⟩ := Outcome.bind_eq_ok.mp (Tracked.outcome_bind _ _ ▸ h)
  exact (Except.ok.inj h).symm

theorem filterTargets_eq_ok {e : Entity} {found : List String}
    (h : (filterTargets c e).outcome = .ok found) : found = targets e.attributes := by
  obtain ⟨_, _, h⟩ := Outcome.bind_eq_ok.mp (Tracked.outcome_bind _ _ ▸ h)
  exact (Except.ok.inj h).symm

theorem inputTargets_eq_ok {e : Entity} {found : List String}
    (h : (inputTargets c e).outcome = .ok found) :
    (∃ fields, (inputFields c e).outcome = .ok fields) ∧
      found = targets (e.attributes.filter isSettable) := by
  obtain ⟨fields, hfields, h⟩ := Outcome.bind_eq_ok.mp (Tracked.outcome_bind _ _ ▸ h)
  exact ⟨⟨fields, hfields⟩, (Except.ok.inj h).symm⟩

/-- Entities whose input types have fields, with all the entities that these fields take. -/
def ClosedInputs (c : Catalog) (S : Entity → Prop) : Prop :=
  ∀ e, S e → ∃ fields, (inputFields c e).outcome = .ok fields ∧
    ∀ f ∈ fields, ∀ t, f.target = .object t → S t

/-- The entities whose output, input and filter types a schema covers. They have all that its root
fields and its types refer to. -/
structure Coverage (c : Catalog) (roots : RootFields) where
  objects : Entity → Prop
  inputs : Entity → Prop
  filters : Entity → Prop
  objects_closed : c.ClosedOn objects
  inputs_closed : ClosedInputs c inputs
  filters_closed : c.ClosedOn filters
  filters_of_objects : ∀ {e}, objects e → ∀ a ∈ e.attributes, a.scalarKind? = none →
    ∀ {t}, c.entity? a.typeName = some t → filters t
  root : ∀ {kind f}, f ∈ roots.fields kind → ∃ e, c.entity? f.entity = some e ∧ objects e ∧
    (f.action = .search → filters e) ∧ ∀ argument, f.action = .create argument → inputs e

/-- A walk that ends has closed what it kept. -/
theorem closedOn_of_walk {next : Entity → Tracked SchemaError (List String)}
    (hnext : ∀ {e found}, (next e).outcome = .ok found → found = targets e.attributes)
    {stack : List String} {result : List Entity}
    (h : (walk c next stack []).outcome = .ok result) : c.ClosedOn (· ∈ result) := by
  obtain ⟨_, _, hall⟩ := walk_eq_ok (by simp) h
  refine ⟨fun he => ?_, fun {e} he a ha hk => ?_⟩
  · exact ((hall _ he).resolve_left List.not_mem_nil).1
  · obtain ⟨_, found, hfound, hnames⟩ := (hall e he).resolve_left List.not_mem_nil
    obtain ⟨t, ht, hname⟩ := hnames a.typeName (hnext hfound ▸ mem_targets ha hk)
    exact ⟨t, hname, ht⟩

theorem closedInputs_of_walk {stack : List String} {result : List Entity}
    (h : (walk c (inputTargets c) stack []).outcome = .ok result) :
    ClosedInputs c (· ∈ result) := by
  obtain ⟨_, _, hall⟩ := walk_eq_ok (by simp) h
  intro e he
  obtain ⟨_, found, hfound, hnames⟩ := (hall e he).resolve_left List.not_mem_nil
  obtain ⟨⟨fields, hfields⟩, rfl⟩ := inputTargets_eq_ok hfound
  refine ⟨fields, hfields, fun f hf t ht => ?_⟩
  obtain ⟨a, ha, hset, hk, hname⟩ := target_of_inputFields hfields hf ht
  exact (hnames a.typeName (mem_targets (List.mem_filter.mpr ⟨ha, hset⟩) hk)).mem hname

/-- What a root field needs, by its action. -/
theorem rootTypes_eq_ok {f : RootField} {types : RootTypes}
    (h : (rootTypes c f).outcome = .ok types) : f.entity ∈ types.objects ∧
      (f.action = .search → f.entity ∈ types.filters) ∧
      ∀ argument, f.action = .create argument → f.entity ∈ types.inputs := by
  obtain ⟨_, _, h⟩ := Outcome.bind_eq_ok.mp (Tracked.outcome_bind _ _ ▸ h)
  cases ha : f.action with
  | lookup key =>
    rw [ha] at h
    obtain rfl := Except.ok.inj h
    simp
  | search =>
    rw [ha] at h
    obtain ⟨_, _, h⟩ := Outcome.bind_eq_ok.mp (Tracked.outcome_bind _ _ ▸ h)
    obtain rfl := Except.ok.inj h
    simp
  | create argument =>
    rw [ha] at h
    obtain ⟨_, _, h⟩ := Outcome.bind_eq_ok.mp (Tracked.outcome_bind _ _ ▸ h)
    obtain rfl := Except.ok.inj h
    simp

/-- The types that a schema reaches cover all that its root fields and its types refer to. -/
theorem coverage_of_reachable {roots : RootFields} {types : Reachable}
    (h : (reachable c roots).outcome = .ok types) : ∃ coverage : Coverage c roots,
      (∀ e, coverage.objects e ↔ e ∈ types.objects) ∧
      (∀ e, coverage.inputs e ↔ e ∈ types.inputs) ∧
      ∀ e, coverage.filters e ↔ e ∈ types.filters := by
  simp only [reachable, Tracked.outcome_bind, Tracked.outcome_mapM] at h
  obtain ⟨rows, hrows, h⟩ := Outcome.bind_eq_ok.mp h
  obtain ⟨objects, hobjects, h⟩ := Outcome.bind_eq_ok.mp h
  obtain ⟨inputs, hinputs, h⟩ := Outcome.bind_eq_ok.mp h
  obtain ⟨filters, hfilters, h⟩ := Outcome.bind_eq_ok.mp h
  obtain rfl := Except.ok.inj h
  obtain ⟨_, hobjectNames, _⟩ := walk_eq_ok (by simp) hobjects
  obtain ⟨_, hinputNames, _⟩ := walk_eq_ok (by simp) hinputs
  obtain ⟨_, hfilterNames, _⟩ := walk_eq_ok (by simp) hfilters
  -- Each walk is closed by itself; filters are needed by the objects, and the roots by all three.
  refine ⟨{ objects := (· ∈ objects), inputs := (· ∈ inputs), filters := (· ∈ filters)
            objects_closed := closedOn_of_walk objectTargets_eq_ok hobjects
            inputs_closed := closedInputs_of_walk hinputs
            filters_closed := closedOn_of_walk filterTargets_eq_ok hfilters
            filters_of_objects := ?_, root := ?_ },
    fun _ => List.mem_mergeSort.symm, fun _ => List.mem_mergeSort.symm,
    fun _ => List.mem_mergeSort.symm⟩
  · intro e he a ha hk t ht
    have hname : a.typeName ∈ objects.flatMap fun e => targets e.attributes :=
      List.mem_flatMap.mpr ⟨e, he, mem_targets ha hk⟩
    exact (hfilterNames a.typeName (List.mem_reverse.mpr (List.mem_append_right _ hname))).mem ht
  · intro kind f hf
    obtain ⟨row, hrow, hfrow⟩ := Outcome.exists_mem_right (Outcome.mapM_eq_ok.mp hrows)
      (RootFields.mem_append_of_mem_fields hf)
    obtain ⟨hobject, hfilter, hinput⟩ := rootTypes_eq_ok hfrow
    obtain ⟨e, he, hname⟩ := hobjectNames f.entity
      (List.mem_reverse.mpr (List.mem_flatMap.mpr ⟨row, hrow, hobject⟩))
    refine ⟨e, hname, he, fun hs => ?_, fun argument hc => ?_⟩
    · exact (hfilterNames f.entity (List.mem_reverse.mpr (List.mem_append_left _
        (List.mem_flatMap.mpr ⟨row, hrow, hfilter hs⟩)))).mem hname
    · exact (hinputNames f.entity (List.mem_reverse.mpr
        (List.mem_flatMap.mpr ⟨row, hrow, hinput argument hc⟩))).mem hname

/-- A schema that can be written down covers all that it refers to. -/
theorem coverage_of_print {roots : RootFields} {pages : PageDefaults} {text : String}
    (h : (print c roots pages).outcome = .ok text) : Nonempty (Coverage c roots) := by
  rw [print, Tracked.outcome_bind] at h
  obtain ⟨_, hblocks, _⟩ := Outcome.bind_eq_ok.mp h
  rw [blocks, Tracked.outcome_bind] at hblocks
  obtain ⟨types, htypes, _⟩ := Outcome.bind_eq_ok.mp hblocks
  obtain ⟨coverage, _⟩ := coverage_of_reachable htypes
  exact ⟨coverage⟩

section Walks

variable {S : Entity → Prop}

/-- Closure under settable attributes, told without the schema. -/
theorem closedInputs_iff : ClosedInputs c S ↔ ∀ e, S e →
    (∃ a ∈ e.attributes, isSettable a = true) ∧ ∀ a ∈ e.attributes, isSettable a = true →
      a.scalarKind? = none → ∃ t, c.entity? a.typeName = some t ∧ S t := by
  refine forall₂_congr fun e he => ⟨?_, ?_⟩
  · rintro ⟨fields, hfields, htargets⟩
    obtain ⟨hsome, hall⟩ := inputFields_eq_ok.mp hfields
    refine ⟨hsome, fun a ha hset hk => ?_⟩
    obtain ⟨f, hf, hfield⟩ := Outcome.exists_mem_right hall (List.mem_filter.mpr ⟨ha, hset⟩)
    rw [inputField_entity hk] at hfield
    obtain ⟨t, ht, rfl⟩ := Outcome.map_eq_ok.mp hfield
    exact ⟨t, Catalog.require_eq_ok.mp ht, htargets _ hf t rfl⟩
  · rintro ⟨hsome, hrefers⟩
    -- Conversely the fields can be read, as each attribute refers to something.
    have hread : ∀ a ∈ e.attributes.filter isSettable, ∃ f, (inputField c a).outcome = .ok f := by
      intro a ha
      obtain ⟨hmem, hset⟩ := List.mem_filter.mp ha
      refine inputField_isOk.mpr fun hk => ?_
      obtain ⟨t, ht, _⟩ := hrefers a hmem hset hk
      exact ⟨t, ht⟩
    obtain ⟨fields, hfields⟩ := Outcome.mapM_isOk.mpr hread
    have hok : (inputFields c e).outcome = .ok fields :=
      inputFields_eq_ok.mpr ⟨hsome, Outcome.mapM_eq_ok.mp hfields⟩
    refine ⟨fields, hok, fun f hf t ht => ?_⟩
    obtain ⟨a, ha, hset, hk, hname⟩ := target_of_inputFields hok hf ht
    obtain ⟨t', ht', hS⟩ := hrefers a ha hset hk
    exact Option.some.inj (ht'.symm.trans hname) ▸ hS

theorem fields_of_closedOn (hS : c.ClosedOn S) {e : Entity} (he : S e) :
    (∃ fields, (objectFields c e).outcome = .ok fields) ∧
      ∃ fields, (filterFields c e).outcome = .ok fields := by
  have hrefers : ∀ a ∈ e.attributes, a.scalarKind? = none → ∃ t, c.entity? a.typeName = some t := by
    intro a ha hk
    obtain ⟨t, ht, _⟩ := hS.refers he a ha hk
    exact ⟨t, ht⟩
  exact ⟨objectFields_isOk.mpr hrefers, filterFields_isOk.mpr hrefers⟩

theorem targets_of_closedOn (hS : c.ClosedOn S) {e : Entity} (he : S e) :
    ∀ name ∈ targets e.attributes, ∃ t, c.entity? name = some t ∧ S t := by
  intro name hname
  obtain ⟨a, ha, hk, rfl⟩ := of_mem_targets hname
  exact hS.refers he a ha hk

/-- On a closed set no object type fails. -/
theorem objectTargets_isOk (hS : c.ClosedOn S) (e : Entity) (he : S e) :
    ∃ found, (objectTargets c e).outcome = .ok found ∧
      ∀ name ∈ found, ∃ t, c.entity? name = some t ∧ S t := by
  obtain ⟨⟨fields, hfields⟩, _⟩ := fields_of_closedOn hS he
  refine ⟨targets e.attributes, ?_, targets_of_closedOn hS he⟩
  rw [objectTargets, Tracked.outcome_bind, Outcome.bind_of_eq_ok hfields]
  rfl

theorem filterTargets_isOk (hS : c.ClosedOn S) (e : Entity) (he : S e) :
    ∃ found, (filterTargets c e).outcome = .ok found ∧
      ∀ name ∈ found, ∃ t, c.entity? name = some t ∧ S t := by
  obtain ⟨_, fields, hfields⟩ := fields_of_closedOn hS he
  refine ⟨targets e.attributes, ?_, targets_of_closedOn hS he⟩
  rw [filterTargets, Tracked.outcome_bind, Outcome.bind_of_eq_ok hfields]
  rfl

/-- On a closed set no input type fails. -/
theorem inputTargets_isOk (hS : ClosedInputs c S) (e : Entity) (he : S e) :
    ∃ found, (inputTargets c e).outcome = .ok found ∧
      ∀ name ∈ found, ∃ t, c.entity? name = some t ∧ S t := by
  obtain ⟨_, hrefers⟩ := closedInputs_iff.mp hS e he
  obtain ⟨fields, hfields, _⟩ := hS e he
  refine ⟨targets (e.attributes.filter isSettable), ?_, fun name hname => ?_⟩
  · rw [inputTargets, Tracked.outcome_bind, Outcome.bind_of_eq_ok hfields]
    rfl
  · obtain ⟨a, ha, hk, rfl⟩ := of_mem_targets hname
    obtain ⟨hmem, hset⟩ := List.mem_filter.mp ha
    exact hrefers a hmem hset hk

end Walks

structure RootTypes.Covered {roots : RootFields} (coverage : Coverage c roots) (types : RootTypes) :
    Prop where
  objects : ∀ name ∈ types.objects, ∃ e, c.entity? name = some e ∧ coverage.objects e
  inputs : ∀ name ∈ types.inputs, ∃ e, c.entity? name = some e ∧ coverage.inputs e
  filters : ∀ name ∈ types.filters, ∃ e, c.entity? name = some e ∧ coverage.filters e

section Coverage

variable {roots : RootFields} (coverage : Coverage c roots)

include coverage

theorem rootTypes_isOk {kind : RootKind} {f : RootField} (hf : f ∈ roots.fields kind) :
    ∃ types, (rootTypes c f).outcome = .ok types ∧ types.Covered coverage := by
  obtain ⟨e, he, hobject, hsearch, hcreate⟩ := coverage.root hf
  have hrequire : c.require f.entity = .ok e := Catalog.require_eq_ok.mpr he
  have hname : ∀ {S : Entity → Prop}, S e → ∀ name ∈ [f.entity],
      ∃ e, c.entity? name = some e ∧ S e := fun hs =>
    List.forall_mem_singleton.mpr ⟨e, he, hs⟩
  rw [rootTypes, Tracked.outcome_bind, outcome_objectType, Outcome.bind_of_eq_ok hrequire]
  cases ha : f.action with
  | lookup key => exact ⟨_, rfl, hname hobject, by simp, by simp⟩
  | search =>
    dsimp only
    rw [Tracked.outcome_bind, outcome_filterType, Outcome.bind_of_eq_ok hrequire]
    exact ⟨_, rfl, hname hobject, by simp, hname (hsearch ha)⟩
  | create argument =>
    dsimp only
    rw [Tracked.outcome_bind, outcome_inputType, Outcome.bind_of_eq_ok hrequire]
    exact ⟨_, rfl, hname hobject, hname (hcreate argument ha), by simp⟩

/-- A schema that covers all that it refers to reaches types that it covers. -/
theorem reachable_isOk :
    ∃ types, (reachable c roots).outcome = .ok types ∧ (∀ e ∈ types.objects, coverage.objects e) ∧
      (∀ e ∈ types.inputs, coverage.inputs e) ∧ ∀ e ∈ types.filters, coverage.filters e := by
  obtain ⟨rows, hrows, hcovered⟩ := Outcome.mapM_isOk_of (f := fun f => (rootTypes c f).outcome)
    (P := RootTypes.Covered coverage) fun f (hf : f ∈ roots.query ++ roots.mutation) => by
      rcases List.mem_append.mp hf with hf | hf
      · exact rootTypes_isOk coverage (show f ∈ roots.fields .query from hf)
      · exact rootTypes_isOk coverage (show f ∈ roots.fields .mutation from hf)
  -- Each of the three walks starts from names of entities that the schema covers.
  have hstack : ∀ {names : RootTypes → List String} {S : Entity → Prop},
      (∀ row : RootTypes, row.Covered coverage → ∀ name ∈ names row,
        ∃ e, c.entity? name = some e ∧ S e) →
      ∀ name ∈ rows.flatMap names, ∃ e, c.entity? name = some e ∧ S e := by
    intro names S hnames name hname
    obtain ⟨row, hrow, hname⟩ := List.mem_flatMap.mp hname
    exact hnames row (hcovered row hrow) name hname
  obtain ⟨objects, hobjects, hobjectsIn⟩ := walk_isOk (objectTargets_isOk coverage.objects_closed)
    (fun name hname => hstack (fun _ hrow => hrow.objects) name (List.mem_reverse.mp hname))
    (List.forall_mem_nil _)
  obtain ⟨inputs, hinputs, hinputsIn⟩ := walk_isOk (inputTargets_isOk coverage.inputs_closed)
    (fun name hname => hstack (fun _ hrow => hrow.inputs) name (List.mem_reverse.mp hname))
    (List.forall_mem_nil _)
  -- The fields of output types have filters for what they refer to.
  have hnested : ∀ name ∈ objects.flatMap fun e => targets e.attributes,
      ∃ t, c.entity? name = some t ∧ coverage.filters t := by
    intro name hname
    obtain ⟨e, he, hname⟩ := List.mem_flatMap.mp hname
    obtain ⟨a, ha, hk, rfl⟩ := of_mem_targets hname
    obtain ⟨t, ht, _⟩ := coverage.objects_closed.refers (hobjectsIn e he) a ha hk
    exact ⟨t, ht, coverage.filters_of_objects (hobjectsIn e he) a ha hk ht⟩
  obtain ⟨filters, hfilters, hfiltersIn⟩ := walk_isOk (filterTargets_isOk coverage.filters_closed)
    (fun name hname => List.forall_mem_append.mpr ⟨hstack fun _ hrow => hrow.filters, hnested⟩
      name (List.mem_reverse.mp hname))
    (List.forall_mem_nil _)
  refine ⟨⟨sortByName Entity.name objects, sortByName Entity.inputName inputs,
    sortByName Entity.filterName filters⟩, ?_, ?_, ?_, ?_⟩
  · simp only [reachable, Tracked.outcome_bind, Tracked.outcome_mapM]
    rw [Outcome.bind_of_eq_ok hrows, Outcome.bind_of_eq_ok hobjects, Outcome.bind_of_eq_ok hinputs,
      Outcome.bind_of_eq_ok hfilters]
    rfl
  · exact fun e he => hobjectsIn e (List.mem_mergeSort.mp he)
  · exact fun e he => hinputsIn e (List.mem_mergeSort.mp he)
  · exact fun e he => hfiltersIn e (List.mem_mergeSort.mp he)

theorem objectBlock_isOk {e : Entity} (he : coverage.objects e) :
    ∃ block, (objectBlock c e).outcome = .ok block := by
  obtain ⟨⟨fields, hfields⟩, _⟩ := fields_of_closedOn coverage.objects_closed he
  rw [objectBlock, Tracked.outcome_bind, Outcome.bind_of_eq_ok hfields]
  exact ⟨_, rfl⟩

theorem inputBlock_isOk {e : Entity} (he : coverage.inputs e) :
    ∃ block, (inputBlock c e).outcome = .ok block := by
  obtain ⟨fields, hfields, _⟩ := coverage.inputs_closed e he
  rw [inputBlock, Tracked.outcome_bind, Outcome.bind_of_eq_ok hfields]
  exact ⟨_, rfl⟩

theorem filterBlock_isOk {e : Entity} (he : coverage.filters e) :
    ∃ block, (filterBlock c e).outcome = .ok block := by
  obtain ⟨_, fields, hfields⟩ := fields_of_closedOn coverage.filters_closed he
  rw [filterBlock, Tracked.outcome_bind, Outcome.bind_of_eq_ok hfields]
  exact ⟨_, rfl⟩

/-- A schema that covers all that it refers to can be written down. -/
theorem print_isOk (pages : PageDefaults) : ∃ text, (print c roots pages).outcome = .ok text := by
  obtain ⟨types, htypes, hobjects, hinputs, hfilters⟩ := reachable_isOk coverage
  obtain ⟨objects, hobjects⟩ :=
    Outcome.mapM_isOk.mpr fun e he => objectBlock_isOk coverage (hobjects e he)
  obtain ⟨inputs, hinputs⟩ :=
    Outcome.mapM_isOk.mpr fun e he => inputBlock_isOk coverage (hinputs e he)
  obtain ⟨filters, hfilters⟩ :=
    Outcome.mapM_isOk.mpr fun e he => filterBlock_isOk coverage (hfilters e he)
  simp only [print, blocks, Tracked.outcome_bind, Tracked.outcome_mapM]
  rw [Outcome.bind_of_eq_ok htypes, Outcome.bind_of_eq_ok hobjects, Outcome.bind_of_eq_ok hinputs,
    Outcome.bind_of_eq_ok hfilters]
  exact ⟨_, rfl⟩

end Coverage

/-- A closed catalog whose entities can all be set covers all that root fields for its entities
refer to. -/
theorem coverage_of_closed {roots : RootFields} (hc : c.Closed)
    (hset : ∀ e ∈ c.entities, ∃ a ∈ e.attributes, isSettable a = true)
    (hroots : ∀ f ∈ roots.query ++ roots.mutation, (c.entity? f.entity).isSome = true) :
    Nonempty (Coverage c roots) := by
  refine ⟨{ objects := (· ∈ c.entities), inputs := (· ∈ c.entities), filters := (· ∈ c.entities)
            objects_closed := hc.closedOn, inputs_closed := ?_, filters_closed := hc.closedOn
            filters_of_objects := ?_, root := ?_ }⟩
  · refine closedInputs_iff.mpr fun e he => ⟨hset e he, fun a ha _ hk => ?_⟩
    exact hc.closedOn.refers he a ha hk
  · exact fun _ _ _ _ _ ht => (Catalog.entity?_eq_some.mp ht).1
  · intro kind f hf
    obtain ⟨e, he⟩ :=
      Option.isSome_iff_exists.mp (hroots f (RootFields.mem_append_of_mem_fields hf))
    have hmem : e ∈ c.entities := (Catalog.entity?_eq_some.mp he).1
    exact ⟨e, he, hmem, fun _ => hmem, fun _ _ => hmem⟩

end Schema

end EntityGraph
