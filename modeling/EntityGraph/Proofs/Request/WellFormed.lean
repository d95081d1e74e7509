import EntityGraph.Proofs.Catalog
import EntityGraph.Proofs.Document.Scopes
import EntityGraph.Proofs.Filter.Meaning
import EntityGraph.Proofs.Request.Order
import EntityGraph.Proofs.Request.Rewriting

namespace EntityGraph

/-- A window and a filter that an attribute can have: a window where it repeats, a filter where it
repeats or refers to an entity. The constraints are on the elements themselves where these are
scalars, and lead to a scalar of the entity where it refers to one. -/
structure Attribute.Restricts (c : Catalog) (a : Attribute) (w : Option Window)
    (groups : List FilterGroup) : Prop where
  window : w ≠ none → a.repeating = true
  filter : groups ≠ [] → a.repeating = true ∨ a.scalarKind? = none
  scalar : a.scalarKind? ≠ none → ∀ group ∈ groups, ∀ k ∈ group, k.field = ""
  entity : a.scalarKind? = none → ∃ target, c.entity? a.typeName = some target ∧
    (c.Dotless → ∀ group ∈ groups, ∀ k ∈ group,
      Filter.Resolves c target (Filter.Constraint.path k))

namespace AttributeRequest

/-- A request for an attribute that an entity declares, with a window and a filter that it can
have. What is nested is asked of the catalog's entity that the attribute refers to. -/
structure WellFormed (c : Catalog) (e : Entity) (a : AttributeRequest) : Prop where
  declared : e.attribute? a.name = some a.definition
  nested : ∀ n, a.nested = some n →
    a.definition.scalarKind? = none ∧ c.entity? a.definition.typeName = some n.entity
  restricted : a.definition.Restricts c a.window a.filter

end AttributeRequest

namespace Request

/-- A request asks, at every depth, for attributes that are well formed, each under its own name. -/
inductive WellFormed (c : Catalog) : Request → Prop
  | mk {q : Request} : (q.attributes.map AttributeRequest.name).Nodup →
      (∀ a ∈ q.attributes, a.WellFormed c q.entity) →
      (∀ a ∈ q.attributes, ∀ n, a.nested = some n → WellFormed c n) → WellFormed c q

def Below (r : Reading) (d : Document) (scope : List Selection → Prop) (name : String)
    (inner : List Selection) : Prop := ∃ ss, scope ss ∧ r.Selects d ss name inner

/-- A request asks, at every depth, for exactly what is selected in a scope, which may be made up
of several selections: for the type's name and for the attributes whose fields are selected, and
below an attribute for what its fields select, if one of them selects anything. -/
inductive Complete (r : Reading) (d : Document) : (List Selection → Prop) → Request → Prop
  | mk {scope : List Selection → Prop} {q : Request} :
      (q.typename = true ↔ ∃ inner, Below r d scope typenameField inner) →
      (∀ name, name ∈ q.attributes.map AttributeRequest.name ↔
        name ≠ typenameField ∧ ∃ inner, Below r d scope name inner) →
      (∀ a ∈ q.attributes, a.nested ≠ none ↔ ∃ inner, Below r d scope a.name inner ∧ inner ≠ []) →
      (∀ a ∈ q.attributes, ∀ n, a.nested = some n → Complete r d (Below r d scope a.name) n) →
      Complete r d scope q

inductive Carries (P : Attribute → Option Window → List FilterGroup → Prop) : Request → Prop
  | mk {q : Request} : (∀ a ∈ q.attributes, P a.definition a.window a.filter) →
      (∀ a ∈ q.attributes, ∀ n, a.nested = some n → Carries P n) → Carries P q

variable {P : Attribute → Option Window → List FilterGroup → Prop}

structure CarriesAt (P : Attribute → Option Window → List FilterGroup → Prop)
    (a : AttributeRequest) : Prop where
  here : P a.definition a.window a.filter
  nested : ∀ n, a.nested = some n → n.Carries P

/-- One level of `Carries`. -/
theorem carries_iff {q : Request} : q.Carries P ↔ ∀ a ∈ q.attributes, CarriesAt P a := by
  constructor
  · rintro ⟨hhere, hnested⟩
    exact fun a ha => ⟨hhere a ha, hnested a ha⟩
  · intro h
    exact .mk (fun a ha => (h a ha).here) fun a ha => (h a ha).nested

theorem carries_new (e : Entity) : (new e).Carries P := carries_iff.mpr nofun

theorem carries_withTypename {q : Request} (h : q.Carries P) (flag : Bool) :
    (q.withTypename flag).Carries P := carries_iff.mpr (carries_iff (q := q).mp h)

theorem carries_put {q : Request} (h : q.Carries P) {a : AttributeRequest} (ha : CarriesAt P a) :
    (q.put a).Carries P := by
  refine carries_iff.mpr fun b hb => ?_
  rcases Keyed.mem_of_mem_insert hb with rfl | hb
  · exact ha
  · exact carries_iff.mp h b hb

/-- Adding keeps what is carried, if merging below does. -/
theorem carries_add {q m : Request} {a : AttributeRequest} (hq : q.Carries P)
    (ha : CarriesAt P a) (hmerge : ∀ n, a.nested = some n → ∀ {x k : Request}, x.Carries P →
      x.merge n = .ok k → k.Carries P) (h : q.add a = .ok m) : m.Carries P := by
  obtain ⟨z, hz, _, rfl⟩ := add_eq_ok.mp h
  apply carries_put hq
  cases hx : q.attribute? a.name with
  | none =>
    rw [hx] at hz
    exact Except.ok.inj hz ▸ ha
  | some x =>
    -- What was asked before keeps its window and its filter, and only what is nested is joined.
    rw [hx] at hz
    obtain ⟨_, nested, hjoin, rfl⟩ := joinAttribute_some_eq_ok.mp hz
    have hbefore : CarriesAt P x := carries_iff.mp hq x (mem_of_attribute? hx).1
    refine ⟨hbefore.here, ?_⟩
    rcases joinNested_eq_ok hjoin with ⟨_, rfl⟩ | ⟨_, rfl⟩ | ⟨n, k, l, hn, hk, hl, rfl⟩
    · exact ha.nested
    · exact hbefore.nested
    · rintro _ ⟨⟩
      exact hmerge k hk (hbefore.nested n hn) hl

theorem carries_addAll {q m : Request} {as : List AttributeRequest} (hq : q.Carries P)
    (has : ∀ a ∈ as, CarriesAt P a) (hmerge : ∀ a ∈ as, ∀ n, a.nested = some n →
      ∀ {x k : Request}, x.Carries P → x.merge n = .ok k → k.Carries P)
    (h : q.addAll as = .ok m) : m.Carries P := by
  induction as generalizing q with
  | nil => exact Except.ok.inj h ▸ hq
  | cons a as ih =>
    rw [List.forall_mem_cons] at has hmerge
    obtain ⟨q', hq', h⟩ := Outcome.bind_eq_ok.mp h
    exact ih (carries_add hq has.1 hmerge.1 hq') has.2 hmerge.2 h

/-- What both carry, their merge does. -/
theorem carries_merge {a b m : Request} (ha : a.Carries P) (hb : b.Carries P)
    (h : a.merge b = .ok m) : m.Carries P := by
  -- On the request that is merged in; its attributes are added one after the other.
  induction b using Request.induction generalizing a m with
  | nested b ih =>
    rw [merge_eq] at h
    have hall := carries_iff.mp hb
    refine carries_addAll (carries_withTypename ha _) hall ?_ h
    intro y hy n hn x k hx hk
    exact ih y hy n hn hx ((hall y hy).nested n hn) hk

theorem wellFormed_of_fits {c : Catalog} {q : Request} (hfits : q.Fits c)
    (h : q.Carries (Attribute.Restricts c)) : q.WellFormed c := by
  induction hfits with
  | @mk q _ hn hmem hscalar htarget _ ih =>
    have hall := carries_iff.mp h
    refine .mk hn (fun a ha => ?_) fun a ha n hnested => ?_
    · refine ⟨Entity.attribute?_eq_some.mpr ⟨hmem a ha, rfl⟩, fun n hnested => ?_,
        (hall a ha).here⟩
      exact ⟨hscalar a ha n hnested, htarget a ha n hnested⟩
    · exact ih a ha n hnested ((hall a ha).nested n hnested)

end Request

namespace Planning

open Request

variable {c : Catalog}

/-- Only repeating attributes and entities are read with a filter. -/
theorem filter_of_readArguments {a : Attribute} {arguments : Arguments} {scope : Scope}
    (h : readArguments a arguments = .ok scope) :
    scope.filter = .null ∨ a.repeating = true ∨ a.scalarKind? = none := by
  refine Outcome.of_foldlM_eq_ok
    (I := fun s : Scope => s.filter = .null ∨ a.repeating = true ∨ a.scalarKind? = none)
    ?_ (.inl rfl) h
  rintro s ⟨name, value⟩ s' hs hread
  rw [readArgument] at hread
  split at hread
  · split at hread
    · exact Except.ok.inj hread ▸ hs
    · obtain ⟨n, _, rfl⟩ := Outcome.map_eq_ok.mp hread
      split <;> exact hs
  · split at hread
    · next hfilter => exact .inr (by simpa [Attribute.isScalar] using hfilter.2)
    · cases hread

/-- A filter on a scalar has no path. -/
theorem field_of_compileScalar {kind : ScalarKind} {filter : Value} {groups : List FilterGroup}
    (h : Filter.compileScalar kind filter = .ok groups) :
    ∀ group ∈ groups, ∀ k ∈ group, k.field = "" := by
  rw [Filter.compileScalar] at h
  split at h
  · obtain rfl := Except.ok.inj h
    exact List.forall_mem_nil _
  · obtain ⟨constraint, hread, h⟩ := Outcome.bind_eq_ok.mp h
    obtain rfl := Except.ok.inj h
    obtain ⟨_, _, _, _, _, hfield⟩ := Filter.readConstraint_eq_ok.mp hread
    simpa using hfield

/-- Paths of a compiled filter resolve, since keys hold no dots. -/
theorem resolves_of_compile (hc : c.Dotless) {e : Entity} (he : e ∈ c.entities) {filter : Value}
    {groups : List FilterGroup} (h : Filter.compile c e filter = .ok groups) :
    ∀ group ∈ groups, ∀ k ∈ group, Filter.Resolves c e (Filter.Constraint.path k) := by
  intro group hgroup k hk
  obtain ⟨_, rfl⟩ | ⟨t, ht, hgroups⟩ := Filter.compile_eq_ok.mp h
  · cases hgroup
  · have hleaf := FilterTree.mem_leaves_of_groups? hgroups hgroup hk
    exact Filter.resolves_of_mem_leaves hc e t he ht k hleaf

/-- A window is kept on repeating attributes alone. -/
theorem window_make {a : Attribute} {window : Option Window} {filter : List FilterGroup}
    {nested : Option Request} (h : (AttributeRequest.make a window filter nested).window ≠ none) :
    a.repeating = true := by
  by_contra hrepeating
  simp [AttributeRequest.make, AttributeRequest.window, hrepeating] at h

/-- What a field names has a window and a filter that it can have. -/
theorem Names.restricts {e : Entity} {name : String} {arguments : Arguments}
    {a : AttributeRequest} {target : Option Entity} (h : Names c e name arguments a target) :
    a.definition.Restricts c a.window a.filter := by
  cases h with
  | @scalar a scope window kind filter _ hscope _ hkind hfilter =>
    refine ⟨window_make, fun hne => ?_, fun _ => field_of_compileScalar hfilter,
      fun hnone => ?_⟩
    · -- Without a filter argument there are no groups.
      refine (filter_of_readArguments hscope).resolve_left fun hnull => hne ?_
      rw [hnull] at hfilter
      exact (Except.ok.inj hfilter).symm
    · cases hkind.symm.trans hnone
  | @entity a scope window target filter _ hscope _ hkind htarget hfilter =>
    refine ⟨window_make, fun _ => .inr hkind, fun hsome => absurd hkind hsome, fun _ => ?_⟩
    have hmem : target ∈ c.entities := (Catalog.entity?_eq_some.mp htarget).1
    exact ⟨target, htarget, fun hc => resolves_of_compile hc hmem hfilter⟩

/-- What holds of every named attribute is carried at every depth. -/
theorem carriesAt_asks {P : Attribute → Option Window → List FilterGroup → Prop} {e : Entity}
    {f : AskedField} {planInner : Entity → Except Error Request} {a : AttributeRequest}
    (hnames : ∀ {a target}, Names c e f.name f.arguments a target →
      P a.definition a.window a.filter)
    (hinner : ∀ {t n}, planInner t = .ok n → n.Carries P) (h : Asks c e f planInner a) :
    CarriesAt P a := by
  cases h with
  | bare ha _ =>
    refine ⟨hnames ha, fun n hn => ?_⟩
    rw [ha.nested] at hn
    cases hn
  | @nested a target n ha _ hn =>
    have hhere : P a.definition a.window a.filter := hnames ha
    refine ⟨hhere, ?_⟩
    rintro _ ⟨⟩
    exact hinner hn

/-- What holds of every attribute that a field of a kind can name holds at every depth of what is
planned of such fields. -/
theorem carries_planAll {P : Attribute → Option Window → List FilterGroup → Prop}
    {Q : AskedField → Prop} (hnames : ∀ {e f a target}, Q f →
      Names c e f.name f.arguments a target → P a.definition a.window a.filter) {x : Expansion}
    (hx : x.All Q) {q m : Request} (hq : q.Carries P) (h : planAll c q x = .ok m) :
    m.Carries P := by
  -- On the expansion, for whatever request the fields are merged into.
  induction hx generalizing q m with
  | done => exact Except.ok.inj h ▸ hq
  | fault e => cases h
  | field hhead _ _ ihinner ihrest =>
    obtain ⟨s, q', hs, hq', h⟩ := planAll_field_eq_ok.mp h
    have hcarries : s.Carries P := by
      obtain ⟨_, ⟨_, rfl⟩ | ⟨_, a, ha, rfl⟩⟩ := planField_eq_ok.mp hs
      · exact carries_withTypename (carries_new _) true
      · exact carries_put (carries_new _)
          (carriesAt_asks (hnames hhead) (fun hn => ihinner (carries_new _) hn) ha)
    exact ihrest (carries_merge hq hcarries hq') h

/-- Planning comes upon no fault of an expansion: not below the fields that select something, the
type's name apart, and not between them. -/
inductive Faultless : Expansion → Prop
  | done : Faultless .done
  | field {head : AskedField} {inner rest : Unit → Expansion} :
      (head.name ≠ typenameField → head.selected = true → Faultless (inner ())) →
      Faultless (rest ()) → Faultless (.field head inner rest)

/-- What is planned had no fault at any depth. -/
theorem faultless_of_planAll (x : Expansion) {q m : Request} (h : planAll c q x = .ok m) :
    Faultless x := by
  induction x generalizing q m with
  | done => exact .done
  | fault e => cases h
  | field f inner rest ihinner ihrest =>
    -- What stands below the type's name is not looked at, and below a bare field there is nothing.
    obtain ⟨s, q', hs, _, h⟩ := planAll_field_eq_ok.mp h
    refine .field (fun hname hselected => ?_) (ihrest () h)
    obtain ⟨_, ⟨hf, _⟩ | ⟨_, a, ha, _⟩⟩ := planField_eq_ok.mp hs
    · exact absurd hf hname
    · cases ha with
      | bare _ hs => rw [hs] at hselected; cases hselected
      | nested _ _ hn => exact ihinner () hn

theorem Faultless.items {x : Expansion} (h : Faultless x) : ∃ items, x.items = .ok items ∧
    (∀ item ∈ items, item.head.name ≠ typenameField → item.head.selected = true →
      Faultless (item.inner ())) ∧
    x.names = items.map (·.head.name) ∧
    ∀ name, x.inside name =
      (items.filter fun item => item.head.name = name ∧ item.head.selected).map (·.inner ()) := by
  induction h with
  | done => exact ⟨[], rfl, nofun, rfl, fun _ => rfl⟩
  | @field head inner rest hinner _ _ ih =>
    obtain ⟨items, hitems, hbelow, hnames, hinside⟩ := ih
    refine ⟨⟨head, inner⟩ :: items, ?_, List.forall_mem_cons.mpr ⟨hinner, hbelow⟩, ?_, ?_⟩
    · rw [Expansion.items, hitems]
      rfl
    · rw [Expansion.names, hnames]
      rfl
    · intro name
      rw [Expansion.inside, hinside, List.filter_cons]
      by_cases hhead : head.name = name ∧ head.selected = true <;> simp [hhead]

structure Rows (r : Reading) (d : Document) (scope : List Selection → Prop)
    (xs : List Expansion) : Prop where
  faultless : ∀ x ∈ xs, Faultless x
  selections : ∀ x ∈ xs, ∃ ss, scope ss ∧ r.Unrolls d x ss
  expansion : ∀ ss, scope ss → ss ≠ [] → ∃ x ∈ xs, r.Unrolls d x ss

namespace Rows

variable {r : Reading} {d : Document} {scope : List Selection → Prop} {xs : List Expansion}

/-- A field that is selected in a scope is an item of an expansion in the row. -/
theorem exists_item (h : Rows r d scope xs) {name : String} {inner : List Selection}
    (hbelow : Below r d scope name inner) : ∃ x ∈ xs, ∃ items, x.items = .ok items ∧
      ∃ item ∈ items, Reading.Item.Shows r d item name inner := by
  obtain ⟨ss, hscope, hselects⟩ := hbelow
  have hne : ss ≠ [] := by
    rintro rfl
    exact Reading.not_selects_nil hselects
  obtain ⟨x, hx, more, opened, hinside, rfl⟩ := h.expansion ss hscope hne
  obtain ⟨items, hitems, _⟩ := (h.faultless _ hx).items
  have hcovers := Reading.covers_items hinside ss items hitems
  exact ⟨_, hx, items, hitems, hcovers.shown name inner hselects⟩

/-- An item of an expansion in the row is that of a field that is selected in the scope. -/
theorem below_of_item (h : Rows r d scope xs) {x : Expansion} (hx : x ∈ xs) {items : List Item}
    (hitems : x.items = .ok items) {item : Item} (hitem : item ∈ items) :
    ∃ inner, Below r d scope item.head.name inner ∧
      Reading.Item.Shows r d item item.head.name inner := by
  obtain ⟨ss, hscope, more, opened, hinside, rfl⟩ := h.selections x hx
  obtain ⟨name, inner, hselects, hshows⟩ :=
    (Reading.covers_items hinside ss items hitems).selects item hitem
  obtain rfl := hshows.name
  exact ⟨inner, ⟨ss, hscope, hselects⟩, hshows⟩

/-- A name is selected among the expansions when it is selected in a row of the scope. -/
theorem mem_selected (h : Rows r d scope xs) {name : String} :
    name ∈ selected xs ↔ ∃ inner, Below r d scope name inner := by
  rw [selected, List.mem_flatMap]
  constructor
  · rintro ⟨x, hx, hname⟩
    obtain ⟨items, hitems, _, hnames, _⟩ := (h.faultless x hx).items
    rw [hnames] at hname
    obtain ⟨item, hitem, rfl⟩ := List.mem_map.mp hname
    obtain ⟨inner, hbelow, _⟩ := h.below_of_item hx hitems hitem
    exact ⟨inner, hbelow⟩
  · rintro ⟨inner, hbelow⟩
    obtain ⟨x, hx, items, hitems, item, hitem, hshows⟩ := h.exists_item hbelow
    obtain ⟨_, hitems', _, hnames, _⟩ := (h.faultless x hx).items
    obtain rfl := Except.ok.inj (hitems'.symm.trans hitems)
    refine ⟨x, hx, ?_⟩
    rw [hnames, ← hshows.name]
    exact List.mem_map_of_mem hitem

theorem of_mem_selectedBelow (h : Rows r d scope xs) {name : String} (hname : name ≠ typenameField)
    {y : Expansion} (hy : y ∈ selectedBelow name xs) : Faultless y ∧
      ∃ inner, Below r d scope name inner ∧ inner ≠ [] ∧ r.Unrolls d y inner := by
  obtain ⟨x, hx, hy⟩ := List.mem_flatMap.mp hy
  obtain ⟨items, hitems, hfaultless, _, hinside⟩ := (h.faultless x hx).items
  rw [hinside] at hy
  obtain ⟨item, hfilter, rfl⟩ := List.mem_map.mp hy
  obtain ⟨hitem, hhead⟩ := List.mem_filter.mp hfilter
  obtain ⟨rfl, hselected⟩ : item.head.name = name ∧ item.head.selected = true := by
    simpa using hhead
  obtain ⟨inner, hbelow, hshows⟩ := h.below_of_item hx hitems hitem
  refine ⟨hfaultless item hitem hname hselected, inner, hbelow, ?_, hshows.unrolls⟩
  rintro rfl
  rw [hshows.selected] at hselected
  cases hselected

theorem exists_mem_selectedBelow (h : Rows r d scope xs) {name : String} {inner : List Selection}
    (hbelow : Below r d scope name inner) (hne : inner ≠ []) :
    ∃ y ∈ selectedBelow name xs, r.Unrolls d y inner := by
  obtain ⟨x, hx, items, hitems, item, hitem, hshows⟩ := h.exists_item hbelow
  obtain ⟨_, hitems', _, _, hinside⟩ := (h.faultless x hx).items
  obtain rfl := Except.ok.inj (hitems'.symm.trans hitems)
  have hselected : item.head.selected = true := by
    rw [hshows.selected]
    simpa using hne
  refine ⟨item.inner (), List.mem_flatMap.mpr ⟨x, hx, ?_⟩, hshows.unrolls⟩
  rw [hinside]
  exact List.mem_map_of_mem (List.mem_filter.mpr ⟨hitem, by simp [hshows.name, hselected]⟩)

/-- What stands below a name in a row is what its fields select in the scope. -/
theorem below (h : Rows r d scope xs) {name : String} (hname : name ≠ typenameField) :
    Rows r d (Below r d scope name) (selectedBelow name xs) where
  faultless _ hy := (h.of_mem_selectedBelow hname hy).1
  selections _ hy := by
    obtain ⟨_, inner, hbelow, _, hunrolls⟩ := h.of_mem_selectedBelow hname hy
    exact ⟨inner, hbelow, hunrolls⟩
  expansion _ hbelow hne := h.exists_mem_selectedBelow hbelow hne

theorem selectedBelow_ne_nil (h : Rows r d scope xs) {name : String}
    (hname : name ≠ typenameField) :
    selectedBelow name xs ≠ [] ↔ ∃ inner, Below r d scope name inner ∧ inner ≠ [] := by
  constructor
  · intro hne
    obtain ⟨y, hy⟩ := List.exists_mem_of_ne_nil _ hne
    obtain ⟨_, inner, hbelow, hinner, _⟩ := h.of_mem_selectedBelow hname hy
    exact ⟨inner, hbelow, hinner⟩
  · rintro ⟨inner, hbelow, hne⟩
    obtain ⟨y, hy, _⟩ := h.exists_mem_selectedBelow hbelow hne
    exact List.ne_nil_of_mem hy

end Rows

/-- Following the expansions is being complete for the selections. By recursion on the request. -/
theorem complete_of_follows {r : Reading} {d : Document} {q : Request} {xs : List Expansion}
    (h : q.Follows xs) {scope : List Selection → Prop} (hrows : Rows r d scope xs) :
    Complete r d scope q := by
  -- On the request; below an attribute stand the selections of all the fields of its name.
  induction h generalizing scope with
  | @mk q xs htype hnames hnone hnested ih =>
    have hmem : ∀ name, name ∈ q.attributes.map AttributeRequest.name ↔
        name ≠ typenameField ∧ name ∈ selected xs := by
      intro name
      rw [(Follows.mk htype hnames hnone hnested).mem_names, and_comm]
    have hself : ∀ a ∈ q.attributes, a.name ≠ typenameField := fun a ha =>
      ((hmem a.name).mp (List.mem_map_of_mem ha)).1
    refine .mk ?_ ?_ ?_ ?_
    · rw [htype, hrows.mem_selected]
    · intro name
      rw [hmem, hrows.mem_selected]
    · intro a ha
      rw [Ne, hnone a ha, ← Ne, hrows.selectedBelow_ne_nil (hself a ha)]
    · intro a ha n hn
      exact ih a ha n hn (hrows.below (hself a ha))

/-- A planned request is for the entity of its type, is well formed, and is complete for the
selections. -/
theorem planned_wellFormed {returnType : String} {r : Reading} {d : Document}
    {ss : List Selection} {q : Request} (h : plan c returnType (r.expand d ss) = .ok q) :
    (∃ type, TypeString.parse returnType = .ok type ∧ c.entity? type.name = some q.entity) ∧
      q.WellFormed c ∧ q.Complete r d (· = ss) := by
  obtain ⟨type, e, htype, he, h⟩ := plan_eq_ok.mp h
  have hnew : (new e).Fits c := fits_new (Catalog.entity?_eq_some.mp he).1
  obtain ⟨hfits, hentity⟩ := fits_planAll (r.expand d ss) hnew h
  have hcarries : q.Carries (Attribute.Restricts c) :=
    carries_planAll (Q := fun _ => True) (fun _ hnames => hnames.restricts)
      (.of_forall (fun _ => trivial) _) (carries_new e) h
  have hfollows : q.Follows [r.expand d ss] := follows_planAll (r.expand d ss) (follows_new e) h
  have hrows : Rows r d (· = ss) [r.expand d ss] := by
    have hunrolls : r.Unrolls d (r.expand d ss) ss := Reading.unrolls_expand r d ss
    refine ⟨?_, ?_, ?_⟩
    · simpa using faultless_of_planAll (r.expand d ss) h
    · simpa using hunrolls
    · rintro _ rfl _
      exact ⟨_, List.mem_singleton_self _, hunrolls⟩
  refine ⟨⟨type, htype, ?_⟩, wellFormed_of_fits hfits hcarries, complete_of_follows hfollows hrows⟩
  rw [hentity]
  exact he

def lineFragment : Document :=
  ⟨[], [⟨"Line", [.field "qty" none [] [] [], .field "product" none [] []
    [.field "sku" none [] [] []]]⟩]⟩

def largeLines (inner : List Selection) : Selection :=
  .field "items" none [("limit", .number (.integer 2)),
    ("filter", .object [("qty", .object [("gt", .number (.integer 1))])])] [] inner

def linesTwice : List Selection :=
  [largeLines [.spread "Line" []], .field "__typename" none [] [] [],
   largeLines [.field "id" none [] [] []]]

/-- Lines asked twice, once through a fragment. -/
theorem planned_wellFormed_linesTwice :
    ∃ q, plan Storefront.catalog "Order"
        ((Reading.ofValues []).expand lineFragment linesTwice) = .ok q ∧
      q.WellFormed Storefront.catalog ∧
      q.Complete (Reading.ofValues []) lineFragment (· = linesTwice) := by
  have hok : (plan Storefront.catalog "Order"
      ((Reading.ofValues []).expand lineFragment linesTwice)).isOk = true := by decide +kernel
  cases hq : plan Storefront.catalog "Order"
      ((Reading.ofValues []).expand lineFragment linesTwice) with
  | error e =>
    rw [hq] at hok
    cases hok
  | ok q => exact ⟨q, rfl, (planned_wellFormed hq).2⟩

end Planning

end EntityGraph
