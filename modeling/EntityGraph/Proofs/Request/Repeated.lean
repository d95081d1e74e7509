import EntityGraph.Proofs.Request.Arguments
import EntityGraph.Proofs.Request.Planning

namespace EntityGraph

/-- An item asks for the field of another one with the same arguments, in which no name stands
twice. -/
structure Item.Repeats (again first : Item) : Prop where
  name : again.head.name = first.head.name
  keyed : Value.Keyed (.object first.head.arguments)
  same : first.head.arguments.same again.head.arguments = true

def Item.expansion (item : Item) : Expansion := .field item.head item.inner fun _ => .done

namespace AttributeRequest

def StandsFor (x a : AttributeRequest) : Prop := ∀ b, x.compatible b = a.compatible b

theorem StandsFor.refl (a : AttributeRequest) : a.StandsFor a := fun _ => rfl

theorem StandsFor.trans {x y a : AttributeRequest} (hx : x.StandsFor y) (hy : y.StandsFor a) :
    x.StandsFor a := fun b => (hx b).trans (hy b)

theorem standsFor_withNested (a : AttributeRequest) (nested : Option Request) :
    (a.withNested nested).StandsFor a := fun _ => rfl

/-- Requests that can be merged can be merged with the same ones. -/
theorem standsFor_of_compatible {x a : AttributeRequest} (h : x.compatible a = true) :
    x.StandsFor a := by
  intro b
  rw [Bool.eq_iff_iff, compatible_iff, compatible_iff]
  rw [compatible_iff] at h
  obtain ⟨hwindow, hfilter⟩ := h
  constructor
  · rintro ⟨hw, hf⟩
    exact ⟨hwindow.symm.trans hw, PartialEquivBEq.trans (PartialEquivBEq.symm hfilter) hf⟩
  · rintro ⟨hw, hf⟩
    exact ⟨hwindow.trans hw, PartialEquivBEq.trans hfilter hf⟩

end AttributeRequest

namespace Request

open AttributeRequest

variable {r m : Request} {a x : AttributeRequest}

/-- What is asked for is found afterwards, in a request that stands for it. -/
theorem attribute?_add (h : r.add a = .ok m) :
    ∃ y, m.attribute? a.name = some y ∧ y.StandsFor a := by
  obtain ⟨z, hz, hname, rfl⟩ := add_eq_ok.mp h
  refine ⟨z, by rw [attribute?_put, if_pos hname], ?_⟩
  cases hx : r.attribute? a.name with
  | none =>
    rw [hx] at hz
    obtain rfl := Except.ok.inj hz
    exact .refl a
  | some x =>
    rw [hx] at hz
    obtain ⟨hcompatible, nested, _, rfl⟩ := joinAttribute_some_eq_ok.mp hz
    exact (standsFor_withNested x nested).trans (standsFor_of_compatible hcompatible)

/-- What was asked for before is found afterwards, in a request that stands for it. -/
theorem attribute?_of_add (h : r.add a = .ok m) {name : String}
    (hx : r.attribute? name = some x) : ∃ y, m.attribute? name = some y ∧ y.StandsFor x := by
  obtain ⟨z, hz, hname, rfl⟩ := add_eq_ok.mp h
  by_cases hn : a.name = name
  · subst hn
    refine ⟨z, by rw [attribute?_put, if_pos hname], ?_⟩
    rw [hx] at hz
    obtain ⟨_, nested, _, rfl⟩ := joinAttribute_some_eq_ok.mp hz
    exact standsFor_withNested x nested
  · have hz : z.name ≠ name := fun hz => hn (hname.symm.trans hz)
    exact ⟨x, by rw [attribute?_put, if_neg hz, hx], .refl x⟩

end Request

namespace Planning

open AttributeRequest

variable {c : Catalog} {r m : Request}

theorem Asks.name_eq {e : Entity} {f : AskedField} {planInner : Entity → Except Error Request}
    {a : AttributeRequest} (h : Asks c e f planInner a) : a.name = f.name := by
  cases h with
  | bare hnames _ => exact hnames.name_eq
  | nested hnames _ _ => exact hnames.name_eq

/-- A planned field asks for the type's name, or for an attribute that is added. -/
theorem planAll_field_cases {f : AskedField} {inner rest : Unit → Expansion}
    (h : planAll c r (.field f inner rest) = .ok m) : ∃ r', planAll c r' (rest ()) = .ok m ∧
      r'.entity = r.entity ∧ (f.name = typenameField ∧ r' = r.withTypename true ∨
        f.name ≠ typenameField ∧ ∃ a, planAttribute c r.entity f (planBelow c (inner ())) = .ok a ∧
          a.name = f.name ∧ r.add a = .ok r') := by
  obtain ⟨s, r', hs, hr', h⟩ := planAll_field_eq_ok.mp h
  refine ⟨r', h, ?_⟩
  obtain ⟨_, ⟨hf, rfl⟩ | ⟨hf, a, ha, rfl⟩⟩ := planField_eq_ok.mp hs
  · rw [merge_withTypename] at hr'
    obtain rfl := Except.ok.inj hr'
    exact ⟨rfl, Or.inl ⟨hf, rfl⟩⟩
  · rw [merge_put] at hr'
    obtain ⟨z, _, _, rfl⟩ := Request.add_eq_ok.mp hr'
    exact ⟨rfl, Or.inr ⟨hf, a, planAttribute_eq_ok.mpr ha, ha.name_eq, hr'⟩⟩

theorem entity_planAll (x : Expansion) (h : planAll c r x = .ok m) : m.entity = r.entity := by
  induction x generalizing r with
  | done => rw [Except.ok.inj h]
  | fault err => cases h
  | field f inner rest _ ih =>
    obtain ⟨r', hrest, hentity, _⟩ := planAll_field_cases h
    exact (ih () hrest).trans hentity

/-- Planning keeps what was asked for before. -/
theorem attribute?_of_planAll (x : Expansion) (h : planAll c r x = .ok m) {name : String}
    {a : AttributeRequest} (ha : r.attribute? name = some a) :
    ∃ b, m.attribute? name = some b ∧ b.StandsFor a := by
  induction x generalizing r a with
  | done =>
    obtain rfl := Except.ok.inj h
    exact ⟨a, ha, .refl a⟩
  | fault err => cases h
  | field f inner rest _ ih =>
    obtain ⟨r', hrest, _, ⟨_, rfl⟩ | ⟨_, a', _, _, hadd⟩⟩ := planAll_field_cases h
    · exact ih () hrest ha
    · obtain ⟨b, hb, hba⟩ := Request.attribute?_of_add hadd ha
      obtain ⟨b', hb', hbb⟩ := ih () hrest hb
      exact ⟨b', hb', hbb.trans hba⟩

/-- A field that is planned somewhere in a scope is found in the end. -/
theorem attribute?_of_mem_items (x : Expansion) {items : List Item} (hitems : x.items = .ok items)
    {first : Item} (hfirst : first ∈ items) (hname : first.head.name ≠ typenameField)
    (h : planAll c r x = .ok m) :
    ∃ prior existing,
      planAttribute c r.entity first.head (planBelow c (first.inner ())) = .ok prior ∧
        m.attribute? first.head.name = some existing ∧ existing.StandsFor prior := by
  induction x generalizing r items with
  | done =>
    obtain rfl := Except.ok.inj hitems
    cases hfirst
  | fault err => cases h
  | field f inner rest _ ih =>
    obtain ⟨items', hitems', rfl⟩ := Outcome.map_eq_ok.mp hitems
    obtain ⟨r', hrest, hentity, hfield⟩ := planAll_field_cases h
    rcases List.mem_cons.mp hfirst with rfl | hfirst
    · obtain ⟨hf, _⟩ | ⟨_, a, ha, haname, hadd⟩ := hfield
      · exact absurd hf hname
      · -- What the field asks for is kept to the end.
        obtain ⟨b, hb, hba⟩ := Request.attribute?_add hadd
        obtain ⟨b', hb', hbb⟩ := attribute?_of_planAll (rest ()) hrest (haname ▸ hb)
        exact ⟨a, b', ha, hb', hbb.trans hba⟩
    · exact hentity ▸ ih () hitems' hfirst hrest

/-- What a field asks for has the window and the filter of the attribute that it names. -/
theorem Asks.names {e : Entity} {f : AskedField} {planInner : Entity → Except Error Request}
    {a : AttributeRequest} (h : Asks c e f planInner a) : ∃ b target,
      Names c e f.name f.arguments b target ∧ b.window = a.window ∧ b.filter = a.filter := by
  cases h with
  | bare hnames _ => exact ⟨_, _, hnames, rfl, rfl⟩
  | nested hnames _ _ => exact ⟨_, _, hnames, rfl, rfl⟩

/-- A single field adds its attribute to the request. -/
theorem planAll_attribute {item : Item} (hname : item.head.name ≠ typenameField)
    (hlabel : item.head.label = none) {a : AttributeRequest}
    (ha : planAttribute c r.entity item.head (planBelow c (item.inner ())) = .ok a) :
    planAll c r item.expansion = (r.add a).mapError .schema := by
  have hlabel : rejectLabel item.head.name item.head.label = .ok () := by rw [hlabel]; rfl
  rw [Item.expansion, planAll, Outcome.bind_of_eq_ok hlabel, if_neg hname]
  show planAttribute c r.entity item.head (planBelow c (item.inner ())) >>= _ = _
  rw [Outcome.bind_of_eq_ok ha]
  cases r.add a <;> rfl

/-- Fields with the same arguments ask for an attribute with one window, and with filters that have
the same groups in some order; in the same order, if those of the arguments stand in the same. -/
theorem groups_of_repeats {e : Entity} {first again : Item}
    (h : again.Repeats first) {planInner planInner' : Entity → Except Error Request}
    {a b : AttributeRequest} (ha : planAttribute c e first.head planInner = .ok a)
    (hb : planAttribute c e again.head planInner' = .ok b) :
    a.window = b.window ∧ Filter.SameGroups false a.filter b.filter ∧
      ((first.head.arguments.value "filter").Alike true (again.head.arguments.value "filter") →
        (a.filter == b.filter) = true) := by
  obtain ⟨a', _, hnames, hwindow, hfilter⟩ := (planAttribute_eq_ok.mp ha).names
  obtain ⟨b', _, hnames', hwindow', hfilter'⟩ := (planAttribute_eq_ok.mp hb).names
  rw [h.name] at hnames'
  rw [← hwindow, ← hfilter, ← hwindow', ← hfilter']
  have hvalue := Arguments.value_alike_of_same h.keyed h.same "filter"
  obtain ⟨hsameWindow, hgroups⟩ := hnames.of_same h.keyed h.same hvalue hnames'
  refine ⟨hsameWindow, hgroups, fun hordered => ?_⟩
  have hinOrder := (hnames.of_same h.keyed h.same hordered hnames').2
  exact Filter.sameGroups_true_iff.mp hinOrder

theorem planAll_typename {item : Item} (hname : item.head.name = typenameField)
    (hlabel : item.head.label = none) :
    planAll c r item.expansion = .ok (r.withTypename true) := by
  have hlabel : rejectLabel item.head.name item.head.label = .ok () := by rw [hlabel]; rfl
  rw [Item.expansion, planAll, Outcome.bind_of_eq_ok hlabel, if_pos hname]
  rfl

/-- What a scope asks for once a field is selected again with the same arguments: the two are
merged, or refused for filters that differ in the order of their groups or constraints. -/
theorem planAll_again {first again : Item} (hagain : again.Repeats first) {before : Expansion}
    {items : List Item} (hitems : before.items = .ok items) (hfirst : first ∈ items)
    (hbefore : planAll c r before = .ok m) (hlabel : again.head.label = none)
    (hattribute : again.head.name ≠ typenameField) {next : AttributeRequest}
    (hnext : planAttribute c r.entity again.head (planBelow c (again.inner ())) = .ok next) :
    ∃ prior existing,
      planAttribute c r.entity first.head (planBelow c (first.inner ())) = .ok prior ∧
      m.attribute? again.head.name = some existing ∧ prior.window = next.window ∧
      Filter.SameGroups false prior.filter next.filter ∧
      ((first.head.arguments.value "filter").Alike true (again.head.arguments.value "filter") →
        (prior.filter == next.filter) = true) ∧
      planAll c r (before.andThen fun _ => again.expansion) =
        if prior.filter == next.filter then
          ((Request.joinNested existing.nested next.nested).map fun nested =>
            m.put (existing.withNested nested)).mapError .schema
        else .error (.schema (.conflictingArguments r.entity.name again.head.name)) := by
  obtain ⟨prior, existing, hprior, hexisting, hstands⟩ :=
    attribute?_of_mem_items before hitems hfirst (hagain.name ▸ hattribute) hbefore
  rw [← hagain.name] at hexisting
  obtain ⟨hwindow, hgroups, hordered⟩ := groups_of_repeats hagain hprior hnext
  refine ⟨prior, existing, hprior, hexisting, hwindow, hgroups, hordered, ?_⟩
  -- The windows agree, so that what stands there can be merged if the filters do.
  have hcompatible : existing.compatible next = (prior.filter == next.filter) := by
    rw [hstands next, compatible, hwindow, beq_self_eq_true, Bool.true_and]
  have hnextName : next.name = again.head.name := (planAttribute_eq_ok.mp hnext).name_eq
  have hentity : m.entity = r.entity := entity_planAll before hbefore
  rw [← hentity] at hnext
  rw [planAll_andThen, Outcome.bind_of_eq_ok hbefore, planAll_attribute hattribute hlabel hnext,
    Request.add_eq, hnextName, hexisting, Request.joinAttribute, hcompatible, hnextName, hentity]
  split
  · cases Request.joinNested existing.nested next.nested <;> rfl
  · rfl

end Planning

end EntityGraph
