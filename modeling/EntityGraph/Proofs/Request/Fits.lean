import EntityGraph.Proofs.Request.Merge
import EntityGraph.Request.Planning

namespace EntityGraph

namespace Request

/-- A request asks, at every depth, for attributes of an entity of the catalog, none of them twice,
and what is nested is asked of the entity that the attribute refers to. -/
inductive Fits (c : Catalog) : Request → Prop
  | mk {r : Request} : r.entity ∈ c.entities → (r.attributes.map AttributeRequest.name).Nodup →
      (∀ a ∈ r.attributes, a.definition ∈ r.entity.attributes) →
      (∀ a ∈ r.attributes, ∀ n, a.nested = some n → a.definition.scalarKind? = none) →
      (∀ a ∈ r.attributes, ∀ n, a.nested = some n →
        c.entity? a.definition.typeName = some n.entity) →
      (∀ a ∈ r.attributes, ∀ n, a.nested = some n → Fits c n) → Fits c r

end Request

structure AttributeRequest.Fits (c : Catalog) (e : Entity) (a : AttributeRequest) : Prop where
  mem : a.definition ∈ e.attributes
  not_scalar : ∀ n, a.nested = some n → a.definition.scalarKind? = none
  target : ∀ n, a.nested = some n → c.entity? a.definition.typeName = some n.entity
  nested : ∀ n, a.nested = some n → n.Fits c

namespace Request

variable {c : Catalog}

/-- One level of `Fits`. -/
theorem fits_iff {r : Request} : r.Fits c ↔ r.entity ∈ c.entities ∧
    (r.attributes.map AttributeRequest.name).Nodup ∧ ∀ a ∈ r.attributes, a.Fits c r.entity := by
  constructor
  · rintro ⟨he, hn, hmem, hscalar, htarget, hnested⟩
    exact ⟨he, hn, fun a ha => ⟨hmem a ha, hscalar a ha, htarget a ha, hnested a ha⟩⟩
  · rintro ⟨he, hn, h⟩
    exact .mk he hn (fun a ha => (h a ha).mem) (fun a ha => (h a ha).not_scalar)
      (fun a ha => (h a ha).target) (fun a ha => (h a ha).nested)

theorem Fits.distinct {r : Request} (h : r.Fits c) : r.Distinct := by
  induction h with
  | mk _ hn _ _ _ _ ih => exact .mk hn ih

theorem Fits.attribute {r : Request} (h : r.Fits c) {name : String} {a : AttributeRequest}
    (ha : r.attribute? name = some a) : a.Fits c r.entity :=
  (fits_iff.mp h).2.2 a (mem_of_attribute? ha).1

/-- Requests for one attribute of an entity are for the same attribute. -/
theorem definition_eq {e : Entity} {a b : AttributeRequest} (ha : a.definition ∈ e.attributes)
    (hb : b.definition ∈ e.attributes) (h : a.name = b.name) : a.definition = b.definition :=
  List.inj_on_of_nodup_map e.names_nodup ha hb h

theorem fits_new {e : Entity} (he : e ∈ c.entities) : (new e).Fits c :=
  fits_iff.mpr ⟨he, List.nodup_nil, by simp [new, attributes]⟩

theorem fits_withTypename {r : Request} (h : r.Fits c) (flag : Bool) :
    (r.withTypename flag).Fits c :=
  fits_iff.mpr (fits_iff (r := r).mp h)

theorem fits_put {r : Request} (h : r.Fits c) {a : AttributeRequest} (ha : a.Fits c r.entity) :
    (r.put a).Fits c := by
  obtain ⟨he, hn, hall⟩ := fits_iff.mp h
  refine fits_iff.mpr ⟨he, Keyed.nodup_insert _ a hn, fun b hb => ?_⟩
  rcases Keyed.mem_of_mem_insert hb with rfl | hb
  · exact ha
  · exact hall b hb

/-- Adding keeps `Fits` if merging below does. -/
theorem fits_add {r m : Request} {a : AttributeRequest} (hr : r.Fits c) (ha : a.Fits c r.entity)
    (hmerge : ∀ n, a.nested = some n → ∀ {x k : Request}, x.Fits c → x.entity = n.entity →
      x.merge n = .ok k → k.Fits c ∧ k.entity = x.entity) (h : r.add a = .ok m) : m.Fits c := by
  obtain ⟨z, hz, _, rfl⟩ := add_eq_ok.mp h
  refine fits_put hr ?_
  cases hx : r.attribute? a.name with
  | none =>
    rw [hx] at hz
    exact Except.ok.inj hz ▸ ha
  | some x =>
    rw [hx] at hz
    obtain ⟨_, nested, hjoin, rfl⟩ := joinAttribute_some_eq_ok.mp hz
    have hfits := hr.attribute hx
    -- Names are distinct in an entity, so both ask for one attribute.
    have hdef : x.definition = a.definition :=
      definition_eq hfits.mem ha.mem (mem_of_attribute? hx).2
    rcases joinNested_eq_ok hjoin with ⟨_, rfl⟩ | ⟨_, rfl⟩ | ⟨n, k, l, hn, hk, hl, rfl⟩
    · exact ⟨hfits.mem, hdef ▸ ha.not_scalar, hdef ▸ ha.target, ha.nested⟩
    · exact ⟨hfits.mem, hfits.not_scalar, hfits.target, hfits.nested⟩
    · -- Hence their nested requests are of one entity.
      have htarget : n.entity = k.entity :=
        Option.some.inj ((hfits.target n hn).symm.trans (hdef ▸ ha.target k hk))
      obtain ⟨hlfits, hle⟩ := hmerge k hk (hfits.nested n hn) htarget hl
      refine ⟨hfits.mem, fun _ _ => hfits.not_scalar n hn, ?_, ?_⟩
      · rintro _ ⟨⟩
        exact hle ▸ hfits.target n hn
      · rintro _ ⟨⟩
        exact hlfits

/-- The same for a row of attributes. -/
theorem fits_addAll {r m : Request} {as : List AttributeRequest} (hr : r.Fits c)
    (has : ∀ a ∈ as, a.Fits c r.entity)
    (hmerge : ∀ a ∈ as, ∀ n, a.nested = some n → ∀ {x k : Request}, x.Fits c →
      x.entity = n.entity → x.merge n = .ok k → k.Fits c ∧ k.entity = x.entity)
    (h : r.addAll as = .ok m) : m.Fits c ∧ m.entity = r.entity := by
  induction as generalizing r with
  | nil => exact Except.ok.inj h ▸ ⟨hr, rfl⟩
  | cons a as ih =>
    rw [List.forall_mem_cons] at has hmerge
    obtain ⟨r', hr', h⟩ := Outcome.bind_eq_ok.mp h
    have hentity : r'.entity = r.entity := by
      obtain ⟨z, _, _, rfl⟩ := add_eq_ok.mp hr'
      rfl
    have hfits : r'.Fits c := fits_add hr has.1 hmerge.1 hr'
    rw [← hentity]
    exact ih hfits (hentity ▸ has.2) hmerge.2 h

/-- Merged requests for an entity fit the catalog when both of them do. -/
theorem fits_merge {a b m : Request} (ha : a.Fits c) (hb : b.Fits c) (he : a.entity = b.entity)
    (h : a.merge b = .ok m) : m.Fits c ∧ m.entity = a.entity := by
  induction b using Request.induction generalizing a m with
  | nested b ih =>
    rw [merge_eq] at h
    obtain ⟨_, _, hall⟩ := fits_iff.mp hb
    refine fits_addAll (r := a.withTypename b.typename) (fits_withTypename ha _) ?_ ?_ h
    · rw [entity_withTypename, he]
      exact hall
    · intro y hy n hn x k hx hxe hk
      exact ih y hy n hn hx ((hall y hy).nested n hn) hxe hk

end Request

namespace Planning

/-- The attribute that a field names, with its window and its filter, and the entity that it
refers to. -/
inductive Names (c : Catalog) (e : Entity) (name : String) (arguments : Arguments) :
    AttributeRequest → Option Entity → Prop
  | scalar {a : Attribute} {scope : Scope} {window : Option Window} {kind : ScalarKind}
      {filter : List FilterGroup} : e.attribute? name = some a →
      readArguments a arguments = .ok scope → readWindow a scope = .ok window →
      a.scalarKind? = some kind → Filter.compileScalar kind scope.filter = .ok filter →
      Names c e name arguments (.make a window filter none) none
  | entity {a : Attribute} {scope : Scope} {window : Option Window} {target : Entity}
      {filter : List FilterGroup} : e.attribute? name = some a →
      readArguments a arguments = .ok scope → readWindow a scope = .ok window →
      a.scalarKind? = none → c.entity? a.typeName = some target →
      Filter.compile c target scope.filter = .ok filter →
      Names c e name arguments (.make a window filter none) (some target)

/-- What a field asks for: the attribute that it names, and below it what its own selections ask
of the entity that the attribute refers to. -/
inductive Asks (c : Catalog) (e : Entity) (f : AskedField)
    (planInner : Entity → Except Error Request) : AttributeRequest → Prop
  | bare {a : AttributeRequest} {target : Option Entity} :
      Names c e f.name f.arguments a target → f.selected = false → Asks c e f planInner a
  | nested {a : AttributeRequest} {target : Entity} {n : Request} :
      Names c e f.name f.arguments a (some target) → f.selected = true →
      planInner target = .ok n → Asks c e f planInner (a.withNested (some n))

variable {c : Catalog}

theorem requireAttribute_eq_ok {e : Entity} {name : String} {a : Attribute} :
    e.requireAttribute name = .ok a ↔ e.attribute? name = some a := by
  rw [Entity.requireAttribute]
  cases e.attribute? name <;> simp

/-- What planning a scalar checks and gives. -/
theorem planScalar_eq_ok {e : Entity} {a : Attribute} {kind : ScalarKind} {window : Option Window}
    {filter : Value} {selected : Bool} {asked : AttributeRequest} :
    planScalar e a kind window filter selected = .ok asked ↔ selected = false ∧
      ∃ groups, Filter.compileScalar kind filter = .ok groups ∧
        .make a window groups none = asked := by
  cases selected with
  | true => simp [planScalar, throw, throwThe, MonadExceptOf.throw, bind, Except.bind]
  | false =>
    have hplan : planScalar e a kind window filter false =
        ((Filter.compileScalar kind filter).mapError Error.filter).map fun groups =>
          .make a window groups none := by
      cases h : Filter.compileScalar kind filter <;>
        simp [planScalar, h, bind, Except.bind, Except.map, Except.mapError, pure, Except.pure]
    rw [hplan, Outcome.map_eq_ok]
    simp [Outcome.mapError_eq_ok]

def planKind (c : Catalog) (e : Entity) (f : AskedField)
    (planInner : Entity → Except Error Request) (a : Attribute) (scope : Scope)
    (window : Option Window) : Except Error AttributeRequest :=
  match a.scalarKind? with
  | some kind => planScalar e a kind window scope.filter f.selected
  | none => do
    let target ← (c.require a.typeName).mapError .schema
    let filter ← Filter.compile c target scope.filter
    let nested ← if f.selected then (planInner target).map some else .ok none
    return .make a window filter nested

theorem planAttribute_eq (e : Entity) (f : AskedField) (planInner : Entity → Except Error Request) :
    planAttribute c e f planInner =
      ((e.requireAttribute f.name).mapError Error.schema >>= fun a =>
        readArguments a f.arguments >>= fun scope =>
          readWindow a scope >>= planKind c e f planInner a scope) := rfl

/-- A planned attribute is one that the field asks for. -/
theorem asks_of_planKind {e : Entity} {f : AskedField} {planInner : Entity → Except Error Request}
    {a : Attribute} {scope : Scope} {window : Option Window} {asked : AttributeRequest}
    (ha : e.attribute? f.name = some a) (hscope : readArguments a f.arguments = .ok scope)
    (hwindow : readWindow a scope = .ok window)
    (h : planKind c e f planInner a scope window = .ok asked) : Asks c e f planInner asked := by
  rw [planKind] at h
  cases hk : a.scalarKind? with
  | some kind =>
    simp only [hk] at h
    obtain ⟨hselected, groups, hgroups, rfl⟩ := planScalar_eq_ok.mp h
    exact .bare (.scalar ha hscope hwindow hk hgroups) hselected
  | none =>
    simp only [hk] at h
    obtain ⟨target, htarget, h⟩ := Outcome.bind_eq_ok.mp h
    obtain ⟨filter, hfilter, h⟩ := Outcome.bind_eq_ok.mp h
    have htarget := Catalog.require_eq_ok.mp (Outcome.mapError_eq_ok.mp htarget)
    -- An entity may also be asked for with nothing below it.
    cases hs : f.selected with
    | false =>
      simp only [hs, Bool.false_eq_true, ↓reduceIte] at h
      obtain rfl := Except.ok.inj h
      exact .bare (.entity ha hscope hwindow hk htarget hfilter) hs
    | true =>
      simp only [hs, ↓reduceIte] at h
      obtain ⟨nested, hnested, h⟩ := Outcome.bind_eq_ok.mp h
      obtain ⟨n, hn, rfl⟩ := Outcome.map_eq_ok.mp hnested
      obtain rfl := Except.ok.inj h
      exact .nested (.entity ha hscope hwindow hk htarget hfilter) hs hn

/-- What a field asks for is planned once its arguments are read. -/
theorem planKind_of_asks {e : Entity} {f : AskedField} {planInner : Entity → Except Error Request}
    {asked : AttributeRequest} (h : Asks c e f planInner asked) :
    ∃ a, e.attribute? f.name = some a ∧ ∃ scope, readArguments a f.arguments = .ok scope ∧
      ∃ window, readWindow a scope = .ok window ∧
        planKind c e f planInner a scope window = .ok asked := by
  -- Run forward, with the result of each step at hand.
  cases h with
  | bare hnames hs =>
    cases hnames with
    | scalar ha hscope hwindow hk hfilter =>
      refine ⟨_, ha, _, hscope, _, hwindow, ?_⟩
      simp only [planKind, hk]
      exact planScalar_eq_ok.mpr ⟨hs, _, hfilter, rfl⟩
    | entity ha hscope hwindow hk htarget hfilter =>
      refine ⟨_, ha, _, hscope, _, hwindow, ?_⟩
      simp [planKind, hk, Catalog.require_eq_ok.mpr htarget, hfilter, hs, Except.mapError, bind,
        Except.bind, pure, Except.pure]
  | nested hnames hs hn =>
    cases hnames with
    | entity ha hscope hwindow hk htarget hfilter =>
      refine ⟨_, ha, _, hscope, _, hwindow, ?_⟩
      simp [planKind, hk, Catalog.require_eq_ok.mpr htarget, hfilter, hs, hn, Except.mapError,
        bind, Except.bind, Except.map, pure, Except.pure]
      rfl

/-- Planning an attribute, told as what it asks. -/
theorem planAttribute_eq_ok {e : Entity} {f : AskedField}
    {planInner : Entity → Except Error Request} {asked : AttributeRequest} :
    planAttribute c e f planInner = .ok asked ↔ Asks c e f planInner asked := by
  rw [planAttribute_eq, Outcome.bind_eq_ok]
  simp only [Outcome.bind_eq_ok, Outcome.mapError_eq_ok, requireAttribute_eq_ok]
  constructor
  · rintro ⟨a, ha, scope, hscope, window, hwindow, h⟩
    exact asks_of_planKind ha hscope hwindow h
  · exact planKind_of_asks

namespace Names

variable {e : Entity} {name : String} {arguments : Arguments} {a : AttributeRequest}
  {target : Option Entity}

theorem found (h : Names c e name arguments a target) :
    e.attribute? name = some a.definition := by
  cases h with
  | scalar ha => exact ha
  | entity ha => exact ha

theorem mem (h : Names c e name arguments a target) : a.definition ∈ e.attributes :=
  (Entity.attribute?_eq_some.mp h.found).1

theorem name_eq (h : Names c e name arguments a target) : a.name = name :=
  (Entity.attribute?_eq_some.mp h.found).2

theorem nested (h : Names c e name arguments a target) : a.nested = none := by
  cases h <;> rfl

theorem refers {t : Entity} (h : Names c e name arguments a (some t)) :
    a.definition.scalarKind? = none ∧ c.entity? a.definition.typeName = some t := by
  cases h with
  | entity _ _ _ hk ht _ => exact ⟨hk, ht⟩

end Names

def planField (c : Catalog) (e : Entity) (f : AskedField)
    (planInner : Entity → Except Error Request) : Except Error Request := do
  rejectLabel f.name f.label
  if f.name = typenameField then return (Request.new e).withTypename true
  else (planAttribute c e f planInner).map (Request.new e).put

def planBelow (c : Catalog) (x : Expansion) (e : Entity) : Except Error Request :=
  planAll c (Request.new e) x

theorem merge_withTypename (r : Request) (e : Entity) :
    r.merge ((Request.new e).withTypename true) = .ok (r.withTypename true) := by
  rw [Request.merge_eq]
  rfl

/-- Merging with a single attribute adds it. -/
theorem merge_put (r : Request) (e : Entity) (a : AttributeRequest) :
    r.merge ((Request.new e).put a) = r.add a := by
  rw [Request.merge_eq]
  show (r.withTypename false).addAll [a] = r.add a
  rw [Request.withTypename_false, Request.addAll]
  cases r.add a <;> rfl

/-- Planning a field merges what it asks for by itself, and goes on with the rest. -/
theorem planAll_field (r : Request) (f : AskedField) (inner rest : Unit → Expansion) :
    planAll c r (.field f inner rest) =
      planField c r.entity f (planBelow c (inner ())) >>= fun s =>
        (r.merge s).mapError Error.schema >>= fun r => planAll c r (rest ()) := by
  rw [planAll, planField]
  cases rejectLabel f.name f.label with
  | error err => rfl
  | ok _ =>
    by_cases hf : f.name = typenameField
    · simp only [hf, ↓reduceIte]
      -- A request of one field that is merged adds what the planner adds on the way.
      show planAll c (r.withTypename true) (rest ()) =
        ((r.merge ((Request.new r.entity).withTypename true)).mapError Error.schema >>= fun r =>
          planAll c r (rest ()))
      rw [merge_withTypename]
      rfl
    · simp only [hf, ↓reduceIte]
      show (planAttribute c r.entity f (planBelow c (inner ())) >>= fun asked =>
        (r.add asked).mapError Error.schema >>= fun r => planAll c r (rest ())) =
          (planAttribute c r.entity f (planBelow c (inner ()))).map (Request.new r.entity).put >>= _
      cases planAttribute c r.entity f (planBelow c (inner ())) with
      | error err => rfl
      | ok asked =>
        show _ = (r.merge ((Request.new r.entity).put asked)).mapError Error.schema >>= _
        rw [merge_put]
        rfl

/-- Planning a field, told without the steps. -/
theorem planField_eq_ok {e : Entity} {f : AskedField}
    {planInner : Entity → Except Error Request} {s : Request} :
    planField c e f planInner = .ok s ↔ f.label = none ∧
      (f.name = typenameField ∧ (Request.new e).withTypename true = s ∨
        f.name ≠ typenameField ∧
          ∃ a, Asks c e f planInner a ∧ (Request.new e).put a = s) := by
  rw [planField]
  cases hl : f.label with
  | some label => simp [rejectLabel, bind, Except.bind]
  | none =>
    by_cases hf : f.name = typenameField
    · simp [rejectLabel, bind, Except.bind, hf, pure, Except.pure]
    · simp [rejectLabel, bind, Except.bind, hf, Outcome.map_eq_ok, planAttribute_eq_ok]

/-- What a field asks fits, given what is below. -/
theorem fits_asks {e : Entity} {f : AskedField} {planInner : Entity → Except Error Request}
    {a : AttributeRequest} (hinner : ∀ {t n}, t ∈ c.entities → planInner t = .ok n →
      n.Fits c ∧ n.entity = t) (h : Asks c e f planInner a) : a.Fits c e := by
  cases h with
  | bare ha _ =>
    have hnone : ∀ n, a.nested ≠ some n := by simp [ha.nested]
    exact ⟨ha.mem, fun n h => absurd h (hnone n), fun n h => absurd h (hnone n),
      fun n h => absurd h (hnone n)⟩
  | nested ha _ hn =>
    obtain ⟨hscalar, htarget⟩ := ha.refers
    obtain ⟨hfits, rfl⟩ := hinner (Catalog.entity?_eq_some.mp htarget).1 hn
    refine ⟨ha.mem, fun _ _ => hscalar, ?_, ?_⟩
    · rintro _ ⟨⟩
      exact htarget
    · rintro _ ⟨⟩
      exact hfits

/-- The plan of one field fits the entity it was planned for. -/
theorem fits_planField {e : Entity} {f : AskedField} {planInner : Entity → Except Error Request}
    {s : Request} (he : e ∈ c.entities) (hinner : ∀ {t n}, t ∈ c.entities → planInner t = .ok n →
      n.Fits c ∧ n.entity = t) (h : planField c e f planInner = .ok s) :
    s.Fits c ∧ s.entity = e := by
  obtain ⟨_, ⟨_, rfl⟩ | ⟨_, a, ha, rfl⟩⟩ := planField_eq_ok.mp h
  · exact ⟨Request.fits_withTypename (Request.fits_new he) true, rfl⟩
  · exact ⟨Request.fits_put (Request.fits_new he) (fits_asks hinner ha), rfl⟩

/-- One field of an expansion is planned alone and merged, then the rest goes on. -/
theorem planAll_field_eq_ok {r m : Request} {f : AskedField} {inner rest : Unit → Expansion} :
    planAll c r (.field f inner rest) = .ok m ↔
      ∃ s r', planField c r.entity f (planBelow c (inner ())) = .ok s ∧ r.merge s = .ok r' ∧
        planAll c r' (rest ()) = .ok m := by
  rw [planAll_field, Outcome.bind_eq_ok]
  simp only [Outcome.bind_eq_ok, Outcome.mapError_eq_ok]
  constructor
  · rintro ⟨s, hs, r', hr', h⟩
    exact ⟨s, r', hs, hr', h⟩
  · rintro ⟨s, r', hs, hr', h⟩
    exact ⟨s, hs, r', hr', h⟩

/-- What is planned fits the catalog. -/
theorem fits_planAll (x : Expansion) {r m : Request} (hr : r.Fits c)
    (h : planAll c r x = .ok m) : m.Fits c ∧ m.entity = r.entity := by
  induction x generalizing r m with
  | done => exact Except.ok.inj h ▸ ⟨hr, rfl⟩
  | fault err => cases h
  | field f inner rest ihinner ihrest =>
    obtain ⟨s, r', hs, hr', h⟩ := planAll_field_eq_ok.mp h
    obtain ⟨hsfits, hse⟩ := fits_planField (Request.fits_iff.mp hr).1
      (fun ht hn => ihinner () (Request.fits_new ht) hn) hs
    obtain ⟨hfits, he⟩ := Request.fits_merge hr hsfits hse.symm hr'
    exact he ▸ ihrest () hfits h

end Planning

end EntityGraph
