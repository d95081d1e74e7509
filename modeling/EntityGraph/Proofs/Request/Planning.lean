import EntityGraph.Proofs.Document.Numbers
import EntityGraph.Proofs.Request.Laws

namespace EntityGraph

namespace Request

/-- Two requests merged; none when either is missing or they cannot be merged. -/
def meet (x y : Option Request) : Option Request :=
  x.bind fun a => y.bind fun b => (a.merge b).toOption

abbrev Same (x y : Option Request) : Prop :=
  Option.Rel (fun r s : Request => (r == s) = true) x y

def RegularIf (c : Catalog) (e : Entity) (x : Option Request) : Prop :=
  ∀ r, x = some r → Regular c e r

/-- Outcomes compare by what they give, not by how they fail. -/
theorem sameOutcome_iff {ε ε' : Type} {x : Except ε Request} {y : Except ε' Request} :
    SameOutcome x y ↔ Same x.toOption y.toOption := by
  constructor
  · intro h
    cases h with
    | error => exact .none
    | ok h => exact .some h
  · intro h
    cases x <;> cases y <;> cases h
    · exact .error _ _
    · next h => exact .ok h

variable {c : Catalog} {e : Entity} {x y z x' y' : Option Request}

theorem regularIf_some {r : Request} (h : Regular c e r) : RegularIf c e (some r) := by
  rintro _ ⟨⟩
  exact h

theorem regularIf_none : RegularIf c e none := nofun

theorem regularIf_meet (hx : RegularIf c e x) (hy : RegularIf c e y) :
    RegularIf c e (meet x y) := by
  intro m hm
  obtain ⟨a, ha, hm⟩ := Option.bind_eq_some_iff.mp hm
  obtain ⟨b, hb, hm⟩ := Option.bind_eq_some_iff.mp hm
  exact ((hx a ha).merge (hy b hb) (Outcome.toOption_eq_some.mp hm)).1

structure Alike (c : Catalog) (e : Entity) (x y : Option Request) : Prop where
  left : RegularIf c e x
  right : RegularIf c e y
  same : Same x y

theorem RegularIf.refl (hx : RegularIf c e x) : Alike c e x x := by
  refine ⟨hx, hx, ?_⟩
  cases x with
  | none => exact .none
  | some a => exact .some (hx a rfl).self

theorem Alike.symm (h : Alike c e x y) : Alike c e y x := by
  obtain ⟨hx, hy, h⟩ := h
  refine ⟨hy, hx, ?_⟩
  cases h with
  | none => exact .none
  | some h => exact .some ((hx _ rfl).symm (hy _ rfl) h)

theorem Alike.trans (hxy : Alike c e x y) (hyz : Alike c e y z) : Alike c e x z := by
  obtain ⟨hx, hy, hxy⟩ := hxy
  obtain ⟨_, hz, hyz⟩ := hyz
  refine ⟨hx, hz, ?_⟩
  cases hxy with
  | none => exact hyz
  | some hab =>
    cases hyz with
    | some hbd => exact .some ((hx _ rfl).trans (hy _ rfl) (hz _ rfl) hab hbd)

/-- Meeting respects likeness. -/
theorem Alike.congr (hx : Alike c e x x') (hy : Alike c e y y') :
    Alike c e (meet x y) (meet x' y') := by
  obtain ⟨hx, hx', hxx⟩ := hx
  obtain ⟨hy, hy', hyy⟩ := hy
  refine ⟨regularIf_meet hx hy, regularIf_meet hx' hy', ?_⟩
  cases hxx with
  | none => exact .none
  | some haa =>
    cases hyy with
    | none => exact .none
    | some hbb =>
      exact sameOutcome_iff.mp ((hx _ rfl).merge_congr (hx' _ rfl) (hy _ rfl) (hy' _ rfl) haa hbb)

theorem meet_none (x : Option Request) : meet x none = none := by
  cases x <;> rfl

/-- Regular requests meet in either order. -/
theorem RegularIf.meet_comm (hx : RegularIf c e x) (hy : RegularIf c e y) :
    Alike c e (meet x y) (meet y x) := by
  refine ⟨regularIf_meet hx hy, regularIf_meet hy hx, ?_⟩
  cases x with
  | none => rw [meet_none]; exact .none
  | some a =>
    cases y with
    | none => exact .none
    | some b => exact sameOutcome_iff.mp ((hx a rfl).merge_comm (hy b rfl))

/-- Regular requests meet in either grouping. -/
theorem RegularIf.meet_assoc (hx : RegularIf c e x) (hy : RegularIf c e y)
    (hz : RegularIf c e z) :
    Alike c e (meet (meet x y) z) (meet x (meet y z)) := by
  refine ⟨regularIf_meet (regularIf_meet hx hy) hz, regularIf_meet hx (regularIf_meet hy hz), ?_⟩
  cases x with
  | none => exact .none
  | some a =>
    cases y with
    | none => exact .none
    | some b =>
      cases z with
      | none => rw [meet_none, meet_none, meet_none]; exact .none
      | some d =>
        have h := sameOutcome_iff.mp ((hx a rfl).merge_assoc (hy b rfl) (hz d rfl))
        rwa [Outcome.toOption_bind, Outcome.toOption_bind] at h

/-- A regular request meets itself in itself. -/
theorem RegularIf.meet_self (hx : RegularIf c e x) : Alike c e (meet x x) x := by
  refine ⟨regularIf_meet hx hx, hx, ?_⟩
  cases x with
  | none => exact .none
  | some a =>
    obtain ⟨m, hm, heq⟩ := (hx a rfl).merge_self
    show Same (a.merge a).toOption _
    rw [hm]
    exact .some heq

theorem regular_new (he : e ∈ c.entities) : Regular c e (new e) :=
  ⟨fits_new he, rfl, Request.beq_iff.mpr ⟨rfl, rfl, rfl, by simp [new, attributes]⟩⟩

/-- Nothing is asked for by a request for nothing. -/
theorem RegularIf.meet_new (he : e ∈ c.entities) (hx : RegularIf c e x) :
    Alike c e (meet (some (new e)) x) x := by
  have hnew : RegularIf c e (some (new e)) := regularIf_some (regular_new he)
  refine ⟨regularIf_meet hnew hx, hx, ?_⟩
  cases x with
  | none => exact .none
  | some a =>
    have ha := hx a rfl
    -- An empty request asks for nothing, so no path is asked twice.
    have hnone : ∀ path, (new e).asks? path = none := by
      intro path
      cases path with
      | nil => rfl
      | cons name path => exact asks?_of_attribute?_none rfl path
    obtain ⟨m, hm⟩ := (Regular.merge_isOk (new e) ha).mpr fun path x y hx => by
      rw [hnone] at hx
      cases hx
    obtain ⟨hreg, ht, hask⟩ := (regular_new he).merge ha hm
    show Same ((new e).merge a).toOption _
    rw [hm]
    refine .some ((hreg.beq_iff ha).mpr ⟨by rw [ht]; rfl, fun path => ?_⟩)
    rw [hask, hnone, joinAsk, Option.merge_none_left]
    exact ha.same path

end Request

namespace Planning

open Request

variable {c : Catalog}

theorem nanFree_readArgument {a : Attribute} {s s' : Scope} {argument : String × Value}
    (hs : s.filter.NaNFree) (hv : argument.2.NaNFree) (h : readArgument a s argument = .ok s') :
    s'.filter.NaNFree := by
  obtain ⟨name, value⟩ := argument
  rw [readArgument] at h
  split at h
  · split at h
    · exact Except.ok.inj h ▸ hs
    · obtain ⟨n, _, rfl⟩ := Outcome.map_eq_ok.mp h
      split <;> exact hs
  · split at h
    · exact Except.ok.inj h ▸ hv
    · cases h

/-- A filter has no NaN that its arguments do not have. -/
theorem nanFree_readArguments {a : Attribute} {arguments : Arguments} {scope : Scope}
    (ha : ∀ argument ∈ arguments, argument.2.NaNFree)
    (h : readArguments a arguments = .ok scope) : scope.filter.NaNFree := by
  refine Outcome.of_foldlM_along (I := fun _ s => s.filter.NaNFree) ?_ .null h
  intro done argument after s s' hargs hs hs'
  have hmem : argument ∈ arguments := hargs ▸ List.mem_append_cons_self
  exact nanFree_readArgument hs (ha argument hmem) hs'

/-- Without NaN a filter is equal to itself. -/
theorem Names.filter_beq_self {e : Entity} {name : String} {arguments : Arguments}
    {a : AttributeRequest} {target : Option Entity} (h : Names c e name arguments a target)
    (hargs : ∀ argument ∈ arguments, argument.2.NaNFree) : a.ask.Compatible a.ask := by
  refine ⟨rfl, ?_⟩
  cases h with
  | scalar _ hscope _ _ hfilter =>
    exact Filter.compileScalar_beq_self (nanFree_readArguments hargs hscope) hfilter
  | entity _ hscope _ _ _ hfilter =>
    exact Filter.compile_beq_self (nanFree_readArguments hargs hscope) hfilter

def only (e : Entity) (a : AttributeRequest) : Request := (Request.new e).put a

/-- What is nested below an attribute is a regular request for the entity that it refers to. -/
def RegularBelow (c : Catalog) (target : Option Entity) (nested : Option Request) : Prop :=
  ∀ n, nested = some n → ∃ t, target = some t ∧ Regular c t n

theorem only_beq_iff {e : Entity} {a b : AttributeRequest} (hname : a.name = b.name) :
    (only e a == only e b) = true ↔ beqAttribute a b = true := by
  rw [Request.beq_iff]
  simp [only, put, new, attributes, Keyed.insert, attribute?, Keyed.find?_cons, hname, entity,
    typename]

/-- A request of one attribute is regular. -/
theorem regular_only {e : Entity} (he : e ∈ c.entities) {name : String} {arguments : Arguments}
    {a : AttributeRequest} {target : Option Entity} (h : Names c e name arguments a target)
    (hargs : ∀ argument ∈ arguments, argument.2.NaNFree) {nested : Option Request}
    (hn : RegularBelow c target nested) : Regular c e (only e (a.withNested nested)) := by
  have hfits : (a.withNested nested).Fits c e := by
    refine ⟨h.mem, fun n hnested => ?_, fun n hnested => ?_, fun n hnested => ?_⟩ <;>
      obtain ⟨t, rfl, hreg⟩ := hn n hnested
    · exact h.refers.1
    · exact hreg.entity ▸ h.refers.2
    · exact hreg.fits
  refine ⟨fits_put (fits_new he) hfits, rfl, (only_beq_iff rfl).mpr ?_⟩
  refine beqAttribute_iff.mpr ⟨rfl, h.filter_beq_self hargs, ?_⟩
  rw [nested_withNested]
  cases hnested : nested with
  | none => exact .none
  | some n =>
    obtain ⟨_, _, hreg⟩ := hn n hnested
    exact .some hreg.self

def field? (c : Catalog) (e : Entity) (f : AskedField)
    (planInner : Entity → Except Error Request) : Option Request :=
  (planField c e f planInner).toOption

def below? (c : Catalog) (x : Expansion) (e : Entity) : Option Request :=
  (planBelow c x e).toOption

/-- A field plans to a regular request, if to any. -/
theorem regular_field {e : Entity} (he : e ∈ c.entities) {f : AskedField}
    (hargs : ∀ argument ∈ f.arguments, argument.2.NaNFree)
    {planInner : Entity → Except Error Request}
    (hinner : ∀ t ∈ c.entities, RegularIf c t (planInner t).toOption) :
    RegularIf c e (field? c e f planInner) := by
  intro s hs
  obtain ⟨_, ⟨_, rfl⟩ | ⟨_, a, ha, rfl⟩⟩ := planField_eq_ok.mp (Outcome.toOption_eq_some.mp hs)
  · exact ⟨fits_withTypename (fits_new he) true, rfl,
      Request.beq_iff.mpr ⟨rfl, rfl, rfl, by simp [new, withTypename, attributes]⟩⟩
  · cases ha with
    | @bare a target hnames _ =>
      have hnone : RegularBelow c target none := by
        rintro n ⟨⟩
      rw [← withNested_nested hnames.nested]
      exact regular_only he hnames hargs hnone
    | @nested a t n hnames _ hn =>
      have ht : t ∈ c.entities := (Catalog.entity?_eq_some.mp hnames.refers.2).1
      refine regular_only he hnames hargs ?_
      rintro _ ⟨⟩
      exact ⟨t, rfl, hinner t ht n (Outcome.toOption_eq_some.mpr hn)⟩

/-- A regular request stays regular when more is asked for. -/
theorem regular_planAll {x : Expansion} (hx : x.NaNFree) {e : Entity} {r m : Request}
    (hr : Regular c e r) (h : planAll c r x = .ok m) : Regular c e m := by
  induction hx generalizing e r m with
  | done => exact Except.ok.inj h ▸ hr
  | fault err => cases h
  | @field f inner rest hargs _ _ ihinner ihrest =>
    obtain ⟨s, r', hs, hr', h⟩ := planAll_field_eq_ok.mp h
    rw [hr.entity] at hs
    have he : e ∈ c.entities := hr.entity ▸ (fits_iff.mp hr.fits).1
    have hsreg : Regular c e s := regular_field he hargs
      (fun t ht n hn => ihinner (regular_new ht) (Outcome.toOption_eq_some.mp hn)) s
      (Outcome.toOption_eq_some.mpr hs)
    exact ihrest (hr.merge hsreg hr').1 h

theorem regular_below {x : Expansion} (hx : x.NaNFree) {e : Entity} (he : e ∈ c.entities) :
    RegularIf c e (below? c x e) :=
  fun _ hm => regular_planAll hx (regular_new he) (Outcome.toOption_eq_some.mp hm)

def further (c : Catalog) (x : Expansion) (y : Option Request) : Option Request :=
  y.bind fun r => (planAll c r x).toOption

theorem further_field {e : Entity} {y : Option Request} (hy : RegularIf c e y) (f : AskedField)
    (inner rest : Unit → Expansion) : further c (.field f inner rest) y =
      further c (rest ()) (meet y (field? c e f (planBelow c (inner ())))) := by
  cases y with
  | none => rfl
  | some r =>
    show (planAll c r (.field f inner rest)).toOption = _
    rw [planAll_field, (hy r rfl).entity, Outcome.toOption_bind]
    simp only [Outcome.toOption_bind, Outcome.toOption_mapError, further, meet, field?,
      Option.bind_some, Option.bind_assoc]

/-- What an expansion asks for is merged with what is asked already. -/
theorem alike_further {x : Expansion} (hx : x.NaNFree) {e : Entity} (he : e ∈ c.entities)
    {y : Option Request} (hy : RegularIf c e y) :
    Alike c e (further c x y) (meet y (below? c x e)) := by
  have hnew : RegularIf c e (some (new e)) := regularIf_some (regular_new he)
  induction hx generalizing y with
  | done =>
    have hsame : further c .done y = y := by
      cases y <;> rfl
    rw [hsame]
    exact ((hy.meet_comm hnew).trans (RegularIf.meet_new he hy)).symm
  | fault err =>
    have hnone : further c (.fault err) y = none := by
      cases y <;> rfl
    rw [hnone, below?, planBelow, planAll]
    show Alike c e none (meet y none)
    rw [meet_none]
    exact regularIf_none.refl
  | @field f inner rest hargs hinner hrest _ ih =>
    -- What the field asks for is merged with the rest first, and then with what was asked already.
    have hfield : RegularIf c e (field? c e f (planBelow c (inner ()))) :=
      regular_field he hargs fun t ht => regular_below hinner ht
    have hbelow := regular_below hrest he
    have hright : Alike c e (below? c (.field f inner rest) e)
        (meet (field? c e f (planBelow c (inner ()))) (below? c (rest ()) e)) := by
      show Alike c e (further c (.field f inner rest) (some (new e))) _
      rw [further_field hnew]
      exact (ih (regularIf_meet hnew hfield)).trans
        ((RegularIf.meet_new he hfield).congr hbelow.refl)
    rw [further_field hy]
    exact (ih (regularIf_meet hy hfield)).trans
      ((hy.meet_assoc hfield hbelow).trans (hy.refl.congr hright.symm))

/-- Expansions in turn are planned in turn. -/
theorem planAll_andThen (r : Request) (x : Expansion) (y : Unit → Expansion) :
    planAll c r (x.andThen y) = planAll c r x >>= fun r => planAll c r (y ()) := by
  induction x generalizing r with
  | done => rfl
  | fault err => rfl
  | field f inner rest _ ih =>
    rw [Expansion.andThen, planAll_field, planAll_field]
    simp only [ih, bind_assoc]

/-- Expansions in a row ask for what each of them asks for. -/
theorem alike_andThen {x : Expansion} {y : Unit → Expansion} (hx : x.NaNFree)
    (hy : (y ()).NaNFree) {e : Entity} (he : e ∈ c.entities) :
    Alike c e (below? c (x.andThen y) e) (meet (below? c x e) (below? c (y ()) e)) := by
  have hrow : below? c (x.andThen y) e = further c (y ()) (below? c x e) := by
    rw [below?, planBelow, planAll_andThen, Outcome.toOption_bind]
    rfl
  rw [hrow]
  exact alike_further hy he (regular_below hx he)

end Planning

end EntityGraph
