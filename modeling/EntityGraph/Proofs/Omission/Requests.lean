import EntityGraph.Proofs.Omission.Filters
import EntityGraph.Proofs.Request.Repeated

namespace EntityGraph

/-- What fields are selected of: the root of operations, the records of an entity, or something
that has no fields. -/
inductive FieldScope where
  | root (kind : RootKind)
  | record (e : Entity)
  | other

namespace FieldScope

variable (service : Service)

def ofName (name : String) : FieldScope :=
  match service.catalog.entity? name with
  | some e => .record e
  | none => .other

def below : FieldScope → String → FieldScope
  | .root kind, name => match service.roots.get kind name with
    | .ok f => match TypeString.parse f.returnType.text with
      | .ok type => ofName service type.name
      | .error _ => .other
    | .error _ => .other
  | .record e, name => match e.attribute? name with
    | some a => ofName service a.typeName
    | none => .other
  | .other, _ => .other

def place : FieldScope → String → Place
  | .root kind, name => match service.roots.get kind name with
    | .ok f => .rootField f
    | .error _ => .elsewhere
  | .record e, name => match e.attribute? name with
    | some a => .attribute a
    | none => .elsewhere
  | .other, _ => .elsewhere

end FieldScope

/-- A field that is asked for, and the same field without some of the nulls in its arguments. -/
structure AskedOmits (service : Service) (place : Place) (f f' : AskedField) : Prop where
  name : f'.name = f.name
  label : f'.label = f.label
  selected : f'.selected = f.selected
  keys : (f.arguments.map Prod.fst).Nodup
  arguments : OmitsFields service place f.arguments f'.arguments

inductive ExpansionOmits (service : Service) : FieldScope → Expansion → Expansion → Prop
  | done (scope : FieldScope) : ExpansionOmits service scope .done .done
  | fault (scope : FieldScope) (e : Error) : ExpansionOmits service scope (.fault e) (.fault e)
  | field {scope : FieldScope} {head head' : AskedField}
      {inner inner' rest rest' : Unit → Expansion} :
      AskedOmits service (scope.place service head.name) head head' →
      ExpansionOmits service (scope.below service head.name) (inner ()) (inner' ()) →
      ExpansionOmits service scope (rest ()) (rest' ()) →
      ExpansionOmits service scope (.field head inner rest) (.field head' inner' rest')

namespace Planning

variable {service : Service} {a : Attribute}

structure ScopeOmits (service : Service) (a : Attribute) (s s' : Scope) : Prop where
  start : s'.start = s.start
  limit : s'.limit = s.limit
  filter : Omits service (Place.ofFiltered service a) s.filter s'.filter

structure Unset (s : Scope) (key : String) : Prop where
  start : key = "start" → s.start = none
  limit : key = "limit" → s.limit = none
  filter : key = "filter" → s.filter = .null

/-- A null counts as if it were not there. -/
theorem readArgument_null {key : String} (hkey : (Place.attribute a).knows service key = true)
    {s : Scope} (hs : Unset s key) : readArgument a s (key, .null) = .ok s := by
  obtain ⟨start, limit, filter⟩ := s
  rw [readArgument]
  by_cases hstart : key = "start"
  · obtain rfl : start = none := hs.start hstart
    subst hstart
    cases a.repeating <;> rfl
  · by_cases hlimit : key = "limit"
    · obtain rfl : limit = none := hs.limit hlimit
      subst hlimit
      cases a.repeating <;> rfl
    · have hfilter : key = "filter" ∧ (a.repeating || !a.isScalar) = true := by
        simpa [Place.knows, hstart, hlimit] using hkey
      obtain rfl : filter = .null := hs.filter hfilter.1
      rw [if_neg (not_or.mpr ⟨hstart, hlimit⟩), if_pos hfilter]

/-- An argument is taken into account under its own name only. -/
theorem unset_readArgument {s t : Scope} {argument : String × Value}
    (h : readArgument a s argument = .ok t) {key : String} (hkey : argument.1 ≠ key)
    (hs : Unset s key) : Unset t key := by
  obtain ⟨name, value⟩ := argument
  rw [readArgument] at h
  split at h
  · next hwindow =>
    split at h
    · exact Except.ok.inj h ▸ hs
    · obtain ⟨n, _, rfl⟩ := Outcome.map_eq_ok.mp h
      split
      · next hstart => exact ⟨fun h => absurd (hstart.trans h.symm) hkey, hs.limit, hs.filter⟩
      · next hstart =>
        have hlimit : name = "limit" := hwindow.resolve_left hstart
        exact ⟨hs.start, fun h => absurd (hlimit.trans h.symm) hkey, hs.filter⟩
  · split at h
    · next hfilter =>
      obtain rfl := Except.ok.inj h
      exact ⟨hs.start, hs.limit, fun h => absurd (hfilter.1.trans h.symm) hkey⟩
    · cases h

/-- An argument comes to the same, up to some nulls in the filter. -/
theorem readArgument_omits {s s' : Scope} (hs : ScopeOmits service a s s') {key : String}
    {v v' : Value} (hv : Omits service ((Place.attribute a).inside service key) v v') :
    (∃ err, readArgument a s (key, v) = .error err ∧ readArgument a s' (key, v') = .error err) ∨
      ∃ t t', readArgument a s (key, v) = .ok t ∧ readArgument a s' (key, v') = .ok t' ∧
        ScopeOmits service a t t' := by
  rw [readArgument, readArgument]
  rw [Place.inside] at hv
  -- Only the filter may differ, and it is kept without being read.
  by_cases hfilter : key = "filter"
  · have hwindow : ¬(key = "start" ∨ key = "limit") := by subst hfilter; decide
    rw [if_pos hfilter] at hv
    rw [if_neg hwindow, if_neg hwindow]
    split
    · exact Or.inr ⟨_, _, rfl, rfl, hs.start, hs.limit, hv⟩
    · exact Or.inl ⟨_, rfl, rfl⟩
  · rw [if_neg hfilter] at hv
    obtain rfl := hv.eq_of_elsewhere
    have hnot : ¬(key = "filter" ∧ (a.repeating || !a.isScalar) = true) := fun h => hfilter h.1
    by_cases hwindow : key = "start" ∨ key = "limit"
    · rw [if_pos hwindow, if_pos hwindow]
      split
      · exact Or.inr ⟨s, s', rfl, rfl, hs⟩
      · cases intArgument a.name key v' with
        | error err => exact Or.inl ⟨err, rfl, rfl⟩
        | ok n =>
          refine Or.inr ⟨_, _, rfl, rfl, ?_⟩
          split
          · exact ⟨rfl, hs.limit, hs.filter⟩
          · exact ⟨hs.start, rfl, hs.filter⟩
    · rw [if_neg hwindow, if_neg hwindow, if_neg hnot, if_neg hnot]
      exact Or.inl ⟨_, rfl, rfl⟩

/-- Arguments come to the same, up to some nulls in the filter. -/
theorem foldlM_readArgument_omits {arguments arguments' : Arguments}
    (h : OmitsFields service (.attribute a) arguments arguments')
    (hkeys : (arguments.map Prod.fst).Nodup) {s s' : Scope} (hs : ScopeOmits service a s s')
    (hunset : ∀ key ∈ arguments.map Prod.fst, Unset s key) :
    (∃ err, arguments.foldlM (readArgument a) s = .error err ∧
        arguments'.foldlM (readArgument a) s' = .error err) ∨
      ∃ t t', arguments.foldlM (readArgument a) s = .ok t ∧
        arguments'.foldlM (readArgument a) s' = .ok t' ∧ ScopeOmits service a t t' := by
  -- A null sets nothing only while nothing else has been set under its name, which holds as each
  -- name is there once.
  induction arguments generalizing arguments' s s' with
  | nil => cases h; exact Or.inr ⟨s, s', rfl, rfl, hs⟩
  | cons argument arguments ih =>
    rw [List.map_cons, List.nodup_cons] at hkeys
    rw [List.map_cons, List.forall_mem_cons] at hunset
    cases h with
    | omitted hkey h =>
      rw [List.foldlM_cons, readArgument_null hkey hunset.1]
      exact ih h hkeys.2 hs hunset.2
    | @kept _ key v v' _ arguments' hv h =>
      rw [List.foldlM_cons, List.foldlM_cons]
      rcases readArgument_omits hs hv with ⟨err, herr, herr'⟩ | ⟨t, t', ht, ht', hnext⟩
      · rw [herr, herr']
        exact Or.inl ⟨err, rfl, rfl⟩
      · rw [ht, ht']
        refine ih h hkeys.2 hnext fun other hother => ?_
        have hne : key ≠ other := fun heq => hkeys.1 (heq ▸ hother)
        exact unset_readArgument ht hne (hunset.2 other hother)

/-- Arguments of an attribute fail alike or give scopes that differ in nulls. -/
theorem readArguments_omits {arguments arguments' : Arguments}
    (h : OmitsFields service (.attribute a) arguments arguments')
    (hkeys : (arguments.map Prod.fst).Nodup) :
    (∃ err, readArguments a arguments = .error err ∧ readArguments a arguments' = .error err) ∨
      ∃ s s', readArguments a arguments = .ok s ∧ readArguments a arguments' = .ok s' ∧
        ScopeOmits service a s s' :=
  foldlM_readArgument_omits h hkeys ⟨rfl, rfl, .same _ _⟩
    fun _ _ => ⟨fun _ => rfl, fun _ => rfl, fun _ => rfl⟩

/-- A field of a record is planned to the same without some of the nulls in its arguments, if what
is selected of it is. -/
theorem planAttribute_omits {e : Entity} {f f' : AskedField}
    (h : AskedOmits service ((FieldScope.record e).place service f.name) f f')
    {planInner planInner' : Entity → Except Error Request}
    (hinner : ∀ a t, e.attribute? f.name = some a → service.catalog.entity? a.typeName = some t →
      planInner' t = planInner t) :
    planAttribute service.catalog e f' planInner' = planAttribute service.catalog e f planInner := by
  rw [planAttribute, planAttribute, h.name, h.selected]
  refine Outcome.bind_congr fun a ha => ?_
  -- What was left out was known by this attribute.
  have hfound : e.attribute? f.name = some a := by
    rw [Outcome.mapError_eq_ok, Entity.requireAttribute] at ha
    split at ha
    · next hsome => exact hsome.trans (congrArg some (Except.ok.inj ha))
    · cases ha
  have harguments : OmitsFields service (.attribute a) f.arguments f'.arguments := by
    have hplace := h.arguments
    rwa [FieldScope.place, hfound] at hplace
  rcases readArguments_omits harguments h.keys with ⟨err, herr, herr'⟩ | ⟨s, s', hs, hs', hscope⟩
  · rw [herr, herr']
    rfl
  · -- Of the scope only the filter may differ, which compiles to the same.
    have hwindow : readWindow a s' = readWindow a s := by
      rw [readWindow, readWindow, hscope.start, hscope.limit]
    have hfilter := hscope.filter
    rw [Outcome.bind_of_eq_ok hs, Outcome.bind_of_eq_ok hs', hwindow]
    refine Outcome.bind_congr fun window _ => ?_
    rw [Place.ofFiltered] at hfilter
    cases hk : a.scalarKind? with
    | some kind =>
      rw [hk] at hfilter
      dsimp only
      rw [planScalar, planScalar, Filter.compileScalar_omits hfilter]
    | none =>
      rw [hk] at hfilter
      dsimp only
      refine Outcome.bind_congr fun t ht => ?_
      have htarget : service.catalog.entity? a.typeName = some t :=
        Catalog.require_eq_ok.mp (Outcome.mapError_eq_ok.mp ht)
      rw [Place.ofEntity, htarget] at hfilter
      rw [Filter.compile_omits hfilter, hinner a t hfound htarget]

/-- Selections of a record are planned to the same without some of the nulls in arguments. -/
theorem planAll_omits {x x' : Expansion} {e : Entity}
    (h : ExpansionOmits service (.record e) x x') {request : Request}
    (hrequest : request.entity = e) :
    planAll service.catalog request x' = planAll service.catalog request x := by
  induction x generalizing x' e request with
  | done => cases h; rfl
  | fault err => cases h; rfl
  | field head inner rest ihinner ihrest =>
    cases h with
    | @field _ _ head' _ inner' _ rest' hhead hinner hrest =>
      have hplanned : planAttribute service.catalog request.entity head' (fun t =>
            planAll service.catalog (Request.new t) (inner' ())) =
          planAttribute service.catalog request.entity head fun t =>
            planAll service.catalog (Request.new t) (inner ()) := by
        rw [hrequest]
        -- The scope below is that of the entity the attribute refers to.
        refine planAttribute_omits hhead fun a t ha ht => ihinner () (e := t) ?_ rfl
        simpa only [FieldScope.below, ha, FieldScope.ofName, ht] using hinner
      rw [planAll, planAll, hhead.name, hhead.label, hplanned]
      refine Outcome.bind_congr fun _ _ => ?_
      split
      · exact ihrest () hrest hrequest
      · refine Outcome.bind_congr fun a _ => Outcome.bind_congr fun next hnext => ?_
        obtain ⟨z, _, _, rfl⟩ := Request.add_eq_ok.mp (Outcome.mapError_eq_ok.mp hnext)
        exact ihrest () hrest hrequest

end Planning

end EntityGraph
