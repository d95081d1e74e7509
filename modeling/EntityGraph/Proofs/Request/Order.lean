import EntityGraph.Proofs.Request.Fits

namespace EntityGraph

namespace Expansion

def names : Expansion → List String
  | .done | .fault _ => []
  | .field head _ rest => head.name :: names (rest ())

/-- What the fields of a name ask for below them, for each of those that has selections of its
own. -/
def inside (name : String) : Expansion → List Expansion
  | .done | .fault _ => []
  | .field head inner rest =>
    (if head.name = name ∧ head.selected then [inner ()] else []) ++ inside name (rest ())

theorem inside_eq_nil {name : String} {x : Expansion} (h : name ∉ x.names) :
    x.inside name = [] := by
  induction x with
  | done => rfl
  | fault _ => rfl
  | field head inner rest _ ih =>
    rw [names, List.mem_cons, not_or] at h
    rw [inside, if_neg fun hf => h.1 hf.1.symm, ih () h.2]
    rfl

end Expansion

namespace Request

def selected (xs : List Expansion) : List String := xs.flatMap Expansion.names

def selectedBelow (name : String) (xs : List Expansion) : List Expansion :=
  xs.flatMap (Expansion.inside name)

/-- A request follows expansions in a row: it asks for the type's name if they select it, and for
the attributes that they select, each once and in the order of their first selection. Below an
attribute it follows what is selected there, and asks for nothing where nothing is. -/
inductive Follows : Request → List Expansion → Prop
  | mk {r : Request} {xs : List Expansion} : (r.typename = true ↔ typenameField ∈ selected xs) →
      r.attributes.map AttributeRequest.name =
        Keyed.ofList id ((selected xs).filter (· ≠ typenameField)) →
      (∀ a ∈ r.attributes, a.nested = none ↔ selectedBelow a.name xs = []) →
      (∀ a ∈ r.attributes, ∀ n, a.nested = some n → Follows n (selectedBelow a.name xs)) →
      Follows r xs

theorem selected_append (xs ys : List Expansion) :
    selected (xs ++ ys) = selected xs ++ selected ys := List.flatMap_append

theorem selectedBelow_append (name : String) (xs ys : List Expansion) :
    selectedBelow name (xs ++ ys) = selectedBelow name xs ++ selectedBelow name ys :=
  List.flatMap_append

theorem selectedBelow_eq_nil {name : String} {xs : List Expansion} (h : name ∉ selected xs) :
    selectedBelow name xs = [] := by
  rw [selected, List.mem_flatMap] at h
  refine List.flatMap_eq_nil_iff.mpr fun x hx => Expansion.inside_eq_nil fun hn => h ⟨x, hx, hn⟩

namespace Follows

variable {r s m : Request} {xs ys : List Expansion}

/-- Attributes come in the order in which their names appear first. -/
theorem names (h : r.Follows xs) : r.attributes.map AttributeRequest.name =
    Keyed.ofList id ((selected xs).filter (· ≠ typenameField)) := by
  cases h with
  | mk _ hn _ _ => exact hn

theorem typename_iff (h : r.Follows xs) :
    r.typename = true ↔ typenameField ∈ selected xs := by
  cases h with
  | mk ht _ _ _ => exact ht

/-- What is asked below an attribute follows what is selected there. -/
theorem nested (h : r.Follows xs) {a : AttributeRequest} (ha : a ∈ r.attributes) {n : Request}
    (hn : a.nested = some n) : n.Follows (selectedBelow a.name xs) := by
  cases h with
  | mk _ _ _ hb => exact hb a ha n hn

/-- Nothing is nested exactly where nothing is selected. -/
theorem nested_eq_none (h : r.Follows xs) {a : AttributeRequest} (ha : a ∈ r.attributes) :
    a.nested = none ↔ selectedBelow a.name xs = [] := by
  cases h with
  | mk _ _ hnone _ => exact hnone a ha

theorem mem_names (h : r.Follows xs) {name : String} :
    name ∈ r.attributes.map AttributeRequest.name ↔
      name ∈ selected xs ∧ name ≠ typenameField := by
  rw [h.names, Keyed.ofList_id, Keyed.mem_append]
  simp

theorem distinct (h : r.Follows xs) : r.Distinct := by
  induction h with
  | mk _ hn _ _ ih =>
    refine .mk ?_ ih
    rw [hn]
    simpa using Keyed.nodup_ofList id _

/-- Nothing is selected below the name of an attribute that is not asked for. -/
theorem below_eq_nil (h : r.Follows xs) {name : String} (hname : name ≠ typenameField)
    (hnone : r.attribute? name = none) : selectedBelow name xs = [] := by
  refine selectedBelow_eq_nil fun hs => ?_
  exact Keyed.find?_eq_none.mp hnone (h.mem_names.mpr ⟨hs, hname⟩)

end Follows

variable {r s m : Request} {xs ys : List Expansion}

/-- Only what is selected matters, here and below each name. -/
theorem follows_congr (h : r.Follows xs) (hs : selected xs = selected ys)
    (hb : ∀ name, selectedBelow name xs = selectedBelow name ys) : r.Follows ys := by
  cases h with
  | mk ht hn hnone hnested =>
    refine .mk (hs ▸ ht) (hs ▸ hn) (fun a ha => ?_) fun a ha n hn => ?_
    · rw [← hb]
      exact hnone a ha
    · rw [← hb]
      exact hnested a ha n hn

theorem names_put (r : Request) (a : AttributeRequest) :
    (r.put a).attributes.map AttributeRequest.name =
      Keyed.insert id a.name (r.attributes.map AttributeRequest.name) :=
  Keyed.map_insert a r.attributes

/-- Names that are there already keep their place. -/
theorem names_addAll {as : List AttributeRequest} (h : r.addAll as = .ok m) :
    m.attributes.map AttributeRequest.name =
      Keyed.append (r.attributes.map AttributeRequest.name) (as.map AttributeRequest.name) := by
  induction as generalizing r with
  | nil => exact Except.ok.inj h ▸ rfl
  | cons a as ih =>
    obtain ⟨r', hr', h⟩ := Outcome.bind_eq_ok.mp h
    obtain ⟨z, _, hz, rfl⟩ := add_eq_ok.mp hr'
    rw [ih h, names_put, hz, List.map_cons, Keyed.append_cons]

/-- What is asked below an attribute follows expansions in a row, and there is something to follow
wherever something is asked. -/
structure FollowsBelow (nested : Option Request) (xs : List Expansion) : Prop where
  none_iff : nested = none ↔ xs = []
  follows : ∀ n, nested = some n → n.Follows xs

theorem Follows.followsBelow (h : r.Follows xs) {a : AttributeRequest} (ha : a ∈ r.attributes) :
    FollowsBelow a.nested (selectedBelow a.name xs) :=
  ⟨h.nested_eq_none ha, fun _ hn => h.nested ha hn⟩

/-- What is joined below an attribute follows what either side follows, the left one first. -/
theorem FollowsBelow.join {x y z : Option Request} (hx : FollowsBelow x xs)
    (hy : FollowsBelow y ys) (hmerge : ∀ {n k l : Request}, y = some k → n.Follows xs →
      k.Follows ys → n.merge k = .ok l → l.Follows (xs ++ ys)) (h : joinNested x y = .ok z) :
    FollowsBelow z (xs ++ ys) := by
  rcases joinNested_eq_ok h with ⟨hn, rfl⟩ | ⟨hk, rfl⟩ | ⟨n, k, l, hn, hk, hl, rfl⟩
  · rw [hx.none_iff.mp hn, List.nil_append]
    exact hy
  · rw [hy.none_iff.mp hk, List.append_nil]
    exact hx
  · have hxs : xs ≠ [] := fun hnil => by simp [hx.none_iff.mpr hnil] at hn
    refine ⟨by simp [hxs], ?_⟩
    rintro _ ⟨⟩
    exact hmerge hk (hx.follows n hn) (hy.follows k hk) hl

/-- A merged request follows what the first one follows and then what the second one follows. -/
theorem follows_merge (hr : r.Follows xs) (hs : s.Follows ys) (h : r.merge s = .ok m) :
    m.Follows (xs ++ ys) := by
  -- The induction is on the second request, whose parts are what merging goes down to.
  induction s using Request.induction generalizing r m xs ys with
  | nested s ih =>
    obtain ⟨_, ht, hout, hin⟩ := merge_eq_ok_one hs.distinct h
    have hnames : m.attributes.map AttributeRequest.name =
        Keyed.ofList id ((selected (xs ++ ys)).filter (· ≠ typenameField)) := by
      rw [merge_eq] at h
      rw [names_addAll h, attributes_withTypename, hr.names, hs.names, Keyed.append_ofList,
        Keyed.ofList_id, Keyed.append_append, ← List.filter_append, ← selected_append,
        Keyed.ofList_id]
    have hfind : ∀ a ∈ m.attributes, m.attribute? a.name = some a := by
      intro a ha
      refine (Keyed.find?_eq_some ?_).mpr ⟨ha, rfl⟩
      rw [hnames]
      simpa using Keyed.nodup_ofList id _
    have hself : ∀ a ∈ m.attributes, a.name ≠ typenameField := by
      intro a ha
      have hm : a.name ∈ m.attributes.map AttributeRequest.name := List.mem_map_of_mem ha
      rw [hnames, Keyed.ofList_id, Keyed.mem_append] at hm
      simpa using (List.mem_filter.mp (hm.resolve_left List.not_mem_nil)).2
    have hbelow : ∀ a ∈ m.attributes,
        FollowsBelow a.nested (selectedBelow a.name (xs ++ ys)) := by
      intro a ha
      rw [selectedBelow_append]
      have ha' := hfind a ha
      cases hy : s.attribute? a.name with
      | none =>
        -- The attribute comes from the first request alone.
        rw [hout _ hy] at ha'
        rw [hs.below_eq_nil (hself a ha) hy, List.append_nil]
        exact hr.followsBelow (mem_of_attribute? ha').1
      | some y =>
        obtain ⟨z, hz, hmz⟩ := hin _ y hy
        obtain rfl := Option.some.inj (ha'.symm.trans hmz)
        obtain ⟨hymem, hyname⟩ := mem_of_attribute? hy
        cases hx : r.attribute? a.name with
        | none =>
          rw [hx] at hz
          obtain rfl := Except.ok.inj hz
          rw [hr.below_eq_nil (hself _ ha) hx, List.nil_append]
          exact hs.followsBelow hymem
        | some x =>
          -- Both requests ask for it, and what they ask below it is joined.
          rw [hx] at hz
          obtain ⟨hxmem, _⟩ := mem_of_attribute? hx
          obtain ⟨_, nested, hjoin, rfl⟩ := joinAttribute_some_eq_ok.mp hz
          rw [name_withNested] at hyname ⊢
          rw [nested_withNested]
          exact (hr.followsBelow hxmem).join (hyname ▸ hs.followsBelow hymem)
            (fun hk hn hk' hl => ih y hymem _ hk hn hk' hl) hjoin
    have htype : m.typename = true ↔ typenameField ∈ selected (xs ++ ys) := by
      rw [ht, Bool.or_eq_true, hr.typename_iff, hs.typename_iff, selected_append, List.mem_append]
    exact .mk htype hnames (fun a ha => (hbelow a ha).none_iff)
      fun a ha => (hbelow a ha).follows

theorem follows_new (e : Entity) : (new e).Follows [] :=
  .mk (by simp [new, typename, selected]) rfl (by simp [new, attributes])
    (by simp [new, attributes])

theorem follows_typename (e : Entity) {f : AskedField} (hf : f.name = typenameField)
    (inner : Unit → Expansion) :
    ((new e).withTypename true).Follows [.field f inner fun _ => .done] := by
  refine .mk ?_ ?_ ?_ ?_ <;>
    simp [new, withTypename, typename, attributes, selected, Expansion.names, hf, Keyed.ofList]

/-- A request of one attribute follows the field it comes from. -/
theorem follows_put (e : Entity) {f : AskedField} {a : AttributeRequest} (ha : a.name = f.name)
    (hf : f.name ≠ typenameField) {inner : Unit → Expansion}
    (hnone : a.nested = none ↔ f.selected = false)
    (hnested : ∀ n, a.nested = some n → n.Follows [inner ()]) :
    ((new e).put a).Follows [.field f inner fun _ => .done] := by
  have hbelow : selectedBelow a.name [.field f inner fun _ => .done] =
      if f.selected then [inner ()] else [] := by
    simp [selectedBelow, Expansion.inside, ha]
  have hname : Keyed.ofList id ((selected [.field f inner fun _ => .done]).filter
      (· ≠ typenameField)) = [f.name] := by
    simp [selected, Expansion.names, hf, Keyed.ofList, Keyed.insert]
  refine .mk ?_ (hname.symm ▸ congrArg (· :: []) ha) ?_ ?_
  · simp [new, put, typename, selected, Expansion.names, Ne.symm hf]
  · rintro _ (_ | ⟨_, ⟨⟩⟩)
    rw [hnone, hbelow]
    simp
  · rintro _ (_ | ⟨_, ⟨⟩⟩) n hn
    have hs : f.selected = true := by simpa [hn] using hnone
    rw [hbelow, if_pos hs]
    exact hnested n hn

end Request

namespace Planning

open Request

variable {c : Catalog}

/-- The plan of one field follows it. -/
theorem follows_planField {e : Entity} {f : AskedField} {inner : Unit → Expansion} {s : Request}
    (hinner : ∀ {t n}, planBelow c (inner ()) t = .ok n → n.Follows [inner ()])
    (h : planField c e f (planBelow c (inner ())) = .ok s) :
    s.Follows [.field f inner fun _ => .done] := by
  obtain ⟨_, ⟨hf, rfl⟩ | ⟨hf, a, ha, rfl⟩⟩ := planField_eq_ok.mp h
  · exact follows_typename e hf inner
  · cases ha with
    | bare hnames hs =>
      exact follows_put e hnames.name_eq hf (by simp [hnames.nested, hs]) (by simp [hnames.nested])
    | @nested a target n hnames hs hn =>
      refine follows_put (a := a.withNested (some n)) e hnames.name_eq hf (by simp [hs]) ?_
      rintro _ ⟨⟩
      exact hinner hn

/-- What is planned follows what was asked before and then the expansion. -/
theorem follows_planAll (x : Expansion) {r m : Request} {xs : List Expansion} (hr : r.Follows xs)
    (h : planAll c r x = .ok m) : m.Follows (xs ++ [x]) := by
  induction x generalizing r m xs with
  | done =>
    obtain rfl := Except.ok.inj h
    refine follows_congr hr ?_ fun name => ?_
    · rw [selected_append]; simp [selected, Expansion.names]
    · rw [selectedBelow_append]; simp [selectedBelow, Expansion.inside]
  | fault err => cases h
  | field f inner rest ihinner ihrest =>
    obtain ⟨s, r', hs, hr', h⟩ := planAll_field_eq_ok.mp h
    have hsingle : s.Follows [.field f inner fun _ => .done] :=
      follows_planField (fun hn => ihinner () (follows_new _) hn) hs
    refine follows_congr (ihrest () (follows_merge hr hsingle hr') h) ?_ fun name => ?_
    · simp [selected, Expansion.names]
    · simp [selectedBelow, Expansion.inside]

end Planning

end EntityGraph
