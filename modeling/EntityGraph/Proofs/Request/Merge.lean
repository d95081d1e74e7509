import EntityGraph.Proofs.Catalog
import EntityGraph.Proofs.Keyed
import EntityGraph.Proofs.Outcome
import EntityGraph.Request.Basic

namespace EntityGraph

namespace Request

/-- Induction over the requests that are nested in a request. -/
@[elab_as_elim]
theorem induction {P : Request → Prop}
    (nested : ∀ r : Request, (∀ a ∈ r.attributes, ∀ n, a.nested = some n → P n) → P r) :
    ∀ r, P r := by
  intro r
  refine @Request.rec P (fun a => ∀ n, a.nested = some n → P n)
    (fun as => ∀ a ∈ as, ∀ n, a.nested = some n → P n)
    (fun nested => ∀ n, nested = some n → P n) ?_ ?_ ?_ ?_ ?_ ?_ r
  · exact fun entity typename attributes h => nested (.mk entity typename attributes) h
  · exact fun _ _ _ _ h => h
  · simp
  · exact fun a as ha has => List.forall_mem_cons.mpr ⟨ha, has⟩
  · simp
  · intro n hn m hm
    exact Option.some.inj hm ▸ hn

@[simp] theorem entity_new (e : Entity) : (new e).entity = e := rfl

@[simp] theorem entity_put (r : Request) (a : AttributeRequest) : (r.put a).entity = r.entity := rfl

@[simp] theorem typename_put (r : Request) (a : AttributeRequest) :
    (r.put a).typename = r.typename := rfl

@[simp] theorem attribute?_put (r : Request) (a : AttributeRequest) (name : String) :
    (r.put a).attribute? name = if a.name = name then some a else r.attribute? name :=
  Keyed.find?_insert name a r.attributes

@[simp] theorem entity_withTypename (r : Request) (flag : Bool) :
    (r.withTypename flag).entity = r.entity := rfl

@[simp] theorem typename_withTypename (r : Request) (flag : Bool) :
    (r.withTypename flag).typename = (r.typename || flag) := rfl

@[simp] theorem attribute?_withTypename (r : Request) (flag : Bool) (name : String) :
    (r.withTypename flag).attribute? name = r.attribute? name := rfl

@[simp] theorem attributes_withTypename (r : Request) (flag : Bool) :
    (r.withTypename flag).attributes = r.attributes := rfl

theorem withTypename_false (r : Request) : r.withTypename false = r := by
  cases r
  simp [withTypename, entity, typename, attributes]

theorem mem_of_attribute? {r : Request} {name : String} {a : AttributeRequest}
    (h : r.attribute? name = some a) : a ∈ r.attributes ∧ a.name = name :=
  ⟨List.mem_of_find?_eq_some h, Keyed.key_of_find? h⟩

def joinNested : Option Request → Option Request → Except SchemaError (Option Request)
  | some x, some y => (x.merge y).map some
  | some x, none => .ok (some x)
  | none, y => .ok y

/-- Two requests for an attribute of an entity as one; the first may be missing. -/
def joinAttribute (e : Entity) (a : AttributeRequest) :
    Option AttributeRequest → Except SchemaError AttributeRequest
  | none => .ok a
  | some x =>
    if x.compatible a then (joinNested x.nested a.nested).map x.withNested
    else .error (.conflictingArguments e.name a.name)

theorem withNested_nested {a : AttributeRequest} {nested : Option Request} (h : a.nested = nested) :
    a.withNested nested = a := by
  subst h
  cases a
  rfl

/-- Putting back what is there changes nothing. -/
theorem put_of_attribute? {r : Request} {a : AttributeRequest} (h : r.attribute? a.name = some a) :
    r.put a = r := by
  rw [put, Keyed.insert_of_find? h]
  cases r
  rfl

/-- What is asked of an attribute is joined with what was asked of it before. -/
theorem add_eq (r : Request) (a : AttributeRequest) :
    r.add a = (joinAttribute r.entity a (r.attribute? a.name)).map r.put := by
  obtain ⟨definition, window, filter, nested⟩ := a
  have hname : (AttributeRequest.mk definition window filter nested).name = definition.name := rfl
  rw [hname, add]
  cases h : r.attribute? definition.name with
  | none => rfl
  | some x =>
    -- Where nothing more is nested, what was asked before stays as it stands.
    have hkeep : r.put x = r := put_of_attribute? ((mem_of_attribute? h).2 ▸ h)
    simp only [joinAttribute]
    split
    · cases hx : x.nested with
      | none =>
        cases nested with
        | none =>
          show _ = Except.ok (r.put (x.withNested none))
          rw [withNested_nested hx, hkeep]
        | some other => rfl
      | some current =>
        cases nested with
        | none =>
          show _ = Except.ok (r.put (x.withNested (some current)))
          rw [withNested_nested hx, hkeep]
        | some other =>
          simp only [joinNested, AttributeRequest.nested]
          cases current.merge other <;> rfl
    · rfl

@[simp] theorem name_withNested (a : AttributeRequest) (nested : Option Request) :
    (a.withNested nested).name = a.name := rfl

@[simp] theorem nested_withNested (a : AttributeRequest) (nested : Option Request) :
    (a.withNested nested).nested = nested := rfl

/-- A second ask for an attribute joins it when compatible. -/
theorem joinAttribute_some_eq_ok {e : Entity} {a x z : AttributeRequest} :
    joinAttribute e a (some x) = .ok z ↔ x.compatible a = true ∧
      ∃ nested, joinNested x.nested a.nested = .ok nested ∧ x.withNested nested = z := by
  rw [joinAttribute]
  split
  · next h => simp [h, Outcome.map_eq_ok]
  · next h => simp [h]

theorem name_joinAttribute {e : Entity} {a z : AttributeRequest} {x : Option AttributeRequest}
    (hx : ∀ y, x = some y → y.name = a.name) (h : joinAttribute e a x = .ok z) :
    z.name = a.name := by
  cases x with
  | none => rw [Except.ok.inj h]
  | some x =>
    obtain ⟨_, nested, _, rfl⟩ := joinAttribute_some_eq_ok.mp h
    exact hx x rfl

/-- Adding, told by what stands under the name. -/
theorem add_eq_ok {r m : Request} {a : AttributeRequest} : r.add a = .ok m ↔
    ∃ z, joinAttribute r.entity a (r.attribute? a.name) = .ok z ∧ z.name = a.name ∧
      r.put z = m := by
  rw [add_eq, Outcome.map_eq_ok]
  refine exists_congr fun z => and_congr_right fun h => ?_
  have hz : z.name = a.name := name_joinAttribute (fun y hy => (mem_of_attribute? hy).2) h
  simp [hz]

/-- Several attributes with names of their own are asked for when each of them can be joined with
what was asked before. -/
theorem addAll_isOk {r : Request} {as : List AttributeRequest}
    (hn : (as.map AttributeRequest.name).Nodup) : (∃ m, r.addAll as = .ok m) ↔
      ∀ a ∈ as, ∃ z, joinAttribute r.entity a (r.attribute? a.name) = .ok z := by
  induction as generalizing r with
  | nil => simp [addAll]
  | cons a as ih =>
    rw [List.map_cons, List.nodup_cons] at hn
    -- Names are distinct, so what is put does not matter to the rest.
    have hother : ∀ z, z.name = a.name → ∀ b ∈ as,
        (r.put z).attribute? b.name = r.attribute? b.name := by
      intro z hz b hb
      have hab : z.name ≠ b.name := fun h =>
        hn.1 ((h.symm.trans hz) ▸ List.mem_map_of_mem hb)
      simp [hab]
    simp only [addAll, List.forall_mem_cons]
    constructor
    · rintro ⟨m, h⟩
      obtain ⟨r', hr', h⟩ := Outcome.bind_eq_ok.mp h
      obtain ⟨z, hz, hname, rfl⟩ := add_eq_ok.mp hr'
      refine ⟨⟨z, hz⟩, fun b hb => ?_⟩
      have hb' := (ih hn.2).mp ⟨m, h⟩ b hb
      rwa [hother z hname b hb] at hb'
    · rintro ⟨⟨z, hz⟩, hrest⟩
      have hname : z.name = a.name := name_joinAttribute (fun y hy => (mem_of_attribute? hy).2) hz
      obtain ⟨m, hm⟩ := (ih (r := r.put z) hn.2).mpr fun b hb => by
        rw [hother z hname b hb]
        exact hrest b hb
      exact ⟨m, Outcome.bind_eq_ok.mpr ⟨_, add_eq_ok.mpr ⟨z, hz, hname, rfl⟩, hm⟩⟩

/-- What is asked for after several attributes were: of theirs, the joined requests, and of the
others what was asked before. -/
theorem addAll_eq_ok {r m : Request} {as : List AttributeRequest}
    (hn : (as.map AttributeRequest.name).Nodup) (h : r.addAll as = .ok m) :
    m.entity = r.entity ∧ m.typename = r.typename ∧
      (∀ name, name ∉ as.map AttributeRequest.name → m.attribute? name = r.attribute? name) ∧
      ∀ a ∈ as, ∃ z, joinAttribute r.entity a (r.attribute? a.name) = .ok z ∧
        m.attribute? a.name = some z := by
  induction as generalizing r with
  | nil =>
    obtain rfl := Except.ok.inj h
    simp
  | cons a as ih =>
    rw [List.map_cons, List.nodup_cons] at hn
    obtain ⟨r', hr', h⟩ := Outcome.bind_eq_ok.mp h
    obtain ⟨z, hz, hname, rfl⟩ := add_eq_ok.mp hr'
    -- First this attribute, then the rest, which has other names.
    obtain ⟨he, ht, hout, hin⟩ := ih hn.2 h
    refine ⟨he, ht, ?_, List.forall_mem_cons.mpr ⟨⟨z, hz, ?_⟩, ?_⟩⟩
    · intro name hnot
      rw [List.map_cons, List.mem_cons, not_or] at hnot
      rw [hout name hnot.2, attribute?_put, hname, if_neg (Ne.symm hnot.1)]
    · rw [hout _ hn.1, attribute?_put, if_pos hname]
    · intro b hb
      have hab : z.name ≠ b.name := fun hab => hn.1 (hname ▸ hab ▸ List.mem_map_of_mem hb)
      have hb' := hin b hb
      rwa [entity_put, attribute?_put, if_neg hab] at hb'

/-- Merging is adding all attributes after the typename. -/
theorem merge_eq (a b : Request) :
    a.merge b = (a.withTypename b.typename).addAll b.attributes := by
  cases b
  rw [merge]
  rfl

/-- What is asked of the attribute at a path, the names of attributes one below the other. -/
def at? : Request → List String → Option AttributeRequest
  | _, [] => none
  | r, [name] => r.attribute? name
  | r, name :: next :: path =>
    ((r.attribute? name).bind AttributeRequest.nested).bind fun n => n.at? (next :: path)

theorem at?_one (r : Request) (name : String) : r.at? [name] = r.attribute? name := rfl

/-- A longer path goes on in the nested request. -/
theorem at?_below {r : Request} {name : String} {a : AttributeRequest}
    (ha : r.attribute? name = some a) (next : String) (path : List String) :
    r.at? (name :: next :: path) = a.nested.bind fun n => n.at? (next :: path) := by
  simp [at?, ha]

theorem at?_below_eq_some {r : Request} {name next : String} {path : List String}
    {z : AttributeRequest} : r.at? (name :: next :: path) = some z ↔
      ∃ a n, r.attribute? name = some a ∧ a.nested = some n ∧ n.at? (next :: path) = some z := by
  simp only [at?, Option.bind_eq_some_iff]
  constructor
  · rintro ⟨n, ⟨a, ha, hn⟩, h⟩
    exact ⟨a, n, ha, hn, h⟩
  · rintro ⟨a, n, ha, hn, h⟩
    exact ⟨n, ⟨a, ha, hn⟩, h⟩

theorem at?_of_attribute?_none {r : Request} {name : String} (ha : r.attribute? name = none)
    (path : List String) : r.at? (name :: path) = none := by
  cases path <;> simp [at?, ha]

theorem at?_congr {r s : Request} {name : String} (h : r.attribute? name = s.attribute? name)
    (path : List String) : r.at? (name :: path) = s.at? (name :: path) := by
  cases path <;> simp [at?, h]

end Request

structure Ask where
  window : Option Window
  filter : List FilterGroup
  typename : Option Bool

namespace Ask

def Compatible (x y : Ask) : Prop := x.window = y.window ∧ (x.filter == y.filter) = true

def Same (x y : Ask) : Prop := x.Compatible y ∧ x.typename = y.typename

def join (x y : Ask) : Ask :=
  ⟨x.window, x.filter, Option.merge (· || ·) x.typename y.typename⟩

end Ask

def AttributeRequest.ask (a : AttributeRequest) : Ask :=
  ⟨a.window, a.filter, a.nested.map Request.typename⟩

theorem AttributeRequest.compatible_iff {a b : AttributeRequest} :
    a.compatible b = true ↔ a.ask.Compatible b.ask := by
  simp [compatible, ask, Ask.Compatible]

namespace Request

def asks? (r : Request) (path : List String) : Option Ask := (r.at? path).map AttributeRequest.ask

inductive Distinct : Request → Prop
  | mk {r : Request} : (r.attributes.map AttributeRequest.name).Nodup →
      (∀ a ∈ r.attributes, ∀ n, a.nested = some n → Distinct n) → Distinct r

/-- With distinct names, finding is membership. -/
theorem Distinct.attribute?_eq_some {r : Request} (h : r.Distinct) {name : String}
    {a : AttributeRequest} : r.attribute? name = some a ↔ a ∈ r.attributes ∧ a.name = name := by
  cases h with
  | mk hn _ => exact Keyed.find?_eq_some hn

theorem Distinct.nested {r : Request} (h : r.Distinct) {a : AttributeRequest}
    (ha : a ∈ r.attributes) {n : Request} (hn : a.nested = some n) : n.Distinct := by
  cases h with
  | mk _ hd => exact hd a ha n hn

/-- Whether a merge succeeds is decided attribute by attribute. -/
theorem merge_isOk_one (a : Request) {b : Request} (hb : b.Distinct) :
    (∃ m, a.merge b = .ok m) ↔
      ∀ y ∈ b.attributes, ∃ z, joinAttribute a.entity y (a.attribute? y.name) = .ok z := by
  cases hb with
  | mk hn _ =>
    rw [merge_eq, addAll_isOk hn]
    simp

/-- What is asked of an attribute after a merge. -/
theorem merge_eq_ok_one {a b m : Request} (hb : b.Distinct) (h : a.merge b = .ok m) :
    m.entity = a.entity ∧ m.typename = (a.typename || b.typename) ∧
      (∀ name, b.attribute? name = none → m.attribute? name = a.attribute? name) ∧
      ∀ name y, b.attribute? name = some y → ∃ z,
        joinAttribute a.entity y (a.attribute? name) = .ok z ∧ m.attribute? name = some z := by
  cases hb with
  | mk hn _ =>
    rw [merge_eq] at h
    obtain ⟨he, ht, hout, hin⟩ := addAll_eq_ok hn h
    refine ⟨he, ht, fun name hnone => hout name (Keyed.find?_eq_none.mp hnone), ?_⟩
    intro name y hy
    obtain ⟨hmem, rfl⟩ := mem_of_attribute? hy
    exact hin y hmem

theorem joinNested_isOk {x y : Option Request} : (∃ n, joinNested x y = .ok n) ↔
    ∀ n m, x = some n → y = some m → ∃ k, n.merge m = .ok k := by
  cases x with
  | none => simp [joinNested]
  | some n =>
    cases y with
    | none => simp [joinNested]
    | some m => simp [joinNested, Outcome.map_isOk]

/-- Requests merge exactly when no path that both ask for is asked for with different windows or
filters. -/
theorem merge_isOk (a : Request) {b : Request} (hb : b.Distinct) : (∃ m, a.merge b = .ok m) ↔
    ∀ path x y, a.at? path = some x → b.at? path = some y → x.compatible y = true := by
  induction b using Request.induction generalizing a with
  | nested b ih =>
    rw [merge_isOk_one a hb]
    constructor
    · intro h path x y hx hy
      match path with
      | [] => cases hx
      | [name] =>
        obtain ⟨hmem, rfl⟩ := mem_of_attribute? hy
        obtain ⟨z, hz⟩ := h y hmem
        rw [show a.attribute? y.name = some x from hx, joinAttribute_some_eq_ok] at hz
        exact hz.1
      | name :: next :: path =>
        obtain ⟨x', n, hx', hn, hxn⟩ := at?_below_eq_some.mp hx
        obtain ⟨y', k, hy', hk, hyk⟩ := at?_below_eq_some.mp hy
        obtain ⟨hmem, rfl⟩ := mem_of_attribute? hy'
        obtain ⟨z, hz⟩ := h y' hmem
        rw [hx', joinAttribute_some_eq_ok] at hz
        obtain ⟨_, nested, hjoin, _⟩ := hz
        have hmerge := joinNested_isOk.mp ⟨nested, hjoin⟩ n k hn hk
        exact (ih y' hmem k hk n (hb.nested hmem hk)).mp hmerge _ x y hxn hyk
    · intro h y hmem
      have hy : b.attribute? y.name = some y := hb.attribute?_eq_some.mpr ⟨hmem, rfl⟩
      cases hx : a.attribute? y.name with
      | none => exact ⟨y, rfl⟩
      | some x =>
        have hjoin : ∃ nested, joinNested x.nested y.nested = .ok nested := by
          -- A longer path is one here and one below.
          refine joinNested_isOk.mpr fun n k hn hk => ?_
          refine (ih y hmem k hk n (hb.nested hmem hk)).mpr fun path x' y' hx' hy' => ?_
          match path with
          | [] => cases hx'
          | next :: path =>
            exact h (y.name :: next :: path) x' y' (at?_below_eq_some.mpr ⟨x, n, hx, hn, hx'⟩)
              (at?_below_eq_some.mpr ⟨y, k, hy, hk, hy'⟩)
        obtain ⟨nested, hjoin⟩ := hjoin
        exact ⟨_, joinAttribute_some_eq_ok.mpr ⟨h [y.name] x y hx hy, nested, hjoin, rfl⟩⟩

/-- The same all the way down: no path carries two asks that are not compatible. -/
theorem merge_isOk_iff_asks (a : Request) {b : Request} (hb : b.Distinct) :
    (∃ m, a.merge b = .ok m) ↔
      ∀ path x y, a.asks? path = some x → b.asks? path = some y → x.Compatible y := by
  rw [merge_isOk a hb]
  refine forall_congr' fun path => ?_
  simp only [asks?, Option.map_eq_some_iff, AttributeRequest.compatible_iff]
  constructor
  · rintro h _ _ ⟨x, hx, rfl⟩ ⟨y, hy, rfl⟩
    exact h x y hx hy
  · exact fun h x y hx hy => h _ _ ⟨x, hx, rfl⟩ ⟨y, hy, rfl⟩

/-- The three ways in which nested requests join. -/
theorem joinNested_eq_ok {x y nested : Option Request} (h : joinNested x y = .ok nested) :
    x = none ∧ nested = y ∨ y = none ∧ nested = x ∨
      ∃ n k m, x = some n ∧ y = some k ∧ n.merge k = .ok m ∧ nested = some m := by
  cases x with
  | none => exact Or.inl ⟨rfl, (Except.ok.inj h).symm⟩
  | some n =>
    cases y with
    | none => exact Or.inr (Or.inl ⟨rfl, (Except.ok.inj h).symm⟩)
    | some k =>
      obtain ⟨m, hm, rfl⟩ := Outcome.map_eq_ok.mp h
      exact Or.inr (Or.inr ⟨n, k, m, rfl, rfl, hm, rfl⟩)

theorem asks?_one {r : Request} {name : String} {a : AttributeRequest}
    (ha : r.attribute? name = some a) : r.asks? [name] = some a.ask := by
  rw [asks?, at?_one, ha]
  rfl

theorem asks?_below {r : Request} {name : String} {a : AttributeRequest}
    (ha : r.attribute? name = some a) (next : String) (path : List String) :
    r.asks? (name :: next :: path) = a.nested.bind fun n => n.asks? (next :: path) := by
  rw [asks?, at?_below ha]
  cases a.nested <;> rfl

theorem asks?_of_attribute?_none {r : Request} {name : String} (ha : r.attribute? name = none)
    (path : List String) : r.asks? (name :: path) = none := by
  rw [asks?, at?_of_attribute?_none ha]
  rfl

theorem asks?_congr {r s : Request} {name : String} (h : r.attribute? name = s.attribute? name)
    (path : List String) : r.asks? (name :: path) = s.asks? (name :: path) := by
  rw [asks?, asks?, at?_congr h]

/-- Merged requests ask for every path as the two of them do together. -/
theorem asks?_merge {a b m : Request} (hb : b.Distinct) (h : a.merge b = .ok m)
    (path : List String) : m.asks? path = Option.merge Ask.join (a.asks? path) (b.asks? path) := by
  induction b using Request.induction generalizing a m path with
  | nested b ih =>
    obtain ⟨_, _, hout, hin⟩ := merge_eq_ok_one hb h
    match path with
    | [] => rfl
    | name :: path =>
      cases hy : b.attribute? name with
      | none =>
        -- Nothing is asked of the attribute but what was asked before.
        rw [asks?_congr (hout name hy), asks?_of_attribute?_none hy, Option.merge_none_right]
      | some y =>
        obtain ⟨z, hz, hm⟩ := hin name y hy
        cases hx : a.attribute? name with
        | none =>
          rw [hx] at hz
          obtain rfl := Except.ok.inj hz
          rw [asks?_congr (hm.trans hy.symm), asks?_of_attribute?_none hx, Option.merge_none_left]
        | some x =>
          rw [hx] at hz
          obtain ⟨_, nested, hjoin, rfl⟩ := joinAttribute_some_eq_ok.mp hz
          have hmem := (mem_of_attribute? hy).1
          match path with
          | [] =>
            have htype : nested.map typename =
                Option.merge (· || ·) (x.nested.map typename) (y.nested.map typename) := by
              rcases joinNested_eq_ok hjoin with ⟨hn, rfl⟩ | ⟨hk, rfl⟩ | ⟨n, k, l, hn, hk, hl, rfl⟩
              · simp [hn]
              · simp [hk]
              · simp [hn, hk, (merge_eq_ok_one (hb.nested hmem hk) hl).2.1]
            rw [asks?_one hm, asks?_one hx, asks?_one hy, Option.merge_some_some, Ask.join]
            exact congrArg some (congrArg (Ask.mk x.window x.filter) htype)
          | next :: path =>
            rw [asks?_below hm, asks?_below hx, asks?_below hy, nested_withNested]
            rcases joinNested_eq_ok hjoin with ⟨hn, rfl⟩ | ⟨hk, rfl⟩ | ⟨n, k, l, hn, hk, hl, rfl⟩
            · simp [hn]
            · simp [hk]
            · simp only [hn, hk, Option.bind_some]
              exact ih y hmem k hk (hb.nested hmem hk) hl (next :: path)

end Request

end EntityGraph
