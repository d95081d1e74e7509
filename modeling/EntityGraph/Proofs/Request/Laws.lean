import EntityGraph.Proofs.Filter.Equality
import EntityGraph.Proofs.Request.Fits
import Mathlib.Data.List.Perm.Subperm

namespace EntityGraph

namespace Ask

variable {x y z x' y' : Ask}

theorem Compatible.symm (h : x.Compatible y) : y.Compatible x :=
  ⟨h.1.symm, PartialEquivBEq.symm h.2⟩

theorem Compatible.trans (hxy : x.Compatible y) (hyz : y.Compatible z) : x.Compatible z :=
  ⟨hxy.1.trans hyz.1, PartialEquivBEq.trans hxy.2 hyz.2⟩

theorem Same.symm (h : x.Same y) : y.Same x := ⟨h.1.symm, h.2.symm⟩

theorem Same.trans (hxy : x.Same y) (hyz : y.Same z) : x.Same z :=
  ⟨hxy.1.trans hyz.1, hxy.2.trans hyz.2⟩

end Ask

abbrev SameAsk (x y : Option Ask) : Prop := Option.Rel Ask.Same x y

/-- Requests for a path that can be merged; either may be missing. -/
def CompatibleAsk (x y : Option Ask) : Prop := ∀ a b, x = some a → y = some b → a.Compatible b

abbrev joinAsk (x y : Option Ask) : Option Ask := Option.merge Ask.join x y

/-- Of several the first ask stays, however they are grouped. -/
theorem joinAsk_assoc (x y z : Option Ask) :
    joinAsk (joinAsk x y) z = joinAsk x (joinAsk y z) := by
  have hjoin : ∀ a b d : Ask, (a.join b).join d = a.join (b.join d) := by
    intro a b d
    simp only [Ask.join, Ask.mk.injEq, true_and]
    cases a.typename <;> cases b.typename <;> cases d.typename <;> simp [Bool.or_assoc]
  cases x <;> cases y <;> cases z <;> simp [joinAsk, hjoin]

namespace SameAsk

variable {x y z x' y' : Option Ask}

theorem symm (h : SameAsk x y) : SameAsk y x := by
  cases h with
  | none => exact .none
  | some h => exact .some h.symm

theorem trans (hxy : SameAsk x y) (hyz : SameAsk y z) : SameAsk x z := by
  cases hxy with
  | none => exact hyz
  | some hxy =>
    cases hyz with
    | some hyz => exact .some (hxy.trans hyz)

/-- Compatible asks stay so under replacement by the same. -/
theorem compatible (hx : SameAsk x x') (hy : SameAsk y y') (h : CompatibleAsk x y) :
    CompatibleAsk x' y' := by
  rintro a b rfl rfl
  cases hx with
  | some hx =>
    cases hy with
    | some hy => exact (hx.1.symm.trans (h _ _ rfl rfl)).trans hy.1

theorem join (hx : SameAsk x x') (hy : SameAsk y y') : SameAsk (joinAsk x y) (joinAsk x' y') := by
  cases hx with
  | none => simpa [joinAsk] using hy
  | some hx =>
    cases hy with
    | none => simpa [joinAsk] using Option.Rel.some hx
    | some hy =>
      refine .some ⟨hx.1, ?_⟩
      rw [Ask.join, Ask.join, hx.2, hy.2]

theorem compatible_self (h : SameAsk x x) : CompatibleAsk x x := by
  rintro a b rfl hb
  obtain rfl := Option.some.inj hb
  cases h
  next h => exact h.1

theorem join_self (h : SameAsk x x) : SameAsk (joinAsk x x) x := by
  cases h with
  | none => exact .none
  | @some a _ h =>
    refine .some ⟨h.1, ?_⟩
    rw [Ask.join]
    cases a.typename <;> simp

/-- Order does not matter between compatible asks. -/
theorem join_comm (hx : SameAsk x x) (hy : SameAsk y y) (h : CompatibleAsk x y) :
    SameAsk (joinAsk x y) (joinAsk y x) := by
  cases hx with
  | none => simpa [joinAsk] using hy
  | @some a _ hx =>
    cases hy with
    | none => simpa [joinAsk] using Option.Rel.some hx
    | @some b _ hy =>
      have hab : a.Compatible b := h a b rfl rfl
      refine .some ⟨hab, ?_⟩
      show Option.merge (· || ·) a.typename b.typename = Option.merge (· || ·) b.typename a.typename
      cases a.typename <;> cases b.typename <;> simp [Bool.or_comm]

theorem join_assoc (hx : SameAsk x x) (hy : SameAsk y y) (hz : SameAsk z z) :
    SameAsk (joinAsk (joinAsk x y) z) (joinAsk x (joinAsk y z)) := by
  rw [joinAsk_assoc]
  exact join hx (join hy hz)

end SameAsk

theorem CompatibleAsk.symm {x y : Option Ask} (h : CompatibleAsk x y) : CompatibleAsk y x :=
  fun _ _ hy hx => (h _ _ hx hy).symm

/-- Three requests for a path can be merged from either end. -/
theorem CompatibleAsk.assoc (x y z : Option Ask) :
    CompatibleAsk x y ∧ CompatibleAsk (joinAsk x y) z ↔
      CompatibleAsk y z ∧ CompatibleAsk x (joinAsk y z) := by
  -- Joined requests have the window and the filter of the first, which agrees with the second.
  have hleft : ∀ a b d : Ask, (a.join b).Compatible d ↔ a.Compatible d := fun _ _ _ => Iff.rfl
  have hright : ∀ a b d : Ask, d.Compatible (a.join b) ↔ d.Compatible a := fun _ _ _ => Iff.rfl
  cases x <;> cases y <;> cases z <;> simp [CompatibleAsk, joinAsk, hleft, hright]
  next a b d =>
    constructor
    · rintro ⟨hab, had⟩
      exact ⟨hab.symm.trans had, hab⟩
    · rintro ⟨hbd, hab⟩
      exact ⟨hab, hab.trans hbd⟩

theorem rel_cases {α β : Type} {R : α → β → Prop} {x : Option α} {y : Option β}
    (h : Option.Rel R x y) : x = none ∧ y = none ∨ ∃ a b, x = some a ∧ y = some b ∧ R a b := by
  cases h with
  | none => exact Or.inl ⟨rfl, rfl⟩
  | some h => exact Or.inr ⟨_, _, rfl, rfl, h⟩

namespace Request

variable {c : Catalog}

/-- The loop of the comparison, told attribute by attribute. -/
theorem beqAttributes_iff {as : List AttributeRequest} {s : Request} :
    beqAttributes as s = true ↔
      ∀ a ∈ as, ∃ b, s.attribute? a.name = some b ∧ beqAttribute a b = true := by
  induction as with
  | nil => simp [beqAttributes]
  | cons a as ih =>
    rw [beqAttributes, Bool.and_eq_true, ih, List.forall_mem_cons]
    cases s.attribute? a.name <;> simp

theorem beqAttribute_iff {a b : AttributeRequest} : beqAttribute a b = true ↔
    a.name = b.name ∧ a.ask.Compatible b.ask ∧
      Option.Rel (fun r s : Request => (r == s) = true) a.nested b.nested := by
  obtain ⟨definition, window, filter, nested⟩ := a
  obtain ⟨definition', window', filter', nested'⟩ := b
  rw [beqAttribute.eq_def]
  simp only [Ask.Compatible, AttributeRequest.ask, AttributeRequest.name,
    AttributeRequest.definition, AttributeRequest.window, AttributeRequest.filter,
    AttributeRequest.nested, Bool.and_eq_true, beq_iff_eq, and_assoc]
  refine and_congr_right fun _ => and_congr_right fun _ => and_congr_right fun _ => ?_
  cases nested <;> cases nested' <;> simp
  rfl

/-- Equality of requests, one level. -/
theorem beq_iff {r s : Request} : (r == s) = true ↔ r.entity.name = s.entity.name ∧
    r.typename = s.typename ∧ r.attributes.length = s.attributes.length ∧
      ∀ a ∈ r.attributes, ∃ b, s.attribute? a.name = some b ∧ beqAttribute a b = true := by
  rw [← beqAttributes_iff]
  cases r
  show beq _ s = true ↔ _
  simp [beq, entity, typename, attributes, and_assoc]

theorem typename_eq_of_rel {x y : Option Request}
    (h : Option.Rel (fun r s : Request => (r == s) = true) x y) :
    x.map typename = y.map typename := by
  cases h with
  | none => rfl
  | some h => exact congrArg some (beq_iff.mp h).2.1

/-- The names of the attributes of equal requests are the same. -/
theorem attribute?_isNone_of_beq {r s : Request} (hr : r.Distinct) (hs : s.Distinct)
    (h : (r == s) = true) {name : String} (hnone : r.attribute? name = none) :
    s.attribute? name = none := by
  obtain ⟨_, _, hlen, hall⟩ := beq_iff.mp h
  obtain ⟨hrn, _⟩ := hr
  obtain ⟨hsn, _⟩ := hs
  have hsub : r.attributes.map AttributeRequest.name ⊆ s.attributes.map AttributeRequest.name := by
    intro name hm
    obtain ⟨a, ha, rfl⟩ := List.mem_map.mp hm
    obtain ⟨b, hb, _⟩ := hall a ha
    obtain ⟨hbm, hname⟩ := mem_of_attribute? hb
    exact hname ▸ List.mem_map_of_mem hbm
  -- Of two lists of distinct names of one length, one holds the other only if they are the same.
  have hperm : (r.attributes.map AttributeRequest.name).Perm
      (s.attributes.map AttributeRequest.name) :=
    (List.subperm_of_subset hrn hsub).perm_of_length_le (by simp [hlen])
  rw [attribute?, Keyed.find?_eq_none] at hnone ⊢
  exact fun hm => hnone (hperm.mem_iff.mpr hm)

/-- Equal requests ask for every path alike. -/
theorem sameAsk_of_beq {r s : Request} (hr : r.Distinct) (hs : s.Distinct) (h : (r == s) = true)
    (path : List String) : SameAsk (r.asks? path) (s.asks? path) := by
  induction r using Request.induction generalizing s path with
  | nested r ih =>
    match path with
    | [] => exact .none
    | name :: path =>
      cases ha : r.attribute? name with
      | none =>
        have hb := attribute?_isNone_of_beq hr hs h ha
        rw [asks?_of_attribute?_none ha, asks?_of_attribute?_none hb]
        exact .none
      | some a =>
        obtain ⟨hmem, rfl⟩ := mem_of_attribute? ha
        -- Each attribute here has its equal there; as many attributes make it so the other way.
        obtain ⟨b, hb, hab⟩ := (beq_iff.mp h).2.2.2 a hmem
        obtain ⟨_, hcompat, hnested⟩ := beqAttribute_iff.mp hab
        match path with
        | [] =>
          rw [asks?_one ha, asks?_one hb]
          exact .some ⟨hcompat, typename_eq_of_rel hnested⟩
        | next :: path =>
          rw [asks?_below ha, asks?_below hb]
          rcases rel_cases hnested with ⟨hn, hk⟩ | ⟨n, k, hn, hk, hnk⟩
          · rw [hn, hk]
            exact .none
          · rw [hn, hk]
            exact ih a hmem n hn (hr.nested hmem hn) (hs.nested (mem_of_attribute? hb).1 hk) hnk _

section SameAsk

variable {r s : Request} (h : ∀ path, SameAsk (r.asks? path) (s.asks? path))

include h

/-- The attribute of a name is asked for in both requests, and alike, or in neither. -/
theorem attribute?_of_sameAsk (name : String) :
    Option.Rel (fun a b => a.ask.Same b.ask) (r.attribute? name) (s.attribute? name) := by
  have hone := h [name]
  rw [asks?, asks?, at?_one, at?_one] at hone
  cases hx : r.attribute? name <;> cases hy : s.attribute? name <;> rw [hx, hy] at hone
  · exact .none
  · cases hone
  · cases hone
  · cases hone with
    | some hsame => exact .some hsame

/-- Requests with the same asks have as many attributes, for names are distinct. -/
theorem length_eq_of_sameAsk (hr : r.Distinct) (hs : s.Distinct) :
    r.attributes.length = s.attributes.length := by
  have hmem : ∀ name, name ∈ r.attributes.map AttributeRequest.name ↔
      name ∈ s.attributes.map AttributeRequest.name := by
    intro name
    refine not_iff_not.mp ?_
    rw [← Keyed.find?_eq_none, ← Keyed.find?_eq_none]
    show r.attribute? name = none ↔ s.attribute? name = none
    rcases rel_cases (attribute?_of_sameAsk h name) with ⟨hx, hy⟩ | ⟨x, y, hx, hy, _⟩
    · simp [hx, hy]
    · simp [hx, hy]
  obtain ⟨hrn, _⟩ := hr
  obtain ⟨hsn, _⟩ := hs
  have hperm := (List.perm_ext_iff_of_nodup hrn hsn).mpr hmem
  simpa using hperm.length_eq

/-- What is nested in two attributes of a name is asked for alike. -/
theorem sameAsk_below {name : String} {a b : AttributeRequest} {n k : Request}
    (ha : r.attribute? name = some a) (hb : s.attribute? name = some b) (hn : a.nested = some n)
    (hk : b.nested = some k) (path : List String) : SameAsk (n.asks? path) (k.asks? path) := by
  match path with
  | [] => exact .none
  | next :: path =>
    have hbelow := h (name :: next :: path)
    rwa [asks?_below ha, asks?_below hb, hn, hk] at hbelow

end SameAsk

/-- Requests for an entity that ask for every path alike are equal. -/
theorem beq_of_sameAsk {r s : Request} (hr : r.Fits c) (hs : s.Fits c) (he : r.entity = s.entity)
    (ht : r.typename = s.typename) (h : ∀ path, SameAsk (r.asks? path) (s.asks? path)) :
    (r == s) = true := by
  induction r using Request.induction generalizing s with
  | nested r ih =>
    have hlen := length_eq_of_sameAsk h hr.distinct hs.distinct
    refine beq_iff.mpr ⟨congrArg Entity.name he, ht, hlen, fun a ha => ?_⟩
    have haname := hr.distinct.attribute?_eq_some.mpr ⟨ha, rfl⟩
    rcases rel_cases (attribute?_of_sameAsk h a.name) with ⟨hx, _⟩ | ⟨x, b, hx, hb, hsame⟩
    · cases hx.symm.trans haname
    obtain rfl := Option.some.inj (haname.symm.trans hx)
    have hbname := (mem_of_attribute? hb).2
    refine ⟨b, hb, beqAttribute_iff.mpr ⟨hbname.symm, hsame.1, ?_⟩⟩
    have htype : a.nested.map typename = b.nested.map typename := hsame.2
    cases hn : a.nested with
    | none =>
      rw [hn, Option.map_none, eq_comm, Option.map_eq_none_iff] at htype
      rw [htype]
      exact .none
    | some n =>
      rw [hn, Option.map_some, eq_comm, Option.map_eq_some_iff] at htype
      obtain ⟨k, hk, htk⟩ := htype
      rw [hk]
      -- Both are nested in the same attribute, which refers to one entity.
      have hafits := hr.attribute haname
      have hbfits := hs.attribute hb
      have hdef : a.definition = b.definition :=
        definition_eq hafits.mem (he ▸ hbfits.mem) hbname.symm
      have hentity : n.entity = k.entity :=
        Option.some.inj ((hafits.target n hn).symm.trans (hdef ▸ hbfits.target k hk))
      exact .some (ih a ha n hn (hafits.nested n hn) (hbfits.nested k hk) hentity htk.symm
        (sameAsk_below h haname hb hn hk))

/-- Requests for an entity are equal exactly when they ask for every path alike. -/
theorem beq_iff_sameAsk {r s : Request} (hr : r.Fits c) (hs : s.Fits c)
    (he : r.entity = s.entity) : (r == s) = true ↔
      r.typename = s.typename ∧ ∀ path, SameAsk (r.asks? path) (s.asks? path) :=
  ⟨fun h => ⟨(beq_iff.mp h).2.1, sameAsk_of_beq hr.distinct hs.distinct h⟩,
    fun h => beq_of_sameAsk hr hs he h.1 h.2⟩

structure Regular (c : Catalog) (e : Entity) (r : Request) : Prop where
  fits : r.Fits c
  entity : r.entity = e
  self : (r == r) = true

variable {e : Entity} {a b d a' b' : Request}

/-- Regular requests are equal when they ask the same at every path. -/
theorem Regular.beq_iff (ha : Regular c e a) (hb : Regular c e b) : (a == b) = true ↔
    a.typename = b.typename ∧ ∀ path, SameAsk (a.asks? path) (b.asks? path) :=
  beq_iff_sameAsk ha.fits hb.fits (ha.entity.trans hb.entity.symm)

theorem Regular.same (ha : Regular c e a) (path : List String) :
    SameAsk (a.asks? path) (a.asks? path) := (ha.beq_iff ha).mp ha.self |>.2 path

theorem Regular.symm (ha : Regular c e a) (hb : Regular c e b) (h : (a == b) = true) :
    (b == a) = true := by
  obtain ⟨ht, hask⟩ := (ha.beq_iff hb).mp h
  exact (hb.beq_iff ha).mpr ⟨ht.symm, fun path => (hask path).symm⟩

theorem Regular.trans (ha : Regular c e a) (hb : Regular c e b) (hd : Regular c e d)
    (hab : (a == b) = true) (hbd : (b == d) = true) : (a == d) = true := by
  obtain ⟨ht, hask⟩ := (ha.beq_iff hb).mp hab
  obtain ⟨ht', hask'⟩ := (hb.beq_iff hd).mp hbd
  exact (ha.beq_iff hd).mpr ⟨ht.trans ht', fun path => (hask path).trans (hask' path)⟩

/-- Requests that can be merged, path by path. -/
theorem Regular.merge_isOk (a : Request) (hb : Regular c e b) : (∃ m, a.merge b = .ok m) ↔
    ∀ path, CompatibleAsk (a.asks? path) (b.asks? path) :=
  merge_isOk_iff_asks a hb.fits.distinct

/-- What merged requests ask for. -/
theorem Regular.merge (ha : Regular c e a) (hb : Regular c e b) {m : Request}
    (h : a.merge b = .ok m) : Regular c e m ∧ m.typename = (a.typename || b.typename) ∧
      ∀ path, m.asks? path = joinAsk (a.asks? path) (b.asks? path) := by
  have hask := asks?_merge hb.fits.distinct h
  have htype := (merge_eq_ok_one hb.fits.distinct h).2.1
  obtain ⟨hfits, he⟩ := fits_merge ha.fits hb.fits (ha.entity.trans hb.entity.symm) h
  refine ⟨⟨hfits, he.trans ha.entity, ?_⟩, htype, hask⟩
  refine (beq_iff_sameAsk hfits hfits rfl).mpr ⟨rfl, fun path => ?_⟩
  rw [hask path]
  exact (ha.same path).join (hb.same path)

inductive SameOutcome {ε ε' : Type} : Except ε Request → Except ε' Request → Prop
  | error (err : ε) (err' : ε') : SameOutcome (.error err) (.error err')
  | ok {r s : Request} : (r == s) = true → SameOutcome (.ok r) (.ok s)

/-- Two runs have one outcome when they succeed together, with equal requests. -/
theorem SameOutcome.of_isOk {ε ε' : Type} {x : Except ε Request} {y : Except ε' Request}
    (hok : (∃ r, x = .ok r) ↔ ∃ s, y = .ok s)
    (heq : ∀ r s, x = .ok r → y = .ok s → (r == s) = true) : SameOutcome x y := by
  cases x with
  | ok r =>
    obtain ⟨s, rfl⟩ := hok.mp ⟨r, rfl⟩
    exact .ok (heq r s rfl rfl)
  | error err =>
    cases y with
    | ok s => exact absurd (hok.mpr ⟨s, rfl⟩) (by simp)
    | error err' => exact .error err err'

/-- Merging a request with itself gives it back. -/
theorem Regular.merge_self (ha : Regular c e a) : ∃ m, a.merge a = .ok m ∧ (m == a) = true := by
  obtain ⟨m, hm⟩ := (Regular.merge_isOk a ha).mpr fun path => (ha.same path).compatible_self
  obtain ⟨hreg, ht, hask⟩ := ha.merge ha hm
  refine ⟨m, hm, (hreg.beq_iff ha).mpr ⟨by simp [ht], fun path => ?_⟩⟩
  rw [hask path]
  exact (ha.same path).join_self

/-- Merging equal requests gives equal requests. -/
theorem Regular.merge_congr (ha : Regular c e a) (ha' : Regular c e a') (hb : Regular c e b)
    (hb' : Regular c e b') (haa : (a == a') = true) (hbb : (b == b') = true) :
    SameOutcome (a.merge b) (a'.merge b') := by
  obtain ⟨hta, haa⟩ := (ha.beq_iff ha').mp haa
  obtain ⟨htb, hbb⟩ := (hb.beq_iff hb').mp hbb
  refine .of_isOk ?_ fun r s hr hs => ?_
  · rw [Regular.merge_isOk a hb, Regular.merge_isOk a' hb']
    exact forall_congr' fun path => ⟨(haa path).compatible (hbb path),
      (haa path).symm.compatible (hbb path).symm⟩
  · obtain ⟨hreg, ht, hask⟩ := ha.merge hb hr
    obtain ⟨hreg', ht', hask'⟩ := ha'.merge hb' hs
    refine (hreg.beq_iff hreg').mpr ⟨by rw [ht, ht', hta, htb], fun path => ?_⟩
    rw [hask, hask']
    exact (haa path).join (hbb path)

/-- Requests merge in either order alike. -/
theorem Regular.merge_comm (ha : Regular c e a) (hb : Regular c e b) :
    SameOutcome (a.merge b) (b.merge a) := by
  refine .of_isOk ?_ fun r s hr hs => ?_
  · rw [Regular.merge_isOk a hb, Regular.merge_isOk b ha]
    exact forall_congr' fun path => ⟨CompatibleAsk.symm, CompatibleAsk.symm⟩
  · obtain ⟨hreg, ht, hask⟩ := ha.merge hb hr
    obtain ⟨hreg', ht', hask'⟩ := hb.merge ha hs
    refine (hreg.beq_iff hreg').mpr ⟨by rw [ht, ht', Bool.or_comm], fun path => ?_⟩
    rw [hask, hask']
    exact (ha.same path).join_comm (hb.same path) ((Regular.merge_isOk a hb).mp ⟨r, hr⟩ path)

/-- What is done with merged requests ends well where they can be merged and, path by path, what
they ask for allows it. -/
theorem Regular.bind_isOk (ha : Regular c e a) (hb : Regular c e b)
    {f : Request → Except SchemaError Request} {P : List String → Option Ask → Prop}
    (hf : ∀ m, Regular c e m → ((∃ r, f m = .ok r) ↔ ∀ path, P path (m.asks? path))) :
    (∃ r, (a.merge b >>= f) = .ok r) ↔ ∀ path,
      CompatibleAsk (a.asks? path) (b.asks? path) ∧
        P path (joinAsk (a.asks? path) (b.asks? path)) := by
  rw [forall_and, ← Regular.merge_isOk a hb]
  constructor
  · rintro ⟨r, hr⟩
    obtain ⟨m, hm, hr⟩ := Outcome.bind_eq_ok.mp hr
    obtain ⟨hreg, _, hask⟩ := ha.merge hb hm
    refine ⟨⟨m, hm⟩, fun path => ?_⟩
    rw [← hask path]
    exact (hf m hreg).mp ⟨r, hr⟩ path
  · rintro ⟨⟨m, hm⟩, h⟩
    obtain ⟨hreg, _, hask⟩ := ha.merge hb hm
    obtain ⟨r, hr⟩ := (hf m hreg).mpr fun path => by
      rw [hask path]
      exact h path
    exact ⟨r, Outcome.bind_eq_ok.mpr ⟨m, hm, hr⟩⟩

/-- Three requests merge from either end alike. -/
theorem Regular.merge_assoc (ha : Regular c e a) (hb : Regular c e b) (hd : Regular c e d) :
    SameOutcome (a.merge b >>= fun m => m.merge d) (b.merge d >>= fun m => a.merge m) := by
  have hleft := ha.bind_isOk hb (f := fun m => m.merge d)
    (P := fun path x => CompatibleAsk x (d.asks? path)) fun m _ => Regular.merge_isOk m hd
  have hright := hb.bind_isOk hd (f := fun m => a.merge m)
    (P := fun path x => CompatibleAsk (a.asks? path) x) fun _ hm => Regular.merge_isOk a hm
  refine .of_isOk ?_ fun r s hr hs => ?_
  · rw [hleft, hright]
    exact forall_congr' fun path => CompatibleAsk.assoc _ _ _
  · obtain ⟨m, hm, hr⟩ := Outcome.bind_eq_ok.mp hr
    obtain ⟨k, hk, hs⟩ := Outcome.bind_eq_ok.mp hs
    obtain ⟨hmreg, hmt, hmask⟩ := ha.merge hb hm
    obtain ⟨hkreg, hkt, hkask⟩ := hb.merge hd hk
    obtain ⟨hreg, ht, hask⟩ := hmreg.merge hd hr
    obtain ⟨hreg', ht', hask'⟩ := ha.merge hkreg hs
    refine (hreg.beq_iff hreg').mpr ⟨by rw [ht, ht', hmt, hkt, Bool.or_assoc], fun path => ?_⟩
    rw [hask, hask', hmask, hkask]
    exact (ha.same path).join_assoc (hb.same path) (hd.same path)

end Request

end EntityGraph
