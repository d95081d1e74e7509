import EntityGraph.Catalog.Basic
import EntityGraph.Storefront.Catalog
import Mathlib.Data.List.Nodup

namespace EntityGraph

theorem Keyed.find?_eq_some {α κ : Type} [DecidableEq κ] {key : α → κ} {xs : List α}
    (hn : (xs.map key).Nodup) {k : κ} {a : α} :
    Keyed.find? key k xs = some a ↔ a ∈ xs ∧ key a = k := by
  constructor
  · intro h
    exact ⟨List.mem_of_find?_eq_some h, by simpa using List.find?_some h⟩
  · rintro ⟨ha, rfl⟩
    cases h : Keyed.find? key (key a) xs with
    | none => simpa using List.find?_eq_none.mp h a ha
    | some b =>
      have hb : key b = key a := by simpa using List.find?_some h
      rw [List.inj_on_of_nodup_map hn (List.mem_of_find?_eq_some h) ha hb]

namespace Entity

/-- Names of attributes are distinct, so finding is membership. -/
theorem attribute?_eq_some {e : Entity} {name : String} {a : Attribute} :
    e.attribute? name = some a ↔ a ∈ e.attributes ∧ a.name = name :=
  Keyed.find?_eq_some e.names_nodup

theorem read_of_attribute? {e : Entity} {name : String} {a : Attribute}
    (h : e.attribute? name = some a) (r : Record) : e.read name r = .ok (a.valueIn r) := by
  rw [read, requireAttribute, h]; rfl

end Entity

namespace Catalog

/-- The same for the entities of a catalog. -/
theorem entity?_eq_some {c : Catalog} {name : String} {e : Entity} :
    c.entity? name = some e ↔ e ∈ c.entities ∧ e.name = name :=
  Keyed.find?_eq_some c.names_nodup

theorem require_eq_ok {c : Catalog} {name : String} {e : Entity} :
    c.require name = .ok e ↔ c.entity? name = some e := by
  rw [require]
  cases c.entity? name <;> simp

theorem require_eq_error {c : Catalog} {name : String} {err : SchemaError} :
    c.require name = .error err ↔ c.entity? name = none ∧ err = .unknownEntity name := by
  rw [require]
  cases c.entity? name <;> simp [eq_comm]

def Closed (c : Catalog) : Prop :=
  ∀ e ∈ c.entities, ∀ a ∈ e.attributes, a.scalarKind? = none → ∃ t, c.entity? a.typeName = some t

/-- The entities of a storefront are all there. -/
theorem closed_storefront : Storefront.catalog.Closed := by
  have hall : ∀ e ∈ Storefront.catalog.entities, ∀ a ∈ e.attributes, a.scalarKind? = none →
      (Storefront.catalog.entity? a.typeName).isSome = true := by decide
  intro e he a ha hk
  exact Option.isSome_iff_exists.mp (hall e he a ha hk)

structure ClosedOn (c : Catalog) (S : Entity → Prop) : Prop where
  mem : ∀ {e}, S e → e ∈ c.entities
  refers : ∀ {e}, S e → ∀ a ∈ e.attributes, a.scalarKind? = none →
    ∃ t, c.entity? a.typeName = some t ∧ S t

theorem ClosedOn.target {c : Catalog} {S : Entity → Prop} (hS : c.ClosedOn S) {e : Entity}
    (he : S e) {a : Attribute} (ha : a ∈ e.attributes) (hk : a.scalarKind? = none) {t : Entity}
    (ht : c.entity? a.typeName = some t) : S t := by
  obtain ⟨t', ht', hs⟩ := hS.refers he a ha hk
  exact Option.some.inj (ht'.symm.trans ht) ▸ hs

theorem Closed.closedOn {c : Catalog} (hc : c.Closed) : c.ClosedOn (· ∈ c.entities) where
  mem h := h
  refers h a ha hk := by
    obtain ⟨t, ht⟩ := hc _ h a ha hk
    exact ⟨t, ht, (entity?_eq_some.mp ht).1⟩

def Dotless (c : Catalog) : Prop :=
  ∀ e ∈ c.entities, ∀ a ∈ e.attributes, '.' ∉ a.name.toList

end Catalog

end EntityGraph
