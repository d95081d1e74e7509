import EntityGraph.Proofs.Schema.Kinds

/-!
What holds of the caches at all times, and what a step of them keeps. A step is told by the uses
that the registry notes for it.
-/

namespace EntityGraph

variable {c : Catalog}

def Cell.entry {φ : Type} (cell : Cell c φ) : String × Option (List φ) :=
  (cell.name, cell.fields.map (List.map Linked.field))

namespace Caches

variable {s s' s'' : Caches c} {k : TypeKind} {h : Handle c} {name : String}

def registry (s : Caches c) : Registry :=
  ⟨(s .object).map Cell.entry, (s .input).map Cell.entry, (s .filter).map Cell.entry⟩

theorem table_registry (s : Caches c) : s.registry.table = fun k => (s k).map Cell.entry := by
  funext k
  cases k <;> rfl

theorem has_registry : s.registry.Has (k.use name) ↔ name ∈ (s k).map Cell.name := by
  rw [Registry.has_use, table_registry, TypeTable.Has, TypeTable.isSome_lookup, List.map_map]
  rfl

def Holds (s : Caches c) (k : TypeKind) (h : Handle c) : Prop :=
  ∃ cell, (s k)[h.index]? = some cell ∧ cell.entity = h.entity

/-- A place that a handle's name takes is the handle's. -/
theorem holds_iff : s.Holds k h ↔ ((s k)[h.index]?).map Cell.name = some h.name := by
  rw [Option.map_eq_some_iff]
  refine exists_congr fun cell => and_congr_right fun _ => ⟨congrArg Entity.name, fun hname => ?_⟩
  have hknown : c.entity? h.name = some cell.entity := hname ▸ cell.known
  exact Option.some.inj (hknown.symm.trans h.known)

instance (s : Caches c) (k : TypeKind) (h : Handle c) : Decidable (s.Holds k h) :=
  decidable_of_iff _ holds_iff.symm

theorem names_zipIdx (s : Caches c) (k : TypeKind) :
    (s k).zipIdx.map (fun entry => entry.1.name) = (s k).map Cell.name := by
  have hmap := congrArg (List.map Cell.name) (List.zipIdx_map_fst 0 (s k))
  rwa [List.map_map] at hmap

/-- A name that is cached has the handle of its place, and no other. -/
theorem handle?_eq_some (hn : ((s k).map Cell.name).Nodup) :
    s.handle? k name = some h ↔ s.Holds k h ∧ h.name = name := by
  rw [← names_zipIdx] at hn
  simp only [handle?, Option.map_eq_some_iff, Keyed.find?_eq_some hn, List.mem_zipIdx_iff_getElem?]
  constructor
  · rintro ⟨⟨cell, index⟩, ⟨hcell, hname⟩, rfl⟩
    exact ⟨⟨cell, hcell, rfl⟩, hname⟩
  · rintro ⟨⟨cell, hcell, hentity⟩, hname⟩
    obtain ⟨index, entity, known⟩ := h
    subst hentity
    exact ⟨(cell, index), ⟨hcell, hname⟩, rfl⟩

theorem handle?_eq_none : s.handle? k name = none ↔ name ∉ (s k).map Cell.name := by
  rw [handle?, Option.map_eq_none_iff, Keyed.find?_eq_none, names_zipIdx]

def Grows (s s' : Caches c) : Prop :=
  ∀ k (i : Nat) (cell : Cell c k.Field), (s k)[i]? = some cell → ∃ cell' : Cell c k.Field,
    (s' k)[i]? = some cell' ∧ cell'.entity = cell.entity ∧
      ∀ fields, cell.fields = some fields → cell'.fields = some fields

namespace Grows

theorem refl (s : Caches c) : s.Grows s := fun _ _ cell hcell => ⟨cell, hcell, rfl, fun _ h => h⟩

theorem trans (h₁ : s.Grows s') (h₂ : s'.Grows s'') : s.Grows s'' := by
  intro k i cell hcell
  obtain ⟨cell', hcell', hentity', hfields'⟩ := h₁ k i cell hcell
  obtain ⟨cell'', hcell'', hentity'', hfields''⟩ := h₂ k i cell' hcell'
  exact ⟨cell'', hcell'', hentity''.trans hentity',
    fun fields hfields => hfields'' fields (hfields' fields hfields)⟩

theorem of_append (hs : ∀ k, ∃ new, s' k = s k ++ new) : s.Grows s' := by
  intro k i cell hcell
  obtain ⟨new, hnew⟩ := hs k
  refine ⟨cell, ?_, rfl, fun _ h => h⟩
  rw [hnew, List.getElem?_append_left (List.getElem?_eq_some_iff.mp hcell).1]
  exact hcell

theorem holds (hs : s.Grows s') (hh : s.Holds k h) : s'.Holds k h := by
  obtain ⟨cell, hcell, hentity⟩ := hh
  obtain ⟨cell', hcell', hentity', _⟩ := hs k h.index cell hcell
  exact ⟨cell', hcell', hentity'.trans hentity⟩

/-- Compiled fields stay under their handle. -/
theorem fields? (hs : s.Grows s') {fields : List (Linked c k.Field)}
    (hh : s.fields? k h = some fields) : s'.fields? k h = some fields := by
  obtain ⟨cell, hcell, hfields⟩ := Option.bind_eq_some_iff.mp hh
  obtain ⟨cell', hcell', _, hkept⟩ := hs k h.index cell hcell
  exact Option.bind_eq_some_iff.mpr ⟨cell', hcell', hkept fields hfields⟩

/-- The names that are cached come first in the same order. -/
theorem names (hs : s.Grows s') (k : TypeKind) :
    List.IsPrefix ((s k).map Cell.name) ((s' k).map Cell.name) := by
  rw [List.prefix_iff_getElem?]
  intro i hi
  rw [List.length_map] at hi
  obtain ⟨cell', hcell', hentity, _⟩ := hs k i (s k)[i] (List.getElem?_eq_getElem hi)
  rw [List.getElem?_map, hcell', List.getElem_map]
  exact congrArg (fun e => some e.name) hentity

end Grows

structure Links (s : Caches c) (k : TypeKind) (f : Linked c k.Field) : Prop where
  entity : f.target.map Handle.entity = k.target? f.field
  holds : ∀ h, f.target = some h → s.Holds k h

theorem Links.of_none {f : Linked c k.Field} (htarget : f.target = none)
    (hf : k.target? f.field = none) : s.Links k f where
  entity := by rw [htarget, hf, Option.map_none]
  holds := fun h hh => by cases htarget.symm.trans hh

theorem Links.of_some {f : Linked c k.Field} (htarget : f.target = some h)
    (hf : k.target? f.field = some h.entity) (hh : s.Holds k h) : s.Links k f where
  entity := by rw [htarget, hf, Option.map_some]
  holds := fun t ht => Option.some.inj (htarget.symm.trans ht) ▸ hh

theorem Links.mono {f : Linked c k.Field} (hf : s.Links k f) (hs : s.Grows s') : s'.Links k f :=
  ⟨hf.entity, fun h hh => hs.holds (hf.holds h hh)⟩

structure Compiles (s : Caches c) (k : TypeKind) (e : Entity) (fields : List (Linked c k.Field)) :
    Prop where
  outcome : (Schema.fieldsOf c k e).outcome = .ok (fields.map Linked.field)
  links : ∀ f ∈ fields, s.Links k f
  used : ∀ use ∈ (Schema.fieldsOf c k e).uses, s.registry.Has use

structure Sound (s : Caches c) : Prop where
  nodup : ∀ k, ((s k).map Cell.name).Nodup
  compiled : ∀ k, ∀ cell ∈ s k, ∀ fields, cell.fields = some fields →
    s.Compiles k cell.entity fields

theorem sound_empty (c : Catalog) : (empty c).Sound :=
  ⟨fun _ => List.nodup_nil, fun _ _ hcell => absurd hcell List.not_mem_nil⟩

theorem Sound.compiles (hs : s.Sound) (hh : s.Holds k h) {fields : List (Linked c k.Field)}
    (hf : s.fields? k h = some fields) : s.Compiles k h.entity fields := by
  obtain ⟨cell, hcell, hentity⟩ := hh
  obtain ⟨cell', hcell', hfields⟩ := Option.bind_eq_some_iff.mp hf
  obtain rfl := Option.some.inj (hcell.symm.trans hcell')
  exact hentity ▸ hs.compiled k cell (List.mem_of_getElem? hcell) fields hfields

/-- A step from sound caches to sound ones: what is there stays, the registry is as the uses make
it, and no type is compiled when all of them are look-ups. -/
structure Leads (s s' : Caches c) (uses : List TypeUse) : Prop where
  sound : s'.Sound
  grows : s.Grows s'
  registry : s'.registry = s.registry.applyAll uses
  lookups : (∀ use ∈ uses, use.isLookup = true) →
    ∀ k, ∃ new, s' k = s k ++ new ∧ ∀ cell ∈ new, cell.fields = none

/-- Later uses of the registry do not change what is compiled. -/
theorem Compiles.mono {e : Entity} {fields : List (Linked c k.Field)} {other : TypeUse}
    (hf : s.Compiles k e fields) (hs : s.Grows s') (hr : s'.registry = s.registry.apply other) :
    s'.Compiles k e fields :=
  ⟨hf.outcome, fun f hmem => (hf.links f hmem).mono hs,
    fun use huse => hr ▸ (hf.used use huse).apply other⟩

namespace Leads

variable {uses uses' : List TypeUse}

/-- Uses that were taken into account need no step. -/
theorem of_has (hs : s.Sound) (hhas : ∀ use ∈ uses, s.registry.Has use) : s.Leads s uses :=
  ⟨hs, .refl s, (Registry.applyAll_of_has hhas).symm,
    fun _ _ => ⟨[], (List.append_nil _).symm, List.forall_mem_nil _⟩⟩

theorem refl (hs : s.Sound) : s.Leads s [] := of_has hs (List.forall_mem_nil _)

theorem trans (h₁ : s.Leads s' uses) (h₂ : s'.Leads s'' uses') : s.Leads s'' (uses ++ uses') where
  sound := h₂.sound
  grows := h₁.grows.trans h₂.grows
  registry := by rw [h₂.registry, h₁.registry, Registry.applyAll_append]
  lookups := by
    intro hlookups k
    rw [List.forall_mem_append] at hlookups
    obtain ⟨new, hnew, hnone⟩ := h₁.lookups hlookups.1 k
    obtain ⟨new', hnew', hnone'⟩ := h₂.lookups hlookups.2 k
    refine ⟨new ++ new', by rw [hnew', hnew, List.append_assoc], ?_⟩
    exact List.forall_mem_append.mpr ⟨hnone, hnone'⟩

/-- Look-ups leave the fields of all handles as they are. -/
theorem fields?_of_lookups (hs : s.Leads s' uses) (hl : ∀ use ∈ uses, use.isLookup = true)
    (k : TypeKind) (h : Handle c) : s'.fields? k h = s.fields? k h := by
  obtain ⟨new, hnew, hnone⟩ := hs.lookups hl k
  rw [Caches.fields?, Caches.fields?, hnew]
  rcases Nat.lt_or_ge h.index (s k).length with hlt | hge
  · rw [List.getElem?_append_left hlt]
  · rw [List.getElem?_append_right hge, List.getElem?_eq_none hge, Option.bind_none]
    cases hcell : new[h.index - (s k).length]? with
    | none => rfl
    | some cell => exact hnone cell (List.mem_of_getElem? hcell)

end Leads

section Register

variable {e : Entity} (found : c.entity? name = some e)

theorem register_append (s : Caches c) (k k' : TypeKind) : ∃ new, s.register k found k' =
    s k' ++ new ∧ ∀ cell ∈ new, cell.fields = none := by
  by_cases hk : k' = k
  · subst hk
    exact ⟨_, Function.update_self .., List.forall_mem_singleton.mpr rfl⟩
  · exact ⟨[], (Function.update_of_ne hk ..).trans (List.append_nil _).symm,
      List.forall_mem_nil _⟩

/-- A new handle is the registry's own step. -/
theorem registry_register (hnone : s.handle? k name = none) :
    (s.register k found).registry = s.registry.apply (k.use name) := by
  obtain rfl : e.name = name := (Catalog.entity?_eq_some.mp found).2
  have hnot : ¬((s.registry.table k).lookup e.name).isSome = true := fun hsome =>
    handle?_eq_none.mp hnone (has_registry.mp (Registry.has_use.mpr hsome))
  apply Registry.ext_table
  rw [Registry.table_apply_use, TypeTable.register, if_neg hnot, table_registry, table_registry]
  funext k'
  rw [register, Function.apply_update (fun k => List.map Cell.entry), List.map_append]
  rfl

theorem holds_nextHandle (s : Caches c) (k : TypeKind) :
    (s.register k found).Holds k (s.nextHandle k found) := by
  refine ⟨⟨e, Catalog.entity?_name found, none⟩, ?_, rfl⟩
  rw [register, Function.update_self]
  exact List.getElem?_concat_length

/-- A look-up of a new name is one use. -/
theorem leads_register (hs : s.Sound) (hnone : s.handle? k name = none) :
    s.Leads (s.register k found) [k.use name] := by
  have hgrows : s.Grows (s.register k found) :=
    .of_append fun k' => (register_append found s k k').imp fun _ => And.left
  have hregistry := registry_register found hnone
  refine ⟨⟨fun k' => ?_, fun k' cell hcell fields hfields => ?_⟩, hgrows, hregistry,
    fun _ k' => register_append found s k k'⟩
  · by_cases hk : k' = k
    · subst hk
      rw [register, Function.update_self, List.map_append, List.nodup_append]
      -- The new name is none of those that are cached.
      refine ⟨hs.nodup k', List.nodup_singleton _, fun a ha b hb hab => ?_⟩
      obtain rfl : b = name :=
        (List.mem_singleton.mp hb).trans (Catalog.entity?_eq_some.mp found).2
      exact handle?_eq_none.mp hnone (hab ▸ ha)
    · rw [register, Function.update_of_ne hk]
      exact hs.nodup k'
  · obtain ⟨new, hnew, hnone'⟩ := register_append found s k k'
    rw [hnew] at hcell
    rcases List.mem_append.mp hcell with hcell | hcell
    · exact (hs.compiled k' cell hcell fields hfields).mono hgrows hregistry
    · rw [hnone' cell hcell] at hfields
      cases hfields

end Register

section Store

variable {fields : List (Linked c k.Field)}

theorem store_getElem? (s : Caches c) (k : TypeKind) (h : Handle c)
    (fields : List (Linked c k.Field)) (i : Nat) : (s.store k h fields k)[i]? =
      if h.index = i then ((s k)[i]?).map fun cell => { cell with fields := some fields }
      else (s k)[i]? := by
  rw [store, Function.update_self, List.getElem?_modify]
  split <;> cases (s k)[i]? <;> rfl

/-- Storing fields where there were none only adds. -/
theorem grows_store (hnone : s.fields? k h = none) : s.Grows (s.store k h fields) := by
  intro k' i cell hcell
  by_cases hk : k' = k
  · subst hk
    rw [store_getElem?]
    by_cases hi : h.index = i
    · subst hi
      rw [Caches.fields?, hcell] at hnone
      refine ⟨{ cell with fields := some fields }, by rw [if_pos rfl, hcell]; rfl, rfl,
        fun old hold => ?_⟩
      cases hold.symm.trans hnone
    · exact ⟨cell, by rw [if_neg hi, hcell], rfl, fun _ h => h⟩
  · exact ⟨cell, by rw [store, Function.update_of_ne hk, hcell], rfl, fun _ h => h⟩

theorem names_store (s : Caches c) (k : TypeKind) (h : Handle c)
    (fields : List (Linked c k.Field)) (k' : TypeKind) :
    (s.store k h fields k').map Cell.name = (s k').map Cell.name := by
  by_cases hk : k' = k
  · subst hk
    apply List.ext_getElem?
    intro i
    rw [List.getElem?_map, List.getElem?_map, store_getElem?]
    split
    · rw [Option.map_map]
      rfl
    · rfl
  · rw [store, Function.update_of_ne hk]

/-- Where each name stands once, a change of the entry of a name is one at its place. -/
theorem entries_modify {cells : List (Cell c k.Field)} (hn : (cells.map Cell.name).Nodup) {i : Nat}
    {cell : Cell c k.Field} (hcell : cells[i]? = some cell) (hnone : cell.fields = none)
    (fields : List (Linked c k.Field)) :
    (cells.modify i fun cell => { cell with fields := some fields }).map Cell.entry =
      Keyed.modify Prod.fst cell.name
        (fun entry => (entry.1, some (entry.2.getD (fields.map Linked.field))))
        (cells.map Cell.entry) := by
  -- On the cells. Those before the place have other names, so that the entry of the name is at it.
  induction cells generalizing i with
  | nil => cases hcell
  | cons first cells ih =>
    rw [List.map_cons, List.nodup_cons] at hn
    rw [List.map_cons, Keyed.modify]
    cases i with
    | zero =>
      obtain rfl := Option.some.inj hcell
      rw [if_pos (show first.entry.1 = first.name from rfl), List.modify_zero_cons, List.map_cons]
      simp only [Cell.entry, hnone, Option.map_none, Option.getD_none, Option.map_some]
      rfl
    | succ i =>
      have hne : first.name ≠ cell.name := fun hname =>
        hn.1 (hname ▸ List.mem_map_of_mem (List.mem_of_getElem? hcell))
      rw [if_neg (show first.entry.1 ≠ cell.name from hne), List.modify_succ_cons, List.map_cons, ih hn.2 hcell]

/-- Storing fields is the registry's own step. -/
theorem registry_store (hs : s.Sound) (hh : s.Holds k h) (hnone : s.fields? k h = none)
    (fields : List (Linked c k.Field)) : (s.store k h fields).registry =
      s.registry.apply (k.useFields h.name (fields.map Linked.field)) := by
  obtain ⟨cell, hcell, hentity⟩ := hh
  have hname : cell.name = h.name := congrArg Entity.name hentity
  have hcellNone : cell.fields = none := by
    rw [Caches.fields?, hcell] at hnone
    exact hnone
  have hhas : (s.registry.table k).Has h.name := Registry.has_use.mp <| has_registry.mpr <|
    hname ▸ List.mem_map_of_mem (List.mem_of_getElem? hcell)
  apply Registry.ext_table
  rw [Registry.table_apply_useFields, TypeTable.compiled, TypeTable.register_of_has hhas,
    table_registry, table_registry, ← hname]
  funext k'
  rw [store, Function.apply_update (fun k => List.map Cell.entry),
    entries_modify (hs.nodup k) hcell hcellNone]

/-- A compilation is one use, and what is stored stays sound. -/
theorem leads_store (hs : s.Sound) (hh : s.Holds k h) (hnone : s.fields? k h = none)
    (hc : (s.store k h fields).Compiles k h.entity fields) :
    s.Leads (s.store k h fields) [k.useFields h.name (fields.map Linked.field)] := by
  have hgrows : s.Grows (s.store k h fields) := grows_store hnone
  have hregistry := registry_store hs hh hnone fields
  have hold : ∀ k', ∀ cell ∈ s k', ∀ old, cell.fields = some old →
      (s.store k h fields).Compiles k' cell.entity old := fun k' cell hcell old hfields =>
    (hs.compiled k' cell hcell old hfields).mono hgrows hregistry
  refine ⟨⟨fun k' => names_store s k h fields k' ▸ hs.nodup k', ?_⟩, hgrows, hregistry, ?_⟩
  · intro k' cell hcell old hfields
    by_cases hk : k' = k
    · subst hk
      obtain ⟨i, hi⟩ := List.mem_iff_getElem?.mp hcell
      rw [store_getElem?] at hi
      split at hi
      · -- The type that was compiled just now.
        next hindex =>
        obtain ⟨before, hbefore, rfl⟩ := Option.map_eq_some_iff.mp hi
        obtain rfl := Option.some.inj hfields
        obtain ⟨found, hfound, hentity⟩ := hh
        rw [hindex, hbefore] at hfound
        obtain rfl := Option.some.inj hfound
        exact hentity ▸ hc
      · exact hold k' cell (List.mem_of_getElem? hi) old hfields
    · rw [store, Function.update_of_ne hk] at hcell
      exact hold k' cell hcell old hfields
  · intro hlookups
    have hlookup := hlookups _ (List.mem_singleton_self _)
    rw [TypeKind.isLookup_useFields] at hlookup
    cases hlookup

end Store

end Caches

end EntityGraph
