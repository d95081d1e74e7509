import EntityGraph.Proofs.Catalog
import EntityGraph.Proofs.Keyed
import EntityGraph.Proofs.Outcome
import EntityGraph.Store

namespace EntityGraph

namespace Change

variable {σ α β : Type} {x : Change σ α} {s s' : σ}

theorem bind_of_ok {a : α} (h : x s = (.ok a, s')) (f : α → Change σ β) :
    (x >>= f) s = f a s' := by
  change (let (result, s) := x s; ExceptT.bindCont f result s) = f a s'
  rw [h]
  rfl

theorem bind_of_error {e : SourceError} (h : x s = (.error e, s')) (f : α → Change σ β) :
    (x >>= f) s = (.error e, s') := by
  change (let (result, s) := x s; ExceptT.bindCont f result s) = _
  rw [h]
  rfl

end Change

/-- A table holds the positions of the records that have a text, under that text, and no others. -/
def Tabulates (textOf : Members → Option String) (records : List Members)
    (table : List (String × Nat)) : Prop :=
  ∀ text index, table.lookup text = some index ↔ records[index]?.bind textOf = some text

namespace Tabulates

variable {textOf : Members → Option String} {records : List Members} {table : List (String × Nat)}

theorem nil : Tabulates textOf [] [] := by
  simp [Tabulates]

/-- A text is at a position of a longer list if it was there before, or if it is the new one's. -/
theorem bind_getElem?_append (fields : Members) (text : String) (index : Nat) :
    (records ++ [fields])[index]?.bind textOf = some text ↔
      records[index]?.bind textOf = some text ∨
        index = records.length ∧ textOf fields = some text := by
  rcases Nat.lt_trichotomy index records.length with h | rfl | h
  · simp [List.getElem?_append_left h, Nat.ne_of_lt h]
  · simp
  · have hnone : (records ++ [fields])[index]? = none := by
      rw [List.getElem?_eq_none_iff, List.length_append, List.length_singleton]
      omega
    simp [hnone, List.getElem?_eq_none (Nat.le_of_lt h), Nat.ne_of_gt h]

/-- A record without a text needs no entry. -/
theorem append_none (h : Tabulates textOf records table) {fields : Members}
    (hnone : textOf fields = none) : Tabulates textOf (records ++ [fields]) table := by
  intro text index
  rw [h, bind_getElem?_append, hnone]
  simp

/-- A record with a new text gets an entry for its position. -/
theorem append_some (h : Tabulates textOf records table) {fields : Members} {text : String}
    (htext : textOf fields = some text) (hfresh : table.lookup text = none) :
    Tabulates textOf (records ++ [fields]) (table ++ [(text, records.length)]) := by
  intro other index
  rw [List.lookup_append, bind_getElem?_append, ← h, htext]
  by_cases hother : other = text
  · subst hother
    rw [hfresh, Option.none_or, List.lookup_cons_self]
    simp [eq_comm]
  · have hnone : [(text, records.length)].lookup other = none := by simp [hother]
    rw [hnone, Option.or_none]
    simp [Ne.symm hother]

theorem lt_length (h : Tabulates textOf records table) {text : String} {index : Nat}
    (hlookup : table.lookup text = some index) : index < records.length := by
  obtain ⟨fields, hfields, _⟩ := Option.bind_eq_some_iff.mp ((h text index).mp hlookup)
  exact (List.getElem?_eq_some_iff.mp hfields).1

/-- No two positions have one text. -/
theorem index_unique (h : Tabulates textOf records table) {text : String} {i j : Nat}
    (hi : records[i]?.bind textOf = some text) (hj : records[j]?.bind textOf = some text) :
    i = j :=
  Option.some.inj (((h text i).mpr hi).symm.trans ((h text j).mpr hj))

/-- No two records have one text. -/
theorem pairwise (h : Tabulates textOf records table) :
    records.Pairwise fun a b => ∀ text, textOf a = some text → textOf b ≠ some text := by
  rw [List.pairwise_iff_getElem]
  intro i j hi hj hlt text ha hb
  have hia : records[i]?.bind textOf = some text := by
    rw [List.getElem?_eq_getElem hi, Option.bind_some, ha]
  have hjb : records[j]?.bind textOf = some text := by
    rw [List.getElem?_eq_getElem hj, Option.bind_some, hb]
  exact Nat.ne_of_lt hlt (h.index_unique hia hjb)

/-- The texts of the records are distinct. -/
theorem nodup (h : Tabulates textOf records table) : (records.filterMap textOf).Nodup := by
  rw [List.Nodup, List.pairwise_filterMap]
  refine h.pairwise.imp fun {a b} hab text ha text' hb heq => ?_
  exact hab text ha (heq ▸ hb)

/-- A table leads to the record that has the text, and to none when no record has it. -/
theorem fetch?_eq_some {c : Collection} (h : Tabulates textOf c.records table) {text : String}
    {fields : Members} :
    c.fetch? table text = some fields ↔ fields ∈ c.records ∧ textOf fields = some text := by
  rw [Collection.fetch?, Option.bind_eq_some_iff, List.mem_iff_getElem?]
  constructor
  · rintro ⟨index, hlookup, hfields⟩
    refine ⟨⟨index, hfields⟩, ?_⟩
    rwa [h, hfields, Option.bind_some] at hlookup
  · rintro ⟨⟨index, hfields⟩, htext⟩
    refine ⟨index, ?_, hfields⟩
    rwa [h, hfields, Option.bind_some]

end Tabulates

def idOf? (fields : Members) : Option String := (Record.document fields).id?

def StoreRules.keyText? (rules : StoreRules) (entity : String) (fields : Members) :
    Option String :=
  rules.keyOf? entity (.document fields)

structure Collection.Indexed (rules : StoreRules) (entity : String) (c : Collection) : Prop where
  identified : ∀ fields ∈ c.records, ∃ id, idOf? fields = some id
  byId : Tabulates idOf? c.records c.byId
  byKey : Tabulates (rules.keyText? entity) c.records c.byKey

structure Collection.Takes (c : Collection) (id : String) (key : Option String) (fields : Members)
    (c' : Collection) : Prop where
  freshId : c.byId.lookup id = none
  freshKey : ∀ text, key = some text → c.byKey.lookup text = none
  records : c'.records = c.records ++ [fields]
  byId : c'.byId = c.byId ++ [(id, c.records.length)]
  byKey : c'.byKey = c.byKey ++ (key.map fun text => (text, c.records.length)).toList

/-- All checks come before the first entry is written. -/
theorem Collection.insert_cases (c : Collection) (entity id : String) (key : Option String)
    (fields : Members) :
    (∃ e, insert entity id key fields c = (.error e, c)) ∨
      ∃ c', insert entity id key fields c = (.ok (), c') ∧ c.Takes id key fields c' := by
  unfold insert
  change (∃ e, (if (c.byId.lookup id).isSome then _ else _ : Change Collection Unit) c = _) ∨
    ∃ c', (if (c.byId.lookup id).isSome then _ else _ : Change Collection Unit) c = _ ∧ _
  by_cases hid : (c.byId.lookup id).isSome
  · rw [if_pos hid]
    exact Or.inl ⟨.duplicateId entity id, rfl⟩
  rw [if_neg hid]
  -- Past the first guard the id is new, past the second the key.
  have hfresh : c.byId.lookup id = none := Option.not_isSome_iff_eq_none.mp hid
  cases key with
  | none =>
    refine Or.inr ⟨⟨c.records ++ [fields], c.byId ++ [(id, c.records.length)], c.byKey⟩, rfl, ?_⟩
    exact ⟨hfresh, nofun, rfl, rfl, (List.append_nil _).symm⟩
  | some text =>
    change (∃ e, (if (c.byKey.lookup text).isSome then _ else _ : Change Collection Unit) c = _) ∨
      ∃ c', (if (c.byKey.lookup text).isSome then _ else _ : Change Collection Unit) c = _ ∧ _
    by_cases hkey : (c.byKey.lookup text).isSome
    · rw [if_pos hkey]
      exact Or.inl ⟨.duplicateKey entity text, rfl⟩
    rw [if_neg hkey]
    refine Or.inr ⟨⟨c.records ++ [fields], c.byId ++ [(id, c.records.length)],
      c.byKey ++ [(text, c.records.length)]⟩, rfl, hfresh, ?_, rfl, rfl, rfl⟩
    rintro _ ⟨⟩
    exact Option.not_isSome_iff_eq_none.mp hkey

/-- A record whose id and key are new is inserted. -/
theorem Collection.insert_of_fresh {c : Collection} {id : String} {key : Option String}
    (hid : c.byId.lookup id = none) (hkey : ∀ text, key = some text → c.byKey.lookup text = none)
    (entity : String) (fields : Members) : (insert entity id key fields c).1 = .ok () := by
  unfold insert
  change ((if (c.byId.lookup id).isSome then _ else _ : Change Collection Unit) c).1 = _
  rw [hid, if_neg (by simp)]
  cases key with
  | none => rfl
  | some text =>
    change ((if (c.byKey.lookup text).isSome then _ else _ : Change Collection Unit) c).1 = _
    rw [hkey text rfl, if_neg (by simp)]
    rfl

namespace Collection.Indexed

variable {rules : StoreRules} {entity : String} {c c' : Collection}

theorem empty : Indexed rules entity Collection.empty :=
  ⟨List.forall_mem_nil _, .nil, .nil⟩

/-- The ids of the records are distinct. -/
theorem nodup_ids (h : c.Indexed rules entity) : (c.records.map idOf?).Nodup := by
  rw [List.Nodup, List.pairwise_map]
  refine h.byId.pairwise.imp_of_mem fun {a b} ha _ hab heq => ?_
  obtain ⟨id, hid⟩ := h.identified a ha
  exact hab id hid (heq ▸ hid)

/-- Taking a record keeps the indexes exact. -/
theorem takes (h : c.Indexed rules entity) {id : String} {fields : Members}
    (hid : idOf? fields = some id) (htakes : c.Takes id (rules.keyText? entity fields) fields c') :
    c'.Indexed rules entity where
  identified := by
    rw [htakes.records, List.forall_mem_append, List.forall_mem_singleton]
    exact ⟨h.identified, id, hid⟩
  byId := by
    rw [htakes.records, htakes.byId]
    exact h.byId.append_some hid htakes.freshId
  byKey := by
    rw [htakes.records, htakes.byKey]
    cases hkey : rules.keyText? entity fields with
    | none => simpa using h.byKey.append_none hkey
    | some text => exact h.byKey.append_some hkey (htakes.freshKey text hkey)

end Collection.Indexed

namespace Store

variable {rules : StoreRules} {s s' : Store} {entity : String} {fields stored : Members}

def Indexed (rules : StoreRules) (s : Store) : Prop :=
  ∀ entity, (s.collection entity).Indexed rules entity

structure Receives (rules : StoreRules) (s : Store) (entity : String) (fields : Members)
    (s' : Store) : Prop where
  taken : ∃ id, idOf? fields = some id ∧ (s.collection entity).Takes id
    (rules.keyText? entity fields) fields (s'.collection entity)
  others : ∀ other, entity ≠ other → s'.collection other = s.collection other

/-- A change of one collection shows in no other. -/
theorem collection_within {α : Type} (entity : String) (change : Change Collection α) (s : Store)
    (other : String) : (within entity change s).2.collection other =
      if entity = other then (change (s.collection entity)).2 else s.collection other := by
  change ((Keyed.insert Prod.fst _ s.collections).lookup other).getD .empty = _
  rw [Keyed.lookup_insert]
  split <;> rfl

/-- An append fails and leaves every collection as it was, or the store receives the record. -/
theorem append_cases (rules : StoreRules) (s : Store) (entity : String) (fields : Members) :
    (∃ e s', append rules entity fields s = (.error e, s') ∧
      ∀ other, s'.collection other = s.collection other) ∨
    ∃ s', append rules entity fields s = (.ok (), s') ∧ s.Receives rules entity fields s' := by
  cases hid : (Record.document fields).id? with
  | none =>
    refine Or.inl ⟨.unusableId entity, s, ?_, fun _ => rfl⟩
    rw [append, hid]
    rfl
  | some id =>
    -- One collection is changed, and the others are not touched.
    let change := Collection.insert entity id (rules.keyText? entity fields) fields
    have happend : append rules entity fields = within entity change := by
      rw [append, hid]
      rfl
    have hafter := collection_within entity change s
    have hresult : (within entity change s).1 = (change (s.collection entity)).1 := rfl
    rw [happend]
    rcases Collection.insert_cases (s.collection entity) entity id (rules.keyText? entity fields)
      fields with ⟨e, he⟩ | ⟨c, hc, htakes⟩
    · refine Or.inl ⟨e, (within entity change s).2, Prod.ext ?_ rfl, fun other => ?_⟩
      · exact hresult.trans (congrArg Prod.fst he)
      · rw [hafter, congrArg Prod.snd he]
        split
        · next h => rw [h]
        · rfl
    · refine Or.inr ⟨(within entity change s).2, Prod.ext ?_ rfl, ⟨id, hid, ?_⟩, ?_⟩
      · exact hresult.trans (congrArg Prod.fst hc)
      · rwa [hafter, if_pos rfl, congrArg Prod.snd hc]
      · intro other hother
        rw [hafter, if_neg hother]

/-- A put fails and leaves every collection as it was, or the store receives the record with its
ids given. -/
theorem put_cases (rules : StoreRules) (s : Store) (entity : String) (fields : Members) :
    (∃ e s', put rules entity fields s = (.error e, s') ∧
      ∀ other, s'.collection other = s.collection other) ∨
    ∃ e s', rules.catalog.entity? entity = some e ∧
      put rules entity fields s = (.ok (rules.assignIds e s.issued fields).1, s') ∧
      s.Receives rules entity (rules.assignIds e s.issued fields).1 s' := by
  cases he : rules.catalog.require entity with
  | error err =>
    refine Or.inl ⟨.schema err, s, ?_, fun _ => rfl⟩
    rw [put, he]
    rfl
  | ok e =>
    -- The ids are issued before the record is tried, and stay issued when it is refused.
    let given := rules.assignIds e s.issued fields
    have hput : put rules entity fields s = (append rules entity given.1 >>= fun _ =>
        pure given.1 : Change Store Members) { s with issued := given.2 } := by
      rw [put, he]
      rfl
    rcases append_cases rules { s with issued := given.2 } entity given.1 with
      ⟨err, s', h, hsame⟩ | ⟨s', h, hreceives⟩
    · exact Or.inl ⟨err, s', hput.trans (Change.bind_of_error h _), hsame⟩
    · refine Or.inr ⟨e, s', Catalog.require_eq_ok.mp he, ?_, hreceives.taken, hreceives.others⟩
      exact hput.trans (Change.bind_of_ok h _)

/-- A record with a new id and a new key is put, with its ids given. -/
theorem put_of_fresh {e : Entity} (he : rules.catalog.entity? entity = some e) {id : String}
    (hid : idOf? (rules.assignIds e s.issued fields).1 = some id)
    (hfresh : (s.collection entity).byId.lookup id = none)
    (hkey : ∀ text, rules.keyText? entity (rules.assignIds e s.issued fields).1 = some text →
      (s.collection entity).byKey.lookup text = none) :
    (put rules entity fields s).1 = .ok (rules.assignIds e s.issued fields).1 := by
  let given := rules.assignIds e s.issued fields
  have hput : put rules entity fields s = (append rules entity given.1 >>= fun _ =>
      pure given.1 : Change Store Members) { s with issued := given.2 } := by
    rw [put, Catalog.require_eq_ok.mpr he]
    rfl
  have happend : append rules entity given.1 =
      within entity (Collection.insert entity id (rules.keyText? entity given.1) given.1) := by
    rw [append, show (Record.document given.1).id? = some id from hid]
    rfl
  have hinsert := Collection.insert_of_fresh hfresh hkey entity given.1
  have hok : (append rules entity given.1 { s with issued := given.2 }).1 = .ok () := by
    rw [happend]
    exact hinsert
  rw [hput, Change.bind_of_ok (Prod.ext hok rfl) fun _ => (pure given.1 : Change Store Members)]
  rfl

/-- The record that the store receives comes last among those of its entity. -/
theorem Receives.records (h : s.Receives rules entity stored s') (other : String) :
    (s'.collection other).records =
      (s.collection other).records ++ if entity = other then [stored] else [] := by
  by_cases hother : entity = other
  · obtain ⟨id, _, htakes⟩ := h.taken
    rw [if_pos hother, ← hother, htakes.records]
  · rw [if_neg hother, h.others other hother, List.append_nil]

theorem indexed_empty : Indexed rules empty := fun _ => .empty

/-- Tables that are in step with the records stay so with one record more. -/
theorem Indexed.receives (hs : Indexed rules s) (h : s.Receives rules entity stored s') :
    Indexed rules s' := by
  intro other
  by_cases hother : entity = other
  · obtain ⟨id, hid, htakes⟩ := h.taken
    exact hother ▸ (hs entity).takes hid htakes
  · exact h.others other hother ▸ hs other

end Store

end EntityGraph
