import EntityGraph.Execution.Source
import EntityGraph.Proofs.Store

namespace EntityGraph

inductive FixturePart where
  | record (entity : String) (fields : Members)
  | fault (error : SourceError)

namespace FixturePart

def ofItem (entity : String) : Json → FixturePart
  | .object fields => .record entity fields
  | _ => .fault (.fixtureNotRecord entity)

def ofEntry : String × Json → List FixturePart
  | (entity, .array items) => items.map (ofItem entity)
  | (entity, _) => [.fault (.fixtureNotList entity)]

def ofFixture : Json → List FixturePart
  | .object entities => entities.flatMap ofEntry
  | _ => [.fault .fixtureNotObject]

end FixturePart

namespace Store

variable {rules : StoreRules} {s s' : Store}

def putParts (rules : StoreRules) (s : Store) : List FixturePart → Except Interrupted Store
  | [] => .ok s
  | .record entity fields :: rest => match put rules entity fields s with
    | (.ok _, s) => putParts rules s rest
    | (.error e, s) => .error ⟨e, s⟩
  | .fault e :: _ => .error ⟨e, s⟩

theorem putParts_append (parts rest : List FixturePart) (s : Store) :
    putParts rules s (parts ++ rest) =
      putParts rules s parts >>= fun s => putParts rules s rest := by
  induction parts generalizing s with
  | nil => rfl
  | cons part parts ih =>
    cases part with
    | fault e => rfl
    | record entity fields =>
      simp only [List.cons_append, putParts]
      split
      · exact ih _
      · rfl

theorem loadRecords_eq (entity : String) (items : List Json) (s : Store) :
    loadRecords rules entity s items =
      putParts rules s (items.map (FixturePart.ofItem entity)) := by
  induction items generalizing s with
  | nil => rfl
  | cons item items ih =>
    cases item with
    | object fields =>
      rw [List.map_cons, FixturePart.ofItem, loadRecords, putParts]
      rcases put rules entity fields s with ⟨_ | _, s'⟩
      · rfl
      · exact ih s'
    | _ => rfl

/-- Loading goes through the parts of the fixture in order. -/
theorem loadEntities_eq (entries : Members) (count : Nat) (s : Store) :
    loadEntities rules s count entries =
      (putParts rules s (entries.flatMap FixturePart.ofEntry)).map
        fun s' => (count + (entries.flatMap FixturePart.ofEntry).length, s') := by
  induction entries generalizing count s with
  | nil => rfl
  | cons entry entries ih =>
    obtain ⟨entity, value⟩ := entry
    cases value with
    | array items =>
      rw [loadEntities, loadRecords_eq, List.flatMap_cons, putParts_append]
      simp only [FixturePart.ofEntry]
      cases putParts rules s (items.map (FixturePart.ofItem entity)) with
      | error e => rfl
      | ok s₁ =>
        simp only [ih]
        rw [List.length_append, List.length_map, Nat.add_assoc]
        rfl
    | _ => rfl

/-- A load puts the parts of its fixture in order. -/
theorem load_eq (fixture : Json) (s : Store) :
    s.load rules fixture = (putParts rules s (FixturePart.ofFixture fixture)).map
      fun s' => ((FixturePart.ofFixture fixture).length, s') := by
  cases fixture with
  | object entities =>
    rw [load, loadEntities_eq, FixturePart.ofFixture]
    simp only [Nat.zero_add]
  | _ => rfl

inductive Puts (rules : StoreRules) :
    Store → List FixturePart → List (String × Members) → Store → Prop
  | nil (s : Store) : Puts rules s [] [] s
  | cons {s s₁ s' : Store} {entity : String} {fields stored : Members} {parts : List FixturePart}
      {received : List (String × Members)} (first : put rules entity fields s = (.ok stored, s₁))
      (rest : Puts rules s₁ parts received s') :
      Puts rules s (.record entity fields :: parts) ((entity, stored) :: received) s'

inductive Refuses (rules : StoreRules) (s : Store) : FixturePart → SourceError → Store → Prop
  | fault (e : SourceError) : Refuses rules s (.fault e) e s
  | record {entity : String} {fields : Members} {e : SourceError} {s' : Store}
      (refused : put rules entity fields s = (.error e, s')) :
      Refuses rules s (.record entity fields) e s'

/-- What was put before anything failed. -/
theorem puts_of_putParts {parts : List FixturePart} (h : putParts rules s parts = .ok s') :
    ∃ received, Puts rules s parts received s' := by
  induction parts generalizing s with
  | nil => exact ⟨[], Except.ok.inj h ▸ .nil s⟩
  | cons part parts ih =>
    cases part with
    | fault e => cases h
    | record entity fields =>
      rw [putParts] at h
      split at h
      · next stored s₁ hput =>
        obtain ⟨received, hrest⟩ := ih h
        exact ⟨(entity, stored) :: received, .cons hput hrest⟩
      · cases h

/-- Where putting parts fails, those before have been put and one was refused. -/
theorem refuses_of_putParts {parts : List FixturePart} {e : SourceError}
    (h : putParts rules s parts = .error ⟨e, s'⟩) :
    ∃ before part after received s₁, parts = before ++ part :: after ∧
      Puts rules s before received s₁ ∧ Refuses rules s₁ part e s' := by
  induction parts generalizing s with
  | nil => cases h
  | cons part parts ih =>
    cases part with
    | fault e =>
      cases h
      exact ⟨[], _, parts, [], _, rfl, .nil _, .fault e⟩
    | record entity fields =>
      rw [putParts] at h
      split at h
      · next stored s₁ hput =>
        obtain ⟨before, part, after, received, s₂, rfl, hputs, hrefuses⟩ := ih h
        exact ⟨_ :: before, part, after, _ :: received, s₂, rfl, .cons hput hputs, hrefuses⟩
      · next hput =>
        cases h
        exact ⟨[], _, parts, [], _, rfl, .nil _, .record hput⟩

/-- From one store to the other records are only added at the end of those of their entities, and
the tables stay in step with them. -/
structure Grows (rules : StoreRules) (s s' : Store) : Prop where
  indexed : s.Indexed rules → s'.Indexed rules
  records : ∀ entity, (s.collection entity).records <+: (s'.collection entity).records

namespace Grows

theorem refl (s : Store) : Grows rules s s := ⟨id, fun _ => List.prefix_rfl⟩

theorem trans {s₁ : Store} (h : Grows rules s s₁) (h' : Grows rules s₁ s') : Grows rules s s' :=
  ⟨h'.indexed ∘ h.indexed, fun entity => (h.records entity).trans (h'.records entity)⟩

theorem of_same (h : ∀ entity, s'.collection entity = s.collection entity) :
    Grows rules s s' := by
  refine ⟨fun hs entity => ?_, fun entity => ?_⟩
  · exact h entity ▸ hs entity
  · exact h entity ▸ List.prefix_rfl

theorem of_receives {entity : String} {stored : Members}
    (h : s.Receives rules entity stored s') : Grows rules s s' := by
  refine ⟨fun hs => hs.receives h, fun other => ?_⟩
  rw [h.records]
  exact List.prefix_append ..

end Grows

theorem grows_put (entity : String) (fields : Members) (s : Store) :
    Grows rules s (put rules entity fields s).2 := by
  rcases put_cases rules s entity fields with ⟨e, s', hput, hsame⟩ | ⟨e, s', _, hput, hreceives⟩
  · rw [hput]
    exact .of_same hsame
  · rw [hput]
    exact .of_receives hreceives

/-- A put that fails leaves every collection as it was. -/
theorem collection_of_put_eq_error {entity : String} {fields : Members} {e : SourceError}
    (h : put rules entity fields s = (.error e, s')) (other : String) :
    s'.collection other = s.collection other := by
  rcases put_cases rules s entity fields with ⟨e, s₁, hput, hsame⟩ | ⟨e, s₁, _, hput, _⟩
  · have hs : s₁ = s' := congrArg Prod.snd (hput.symm.trans h)
    exact hs ▸ hsame other
  · cases hput.symm.trans h

/-- A put that succeeds adds one record. -/
theorem receives_of_put_eq_ok {entity : String} {fields stored : Members}
    (h : put rules entity fields s = (.ok stored, s')) :
    s.Receives rules entity stored s' := by
  rcases put_cases rules s entity fields with ⟨e, s₁, hput, _⟩ | ⟨e, s₁, _, hput, hreceives⟩
  · cases hput.symm.trans h
  · cases hput.symm.trans h
    exact hreceives

theorem Puts.grows {parts : List FixturePart} {received : List (String × Members)}
    (h : Puts rules s parts received s') : Grows rules s s' := by
  induction h with
  | nil s => exact .refl s
  | cons first _ ih => exact (Grows.of_receives (receives_of_put_eq_ok first)).trans ih

def receivedBy (entity : String) (received : List (String × Members)) : List Members :=
  received.filterMap fun (owner, stored) => if owner = entity then some stored else none

/-- Exactly the records that were put are added, in their order. -/
theorem Puts.records {parts : List FixturePart} {received : List (String × Members)}
    (h : Puts rules s parts received s') (entity : String) :
    (s'.collection entity).records =
      (s.collection entity).records ++ receivedBy entity received := by
  induction h with
  | nil s => exact (List.append_nil _).symm
  | @cons s s₁ s' owner fields stored parts received first _ ih =>
    rw [ih, (receives_of_put_eq_ok first).records, List.append_assoc]
    simp only [receivedBy, List.filterMap_cons]
    split <;> simp_all

theorem Refuses.collection {part : FixturePart} {e : SourceError}
    (h : Refuses rules s part e s') (entity : String) :
    s'.collection entity = s.collection entity := by
  cases h with
  | fault e => rfl
  | record refused => exact collection_of_put_eq_error refused entity

theorem Refuses.grows {part : FixturePart} {e : SourceError} (h : Refuses rules s part e s') :
    Grows rules s s' :=
  .of_same h.collection

/-- Loading grows the store, to the end or up to where it stops. -/
theorem grows_load (rules : StoreRules) (fixture : Json) (s : Store) :
    Grows rules s (match s.load rules fixture with
      | .ok (_, s') => s'
      | .error interrupted => interrupted.store) := by
  rw [load_eq]
  cases h : putParts rules s (FixturePart.ofFixture fixture) with
  | ok s' =>
    obtain ⟨received, hputs⟩ := puts_of_putParts h
    exact hputs.grows
  | error interrupted =>
    obtain ⟨_, part, _, received, s₁, _, hputs, hrefuses⟩ := refuses_of_putParts h
    exact hputs.grows.trans hrefuses.grows

end Store

inductive StoreCall where
  | insert (entity : String) (fields : Members)
  | create (entity : String) (fields : Members)
  | load (fixture : Json)

def StoreRules.giving (rules : StoreRules) (ids : Nat → String) : StoreRules := { rules with ids }

namespace Store

variable {rules : StoreRules} {s s' : Store}

/-- Which ids are given out makes no difference to what the tables of a collection should be. -/
theorem indexed_giving {ids : Nat → String} : Indexed (rules.giving ids) s ↔ Indexed rules s :=
  ⟨fun h entity => ⟨(h entity).identified, (h entity).byId, (h entity).byKey⟩,
    fun h entity => ⟨(h entity).identified, (h entity).byId, (h entity).byKey⟩⟩

/-- A failure is the same whatever would have been made of the record. -/
theorem eq_error_of_map {α β : Type} {f : α → β} {result : Except SourceError α × Store}
    {e : SourceError} (h : result.map (·.map f) id = (.error e, s')) : result = (.error e, s') := by
  obtain ⟨outcome, s₁⟩ := result
  cases outcome with
  | ok stored => cases h
  | error e₁ =>
    cases h
    rfl

theorem fetchById_eq {entity : String} {e : Entity} (he : rules.catalog.entity? entity = some e)
    (id : String) :
    s.fetchById rules entity id =
      .ok ((s.collection entity).fetch? (s.collection entity).byId id) := by
  rw [fetchById, Catalog.require_eq_ok.mpr he]
  rfl

theorem fetchByKey_eq {entity field : String} {e : Entity}
    (he : rules.catalog.entity? entity = some e) (hfield : rules.keys.lookup entity = some field)
    (key : String) :
    s.fetchByKey rules entity field key =
      .ok ((s.collection entity).fetch? (s.collection entity).byKey key) := by
  rw [fetchByKey, Catalog.require_eq_ok.mpr he, if_pos hfield]
  rfl

variable [RegexLibrary]

def call (rules : StoreRules) (s : Store) : StoreCall → Except SourceError Unit × Store
  | .insert entity fields => (put rules entity fields s).map (·.map fun _ => ()) id
  | .create entity fields => (rules.source.create s entity fields).map (·.map fun _ => ()) id
  | .load fixture => match s.load rules fixture with
    | .ok (_, s) => (.ok (), s)
    | .error interrupted => (.error interrupted.error, interrupted.store)

def afterCalls (rules : StoreRules) (s : Store) (calls : List ((Nat → String) × StoreCall)) :
    Store :=
  calls.foldl (fun s entry => (s.call (rules.giving entry.1) entry.2).2) s

/-- Every call grows the store or leaves it. -/
theorem grows_call (call : StoreCall) (s : Store) : Grows rules s (s.call rules call).2 := by
  cases call with
  | insert entity fields => exact grows_put entity fields s
  | create entity fields => exact grows_put entity fields s
  | load fixture =>
    have hgrows := grows_load rules fixture s
    rw [Store.call]
    split <;> simp_all

/-- What every call keeps, any number of them keeps. -/
theorem grows_afterCalls (calls : List ((Nat → String) × StoreCall)) (s : Store) :
    Grows rules s (s.afterCalls rules calls) := by
  induction calls generalizing s with
  | nil => exact .refl s
  | cons entry calls ih =>
    obtain ⟨ids, call⟩ := entry
    have hfirst : Grows (rules.giving ids) s (s.call (rules.giving ids) call).2 :=
      grows_call call s
    have hgrows : Grows rules s (s.call (rules.giving ids) call).2 :=
      ⟨fun hs => indexed_giving.mp (hfirst.indexed (indexed_giving.mpr hs)), hfirst.records⟩
    exact hgrows.trans (ih _)

theorem indexed_afterCalls (calls : List ((Nat → String) × StoreCall)) :
    Indexed rules (empty.afterCalls rules calls) :=
  (grows_afterCalls calls empty).indexed indexed_empty

/-- What a store is like that only calls have changed, and what one more call does to it: every
table is exactly that of the records, ids and keys are distinct, no position is out of bounds,
records stay where they are, a failing insertion leaves each collection as it was, a failing load
has put exactly what came before the part that was refused, and fetching leads to the record with
the id or the key. -/
structure Sound (rules : StoreRules) (s : Store) : Prop where
  indexed : Indexed rules s
  ids_nodup : ∀ entity, ((s.collection entity).records.map idOf?).Nodup
  keys_nodup : ∀ entity,
    ((s.collection entity).records.filterMap (rules.keyText? entity)).Nodup
  in_bounds : ∀ entity text index, (s.collection entity).byId.lookup text = some index ∨
    (s.collection entity).byKey.lookup text = some index →
      index < (s.collection entity).records.length
  kept : ∀ entity calls, (s.collection entity).records <+:
    ((s.afterCalls rules calls).collection entity).records
  refused : ∀ ids entity fields e s',
    s.call (rules.giving ids) (.insert entity fields) = (.error e, s') ∨
    s.call (rules.giving ids) (.create entity fields) = (.error e, s') →
      ∀ other, s'.collection other = s.collection other
  interrupted : ∀ ids fixture e s', s.call (rules.giving ids) (.load fixture) = (.error e, s') →
    ∃ before part after received s₁, FixturePart.ofFixture fixture = before ++ part :: after ∧
      Puts (rules.giving ids) s before received s₁ ∧ Refuses (rules.giving ids) s₁ part e s' ∧
      ∀ entity, (s'.collection entity).records =
        (s.collection entity).records ++ receivedBy entity received
  fetchById : ∀ entity id, (rules.catalog.entity? entity).isSome →
    ∃ found, s.fetchById rules entity id = .ok found ∧ ∀ fields,
      found = some fields ↔ fields ∈ (s.collection entity).records ∧ idOf? fields = some id
  fetchByKey : ∀ entity field key, (rules.catalog.entity? entity).isSome →
    rules.keys.lookup entity = some field →
    ∃ found, s.fetchByKey rules entity field key = .ok found ∧ ∀ fields,
      found = some fields ↔
        fields ∈ (s.collection entity).records ∧ rules.keyText? entity fields = some key

/-- A load that stops has taken what came before and nothing after. -/
theorem interrupted_of_load {fixture : Json} {e : SourceError}
    (h : s.call rules (.load fixture) = (.error e, s')) :
    ∃ before part after received s₁, FixturePart.ofFixture fixture = before ++ part :: after ∧
      Puts rules s before received s₁ ∧ Refuses rules s₁ part e s' ∧
      ∀ entity, (s'.collection entity).records =
        (s.collection entity).records ++ receivedBy entity received := by
  have hload : putParts rules s (FixturePart.ofFixture fixture) = .error ⟨e, s'⟩ := by
    rw [call, load_eq] at h
    cases hparts : putParts rules s (FixturePart.ofFixture fixture) with
    | ok s₁ =>
      rw [hparts] at h
      cases h
    | error interrupted =>
      rw [hparts] at h
      cases h
      rfl
  obtain ⟨before, part, after, received, s₁, hparts, hputs, hrefuses⟩ :=
    refuses_of_putParts hload
  refine ⟨before, part, after, received, s₁, hparts, hputs, hrefuses, fun entity => ?_⟩
  rw [hrefuses.collection, hputs.records]

/-- After any calls a store is sound. -/
theorem sound_afterCalls (rules : StoreRules) (calls : List ((Nat → String) × StoreCall)) :
    Sound rules (empty.afterCalls rules calls) := by
  have hs : Indexed rules (empty.afterCalls rules calls) := indexed_afterCalls calls
  -- All that follows is of any store with exact indexes.
  generalize empty.afterCalls rules calls = s at hs
  exact {
    indexed := hs
    ids_nodup := fun entity => (hs entity).nodup_ids
    keys_nodup := fun entity => (hs entity).byKey.nodup
    in_bounds := by
      rintro entity text index (h | h)
      · exact (hs entity).byId.lt_length h
      · exact (hs entity).byKey.lt_length h
    kept := fun entity calls => (grows_afterCalls calls s).records entity
    refused := by
      rintro ids entity fields e s' (h | h)
      · exact collection_of_put_eq_error (eq_error_of_map h)
      · exact collection_of_put_eq_error (eq_error_of_map (f := Record.document) (eq_error_of_map h))
    interrupted := fun ids fixture e s' h => interrupted_of_load h
    fetchById := by
      intro entity id hentity
      obtain ⟨e, he⟩ := Option.isSome_iff_exists.mp hentity
      exact ⟨_, fetchById_eq he id, fun fields => (hs entity).byId.fetch?_eq_some⟩
    fetchByKey := by
      intro entity field key hentity hfield
      obtain ⟨e, he⟩ := Option.isSome_iff_exists.mp hentity
      exact ⟨_, fetchByKey_eq he hfield key, fun fields => (hs entity).byKey.fetch?_eq_some⟩ }

end Store

end EntityGraph
