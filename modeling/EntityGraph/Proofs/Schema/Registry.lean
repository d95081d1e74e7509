import EntityGraph.Proofs.Keyed
import EntityGraph.Schema.Registry

namespace EntityGraph

namespace TypeTable

variable {φ : Type} {t : TypeTable φ} {entity name : String}

theorem isSome_lookup : (t.lookup name).isSome = true ↔ name ∈ t.map Prod.fst := by
  rw [Keyed.lookup_eq_find?, Option.isSome_map, ← Option.ne_none_iff_isSome, ne_eq,
    Keyed.find?_eq_none, not_not]

/-- Registering never changes what is there. -/
theorem lookup_register (t : TypeTable φ) (entity name : String) :
    (t.register entity).lookup name =
      (t.lookup name).or (if name = entity then some none else none) := by
  unfold register
  by_cases hsome : (t.lookup entity).isSome = true
  · rw [if_pos hsome]
    by_cases hname : name = entity
    · obtain ⟨fields, hfields⟩ := Option.isSome_iff_exists.mp hsome
      rw [hname, hfields]
      rfl
    · rw [if_neg hname, Option.or_none]
  · rw [if_neg hsome, List.lookup_append, List.lookup_cons, List.lookup_nil]
    by_cases hname : name = entity
    · simp [hname]
    · simp [hname, beq_false_of_ne hname]

/-- The first compilation stays. -/
theorem lookup_compiled (t : TypeTable φ) (entity name : String) (fields : List φ) :
    (t.compiled entity fields).lookup name =
      if name = entity then some (some ((t.fields? entity).getD fields)) else t.lookup name := by
  have hregister := lookup_register t entity name
  rw [Keyed.lookup_eq_find?] at hregister
  rw [compiled, Keyed.lookup_eq_find?, Keyed.find?_modify (by simp)]
  by_cases hname : name = entity
  · subst hname
    rw [if_pos rfl, Option.map_map] at *
    have hmap : ∀ found : Option (String × Option (List φ)),
        found.map (Prod.snd ∘ fun entry => (entry.1, some (entry.2.getD fields))) =
          (found.map Prod.snd).map fun entry => some (entry.getD fields) := by
      intro found
      rw [Option.map_map]
      rfl
    rw [hmap, hregister, if_pos rfl, fields?]
    cases t.lookup name <;> rfl
  · rw [if_neg (Ne.symm hname), if_neg hname, hregister, if_neg hname, Option.or_none]

def Has (t : TypeTable φ) (entity : String) : Prop := (t.lookup entity).isSome = true

def HasFields (t : TypeTable φ) (entity : String) : Prop := (t.fields? entity).isSome = true

theorem has_register (t : TypeTable φ) (entity : String) : (t.register entity).Has entity := by
  rw [Has, lookup_register, if_pos rfl]
  cases t.lookup entity <;> rfl

theorem hasFields_compiled (t : TypeTable φ) (entity : String) (fields : List φ) :
    (t.compiled entity fields).HasFields entity := by
  rw [HasFields, fields?, lookup_compiled, if_pos rfl]
  rfl

theorem Has.register (h : t.Has name) (entity : String) : (t.register entity).Has name := by
  obtain ⟨fields, hfields⟩ := Option.isSome_iff_exists.mp h
  rw [Has, lookup_register, hfields]
  rfl

theorem Has.compiled (h : t.Has name) (entity : String) (fields : List φ) :
    (t.compiled entity fields).Has name := by
  rw [Has, lookup_compiled]
  split
  · rfl
  · exact h

theorem HasFields.has (h : t.HasFields name) : t.Has name := by
  obtain ⟨fields, hfields⟩ := Option.isSome_iff_exists.mp h
  obtain ⟨entry, hentry, _⟩ := Option.bind_eq_some_iff.mp hfields
  rw [Has, hentry]
  rfl

theorem HasFields.register (h : t.HasFields name) (entity : String) :
    (t.register entity).HasFields name := by
  obtain ⟨fields, hfields⟩ := Option.isSome_iff_exists.mp h.has
  rw [HasFields, fields?, hfields] at h
  rw [HasFields, fields?, lookup_register, hfields]
  exact h

theorem HasFields.compiled (h : t.HasFields name) (entity : String) (fields : List φ) :
    (t.compiled entity fields).HasFields name := by
  rw [HasFields, fields?, lookup_compiled]
  split
  · rfl
  · exact h

theorem register_of_has (h : t.Has entity) : t.register entity = t := if_pos h

theorem compiled_of_hasFields (h : t.HasFields entity) (fields : List φ) :
    t.compiled entity fields = t := by
  obtain ⟨old, hold⟩ := Option.isSome_iff_exists.mp h
  obtain ⟨entry, hentry, hid⟩ := Option.bind_eq_some_iff.mp hold
  rw [Keyed.lookup_eq_find?] at hentry
  obtain ⟨⟨found, entry⟩, hfind, rfl⟩ := Option.map_eq_some_iff.mp hentry
  rw [compiled, register_of_has h.has]
  exact Keyed.modify_of_find? hfind (by rw [show entry = some old from hid]; rfl)

end TypeTable

namespace Registry

variable {r : Registry} {use : TypeUse}

def Has (r : Registry) : TypeUse → Prop
  | .object e => r.objects.Has e
  | .input e => r.inputs.Has e
  | .filter e => r.filters.Has e
  | .objectFields e _ => r.objects.HasFields e
  | .inputFields e _ => r.inputs.HasFields e
  | .filterFields e _ => r.filters.HasFields e

/-- A use is there after it is made. -/
theorem has_apply (r : Registry) (use : TypeUse) : (r.apply use).Has use := by
  cases use with
  | object e => exact TypeTable.has_register r.objects e
  | input e => exact TypeTable.has_register r.inputs e
  | filter e => exact TypeTable.has_register r.filters e
  | objectFields e fields => exact TypeTable.hasFields_compiled r.objects e fields
  | inputFields e fields => exact TypeTable.hasFields_compiled r.inputs e fields
  | filterFields e fields => exact TypeTable.hasFields_compiled r.filters e fields

/-- No use undoes another. -/
theorem Has.apply (h : r.Has use) (other : TypeUse) : (r.apply other).Has use := by
  -- Uses of the other kinds are in other tables.
  cases other with
  | object e => cases use with
    | object => exact TypeTable.Has.register h e
    | objectFields => exact TypeTable.HasFields.register h e
    | _ => exact h
  | input e => cases use with
    | input => exact TypeTable.Has.register h e
    | inputFields => exact TypeTable.HasFields.register h e
    | _ => exact h
  | filter e => cases use with
    | filter => exact TypeTable.Has.register h e
    | filterFields => exact TypeTable.HasFields.register h e
    | _ => exact h
  | objectFields e fields => cases use with
    | object => exact TypeTable.Has.compiled h e fields
    | objectFields => exact TypeTable.HasFields.compiled h e fields
    | _ => exact h
  | inputFields e fields => cases use with
    | input => exact TypeTable.Has.compiled h e fields
    | inputFields => exact TypeTable.HasFields.compiled h e fields
    | _ => exact h
  | filterFields e fields => cases use with
    | filter => exact TypeTable.Has.compiled h e fields
    | filterFields => exact TypeTable.HasFields.compiled h e fields
    | _ => exact h

theorem Has.applyAll (h : r.Has use) (uses : List TypeUse) : (r.applyAll uses).Has use := by
  induction uses generalizing r with
  | nil => exact h
  | cons other uses ih => exact ih (h.apply other)

theorem has_applyAll {uses : List TypeUse} (h : use ∈ uses) : (r.applyAll uses).Has use := by
  induction uses generalizing r with
  | nil => cases h
  | cons other uses ih =>
    rcases List.mem_cons.mp h with rfl | h
    · exact (has_apply r use).applyAll uses
    · exact ih h

/-- A use that was taken into account changes nothing any more. -/
theorem apply_of_has (h : r.Has use) : r.apply use = r := by
  cases use with
  | object e => exact congrArg (fun t => { r with objects := t }) (TypeTable.register_of_has h)
  | input e => exact congrArg (fun t => { r with inputs := t }) (TypeTable.register_of_has h)
  | filter e => exact congrArg (fun t => { r with filters := t }) (TypeTable.register_of_has h)
  | objectFields e fields =>
    exact congrArg (fun t => { r with objects := t }) (TypeTable.compiled_of_hasFields h fields)
  | inputFields e fields =>
    exact congrArg (fun t => { r with inputs := t }) (TypeTable.compiled_of_hasFields h fields)
  | filterFields e fields =>
    exact congrArg (fun t => { r with filters := t }) (TypeTable.compiled_of_hasFields h fields)

/-- Uses that are there change nothing. -/
theorem applyAll_of_has {uses : List TypeUse} (h : ∀ use ∈ uses, r.Has use) :
    r.applyAll uses = r := by
  induction uses with
  | nil => rfl
  | cons use uses ih =>
    rw [List.forall_mem_cons] at h
    rw [applyAll, List.foldl_cons, apply_of_has h.1]
    exact ih h.2

theorem applyAll_append (r : Registry) (uses more : List TypeUse) :
    r.applyAll (uses ++ more) = (r.applyAll uses).applyAll more := List.foldl_append

end Registry

end EntityGraph
