import EntityGraph.Input
import EntityGraph.Proofs.Filter.Reading
import EntityGraph.Proofs.Schema.Reachable

namespace EntityGraph.Input

def IsArgumentFault (e : Error) : Prop :=
  ∃ field argument reason, e = .invalidArgument field argument reason

abbrev EndsInArgument {α : Type} (x : Tracked Error α) : Prop :=
  Outcome.FailsIn x.outcome IsArgumentFault

variable {c : Catalog} {S : Entity → Prop} {rootField : String}

theorem ends_fail {α : Type} (rootField path reason : String) :
    EndsInArgument (fail rootField path reason : Tracked Error α) :=
  .of_error ⟨rootField, path, reason, rfl⟩

theorem ends_pure {α : Type} (a : α) : EndsInArgument (pure a : Tracked Error α) :=
  .of_ok a

theorem ends_bind {α β : Type} {x : Tracked Error α} {f : α → Tracked Error β}
    (h : EndsInArgument x) (hf : ∀ a, EndsInArgument (f a)) : EndsInArgument (x >>= f) := by
  rw [EndsInArgument, Tracked.outcome_bind]
  exact Outcome.FailsIn.bind h fun a _ => hf a

def Takes (S : Entity → Prop) (f : InputField) : Prop := ∀ t, f.target = .object t → S t

def Reads (S : Entity → Prop) (read : FieldReader Json) : Prop :=
  ∀ f path, Takes S f → EndsInArgument (read f path)

theorem ends_readGiven {path : String} {readers : List (String × FieldReader Json)}
    (hreaders : ∀ reader ∈ readers, Reads S reader.2) {f : InputField} (hf : Takes S f) :
    EndsInArgument (readGiven rootField path readers f) := by
  rw [readGiven]
  cases hread : readers.lookup f.name with
  | some read =>
    obtain ⟨before, after, rfl, _⟩ := List.lookup_eq_some_iff.mp hread
    have hmem := hreaders (f.name, read) List.mem_append_cons_self
    exact ends_bind (hmem f _ hf) fun _ => ends_pure _
  | none =>
    dsimp only
    split
    · exact ends_fail _ _ _
    · exact ends_pure _

theorem ends_readFields (hS : Schema.ClosedInputs c S) {entries : Arguments}
    {readers : List (String × FieldReader Json)} (hreaders : ∀ reader ∈ readers, Reads S reader.2)
    {e : Entity} (he : S e) (path : String) :
    EndsInArgument (readFields c rootField entries readers e path) := by
  obtain ⟨fields, hfields, htakes⟩ := hS e he
  have hgiven : ∀ f ∈ fields, EndsInArgument (readGiven rootField path readers f) :=
    fun f hf => ends_readGiven hreaders (htakes f hf)
  rw [EndsInArgument, readFields, Tracked.outcome_bind, Tracked.outcome_mapError,
    Outcome.bind_of_eq_ok (Outcome.mapError_eq_ok.mpr hfields)]
  split
  · exact ends_fail _ _ _
  · rw [Tracked.outcome_bind, Tracked.outcome_mapM]
    exact (Outcome.FailsIn.mapM hgiven).bind fun _ _ => .of_ok _

theorem reads_other {v : Value} (hv : v.isObject = false) : Reads S (readElement c rootField v) := by
  rintro ⟨definition, type, target⟩ path _
  cases target with
  | scalar kind =>
    rw [readElement]
    cases scalar? kind v with
    | some j => exact ends_pure j
    | none => exact ends_fail _ _ _
  | object e =>
    cases v with
    | object fields => cases hv
    | _ =>
      rw [readElement]
      · exact ends_fail _ _ _
      · nofun

theorem ends_readElements {items : List Value}
    (hitems : ∀ item ∈ items, Reads S (readElement c rootField item)) {f : InputField}
    (hf : Takes S f) (path : String) (i : Nat) :
    EndsInArgument (readElements c rootField items f path i) := by
  induction items generalizing i with
  | nil =>
    rw [readElements]
    exact ends_pure []
  | cons item items ih =>
    rw [List.forall_mem_cons] at hitems
    rw [readElements]
    have hrest : ∀ j, EndsInArgument (readElements c rootField items f path (i + 1) >>= fun more =>
        pure (j :: more)) := fun j => ends_bind (ih hitems.2 (i + 1)) fun more => ends_pure _
    split
    · split
      · exact ends_bind (ends_fail _ _ _) hrest
      · exact ends_bind (ends_pure _) hrest
    · exact ends_bind (hitems.1 f _ hf) hrest

theorem reads_fieldReaders {fields : Arguments}
    (hfields : ∀ field ∈ fields, Reads S (readElement c rootField field.2))
    (hitems : ∀ field ∈ fields, ∀ items, field.2 = .list items →
      ∀ item ∈ items, Reads S (readElement c rootField item)) :
    ∀ reader ∈ fieldReaders c rootField fields, Reads S reader.2 := by
  induction fields with
  | nil => simp [fieldReaders]
  | cons field fields ih =>
    rw [List.forall_mem_cons] at hfields hitems
    obtain ⟨key, value⟩ := field
    have hrest := ih hfields.2 hitems.2
    cases value with
    -- Null gives no reader.
    | null =>
      rw [fieldReaders]
      exact hrest
    | list items =>
      rw [fieldReaders]
      refine List.forall_mem_cons.mpr ⟨fun f path hf => ?_, hrest⟩
      dsimp only
      split
      · exact ends_bind (ends_readElements (hitems.1 items rfl) hf path 0) fun _ => ends_pure _
      · exact hfields.1 f path hf
    | _ =>
      rw [fieldReaders]
      · refine List.forall_mem_cons.mpr ⟨fun f path hf => ?_, hrest⟩
        dsimp only
        split
        · exact ends_bind (hfields.1 f _ hf) fun _ => ends_pure _
        · exact hfields.1 f path hf
      all_goals simp

theorem reads_readElement (hS : Schema.ClosedInputs c S) (v : Value) :
    Reads S (readElement c rootField v) := by
  induction v using Value.filter_induction with
  | other v hv => exact reads_other hv
  | object fields hfields hitems =>
    rintro ⟨definition, type, target⟩ path htakes
    cases target with
    | scalar kind =>
      rw [readElement]
      cases scalar? kind (.object fields) with
      | some j => exact ends_pure j
      | none => exact ends_fail _ _ _
    | object e =>
      rw [readElement]
      exact ends_bind (ends_readFields hS (reads_fieldReaders hfields hitems) (htakes e rfl) path)
        fun _ => ends_pure _

/-- A value for a new record is accepted, or refused for a fault in the argument. -/
theorem ends_validate (hS : Schema.ClosedInputs c S) {e : Entity} (he : S e) (path : String)
    (v : Value) : EndsInArgument (validate c rootField e path v) := by
  cases v with
  | object fields =>
    rw [validate]
    exact ends_readFields hS (reads_fieldReaders (fun field _ => reads_readElement hS field.2)
      fun _ _ _ _ item _ => reads_readElement hS item) he path
  | _ =>
    rw [validate]
    · exact ends_fail _ _ _
    · nofun

end EntityGraph.Input
