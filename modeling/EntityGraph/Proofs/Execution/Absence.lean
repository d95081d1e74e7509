import EntityGraph.Proofs.Execution.Stored
import EntityGraph.Proofs.Filter.Lists
import EntityGraph.Proofs.Filter.Parts
import EntityGraph.Proofs.Keyed

namespace EntityGraph

def Record.emptied (name : String) : Record → Record
  | .document fields => .document (Keyed.insert Prod.fst (name, .array []) fields)
  | .plain fields => .plain (Keyed.insert Prod.fst (name, .array []) fields)

namespace Record

variable {name code : String} {r : Record}

theorem lookup_emptied (name code : String) (r : Record) : (r.emptied name).fields.lookup code =
    if name = code then some (.array []) else r.fields.lookup code := by
  cases r <;> exact Keyed.lookup_insert ..

/-- Writing an empty list under a key is seen by that key of the core alone. -/
theorem core_emptied (hextension : code ≠ extensionKey) (hcustom : code ≠ customKey) :
    (r.emptied name).core code =
      if name = code then some (.list []) else r.core code := by
  have hraw : ∀ r : Record, r.raw code = r.fields.lookup code := fun r => by
    rw [raw, if_neg (not_or.mpr ⟨hextension, hcustom⟩)]
  rw [core, core, hraw, hraw, lookup_emptied]
  split <;> rfl

theorem extension_emptied (h : name ≠ extensionKey) (code : String) :
    (r.emptied name).extension code = r.extension code := by
  cases r with
  | document fields => rw [emptied, extension, extension, Keyed.lookup_insert, if_neg h]
  | plain fields => rfl

theorem custom_emptied (h : name ≠ customKey) (code : String) :
    (r.emptied name).custom code = r.custom code := by
  cases r with
  | document fields => rw [emptied, custom, custom, Keyed.lookup_insert, if_neg h]
  | plain fields => rfl

end Record

namespace Attribute.IsStored

variable {a b : Attribute} {r : Record}

/-- The attribute reads as an empty list after the write. -/
theorem valueIn_emptied (h : a.IsStored) : a.valueIn (r.emptied a.name) = .list [] := by
  have hread : a.read (r.emptied a.name) = some (.list []) := by
    rw [h.read]
    exact (Record.core_emptied h.not_extension h.not_custom).trans (if_pos rfl)
  simp only [valueIn, h.compute, hread]

/-- The other stored attributes stay as they are. -/
theorem valueIn_emptied_of_ne (ha : a.IsStored) (hb : b.IsStored) (hne : b.name ≠ a.name) :
    b.valueIn (r.emptied a.name) = b.valueIn r := by
  have hread : b.read (r.emptied a.name) = b.read r := by
    rw [hb.read]
    exact (Record.core_emptied hb.not_extension hb.not_custom).trans (if_neg hne.symm)
  rw [valueIn, valueIn, hb.compute, hread, Record.extension_emptied ha.not_extension,
    Record.custom_emptied ha.not_custom]

end Attribute.IsStored

namespace Rendering

/-- A list without items is shown as it is, whatever the window and the filter. -/
theorem renderValue_no_items [RegexLibrary] {c : Catalog} {e : Entity} {f : OutputField}
    {window : Option Window}
    {filter : List FilterGroup} {renderNested : RecordRendering} (hlist : f.type.list = true)
    {value : AttributeValue} (hitems : itemsOf value = []) :
    (renderValue c e f window filter renderNested value).outcome = .ok (.array []) := by
  rw [renderValue, hlist, if_pos rfl, hitems, List.filter_nil, windowed_eq, Window.showing_nil]
  rfl

end Rendering

namespace Filter

open Rendering (renderValue)

variable {c : Catalog} {e : Entity} {a : Attribute} {r r' : Record}

/-- An empty list meets what null meets, and what asks that all items differ. -/
theorem holds_empty [RegexLibrary] (condition : Condition) :
    holds condition (.list []) = (holds condition .null || condition.asksAll) := by
  cases condition with
  | isIn xs => simp [holds, holdsAny, holdsSingle, compare?, Condition.asksAll]
  | _ => rfl

def AsksItems (a : Attribute) (k : Constraint) : Prop :=
  Constraint.path k = [a.name] ∧ k.condition.asksAll = true

/-- A constraint holds of a record with an empty list when it holds of the record without it, or
asks that all of the list's items differ. -/
theorem constraintHolds_empty [RegexLibrary] (ha : e.attribute? a.name = some a)
    (hnull : a.valueIn r = .null) (hempty : a.valueIn r' = .list [])
    (hothers : ∀ b ∈ e.attributes, b.name ≠ a.name → b.valueIn r' = b.valueIn r)
    (k : Constraint) : constraintHolds c e r' k = true ↔
      constraintHolds c e r k = true ∨ AsksItems a k := by
  rw [constraintHolds, constraintHolds, AsksItems]
  cases hpath : Constraint.path k with
  | nil => simp [pathHolds]
  | cons name path =>
    by_cases hname : name = a.name
    · subst hname
      have hread := Entity.read_of_attribute? ha r
      have hread' := Entity.read_of_attribute? ha r'
      rw [hnull] at hread
      rw [hempty] at hread'
      cases path with
      | nil =>
        simp only [pathHolds, hread, hread', holds_empty, Bool.or_eq_true, true_and]
      | cons next path =>
        -- Below the attribute there is no record, whether it is null or empty.
        have hmissing : ∀ {value}, AttributeValue.records value = [] →
            ∀ {r}, e.read a.name r = .ok value →
            pathHolds c k.condition (a.name :: next :: path) e r =
              ((targetOf? c e a.name).isSome && holds k.condition .null) := by
          intro value hvalue r hr
          rw [pathHolds, hr]
          · cases targetOf? c e a.name <;> simp [hvalue]
          · simp
        rw [hmissing rfl hread, hmissing rfl hread']
        simp
    · have hread : e.read name r' = e.read name r := by
        rw [Entity.read, Entity.read]
        cases hb : e.attribute? name with
        | none =>
          rw [Entity.requireAttribute, hb]
          rfl
        | some b =>
          obtain ⟨hmem, hbname⟩ := Entity.attribute?_eq_some.mp hb
          simp [Entity.requireAttribute, hb, hothers b hmem (hbname ▸ hname), Except.map]
      have hsame : pathHolds c k.condition (name :: path) e r' =
          pathHolds c k.condition (name :: path) e r := by
        cases path <;> simp only [pathHolds, hread]
      rw [hsame]
      simp [hname]

/-- A constraint that is read names a scalar, or its path goes below an attribute. -/
theorem scalar_or_dotted_of_mem_leaves {v : Value} {t : FilterTree Constraint}
    (ht : readObject c e "" v = .ok t) {k : Constraint} (hk : k ∈ t.leaves) :
    (∃ a, e.attribute? k.field = some a ∧ a.isScalar = true) ∨ '.' ∈ k.field.toList := by
  refine forall_leaves (P := fun e k =>
    (∃ a, e.attribute? k.field = some a ∧ a.isScalar = true) ∨ '.' ∈ k.field.toList)
    ?_ ?_ e t ht k hk
  · exact fun ha hscalar => .inl ⟨_, ha, hscalar⟩
  · exact fun _ _ _ _ => .inr (by simp [Constraint.below])

/-- No compiled constraint ends in an attribute that refers to records. -/
theorem not_asksItems_of_compile (ha : e.attribute? a.name = some a) (hk : a.scalarKind? = none)
    {filter : Value} {groups : List FilterGroup} (h : compile c e filter = .ok groups) :
    ∀ group ∈ groups, ∀ k ∈ group, ¬ AsksItems a k := by
  rintro group hgroup k hmem ⟨hpath, _⟩
  obtain ⟨_, rfl⟩ | ⟨t, ht, hgroups⟩ := compile_eq_ok.mp h
  · cases hgroup
  · have hleaf := FilterTree.mem_leaves_of_groups? hgroups hgroup hmem
    have hdotless : '.' ∉ k.field.toList := Text.not_mem_of_splitText_single hpath
    have hfield : k.field = a.name :=
      List.singleton_inj.mp ((path_of_not_mem hdotless).symm.trans hpath)
    obtain ⟨b, hb, hscalar⟩ := (scalar_or_dotted_of_mem_leaves ht hleaf).resolve_right hdotless
    obtain rfl := Option.some.inj (ha.symm.trans (hfield ▸ hb))
    rw [Attribute.isScalar, hk] at hscalar
    cases hscalar

/-- A record in which a repeating attribute is null is shown as the one that stores an empty list
for it. A filter admits that one when each group has a constraint that holds of the first record,
or that asks that all items of the attribute differ; where no constraint asks this, and so for every
attribute that refers to records, it admits both or none. The other attributes are stored ones, or
do not tell the two records apart. -/
theorem absent_as_empty [RegexLibrary] (ha : e.attribute? a.name = some a)
    (hrepeating : a.repeating = true) (hstored : a.IsStored) (hnull : a.valueIn r = .null)
    (hothers : ∀ b ∈ e.attributes, b.name ≠ a.name →
      b.IsStored ∨ b.valueIn (r.emptied a.name) = b.valueIn r) :
    (∀ f, (Schema.outputField c a).outcome = .ok f → ∀ window filter renderNested,
      (renderValue c e f window filter renderNested (a.valueIn r)).outcome = .ok (.array []) ∧
      (renderValue c e f window filter renderNested (a.valueIn (r.emptied a.name))).outcome =
        .ok (.array [])) ∧
    ∀ filter groups, compile c e filter = .ok groups →
      (admits c e groups (r.emptied a.name) = true ↔
        ∀ group ∈ groups, ∃ k ∈ group, constraintHolds c e r k = true ∨ AsksItems a k) ∧
      ((∀ group ∈ groups, ∀ k ∈ group, ¬ AsksItems a k) →
        admits c e groups (r.emptied a.name) = admits c e groups r) ∧
      (a.scalarKind? = none → ∀ group ∈ groups, ∀ k ∈ group, ¬ AsksItems a k) := by
  have hempty : a.valueIn (r.emptied a.name) = .list [] := hstored.valueIn_emptied
  -- All other attributes read the same before and after.
  have hsame : ∀ b ∈ e.attributes, b.name ≠ a.name →
      b.valueIn (r.emptied a.name) = b.valueIn r := fun b hb hne =>
    (hothers b hb hne).elim (fun hb => hstored.valueIn_emptied_of_ne hb hne) id
  constructor
  · intro f hf window filter renderNested
    -- A list is rendered from its items, and null has none as the empty list has.
    have hlist : f.type.list = true := by
      rw [(Schema.isOutputField hf).type, TypeString.list_ofAttribute, hrepeating]
    rw [hnull, hempty]
    exact ⟨Rendering.renderValue_no_items hlist rfl, Rendering.renderValue_no_items hlist rfl⟩
  · intro filter groups hcompile
    -- Test by test: emptying adds what asks of all items, which is then asked of none.
    have hadmits : admits c e groups (r.emptied a.name) = true ↔
        ∀ group ∈ groups, ∃ k ∈ group, constraintHolds c e r k = true ∨ AsksItems a k := by
      simp only [admits, List.all_eq_true, List.any_eq_true,
        constraintHolds_empty ha hnull hempty hsame]
    refine ⟨hadmits, fun hnone => ?_, fun hk => not_asksItems_of_compile ha hk hcompile⟩
    rw [Bool.eq_iff_iff, hadmits, admits]
    simp only [List.all_eq_true, List.any_eq_true]
    refine forall₂_congr fun group hgroup => exists_congr fun k => and_congr_right fun hk => ?_
    exact or_iff_left (hnone group hgroup k hk)

def taggedNote : Entity :=
  .ofAttributes "Note" "Note entity."
    [.scalar "id" "Note id" .id false, (Attribute.scalar "tags" "Tags" .string false).repeated]

def notes : Catalog := ⟨[taggedNote], by decide⟩

def bareNote : Record := .document [("id", .string "1")]

/-- A filter for notes without tags admits the note that lacks them and the one that has none. -/
theorem absent_as_empty_bareNote :
    compile notes taggedNote (.object [("tags", .object [("null", .boolean true)])]) =
      .ok [[⟨"tags", .null⟩]] ∧
    admits notes taggedNote [[⟨"tags", .null⟩]] bareNote = true ∧
    admits notes taggedNote [[⟨"tags", .null⟩]] (bareNote.emptied "tags") = true := by
  have hid : (Attribute.scalar "id" "Note id" .id false).IsStored :=
    ⟨rfl, rfl, by decide, by decide⟩
  have htags : ((Attribute.scalar "tags" "Tags" .string false).repeated).IsStored :=
    ⟨rfl, rfl, by decide, by decide⟩
  -- The note has an id and tags.
  have hothers : ∀ b ∈ taggedNote.attributes, b.name ≠ "tags" → b.IsStored ∨
      b.valueIn (bareNote.emptied "tags") = b.valueIn bareNote := by
    have hattributes : taggedNote.attributes = [.scalar "id" "Note id" .id false,
        (Attribute.scalar "tags" "Tags" .string false).repeated] := rfl
    rw [hattributes]
    intro b hb hne
    rcases List.mem_pair.mp hb with rfl | rfl
    · exact .inl hid
    · exact absurd rfl hne
  have hcompile : compile notes taggedNote (.object [("tags", .object [("null", .boolean true)])]) =
      .ok [[⟨"tags", .null⟩]] := rfl
  have hnone : ∀ group ∈ [[(⟨"tags", .null⟩ : Constraint)]], ∀ k ∈ group, ¬ AsksItems
      (Attribute.scalar "tags" "Tags" .string false).repeated k := by
    simp [AsksItems, Condition.asksAll]
  have hbare : admits notes taggedNote [[⟨"tags", .null⟩]] bareNote = true := rfl
  have hsame := ((absent_as_empty rfl rfl htags rfl hothers).2 _ _ hcompile).2.1 hnone
  exact ⟨hcompile, hbare, hsame.trans hbare⟩

/-- A filter for notes whose tags differ from something admits the note that has no tags, but not
the one that lacks them. -/
theorem bareNote_not_as_empty :
    ((Attribute.scalar "tags" "Tags" .string false).repeated).valueIn bareNote = .null ∧
    compile notes taggedNote (.object [("tags", .object [("neq", .string "x")])]) =
      .ok [[⟨"tags", .neq (.string "x")⟩]] ∧
    admits notes taggedNote [[⟨"tags", .neq (.string "x")⟩]] bareNote = false ∧
    admits notes taggedNote [[⟨"tags", .neq (.string "x")⟩]] (bareNote.emptied "tags") = true :=
  ⟨rfl, rfl, rfl, rfl⟩

end Filter

end EntityGraph
