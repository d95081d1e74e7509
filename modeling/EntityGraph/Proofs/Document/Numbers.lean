import EntityGraph.Proofs.Document.Expansion
import EntityGraph.Proofs.Keyed
import EntityGraph.Proofs.Number

namespace EntityGraph

inductive Literal.NaNFree : Literal → Prop
  | reference (variableName : String) : NaNFree (.reference variableName)
  | null : NaNFree .null
  | boolean (b : Bool) : NaNFree (.boolean b)
  | number {n : Number} : n.isNaN = false → NaNFree (.number n)
  | string (s : String) : NaNFree (.string s)
  | enum (name : String) : NaNFree (.enum name)
  | list {items : List Literal} : (∀ item ∈ items, NaNFree item) → NaNFree (.list items)
  | object {fields : List (String × Literal)} : (∀ field ∈ fields, NaNFree field.2) →
      NaNFree (.object fields)

inductive Selection.NaNFree : Selection → Prop
  | field {name : String} {label : Option String} {arguments : List (String × Literal)}
      {directives : List Directive} {selections : List Selection} :
      (∀ argument ∈ arguments, argument.2.NaNFree) → (∀ s ∈ selections, NaNFree s) →
      NaNFree (.field name label arguments directives selections)
  | spread (fragment : String) (directives : List Directive) : NaNFree (.spread fragment directives)
  | inline {directives : List Directive} {selections : List Selection} :
      (∀ s ∈ selections, NaNFree s) → NaNFree (.inline directives selections)

def Document.NaNFree (d : Document) : Prop :=
  ∀ fragment ∈ d.fragments, ∀ s ∈ fragment.selections, s.NaNFree

def Reading.NaNFree (r : Reading) : Prop := ∀ name, (r.assign name).NaNFree

inductive Expansion.NaNFree : Expansion → Prop
  | done : NaNFree .done
  | fault (e : Error) : NaNFree (.fault e)
  | field {head : AskedField} {inner rest : Unit → Expansion} :
      (∀ argument ∈ head.arguments, argument.2.NaNFree) → NaNFree (inner ()) → NaNFree (rest ()) →
      NaNFree (.field head inner rest)

namespace Literal

theorem resolveItems_eq (assign : String → Value) (items : List Literal) :
    resolveItems assign items = items.map (resolve assign) := by
  induction items with
  | nil => rfl
  | cons item items ih => rw [resolveItems, ih, List.map_cons]

theorem resolveFields_eq (assign : String → Value) (fields : List (String × Literal)) :
    resolveFields assign fields = fields.map fun field => (field.1, resolve assign field.2) := by
  induction fields with
  | nil => rfl
  | cons field fields ih => rw [resolveFields, ih, List.map_cons]

/-- Resolving brings in no number that the variables do not have. -/
theorem NaNFree.resolve {assign : String → Value} (hassign : ∀ name, (assign name).NaNFree)
    {l : Literal} (h : l.NaNFree) : (l.resolve assign).NaNFree := by
  induction h with
  | reference name => exact hassign name
  | null => exact .null
  | boolean b => exact .boolean b
  | number hn => exact .number hn
  | string s => exact .string s
  | enum name => exact .enum name
  | @list items _ ih =>
    rw [Literal.resolve, resolveItems_eq]
    refine .list fun item hitem => ?_
    obtain ⟨l, hl, rfl⟩ := List.mem_map.mp hitem
    exact ih l hl
  | @object fields _ ih =>
    rw [Literal.resolve, resolveFields_eq]
    refine .object fun field hfield => ?_
    obtain ⟨l, hl, rfl⟩ := List.mem_map.mp hfield
    exact ih l hl

end Literal

theorem Expansion.NaNFree.andThen {x : Expansion} {y : Unit → Expansion} (hx : x.NaNFree)
    (hy : (y ()).NaNFree) : (x.andThen y).NaNFree := by
  induction hx with
  | done => exact hy
  | fault e => exact .fault e
  | field harguments hinner _ _ ih => exact .field harguments hinner ih

namespace Reading

variable {r : Reading} {opening : Opening}

theorem nanFree_asked (hr : r.NaNFree) {arguments : List (String × Literal)}
    (h : ∀ argument ∈ arguments, argument.2.NaNFree) (name : String) (label : Option String)
    (selections : List Selection) :
    ∀ argument ∈ (r.asked name label arguments selections).arguments, argument.2.NaNFree := by
  intro argument hm
  have hm : argument ∈ Literal.resolveFields r.assign arguments := Keyed.mem_of_mem_ofList hm
  rw [Literal.resolveFields_eq] at hm
  obtain ⟨l, hl, rfl⟩ := List.mem_map.mp hm
  exact (h l hl).resolve hr

theorem nanFree_unlessSkipped {directives : List Directive} {kept : Unit → Expansion}
    (h : (kept ()).NaNFree) : (r.unlessSkipped directives kept fun _ => .done).NaNFree := by
  rw [unlessSkipped]
  split
  · exact .fault _
  · exact .done
  · exact h

/-- Arguments of all fields that are met are resolved from the selections, so none has a NaN in it.
-/
theorem nanFree_expansion (hr : r.NaNFree) (ho : opening.Continues)
    (hopening : ∀ name, (opening name fun _ => .done).NaNFree) {ss : List Selection}
    (hss : ∀ s ∈ ss, s.NaNFree) : (r.expansion none opening ss).NaNFree := by
  -- It is enough to look at one selection after another, each with those below it.
  have hlist : ∀ {ts : List Selection}, (∀ s ∈ ts, (r.expansion none opening [s]).NaNFree) →
      (r.expansion none opening ts).NaNFree := by
    intro ts hts
    induction ts with
    | nil => exact .done
    | cons s ts ih =>
      rw [List.forall_mem_cons] at hts
      rw [expansion_cons ho]
      exact hts.1.andThen (ih hts.2)
  refine hlist fun s hm => ?_
  have hs := hss s hm
  clear hm
  induction hs with
  | field harguments _ ih =>
    rw [expansion_field]
    exact nanFree_unlessSkipped (.field (nanFree_asked hr harguments _ _ _) (hlist ih) .done)
  | spread name directives =>
    rw [expansion_spread]
    exact nanFree_unlessSkipped (hopening name)
  | inline _ ih =>
    rw [expansion_inline]
    exact nanFree_unlessSkipped (hlist ih)

theorem mem_of_enter {d : Document} {opened : List String} {name : String} {fragment : Fragment}
    (h : d.enter opened name = .ok fragment) : fragment ∈ d.fragments := by
  rw [Document.enter] at h
  split at h
  · cases h
  · next found =>
    split at h
    · cases h
    · exact Except.ok.inj h ▸ List.mem_of_find?_eq_some found

/-- The same through fragments, by the limit on how many may still open. -/
theorem nanFree_openings (hr : r.NaNFree) {d : Document} (hd : d.NaNFree) (more : Nat)
    (opened : List String) (name : String) :
    (openings r d none more opened name fun _ => .done).NaNFree := by
  induction more generalizing opened name with
  | zero =>
    rw [openings]
    cases d.enter opened name with
    | error e => exact .fault e
    | ok fragment => exact .done
  | succ more ih =>
    cases h : d.enter opened name with
    | error e =>
      rw [openings, h]
      exact .fault e
    | ok fragment =>
      rw [openings_succ h]
      exact nanFree_expansion hr (continues_openings _ _) (ih _) (hd fragment (mem_of_enter h))

/-- What selections without NaN ask for is without NaN. -/
theorem nanFree_expand (hr : r.NaNFree) {d : Document} (hd : d.NaNFree) {ss : List Selection}
    (hss : ∀ s ∈ ss, s.NaNFree) : (r.expand d ss).NaNFree := by
  rw [expand_eq]
  exact nanFree_expansion hr (continues_openings _ _) (nanFree_openings hr hd _ _) hss

end Reading

end EntityGraph
