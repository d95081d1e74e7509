import EntityGraph.Proofs.Schema.Kinds
import EntityGraph.Proofs.Schema.Needed
import EntityGraph.Proofs.TypeString
import Mathlib.Data.List.Count

namespace EntityGraph

def TypeKind.label : TypeKind → String → String × String
  | .object, name => ("type", name)
  | .input, name => ("input", name ++ "Input")
  | .filter, name => ("input", name ++ "Filter")

def Operator.operand (op : Operator) (kind : ScalarKind) : TypeString :=
  match op with
  | .isIn | .notIn => .listOf kind.name
  | .null | .notNull => .named ScalarKind.boolean.name
  | .like | .findInSet => .named ScalarKind.string.name
  | _ => .named kind.name

theorem Operator.text_operand (op : Operator) (kind : ScalarKind) :
    (op.operand kind).text = op.operandType kind := by
  cases op <;> simp [operand, operandType, ScalarKind.name]

namespace Schema

variable {c : Catalog} {roots : RootFields} {pages : PageDefaults} {types : Reachable}
  {sections : TypeKind → List Block}

def Block.label (b : Block) : String × String := (b.keyword, b.name)

theorem blockOf_eq_ok {k : TypeKind} {e : Entity} {b : Block} :
    (blockOf c k e).outcome = .ok b ↔
      ∃ fields, (fieldsOf c k e).outcome = .ok fields ∧ k.block e fields = b := by
  rw [blockOf_eq, Tracked.outcome_bind, Outcome.bind_eq_ok]
  simp

/-- What is covered can be printed. -/
theorem blockOf_isOk (coverage : Coverage c roots) {k : TypeKind} {e : Entity}
    (he : coverage.of k e) : ∃ b, (blockOf c k e).outcome = .ok b := by
  cases k with
  | object => exact objectBlock_isOk coverage he
  | input => exact inputBlock_isOk coverage he
  | filter => exact filterBlock_isOk coverage he

def rootBlocks (roots : RootFields) (pages : PageDefaults) : List Block :=
  [RootKind.query, RootKind.mutation].filterMap (rootBlock? roots pages)

def document (roots : RootFields) (pages : PageDefaults) (sections : TypeKind → List Block) :
    List Block :=
  rootBlocks roots pages ++ sections .object ++ sections .input ++ sections .filter ++
    ScalarKind.all.map scalarBlock ++ [joinBlock]

def Sections (c : Catalog) (types : Reachable) (sections : TypeKind → List Block) : Prop :=
  ∀ k, List.Forall₂ (fun e b => (blockOf c k e).outcome = .ok b) (types.of k) (sections k)

/-- The definitions of a schema are those of the types that it reaches. -/
theorem blocks_of_sections (h : (reachable c roots).outcome = .ok types)
    (hs : Sections c types sections) :
    (blocks c roots pages).outcome = .ok (document roots pages sections) := by
  have hobjects : types.objects.mapM (fun e => (objectBlock c e).outcome) =
    .ok (sections .object) := Outcome.mapM_eq_ok.mpr (hs .object)
  have hinputs : types.inputs.mapM (fun e => (inputBlock c e).outcome) =
    .ok (sections .input) := Outcome.mapM_eq_ok.mpr (hs .input)
  have hfilters : types.filters.mapM (fun e => (filterBlock c e).outcome) =
    .ok (sections .filter) := Outcome.mapM_eq_ok.mpr (hs .filter)
  simp only [blocks, Tracked.outcome_bind, Tracked.outcome_mapM]
  rw [Outcome.bind_of_eq_ok h, Outcome.bind_of_eq_ok hobjects, Outcome.bind_of_eq_ok hinputs,
    Outcome.bind_of_eq_ok hfilters]
  rfl

/-- All types that a schema reaches can be written down. -/
theorem sections_isOk (h : (reachable c roots).outcome = .ok types) :
    ∃ sections, Sections c types sections := by
  obtain ⟨coverage, hcoverage⟩ := coverage_of_reachable_of h
  have hall : ∀ k, ∃ bs, List.Forall₂ (fun e b => (blockOf c k e).outcome = .ok b)
      (types.of k) bs := by
    intro k
    obtain ⟨bs, hbs⟩ := Outcome.mapM_isOk.mpr fun e (he : e ∈ types.of k) =>
      blockOf_isOk coverage ((hcoverage k e).mpr he)
    exact ⟨bs, Outcome.mapM_eq_ok.mp hbs⟩
  choose sections hsections using hall
  exact ⟨sections, hsections⟩

theorem mem_document_of_section {k : TypeKind} {b : Block} (hb : b ∈ sections k) :
    b ∈ document roots pages sections := by
  cases k <;> simp [document, hb]

section Lines

variable {definitions : List Block} {keywords : List String}

end Lines

section Reached

variable (h : (reachable c roots).outcome = .ok types) (hs : Sections c types sections)

include h hs

end Reached

end Schema

end EntityGraph
