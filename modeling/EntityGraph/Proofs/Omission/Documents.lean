import EntityGraph.Proofs.Document.Substitution
import EntityGraph.Proofs.Omission.Requests

/-!
Documents without some of the nulls in arguments and directives. Fragments may be spread in several
scopes, and a null in them may be left out where its key is known in all of these. Main statement:
what selections ask for lacks these nulls and is otherwise the same.
-/

namespace EntityGraph

def Reading.argumentsOf (r : Reading) (arguments : List (String × Literal)) : Arguments :=
  Keyed.ofList Prod.fst (Literal.resolveFields r.assign arguments)

def Reading.condition? (r : Reading) (directive : Directive) : Option Value :=
  (directive.arguments.lookup "if").map (Literal.resolve r.assign)

structure DirectiveOmits (r r' : Reading) (directive directive' : Directive) : Prop where
  name : directive'.name = directive.name
  condition : r'.condition? directive' = r.condition? directive ∨
    r.condition? directive = some .null ∧ r'.condition? directive' = none

/-- Selections in a scope, and the same selections without some of the nulls in arguments and
directives. `spread` tells which fragments are spread in which scopes. -/
inductive SelectionsOmit (service : Service) (r r' : Reading)
    (spread : FieldScope → String → Prop) :
    FieldScope → List Selection → List Selection → Prop
  | nil (scope : FieldScope) : SelectionsOmit service r r' spread scope [] []
  | field {scope : FieldScope} {name : String} {label : Option String}
      {arguments arguments' : List (String × Literal)} {directives directives' : List Directive}
      {inner inner' rest rest' : List Selection} :
      OmitsFields service (scope.place service name) (r.argumentsOf arguments)
        (r'.argumentsOf arguments') →
      List.Forall₂ (DirectiveOmits r r') directives directives' →
      SelectionsOmit service r r' spread (scope.below service name) inner inner' →
      SelectionsOmit service r r' spread scope rest rest' →
      SelectionsOmit service r r' spread scope
        (.field name label arguments directives inner :: rest)
        (.field name label arguments' directives' inner' :: rest')
  | spread {scope : FieldScope} {name : String} {directives directives' : List Directive}
      {rest rest' : List Selection} : spread scope name →
      List.Forall₂ (DirectiveOmits r r') directives directives' →
      SelectionsOmit service r r' spread scope rest rest' →
      SelectionsOmit service r r' spread scope (.spread name directives :: rest)
        (.spread name directives' :: rest')
  | inline {scope : FieldScope} {directives directives' : List Directive}
      {inner inner' rest rest' : List Selection} :
      List.Forall₂ (DirectiveOmits r r') directives directives' →
      SelectionsOmit service r r' spread scope inner inner' →
      SelectionsOmit service r r' spread scope rest rest' →
      SelectionsOmit service r r' spread scope (.inline directives inner :: rest)
        (.inline directives' inner' :: rest')

/-- Documents with the same fragments, up to some of the nulls in arguments and directives. -/
structure FragmentsOmit (service : Service) (r r' : Reading) (spread : FieldScope → String → Prop)
    (d d' : Document) : Prop where
  names : d'.fragments.map Fragment.name = d.fragments.map Fragment.name
  selections : ∀ scope name f f', spread scope name → d.fragment? name = some f →
    d'.fragment? name = some f' →
      SelectionsOmit service r r' spread scope f.selections f'.selections

variable {service : Service} {spread : FieldScope → String → Prop} {scope : FieldScope}

/-- A document has a fragment of a name if its fragments have. -/
theorem Document.fragment?_isSome (d : Document) (name : String) :
    (d.fragment? name).isSome = true ↔ name ∈ d.fragments.map Fragment.name := by
  simp [fragment?, List.find?_isSome]

theorem FragmentsOmit.enter_cases {r r' : Reading} {d d' : Document}
    (h : FragmentsOmit service r r' spread d d') (opened : List String) (name : String) :
    (∃ err, d.enter opened name = .error err ∧ d'.enter opened name = .error err) ∨
      ∃ f f', d.enter opened name = .ok f ∧ d'.enter opened name = .ok f' ∧
        d.fragment? name = some f ∧ d'.fragment? name = some f' := by
  have hsome : (d'.fragment? name).isSome = true ↔ (d.fragment? name).isSome = true := by
    rw [Document.fragment?_isSome, Document.fragment?_isSome, h.names]
  rw [Document.enter, Document.enter]
  cases hf : d.fragment? name with
  | none =>
    have hf' : d'.fragment? name = none := by simpa [hf] using hsome
    rw [hf']
    exact Or.inl ⟨_, rfl, rfl⟩
  | some f =>
    obtain ⟨f', hf'⟩ := Option.isSome_iff_exists.mp (hsome.mpr (by rw [hf]; rfl))
    rw [hf']
    dsimp only
    split
    · exact Or.inl ⟨_, rfl, rfl⟩
    · exact Or.inr ⟨f, f', rfl, rfl, rfl, rfl⟩

namespace Reading

variable {values values' : Arguments}

/-- Directives skip the same selections, as a condition that is null is as bad as none. -/
theorem skipsBy_omits {directives directives' : List Directive}
    (h : List.Forall₂ (DirectiveOmits (ofValues values) (ofValues values')) directives directives') :
    (ofValues values').skips directives' = (ofValues values).skips directives := by
  show skipsBy (assignment values') directives' = skipsBy (assignment values) directives
  induction h with
  | nil => rfl
  | @cons x x' _ _ hx _ ih =>
    rw [skipsBy, skipsBy, hx.name, ih]
    have hcondition : (x'.arguments.lookup "if").map (Literal.resolve (assignment values')) =
          (x.arguments.lookup "if").map (Literal.resolve (assignment values)) ∨
        (x.arguments.lookup "if").map (Literal.resolve (assignment values)) = some .null ∧
          (x'.arguments.lookup "if").map (Literal.resolve (assignment values')) = none := hx.condition
    rcases hcondition with hsame | ⟨hnull, hnone⟩
    · rw [hsame]
    · rw [hnull, hnone]

section

variable {directives directives' : List Directive} {kept kept' after after' : Unit → Expansion}

/-- Directives decide alike, so that both sides skip or none does. -/
theorem unlessSkipped_omits
    (h : List.Forall₂ (DirectiveOmits (ofValues values) (ofValues values')) directives directives')
    (hkept : ExpansionOmits service scope (kept ()) (kept' ()))
    (hafter : ExpansionOmits service scope (after ()) (after' ())) :
    ExpansionOmits service scope ((ofValues values).unlessSkipped directives kept after)
      ((ofValues values').unlessSkipped directives' kept' after') := by
  rw [unlessSkipped, unlessSkipped, skipsBy_omits h]
  cases (ofValues values).skips directives with
  | error err => exact .fault scope err
  | ok skipped =>
    cases skipped with
    | true => exact hafter
    | false => exact hkept

end

def OpeningOmits (service : Service) (spread : FieldScope → String → Prop)
    (opening opening' : Opening) : Prop :=
  ∀ scope name after after', spread scope name →
    ExpansionOmits service scope (after ()) (after' ()) →
      ExpansionOmits service scope (opening name after) (opening' name after')

inductive BelowOmits (service : Service) (spread : FieldScope → String → Prop)
    (values values' : Arguments) :
    Option (List Selection → Expansion) → Option (List Selection → Expansion) → Prop
  | none : BelowOmits service spread values values' none none
  | some {expand expand' : List Selection → Expansion} :
      (∀ scope ss ss',
        SelectionsOmit service (ofValues values) (ofValues values') spread scope ss ss' →
        ExpansionOmits service scope (expand ss) (expand' ss')) →
      BelowOmits service spread values values' (some expand) (some expand')

variable {below below' : Option (List Selection → Expansion)} {opening opening' : Opening}

/-- A row without its nulls expands to the same fields without theirs. -/
theorem selections_omits (hbelow : BelowOmits service spread values values' below below')
    (hopening : OpeningOmits service spread opening opening') {ss ss' : List Selection}
    (h : SelectionsOmit service (ofValues values) (ofValues values') spread scope ss ss')
    {after after' : Unit → Expansion}
    (hafter : ExpansionOmits service scope (after ()) (after' ())) :
    ExpansionOmits service scope (selections (ofValues values) below opening ss after)
      (selections (ofValues values') below' opening' ss' after') := by
  -- On the relation between the selections: what comes after them changes along the way.
  induction h generalizing after after' with
  | nil => exact hafter
  | @field scope name label arguments arguments' directives directives' inner inner' rest rest'
      harguments hdirectives hinner hrest ihinner ihrest =>
    rw [selections, selections, selection_field, selection_field]
    refine unlessSkipped_omits hdirectives (.field ⟨rfl, rfl, ?_, ?_, harguments⟩ ?_ (ihrest hafter))
      (ihrest hafter)
    · cases hinner <;> rfl
    · exact Keyed.nodup_ofList _ _
    · cases hbelow with
      | none => exact ihinner (.done _)
      | some hexpand => exact hexpand _ _ _ hinner
  | spread hspread hdirectives _ ihrest =>
    rw [selections, selections, selection, selection]
    exact unlessSkipped_omits hdirectives (hopening _ _ _ _ hspread (ihrest hafter)) (ihrest hafter)
  | inline hdirectives _ _ ihinner ihrest =>
    rw [selections, selections, selection, selection]
    exact unlessSkipped_omits hdirectives (ihinner (ihrest hafter)) (ihrest hafter)

variable {d d' : Document}

/-- Opened fragments too, by the limit on how many may still open. -/
theorem openings_omits (hbelow : BelowOmits service spread values values' below below')
    (h : FragmentsOmit service (ofValues values) (ofValues values') spread d d') (more : Nat)
    (opened : List String) :
    OpeningOmits service spread (openings (ofValues values) d below more opened)
      (openings (ofValues values') d' below' more opened) := by
  -- Both documents have the same names open, so that both may enter or neither.
  induction more generalizing opened with
  | zero =>
    intro scope name after after' hspread hafter
    rw [openings, openings]
    rcases h.enter_cases opened name with ⟨err, herr, herr'⟩ | ⟨f, f', hf, hf', _, _⟩
    · rw [herr, herr']
      exact .fault scope err
    · rw [hf, hf']
      exact hafter
  | succ more ih =>
    intro scope name after after' hspread hafter
    rw [openings, openings]
    rcases h.enter_cases opened name with ⟨err, herr, herr'⟩ | ⟨f, f', hf, hf', hfound, hfound'⟩
    · rw [herr, herr']
      exact .fault scope err
    · rw [hf, hf']
      dsimp only
      rw [within_eq, within_eq]
      exact selections_omits hbelow (ih (name :: opened))
        (h.selections scope name f f' hspread hfound hfound') hafter

/-- The loop through fragments, on both sides under the same limit. -/
theorem within_omits (hbelow : BelowOmits service spread values values' below below')
    (h : FragmentsOmit service (ofValues values) (ofValues values') spread d d')
    {ss ss' : List Selection}
    (hss : SelectionsOmit service (ofValues values) (ofValues values') spread scope ss ss') :
    ExpansionOmits service scope
      ((ofValues values).within d below d.fragments.length [] ss fun _ => .done)
      ((ofValues values').within d' below' d'.fragments.length [] ss' fun _ => .done) := by
  have hlength : d'.fragments.length = d.fragments.length := by
    rw [← List.length_map Fragment.name, h.names, List.length_map]
  rw [within_eq, within_eq, hlength]
  exact selections_omits hbelow (openings_omits hbelow h _ _) hss (.done scope)

/-- What selections at a root ask for lacks nulls that they lack, and is otherwise the same. -/
theorem expandRoot_omits
    (h : FragmentsOmit service (ofValues values) (ofValues values') spread d d')
    {ss ss' : List Selection}
    (hss : SelectionsOmit service (ofValues values) (ofValues values') spread scope ss ss') :
    ExpansionOmits service scope ((ofValues values).expandRoot d ss)
      ((ofValues values').expandRoot d' ss') :=
  within_omits (.some fun _ _ _ hinner => within_omits .none h hinner) h hss

end Reading

end EntityGraph
