import EntityGraph.Proofs.Document.Inlining
import EntityGraph.Proofs.Value

namespace EntityGraph

namespace Literal

mutual

def ofValue : Value → Literal
  | .null => .null
  | .boolean b => .boolean b
  | .number n => .number n
  | .string s => .string s
  | .enum name => .enum name
  | .list items => .list (ofItems items)
  | .object fields => .object (ofFields fields)

def ofItems : List Value → List Literal
  | [] => []
  | item :: rest => ofValue item :: ofItems rest

def ofFields : Arguments → List (String × Literal)
  | [] => []
  | (key, value) :: rest => (key, ofValue value) :: ofFields rest

end

mutual

def substitute (assign : String → Value) : Literal → Literal
  | .reference name => ofValue (assign name)
  | .null => .null
  | .boolean b => .boolean b
  | .number n => .number n
  | .string s => .string s
  | .enum name => .enum name
  | .list items => .list (substituteItems assign items)
  | .object fields => .object (substituteFields assign fields)

def substituteItems (assign : String → Value) : List Literal → List Literal
  | [] => []
  | item :: rest => substitute assign item :: substituteItems assign rest

def substituteFields (assign : String → Value) :
    List (String × Literal) → List (String × Literal)
  | [] => []
  | (key, value) :: rest => (key, substitute assign value) :: substituteFields assign rest

end

variable {assign assign' : String → Value}

theorem resolveItems_ofItems {items : List Value}
    (h : ∀ item ∈ items, resolve assign (ofValue item) = item) :
    resolveItems assign (ofItems items) = items := by
  induction items with
  | nil => rfl
  | cons item items ih =>
    rw [List.forall_mem_cons] at h
    rw [ofItems, resolveItems, h.1, ih h.2]

theorem resolveFields_ofFields {fields : Arguments}
    (h : ∀ field ∈ fields, resolve assign (ofValue field.2) = field.2) :
    resolveFields assign (ofFields fields) = fields := by
  induction fields with
  | nil => rfl
  | cons field fields ih =>
    rw [List.forall_mem_cons] at h
    rw [ofFields, resolveFields, h.1, ih h.2]

/-- A value as a literal stands for itself. -/
@[simp] theorem resolve_ofValue (assign : String → Value) (v : Value) :
    resolve assign (ofValue v) = v := by
  induction v using Value.induction with
  | list items ih => rw [ofValue, resolve, resolveItems_ofItems ih]
  | object fields ih => rw [ofValue, resolve, resolveFields_ofFields ih]
  | _ => rfl

mutual

/-- Values in the places of variables are what the variables stood for. -/
@[simp] theorem resolve_substitute (l : Literal) :
    (l.substitute assign).resolve assign' = l.resolve assign := by
  cases l with
  | reference name => rw [substitute, resolve_ofValue, resolve]
  | list items => rw [substitute, resolve, resolveItems_substituteItems items, resolve]
  | object fields => rw [substitute, resolve, resolveFields_substituteFields fields, resolve]
  | _ => rfl

/-- In a list the two ways to resolve agree, member by member. -/
theorem resolveItems_substituteItems (items : List Literal) :
    resolveItems assign' (substituteItems assign items) = resolveItems assign items := by
  cases items with
  | nil => rfl
  | cons item items =>
    rw [substituteItems, resolveItems, resolve_substitute item, resolveItems_substituteItems items,
      resolveItems]

@[simp] theorem resolveFields_substituteFields (fields : List (String × Literal)) :
    resolveFields assign' (substituteFields assign fields) = resolveFields assign fields := by
  cases fields with
  | nil => rfl
  | cons field fields =>
    rw [substituteFields, resolveFields, resolve_substitute field.2,
      resolveFields_substituteFields fields, resolveFields]

end

theorem lookup_substituteFields (key : String) (fields : List (String × Literal)) :
    (substituteFields assign fields).lookup key = (fields.lookup key).map (substitute assign) := by
  induction fields with
  | nil => rfl
  | cons field fields ih =>
    rw [substituteFields, List.lookup_cons, List.lookup_cons, ih]
    cases key == field.1 <;> rfl

end Literal

def Directive.substitute (assign : String → Value) (directive : Directive) : Directive :=
  { directive with arguments := Literal.substituteFields assign directive.arguments }

mutual

def Selection.substitute (assign : String → Value) : Selection → Selection
  | .field name label arguments directives inner =>
    .field name label (Literal.substituteFields assign arguments)
      (directives.map (Directive.substitute assign)) (substituteAll assign inner)
  | .spread name directives => .spread name (directives.map (Directive.substitute assign))
  | .inline directives inner =>
    .inline (directives.map (Directive.substitute assign)) (substituteAll assign inner)

def Selection.substituteAll (assign : String → Value) : List Selection → List Selection
  | [] => []
  | first :: rest => Selection.substitute assign first :: substituteAll assign rest

end

def Fragment.substitute (assign : String → Value) (fragment : Fragment) : Fragment :=
  { fragment with selections := Selection.substituteAll assign fragment.selections }

/-- A document with values in the places of variables in its fragments. Its operations have
variables of their own. -/
def Document.substitute (assign : String → Value) (d : Document) : Document :=
  { d with fragments := d.fragments.map (Fragment.substitute assign) }

theorem Document.fragment?_substitute (assign : String → Value) (d : Document) (name : String) :
    (d.substitute assign).fragment? name = (d.fragment? name).map (Fragment.substitute assign) := by
  rw [fragment?, fragment?, substitute, List.find?_map]
  rfl

/-- Fragments are entered under their names, which no substitution touches. -/
theorem Document.enter_substitute (assign : String → Value) (d : Document) (opened : List String)
    (name : String) : (d.substitute assign).enter opened name =
      (d.enter opened name).map (Fragment.substitute assign) := by
  rw [enter, enter, fragment?_substitute]
  cases d.fragment? name with
  | none => rfl
  | some fragment =>
    dsimp only [Option.map]
    split <;> rfl

namespace Reading

def expandBelow (r : Reading) (below? : Option (List Selection → Expansion)) (opening : Opening)
    (inner : List Selection) : Expansion :=
  match below? with
  | some expand => expand inner
  | none => r.expansion none opening inner

theorem selection_field (r : Reading) (below? : Option (List Selection → Expansion))
    (opening : Opening) (name : String) (label : Option String)
    (arguments : List (String × Literal)) (directives : List Directive) (inner : List Selection)
    (after : Unit → Expansion) :
    selection r below? opening (.field name label arguments directives inner) after =
      r.unlessSkipped directives
        (fun _ => .field (r.asked name label arguments inner)
          (fun _ => r.expandBelow below? opening inner) after)
        after := by
  cases below? <;> simp only [selection, expandBelow, expansion]

/-- Directives decide by the values that their variables had. -/
theorem skipsBy_substitute (assign assign' : String → Value) (directives : List Directive) :
    skipsBy assign' (directives.map (Directive.substitute assign)) = skipsBy assign directives := by
  induction directives with
  | nil => rfl
  | cons directive directives ih =>
    have hcondition : ((directive.substitute assign).arguments.lookup "if").map
        (Literal.resolve assign') =
          (directive.arguments.lookup "if").map (Literal.resolve assign) := by
      rw [Directive.substitute, Literal.lookup_substituteFields, Option.map_map]
      exact congrArg (Option.map · _) (funext Literal.resolve_substitute)
    rw [List.map_cons, skipsBy, skipsBy, hcondition, ih]
    rfl

section

-- The values before and after: afterwards no variable is left, and any values will do.
variable (values values' : Arguments)

/-- Directives decide alike before and after. -/
theorem skips_substitute (directives : List Directive) :
    (ofValues values').skips (directives.map (Directive.substitute (ofValues values).assign)) =
      (ofValues values).skips directives :=
  skipsBy_substitute _ _ directives

theorem unlessSkipped_substitute (directives : List Directive) (kept after : Unit → Expansion) :
    (ofValues values').unlessSkipped
        (directives.map (Directive.substitute (ofValues values).assign)) kept after =
      (ofValues values).unlessSkipped directives kept after := by
  rw [unlessSkipped, unlessSkipped, skips_substitute]

/-- A field asks for the same before and after. -/
theorem asked_substitute (name : String) (label : Option String)
    (arguments : List (String × Literal)) (inner : List Selection) :
    (ofValues values').asked name label
        (Literal.substituteFields (ofValues values).assign arguments)
        (Selection.substituteAll (ofValues values).assign inner) =
      (ofValues values).asked name label arguments inner := by
  have hempty : (Selection.substituteAll (ofValues values).assign inner).isEmpty = inner.isEmpty := by
    cases inner <;> rfl
  rw [asked, asked, Literal.resolveFields_substituteFields, hempty]

variable {values values'} {below below' : Option (List Selection → Expansion)}
  {opening opening' : Opening}

/-- What stands below a field is expanded to the same with values in the places of variables. -/
inductive SameBelow (values : Arguments) :
    Option (List Selection → Expansion) → Option (List Selection → Expansion) → Prop
  | none : SameBelow values none none
  | some {expand expand' : List Selection → Expansion} :
      (∀ ss, expand' (Selection.substituteAll (ofValues values).assign ss) = expand ss) →
      SameBelow values (some expand) (some expand')

/-- Selections ask for the same with values in the places of variables, if fragments do and if what
stands below a field does. -/
theorem selections_substitute (hbelow : SameBelow values below below')
    (hopening : ∀ name after, opening' name after = opening name after) (ss : List Selection)
    (after : Unit → Expansion) :
    selections (ofValues values') below' opening'
        (Selection.substituteAll (ofValues values).assign ss) after =
      selections (ofValues values) below opening ss after := by
  induction ss using Selection.list_induction generalizing after with
  | nil => rfl
  | field name label arguments directives inner rest hinner hrest =>
    have hfield : expandBelow (ofValues values') below' opening'
        (Selection.substituteAll (ofValues values).assign inner) =
          expandBelow (ofValues values) below opening inner := by
      -- Below a field the expansion is this one or, at the root, one that agrees by assumption.
      cases hbelow with
      | none => exact hinner _
      | some hsame => exact hsame inner
    rw [Selection.substituteAll, Selection.substitute, selections, selections, selection_field,
      selection_field, unlessSkipped_substitute, asked_substitute, hfield]
    simp only [hrest]
  | spread name directives rest hrest =>
    rw [Selection.substituteAll, Selection.substitute, selections, selections]
    simp only [selection, unlessSkipped_substitute, hopening, hrest]
  | inline directives inner rest hinner hrest =>
    rw [Selection.substituteAll, Selection.substitute, selections, selections]
    simp only [selection, unlessSkipped_substitute, hinner, hrest]

variable {d : Document}

/-- Fragments that are opened in the document with values ask for what they asked for. -/
theorem openings_substitute (hbelow : SameBelow values below below') (more : Nat)
    (opened : List String) (name : String) (after : Unit → Expansion) :
    openings (ofValues values') (d.substitute (ofValues values).assign) below' more opened name after =
      openings (ofValues values) d below more opened name after := by
  induction more generalizing opened name after with
  | zero =>
    rw [openings, openings, Document.enter_substitute]
    cases d.enter opened name <;> rfl
  | succ more ih =>
    rw [openings, openings, Document.enter_substitute]
    cases d.enter opened name with
    | error e => rfl
    | ok fragment =>
      dsimp only [Except.map]
      rw [within_eq, within_eq]
      exact selections_substitute hbelow (ih (name :: opened)) fragment.selections after

/-- The loop through fragments agrees, since both documents have as many of them. -/
theorem within_substitute (hbelow : SameBelow values below below') (ss : List Selection) :
    (ofValues values').within (d.substitute (ofValues values).assign) below'
        (d.substitute (ofValues values).assign).fragments.length []
        (Selection.substituteAll (ofValues values).assign ss) (fun _ => .done) =
      (ofValues values).within d below d.fragments.length [] ss fun _ => .done := by
  have hlength : (d.substitute (ofValues values).assign).fragments.length = d.fragments.length :=
    List.length_map _
  rw [hlength, within_eq, within_eq]
  exact selections_substitute hbelow (openings_substitute hbelow _ _) ss _

/-- Substituting first and expanding then is expanding under the variables. -/
theorem expand_substitute (values values' : Arguments) (d : Document) (ss : List Selection) :
    (ofValues values').expand (d.substitute (ofValues values).assign)
        (Selection.substituteAll (ofValues values).assign ss) = (ofValues values).expand d ss :=
  within_substitute .none ss

/-- Selections at a root ask for the same with values in the places of variables. -/
theorem expandRoot_substitute (values values' : Arguments) (d : Document) (ss : List Selection) :
    (ofValues values').expandRoot (d.substitute (ofValues values).assign)
        (Selection.substituteAll (ofValues values).assign ss) =
      (ofValues values).expandRoot d ss :=
  within_substitute (.some (expand_substitute values values' d)) ss

end

end Reading

end EntityGraph
