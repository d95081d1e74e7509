import EntityGraph.Document.Basic
import EntityGraph.Keyed

/-!
Expansion of selections: fragments are opened where they are spread, skipped selections are left
out, and variables are replaced by their values. An expansion is made as far as it is looked at, so
that what is wrong with a selection counts only when its place is reached.
-/

namespace EntityGraph

/-- A field that is asked for. `selected` tells a field that has selections of its own from one
that has none, also when all of them are skipped. -/
structure AskedField where
  name : String
  label : Option String
  arguments : Arguments
  selected : Bool

/-- What selections ask for: field after field, each with what its own selections ask for, up to
the end or to the first fault. -/
inductive Expansion where
  | done
  | fault (error : Error)
  | field (head : AskedField) (inner rest : Unit → Expansion)

structure Item where
  head : AskedField
  inner : Unit → Expansion

namespace Expansion

def items : Expansion → Except Error (List Item)
  | .done => .ok []
  | .fault e => .error e
  | .field head inner rest => (items (rest ())).map (⟨head, inner⟩ :: ·)

end Expansion

def Document.enter (d : Document) (opened : List String) (name : String) :
    Except Error Fragment :=
  match d.fragment? name with
  | none => .error (.unknownFragment name)
  | some fragment => if name ∈ opened then .error (.cyclicFragment name) else .ok fragment

/-- How selections are read: which directives skip theirs, and what variables stand for. -/
structure Reading where
  skips : List Directive → Except Error Bool
  assign : String → Value

namespace Reading

/-- The values of variables; one without a value is null. -/
def assignment (values : Arguments) (name : String) : Value :=
  (values.lookup name).getD .null

def skipsOn? : String → Option Bool
  | "skip" => some true
  | "include" => some false
  | _ => none

/-- Directives skip their selection; the first that does, or that has no truth value to go by,
decides. -/
def skipsBy (assign : String → Value) : List Directive → Except Error Bool
  | [] => .ok false
  | directive :: rest =>
    match skipsOn? directive.name with
    | none => skipsBy assign rest
    | some skipWhen =>
      match (directive.arguments.lookup "if").map (Literal.resolve assign) with
      | some (.boolean flag) => if flag = skipWhen then .ok true else skipsBy assign rest
      | _ => .error (.invalidArgument ("@" ++ directive.name) "if" "expected a Boolean")

def ofValues (values : Arguments) : Reading :=
  ⟨skipsBy (assignment values), assignment values⟩

/-- The truth of a condition: that of a variable is its given value, and only a truth value is
true. -/
def holds (given : Arguments) : Literal → Bool
  | .boolean flag => flag
  | .reference name => match given.lookup name with
    | some (.boolean flag) => flag
    | _ => false
  | _ => false

/-- Directives skip their selection by what holds for the given values; one without a condition
does not count. -/
def skipsGiven (given : Arguments) : List Directive → Bool
  | [] => false
  | directive :: rest =>
    match skipsOn? directive.name, directive.arguments.lookup "if" with
    | some skipWhen, some condition => holds given condition == skipWhen || skipsGiven given rest
    | _, _ => skipsGiven given rest

/-- Selections that ask about a schema are read with the values of the variables, but skipped by
the given ones alone. -/
def ofGiven (given defaults : Arguments) : Reading :=
  ⟨fun directives => .ok (skipsGiven given directives), assignment (given ++ defaults)⟩

def asked (r : Reading) (name : String) (label : Option String)
    (arguments : List (String × Literal)) (selections : List Selection) : AskedField :=
  { name, label, selected := !selections.isEmpty
    arguments := Keyed.ofList Prod.fst (Literal.resolveFields r.assign arguments) }

def unlessSkipped (r : Reading) (directives : List Directive) (kept after : Unit → Expansion) :
    Expansion :=
  match r.skips directives with
  | .error e => .fault e
  | .ok true => after ()
  | .ok false => kept ()

/-- How fragments are opened: what those of a name ask for, followed by something. -/
abbrev Opening := String → (Unit → Expansion) → Expansion

mutual

/-- What a selection asks for, followed by `after`. The selections of a field are expanded by
`below?` where that is given, and otherwise as the field itself is. -/
def selection (r : Reading) (below? : Option (List Selection → Expansion)) (opening : Opening) :
    Selection → (Unit → Expansion) → Expansion
  | .field name label arguments directives inner, after =>
    r.unlessSkipped directives
      (fun _ => .field (r.asked name label arguments inner)
        (fun _ => match below? with
          | some expand => expand inner
          | none => selections r below? opening inner fun _ => .done)
        after)
      after
  | .spread name directives, after =>
    r.unlessSkipped directives (fun _ => opening name after) after
  | .inline directives inner, after =>
    r.unlessSkipped directives (fun _ => selections r below? opening inner after) after

def selections (r : Reading) (below? : Option (List Selection → Expansion)) (opening : Opening) :
    List Selection → (Unit → Expansion) → Expansion
  | [], after => after ()
  | first :: rest, after =>
    selection r below? opening first fun _ => selections r below? opening rest after

end

/-- What selections ask for inside opened fragments, of which `more` may still be opened, followed
by `after`. Every open fragment has a name of its own, so there are never more than the document
holds. -/
def within (r : Reading) (d : Document) (below? : Option (List Selection → Expansion)) :
    Nat → List String → List Selection → (Unit → Expansion) → Expansion
  | more, opened => selections r below? fun name after =>
    match d.enter opened name with
    | .error e => .fault e
    | .ok fragment =>
      match more with
      | 0 => after ()
      | more + 1 => within r d below? more (name :: opened) fragment.selections after

def expand (r : Reading) (d : Document) (asked : List Selection) : Expansion :=
  r.within d none d.fragments.length [] asked fun _ => .done

/-- What selections at a root ask for. Below a root field no fragment is open. -/
def expandRoot (r : Reading) (d : Document) (asked : List Selection) : Expansion :=
  r.within d (some (r.expand d)) d.fragments.length [] asked fun _ => .done

end Reading

end EntityGraph
