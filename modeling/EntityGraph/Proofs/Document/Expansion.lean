import EntityGraph.Document.Expansion

namespace EntityGraph

namespace Expansion

def andThen : Expansion → (Unit → Expansion) → Expansion
  | .done, after => after ()
  | .fault e, _ => .fault e
  | .field head inner rest, after => .field head inner fun _ => andThen (rest ()) after

@[simp] theorem done_andThen (after : Unit → Expansion) : done.andThen after = after () := rfl

@[simp] theorem fault_andThen (e : Error) (after : Unit → Expansion) :
    (fault e).andThen after = fault e := rfl

@[simp] theorem andThen_done (x : Expansion) : x.andThen (fun _ => .done) = x := by
  induction x with
  | done => rfl
  | fault e => rfl
  | field head inner rest _ ih =>
    rw [andThen]
    exact congrArg (field head inner) (funext ih)

/-- Expansions follow one another without regard to how they are grouped. -/
theorem andThen_assoc (x : Expansion) (y z : Unit → Expansion) :
    (x.andThen y).andThen z = x.andThen fun _ => (y ()).andThen z := by
  induction x with
  | done => rfl
  | fault e => rfl
  | field head inner rest _ ih =>
    rw [andThen, andThen, andThen]
    exact congrArg (field head inner) (funext ih)

inductive All (P : AskedField → Prop) : Expansion → Prop
  | done : All P .done
  | fault (e : Error) : All P (.fault e)
  | field {head : AskedField} {inner rest : Unit → Expansion} : P head → All P (inner ()) →
      All P (rest ()) → All P (.field head inner rest)

theorem All.of_forall {P : AskedField → Prop} (h : ∀ f, P f) (x : Expansion) : x.All P := by
  induction x with
  | done => exact .done
  | fault e => exact .fault e
  | field head inner rest ihinner ihrest => exact .field (h head) (ihinner ()) (ihrest ())

end Expansion

namespace Reading

variable {r : Reading} {below? : Option (List Selection → Expansion)} {opening : Opening}

def Opening.Continues (opening : Opening) : Prop :=
  ∀ name after, opening name after = (opening name fun _ => .done).andThen after

/-- What follows a selection follows it whether it is skipped or not. -/
theorem unlessSkipped_andThen (directives : List Directive) (kept after : Unit → Expansion) :
    r.unlessSkipped directives (fun _ => (kept ()).andThen after) after =
      (r.unlessSkipped directives kept fun _ => .done).andThen after := by
  rw [unlessSkipped, unlessSkipped]
  cases r.skips directives with
  | error e => rfl
  | ok skipped => cases skipped <;> rfl

mutual

/-- A selection passes what comes after it on, once. -/
theorem selection_andThen (ho : opening.Continues) (s : Selection) (after : Unit → Expansion) :
    selection r below? opening s after =
      (selection r below? opening s fun _ => .done).andThen after := by
  cases s with
  | field name label arguments directives inner =>
    simp only [selection]
    rw [← unlessSkipped_andThen]
    rfl
  | spread name directives =>
    simp only [selection]
    rw [← unlessSkipped_andThen, ← ho name after]
  | inline directives inner =>
    simp only [selection]
    rw [← unlessSkipped_andThen, ← selections_andThen ho inner after]

/-- What selections ask for is followed by what comes after them. -/
theorem selections_andThen (ho : opening.Continues) (ss : List Selection)
    (after : Unit → Expansion) : selections r below? opening ss after =
      (selections r below? opening ss fun _ => .done).andThen after := by
  cases ss with
  | nil => rfl
  | cons s ss =>
    simp only [selections]
    rw [selection_andThen ho s, selection_andThen ho s fun _ => selections r below? opening ss _,
      Expansion.andThen_assoc, ← selections_andThen ho ss after]

end

def expansion (r : Reading) (below? : Option (List Selection → Expansion)) (opening : Opening)
    (ss : List Selection) : Expansion := selections r below? opening ss fun _ => .done

/-- A row of selections expands from left to right. -/
theorem expansion_append (ho : opening.Continues) (ss ts : List Selection) :
    r.expansion below? opening (ss ++ ts) =
      (r.expansion below? opening ss).andThen fun _ => r.expansion below? opening ts := by
  induction ss with
  | nil => rfl
  | cons s ss ih =>
    rw [List.cons_append, expansion, selections, expansion, selections, selection_andThen ho,
      selection_andThen ho s fun _ => selections r below? opening ss _, Expansion.andThen_assoc]
    exact congrArg _ (funext fun _ => ih)

theorem expansion_cons (ho : opening.Continues) (s : Selection) (ss : List Selection) :
    r.expansion below? opening (s :: ss) =
      (r.expansion below? opening [s]).andThen fun _ => r.expansion below? opening ss :=
  expansion_append ho [s] ss

theorem expansion_field (name : String) (label : Option String)
    (arguments : List (String × Literal)) (directives : List Directive) (inner : List Selection) :
    r.expansion none opening [.field name label arguments directives inner] =
      r.unlessSkipped directives
        (fun _ => .field (r.asked name label arguments inner)
          (fun _ => r.expansion none opening inner) fun _ => .done)
        fun _ => .done := by
  simp only [expansion, selections, selection]

theorem expansion_spread (name : String) (directives : List Directive) :
    r.expansion below? opening [.spread name directives] =
      r.unlessSkipped directives (fun _ => opening name fun _ => .done) fun _ => .done := by
  simp only [expansion, selections, selection]

theorem expansion_inline (directives : List Directive) (inner : List Selection) :
    r.expansion below? opening [.inline directives inner] =
      r.unlessSkipped directives (fun _ => r.expansion below? opening inner) fun _ => .done := by
  simp only [expansion, selections, selection]

variable {d : Document}

def openings (r : Reading) (d : Document) (below? : Option (List Selection → Expansion))
    (more : Nat) (opened : List String) : Opening := fun name after =>
  match d.enter opened name with
  | .error e => .fault e
  | .ok fragment =>
    match more with
    | 0 => after ()
    | more + 1 => within r d below? more (name :: opened) fragment.selections after

/-- Opening fragments with a limit is expanding with `openings` as the way to open. -/
theorem within_eq (more : Nat) (opened : List String) :
    within r d below? more opened = selections r below? (openings r d below? more opened) := by
  rw [within]
  refine congrArg _ (funext fun name => funext fun after => ?_)
  rfl

/-- A fragment that may be entered opens to its selections, and is open from then on. -/
theorem openings_succ {more : Nat} {opened : List String} {name : String} {fragment : Fragment}
    (h : d.enter opened name = .ok fragment) :
    openings r d below? (more + 1) opened name (fun _ => .done) =
      r.expansion below? (openings r d below? more (name :: opened)) fragment.selections := by
  rw [openings, h]
  show within r d below? more (name :: opened) fragment.selections _ = _
  rw [within_eq, expansion]

/-- Opening a fragment passes what comes after it on, however many are open. -/
theorem continues_openings (more : Nat) (opened : List String) :
    (openings r d below? more opened).Continues := by
  induction more generalizing opened with
  | zero =>
    intro name after
    simp only [openings]
    cases d.enter opened name <;> rfl
  | succ more ih =>
    intro name after
    simp only [openings]
    cases d.enter opened name with
    | error e => rfl
    | ok fragment =>
      simp only [within_eq]
      exact selections_andThen (ih (name :: opened)) fragment.selections after

theorem expand_eq (r : Reading) (d : Document) (ss : List Selection) :
    r.expand d ss = r.expansion none (openings r d none d.fragments.length []) ss := by
  rw [expand, within_eq, expansion]

end Reading

end EntityGraph
