import EntityGraph.Filter.Basic

/-!
Trees of conjunctions and disjunctions, and their reduction to a conjunction of disjunctions of
leaves. A node without children imposes nothing: it vanishes under a conjunction and makes an
enclosing disjunction impose nothing. No distribution is attempted, so a disjunction that still
has a conjunction below it is refused.
-/

namespace EntityGraph

inductive FilterTree (α : Type) where
  | leaf (a : α)
  | node (join : Join) (children : List (FilterTree α))

namespace FilterTree

variable {α : Type}

/-- The children that a simplified tree contributes below a node of a join: its own when it is
joined in the same way, otherwise the tree itself. -/
def splice (join : Join) : FilterTree α → List (FilterTree α)
  | .node inner children => if inner = join then children else [.node inner children]
  | .leaf a => [.leaf a]

/-- A node of simplified children: none without children, the child itself of one. -/
def assemble (join : Join) : List (FilterTree α) → Option (FilterTree α)
  | [] => none
  | [child] => some child
  | children => some (.node join children)

mutual

/-- The tree without empty nodes, without nodes of one child, and without a node directly below
one of the same join. None when the tree imposes nothing. -/
def simplify : FilterTree α → Option (FilterTree α)
  | .leaf a => some (.leaf a)
  | .node join children => (simplifyChildren join children).bind (assemble join)

/-- The simplified children of a node; none when one of them absorbs the node. -/
def simplifyChildren (join : Join) : List (FilterTree α) → Option (List (FilterTree α))
  | [] => some []
  | child :: rest =>
    match simplify child, join with
    | some t, _ => (simplifyChildren join rest).map (splice join t ++ ·)
    | none, .all => simplifyChildren join rest
    | none, .any => none

end

def leaf? : FilterTree α → Option α
  | .leaf a => some a
  | .node _ _ => none

def flat? : FilterTree α → Option (List α)
  | .leaf a => some [a]
  | .node _ children => children.mapM leaf?

/-- The groups of a tree: a conjunction of disjunctions of leaves. None when the shape is not
supported. -/
def groups? (t : FilterTree α) : Option (List (List α)) :=
  match t.simplify with
  | none => some []
  | some (.node .all children) => children.mapM flat?
  | some other => other.flat?.map ([·])

/-- What a tree below a repeating attribute imposes on the record above it, if anything. Each
constraint may be met by another element, so only a leaf or a disjunction of leaves keeps its
meaning. None when the shape is not supported. -/
def perElement? (t : FilterTree α) : Option (Option (FilterTree α)) :=
  match t.simplify with
  | none => some none
  | some (.leaf a) => some (some (.leaf a))
  | some (.node .any children) =>
    if children.all fun child => child.leaf?.isSome then some (some (.node .any children))
    else none
  | some (.node .all _) => none

end FilterTree

end EntityGraph
