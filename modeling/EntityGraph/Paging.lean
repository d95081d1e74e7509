/-!
Pages and windows. A search at the root always has a page of bounded size; a list inside a record
is cut only when the request asks for a window.
-/

namespace EntityGraph

structure PageDefaults where
  defaultLimit : Nat
  maxLimit : Nat
  deriving DecidableEq, Repr

def PageDefaults.standard : PageDefaults := ⟨25, 100⟩

structure Page where
  start : Nat
  limit : Nat
  deriving DecidableEq, Repr

def Page.slice {α : Type} (p : Page) (xs : List α) : List α := (xs.drop p.start).take p.limit

structure Window where
  start : Nat
  limit : Option Nat
  deriving DecidableEq, Repr

namespace Window

def slice {α : Type} (w : Window) (xs : List α) : List α :=
  match w.limit with
  | some limit => (xs.drop w.start).take limit
  | none => xs.drop w.start

def text (w : Window) : String :=
  match w.limit with
  | some limit => s!"({w.start},{limit})"
  | none => s!"({w.start},)"

end Window

inductive PagingFault where
  | negativeStart
  | negativeLimit
  deriving DecidableEq, Repr

def PagingFault.message : PagingFault → String
  | .negativeStart => "'start' must not be negative"
  | .negativeLimit => "'limit' must not be negative"

def nonNegative (fault : PagingFault) : Option Int → Except PagingFault (Option Nat)
  | none => .ok none
  | some n => if n < 0 then .error fault else .ok (some n.toNat)

def Page.ofArguments (start limit : Option Int) (defaults : PageDefaults) :
    Except PagingFault Page := do
  let start ← nonNegative .negativeStart start
  let limit ← nonNegative .negativeLimit limit
  return ⟨start.getD 0, min (limit.getD defaults.defaultLimit) defaults.maxLimit⟩

def Window.ofArguments (start limit : Option Int) : Except PagingFault (Option Window) := do
  if start.isNone && limit.isNone then return none
  let start ← nonNegative .negativeStart start
  let limit ← nonNegative .negativeLimit limit
  return some ⟨start.getD 0, limit⟩

end EntityGraph
