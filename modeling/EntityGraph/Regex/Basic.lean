/-!
Regular expressions as a library gives them, and the part of their syntax that has neither choice
nor groups: characters, runs of characters, and the two ends of the text.
-/

namespace EntityGraph

class RegexLibrary where
  /-- What an expression compiles to. -/
  Compiled : Type
  /-- An expression for a text as it stands. -/
  escape : String → String
  /-- No expression is compiled that is malformed or too large. -/
  compile? : String → Option Compiled
  /-- The text has a match somewhere. -/
  isMatch : Compiled → String → Bool

namespace Regex

structure Flags where
  ignoreCase : Bool
  dotAll : Bool

def Flags.group : Flags → List Char
  | ⟨false, false⟩ => []
  | ⟨true, false⟩ => ['(', '?', 'i', ')']
  | ⟨false, true⟩ => ['(', '?', 's', ')']
  | ⟨true, true⟩ => ['(', '?', 'i', 's', ')']

def isMeta (c : Char) : Bool :=
  ['\\', '.', '+', '*', '?', '(', ')', '|', '[', ']',
    '{', '}', '^', '$', '#', '&', '-', '~'].contains c

inductive Single
  | literal (ignoreCase : Bool) (c : Char)
  | any (newlines : Bool)

inductive Part
  | one (s : Single)
  | many (s : Single)
  | start
  | finish

end Regex

end EntityGraph
