import EntityGraph.Regex.Basic
import EntityGraph.Text.Folding

/-!
A library of regular expressions for expressions without choice and groups. An expression is read
in one pass, and a text is searched for all its ends at once.
-/

namespace EntityGraph.Regex

def Single.accepts : Single → Char → Bool
  | .literal true c, d => Text.fold d == Text.fold c
  | .literal false c, d => d == c
  | .any true, _ => true
  | .any false, d => d != '\n'

/-- The parts that have been read, the last of them first, and whether a backslash came after
them. -/
structure Progress where
  escaped : Bool
  parts : List Part

def readChar (flags : Flags) (p : Progress) (c : Char) : Option Progress :=
  if p.escaped then
    if isMeta c then some ⟨false, .one (.literal flags.ignoreCase c) :: p.parts⟩ else none
  else match c with
    | '\\' => some ⟨true, p.parts⟩
    | '.' => some ⟨false, .one (.any flags.dotAll) :: p.parts⟩
    | '^' => some ⟨false, .start :: p.parts⟩
    | '$' => some ⟨false, .finish :: p.parts⟩
    | '*' => match p.parts with
      -- Only a single character is repeated here, and only once.
      | .one s :: parts => some ⟨false, .many s :: parts⟩
      | _ => none
    | c => if isMeta c then none else some ⟨false, .one (.literal flags.ignoreCase c) :: p.parts⟩

def readFlags : List Char → Flags × List Char
  | '(' :: '?' :: 'i' :: 's' :: ')' :: rest => (⟨true, true⟩, rest)
  | '(' :: '?' :: 'i' :: ')' :: rest => (⟨true, false⟩, rest)
  | '(' :: '?' :: 's' :: ')' :: rest => (⟨false, true⟩, rest)
  | rest => (⟨false, false⟩, rest)

def read? (source : String) : Option (List Part) := do
  let (flags, rest) := readFlags source.toList
  let p ← rest.foldlM (readChar flags) ⟨false, []⟩
  if p.escaped then none else some p.parts.reverse

def escape (text : String) : String :=
  String.ofList (text.toList.flatMap fun c => if isMeta c then ['\\', c] else [c])

/-- For each end of a text, the longest first, whether a run of characters that `accepts` admits
followed by a pattern matches it, from the same about the pattern alone. -/
def afterRun (accepts : Char → Bool) : List Char → List Bool → List Bool
  | c :: text, b :: marks =>
    let later := afterRun accepts text marks
    (b || accepts c && later.headD false) :: later
  | _, marks => marks

def afterChar (accepts : Char → Bool) : List Char → List Bool → List Bool
  | c :: text, _ :: marks => (accepts c && marks.headD false) :: afterChar accepts text marks
  | _, _ => [false]

def keepFirst : List Bool → List Bool
  | [] => []
  | b :: marks => b :: marks.map fun _ => false

def keepLast : List Bool → List Bool
  | [] => []
  | [b] => [b]
  | _ :: marks => false :: keepLast marks

/-- For each end of a text, the longest first, whether an expression matches from there on. -/
def matchEnds (text : List Char) : List Part → List Bool
  | [] => text.map (fun _ => true) ++ [true]
  | .one s :: parts => afterChar s.accepts text (matchEnds text parts)
  | .many s :: parts => afterRun s.accepts text (matchEnds text parts)
  | .start :: parts => keepFirst (matchEnds text parts)
  | .finish :: parts => keepLast (matchEnds text parts)

instance engine : RegexLibrary where
  Compiled := List Part
  escape := escape
  compile? := read?
  isMatch parts text := (matchEnds text.toList parts).any id

end EntityGraph.Regex
