/-!
Media types: a kind and a subkind with a slash between them, and named parameters behind
semicolons. A parameter's value is a word or a quoted text.
-/

namespace EntityGraph.MediaType

def isWordChar (c : Char) : Bool := c.isAlphanum || "!#$%&'*+-.^_`|~".contains c

def isQuotedChar (c : Char) : Bool := ' ' ≤ c && c != '\x7f'

inductive Place where
  | kindStart
  | kind
  | subkindStart
  | subkind
  | nameStart
  | name
  | valueStart
  | value
  | quoteStart
  | quoted
  | quoteEnd
  deriving DecidableEq, Repr

/-- The next place after a character, if it may stand there. Blanks stand before a name and behind
a quoted text; the first character of a quoted text does not end it. -/
def Place.next (p : Place) (c : Char) : Option Place :=
  match p, c with
  | .kind, '/' => some .subkindStart
  | .subkind, ';' | .value, ';' | .quoteEnd, ';' => some .nameStart
  | .nameStart, ' ' => some .nameStart
  | .name, '=' => some .valueStart
  | .valueStart, '"' => some .quoteStart
  | .quoted, '"' => some .quoteEnd
  | .quoteEnd, ' ' => some .quoteEnd
  | .kindStart, c | .kind, c => if isWordChar c then some .kind else none
  | .subkindStart, c | .subkind, c => if isWordChar c then some .subkind else none
  | .nameStart, c | .name, c => if isWordChar c then some .name else none
  | .valueStart, c | .value, c => if isWordChar c then some .value else none
  | .quoteStart, c | .quoted, c => if isQuotedChar c then some .quoted else none
  | .quoteEnd, _ => none

/-- A media type may end here. Its last part may be empty, but a name has a value and a quote has
an end. -/
def Place.mayEnd : Place → Bool
  | .subkindStart | .subkind | .nameStart | .valueStart | .value | .quoteEnd => true
  | .kindStart | .kind | .name | .quoteStart | .quoted => false

def accepts (text : String) : Bool :=
  (text.toList.foldlM Place.next .kindStart).any Place.mayEnd

def kindOf (text : String) : String :=
  (String.ofList (text.toList.takeWhile isWordChar)).toLower

end EntityGraph.MediaType
