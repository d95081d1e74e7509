import EntityGraph.Regex.Basic

/-!
Patterns over whole texts, without regard to case: `%` stands for any run of characters, `_` for
any one character, and every other character for itself. They are matched as regular expressions.
-/

namespace EntityGraph.Filter

variable [RegexLibrary]

def likePiece (c : Char) : String :=
  match c with
  | '%' => ".*"
  | '_' => "."
  | c => RegexLibrary.escape (String.singleton c)

/-- The regular expression of a pattern: in any case, over all lines, from end to end. -/
def likeSource (pattern : String) : String :=
  pattern.toList.foldl (fun source c => source ++ likePiece c) "(?is)^" ++ "$"

def likeRegex? (pattern : String) : Option (RegexLibrary.Compiled) :=
  RegexLibrary.compile? (likeSource pattern)

end EntityGraph.Filter
