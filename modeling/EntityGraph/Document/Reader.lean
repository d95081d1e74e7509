import EntityGraph.Document.Basic
import EntityGraph.Json.Reader

/-!
Reading documents from text. A reader takes what it can from the front of a text and leaves the
rest. Blanks, line ends, commas, byte-order marks and comments between tokens do not count. A
keyword ends with its last letter whatever follows, but a number does not run into a name. The
readers that repeat or nest are given a size, which no text they read exceeds in length.
-/

namespace EntityGraph.Document

abbrev Reader (α : Type) := List Char → Option (α × List Char)

def isLineEnd (c : Char) : Bool := c = '\n' || c = '\r'

def isIgnored (c : Char) : Bool :=
  c = ' ' || c = '\t' || c = ',' || c.toNat = 0xfeff || isLineEnd c

/-- What follows the ignored characters; within a comment everything up to the end of the line is
ignored. -/
def skipIgnored (comment : Bool) : List Char → List Char
  | [] => []
  | c :: rest =>
    if comment then skipIgnored (!isLineEnd c) rest
    else if c = '#' then skipIgnored true rest
    else if isIgnored c then skipIgnored false rest
    else c :: rest

def afterWord : List Char → List Char → Option (List Char)
  | [], rest => some rest
  | w :: word, c :: rest => if w = c then afterWord word rest else none
  | _ :: _, [] => none

def token (word : String) : Reader Unit := fun cs =>
  (afterWord word.toList (skipIgnored false cs)).map fun rest => ((), rest)

def isNameStart (c : Char) : Bool := c.isAlpha || c = '_'

def isNamePart (c : Char) : Bool := isNameStart c || c.isDigit

def readName : Reader String := fun cs =>
  match skipIgnored false cs with
  | [] => none
  | c :: rest =>
    if isNameStart c then
      some (String.ofList (c :: rest.takeWhile isNamePart), rest.dropWhile isNamePart)
    else none

/-- As many readings as there are; each takes a character at least, so the size bounds their
number. -/
def many {α : Type} (reader : Reader α) : Nat → Reader (List α)
  | 0, cs => some ([], cs)
  | size + 1, cs =>
    match reader cs with
    | none => some ([], cs)
    | some (a, rest) => (many reader size rest).map fun (more, rest) => (a :: more, rest)

def some1 {α : Type} (reader : Reader α) (size : Nat) : Reader (List α) := fun cs => do
  let (found, rest) ← many reader size cs
  if found.isEmpty then none else return (found, rest)

def optional {α : Type} (reader : Reader α) : Reader (Option α) := fun cs =>
  match reader cs with
  | some (a, rest) => some (some a, rest)
  | none => some (none, cs)

def firstOf {α : Type} (readers : List (Reader α)) : Reader α := fun cs =>
  readers.findSome? fun reader => reader cs

def readEscapedNumber (cs : List Char) : Option (Char × List Char) := do
  let (n, rest) ← Json.readHex cs
  if 0xd800 ≤ n ∧ n ≤ 0xdfff then none else return (Char.ofNat n, rest)

def readEscape : List Char → Option (Char × List Char)
  | 'u' :: rest => readEscapedNumber rest
  | cs => Json.readEscape cs

/-- The characters of a text up to its closing quote, of which there are no more than the size. -/
def readChars : Nat → List Char → Option (List Char × List Char)
  | 0, _ => none
  | _ + 1, [] => none
  | size + 1, c :: rest =>
    if c = '"' then some ([], rest)
    else if isLineEnd c then none
    else do
      let (d, rest) ← if c = '\\' then readEscape rest else some (c, rest)
      let (ds, rest) ← readChars size rest
      return (d :: ds, rest)

/-- The characters of a block up to its closing quotes. An escape of three quotes does not close
it, and stays as it is written. -/
def readBlock : List Char → Option (List Char × List Char)
  | [] => none
  | '"' :: '"' :: '"' :: rest => some ([], rest)
  | '\\' :: '"' :: '"' :: '"' :: rest =>
    (readBlock rest).map fun (cs, rest) => ('\\' :: '"' :: '"' :: '"' :: cs, rest)
  | c :: rest => (readBlock rest).map fun (cs, rest) => (c :: cs, rest)

def blockLines : List Char → List (List Char)
  | [] => [[]]
  -- These two end one line together.
  | '\r' :: '\n' :: rest => [] :: blockLines rest
  | c :: rest =>
    if isLineEnd c then [] :: blockLines rest
    else
      match blockLines rest with
      | [] => [[c]]
      | line :: lines => (c :: line) :: lines

def isIndent (c : Char) : Bool := c = ' ' || c = '\t'

def indent? (line : List Char) : Option Nat :=
  if line.all isIndent then none else some (line.takeWhile isIndent).length

/-- The text of a block: without the indent that all lines but the first share, and without blank
lines at its ends. -/
def blockText (raw : List Char) : String :=
  match blockLines raw with
  | [] => ""
  | first :: lines =>
    let common := ((lines.filterMap indent?).min?).getD 0
    let cut := fun line : List Char => if common ≤ line.length then line.drop common else line
    let blank := fun line : List Char => line.all isIndent
    let kept := ((first :: lines.map cut).dropWhile blank).reverse.dropWhile blank |>.reverse
    String.ofList (['\n'].intercalate kept)

def readString (size : Nat) : Reader String := fun cs =>
  match skipIgnored false cs with
  | '"' :: '"' :: '"' :: rest =>
    match readBlock rest with
    | some (raw, rest) => some (blockText raw, rest)
    -- Without its end the block is an empty text and a quote after it.
    | none => some ("", '"' :: rest)
  | '"' :: rest => (readChars size rest).map fun (chars, rest) =>
    (String.ofList chars, rest)
  | _ => none

def readNumber : Reader Number := fun cs => do
  let (numeral, rest) ← Number.scan (skipIgnored false cs)
  if (rest.head?.map isNameStart).getD false then none else return (← numeral.number?, rest)

def readEnum : Reader String := fun cs =>
  match firstOf [token "true", token "false", token "null"] cs with
  | some _ => none
  | none => readName cs

def readVariable : Reader String := fun cs => do
  let (_, rest) ← token "$" cs
  readName rest

def readNamed {α : Type} (reader : Reader α) : Reader (String × α) := fun cs => do
  let (name, rest) ← readName cs
  let (_, rest) ← token ":" rest
  let (a, rest) ← reader rest
  return ((name, a), rest)

def between {α : Type} (opening closing : String) (reader : Reader α) : Reader α := fun cs => do
  let (_, rest) ← token opening cs
  let (a, rest) ← reader rest
  let (_, rest) ← token closing rest
  return (a, rest)

/-- A literal nested to a depth, with variables or without. A field that an object repeats keeps
its first place and its last value. -/
def readLiteral (withVariables : Bool) (size : Nat) : Nat → Reader Literal
  | 0 => fun _ => none
  | depth + 1 => firstOf
    [fun cs => if withVariables then (readVariable cs).map fun (name, rest) =>
        (.reference name, rest)
      else none,
     fun cs => (readNumber cs).map fun (n, rest) => (.number n, rest),
     fun cs => (readString size cs).map fun (s, rest) => (.string s, rest),
     fun cs => (token "true" cs).map fun (_, rest) => (.boolean true, rest),
     fun cs => (token "false" cs).map fun (_, rest) => (.boolean false, rest),
     fun cs => (token "null" cs).map fun (_, rest) => (.null, rest),
     fun cs => (readEnum cs).map fun (name, rest) => (.enum name, rest),
     fun cs => (between "[" "]" (many (readLiteral withVariables size depth) size) cs).map
       fun (items, rest) => (.list items, rest),
     fun cs => (between "\x7b" "\x7d"
         (many (readNamed (readLiteral withVariables size depth)) size) cs).map
       fun (fields, rest) => (.object (Keyed.ofList Prod.fst fields), rest)]

def readValue (withVariables : Bool) (size : Nat) : Reader Literal :=
  readLiteral withVariables size size

def readArguments (size : Nat) : Reader (List (String × Literal)) :=
  between "(" ")" (some1 (readNamed (readValue true size)) size)

def readDirective (size : Nat) : Reader Directive := fun cs => do
  let (_, rest) ← token "@" cs
  let (name, rest) ← readName rest
  let (arguments, rest) ← optional (readArguments size) rest
  return (⟨name, arguments.getD []⟩, rest)

/-- The type that a fragment is on. Between the keyword and the name there is something that does
not count, and no comment. -/
def readTypeCondition : Reader Unit := fun cs => do
  let (_, rest) ← token "on" cs
  let .cons first _ := rest | none
  let .cons start _ := rest.dropWhile isIgnored | none
  if isIgnored first && isNameStart start then return ((), (← readName rest).2) else none

def readField (size : Nat) (inner : Reader (List Selection)) : Reader Selection := fun cs => do
  let (first, rest) ← readName cs
  -- A name before a colon is the label.
  let (label, name, rest) ← match token ":" rest with
    | some (_, rest) => (readName rest).map fun (name, rest) => (some first, name, rest)
    | none => some (none, first, rest)
  let (arguments, rest) ← optional (readArguments size) rest
  let (directives, rest) ← many (readDirective size) size rest
  let (selections, rest) ← optional inner rest
  return (.field name label (arguments.getD []) directives (selections.getD []), rest)

def readInline (size : Nat) (inner : Reader (List Selection)) : Reader Selection := fun cs => do
  let (_, rest) ← token "..." cs
  let (_, rest) ← optional readTypeCondition rest
  let (directives, rest) ← many (readDirective size) size rest
  let (selections, rest) ← inner rest
  return (.inline directives selections, rest)

/-- A fragment by name. What reads as a type condition is no name. -/
def readSpread (size : Nat) : Reader Selection := fun cs => do
  let (_, rest) ← token "..." cs
  if (readTypeCondition rest).isSome then none
  let (name, rest) ← readName rest
  let (directives, rest) ← many (readDirective size) size rest
  return (.spread name directives, rest)

def readSelections (size : Nat) : Nat → Reader (List Selection)
  | 0 => fun _ => none
  | depth + 1 => between "\x7b" "\x7d" (some1 (firstOf
      [readField size (readSelections size depth), readInline size (readSelections size depth),
       readSpread size]) size)

/-- The depth of the selections of an operation or of a fragment: its own and 64 below. -/
def maxDepth : Nat := 65

def readType : Nat → List Char → Option (Unit × List Char)
  | 0, _ => none
  | depth + 1, cs => do
    let (_, rest) ← match cs with
      | '[' :: rest => do
        let (_, rest) ← readType depth rest
        let .cons ']' rest := rest | none
        return ((), rest)
      | c :: rest => if isNameStart c then some ((), rest.dropWhile isNamePart) else none
      | [] => none
    match rest with
    | '!' :: rest => return ((), rest)
    | _ => return ((), rest)

mutual

def constant? : Literal → Option Value
  | .reference _ => none
  | .null => some .null
  | .boolean b => some (.boolean b)
  | .number n => some (.number n)
  | .string s => some (.string s)
  | .enum name => some (.enum name)
  | .list items => (constants? items).map .list
  | .object fields => (constantFields? fields).map .object

def constants? : List Literal → Option (List Value)
  | [] => some []
  | item :: rest => do return (← constant? item) :: (← constants? rest)

def constantFields? : List (String × Literal) → Option Arguments
  | [] => some []
  | (key, value) :: rest => do return (key, ← constant? value) :: (← constantFields? rest)

end

def readConstant (size : Nat) : Reader Value := fun cs => do
  let (literal, rest) ← readValue false size cs
  return (← constant? literal, rest)

def readDefault (size : Nat) : Reader Value := fun cs => do
  let (_, rest) ← token "=" cs
  readConstant size rest

def readVariableDefinition (size : Nat) : Reader (Option (String × Value)) := fun cs => do
  let (name, rest) ← readVariable cs
  let (_, rest) ← token ":" rest
  let rest := skipIgnored false rest
  let (_, rest) ← readType size rest
  let (_, rest) ← many (readDirective size) size rest
  let (value, rest) ← optional (readDefault size) rest
  return (value.map fun value => (name, value), rest)

def readOperationType : Reader OperationType := firstOf
  [fun cs => (token "query" cs).map fun (_, rest) => (.query, rest),
   fun cs => (token "mutation" cs).map fun (_, rest) => (.mutation, rest),
   fun cs => (token "subscription" cs).map fun (_, rest) => (.subscription, rest)]

def readOperation (size : Nat) : Reader Operation := fun cs =>
  match readOperationType cs with
  | some (type, rest) => do
    let (name, rest) ← optional readName rest
    let (defaults, rest) ← optional
      (between "(" ")" (many (readVariableDefinition size) size)) rest
    let (_, rest) ← many (readDirective size) size rest
    let (selections, rest) ← readSelections size maxDepth rest
    return (⟨type, name, (defaults.getD []).filterMap id, selections⟩, rest)
  -- A document may begin with the selections of a query.
  | none => do
    let (selections, rest) ← readSelections size maxDepth cs
    return (⟨.query, none, [], selections⟩, rest)

def readFragment (size : Nat) : Reader Fragment := fun cs => do
  let (_, rest) ← token "fragment" cs
  let (name, rest) ← readName rest
  let (_, rest) ← readTypeCondition rest
  let (_, rest) ← many (readDirective size) size rest
  let (selections, rest) ← readSelections size maxDepth rest
  return (⟨name, selections⟩, rest)

def readDefinition (size : Nat) : Reader (Operation ⊕ Fragment) := firstOf
  [fun cs => (readOperation size cs).map fun (op, rest) => (.inl op, rest),
   fun cs => (readFragment size cs).map fun (f, rest) => (.inr f, rest)]

def read? (text : String) : Option Document := do
  let size := text.length + 1
  let (definitions, rest) ← many (readDefinition size) size text.toList
  -- Nothing may be left after the last definition.
  if !(skipIgnored false rest).isEmpty then none
  let document : Document :=
    { operations := definitions.filterMap fun
        | .inl op => some op
        | .inr _ => none
      fragments := definitions.filterMap fun
        | .inl _ => none
        | .inr f => some f }
  if document.wellFormed then return document else none

def read (text : String) : Except Error Document :=
  match read? text with
  | some document => .ok document
  | none => .error .malformedDocument

def readConstantText? (text : String) : Option Value := do
  let (value, rest) ← readConstant (text.length + 1) text.toList
  if (skipIgnored false rest).isEmpty then return value else none

def readConstantText (text : String) : Except Error Value :=
  match readConstantText? text with
  | some value => .ok value
  | none => .error .malformedDocument

end EntityGraph.Document
