import EntityGraph.Json.Basic

/-!
Reading data from text. Objects and lists nest to a bounded depth, and the whole text must be
one piece of data. The readers that repeat are given a size, which no text they read exceeds in
length.
-/

namespace EntityGraph.Json

def skipBlanks : List Char → List Char
  | [] => []
  | c :: rest =>
    if c = ' ' ∨ c = '\n' ∨ c = '\r' ∨ c = '\t' then skipBlanks rest else c :: rest

def hexValue? (c : Char) : Option Nat :=
  if c.isDigit then some (c.toNat - '0'.toNat)
  else if 'a' ≤ c ∧ c ≤ 'f' then some (c.toNat - 'a'.toNat + 10)
  else if 'A' ≤ c ∧ c ≤ 'F' then some (c.toNat - 'A'.toNat + 10)
  else none

def readHex : List Char → Option (Nat × List Char)
  | a :: b :: c :: d :: rest => do
    let a ← hexValue? a
    let b ← hexValue? b
    let c ← hexValue? c
    let d ← hexValue? d
    return (((a * 16 + b) * 16 + c) * 16 + d, rest)
  | _ => none

def readUnicode (cs : List Char) : Option (Char × List Char) := do
  let (first, rest) ← readHex cs
  if first < 0xd800 ∨ 0xdfff < first then return (Char.ofNat first, rest)
  -- What is left is the first half of a pair, and its other half has to follow.
  if 0xdbff < first then none
  match rest with
  | '\\' :: 'u' :: rest => do
    let (second, rest) ← readHex rest
    if second < 0xdc00 ∨ 0xdfff < second then none
    return (Char.ofNat (0x10000 + (first - 0xd800) * 0x400 + (second - 0xdc00)), rest)
  | _ => none

def readEscape : List Char → Option (Char × List Char)
  | '"' :: rest => some ('"', rest)
  | '\\' :: rest => some ('\\', rest)
  | '/' :: rest => some ('/', rest)
  | 'b' :: rest => some ('\x08', rest)
  | 'f' :: rest => some ('\x0c', rest)
  | 'n' :: rest => some ('\n', rest)
  | 'r' :: rest => some ('\r', rest)
  | 't' :: rest => some ('\t', rest)
  | 'u' :: rest => readUnicode rest
  | _ => none

/-- The characters up to the closing quote, of which there are no more than the size, and what
follows it. -/
def readChars : Nat → List Char → Option (List Char × List Char)
  | 0, _ => none
  | _ + 1, [] => none
  | size + 1, c :: rest =>
    if c = '"' then some ([], rest)
    else if c = '\\' then do
      let (d, rest) ← readEscape rest
      let (ds, rest) ← readChars size rest
      return (d :: ds, rest)
    else if c.toNat < 0x20 then none
    else do
      let (ds, rest) ← readChars size rest
      return (c :: ds, rest)

def readString (size : Nat) (cs : List Char) : Option (String × List Char) := do
  let (chars, rest) ← readChars size cs
  return (String.ofList chars, rest)

def readItems (readValue : List Char → Option (Json × List Char)) :
    Nat → List Char → Option (List Json × List Char)
  | 0, _ => none
  | size + 1, cs => do
    let (item, rest) ← readValue cs
    match skipBlanks rest with
    | ',' :: rest => do
      let (items, rest) ← readItems readValue size rest
      return (item :: items, rest)
    | ']' :: rest => return ([item], rest)
    | _ => none

def readKey (size : Nat) (cs : List Char) : Option (String × List Char) := do
  let .cons '"' rest := skipBlanks cs | none
  let (key, rest) ← readString size rest
  let .cons ':' rest := skipBlanks rest | none
  return (key, rest)

def readMembers (readMember : List Char → Option ((String × Json) × List Char)) :
    Nat → List Char → Option (Members × List Char)
  | 0, _ => none
  | size + 1, cs => do
    let (member, rest) ← readMember cs
    match skipBlanks rest with
    | ',' :: rest => do
      let (members, rest) ← readMembers readMember size rest
      return (member :: members, rest)
    | '\x7d' :: rest => return ([member], rest)
    | _ => none

/-- Members behind an opening brace, up to the closing one. A key may stand there twice. -/
def readObject (readValue : List Char → Option (Json × List Char)) (size : Nat) (cs : List Char) :
    Option (Members × List Char) :=
  match skipBlanks cs with
  | '\x7d' :: rest => some ([], rest)
  | rest =>
    readMembers
      (fun cs => do
        let (key, rest) ← readKey size cs
        let (value, rest) ← readValue rest
        return ((key, value), rest))
      size rest

def readValue (size : Nat) : Nat → List Char → Option (Json × List Char)
  | depth, cs =>
    match skipBlanks cs with
    | 'n' :: 'u' :: 'l' :: 'l' :: rest => some (.null, rest)
    | 't' :: 'r' :: 'u' :: 'e' :: rest => some (.bool true, rest)
    | 'f' :: 'a' :: 'l' :: 's' :: 'e' :: rest => some (.bool false, rest)
    | '"' :: rest => (readString size rest).map fun (s, rest) => (.string s, rest)
    | '[' :: rest =>
      -- Only lists and objects go a level down.
      match depth with
      | 0 => none
      | depth + 1 =>
        match skipBlanks rest with
        | ']' :: rest => some (.array [], rest)
        | rest => (readItems (readValue size depth) size rest).map fun (items, rest) =>
          (.array items, rest)
    | '\x7b' :: rest =>
      match depth with
      | 0 => none
      | depth + 1 => (readObject (readValue size depth) size rest).map
        fun (members, rest) => (ofMembers members, rest)
    | cs => do
      let (numeral, rest) ← Number.scan cs
      let n ← numeral.number?
      return (.number n, rest)

def maxDepth : Nat := 127

def readWithin (depth : Nat) (text : String) : Option Json := do
  let (value, rest) ← readValue (text.length + 1) depth text.toList
  if (skipBlanks rest).isEmpty then return value else none

def read (text : String) : Option Json := readWithin maxDepth text

/-- The members of a whole text that is one object, in the order of the text; a key that stands
there twice has two. -/
def readWholeObject (text : String) : Option Members := do
  let size := text.length + 1
  let .cons '\x7b' rest := skipBlanks text.toList | none
  let (members, rest) ← readObject (readValue size (maxDepth - 1)) size rest
  if (skipBlanks rest).isEmpty then return members else none

end EntityGraph.Json
