import EntityGraph.Text.Escaped

/-!
Quoted texts. Diagnostic quoting spells every character without a printed form by its number,
so a diagnostic shows exactly which characters a text holds.
-/

namespace EntityGraph.Text

def hexDigits (n : Nat) : List Char := Nat.toDigits 16 n

def diagnosticChar (c : Char) : List Char :=
  if c = '"' then ['\\', '"']
  else if c = '\\' then ['\\', '\\']
  else if c = '\n' then ['\\', 'n']
  else if c = '\r' then ['\\', 'r']
  else if c = '\t' then ['\\', 't']
  else if c = '\x00' then ['\\', '0']
  else if isEscaped c then ['\\', 'u', '\x7b'] ++ hexDigits c.toNat ++ ['\x7d']
  else [c]

def diagnostic (s : String) : String :=
  String.ofList (['"'] ++ s.toList.flatMap diagnosticChar ++ ['"'])

end EntityGraph.Text
