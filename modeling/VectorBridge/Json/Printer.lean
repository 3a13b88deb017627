import VectorBridge.Json.Basic
import VectorBridge.Number.Shortest
/-!
# Compact JSON text

No blank between tokens, object fields in the order of the value, and in
strings the shortest escape of each character that needs one.
-/

namespace VectorBridge

namespace Json

/-- A hexadecimal digit, lower case. -/
def hexDigit (n : Nat) : Char := Nat.digitChar (n % 16)

/-- The written form of a character inside a quoted string. -/
def escapeChar (c : Char) : List Char :=
  if c = '"' then ['\\', '"']
  else if c = '\\' then ['\\', '\\']
  else if c = '\n' then ['\\', 'n']
  else if c = '\r' then ['\\', 'r']
  else if c = '\t' then ['\\', 't']
  else if c.toNat = 8 then ['\\', 'b']
  else if c.toNat = 12 then ['\\', 'f']
  else if c.toNat < 32 then ['\\', 'u', '0', '0', hexDigit (c.toNat / 16), hexDigit c.toNat]
  else [c]

/-- A string in quotes. -/
def quote (s : String) : String :=
  "\"" ++ String.ofList (s.toList.flatMap escapeChar) ++ "\""

end Json

/-- The text of a number: an integer in decimal, a binary64 by its shortest
decimal. -/
def Number.text : Number → String
  | .int n => toString n
  | .flt x => Binary64.text x

namespace Json

mutual

/-- The compact text of a value. -/
def text : Json → String
  | null => "null"
  | bool true => "true"
  | bool false => "false"
  | num n => n.text
  | str s => quote s
  | arr elems => "[" ++ textList elems ++ "]"
  | obj fields => "\x7b" ++ textFields fields ++ "\x7d"

/-- Elements separated by commas. -/
def textList : List Json → String
  | [] => ""
  | [j] => text j
  | j :: rest => text j ++ "," ++ textList rest

/-- Fields separated by commas. -/
def textFields : List (String × Json) → String
  | [] => ""
  | [(k, j)] => quote k ++ ":" ++ text j
  | (k, j) :: rest => quote k ++ ":" ++ text j ++ "," ++ textFields rest

end

end Json

end VectorBridge
