import VectorBridge.Json.Basic
import VectorBridge.Number.Reading
/-!
# Reading JSON text

A reader over the characters of a text. Every step takes what is left of
the text and returns what it read with the remainder. Values nest at most
127 deep. The fields of an object are kept as written, repeated names
included: a reader of records refuses a repeated name, a reader of maps
lets the last one win.
-/

namespace VectorBridge

namespace Json

/-- Drops blanks. -/
def skipBlank : List Char → List Char
  | c :: cs => if c = ' ' ∨ c = '\n' ∨ c = '\t' ∨ c = '\r' then skipBlank cs else c :: cs
  | [] => []

/-- The value of a decimal digit. -/
def decimalDigit? (c : Char) : Option Nat :=
  if '0' ≤ c ∧ c ≤ '9' then some (c.toNat - 48) else none

/-- The value of a hexadecimal digit, of either case. -/
def hexDigit? (c : Char) : Option Nat :=
  if '0' ≤ c ∧ c ≤ '9' then some (c.toNat - 48)
  else if 'a' ≤ c ∧ c ≤ 'f' then some (c.toNat - 87)
  else if 'A' ≤ c ∧ c ≤ 'F' then some (c.toNat - 55)
  else none

/-- The leading decimal digits and the rest. -/
def digits : List Char → List Nat × List Char
  | [] => ([], [])
  | c :: cs =>
    match decimalDigit? c with
    | some d => let (ds, rest) := digits cs; (d :: ds, rest)
    | none => ([], c :: cs)

/-- Four hexadecimal digits. -/
def hexQuad : List Char → Option (Nat × List Char)
  | a :: b :: c :: d :: rest => do
    let a ← hexDigit? a
    let b ← hexDigit? b
    let c ← hexDigit? c
    let d ← hexDigit? d
    pure (((a * 16 + b) * 16 + c) * 16 + d, rest)
  | _ => none

/-- The character of a unicode escape, read after its letter. A high
surrogate must be followed by the escape of a low one. -/
def unicodeEscape (cs : List Char) : Option (Char × List Char) := do
  let (high, rest) ← hexQuad cs
  if 0xDC00 ≤ high ∧ high ≤ 0xDFFF then none
  else if 0xD800 ≤ high ∧ high ≤ 0xDBFF then
    match rest with
    | '\\' :: 'u' :: rest =>
      let (low, rest) ← hexQuad rest
      if 0xDC00 ≤ low ∧ low ≤ 0xDFFF then
        some (Char.ofNat (0x10000 + (high - 0xD800) * 0x400 + (low - 0xDC00)), rest)
      else none
    | _ => none
  else some (Char.ofNat high, rest)

/-- The characters of a string after its opening quote; `acc` holds those
read so far, last first. -/
def stringBody : Nat → List Char → List Char → Option (String × List Char)
  | 0, _, _ => none
  | _ + 1, _, [] => none
  | fuel + 1, acc, c :: cs =>
    if c = '"' then some (String.ofList acc.reverse, cs)
    else if c = '\\' then
      match cs with
      | 'u' :: rest =>
        match unicodeEscape rest with
        | some (u, rest) => stringBody fuel (u :: acc) rest
        | none => none
      | e :: rest =>
        if e = '"' ∨ e = '\\' ∨ e = '/' then stringBody fuel (e :: acc) rest
        else if e = 'b' then stringBody fuel ('\x08' :: acc) rest
        else if e = 'f' then stringBody fuel ('\x0c' :: acc) rest
        else if e = 'n' then stringBody fuel ('\n' :: acc) rest
        else if e = 'r' then stringBody fuel ('\r' :: acc) rest
        else if e = 't' then stringBody fuel ('\t' :: acc) rest
        else none
      | [] => none
    else if c.toNat < 32 then none
    else stringBody fuel (c :: acc) cs

/-- The digits after the exponent mark, with their sign. -/
def exponentPart (cs : List Char) : Option ((Bool × List Nat) × List Char) :=
  let (positive, cs) := match cs with
    | '+' :: rest => (true, rest)
    | '-' :: rest => (false, rest)
    | rest => (true, rest)
  match digits cs with
  | ([], _) => none
  | (ds, rest) => some ((positive, ds), rest)

/-- The parts of a number. -/
def numberParts (cs : List Char) : Option (NumberParts × List Char) := do
  let (negative, cs) := match cs with
    | '-' :: rest => (true, rest)
    | rest => (false, rest)
  let (whole, cs) := digits cs
  -- a leading zero stands alone
  if whole.isEmpty || (whole.head? == some 0 && 1 < whole.length) then none
  else
    let (fraction, cs) ← match cs with
      | '.' :: rest =>
        match digits rest with
        | ([], _) => none
        | (ds, rest) => some (some ds, rest)
      | rest => some (none, rest)
    match cs with
    | c :: rest =>
      if c = 'e' ∨ c = 'E' then
        let (exponent, rest) ← exponentPart rest
        pure ({ negative, whole, fraction, exponent := some exponent }, rest)
      else pure ({ negative, whole, fraction, exponent := none }, c :: rest)
    | [] => pure ({ negative, whole, fraction, exponent := none }, [])

/-- A keyword after its first letter. -/
def keyword (rest : List Char) (j : Json) (cs : List Char) : Option (Json × List Char) :=
  if rest.isPrefixOf cs then some (j, cs.drop rest.length) else none

mutual

/-- A value, with `depth` levels of nesting left. -/
def readValue : Nat → Nat → List Char → Option (Json × List Char)
  | 0, _, _ => none
  | fuel + 1, depth, cs =>
    match skipBlank cs with
    | [] => none
    | 'n' :: rest => keyword ['u', 'l', 'l'] null rest
    | 't' :: rest => keyword ['r', 'u', 'e'] (bool true) rest
    | 'f' :: rest => keyword ['a', 'l', 's', 'e'] (bool false) rest
    | '"' :: rest => (stringBody (rest.length + 1) [] rest).map fun (s, rest) => (str s, rest)
    | '[' :: rest =>
      match depth with
      | 0 => none
      | depth + 1 =>
        match skipBlank rest with
        | ']' :: rest => some (arr [], rest)
        | rest => readElements fuel depth [] rest
    | c :: rest =>
      if c = '\x7b' then
        match depth with
        | 0 => none
        | depth + 1 =>
          match skipBlank rest with
          | '\x7d' :: rest => some (obj [], rest)
          | rest => readMembers fuel depth [] rest
      else do
        let (parts, rest) ← numberParts (c :: rest)
        let n ← parts.value?
        some (num n, rest)

/-- Elements up to the closing bracket; `acc` holds those read so far, last
first. -/
def readElements : Nat → Nat → List Json → List Char → Option (Json × List Char)
  | 0, _, _, _ => none
  | fuel + 1, depth, acc, cs =>
    match readValue fuel depth cs with
    | none => none
    | some (j, rest) =>
      match skipBlank rest with
      | ',' :: rest => readElements fuel depth (j :: acc) rest
      | ']' :: rest => some (arr (j :: acc).reverse, rest)
      | _ => none

/-- Members up to the closing brace; `acc` holds those read so far, last
first. -/
def readMembers : Nat → Nat → List (String × Json) → List Char → Option (Json × List Char)
  | 0, _, _, _ => none
  | fuel + 1, depth, acc, cs =>
    match skipBlank cs with
    | '"' :: rest =>
      match stringBody (rest.length + 1) [] rest with
      | none => none
      | some (name, rest) =>
        match skipBlank rest with
        | ':' :: rest =>
          match readValue fuel depth rest with
          | none => none
          | some (j, rest) =>
            match skipBlank rest with
            | ',' :: rest => readMembers fuel depth ((name, j) :: acc) rest
            | c :: rest =>
              if c = '\x7d' then some (obj ((name, j) :: acc).reverse, rest) else none
            | [] => none
        | _ => none
    | _ => none

end

/-- The value written in a text, fields as written. -/
def read? (text : String) : Option Json :=
  let cs := text.toList
  match readValue (cs.length + 1) 127 cs with
  | some (j, rest) => if (skipBlank rest).isEmpty then some j else none
  | none => none

/-- The value written in a text, fields in key order. -/
def parse? (text : String) : Option Json := (read? text).map normalize

end Json

end VectorBridge
