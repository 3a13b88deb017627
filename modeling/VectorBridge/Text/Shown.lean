import VectorBridge.Text.Category
/-!
# Text shown to readers

A quoted text in which nothing hides: quotes and backslashes are escaped,
and so is every character that has no shape of its own.
-/

namespace VectorBridge

namespace Text

/-- Controls, format and private characters, and blanks. -/
def formless : Runs := .ofRows
  ["80-A0 AD 600-605 61C 6DD 70F 890-891 8E2 1680 180E 2000-200F 2028-202F 205F-2064 2066-206F",
   "3000 E000-F8FF FEFF FFF9-FFFB 110BD 110CD 13430-1343F 1BCA0-1BCA3 1D173-1D17A E0001",
   "E0020-E007F F0000-FFFFD 100000-10FFFD"]

/-- Characters that take up room and yet extend the one before them. -/
def extending : Runs := .ofRows
  ["9BE 9D7 B3E B57 BBE BD7 CC0 CC2 CC7-CC8 CCA-CCB CD5-CD6 D3E D57 DCF DDF 1715 1734 1B35 1B3B",
   "1B3D 1B43-1B44 1BAA 1BF2-1BF3 302E-302F A953 A9C0 FF9E-FF9F 111C0 11235 1133E 1134D 11357",
   "113B8 113C2 113C5 113C7-113C9 113CF 114B0 114BD 115AF 116B6 11930 1193D 11F41 16FF0-16FF1",
   "1D165-1D166 1D16D-1D172"]

/-- Letters that keep a place free. -/
def fillers : Runs := .ofRows ["115F-1160 3164 FFA0"]

/-- Whether a character has no shape of its own. -/
def isShapeless (c : Char) : Bool :=
  if isAscii c then c.toNat < 0x20 || c.toNat == 0x7F
  else formless.contains c || extending.contains c || fillers.contains c ||
    nonspacing.contains c || unassigned.contains c

/-- A character as it is shown between quotes. -/
def shownChar (c : Char) : List Char :=
  if c = '"' then ['\\', '"']
  else if c = '\\' then ['\\', '\\']
  else if c = '\n' then ['\\', 'n']
  else if c = '\r' then ['\\', 'r']
  else if c = '\t' then ['\\', 't']
  else if c.toNat = 0 then ['\\', '0']
  else if isShapeless c then
    ['\\', 'u', '\x7b'] ++ Nat.toDigits 16 c.toNat ++ ['\x7d']
  else [c]

/-- A text as it is shown to readers, in quotes. -/
def showQuoted (s : String) : String :=
  "\"" ++ String.ofList (s.toList.flatMap shownChar) ++ "\""

end Text

end VectorBridge
