import VectorBridge.Text.Search
/-!
# Runs of characters

A set of characters is kept as runs, by the first and last code of each. A
table of runs is written in hexadecimal: blanks part the runs, and a hyphen
parts first and last code of a run that is longer than one.
-/

namespace VectorBridge

namespace Text

/-- The code written by hexadecimal digits in upper case. -/
def code (digits : List Char) : Nat :=
  digits.foldl (fun n c => n * 16 + if isDigit c then c.toNat - 48 else c.toNat - 55) 0

/-- The words in the rows of a table. -/
def words (rows : List String) : List (List Char) :=
  rows.flatMap fun row => splitAt ' ' row.toList

/-- A set of characters. -/
structure Runs where
  /-- First and last code of each run. -/
  runs : List (Nat × Nat)
  deriving Repr

namespace Runs

/-- The run a word stands for. -/
def ofWord (word : List Char) : Nat × Nat :=
  match cut '-' word with
  | (first, some last) => (code first, code last)
  | (single, none) => (code single, code single)

/-- The runs of a table. -/
def ofRows (rows : List String) : Runs := ⟨(words rows).map ofWord⟩

/-- Whether a character is in the set. -/
def contains (r : Runs) (c : Char) : Bool :=
  r.runs.any fun (first, last) => first ≤ c.toNat && c.toNat ≤ last

end Runs

example : (Runs.ofRows ["41 300-36F"]).runs = [(0x41, 0x41), (0x300, 0x36F)] := by decide

end Text

end VectorBridge
