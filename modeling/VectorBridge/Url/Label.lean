import VectorBridge.Text.Search
/-!
# Labels in ASCII

A label with letters beyond ASCII is written in ASCII: its ASCII letters
first, then where the others belong, as differences between their codes in
digits of varying weight. Reading takes the same steps back.
-/

namespace VectorBridge

namespace Url

/-! ## Digits of varying weight -/

/-- A difference scaled down, and the bias that belongs to it. -/
def scaledBias (delta bias : Nat) : Nat :=
  if 455 < delta then scaledBias (delta / 35) (bias + 36) else bias + 36 * delta / (delta + 38)
termination_by delta
decreasing_by exact Nat.div_lt_self (by omega) (by omega)

/-- The bias of the next difference. -/
def nextBias (delta count : Nat) (first : Bool) : Nat :=
  let delta := if first then delta / 700 else delta / 2
  scaledBias (delta + delta / count) 0

/-- The first digit value that ends a number, by its place. -/
def threshold (place bias : Nat) : Nat :=
  if place ≤ bias then 1 else if bias + 26 ≤ place then 26 else place - bias

theorem threshold_pos (place bias : Nat) : 1 ≤ threshold place bias := by
  unfold threshold
  split
  · omega
  · split <;> omega

/-! ## Writing -/

/-- A digit: letters, then figures. -/
def labelDigit (d : Nat) : Char := if d < 26 then Char.ofNat (97 + d) else Char.ofNat (22 + d)

/-- A number in digits of varying weight, lowest first. -/
def labelDigits (bias place n : Nat) : List Char :=
  if n < threshold place bias then [labelDigit n]
  else
    labelDigit (threshold place bias + (n - threshold place bias) % (36 - threshold place bias)) ::
      labelDigits bias (place + 36) ((n - threshold place bias) / (36 - threshold place bias))
termination_by n
decreasing_by
  have := threshold_pos place bias
  exact Nat.lt_of_le_of_lt (Nat.div_le_self _ _) (by omega)

/-- What is kept while a label is encoded. -/
structure LabelState where
  delta : Nat
  bias : Nat
  /-- How many letters have been placed. -/
  placed : Nat
  /-- Whether no difference was written yet. -/
  first : Bool
  digits : List Char

/-- Passes a letter while the letters of a code are placed. -/
def passLetter (code : Nat) (s : LabelState) (letter : Nat) : LabelState :=
  if letter < code then { s with delta := s.delta + 1 }
  else if letter = code then
    { delta := 0
      bias := nextBias s.delta (s.placed + 1) s.first
      placed := s.placed + 1
      first := false
      digits := s.digits ++ labelDigits s.bias 36 s.delta }
  else s

/-- Places the letters of each code, smallest code first. -/
def placeCodes (letters : List Nat) : List Nat → Nat → LabelState → LabelState
  | [], _, s => s
  | code :: rest, next, s =>
    let start := { s with delta := s.delta + (code - next) * (s.placed + 1) }
    let done := letters.foldl (passLetter code) start
    placeCodes letters rest (code + 1) { done with delta := done.delta + 1 }

/-- What an encoded label begins with. -/
def encodedMark : List Char := ['x', 'n', '-', '-']

/-- A label in ASCII. -/
def asciiLabel (label : List Char) : List Char :=
  let basic := label.filter Text.isAscii
  let letters := label.map Char.toNat
  let codes := ((letters.filter (0x80 ≤ ·)).mergeSort).eraseDups
  if codes.isEmpty then label
  else
    let done := placeCodes letters codes 0x80 ⟨0, 72, basic.length, true, []⟩
    encodedMark ++ (if basic.isEmpty then [] else basic ++ ['-']) ++ done.digits

/-! ## Reading -/

/-- The value of a digit. -/
def labelDigit? (c : Char) : Option Nat :=
  if 'a' ≤ c ∧ c ≤ 'z' then some (c.toNat - 97)
  else if Text.isDigit c then some (c.toNat - 22)
  else none

/-- A number of at most 32 bits. -/
def word? (n : Nat) : Option Nat := if n < 0x100000000 then some n else none

/-- Adds the number some digits begin with, from the given place and weight
on, and gives what follows it. -/
def addDigits? (bias place weight n : Nat) : List Char → Option (Nat × List Char)
  | [] => none
  | c :: rest => do
    let digit ← labelDigit? c
    let n ← word? (n + (← word? (digit * weight)))
    if digit < threshold place bias then some (n, rest)
    else
      let weight ← word? (weight * (36 - threshold place bias))
      addDigits? bias (place + 36) weight n rest

/-- A number has a digit at least. -/
theorem length_lt_of_addDigits? {bias place weight n m : Nat} {cs rest : List Char}
    (h : addDigits? bias place weight n cs = some (m, rest)) : rest.length < cs.length := by
  induction cs generalizing place weight n with
  | nil => simp [addDigits?] at h
  | cons c cs ih =>
    simp only [addDigits?, Option.bind_eq_bind, Option.bind_eq_some_iff] at h
    obtain ⟨digit, _, product, _, k, _, h⟩ := h
    split at h
    · simp only [Option.some.injEq, Prod.mk.injEq] at h
      simp [h.2]
    · obtain ⟨w, _, h⟩ := Option.bind_eq_some_iff.1 h
      have := ih h
      simp only [List.length_cons]
      omega

/-- Places letters among those read: each difference counts the places from
the last one on, through all the codes from the last one on. -/
def placeLetters? (code place bias : Nat) (letters digits : List Char) : Option (List Char) :=
  if digits.isEmpty then some letters
  else
    match _h : addDigits? bias 36 1 place digits with
    | none => none
    | some (next, rest) =>
      let count := letters.length + 1
      let code := code + next / count
      if code.isValidChar then
        placeLetters? code (next % count + 1) (nextBias (next - place) count (place == 0))
          (letters.insertIdx (next % count) (Char.ofNat code)) rest
      else none
termination_by digits.length
decreasing_by exact length_lt_of_addDigits? _h

/-- The letters an encoded label stands for; its mark is left out. -/
def labelLetters? (encoded : List Char) : Option (List Char) :=
  match Text.cutLast '-' encoded with
  | some (basic, digits) =>
    if basic.isEmpty then none else placeLetters? 0x80 0 72 basic digits
  | none => placeLetters? 0x80 0 72 [] encoded

end Url

end VectorBridge
