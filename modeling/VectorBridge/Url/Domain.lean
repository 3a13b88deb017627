import VectorBridge.Text.Direction
import VectorBridge.Text.Joining
import VectorBridge.Url.Folding
import VectorBridge.Url.Label
/-!
# Domains

A domain is folded and written in ASCII, label by label. A label has to
read well wherever it stands: it does not begin with a mark, joiners stand
only where they show, and in a domain with letters written from right to
left no label mixes directions.
-/

namespace VectorBridge

namespace Url

/-- Characters no host may contain. -/
def isForbidden (c : Char) : Bool :=
  [' ', '#', '/', ':', '<', '>', '?', '@', '[', '\\', ']', '^', '|', '\t', '\n', '\r'].contains c
    || c.toNat == 0

/-- Characters no domain may contain. -/
def isForbiddenInDomain (c : Char) : Bool :=
  isForbidden c || c == '%' || c.toNat < 0x20 || c.toNat == 0x7F

/-! ## Joiners -/

/-- Whether a character joins letters, or keeps them apart, without a shape
of its own. -/
def isJoiner (c : Char) : Bool := c.toNat == 0x200C || c.toNat == 0x200D

/-- Whether what follows, marks aside, satisfies `p`. -/
def reaches (p : Char → Bool) (cs : List Char) : Bool :=
  (cs.dropWhile fun c => Text.isTransparent c && !p c).head?.any p

/-- Whether a joiner shows: behind a virama, or where it keeps letters apart
that were joined. What stands before it is given from its end. -/
def joinerShows (joiner : Char) (before after : List Char) : Bool :=
  before.head?.any Text.isVirama ||
    (joiner.toNat == 0x200C && reaches Text.joinsNext before && reaches Text.joinsPrevious after)

/-- Whether all joiners of a label show. -/
def joinersShow (before : List Char) : List Char → Bool
  | [] => true
  | c :: rest => (!isJoiner c || joinerShows c before rest) && joinersShow (c :: before) rest

/-! ## Directions -/

/-- Whether a label keeps to one direction. Marks at its end follow the
character before them. -/
def keepsDirection (label : List Char) : Bool :=
  match label.map Text.direction with
  | [] => true
  | first :: rest =>
    match rest.reverse.dropWhile (· == .nonspacing) with
    | [] => first == .leftToRight || first == .rightToLeft
    | last :: middle =>
      match first with
      | .leftToRight =>
        (last == .leftToRight || last == .europeanNumber) &&
          middle.all fun d => d != .rightToLeft && d != .arabicNumber
      | .rightToLeft =>
        (last == .rightToLeft || last == .europeanNumber || last == .arabicNumber) &&
          middle.all (· != .leftToRight) &&
          !((last :: middle).contains .europeanNumber && (last :: middle).contains .arabicNumber)
      | _ => false

/-- Whether a label has letters or numbers written from right to left. -/
def turnsLeft (label : List Char) : Bool :=
  label.any fun c => Text.direction c == .rightToLeft || Text.direction c == .arabicNumber

/-! ## Labels -/

/-- A label: as written in ASCII, and the letters it stands for. -/
structure Label where
  ascii : List Char
  letters : List Char
  deriving DecidableEq, Repr

/-- Whether letters may make up a label, whatever the labels beside it. -/
def isLabel (letters : List Char) : Bool :=
  !letters.head?.any Text.isMark && joinersShow [] letters

/-- The label of a folded text. An encoded one has to be what its letters
are folded into; the length of both kinds is limited. -/
def label? (cs : List Char) : Option Label :=
  if encodedMark.isPrefixOf cs then do
    let encoded := cs.drop 4
    if !encoded.all Text.isAscii || encoded.isEmpty || encoded.getLast? = some '-' then none
    if 2000 < encoded.length then none
    let letters ← labelLetters? encoded
    if fold? letters = some letters && isLabel letters then some ⟨cs, letters⟩ else none
  else if !isLabel cs then none
  else if 1000 < cs.length && !cs.all Text.isAscii then none
  else some ⟨asciiLabel cs, cs⟩

/-- A domain in ASCII; one that is not well formed is none. -/
def asciiDomain? (s : String) : Option (List Char) := do
  let folded ← fold? s.toList
  if folded.any isForbiddenInDomain then none
  let labels ← (Text.splitAt '.' folded).mapM label?
  let letters := labels.map Label.letters
  if letters.any turnsLeft && !letters.all keepsDirection then none
  some ((labels.map Label.ascii).intersperse ['.']).flatten

end Url

end VectorBridge
