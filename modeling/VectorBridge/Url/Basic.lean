import VectorBridge.Url.Host
/-!
# URLs

A URL is read into its parts and written from them, so that reading what
was written gives the same parts. Web schemes and files are *special*:
they need a host, or give it a default, and a backslash separates segments
as a slash does. Any other scheme may have a path of plain text, which
nothing can be resolved against.
-/

namespace VectorBridge

open Url (Host)

namespace Url

/-- Where a URL leads. -/
inductive Path where
  /-- Plain text behind the scheme. -/
  | plain (text : String)
  /-- Segments, each behind a slash. -/
  | segments (names : List String)
  deriving DecidableEq, Repr, Inhabited

/-- The path as written. -/
def Path.text : Path → String
  | plain text => text
  | segments names => String.join (names.map ("/" ++ ·))

end Url

/-- A URL. Its parts are encoded as they are written. -/
structure Url where
  scheme : String
  username : String
  /-- Never empty. -/
  password : Option String
  /-- None without an authority. -/
  host : Option Host
  /-- None for the scheme's own one. -/
  port : Option Nat
  path : Url.Path
  query : Option String
  fragment : Option String
  deriving DecidableEq, Repr, Inhabited

namespace Url

/-! ## Schemes -/

/-- The port of a web scheme. -/
def defaultPort? (scheme : String) : Option Nat :=
  if scheme = "http" ∨ scheme = "ws" then some 80
  else if scheme = "https" ∨ scheme = "wss" then some 443
  else if scheme = "ftp" then some 21
  else none

/-- Whether a scheme is a file's. -/
def isFile (scheme : String) : Bool := scheme = "file"

/-- Whether a scheme is special. -/
def isSpecial (scheme : String) : Bool := isFile scheme || (defaultPort? scheme).isSome

/-- The characters of a scheme behind its first letter. -/
def isSchemeChar (c : Char) : Bool :=
  Text.isLetter c || Text.isDigit c || c == '+' || c == '-' || c == '.'

/-- The scheme a text begins with, and what follows the colon. -/
def splitScheme? (cs : List Char) : Option (String × List Char) :=
  match cs with
  | [] => none
  | c :: _ =>
    if !Text.isLetter c then none
    else match cs.dropWhile isSchemeChar with
      | ':' :: rest => some (Text.lower (String.ofList (cs.takeWhile isSchemeChar)), rest)
      | _ => none

/-! ## Cutting a text -/

/-- A text without blanks and control characters at its ends, and without
tabs and line breaks anywhere. -/
def cleaned (s : String) : List Char :=
  (Text.stripChars (fun c => c.toNat ≤ 0x20) s.toList).filter fun c =>
    c ≠ '\t' ∧ c ≠ '\n' ∧ c ≠ '\r'

/-- A text before its query and fragment, the query and the fragment. -/
structure Tail where
  before : List Char
  query : Option String
  fragment : Option String

/-- Cuts off fragment and query. -/
def cutTail (special : Bool) (cs : List Char) : Tail :=
  let (front, fragment) := Text.cut '#' cs
  let (before, query) := Text.cut '?' front
  ⟨before, query.map (encode (inQuery special)), fragment.map (encode inFragment)⟩

/-! ## Segments -/

/-- Whether a character separates segments. -/
def isSlash (special : Bool) (c : Char) : Bool := c == '/' || (special && c == '\\')

/-- The texts between slashes. -/
def splitSlashes (special : Bool) : List Char → List (List Char)
  | [] => [[]]
  | c :: rest =>
    if isSlash special c then [] :: splitSlashes special rest
    else match splitSlashes special rest with
      | [] => [[c]]
      | part :: parts => (c :: part) :: parts

/-- A segment's dots, encoded ones written out; none for any other
character. -/
def dots? (segment : List Char) : Option Nat :=
  match segment with
  | [] => some 0
  | '.' :: rest => (dots? rest).map (· + 1)
  | '%' :: '2' :: c :: rest => if c = 'e' ∨ c = 'E' then (dots? rest).map (· + 1) else none
  | _ => none

/-- Whether a text names a drive: a letter, and a colon or a bar. -/
def isDrive : List Char → Bool
  | [letter, mark] => Text.isLetter letter && (mark == ':' || mark == '|')
  | _ => false

/-- Whether two dots do not lead out of a segment: it is a drive, or a
backslash follows one in it. -/
def isTop (name : String) : Bool :=
  match name.toList with
  | letter :: mark :: rest => isDrive [letter, mark] && (rest.isEmpty || rest.head? = some '\\')
  | _ => false

/-- The names one level up; there is none above a drive. -/
def upward (names : List String) : List String :=
  if names.getLast?.any isTop then names else names.dropLast

/-- Follows segments from some names on: one dot stays, two dots go up. A
path that ends in dots ends in an empty name. -/
def follow (names : List String) : List (List Char) → List String
  | [] => names
  | segment :: rest =>
    match dots? segment with
    | some 1 => follow (if rest.isEmpty then names ++ [""] else names) rest
    | some 2 => follow (if rest.isEmpty then upward names ++ [""] else upward names) rest
    | _ => follow (names ++ [encode inPath segment]) rest

/-- The segments behind an authority. A special scheme has one at least. -/
def segmentsOf (special : Bool) (cs : List Char) : List String :=
  match cs with
  | [] => if special then [""] else []
  | c :: rest => follow [] (splitSlashes special (if isSlash special c then rest else c :: rest))

/-! ## Authorities -/

/-- Who asks, where and at which port. -/
structure Authority where
  username : String
  password : Option String
  host : Host
  port : Option Nat

/-- A user name and a password, each encoded; an empty password is none. -/
def userinfo (cs : List Char) : String × Option String :=
  let (name, password) := Text.cut ':' cs
  (encode inUserinfo name,
    (password.filter fun p => !p.isEmpty).map (encode inUserinfo))

/-- The host's text and what follows it: a colon in brackets belongs to the
host. -/
def cutHost (inside : Bool) : List Char → List Char × List Char
  | [] => ([], [])
  | c :: rest =>
    if c = ':' ∧ inside = false then ([], c :: rest)
    else
      let now := if c = '[' then true else if c = ']' then false else inside
      let (host, behind) := cutHost now rest
      (c :: host, behind)

/-- The port a text begins with, and what follows it. -/
def port? (cs : List Char) : Except UrlError (Option Nat × List Char) :=
  let figures := cs.takeWhile Text.isDigit
  let port := if figures.isEmpty then none else some (Text.natOfDigits figures)
  match cs.dropWhile Text.isDigit with
  | [] => if port.any (65535 < ·) then .error .badPort else .ok (port, [])
  | c :: rest =>
    if port.any (65535 < ·) || c ≠ '\\' then .error .badPort else .ok (port, c :: rest)

/-- A host, and a port other than the scheme's own, with what follows
them. -/
def hostAndPort? (scheme : String) (cs : List Char) :
    Except UrlError (Host × Option Nat × List Char) := do
  let (text, behind) := cutHost false cs
  if text.isEmpty && (isSpecial scheme || !behind.isEmpty) then throw .emptyHost
  let host ← if isSpecial scheme then Host.special? text else Host.plain? text
  match behind with
  | ':' :: rest => do
    let (port, rest) ← port? rest
    pure (host, if port = defaultPort? scheme then none else port, rest)
  | rest => pure (host, none, rest)

/-- The authority, and the path behind it. The user information ends at the
last at-sign; a lone one has to be followed by a host, or by nothing. -/
def authority? (scheme : String) (t : Tail) : Except UrlError (Authority × List Char) := do
  let text := t.before.takeWhile fun c => !isSlash (isSpecial scheme) c
  let path := t.before.dropWhile fun c => !isSlash (isSpecial scheme) c
  match Text.cutLast '@' text with
  | none => do
    let (host, port, rest) ← hostAndPort? scheme text
    pure (⟨"", none, host, port⟩, rest ++ path)
  | some (info, located) => do
    let atEnd := path.isEmpty && t.query.isNone && t.fragment.isNone
    if info.isEmpty && located.isEmpty && !atEnd then throw .emptyHost
    let (username, password) := userinfo info
    let (host, port, rest) ← hostAndPort? scheme located
    if host.isEmpty && !(username.isEmpty && password.isNone) then throw .emptyHost
    pure (⟨username, password, host, port⟩, rest ++ path)

/-! ## Reading -/

/-- The URL behind two slashes. -/
def ofAuthority? (scheme : String) (t : Tail) : Except UrlError Url := do
  let (a, path) ← authority? scheme t
  pure
    { scheme
      username := a.username
      password := a.password
      host := some a.host
      port := a.port
      path := .segments (segmentsOf (isSpecial scheme) path)
      query := t.query
      fragment := t.fragment }

/-- The host of a file and its path. A drive in the host's place is no host
but the first segment, and the local host is not written. -/
def fileHost? (cs : List Char) : Except UrlError (Host × List Char) :=
  match cs with
  | a :: b :: rest =>
    if isSlash true a && isSlash true b then do
      let text := rest.takeWhile fun c => !isSlash true c
      if text.isEmpty || isDrive text then pure (.name "", rest)
      else
        let host ← Host.special? text
        pure (if host = .name "localhost" then .name "" else host,
          rest.dropWhile fun c => !isSlash true c)
    else pure (.name "", cs)
  | _ => pure (.name "", cs)

/-- The names of a drive alone, written with a colon; none for any other
path. -/
def driveAlone? : List String → Option (List String)
  | [name] => if isDrive name.toList then some [String.ofList (name.toList.take 1) ++ ":"] else none
  | _ => none

/-- The URL of a file. A drive alone has no host, and no slash doubles the
first one. -/
def ofFile? (t : Tail) : Except UrlError Url := do
  let (host, path) ← fileHost? t.before
  let names := segmentsOf true path
  let drive := driveAlone? names
  let names := (drive.getD names).dropWhile String.isEmpty
  pure
    { scheme := "file"
      username := ""
      password := none
      host := some (if drive.isSome then .name "" else host)
      port := none
      path := .segments (if names.isEmpty then [""] else names)
      query := t.query
      fragment := t.fragment }

/-- The URL without an authority. -/
def ofPath (scheme : String) (t : Tail) : Url :=
  { scheme
    username := ""
    password := none
    host := none
    port := none
    path := match t.before with
      | '/' :: rest => .segments (follow [] (splitSlashes false rest))
      | cs => .plain (encode isControl cs)
    query := t.query
    fragment := t.fragment }

/-- The URL of a text. -/
def parse? (s : String) : Except UrlError Url :=
  match splitScheme? (cleaned s) with
  | none => .error .noBase
  | some (scheme, rest) =>
    let t := cutTail (isSpecial scheme) rest
    if isFile scheme then ofFile? t
    else if isSpecial scheme then
      ofAuthority? scheme { t with before := t.before.dropWhile (isSlash true) }
    else match t.before with
      | '/' :: '/' :: before => ofAuthority? scheme { t with before }
      | _ => .ok (ofPath scheme t)

/-! ## Writing -/

/-- The user information as written, with its at-sign. -/
def userinfoText (u : Url) : String :=
  match u.password with
  | some password => u.username ++ ":" ++ password ++ "@"
  | none => if u.username.isEmpty then "" else u.username ++ "@"

/-- What stands between scheme and path. Without a host a path that begins
with two slashes is kept apart from an authority. -/
def authorityText (u : Url) : String :=
  match u.host with
  | some host => "//" ++ u.userinfoText ++ host.text ++ ((u.port.map fun n => s!":{n}").getD "")
  | none =>
    match u.path with
    | .segments ("" :: _ :: _) => "/."
    | _ => ""

/-- What a request asks for: path and query. -/
def target (u : Url) : String := u.path.text ++ ((u.query.map ("?" ++ ·)).getD "")

/-- The URL as written. -/
def text (u : Url) : String :=
  u.scheme ++ ":" ++ u.authorityText ++ u.target ++ ((u.fragment.map ("#" ++ ·)).getD "")

/-! ## Changing parts -/

/-- Whether the URL can carry a user. -/
def carriesUser (u : Url) : Bool := !isFile u.scheme && u.host.any fun h => !h.isEmpty

/-- The URL with another user name. -/
def withUsername? (u : Url) (name : String) : Option Url :=
  if u.carriesUser then some { u with username := encode inUserinfo name.toList } else none

/-- The URL with another password; an empty one is none. -/
def withPassword? (u : Url) (password : String) : Option Url :=
  if !u.carriesUser then none
  else if password.isEmpty then some { u with password := none }
  else some { u with password := some (encode inUserinfo password.toList) }

/-- The URL of the directory: its path ends in a slash. -/
def directory (u : Url) : Url :=
  match u.path with
  | .plain text => if Text.endsWith text "/" then u else { u with path := .plain (text ++ "/") }
  | .segments names =>
    if names.getLast? = some "" then u else { u with path := .segments (names ++ [""]) }

/-- The URL a relative path leads to. The path names neither scheme nor
host, so only its segments, query and fragment count. -/
def resolve? (base : Url) (relative : String) : Except UrlError Url :=
  match base.path with
  | .plain _ => .error .rigidBase
  | .segments names =>
    let special := isSpecial base.scheme
    let t := cutTail special (cleaned relative)
    .ok
      { base with
        path := .segments (follow names.dropLast (splitSlashes special t.before))
        query := t.query
        fragment := t.fragment }

end Url

end VectorBridge
