import VectorBridge.Json.Decode
import VectorBridge.Json.Reader
import VectorBridge.Transport
import VectorBridge.Url.Basic
/-!
# HTTP clients

A client sends requests below a base URL and reads JSON answers. What is at
the other end is a peer: it answers with the replies it still has, and
notes what it was asked. Reading a reply is apart from the exchange, in
`Reply.accept`: a status that is no success keeps the beginning of the
body, and an empty body reads as null.
-/

namespace VectorBridge

namespace Http

/-- What a request wants. -/
inductive Method where
  | get
  | post
  | delete
  deriving DecidableEq, Repr, Inhabited

/-- The method as written. -/
def Method.name : Method → String
  | get => "GET"
  | post => "POST"
  | delete => "DELETE"

/-- A request as sent. -/
structure Request where
  method : Method
  /-- Path and query. -/
  target : String
  body : Option Json
  authorization : Option String
  deriving Inhabited

def Request.toJson (r : Request) : Json :=
  .ofFields <|
    [("method", .str r.method.name), ("path", .str r.target), ("body", r.body.getD .null)] ++
    (r.authorization.toList.map fun a => ("auth", .str a))

/-- A reply as received. -/
structure Reply where
  status : Nat
  body : String
  deriving DecidableEq, Repr, Inhabited

/-! ## Replies -/

/-- No more bytes of an error's body are kept. -/
def bodyLimit : Nat := 512

/-- The first bytes of a text; none when the cut would part a character. -/
def takeBytes : Nat → List Char → Option (List Char)
  | _, [] => some []
  | 0, _ :: _ => some []
  | n + 1, c :: rest =>
    if c.utf8Size ≤ n + 1 then (takeBytes (n + 1 - c.utf8Size) rest).map (c :: ·) else none

namespace Reply

/-- Whether the status is a success. -/
def isSuccess (r : Reply) : Bool := 200 ≤ r.status && r.status < 300

/-- The failure a reply without success is. A client cannot part a character
and stops where the limit would. -/
def failure (r : Reply) : TransportError :=
  match takeBytes bodyLimit r.body.toList with
  | some cs => .status r.status (String.ofList cs)
  | none => .stopped

/-- The value in a body. -/
def value? (body : String) : Option Json := if body.isEmpty then some .null else Json.read? body

/-- What a reply means to a reader of values. -/
def accept {α : Type} (decode : Json → Option α) (r : Reply) : Except TransportError α :=
  if r.isSuccess then
    match (value? r.body).bind decode with
    | some a => .ok a
    | none => .error .undecodable
  else .error r.failure

end Reply

/-! ## Peers -/

/-- What is at the other end. -/
structure Peer where
  /-- Whether anybody listens there. -/
  listening : Bool
  /-- The replies still to come. -/
  replies : List Reply
  /-- The requests that came, latest first. -/
  received : List Request
  deriving Inhabited

namespace Peer

/-- Nobody. -/
def absent : Peer := ⟨false, [], []⟩

/-- A server with replies at hand. -/
def scripted (replies : List Reply) : Peer := ⟨true, replies, []⟩

/-- The reply to a request beyond the last one at hand. -/
def exhausted : Reply := ⟨500, "no scripted response"⟩

/-- Answers a request. -/
def answer (request : Request) : Call Peer Reply := fun p =>
  if p.listening then
    (.ok (p.replies.head?.getD exhausted),
      { p with replies := p.replies.tail, received := request :: p.received })
  else (.error .unreachable, p)

end Peer

/-! ## Clients -/

/-- A client of the peer at a base URL. -/
structure Client where
  /-- Its path ends in a slash. -/
  base : Url
  authorization : Option String
  peer : Peer
  deriving Inhabited

namespace Client

/-- Whether a byte may stand in a header. -/
def isHeaderByte (b : UInt8) : Bool := (32 ≤ b && b ≠ 127) || b == 9

/-- The header of a token. -/
def bearer? (token : String) : Except TransportError String :=
  let header := "Bearer " ++ token
  if (Uuid.utf8 header).all isHeaderByte then .ok header else .error (.malformed "invalid token")

/-- The client of a base URL. Nothing is sent yet. -/
def ofUrl? (base : String) (token : Option String) (peer : Peer) :
    Except TransportError Client := do
  let url ← (Url.parse? base).mapError fun e => .url e.text
  let authorization ← token.mapM bearer?
  pure { base := url.directory, authorization, peer }

/-- The URL of a path. -/
def locate (c : Client) (path : String) : Except TransportError Url :=
  let relative := String.ofList (path.toList.dropWhile (· == '/'))
  (c.base.resolve? relative).mapError fun e => .url e.text

/-- Whether requests to a scheme can be sent. -/
def isWeb (scheme : String) : Bool := scheme = "http" || scheme = "https"

/-- The request for a path. -/
def request? (c : Client) (method : Method) (path : String) (body : Option Json) :
    Except TransportError Request := do
  let url ← c.locate path
  if isWeb url.scheme then
    pure { method, target := url.target, body, authorization := c.authorization }
  else throw .broken

/-- Sends a request and reads the reply. -/
def send {α : Type} (method : Method) (path : String) (body : Option Json)
    (decode : Json → Option α) : Call Client α := fun c =>
  match c.request? method path body with
  | .error e => (.error e, c)
  | .ok request =>
    match Peer.answer request c.peer with
    | (.error e, peer) => (.error e, { c with peer })
    | (.ok reply, peer) => (reply.accept decode, { c with peer })

def get {α : Type} (path : String) (decode : Json → Option α) : Call Client α :=
  send .get path none decode

def post {α : Type} (path : String) (body : Json) (decode : Json → Option α) : Call Client α :=
  send .post path (some body) decode

def delete {α : Type} (path : String) (decode : Json → Option α) : Call Client α :=
  send .delete path none decode

def deleteWith {α : Type} (path : String) (body : Json) (decode : Json → Option α) :
    Call Client α :=
  send .delete path (some body) decode

/-- Accepts any answer. -/
def anything (_ : Json) : Option Unit := some ()

end Client

end Http

end VectorBridge
