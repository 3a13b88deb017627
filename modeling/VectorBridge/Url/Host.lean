import VectorBridge.Url.Address
import VectorBridge.Url.Domain
import VectorBridge.Url.Percent
/-!
# Hosts of URLs

A host is a domain, an IPv4 or IPv6 address, or, in schemes that are not
special, any text of allowed characters. A domain that ends in a number
has to be an IPv4 address.
-/

namespace VectorBridge

namespace Url

/-- Why a text is no URL. -/
inductive UrlError where
  | emptyHost
  | badDomain
  | badCharacter
  | badIpv4
  | badIpv6
  | badPort
  | noBase
  | rigidBase
  deriving DecidableEq, Repr, Inhabited

/-- The error's text. -/
def UrlError.text : UrlError → String
  | emptyHost => "empty host"
  | badDomain => "invalid international domain name"
  | badCharacter => "invalid domain character"
  | badIpv4 => "invalid IPv4 address"
  | badIpv6 => "invalid IPv6 address"
  | badPort => "invalid port number"
  | noBase => "relative URL without a base"
  | rigidBase => "relative URL with a cannot-be-a-base base"

/-- A host. -/
inductive Host where
  /-- A domain or other text, as written; it may be empty. -/
  | name (s : String)
  | ipv4 (address : Nat)
  /-- Eight pieces of sixteen bits. -/
  | ipv6 (pieces : List Nat)
  deriving DecidableEq, Repr, Inhabited

namespace Host

/-- The host in brackets, read after the opening one. -/
def bracketed? (cs : List Char) : Except UrlError Host :=
  match cs.getLast?, ipv6? cs.dropLast with
  | some ']', some pieces => .ok (ipv6 pieces)
  | _, _ => .error .badIpv6

/-- The host of a special scheme. -/
def special? (cs : List Char) : Except UrlError Host :=
  match cs with
  | '[' :: rest => bracketed? rest
  | cs =>
    match (decode? (String.ofList cs)).bind asciiDomain? with
    | none => .error .badDomain
    | some [] => .error .emptyHost
    | some domain =>
      if endsInNumber domain then
        match ipv4? domain with
        | some n => .ok (ipv4 n)
        | none => .error .badIpv4
      else .ok (name (String.ofList domain))

/-- The host of any other scheme. -/
def plain? (cs : List Char) : Except UrlError Host :=
  match cs with
  | '[' :: rest => bracketed? rest
  | cs =>
    if cs.any isForbidden then .error .badCharacter else .ok (name (encode isControl cs))

/-- Whether the host is an empty text. -/
def isEmpty : Host → Bool
  | name s => s.isEmpty
  | _ => false

/-- The host as written. -/
def text : Host → String
  | name s => s
  | ipv4 n => ipv4Text n
  | ipv6 pieces => "[" ++ ipv6Text pieces ++ "]"

end Host

end Url

end VectorBridge
