import VectorBridge.Http.Client
import VectorBridge.Proofs.Step
/-!
# What a request brings back

A request is answered with the next reply of the peer, and reading the reply decides
what the client has. A success is a value or cannot be decoded. Any other reply is kept
with the beginning of its body, which is cut at a number of bytes: where that place lies
inside a character there is no such beginning, and the client stops.
-/

namespace VectorBridge

namespace Http

/-! ## The first bytes of a text -/

/-- A number of bytes from the start of a text is a place inside one of its characters. -/
def InsideCharacter (n : Nat) (s : String) : Prop :=
  ∃ before c after, s.toList = before ++ c :: after ∧
    (String.ofList before).utf8ByteSize < n ∧
    n < (String.ofList before).utf8ByteSize + c.utf8Size

theorem utf8ByteSize_cons (c : Char) (cs : List Char) :
    (String.ofList (c :: cs)).utf8ByteSize = c.utf8Size + (String.ofList cs).utf8ByteSize := by
  rw [← List.singleton_append, String.ofList_append, String.utf8ByteSize_append,
    ← String.singleton_eq_ofList, String.utf8ByteSize_singleton]

/-- What is kept of a text begins it, and is as long as the limit allows. -/
theorem takeBytes_eq_some {n : Nat} {cs kept : List Char} (h : takeBytes n cs = some kept) :
    kept <+: cs ∧ (String.ofList kept).utf8ByteSize = min n (String.ofList cs).utf8ByteSize := by
  fun_induction takeBytes n cs generalizing kept with
  | case1 n =>
    cases h
    exact ⟨List.prefix_rfl, by simp⟩
  | case2 c rest =>
    cases h
    exact ⟨List.nil_prefix, by simp⟩
  | case3 n c rest hfits ih =>
    obtain ⟨later, hlater, rfl⟩ := Option.map_eq_some_iff.1 h
    obtain ⟨hbegins, hsize⟩ := ih hlater
    refine ⟨List.cons_prefix_cons.2 ⟨rfl, hbegins⟩, ?_⟩
    rw [utf8ByteSize_cons, utf8ByteSize_cons, hsize]
    omega
  | case4 => cases h

/-- **Nothing is kept exactly when** the limit lies inside a character. -/
theorem takeBytes_eq_none_iff {n : Nat} {s : String} :
    takeBytes n s.toList = none ↔ InsideCharacter n s := by
  rw [InsideCharacter]
  generalize s.toList = cs
  fun_induction takeBytes n cs with
  | case1 n => simp
  | case2 c rest => simp
  | case3 n c rest hfits ih =>
    rw [Option.map_eq_none_iff, ih]
    constructor
    · rintro ⟨before, d, after, rfl, hbefore, hafter⟩
      refine ⟨c :: before, d, after, rfl, ?_⟩
      rw [utf8ByteSize_cons]
      omega
    · rintro ⟨before, d, after, hcs, hbefore, hafter⟩
      cases before with
      | nil =>
        -- the first character ends within the limit
        obtain ⟨rfl, rfl⟩ := List.cons.inj hcs
        simp only [String.ofList_nil, String.utf8ByteSize_empty] at hafter
        omega
      | cons c' before =>
        obtain ⟨rfl, rfl⟩ := List.cons.inj hcs
        rw [utf8ByteSize_cons] at hbefore hafter
        exact ⟨before, d, after, rfl, by omega, by omega⟩
  | case4 n c rest hlong =>
    refine ⟨fun _ => ⟨[], c, rest, rfl, by simp, ?_⟩, fun _ => rfl⟩
    simp only [String.ofList_nil, String.utf8ByteSize_empty]
    omega

/-! ## Reading a reply -/

namespace Reply

/-- What a reader of values makes of a reply: the value in the body of a success, or that
there is none; and of any other reply its status with as much of the beginning of its body
as the limit allows. -/
inductive ReadAs {α : Type} (decode : Json → Option α) (r : Reply) :
    Except TransportError α → Prop
  | value {j : Json} {a : α} (success : r.isSuccess = true) (read : value? r.body = some j)
      (decoded : decode j = some a) : ReadAs decode r (.ok a)
  | undecodable (success : r.isSuccess = true) (read : (value? r.body).bind decode = none) :
      ReadAs decode r (.error .undecodable)
  | refused {kept rest : String} (failure : r.isSuccess = false) (body : r.body = kept ++ rest)
      (limit : kept.utf8ByteSize = min bodyLimit r.body.utf8ByteSize) :
      ReadAs decode r (.error (.status r.status kept))

/-- A reply is no success, and its body would be cut inside a character. -/
def IsParted (r : Reply) : Prop := r.isSuccess = false ∧ InsideCharacter bodyLimit r.body

variable {α : Type} {decode : Json → Option α} {r : Reply}

/-- A reply that is parted stops the client. -/
theorem accept_of_isParted (h : r.IsParted) : r.accept decode = .error .stopped := by
  rw [accept, if_neg (by rw [h.1]; exact Bool.false_ne_true), failure,
    takeBytes_eq_none_iff.2 h.2]

/-- Every other reply is read. -/
theorem readAs_of_not_isParted (h : ¬ r.IsParted) : ReadAs decode r (r.accept decode) := by
  rw [accept]
  by_cases hsuccess : r.isSuccess = true
  · rw [if_pos hsuccess]
    cases hvalue : (value? r.body).bind decode with
    | none => exact .undecodable hsuccess hvalue
    | some a =>
      obtain ⟨j, hj, ha⟩ := Option.bind_eq_some_iff.1 hvalue
      exact .value hsuccess hj ha
  · have hfailure : r.isSuccess = false := Bool.eq_false_iff.2 hsuccess
    rw [if_neg hsuccess, failure]
    cases htake : takeBytes bodyLimit r.body.toList with
    | none => exact absurd ⟨hfailure, takeBytes_eq_none_iff.1 htake⟩ h
    | some kept =>
      obtain ⟨⟨rest, hrest⟩, hsize⟩ := takeBytes_eq_some htake
      rw [String.ofList_toList] at hsize
      have hbody : r.body = String.ofList kept ++ String.ofList rest := by
        rw [← String.ofList_append, hrest, String.ofList_toList]
      exact .refused hfailure hbody hsize

end Reply

/-! ## Exchanges -/

/-- What a result is tested for holds of its value. -/
theorem exists_of_any_toOption {ε α : Type} {x : Except ε α} {p : α → Bool}
    (h : x.toOption.any p = true) : ∃ a, x = .ok a ∧ p a = true := by
  cases x with
  | error e => cases h
  | ok a => exact ⟨a, rfl, h⟩

namespace Peer

/-- The reply to the next request. -/
def next (p : Peer) : Reply := p.replies.head?.getD exhausted

/-- The peer after a request. -/
def after (p : Peer) (request : Request) : Peer :=
  { p with replies := p.replies.tail, received := request :: p.received }

theorem answer_apply {p : Peer} (h : p.listening = true) (request : Request) :
    answer request p = (.ok p.next, p.after request) := if_pos h

theorem answer_of_absent {p : Peer} (h : p.listening = false) (request : Request) :
    answer request p = (.error .unreachable, p) :=
  if_neg (by rw [h]; exact Bool.false_ne_true)

end Peer

namespace Client

variable {α : Type} {decode : Json → Option α} {c c' : Client} {method : Method}
variable {path : String} {body : Option Json} {request : Request}

/-- A request that can be made is answered with the peer's next reply. -/
theorem send_apply (hrequest : c.request? method path body = .ok request)
    (hlisten : c.peer.listening = true) :
    send method path body decode c =
      (c.peer.next.accept decode, { c with peer := c.peer.after request }) := by
  rw [send, hrequest]
  simp only [Peer.answer_apply hlisten]

/-- **An exchange succeeds exactly when** the request can be made and somebody answers it with
a success that holds the value. -/
theorem send_eq_ok_iff {a : α} :
    send method path body decode c = (.ok a, c') ↔
      ∃ request, c.request? method path body = .ok request ∧ c.peer.listening = true ∧
        c.peer.next.accept decode = .ok a ∧ c' = { c with peer := c.peer.after request } := by
  constructor
  · intro h
    cases hrequest : c.request? method path body with
    | error e =>
      rw [send, hrequest] at h
      cases h
    | ok request =>
      cases hlisten : c.peer.listening with
      | false =>
        rw [send, hrequest] at h
        simp only [Peer.answer_of_absent hlisten] at h
        cases h
      | true =>
        rw [send_apply hrequest hlisten] at h
        obtain ⟨haccept, hstate⟩ := Prod.mk.inj h
        exact ⟨request, rfl, rfl, haccept, hstate.symm⟩
  · rintro ⟨request, hrequest, hlisten, haccept, rfl⟩
    rw [send_apply hrequest hlisten, haccept]

/-- **Every reply is read, unless the limit parts a character of its body.** Whatever is asked
for, and whatever status and body the reply has: a success gives the value in its body or cannot
be decoded, and any other reply gives its status and the beginning of its body up to the limit.
The one exception are replies without success whose body has a character across the limit, on
which the client stops. -/
theorem replies_read_unless_parted (hrequest : c.request? method path body = .ok request)
    (hlisten : c.peer.listening = true) :
    (¬ c.peer.next.IsParted →
      c.peer.next.ReadAs decode (send method path body decode c).1) ∧
    (c.peer.next.IsParted → (send method path body decode c).1 = .error .stopped) := by
  rw [send_apply hrequest hlisten]
  exact ⟨Reply.readAs_of_not_isParted, Reply.accept_of_isParted⟩

/-- A client of a server that answers from a script. -/
def scripted (replies : List Reply) : Client where
  base := ⟨"http", "", none, some (.name "localhost"), some 8000, .segments [""], none, none⟩
  authorization := none
  peer := .scripted replies

/-- A body with a character of two bytes behind so many of one byte. -/
def accented (n : Nat) : String := String.ofList (List.replicate n 'a' ++ ['é'])

/-- Whatever the script is, the client can make a request. -/
theorem exists_request_scripted (replies : List Reply) :
    ∃ request, (scripted replies).request? .get "api/v1/heartbeat" none = .ok request := by
  obtain ⟨request, hrequest, -⟩ := exists_of_any_toOption
    (x := (scripted []).request? .get "api/v1/heartbeat" none) (p := fun _ => true)
    (by decide +kernel)
  exact ⟨request, hrequest⟩

/-- The limit lies right before a character of two bytes. -/
theorem replies_read_unless_parted_at_limit :
    (∃ request, (scripted [⟨503, accented 512⟩]).request? .get "api/v1/heartbeat" none =
      .ok request) ∧
    (scripted [⟨503, accented 512⟩]).peer.listening = true ∧
    ¬ Reply.IsParted ⟨503, accented 512⟩ ∧
    Reply.ReadAs some ⟨503, accented 512⟩
      (send .get "api/v1/heartbeat" none some (scripted [⟨503, accented 512⟩])).1 := by
  obtain ⟨request, hrequest⟩ := exists_request_scripted [⟨503, accented 512⟩]
  have hkept : ¬ Reply.IsParted ⟨503, accented 512⟩ := by
    rintro ⟨-, hinside⟩
    have htaken : takeBytes bodyLimit (accented 512).toList ≠ none := by
      rw [accented, String.toList_ofList]
      decide +kernel
    exact htaken (takeBytes_eq_none_iff.2 hinside)
  exact ⟨⟨request, hrequest⟩, rfl, hkept, (replies_read_unless_parted hrequest rfl).1 hkept⟩

/-- **A client can stop on what a server answers**: a failure whose body has a character of two
bytes across the limit. -/
theorem stops_at_parted_character :
    (∃ request, (scripted [⟨503, accented 511⟩]).request? .get "api/v1/heartbeat" none =
      .ok request) ∧
    (send .get "api/v1/heartbeat" none some (scripted [⟨503, accented 511⟩])).1 =
      .error .stopped := by
  obtain ⟨request, hrequest⟩ := exists_request_scripted [⟨503, accented 511⟩]
  have hparted : Reply.IsParted ⟨503, accented 511⟩ :=
    ⟨rfl, takeBytes_eq_none_iff.1 (by rw [accented, String.toList_ofList]; decide +kernel)⟩
  have hstop : Reply.accept some ⟨503, accented 511⟩ = .error .stopped :=
    Reply.accept_of_isParted hparted
  refine ⟨⟨request, hrequest⟩, ?_⟩
  rw [send_apply hrequest rfl]
  exact hstop

end Client

end Http

end VectorBridge
