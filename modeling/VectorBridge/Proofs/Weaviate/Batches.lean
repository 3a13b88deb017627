import VectorBridge.Proofs.Family.Again
import VectorBridge.Proofs.Http.Exchange
import VectorBridge.Weaviate.Rest
import VectorBridge.Weaviate.Store
/-!
# What the answer to a batch says

A Weaviate server answers a batch with one value for each object, and an object that was
not written has errors in its value. A failure is seen where the first of them has a text
as its message, and nowhere else: an object whose first error says nothing, or says it in
another shape, passes for written. Where every rejection gives such a reason, a batch that
is reported as written was.
-/

namespace VectorBridge

/-! ## What is left of a script -/

namespace Http

variable {α : Type} {replies : List Reply}

/-- The replies still to come are the last ones of a script. -/
def Follows (replies : List Reply) (c : Client) : Prop := c.peer.replies <:+ replies

/-- **An exchange uses up replies**, and leaves the later ones as they are. -/
theorem follows_send (method : Method) (path : String) (body : Option Json)
    (decode : Json → Option α) :
    Step.Keeps (Follows replies) (Client.send method path body decode) := by
  intro c hc
  cases hrequest : c.request? method path body with
  | error e =>
    rw [Client.send, hrequest]
    exact hc
  | ok request =>
    cases hlisten : c.peer.listening with
    | false =>
      rw [Client.send, hrequest]
      simp only [Peer.answer_of_absent hlisten]
      exact hc
    | true =>
      rw [Client.send_apply hrequest hlisten]
      exact (List.tail_suffix _).trans hc

end Http

/-! ## The write of an addition -/

namespace Session

variable {τ : Type} {J : τ → Prop}

/-- Resolving a width keeps what the questions keep. -/
theorem keeps_resolveWidth {declared probed : Call τ (Option Nat)} (hd : Step.Keeps J declared)
    (hp : Step.Keeps J probed) (collection : String) {s : Session τ} (hs : J s.server) :
    J (resolveWidth collection declared probed s).2.server := by
  have hdeclared : J (declared.toAction s.server).2 := by
    rw [toAction_snd]
    exact hd _ hs
  have hprobed : J (probed.toAction (declared.toAction s.server).2).2 := by
    rw [toAction_snd]
    exact hp _ hdeclared
  simp only [resolveWidth]
  cases s.dimensions with
  | fixed d => exact hs
  | cached ws =>
    simp only [DimensionResolver.resolve]
    cases Keyed.get? collection ws with
    | some w => exact hs
    | none =>
      simp only
      rw [Step.state_bind_apply]
      rcases (declared.toAction s.server).1 with e | _ | w
      · exact hdeclared
      · exact hprobed
      · exact hdeclared
  | custom history decide => exact hprobed

end Session

namespace Family

open Session

variable {τ Handle Condition Fragment : Type} {F : Family τ Handle Condition Fragment}
variable {J : τ → Prop} {name : String} {items : List Item} {s s' : Session τ}

/-- **An addition that succeeds ends with a write that does**: of the items, with vectors
where they had none, to the collection as it was opened. What the questions before it keep
holds of the server when it is written. -/
theorem exists_write (hattach : Step.Keeps J (F.attach name))
    (hdeclared : ∀ h, Step.Keeps J (F.declaredWidth h))
    (hprobed : ∀ h, Step.Keeps J (F.probedWidth h)) (hs : J s.server)
    (hitems : items.isEmpty = false) (hadd : F.addItems name items s = (.ok (), s')) :
    ∃ h batch t, F.write h batch t = (.ok (), s'.server) ∧ J t ∧
      batch.map Item.bare = items.map Item.bare ∧
      ∃ t₁, F.attach name s.server = (.ok h, t₁) := by
  rw [addItems, ensureConnected_bind_eq_ok_iff, hitems, if_neg Bool.false_ne_true,
    Action.ofResult_bind_eq_ok_iff] at hadd
  obtain ⟨-, -, -, hadd⟩ := hadd
  obtain ⟨-, -, hadd⟩ := Action.ofResult_bind_eq_ok_iff.1 hadd
  obtain ⟨h, s₁, hcall, hadd⟩ := Step.bind_eq_ok_iff.1 hadd
  obtain ⟨t₁, hopen, rfl⟩ := call_eq_ok_iff.1 hcall
  have ht₁ : J t₁ := by
    have := hattach s.server hs
    rwa [hopen] at this
  obtain ⟨batch, s₂, hembed, hadd⟩ := Step.bind_eq_ok_iff.1 hadd
  rw [embedding_apply] at hembed
  obtain ⟨hanswer, rfl⟩ := Prod.mk.inj hembed
  have hbare : batch.map Item.bare = items.map Item.bare :=
    Batch.map_embedMissing Item.bare (fun _ _ => rfl) (Prod.ext hanswer rfl)
  obtain ⟨-, -, hadd⟩ := Action.ofResult_bind_eq_ok_iff.1 hadd
  obtain ⟨d, s₃, hresolve, hadd⟩ := Step.bind_eq_ok_iff.1 hadd
  have hs₃ : J s₃.server := by
    have := keeps_resolveWidth (hdeclared h) (hprobed h) (F.nameOf h) (s := { s with
      server := t₁
      requests := (Batch.embedMissing s.context name (F.metadataOf h) items s.requests).2 }) ht₁
    rw [Family.resolve] at hresolve
    rwa [hresolve] at this
  obtain ⟨width, -, hadd⟩ := Action.ofResult_bind_eq_ok_iff.1 hadd
  obtain ⟨t, hwrite, rfl⟩ := last_steps_eq_ok_iff.1 hadd
  exact ⟨h, batch, s₃.server, hwrite, hs₃, hbare, t₁, hopen⟩

end Family

namespace Weaviate

open Http (Client)

/-! ## Answers -/

/-- The errors that the value answered to an object lists. -/
def errorsOf (answer : Json) : List Json :=
  ((((answer.field "result").field "errors").field "error").arr?).getD []

/-- The object was not written: the value answered to it lists errors. -/
def Rejected (answer : Json) : Prop := errorsOf answer ≠ []

/-- The value answered to an object gives a reason why it was not written: the message of
its first error is a text. -/
def GivesReason (answer : Json) (reason : String) : Prop :=
  ∃ first ∈ (errorsOf answer).head?, first.field "message" = .str reason

variable {answer : Json} {answers : List Json} {reason : String}

theorem GivesReason.rejected (h : GivesReason answer reason) : Rejected answer := by
  rintro hnone
  obtain ⟨first, hfirst, -⟩ := h
  rw [hnone] at hfirst
  cases hfirst

/-- What is taken for a failure is a reason. -/
theorem batchFailure?_eq_some_iff :
    batchFailure? answer = some reason ↔ GivesReason answer reason := by
  have hstr : ∀ j : Json, j.str? = some reason ↔ j = .str reason := by
    intro j
    cases j <;> simp [Json.str?]
  rw [batchFailure?, GivesReason, errorsOf]
  cases ((answer.field "result").field "errors").field "error" with
  | arr errors =>
    cases errors with
    | nil => simp [Json.arr?]
    | cons first rest => simp [Json.arr?, hstr]
  | null | bool | num | str | obj => simp [Json.arr?]

/-- **A batch passes for written exactly when** no answer gives a reason. -/
theorem batchOutcome_eq_ok_iff :
    batchOutcome answers = .ok () ↔
      ∀ answer ∈ answers, ¬ ∃ reason, GivesReason answer reason := by
  have hnone : answers.findSome? batchFailure? = none ↔
      ∀ answer ∈ answers, ¬ ∃ reason, GivesReason answer reason := by
    rw [List.findSome?_eq_none_iff]
    refine forall₂_congr fun answer _ => ?_
    simp only [← batchFailure?_eq_some_iff, Option.eq_none_iff_forall_ne_some, not_exists, ne_eq]
  rw [← hnone, batchOutcome]
  cases answers.findSome? batchFailure? <;> simp

/-! ## Batches -/

namespace Rest

variable {name : String} {objects : List Object} {r r' : Rest}

/-- What a client of its own does, the server does. -/
theorem onClient_apply {α : Type} (c : Call Client α) (r : Rest) :
    onClient c r = ((c r.client).1, ⟨(c r.client).2⟩) := rfl

/-- The answers to a batch, one value for each object. -/
def Answered (name : String) (objects : List Object) (r : Rest) (answers : List Json) : Prop :=
  r.client.peer.listening = true ∧
    (∃ request, r.client.request? .post "v1/batch/objects" (some (batchBody name objects)) =
      .ok request) ∧
    r.client.peer.next.accept batchAnswers? = .ok answers

/-- A batch that is answered ends as the answers say. -/
theorem put_of_answered (h : Answered name objects r answers) :
    (put name objects r).1 = batchOutcome answers := by
  obtain ⟨hlisten, ⟨request, hrequest⟩, haccept⟩ := h
  have hsend : Client.post "v1/batch/objects" (batchBody name objects) batchAnswers? r.client = _ :=
    Client.send_apply hrequest hlisten
  rw [haccept] at hsend
  rw [put, Step.bind_of_ok (by rw [onClient_apply, hsend])]
  rfl

/-- A batch that is answered passes for written exactly when no answer gives a reason. -/
theorem put_eq_ok_iff (h : Answered name objects r answers) :
    (put name objects r).1 = .ok () ↔
      ∀ answer ∈ answers, ¬ ∃ reason, GivesReason answer reason := by
  rw [put_of_answered h, batchOutcome_eq_ok_iff]

/-- A batch that passes for written was answered. -/
theorem exists_answered (h : put name objects r = (.ok (), r')) :
    ∃ answers, Answered name objects r answers := by
  obtain ⟨answers, r₁, hpost, -⟩ := Step.bind_eq_ok_iff.1 h
  rw [onClient_apply] at hpost
  obtain ⟨request, hrequest, hlisten, haccept, -⟩ :=
    Client.send_eq_ok_iff.1 (Prod.ext (Prod.mk.inj hpost).1 rfl)
  exact ⟨answers, hlisten, ⟨request, hrequest⟩, haccept⟩

/-! ### What is left of a script -/

/-- The replies still to come are the last ones of a script. -/
def Follows (replies : List Http.Reply) (r : Rest) : Prop := Http.Follows replies r.client

variable {α : Type} {replies : List Http.Reply}

theorem follows_onClient {c : Call Client α} (h : Step.Keeps (Http.Follows replies) c) :
    Step.Keeps (Follows replies) (onClient c) := fun r hr => h r.client hr

theorem follows_describe (name : String) : Step.Keeps (Follows replies) (describe name) := by
  intro r hr
  have hget := follows_onClient (Http.follows_send .get s!"v1/schema/{name}" none Class.ofJson?) r hr
  rw [describe, Call.mapError]
  exact hget

theorem follows_ask (query : String) : Step.Keeps (Follows replies) (ask query) :=
  (follows_onClient (Http.follows_send _ _ _ _)).bind fun _ _ hr => hr

theorem follows_list (c : Class) (filter : Option Where) (offset limit : Nat) :
    Step.Keeps (Follows replies) (Server.list (τ := Rest) c filter offset limit) :=
  Step.Keeps.bind (Step.Keeps.bind (follows_ask _) fun _ _ hr => hr) fun _ _ hr => hr

theorem follows_openCollection (name : String) :
    Step.Keeps (Follows replies) (openCollection (τ := Rest) name) :=
  (follows_describe (className name)).bind fun _ _ hr => hr

theorem follows_probedWidth (c : Opened) :
    Step.Keeps (Follows replies) ((family (τ := Rest)).probedWidth c) :=
  (follows_describe (className c.collection)).bind fun definition =>
    (follows_list definition none 0 1).bind fun _ _ hr => hr

end Rest

/-- **A batch is reported as written exactly when no answer gives a reason.** Whatever a server
answers to the objects of a batch, the batch passes for written when no object's first error has
a text as its message; where every rejection gives such a reason, it does exactly when no object
is rejected. And an addition that succeeds has written its items as one batch, the last one that
it sent, and no answer to that gave a reason. -/
theorem written_iff_no_reason (collection : String) {items : List Item} (hitems : items ≠ []) :
    (∀ {name : String} {objects : List Object} {r : Rest} {answers : List Json},
      Rest.Answered name objects r answers →
        ((Rest.put name objects r).1 = .ok () ↔
          ∀ answer ∈ answers, ¬ ∃ reason, GivesReason answer reason) ∧
        ((∀ answer ∈ answers, Rejected answer → ∃ reason, GivesReason answer reason) →
          ((Rest.put name objects r).1 = .ok () ↔ ∀ answer ∈ answers, ¬ Rejected answer))) ∧
    ∀ {s s' : Session Rest}, family.addItems collection items s = (.ok (), s') →
      ∃ (batch : List Item) (r : Rest) (answers : List Json),
        batch.map Item.bare = items.map Item.bare ∧
        r.client.peer.replies <:+ s.server.client.peer.replies ∧
        Rest.put (className collection) (batch.map Object.ofItem) r = (.ok (), s'.server) ∧
        Rest.Answered (className collection) (batch.map Object.ofItem) r answers ∧
        ∀ answer ∈ answers, ¬ ∃ reason, GivesReason answer reason := by
  refine ⟨fun {name objects r answers} h => ⟨Rest.put_eq_ok_iff h, fun hreasons => ?_⟩, ?_⟩
  · refine (Rest.put_eq_ok_iff h).trans (forall₂_congr fun answer hanswer => not_congr ?_)
    exact ⟨fun ⟨_, hreason⟩ => hreason.rejected, hreasons answer hanswer⟩
  · intro s s' hadd
    obtain ⟨c, batch, r, hwrite, hfollows, hbare, r₁, hopen⟩ :=
      Family.exists_write (J := Rest.Follows s.server.client.peer.replies)
        (Rest.follows_openCollection collection) (fun _ _ hr => hr) Rest.follows_probedWidth
        List.suffix_rfl (List.isEmpty_eq_false_iff.2 hitems) hadd
    obtain ⟨definition, r₂, -, hc⟩ := Step.bind_eq_ok_iff.1 hopen
    cases hc
    obtain ⟨_, -, hsent⟩ := Action.ofResult_bind_eq_ok_iff.1 hwrite
    have hwritten := Call.toAction_eq_ok_iff.1 hsent
    obtain ⟨answers, hanswered⟩ := Rest.exists_answered hwritten
    exact ⟨batch, r, answers, hbare, hfollows, hwritten, hanswered,
      (Rest.put_eq_ok_iff hanswered).1 (congrArg Prod.fst hwritten)⟩

/-! ### Batches with one object -/

/-- A server that answers from a script. -/
def scripted (replies : List Http.Reply) : Rest := ⟨.scripted replies⟩

/-- The reply to a batch of one object, with errors that are listed for it. -/
def listing (errors : List Json) : Http.Reply where
  status := 200
  body := (Json.arr [.obj [("result", .obj [("errors", .obj [("error", .arr errors)])])]]).text

/-- The reply to a batch of one object that the server has no room for. -/
def noRoom : Http.Reply := listing [.obj [("message", .str "no room")]]

/-- A session that is connected to a server, to which an item is to be added; the class is there
and has no objects. -/
def adding (reply : Http.Reply) : Session Rest :=
  let definition : Http.Reply := ⟨200, (Json.obj [("class", .str "Docs")]).text⟩
  let nothing : Http.Reply := ⟨200, (Json.obj [("data", .obj [])]).text⟩
  (family.adapter.connect (.start (scripted [⟨200, ""⟩, definition, definition, nothing, reply])
    .empty)).2

/-- An item with a vector of one component. -/
def lone : Item := ⟨"a", none, [], some [Binary32.ofParts false 0]⟩

/-- A batch is answered with the list in its reply. -/
theorem exists_answered_scripted {α : Type} {reply : Http.Reply} {facts : Json → α} {l : List α}
    (h : (reply.accept batchAnswers?).toOption.map (List.map facts) = some l) :
    ∃ answers, Rest.Answered "Docs" [.ofItem lone] (scripted [reply]) answers ∧
      answers.map facts = l := by
  obtain ⟨request, hrequest, -⟩ := Http.exists_of_any_toOption
    (x := (scripted []).client.request? .post "v1/batch/objects"
      (some (batchBody "Docs" [.ofItem lone]))) (p := fun _ => true) (by decide +kernel)
  cases haccept : reply.accept batchAnswers? with
  | error e =>
    rw [haccept] at h
    cases h
  | ok answers =>
    rw [haccept] at h
    exact ⟨answers, ⟨rfl, ⟨request, hrequest⟩, haccept⟩, Option.some.inj h⟩

/-- An addition to a class in which the server has an error for one object is refused with its
message, and one without errors is written. -/
theorem written_iff_no_reason_of_one :
    (∃ answers,
      Rest.Answered "Docs" [.ofItem lone] (scripted [noRoom]) answers ∧
      (∀ answer ∈ answers, Rejected answer → ∃ reason, GivesReason answer reason) ∧
      ((Rest.put "Docs" [.ofItem lone] (scripted [noRoom])).1 = .ok () ↔
        ∀ answer ∈ answers, ¬ Rejected answer)) ∧
    [lone] ≠ [] ∧ ∃ s', family.addItems "docs" [lone] (adding (listing [])) = (.ok (), s') ∧
      ∃ (batch : List Item) (r : Rest) (answers : List Json),
        batch.map Item.bare = [lone].map Item.bare ∧
        r.client.peer.replies <:+ (adding (listing [])).server.client.peer.replies ∧
        Rest.put (className "docs") (batch.map Object.ofItem) r = (.ok (), s'.server) ∧
        Rest.Answered (className "docs") (batch.map Object.ofItem) r answers ∧
        ∀ answer ∈ answers, ¬ ∃ reason, GivesReason answer reason := by
  have hne : [lone] ≠ [] := List.cons_ne_nil _ _
  refine ⟨?_, hne, ?_⟩
  · obtain ⟨answers, hanswered, hfailures⟩ := exists_answered_scripted
      (show (Http.Reply.accept batchAnswers? noRoom).toOption.map
        (List.map batchFailure?) = some [some "no room"] by decide +kernel)
    have hreasons : ∀ answer ∈ answers, Rejected answer → ∃ reason, GivesReason answer reason := by
      intro answer hanswer _
      have hfailure : batchFailure? answer ∈ [some "no room"] :=
        hfailures ▸ List.mem_map_of_mem hanswer
      exact ⟨_, batchFailure?_eq_some_iff.1 (List.mem_singleton.1 hfailure)⟩
    have hput := (written_iff_no_reason "docs" hne).1 hanswered
    exact ⟨answers, hanswered, hreasons, hput.2 hreasons⟩
  · have hok : (family.addItems "docs" [lone] (adding (listing []))).1.toOption = some () := by
      decide +kernel
    rcases hadd : family.addItems "docs" [lone] (adding (listing [])) with ⟨e | _, s'⟩
    · rw [hadd] at hok
      cases hok
    · exact ⟨s', rfl, (written_iff_no_reason "docs" hne).2 hadd⟩

/-- **An object can be rejected and pass for written**: the server lists an error for it that has
no message, the batch succeeds, and so does an addition. -/
theorem rejection_without_message_unseen :
    (∃ answers, Rest.Answered "Docs" [.ofItem lone] (scripted [listing [.obj []]]) answers ∧
      (∃ answer ∈ answers, Rejected answer) ∧
      (Rest.put "Docs" [.ofItem lone] (scripted [listing [.obj []]])).1 = .ok ()) ∧
    (family.addItems "docs" [lone] (adding (listing [.obj []]))).1 = .ok () := by
  refine ⟨?_, by decide +kernel⟩
  obtain ⟨answers, hanswered, hfacts⟩ := exists_answered_scripted
    (show (Http.Reply.accept batchAnswers? (listing [.obj []])).toOption.map
      (List.map fun answer => (batchFailure? answer, (errorsOf answer).isEmpty)) =
        some [(none, false)] by decide +kernel)
  obtain ⟨answer, rfl, hanswer⟩ := List.map_eq_singleton_iff.1 hfacts
  obtain ⟨hfailure, herrors⟩ := Prod.mk.inj hanswer
  refine ⟨[answer], hanswered, ⟨answer, List.mem_singleton_self _, ?_⟩, ?_⟩
  · rw [Rejected, ← List.isEmpty_eq_false_iff]
    exact herrors
  · rw [Rest.put_of_answered hanswered, batchOutcome, List.findSome?_singleton, hfailure]

end Weaviate

end VectorBridge
