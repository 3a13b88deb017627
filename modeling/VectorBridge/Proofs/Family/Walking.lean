import VectorBridge.Proofs.Family.Removal
import VectorBridge.Proofs.Page
import VectorBridge.Proofs.Rounds
/-!
# Walking a listing of a family for ids

A removal by filter that the server cannot do looks for the ids first, page by page. Each
page is one of the server's own, or is cut from the listing that the first page fetches
whole. A walk along either finds the ids of everything that passes, once and in order,
unless it comes to a page that the server refuses or the listing cannot be fetched; and it
comes to an end on its own, so that the bound on its pages never cuts it short.

What a server's pages show such a walk is part of `Storage.Walks`, together with how much
may pass for the pages and for the whole listing to be read.
-/

namespace VectorBridge

/-- A result is an answer where a condition holds, and else a failure. -/
def OkIff {α : Type} (r : Result α) (p : Prop) (answer : α) : Prop :=
  ∀ a, r = .ok a ↔ p ∧ a = answer

theorem okIff_ok {α : Type} {p : Prop} (h : p) (answer : α) : OkIff (.ok answer) p answer := by
  intro a
  rw [Except.ok.injEq, and_iff_right h, eq_comm]

theorem okIff_error {α : Type} {p : Prop} (h : ¬ p) (e : Error) (answer : α) :
    OkIff (.error e) p answer := fun _ => ⟨nofun, fun ha => (h ha.1).elim⟩

theorem OkIff.not_of_error {α : Type} {p : Prop} {e : Error} {answer : α}
    (h : OkIff (.error e) p answer) : ¬ p := fun hp => nomatch (h answer).2 ⟨hp, rfl⟩

theorem okIff_ite {α : Type} (p : Prop) [Decidable p] (answer : α) (e : Error) :
    OkIff (if p then .ok answer else .error e) p answer := by
  by_cases h : p
  · rw [if_pos h]
    exact okIff_ok h answer
  · rw [if_neg h]
    exact okIff_error h e answer

/-! ## Pages read at an offset -/

namespace Storage

variable {τ Answer : Type} {t : τ} {found : List Item}

/-- A page of what is there from an offset on promises another one when it is full. -/
theorem pageAt_of_read {read : Nat → Action τ Answer} {g : Answer → List Item} {answer : Answer}
    {token : Option PageToken} {offset size : Nat} (htoken : StartsAt token offset)
    (hsize : 0 < size) (hread : read offset t = (.ok answer, t))
    (hg : g answer = (found.drop offset).take size) :
    pageAt read g ⟨token, size⟩ t = (.ok ⟨(found.drop offset).take size,
      if offset + size ≤ found.length then some (.offset (offset + size)) else none⟩, t) := by
  obtain ⟨offset', hoffset, hpage⟩ := ((cuts_readsByOffset found).reads_iff htoken hsize).2 rfl
  obtain rfl := Except.ok.inj ((htoken size).symm.trans hoffset)
  rw [pageAt, hoffset, Step.bind_of_ok (Action.ofResult_apply _ t), Step.bind_of_ok hread, hg,
    hpage]
  rfl

/-- Such pages are cut from the list. -/
theorem cutsAt_promise (found : List Item) (offset size : Nat) :
    CutsAt found offset size ⟨(found.drop offset).take size,
      if offset + size ≤ found.length then some (.offset (offset + size)) else none⟩ where
  items := rfl
  last hnext := by
    by_contra hle
    simp only [if_pos (Nat.le_of_not_le hle), reduceCtorEq] at hnext
  more token hnext := by
    simp only [Option.ite_none_right_eq_some, Option.some.injEq] at hnext
    exact ⟨hnext.2.symm, hnext.1⟩

/-- A walk over such pages finds the ids of all that there is. -/
theorem exists_rounds_pageAt (read : Nat → Nat → Action τ Answer) (g : Answer → List Item)
    {readPage : PageRequest → Action τ (Page Item)}
    (hpage : ∀ token size, readPage ⟨token, size⟩ = pageAt (read size) g ⟨token, size⟩)
    (hread : ∀ size offset, ∃ answer, read size offset t = (.ok answer, t) ∧
      g answer = (found.drop offset).take size) :
    ∃ later ids, Rounds (Adapter.findPage readPage) (.first PageRequest.defaultSize) later t
      (ids, t) ∧ later.length ≤ found.length ∧ OkIff ids True (found.map (·.id)) := by
  have hcut : ∀ {token offset}, StartsAt token offset →
      ∃ page, readPage ⟨token, PageRequest.defaultSize⟩ t = (.ok page, t) ∧
        CutsAt found offset PageRequest.defaultSize page := by
    intro token offset htoken
    obtain ⟨answer, hanswer, hg⟩ := hread PageRequest.defaultSize offset
    rw [hpage]
    exact ⟨_, pageAt_of_read htoken (by decide) hanswer hg, cutsAt_promise _ _ _⟩
  obtain ⟨later, hrounds, hlength⟩ := exists_rounds_cut (hcut startsAt_none) hcut
  exact ⟨later, _, hrounds, hlength, okIff_ok trivial _⟩

/-! ## What walks are shown -/

variable {Held Row Handle Condition Fragment : Type}

/-- Less passes in one collection than there are rows in all. -/
theorem length_passing_lt (V : Storage τ Held Row Fragment) {collections : Keyed String Held}
    {name : String} {held : Held} (hget : Keyed.get? name collections = some held)
    (fragment : Option Fragment) : (V.passing held fragment).length <
      Keyed.total (fun held => (V.rows held).length) collections + 2 := by
  have hmem : held ∈ Keyed.values collections := List.mem_map_of_mem (Keyed.mem_of_get? hget)
  have hrows := Keyed.measure_le_total (fun held => (V.rows held).length) hmem
  have hpass : (V.passing held fragment).length ≤ (V.rows held).length := by
    rw [passing, List.length_map]
    exact List.length_filter_le _ _
  omega

/-- What a walk for ids is shown on servers that satisfy `I`: its pages go on to the end
where what passes is as much as `paged` allows, and what passes can be fetched whole where
it is as much as `whole` allows. -/
structure Walks (V : Storage τ Held Row Fragment) (F : Family τ Handle Condition Fragment)
    (I : τ → Prop) (paged whole : Nat → Prop) : Prop where
  length_lt : ∀ {t name h held}, V.Opened F I t name h held → ∀ fragment,
    (V.passing held fragment).length < F.rounds t
  pages : ∀ {t name h held}, V.Opened F I t name h held → ∀ fragment, ∃ later found,
    Rounds (Adapter.findPage (F.readPage h fragment)) (.first PageRequest.defaultSize) later t
      (found, t) ∧ later.length ≤ (V.passing held fragment).length ∧
    OkIff found (paged (V.passing held fragment).length) ((V.passing held fragment).map (·.id))
  fetchAll : ∀ {t name h held}, V.Opened F I t name h held → ∀ fragment, ∃ all,
    F.fetchAll h fragment t = (all, t) ∧
    OkIff all (whole (V.passing held fragment).length) (V.passing held fragment)

end Storage

namespace Family

open Session

variable {τ Held Row Handle Condition Fragment : Type} {V : Storage τ Held Row Fragment}
variable {F : Family τ Handle Condition Fragment} {I J : τ → Prop} {paged whole : Nat → Prop}
variable {s : Session τ} {name : String} {f : Filter} {compiled : CompiledFilter Fragment}
variable {h : Handle} {held : Held}

/-- Where the server evaluates the whole filter, a walk is one over the server's pages. -/
theorem findsIds_of_complete (L : V.Lawful F J) (W : V.Walks F I paged whole)
    (hc : F.compiler.compile f = .ok compiled) (hcomplete : compiled.isComplete = true)
    (hconn : s.connected = true) (ho : V.Opened F I s.server name h held) :
    ∃ later found, F.FindsIds name f s later found s ∧
      OkIff found (paged (V.passing held compiled.native).length)
        ((V.passing held compiled.native).map (·.id)) := by
  obtain ⟨later, found, hpages, hlength, hfound⟩ := W.pages ho compiled.native
  have hlist : ∀ {request : PageRequest} {t : τ}, 0 < request.size → s.server = t →
      F.listItems name request (some f) { s with server := t } =
        (F.readPage h compiled.native request t).map id fun t => { s with server := t } := by
    rintro request t hsize rfl
    rw [listItems_eq_listing hconn hsize hc ho.attach, listing, if_pos hcomplete, onServer_apply]
    rfl
  have hsizes : ∀ request ∈ PageRequest.first PageRequest.defaultSize :: later,
      0 < request.size := by
    refine List.forall_mem_cons.2 ⟨by decide, fun request hmem => ?_⟩
    rw [size_of_rounds hpages request hmem]
    decide
  have hrounds : Rounds (Adapter.findPage (F.listItems name · (some f)))
      (.first PageRequest.defaultSize) later s (found, s) :=
    -- a page of a session is a page of its server, which stays as it is
    rounds_lift_pages (fun t => { s with server := t }) hpages
      (fun request => (L.reads.readPage h compiled.native request).keeps) rfl
      fun request hmem t ht => hlist (hsizes request hmem) ht
  refine ⟨later, found, ⟨hrounds, filteredIds_of_rounds hrounds fun {page s₁} hfirst => ?_⟩, hfound⟩
  have hserver : s₁.server = s.server := by
    have hpage := hlist (hsizes _ List.mem_cons_self) rfl
    obtain ⟨-, rfl⟩ := Prod.mk.inj (hfirst.symm.trans hpage)
    exact L.reads.readPage h compiled.native _ s.server
  have hroom := W.length_lt ho compiled.native
  rw [hserver]
  omega

/-- Where the listing is fetched whole, a walk is one over what was fetched. -/
theorem findsIds_of_incomplete (W : V.Walks F I paged whole)
    (hc : F.compiler.compile f = .ok compiled) (hcomplete : compiled.isComplete = false)
    (hconn : s.connected = true) (ho : V.Opened F I s.server name h held) :
    ∃ later found s', F.FindsIds name f s later found s' ∧
      OkIff found (whole (V.passing held compiled.native).length)
        ((V.matching held compiled).map (·.id)) := by
  obtain ⟨all, hfetch, hall⟩ := W.fetchAll ho compiled.native
  cases all with
  | error e =>
    have hfailed : (do pure (compiled.postFilter (← onServer (F.fetchAll h compiled.native))) :
        Action (Session τ) (List Item)) s = (.error e, s) := by
      rw [Step.bind_apply, onServer_apply, hfetch]
    have hfirst : F.listItems name (.first PageRequest.defaultSize) (some f) s = _ :=
      (listItems_eq_materialized hc hcomplete hconn ho.attach (by decide)).trans
        (materialized_failed (.inl rfl) hfailed)
    have hrounds : Rounds (Adapter.findPage (F.listItems name · (some f)))
        (.first PageRequest.defaultSize) [] s (.error e, s) := .failed (findPage_of_error hfirst)
    refine ⟨[], .error e, s, ⟨hrounds, filteredIds_of_rounds hrounds fun _ => Nat.zero_le _⟩, ?_⟩
    exact okIff_error hall.not_of_error _ _
  | ok all =>
    obtain ⟨hwhole, rfl⟩ := (hall all).1 rfl
    obtain ⟨later, s₁, hfinds, -, -⟩ := findsIds_of_fetched hc hcomplete hconn ho.attach hfetch
    exact ⟨later, _, s₁, hfinds, okIff_ok hwhole _⟩

/-- How much may pass for a walk under a filter to get through. -/
def Fits (paged whole : Nat → Prop) (compiled : CompiledFilter Fragment) (n : Nat) : Prop :=
  if compiled.isComplete then paged n else whole n

/-- A walk through a collection that can be opened. -/
theorem findsIds_of_opened (L : V.Lawful F J) (W : V.Walks F I paged whole)
    (hc : F.compiler.compile f = .ok compiled) (hconn : s.connected = true)
    (ho : V.Opened F I s.server name h held) :
    ∃ later found s', F.FindsIds name f s later found s' ∧
      OkIff found (Fits paged whole compiled (V.passing held compiled.native).length)
        ((V.matching held compiled).map (·.id)) := by
  cases hcomplete : compiled.isComplete with
  | true =>
    obtain ⟨later, found, hfinds, hfound⟩ := findsIds_of_complete L W hc hcomplete hconn ho
    have hall : V.matching held compiled = V.passing held compiled.native :=
      List.filter_eq_self.2 fun item _ => by
        rw [Filter.accepts, List.isEmpty_iff.1 hcomplete, List.all_nil]
    rw [Fits, if_pos hcomplete, hall]
    exact ⟨later, found, s, hfinds, hfound⟩
  | false =>
    rw [Fits, hcomplete, if_neg Bool.false_ne_true]
    exact findsIds_of_incomplete W hc hcomplete hconn ho

/-- What a page is listed of is there. -/
theorem held_of_listing (L : V.Lawful F J) (hattach : F.attach name s.server = (.ok h, s.server))
    {page : Page Item} {size : Nat} {s' : Session τ}
    (hlist : F.listing h name f compiled ⟨none, size⟩ s = (.ok page, s')) :
    ∃ held, V.held? s.server (V.serverName name) = some held := by
  cases hcomplete : compiled.isComplete with
  | true =>
    rw [listing, if_pos hcomplete, onServer_apply] at hlist
    obtain ⟨hread, -⟩ := Prod.mk.inj hlist
    exact L.held_of_readPage hattach (Prod.ext hread rfl)
  | false =>
    obtain ⟨all, hall⟩ := fetchAll_of_listing L hcomplete hlist
    exact L.held_of_fetchAll hattach hall

/-- **A walk for ids comes to an end, and finds the ids of all that passes** exactly when
there is a connection, a collection and a filter that compiles, and all that passes fits. -/
theorem exists_findsIds (L : V.Lawful F J) (W : V.Walks F I paged whole) (hI : I s.server)
    (name : String) (f : Filter) :
    ∃ later found s', F.FindsIds name f s later found s' ∧
      ∀ ids, found = .ok ids ↔ s.connected = true ∧ ∃ held compiled,
        V.held? s.server (V.serverName name) = some held ∧
        F.compiler.compile f = .ok compiled ∧
        Fits paged whole compiled (V.passing held compiled.native).length ∧
        ids = (V.matching held compiled).map (·.id) := by
  by_cases hopen : s.connected = true ∧ ∃ h held compiled,
    V.Opened F I s.server name h held ∧ F.compiler.compile f = .ok compiled
  · obtain ⟨hconn, h, held, compiled, ho, hc⟩ := hopen
    obtain ⟨later, found, s', hfinds, hfound⟩ := findsIds_of_opened L W hc hconn ho
    refine ⟨later, found, s', hfinds, fun ids => (hfound ids).trans ⟨?_, ?_⟩⟩
    · rintro ⟨hfits, rfl⟩
      exact ⟨hconn, held, compiled, ho.held, hc, hfits, rfl⟩
    · rintro ⟨-, held', compiled', hheld, hc', hfits, rfl⟩
      obtain rfl := Option.some.inj (ho.held.symm.trans hheld)
      obtain rfl := Except.ok.inj (hc.symm.trans hc')
      exact ⟨hfits, rfl⟩
  · -- the first page is refused
    obtain ⟨e, s', hfirst⟩ : ∃ e s',
        F.listItems name (.first PageRequest.defaultSize) (some f) s = (.error e, s') := by
      rcases hlist : F.listItems name (.first PageRequest.defaultSize) (some f) s with
        ⟨e | page, s'⟩
      · exact ⟨e, s', rfl⟩
      · refine (hopen ?_).elim
        obtain ⟨compiled, hc⟩ := compile_of_listItems hlist
        obtain ⟨hconn, -, h, hattach, hpage⟩ := (listItems_eq_ok_iff L hc).1 hlist
        obtain ⟨held, hheld⟩ := held_of_listing L hattach hpage
        exact ⟨hconn, h, held, compiled, ⟨hI, hattach, hheld⟩, hc⟩
    have hrounds : Rounds (Adapter.findPage (F.listItems name · (some f)))
        (.first PageRequest.defaultSize) [] s (.error e, s') := .failed (findPage_of_error hfirst)
    refine ⟨[], .error e, s', ⟨hrounds, filteredIds_of_rounds hrounds fun _ => Nat.zero_le _⟩,
      fun ids => ⟨nofun, ?_⟩⟩
    rintro ⟨hconn, held, compiled, hheld, hc, -⟩
    obtain ⟨h, hattach⟩ := L.attach_of_held hheld
    exact (hopen ⟨hconn, h, held, compiled, ⟨hI, hattach, hheld⟩, hc⟩).elim

end Family

end VectorBridge
