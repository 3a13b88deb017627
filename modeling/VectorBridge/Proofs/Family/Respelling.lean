import VectorBridge.Proofs.Family.Names
/-!
# Runs under other names

A call under another name of its collection goes together with the call itself: every
operation is followed step by step in two sessions that meet one server. Additions,
updates and searches need the same vectors to be refused for their width, later pages
need the same listing to be cut from; all other operations ask for nothing. By induction
on the calls, so do the runs.
-/

namespace VectorBridge

/-- Descriptions that tell the same of a collection, its name and its width apart. -/
structure Collection.Alike (c c' : Collection) : Prop where
  metric : c.metric = c'.metric
  itemCount : c.itemCount = c'.itemCount
  metadataFields : c.metadataFields = c'.metadataFields

namespace Family

open Session

variable {τ Handle Condition Fragment : Type} {F : Family τ Handle Condition Fragment}
variable {key : String → String} {I : τ → Prop} {n n' : String} {s s' : Session τ}

/-! ## Checks of widths -/

/-- Checks of two widths go together when the widths are the same, or both or neither of
the steps are refused for a width, which only the checks can be the reason of. -/
theorem check_width_bind {α γ : Type} (check : Option Nat → Result γ) {w w' : Option Nat}
    {f g : γ → Action (Session τ) α} (hs : Twins key s s')
    (hkind : ∀ {w e}, check w = .error e → e.kind = .dimensionMismatch)
    (hf : ∀ a s, refusedForWidth (f a s).1 = false)
    (hg : ∀ a s, refusedForWidth (g a s).1 = false)
    (hagree : w = w' ∨ refusedForWidth ((Action.ofResult (check w) >>= f) s).1 =
      refusedForWidth ((Action.ofResult (check w') >>= g) s').1)
    (hfg : ∀ a a', Matched key Eq (Twins key) (f a s) (g a' s')) :
    Matched key Eq (Twins key) ((Action.ofResult (check w) >>= f) s)
      ((Action.ofResult (check w') >>= g) s') := by
  have hfail : ∀ {w e} {f : γ → Action (Session τ) α} {s : Session τ}, check w = .error e →
      (Action.ofResult (check w) >>= f) s = (.error e, s) := fun he =>
    Step.bind_of_error (by rw [Action.ofResult_apply, he]) _
  have hrefused : ∀ {w e}, check w = .error e → refusedForWidth (.error e : Result α) = true :=
    fun he => decide_eq_true (hkind he)
  rcases hc : check w with e | a <;> rcases hc' : check w' with e' | a'
  · rw [← hc, ← hc', hfail hc, hfail hc']
    exact .error ((hkind hc).trans (hkind hc').symm) hs
  · rcases hagree with rfl | h
    · rw [hc] at hc'
      cases hc'
    · rw [hfail hc, hrefused hc, Action.ofResult_bind_of_ok hc', hg a' s'] at h
      cases h
  · rcases hagree with rfl | h
    · rw [hc] at hc'
      cases hc'
    · rw [hfail hc', hrefused hc', Action.ofResult_bind_of_ok hc, hf a s] at h
      cases h
  · exact hfg a a'

theorem kind_of_commonWidth {w : Option Nat} {batch : List Item} {e : Error}
    (h : Batch.commonWidth w batch = .error e) : e.kind = .dimensionMismatch := by
  induction batch generalizing w with
  | nil => cases h
  | cons item batch ih =>
    simp only [Batch.commonWidth] at h
    split at h
    · exact ih h
    · exact ih h
    · split at h
      · exact ih h
      · cases h
        rfl

theorem kind_of_checkVectors {d : Dimension} {vectors : List Embedding} {e : Error}
    (h : Batch.checkVectors d vectors = .error e) : e.kind = .dimensionMismatch := by
  induction vectors with
  | nil => cases h
  | cons v vectors ih =>
    rw [Batch.checkVectors] at h
    split at h
    · rename_i hcheck
      cases h
      unfold Dimension.check at hcheck
      split at hcheck
      · split at hcheck
        · cases hcheck
        · cases hcheck
          rfl
      · cases hcheck
    · exact ih h

/-- What is made of the answer of a step is refused when the step is. -/
theorem refusedForWidth_then_pure {α β : Type} (x : Action (Session τ) α) (f : α → β)
    (s : Session τ) :
    refusedForWidth ((x >>= fun a => pure (f a)) s).1 = refusedForWidth (x s).1 := by
  rw [Step.bind_apply]
  rcases x s with ⟨_ | _, _⟩ <;> rfl

/-- No failure of a server is one of widths. -/
theorem kind_of_toError (e : TransportError) : e.toError.kind ≠ .dimensionMismatch := by
  cases e with
  | status code body =>
    unfold TransportError.toError
    simp only
    split
    · exact nofun
    · exact nofun
  | _ => exact nofun

theorem refusedForWidth_call {α : Type} (c : Call τ α) (s : Session τ) :
    refusedForWidth (call c s).1 = false := by
  rw [call, onServer_apply, Call.toAction]
  rcases c s.server with ⟨e | a, t⟩
  · exact decide_eq_false (kind_of_toError e)
  · rfl

/-! ## Additions and searches around their checks -/

/-- What an addition does once its batch has passed. -/
def enter (F : Family τ Handle Condition Fragment) (name : String) (h : Handle)
    (batch : List Item) (width : Option Nat) : Action (Session τ) Unit := do
  F.learn name width
  onServer (F.write h batch)
  dropListings name

theorem learn_apply (F : Family τ Handle Condition Fragment) (name : String)
    (width : Option Nat) (s : Session τ) :
    ∃ dimensions, F.learn name width s = (.ok (), { s with dimensions }) := by
  unfold learn
  split
  · split
    · exact ⟨_, rfl⟩
    · exact ⟨s.dimensions, rfl⟩
  · exact ⟨s.dimensions, rfl⟩

theorem addItems_eq_enter (F : Family τ Handle Condition Fragment) (name : String)
    (items : List Item) :
    F.addItems name items = (do
      ensureConnected
      if items.isEmpty then pure ()
      else do
        let submitted ← F.submit name items
        let dimension ← F.resolve submitted.1
        let width ← Action.ofResult (Batch.commonWidth dimension.toOption submitted.2)
        F.enter name submitted.1 submitted.2 width) := by
  rw [addItems_eq]
  simp only [settle, bind_assoc]
  rfl

/-- What a search does once its vectors have passed. -/
def rank (F : Family τ Handle Condition Fragment) (h : Handle) (scoring : Scoring)
    (compiled : CompiledFilter Fragment) (k : Nat) (vectors : List Embedding) :
    Action (Session τ) (List QueryResult) := do
  let total ← if compiled.isComplete then pure 0 else call (F.size h)
  let found ← call
    (F.nearest h scoring (searchLimit compiled.residual k total) compiled.native vectors)
  pure (found.map fun hits => finishHits scoring.ranking hits compiled.residual k)

theorem search_eq_rank (F : Family τ Handle Condition Fragment) (name : String) (query : Query) :
    F.search name query = (do
      ensureConnected
      Action.ofResult (checkCount query.k)
      let compiled ← Action.ofResult (F.compiler.compile? query.filter)
      let (h, scoring) ← call (F.inspect name)
      let dimension ← F.resolve h
      let vectors ← embedding fun c =>
        Batch.inputVectors c name (F.metadataOf h) query.input
      Action.ofResult (Batch.checkVectors dimension vectors)
      F.rank h scoring compiled query.k vectors) := by
  refine bind_congr fun _ => bind_congr fun _ => bind_congr fun compiled => bind_congr fun opened =>
    bind_congr fun dimension => ?_
  funext s
  rw [Step.bind_apply, Step.bind_apply, embedding_apply, embedding_apply, Batch.queryVectors_eq,
    Step.bind_apply]
  rcases Batch.inputVectors s.context name (F.metadataOf opened.1) query.input s.requests with
    ⟨e | vectors, log⟩
  · rfl
  · simp only
    rw [Step.bind_apply, Action.ofResult_apply]
    cases Batch.checkVectors dimension vectors <;> rfl

/-- A ranking is not refused for a width. -/
theorem refusedForWidth_rank (F : Family τ Handle Condition Fragment) (h : Handle)
    (scoring : Scoring) (compiled : CompiledFilter Fragment) (k : Nat) (vectors : List Embedding)
    (s : Session τ) : refusedForWidth (F.rank h scoring compiled k vectors s).1 = false := by
  have hcall : ∀ {α β : Type} {c : Call τ α} {f : α → Action (Session τ) β} {s : Session τ},
      (∀ a s', refusedForWidth (f a s').1 = false) → refusedForWidth ((call c >>= f) s).1 = false :=
    fun {α β c f s} hf => Step.bind_cases
      (P := fun r : Result β × Session τ => refusedForWidth r.1 = false)
      (fun e s' hrun => by
        have := refusedForWidth_call c s
        rwa [hrun] at this)
      fun a s' _ => hf a s'
  unfold rank
  split
  · exact hcall fun _ _ => rfl
  · exact hcall fun _ _ => hcall fun _ _ => rfl

/-! ## Listings -/

theorem fetchListing_fst (F : Family τ Handle Condition Fragment) (h : Handle)
    (compiled : CompiledFilter Fragment) (s : Session τ) :
    (F.fetchListing h compiled s).1 =
      (F.fetchAll h compiled.native s.server).1.map compiled.postFilter := by
  rw [fetchListing, Step.bind_apply, onServer_apply]
  rcases F.fetchAll h compiled.native s.server with ⟨e | items, t⟩ <;> rfl

/-- What is shown of a collection that can be opened. -/
theorem shown_eq {filter : Option Filter} {compiled : CompiledFilter Fragment}
    {h : Handle} (hc : F.compiler.compile? filter = .ok compiled)
    (hattach : F.attach n s.server = (.ok h, s.server)) :
    F.shown n filter s = s.heldOr (listingKey n filter) (F.fetchListing h compiled s).1 := by
  rw [shown, Action.ofResult_bind_of_ok hc, Step.bind_of_ok (call_of_ok hattach)]

/-! ## Every operation -/

namespace SharesNames

theorem getItems (A : F.SharesNames key I) (hs : Twins key s s') (hn : key n = key n')
    (ids : List String) :
    Matched key Eq (Twins key) (F.getItems n ids s) (F.getItems n' ids s') := by
  refine hs.ensureConnected_bind fun _ _ => ?_
  split
  · exact .ok rfl hs
  · refine A.attach_bind hs hn fun h h' _ _ hh => ?_
    rw [hh.fetch]
    exact hs.call _

theorem listItems {request : PageRequest} {filter : Option Filter} (A : F.SharesNames key I)
    (hs : Twins key s s') (hn : key n = key n')
    (hsame : request.token.isSome = true → F.SameListing n n' filter s s') :
    Matched key Eq (fun s₁ s₁' => Twins key s₁ s₁' ∧ F.SameHeld n n' filter s₁ s₁')
      (F.listItems n request filter s) (F.listItems n' request filter s') := by
  refine hs.ensureConnected_bind fun _ _ => hs.check_bind fun _ hvalid =>
    hs.check_bind fun compiled hc => A.attach_bind hs hn fun h h' hattach hattach' hh => ?_
  cases hcomplete : compiled.isComplete with
  | true =>
    rw [if_pos rfl, if_pos rfl, hh.readPage]
    refine (hs.onServer _).imp (fun _ _ h => h)
      fun s₁ s₁' hs₁ => ⟨hs₁, fun compiled' hc' hpart => ?_⟩
    rw [hc] at hc'
    cases hc'
    rw [hcomplete] at hpart
    cases hpart
  | false =>
    rw [if_neg Bool.false_ne_true, if_neg Bool.false_ne_true]
    have hfetch : F.fetchListing h compiled s = ((F.fetchListing h compiled s).1, s) :=
      Prod.ext rfl (leaves_fetchListing A.reads s)
    have houtcome : (F.fetchListing h' compiled s').1 = (F.fetchListing h compiled s).1 := by
      rw [fetchListing_fst, fetchListing_fst, hh.fetchAll, hs.server]
    have hfetch' : F.fetchListing h' compiled s' = ((F.fetchListing h compiled s).1, s') :=
      Prod.ext houtcome (leaves_fetchListing A.reads s')
    refine (hs.materialized (PageRequest.validate_eq_ok_iff.1 hvalid) hfetch hfetch'
      fun htoken => ?_).imp (fun _ _ h => h) fun s₁ s₁' h => ⟨h.1, fun _ _ _ => h.2⟩
    have hshown := hsame htoken compiled hc hcomplete
    rwa [shown_eq hc hattach, shown_eq hc hattach', houtcome] at hshown

/-- After a page the same listing is held, for whatever comes next. -/
theorem listItems_bind {α : Type} {P : α → α → Prop} {R : Session τ → Session τ → Prop}
    {request : PageRequest} {filter : Option Filter} {f g : Page Item → Action (Session τ) α}
    (A : F.SharesNames key I) (hs : Twins key s s') (hn : key n = key n')
    (hsame : request.token.isSome = true → F.SameListing n n' filter s s')
    (hf : ∀ page s₁ s₁', Twins key s₁ s₁' → F.SameHeld n n' filter s₁ s₁' →
      Matched key P R (f page s₁) (g page s₁')) :
    Matched key P R ((F.listItems n request filter >>= f) s)
      ((F.listItems n' request filter >>= g) s') :=
  (A.listItems hs hn hsame).bind_same fun page s₁ s₁' _ _ hafter =>
    hf page s₁ s₁' hafter.1 hafter.2

/-- Walks of the same number of pages go together. -/
theorem pagesFrom {filter : Option Filter} (A : F.SharesNames key I) (hn : key n = key n')
    (fuel : Nat) {request : PageRequest} (hs : Twins key s s')
    (hsame : request.token.isSome = true → F.SameListing n n' filter s s') :
    Matched key Eq (Twins key) (F.adapter.pagesFrom n filter fuel request s)
      (F.adapter.pagesFrom n' filter fuel request s') := by
  induction fuel generalizing request s s' with
  | zero => exact .ok rfl hs
  | succ fuel ih =>
    refine A.listItems_bind hs hn hsame fun page s₁ s₁' hs₁ hheld => ?_
    cases page.next with
    | none => exact .ok rfl hs₁
    | some token => exact (ih hs₁ fun _ => hheld.sameListing).then_pure fun _ _ h => congrArg _ h

/-- So do the ids on the pages. -/
theorem drain {filter : Option Filter} (A : F.SharesNames key I) (hn : key n = key n')
    (fuel : Nat) {request : PageRequest} (hs : Twins key s s')
    (hsame : request.token.isSome = true → F.SameListing n n' filter s s') :
    Matched key Eq (Twins key)
      (Adapter.drain (fun request => F.listItems n request filter) fuel request s)
      (Adapter.drain (fun request => F.listItems n' request filter) fuel request s') := by
  induction fuel generalizing request s s' with
  | zero => exact .ok rfl hs
  | succ fuel ih =>
    refine A.listItems_bind hs hn hsame fun page s₁ s₁' hs₁ hheld => ?_
    cases page.next with
    | none => exact .ok rfl hs₁
    | some token => exact (ih hs₁ fun _ => hheld.sameListing).then_pure fun _ _ h => congrArg _ h

/-- A filter that selects is not empty. -/
theorem isEmpty_of_selective {filter : Option Filter} {f : Filter}
    (h : selective filter = some f) : f.isEmpty = false := by
  obtain ⟨g, -, hg⟩ := Option.bind_eq_some_iff.1 h
  split at hg
  · cases hg
  · cases hg
    exact eq_false_of_ne_true ‹_›

/-- A removal finds the same ids when it fetches its listing. -/
theorem filteredIds {f : Filter} {compiled : CompiledFilter Fragment} (A : F.SharesNames key I)
    (hs : Twins key s s') (hn : key n = key n') (ids : List String)
    (hc : F.compiler.compile f = .ok compiled)
    (hpart : ids.isEmpty = true → compiled.isComplete = false) :
    Matched key Eq (Twins key) (F.filteredIds n ids f s) (F.filteredIds n' ids f s') := by
  unfold Family.filteredIds
  split
  · rename_i hids
    refine A.listItems_bind hs hn (fun h => by cases h) fun page s₁ s₁' hs₁ hheld => ?_
    cases page.next with
    | none => exact .ok rfl hs₁
    | some token =>
      obtain ⟨found, hfound, hfound'⟩ := hheld compiled hc (hpart hids)
      simp only
      rw [Step.bind_of_ok (Step.get_apply s₁), Step.bind_of_ok (Step.get_apply s₁'), hfound,
        hfound', ← hs₁.server]
      exact (A.drain hn _ hs₁ fun _ => hheld.sameListing).then_pure fun _ _ h => congrArg _ h
  · exact hs.check_bind fun _ _ => (A.getItems hs hn ids).then_pure fun _ _ h => by rw [h]

/-- What is removed under a handle is removed under either. -/
theorem erase {erase : Handle → Call τ Unit} (A : F.SharesNames key I) (hs : Twins key s s')
    (hn : key n = key n') (herase : ∀ {h h'}, F.Indistinct h h' → erase h = erase h') :
    Matched key Eq (Twins key)
      ((do
        let h ← call (F.attach n)
        call (erase h)
        dropListings n) s)
      ((do
        let h ← call (F.attach n')
        call (erase h)
        dropListings n') s') := by
  refine A.attach_bind hs hn fun h h' _ _ hh => ?_
  rw [herase hh]
  refine (hs.call _).bind_same fun _ s₁ s₁' _ _ hs₁ => ?_
  exact .ok rfl (hs₁.of_same hs₁.server ⟨rfl, rfl, rfl⟩ ⟨rfl, rfl, rfl⟩)

theorem deleteIds (A : F.SharesNames key I) (hs : Twins key s s') (hn : key n = key n')
    (ids : List String) :
    Matched key Eq (Twins key) (F.deleteIds n ids s) (F.deleteIds n' ids s') := by
  unfold Family.deleteIds
  split
  · exact .ok rfl hs
  · exact A.erase hs hn fun hh => by rw [hh.eraseIds]

theorem deleteItems (A : F.SharesNames key I) (hs : Twins key s s') (hn : key n = key n')
    (ids : List String) (filter : Option Filter) :
    Matched key Eq (Twins key) (F.deleteItems n ids filter s) (F.deleteItems n' ids filter s') := by
  refine hs.ensureConnected_bind fun _ _ => ?_
  cases hselective : selective filter with
  | none => exact A.deleteIds hs hn ids
  | some f =>
    refine hs.check_bind fun compiled hc => ?_
    have hlisted : (ids.isEmpty = true → compiled.isComplete = false) →
        Matched key Eq (Twins key)
          ((F.filteredIds n ids f >>= fun found => F.deleteIds n found) s)
          ((F.filteredIds n' ids f >>= fun found => F.deleteIds n' found) s') := fun hpart =>
      (A.filteredIds hs hn ids hc hpart).bind_same fun found _ _ _ _ hs₁ =>
        A.deleteIds hs₁ hn found
    cases hnative : compiled.native with
    | some native =>
      cases hwhole : ids.isEmpty && compiled.isComplete with
      | true => exact A.erase hs hn fun hh => by rw [hh.eraseWhere]
      | false => exact hlisted fun hids => by rwa [hids, Bool.true_and] at hwhole
    | none =>
      -- what the server evaluates whole has a fragment
      refine hlisted fun _ => eq_false_of_ne_true fun hcomplete => ?_
      obtain ⟨native, hsome⟩ :=
        FilterCompiler.native_of_isComplete hc hcomplete (isEmpty_of_selective hselective)
      rw [hnative] at hsome
      cases hsome

theorem createCollection (A : F.SharesNames key I) (hs : Twins key s s') (hn : key n = key n')
    (width : Nat) (metric : Metric) :
    Matched key Eq (Twins key) (F.createCollection n width metric s)
      (F.createCollection n' width metric s') := by
  refine hs.ensureConnected_bind fun _ _ => hs.check_bind fun _ _ => ?_
  rw [Step.bind_of_ok (Step.get_apply s), Step.bind_of_ok (Step.get_apply s'), ← hs.context,
    A.create hn]
  exact (hs.call _).bind_same fun _ s₁ s₁' _ _ hs₁ =>
    .ok rfl (hs₁.of_same hs₁.server ⟨rfl, rfl, rfl⟩ ⟨rfl, rfl, rfl⟩)

theorem dropCollection (A : F.SharesNames key I) (hs : Twins key s s') (hn : key n = key n') :
    Matched key Eq (Twins key) (F.dropCollection n s) (F.dropCollection n' s') := by
  refine hs.ensureConnected_bind fun _ _ => ?_
  rw [A.drop hn]
  exact (hs.call _).bind_same fun _ s₁ s₁' _ _ hs₁ =>
    .ok rfl (hs₁.of_same hs₁.server ⟨rfl, rfl, rfl⟩ ⟨rfl, rfl, rfl⟩)

theorem countItems (A : F.SharesNames key I) (hs : Twins key s s') (hn : key n = key n') :
    Matched key Eq (Twins key) (F.countItems n s) (F.countItems n' s') := by
  refine hs.ensureConnected_bind fun _ _ => ?_
  rw [A.count hn]
  exact hs.call _

theorem metadata (A : F.SharesNames key I) (hs : Twins key s s') (hn : key n = key n') :
    Matched key Eq (Twins key) (F.metadata n s) (F.metadata n' s') := by
  unfold Family.metadata
  split
  · refine hs.ensureConnected_bind fun _ _ => A.attach_bind hs hn fun h h' _ _ hh => ?_
    rw [hh.metadataOf]
    exact .ok rfl hs
  · exact .ok rfl hs

/-- Descriptions tell the same of a collection, its name and its width apart. -/
theorem describe (A : F.SharesNames key I) (hs : Twins key s s') (hr : Ready I s)
    (hr' : Ready I s') (hn : key n = key n') :
    Matched key Collection.Alike (Twins key) (F.describe n s) (F.describe n' s') := by
  refine hs.ensureConnected_bind fun _ _ =>
    A.inspect_bind hs hn fun h h' scoring hopen hopen' hh =>
      hs.same_bind (A.reads.size h) (by rw [hh.size]) fun count _ =>
        hs.same_bind (A.reads.sample h _) (by rw [hh.sample]) fun sample _ => ?_
  by_cases htrusts : F.trustsDeclared = true
  · rw [if_pos htrusts, if_pos htrusts]
    cases scoring.declared with
    | none => exact .ok ⟨rfl, rfl, rfl⟩ hs
    | some w =>
      exact .ok ⟨rfl, rfl, rfl⟩ (hs.of_same hs.server ⟨rfl, rfl, rfl⟩ ⟨rfl, rfl, rfl⟩)
  · rw [if_neg htrusts, if_neg htrusts]
    obtain ⟨w, w', dimensions, dimensions', hrun, hrun', -⟩ :=
      A.resolve hs hr hr' (A.attach_of_inspect hopen) (A.attach_of_inspect hopen') hh
    simp only [pure_bind]
    rw [Step.bind_of_ok hrun, Step.bind_of_ok hrun']
    exact .ok ⟨rfl, rfl, rfl⟩ (hs.of_same hs.server ⟨rfl, rfl, rfl⟩ ⟨rfl, rfl, rfl⟩)

/-! ### What vectors may be refused in -/

theorem submit (A : F.SharesNames key I) (hs : Twins key s s') (hn : key n = key n')
    (items : List Item) :
    Matched key (fun p p' => F.Indistinct p.1 p'.1 ∧ p.2 = p'.2) (Twins key)
      (F.submit n items s) (F.submit n' items s') := by
  refine hs.check_bind fun _ _ => hs.check_bind fun _ _ =>
    A.attach_bind hs hn fun h h' _ _ hh => ?_
  rw [hh.metadataOf]
  refine (hs.embedding fun log log' => hs.blind.embedMissing hn _ items).bind_same
    fun batch s₁ s₁' _ _ hs₁ => ?_
  exact hs₁.check_bind fun _ _ => .ok ⟨hh, rfl⟩ hs₁

/-- A write is not refused for a width. -/
theorem refusedForWidth_enter (A : F.SharesNames key I) (name : String) (h : Handle)
    (batch : List Item) (width : Option Nat) (s : Session τ) :
    refusedForWidth (F.enter name h batch width s).1 = false := by
  obtain ⟨dimensions, hlearn⟩ := F.learn_apply name width s
  rw [Family.enter, Step.bind_of_ok hlearn, Step.bind_apply, onServer_apply]
  rcases hwrite : F.write h batch s.server with ⟨e | _, t⟩
  · exact decide_eq_false (A.write_kind hwrite)
  · rfl

/-- What is remembered of a batch does not matter to its write. -/
theorem enter {h h' : Handle} (hs : Twins key s s') (hh : F.Indistinct h h') (batch : List Item)
    (width width' : Option Nat) :
    Matched key Eq (Twins key) (F.enter n h batch width s) (F.enter n' h' batch width' s') := by
  obtain ⟨dimensions, hlearn⟩ := F.learn_apply n width s
  obtain ⟨dimensions', hlearn'⟩ := F.learn_apply n' width' s'
  rw [Family.enter, Family.enter, Step.bind_of_ok hlearn, Step.bind_of_ok hlearn', hh.write]
  have hs₁ : Twins key { s with dimensions } { s' with dimensions := dimensions' } :=
    hs.of_same hs.server ⟨rfl, rfl, rfl⟩ ⟨rfl, rfl, rfl⟩
  exact (hs₁.onServer _).bind_same fun _ s₂ s₂' _ _ hs₂ =>
    .ok rfl (hs₂.of_same hs₂.server ⟨rfl, rfl, rfl⟩ ⟨rfl, rfl, rfl⟩)

/-- Additions go together when the width that is remembered is the same, or both or
neither are refused for a width. -/
theorem addItems (A : F.SharesNames key I) (hs : Twins key s s') (hr : Ready I s)
    (hr' : Ready I s') (hn : key n = key n') (items : List Item)
    (hagree : s.dimensions.cachedWidth? n = s'.dimensions.cachedWidth? n' ∨
      refusedForWidth (F.addItems n items s).1 = refusedForWidth (F.addItems n' items s').1) :
    Matched key Eq (Twins key) (F.addItems n items s) (F.addItems n' items s') := by
  rw [addItems_eq_enter, addItems_eq_enter] at hagree ⊢
  refine hs.ensureConnected_bind fun hconn hconn' => ?_
  rw [ensureConnected_bind hconn, ensureConnected_bind hconn'] at hagree
  split
  · exact .ok rfl hs
  rename_i hitems
  rw [if_neg hitems, if_neg hitems] at hagree
  refine (A.submit hs hn items).bind fun ⟨h, batch⟩ ⟨h', _⟩ s₁ s₁' hrun hrun' hanswers hs₁ => ?_
  obtain ⟨hh, rfl⟩ := hanswers
  rw [Step.bind_of_ok hrun, Step.bind_of_ok hrun'] at hagree
  obtain ⟨hattach, -, requests, rfl⟩ := submit_eq_ok A.reads hrun
  obtain ⟨hattach', -, requests', rfl⟩ := submit_eq_ok A.reads hrun'
  obtain ⟨w, w', dimensions, dimensions', hresolve, hresolve', hsame⟩ :=
    A.resolve hs₁ ⟨hr.inv, hr.remembers⟩ ⟨hr'.inv, hr'.remembers⟩ hattach hattach' hh
  simp only at hagree ⊢
  rw [Step.bind_of_ok hresolve, Step.bind_of_ok hresolve'] at hagree ⊢
  have hs₂ : Twins key { s with requests, dimensions }
      { s' with requests := requests', dimensions := dimensions' } :=
    hs₁.of_same hs₁.server ⟨rfl, rfl, rfl⟩ ⟨rfl, rfl, rfl⟩
  exact check_width_bind (fun w => Batch.commonWidth (Dimension.ofOption w).toOption batch)
    hs₂ kind_of_commonWidth (A.refusedForWidth_enter n h batch)
    (A.refusedForWidth_enter n' h' batch) (hagree.imp_left hsame) (enter hs₂ hh batch)

/-- So do updates: what is stored is read and merged the same. -/
theorem updateItems (A : F.SharesNames key I) (hs : Twins key s s') (hr : Ready I s)
    (hr' : Ready I s') (hn : key n = key n') (updates : List ItemUpdate)
    (hagree : s.dimensions.cachedWidth? n = s'.dimensions.cachedWidth? n' ∨
      refusedForWidth (F.updateItems n updates s).1 =
        refusedForWidth (F.updateItems n' updates s').1) :
    Matched key Eq (Twins key) (F.updateItems n updates s) (F.updateItems n' updates s') := by
  unfold Family.updateItems at hagree ⊢
  refine hs.ensureConnected_bind fun hconn hconn' => ?_
  rw [ensureConnected_bind hconn, ensureConnected_bind hconn'] at hagree
  split
  · exact .ok rfl hs
  rename_i hupdates
  rw [if_neg hupdates, if_neg hupdates] at hagree
  refine (A.getItems hs hn _).bind_same fun stored s₁ s₁' hrun hrun' _ => ?_
  obtain rfl : s₁ = s := (congrArg Prod.snd hrun).symm.trans (leaves_getItems A.reads n _ s)
  obtain rfl : s₁' = s' := (congrArg Prod.snd hrun').symm.trans (leaves_getItems A.reads n' _ s')
  rw [Step.bind_of_ok hrun, Step.bind_of_ok hrun', Step.bind_of_ok (Step.get_apply s₁),
    Step.bind_of_ok (Step.get_apply s₁'), ← hs.context] at hagree
  rw [Step.bind_of_ok (Step.get_apply s₁), Step.bind_of_ok (Step.get_apply s₁'), ← hs.context]
  refine hs.check_bind fun merged hmerged => ?_
  rw [Action.ofResult_bind_of_ok hmerged, Action.ofResult_bind_of_ok hmerged] at hagree
  exact A.addItems hs hr hr' hn merged hagree

/-- What a search does once its vectors have passed goes together. -/
theorem rank {h h' : Handle} (hs : Twins key s s') (hh : F.Indistinct h h') (scoring : Scoring)
    (compiled : CompiledFilter Fragment) (k : Nat) (vectors : List Embedding) :
    Matched key Eq (Twins key) (F.rank h scoring compiled k vectors s)
      (F.rank h' scoring compiled k vectors s') := by
  unfold Family.rank
  rw [hh.size, hh.nearest]
  have hfound : ∀ {s s' : Session τ} total, Twins key s s' → Matched key Eq (Twins key)
      ((do
        let found ← call (F.nearest h' scoring (searchLimit compiled.residual k total)
          compiled.native vectors)
        pure (found.map fun hits => finishHits scoring.ranking hits compiled.residual k)) s)
      ((do
        let found ← call (F.nearest h' scoring (searchLimit compiled.residual k total)
          compiled.native vectors)
        pure (found.map fun hits => finishHits scoring.ranking hits compiled.residual k)) s') :=
    fun total hs => (hs.call _).then_pure fun _ _ h => congrArg _ h
  split
  · exact hfound 0 hs
  · exact (hs.call _).bind_same fun total _ _ _ _ hs₁ => hfound total hs₁

/-- Searches go together when the width that is remembered is the same, or both or
neither are refused for a width. -/
theorem search (A : F.SharesNames key I) (hs : Twins key s s') (hr : Ready I s)
    (hr' : Ready I s') (hn : key n = key n') (query : Query)
    (hagree : s.dimensions.cachedWidth? n = s'.dimensions.cachedWidth? n' ∨
      refusedForWidth (F.search n query s).1 = refusedForWidth (F.search n' query s').1) :
    Matched key Eq (Twins key) (F.search n query s) (F.search n' query s') := by
  rw [search_eq_rank, search_eq_rank] at hagree ⊢
  refine hs.ensureConnected_bind fun hconn hconn' => hs.check_bind fun _ hcount =>
    hs.check_bind fun compiled hc => A.inspect_bind hs hn fun h h' scoring hopen hopen' hh => ?_
  rw [ensureConnected_bind hconn, ensureConnected_bind hconn', Action.ofResult_bind_of_ok hcount,
    Action.ofResult_bind_of_ok hcount, Action.ofResult_bind_of_ok hc,
    Action.ofResult_bind_of_ok hc, Step.bind_of_ok (call_of_ok hopen),
    Step.bind_of_ok (call_of_ok hopen')] at hagree
  obtain ⟨w, w', dimensions, dimensions', hrun, hrun', hsame⟩ :=
    A.resolve hs hr hr' (A.attach_of_inspect hopen) (A.attach_of_inspect hopen') hh
  simp only at hagree ⊢
  rw [Step.bind_of_ok hrun, Step.bind_of_ok hrun', ← hh.metadataOf] at hagree ⊢
  have hs₁ : Twins key { s with dimensions } { s' with dimensions := dimensions' } :=
    hs.of_same hs.server ⟨rfl, rfl, rfl⟩ ⟨rfl, rfl, rfl⟩
  refine (hs₁.embedding fun log log' => hs.blind.inputVectors hn _ query.input).bind_same
    fun vectors s₂ s₂' hinput hinput' hs₂ => ?_
  rw [Step.bind_of_ok hinput, Step.bind_of_ok hinput'] at hagree
  exact check_width_bind (fun w => Batch.checkVectors (.ofOption w) vectors) hs₂
    kind_of_checkVectors (fun _ => F.refusedForWidth_rank h scoring compiled query.k vectors)
    (fun _ => F.refusedForWidth_rank h' scoring compiled query.k vectors) (hagree.imp_left hsame)
    fun _ _ => rank hs₂ hh scoring compiled query.k vectors

/-- The model of a collection is told by hints, or by its first item. -/
theorem embeddingModel (A : F.SharesNames key I) (hs : Twins key s s') (hn : key n = key n') :
    Matched key Eq (Twins key) (F.adapter.embeddingModel n s) (F.adapter.embeddingModel n' s') := by
  refine (A.metadata hs hn).bind_same fun metadata s₁ s₁' _ _ hs₁ => ?_
  rw [Step.bind_of_ok (Step.get_apply s₁), Step.bind_of_ok (Step.get_apply s₁')]
  have hhint : (F.adapter.context s₁').modelHint n' metadata none =
      (F.adapter.context s₁).modelHint n metadata none := by
    show s₁'.context.modelHint n' metadata none = s₁.context.modelHint n metadata none
    rw [← hs₁.context, hs₁.blind.modelHint hn]
  rw [hhint]
  cases (F.adapter.context s₁).modelHint n metadata none with
  | some model => exact .ok rfl hs₁
  | none =>
    refine A.listItems_bind hs₁ hn (fun h => by cases h) fun page s₂ s₂' hs₂ _ => ?_
    refine .ok ?_ hs₂
    show s₂.context.modelHint n none _ = s₂'.context.modelHint n' none _
    rw [← hs₂.context, hs₂.blind.modelHint hn]

end SharesNames

end Family

/-! ## Calls under other names -/

/-- The call with the names of collections changed. -/
def AdapterCall.mapName (g : String → String) : AdapterCall → AdapterCall
  | .createCollection name dimension metric => .createCollection (g name) dimension metric
  | .describe name => .describe (g name)
  | .addItems name items => .addItems (g name) items
  | .getItems name ids => .getItems (g name) ids
  | .listItems name request filter => .listItems (g name) request filter
  | .walk name size filter => .walk (g name) size filter
  | .updateItems name updates => .updateItems (g name) updates
  | .deleteItems name ids filter => .deleteItems (g name) ids filter
  | .dropCollection name => .dropCollection (g name)
  | .countItems name => .countItems (g name)
  | .search name query => .search (g name) query
  | .embeddingModel name => .embeddingModel (g name)
  | .metadata name => .metadata (g name)
  | call => call

/-- Answers that tell the same. A description repeats the name it was asked for, and tells
a width, which may be one that was only asked for. -/
def AdapterAnswer.Alike : AdapterAnswer → AdapterAnswer → Prop
  | .collection c, .collection c' => c.Alike c'
  | a, a' => a = a'

/-- Both calls succeed and tell the same, or both fail for one kind of reason. -/
inductive AdapterAnswer.Concord : Result AdapterAnswer → Result AdapterAnswer → Prop
  | answered {a a' : AdapterAnswer} (h : a.Alike a') : Concord (.ok a) (.ok a')
  | failed {e e' : Error} (h : e.kind = e'.kind) : Concord (.error e) (.error e')

theorem AdapterAnswer.Alike.of_eq {a a' : AdapterAnswer} (h : a = a') : a.Alike a' := by
  subst h
  cases a with
  | collection c => exact ⟨rfl, rfl, rfl⟩
  | _ => rfl

namespace Family

open Session

variable {τ Handle Condition Fragment : Type} {F : Family τ Handle Condition Fragment}
variable {key : String → String} {I : τ → Prop} {s s' : Session τ}

/-- What two sessions have to agree on before a call and the call under another name: on
the width that is remembered, or on whether vectors are refused for their width, and for
a later page on the listing that it is cut from. -/
def Concurs (F : Family τ Handle Condition Fragment) (g : String → String) (call : AdapterCall)
    (s s' : Session τ) : Prop :=
  match call with
  | .addItems name _ | .updateItems name _ | .search name _ =>
    s.dimensions.cachedWidth? name = s'.dimensions.cachedWidth? (g name) ∨
      refusedForWidth (F.adapter.perform call s).1 =
        refusedForWidth (F.adapter.perform (call.mapName g) s').1
  | .listItems name request filter =>
    request.token.isSome = true → F.SameListing name (g name) filter s s'
  | _ => True

/-- **A call goes together with the call under another name** of its collection. -/
theorem SharesNames.perform (A : F.SharesNames key I) (hs : Twins key s s') (hr : Ready I s)
    (hr' : Ready I s') {g : String → String} (hg : ∀ name, key (g name) = key name)
    {call : AdapterCall} (hagree : F.Concurs g call s s') :
    Matched key AdapterAnswer.Alike (Twins key) (F.adapter.perform call s)
      (F.adapter.perform (call.mapName g) s') := by
  have hn : ∀ {name}, key name = key (g name) := fun {name} => (hg name).symm
  -- answers that are equal tell the same
  have hequal : ∀ {α : Type} {x y : Action (Session τ) α} (answer : α → AdapterAnswer),
      Matched key Eq (Twins key) (x s) (y s') →
        Matched key AdapterAnswer.Alike (Twins key) ((do pure (answer (← x))) s)
          ((do pure (answer (← y))) s') :=
    fun answer h => h.then_pure fun _ _ heq => .of_eq (congrArg answer heq)
  have hdone : ∀ {x y : Action (Session τ) Unit}, Matched key Eq (Twins key) (x s) (y s') →
      Matched key AdapterAnswer.Alike (Twins key)
        ((do
          x
          pure AdapterAnswer.done) s)
        ((do
          y
          pure AdapterAnswer.done) s') :=
    fun h => h.then_pure fun _ _ _ => rfl
  cases call with
  | connect =>
    exact hdone ((hs.call _).bind_same fun _ s₁ s₁' _ _ hs₁ =>
      .ok rfl ⟨hs₁.server, rfl, hs₁.context, hs₁.blind, hs₁.requests⟩)
  | disconnect => exact .ok rfl ⟨hs.server, rfl, hs.context, hs.blind, hs.requests⟩
  | isConnected => exact .ok (congrArg (AdapterAnswer.connection · F.kind) hs.connected) hs
  | listCollections => exact hequal .names (hs.ensureConnected_bind fun _ _ => hs.call _)
  | createCollection name width metric => exact hdone (A.createCollection hs hn width metric)
  | describe name => exact (A.describe hs hr hr' hn).then_pure fun _ _ h => h
  | addItems name items =>
    simp only [Concurs, Adapter.perform, AdapterCall.mapName, refusedForWidth_then_pure] at hagree
    exact hdone (A.addItems hs hr hr' hn items hagree)
  | getItems name ids => exact hequal .items (A.getItems hs hn ids)
  | listItems name request filter =>
    exact hequal .page ((A.listItems hs hn hagree).imp (fun _ _ h => h) fun _ _ h => h.1)
  | walk name size filter => exact hequal .pages (A.pagesFrom hn _ hs fun h => by cases h)
  | updateItems name updates =>
    simp only [Concurs, Adapter.perform, AdapterCall.mapName, refusedForWidth_then_pure] at hagree
    exact hdone (A.updateItems hs hr hr' hn updates hagree)
  | deleteItems name ids filter => exact hdone (A.deleteItems hs hn ids filter)
  | dropCollection name => exact hdone (A.dropCollection hs hn)
  | countItems name => exact hequal .count (A.countItems hs hn)
  | search name query =>
    simp only [Concurs, Adapter.perform, AdapterCall.mapName, refusedForWidth_then_pure] at hagree
    exact hequal .results (A.search hs hr hr' hn query hagree)
  | embeddingModel name => exact hequal .text (A.embeddingModel hs hn)
  | metadata name => exact hequal .metadata (A.metadata hs hn)
  | capabilities => exact .ok rfl hs
  | profileName =>
    exact .ok (congrArg (fun c : Context => AdapterAnswer.text c.profileName) hs.context) hs

/-- Two runs whose calls differ in names of one collection only, and that agree before
every call on what it takes from what is remembered. -/
inductive Respelled (F : Family τ Handle Condition Fragment) (key : String → String) :
    Session τ → Session τ → List AdapterCall → List AdapterCall → Prop
  | nil {s s' : Session τ} : Respelled F key s s' [] []
  | cons {s s' : Session τ} {call : AdapterCall} {calls calls' : List AdapterCall}
      (g : String → String) (same : ∀ name, key (g name) = key name)
      (agree : F.Concurs g call s s')
      (rest : Respelled F key (F.adapter.perform call s).2
        (F.adapter.perform (call.mapName g) s').2 calls calls') :
      Respelled F key s s' (call :: calls) (call.mapName g :: calls')

theorem Ready.perform (A : F.SharesNames key I) (hr : Ready I s) (call : AdapterCall) :
    Ready I (F.adapter.perform call s).2 := by
  have hcall : call.Admissible fun _ => True := call.admissible_of_forall fun _ => trivial
  exact ⟨(keeps A.reads A.guards).perform hcall s hr.inv,
    (keeps_remembers A.reads).perform hcall s hr.remembers⟩

/-- **Runs under other names go together**, and do the same to the server. -/
theorem SharesNames.run (A : F.SharesNames key I) {calls calls' : List AdapterCall}
    (h : F.Respelled key s s' calls calls') (hs : Twins key s s') (hr : Ready I s)
    (hr' : Ready I s') :
    List.Forall₂ AdapterAnswer.Concord (F.adapter.run calls s).1 (F.adapter.run calls' s').1 ∧
      (F.adapter.run calls s).2.server = (F.adapter.run calls' s').2.server := by
  induction h with
  | nil => exact ⟨.nil, hs.server⟩
  | @cons s s' call calls calls' g same agree rest ih =>
    have hcall := A.perform hs hr hr' same agree
    have hanswer : AdapterAnswer.Concord (F.adapter.perform call s).1
        (F.adapter.perform (call.mapName g) s').1 := by
      generalize F.adapter.perform call s = r, F.adapter.perform (call.mapName g) s' = r' at hcall
      cases hcall with
      | ok hanswers _ => exact .answered hanswers
      | error hreasons _ => exact .failed hreasons
    obtain ⟨hanswers, hserver⟩ := ih hcall.states (hr.perform A call) (hr'.perform A _)
    exact ⟨.cons hanswer hanswers, hserver⟩

end Family

end VectorBridge
