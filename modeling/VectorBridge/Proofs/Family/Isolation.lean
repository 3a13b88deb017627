import VectorBridge.Proofs.Family.Respelling
import VectorBridge.Proofs.Isolation
/-!
# Families whose collections are apart

What is seen of a collection is all that its family's questions about it depend on, and all that
they change: `Confines` says so of each question. Handles may differ between two servers that
show the same collection, when the server numbers its collections in the order in which they
were created. Then every operation of the family keeps to its collection. Listings that are held
make no difference to this as long as they are those that would be fetched.
-/

namespace VectorBridge

/-! ## Questions about one collection -/

namespace Session

variable {τ View ε α β : Type} {look : τ → String → View} {name : String}

/-- A step of a server that depends on what is seen of one collection, and changes no other. -/
def Local (look : τ → String → View) (name : String) (x : ExceptT ε (StateM τ) α) : Prop :=
  ∀ ⦃t₀ t₀' t t'⦄, Confined look name t₀ t₀' t t' →
    Step.Alike (Confined look name t₀ t₀') (x t) (x t')

theorem local_pure (a : α) : Local look name (pure a : ExceptT ε (StateM τ) α) :=
  fun _ _ _ _ h => ⟨rfl, h⟩

theorem local_throw (e : ε) : Local look name (throw e : ExceptT ε (StateM τ) α) :=
  fun _ _ _ _ h => ⟨rfl, h⟩

theorem local_ofResult (r : Result α) : Local look name (Action.ofResult r) :=
  fun _ _ _ _ h => ⟨rfl, h⟩

theorem Local.bind {x : ExceptT ε (StateM τ) α} {f : α → ExceptT ε (StateM τ) β}
    (hx : Local look name x) (hf : ∀ a, Local look name (f a)) : Local look name (x >>= f) :=
  fun _ _ _ _ h => (hx h).bind fun a _ _ _ _ hafter => hf a hafter

theorem Local.toAction {c : Call τ α} (hc : Local look name c) : Local look name c.toAction :=
  fun _ _ _ _ h => alike_toAction (hc h)

/-- What is read of the collection. -/
theorem local_read {f : τ → Except TransportError α}
    (hf : ∀ t t', look t name = look t' name → f t = f t') : Local look name (Call.read f) :=
  fun _ _ _ _ h => ⟨hf _ _ h.named, h⟩

/-- What is done to one entry of a map: it fails and changes nothing, or the entry is put in or
taken out. -/
theorem local_of_entry {S : Type} {entries : τ → Keyed String S} {x : ExceptT ε (StateM τ) Unit}
    (made : Option S → Except ε (Option S)) (mk : Keyed String S → τ)
    (hmk : ∀ l, entries (mk l) = l)
    (hx : ∀ t, x t = match made (Keyed.get? name (entries t)) with
      | .error e => (.error e, t)
      | .ok v => (.ok (), mk (v.elim (Keyed.erase name (entries t))
          (Keyed.insert name · (entries t))))) :
    Local (fun t name => Keyed.get? name (entries t)) name x := by
  intro t₀ t₀' t t' h
  have hput : ∀ (v : Option S) (l : Keyed String S),
      Keyed.get? name (v.elim (Keyed.erase name l) (Keyed.insert name · l)) = v ∧
        ∀ other, other ≠ name →
          Keyed.get? other (v.elim (Keyed.erase name l) (Keyed.insert name · l)) =
            Keyed.get? other l := by
    intro v l
    cases v with
    | none => exact ⟨Keyed.get?_erase_self _ _, fun _ hne => Keyed.get?_erase_of_ne hne.symm _⟩
    | some s =>
      exact ⟨Keyed.get?_insert_self _ _ _, fun _ hne => Keyed.get?_insert_of_ne hne.symm _ _⟩
  have hnamed : Keyed.get? name (entries t) = Keyed.get? name (entries t') := h.named
  rw [hx, hx, ← hnamed]
  cases made (Keyed.get? name (entries t)) with
  | error e => exact ⟨rfl, h⟩
  | ok v =>
    simp only
    refine ⟨rfl, ?_, fun other hne => (h.left other hne).trans ?_,
      fun other hne => (h.right other hne).trans ?_⟩
    · simp only [hmk]
      rw [(hput v _).1, (hput v _).1]
    · simp only [hmk]
      rw [(hput v _).2 other hne]
    · simp only [hmk]
      rw [(hput v _).2 other hne]

end Session

namespace Family

open Session

variable {τ View Handle Condition Fragment : Type} {F : Family τ Handle Condition Fragment}
variable {I : τ → Prop} {look : τ → String → View} {name : String} {s s' : Session τ}

/-- A collection opened on two servers that show the same of it. -/
structure Twin (F : Family τ Handle Condition Fragment) (I : τ → Prop) (look : τ → String → View)
    (name : String) (h h' : Handle) (t t' : τ) : Prop where
  inv : I t
  inv' : I t'
  same : look t name = look t' name
  attach : F.attach name t = (.ok h, t)
  attach' : F.attach name t' = (.ok h', t')

/-- What is asked about a collection depends on what is seen of it, and what is done to it
changes no other. -/
structure Confines (F : Family τ Handle Condition Fragment) (I : τ → Prop)
    (look : τ → String → View) : Prop where
  reads : F.ReadsOnly
  attach : ∀ {t t' name}, I t → I t' → look t name = look t' name →
    Step.Paired (fun _ _ => True) (fun _ _ => True) Eq (fun _ _ => True) (F.attach name t)
      (F.attach name t')
  inspect : ∀ {t t' name}, I t → I t' → look t name = look t' name →
    Step.Paired (fun opened opened' => opened.2 = opened'.2) (fun _ _ => True) Eq
      (fun _ _ => True) (F.inspect name t) (F.inspect name t')
  attach_of_inspect : ∀ {t name h scoring}, F.inspect name t = (.ok (h, scoring), t) →
    F.attach name t = (.ok h, t)
  named : ∀ {t name h}, I t → F.attach name t = (.ok h, t) → F.nameOf h = name
  count : ∀ {t t' name}, I t → I t' → look t name = look t' name →
    (F.count name t).1 = (F.count name t').1
  create : ∀ {t t' name}, I t → I t' → look t name = look t' name → ∀ c width metric,
    Step.Alike (Confined look name t t') (F.create c name width metric t)
      (F.create c name width metric t')
  drop : ∀ {t t' name}, I t → I t' → look t name = look t' name →
    Step.Alike (Confined look name t t') (F.drop name t) (F.drop name t')
  metadataOf : ∀ {t t' name h h'}, F.Twin I look name h h' t t' → F.metadataOf h = F.metadataOf h'
  declaredWidth : ∀ {t t' name h h'}, F.Twin I look name h h' t t' →
    (F.declaredWidth h t).1 = (F.declaredWidth h' t').1
  probedWidth : ∀ {t t' name h h'}, F.Twin I look name h h' t t' →
    (F.probedWidth h t).1 = (F.probedWidth h' t').1
  fetch : ∀ {t t' name h h'}, F.Twin I look name h h' t t' → ∀ ids,
    (F.fetch h ids t).1 = (F.fetch h' ids t').1
  sample : ∀ {t t' name h h'}, F.Twin I look name h h' t t' → ∀ n,
    (F.sample h n t).1 = (F.sample h' n t').1
  fetchAll : ∀ {t t' name h h'}, F.Twin I look name h h' t t' → ∀ fragment,
    (F.fetchAll h fragment t).1 = (F.fetchAll h' fragment t').1
  readPage : ∀ {t t' name h h'}, F.Twin I look name h h' t t' → ∀ fragment request,
    (F.readPage h fragment request t).1 = (F.readPage h' fragment request t').1
  size : ∀ {t t' name h h'}, F.Twin I look name h h' t t' → (F.size h t).1 = (F.size h' t').1
  nearest : ∀ {t t' name h h'}, F.Twin I look name h h' t t' → ∀ scoring k fragment vectors,
    (F.nearest h scoring k fragment vectors t).1 = (F.nearest h' scoring k fragment vectors t').1
  write : ∀ {t t' name h h'}, F.Twin I look name h h' t t' → ∀ items,
    Step.Alike (Confined look name t t') (F.write h items t) (F.write h' items t')
  eraseIds : ∀ {t t' name h h'}, F.Twin I look name h h' t t' → ∀ ids,
    Step.Alike (Confined look name t t') (F.eraseIds h ids t) (F.eraseIds h' ids t')
  eraseWhere : ∀ {t t' name h h'}, F.Twin I look name h h' t t' → ∀ fragment,
    Step.Alike (Confined look name t t') (F.eraseWhere h fragment t) (F.eraseWhere h' fragment t')

/-- Every question about a collection is local to it. Then a handle is told by what is seen. -/
structure IsLocal (F : Family τ Handle Condition Fragment) (look : τ → String → View) : Prop where
  reads : F.ReadsOnly
  attach_of_inspect : ∀ {t name h scoring}, F.inspect name t = (.ok (h, scoring), t) →
    F.attach name t = (.ok h, t)
  named : ∀ {t name h}, F.attach name t = (.ok h, t) → F.nameOf h = name
  attach : ∀ name, Local look name (F.attach name)
  inspect : ∀ name, Local look name (F.inspect name)
  count : ∀ name, Local look name (F.count name)
  create : ∀ c name width metric, Local look name (F.create c name width metric)
  drop : ∀ name, Local look name (F.drop name)
  declaredWidth : ∀ h, Local look (F.nameOf h) (F.declaredWidth h)
  probedWidth : ∀ h, Local look (F.nameOf h) (F.probedWidth h)
  fetch : ∀ h ids, Local look (F.nameOf h) (F.fetch h ids)
  sample : ∀ h n, Local look (F.nameOf h) (F.sample h n)
  fetchAll : ∀ h fragment, Local look (F.nameOf h) (F.fetchAll h fragment)
  readPage : ∀ h fragment request, Local look (F.nameOf h) (F.readPage h fragment request)
  size : ∀ h, Local look (F.nameOf h) (F.size h)
  nearest : ∀ h scoring k fragment vectors,
    Local look (F.nameOf h) (F.nearest h scoring k fragment vectors)
  write : ∀ h items, Local look (F.nameOf h) (F.write h items)
  eraseIds : ∀ h ids, Local look (F.nameOf h) (F.eraseIds h ids)
  eraseWhere : ∀ h fragment, Local look (F.nameOf h) (F.eraseWhere h fragment)

/-- Steps of the same outcome go together. -/
theorem paired_of_same {ε α : Type} {r r' : Except ε α × τ} (h : r.1 = r'.1) :
    Step.Paired Eq (fun _ _ => True) Eq (fun _ _ => True) r r' := by
  obtain ⟨out, t⟩ := r
  obtain ⟨out', t'⟩ := r'
  cases h
  cases out with
  | error e => exact .error rfl trivial
  | ok a => exact .ok rfl trivial

theorem IsLocal.confines (L : F.IsLocal look) : F.Confines (fun _ => True) look := by
  -- a collection that is seen alike is opened alike
  have htwin : ∀ {t t' name h h'}, F.Twin (fun _ => True) look name h h' t t' →
      h' = h ∧ F.nameOf h = name := by
    intro t t' name h h' ht
    have hout := (L.attach name (.rfl ht.same)).1
    rw [ht.attach, ht.attach'] at hout
    cases hout
    exact ⟨rfl, L.named ht.attach⟩
  have hread : ∀ {ε α : Type} {t t' name h h'} (x : Handle → ExceptT ε (StateM τ) α),
      (∀ h, Local look (F.nameOf h) (x h)) → F.Twin (fun _ => True) look name h h' t t' →
        Step.Alike (Confined look name t t') (x h t) (x h' t') := by
    intro ε α t t' name h h' x hx ht
    obtain ⟨rfl, rfl⟩ := htwin ht
    exact hx _ (.rfl ht.same)
  exact {
    reads := L.reads
    attach := fun _ _ h => (paired_of_same (L.attach _ (.rfl h)).1).imp (fun _ _ _ => trivial)
      fun _ _ h => h
    inspect := fun _ _ h => (paired_of_same (L.inspect _ (.rfl h)).1).imp
      (fun _ _ h => congrArg _ h) fun _ _ h => h
    attach_of_inspect := L.attach_of_inspect
    named := fun _ => L.named
    count := fun _ _ h => (L.count _ (.rfl h)).1
    create := fun _ _ h c width metric => L.create c _ width metric (.rfl h)
    drop := fun _ _ h => L.drop _ (.rfl h)
    metadataOf := fun h => by rw [(htwin h).1]
    declaredWidth := fun h => (hread F.declaredWidth L.declaredWidth h).1
    probedWidth := fun h => (hread F.probedWidth L.probedWidth h).1
    fetch := fun h ids => (hread (F.fetch · ids) (L.fetch · ids) h).1
    sample := fun h n => (hread (F.sample · n) (L.sample · n) h).1
    fetchAll := fun h fragment => (hread (F.fetchAll · fragment) (L.fetchAll · fragment) h).1
    readPage := fun h fragment request =>
      (hread (F.readPage · fragment request) (L.readPage · fragment request) h).1
    size := fun h => (hread F.size L.size h).1
    nearest := fun h scoring k fragment vectors =>
      (hread (F.nearest · scoring k fragment vectors)
        (L.nearest · scoring k fragment vectors) h).1
    write := fun h items => hread (F.write · items) (L.write · items) h
    eraseIds := fun h ids => hread (F.eraseIds · ids) (L.eraseIds · ids) h
    eraseWhere := fun h fragment => hread (F.eraseWhere · fragment) (L.eraseWhere · fragment) h }

/-- Both servers satisfy an invariant. -/
def Both (I : τ → Prop) (t t' : τ) : Prop := I t ∧ I t'

/-- What is held of listings is what would be fetched, unless the server cuts all pages. -/
def Settled (F : Family τ Handle Condition Fragment) (s : Session τ) : Prop :=
  (∀ {filter compiled}, F.compiler.compile? filter = .ok compiled → compiled.isComplete = true) ∨
    s.UpToDate F.Finds

namespace Confines

variable {K : Comparison look name} {α : Type} {P : α → α → Prop} {T : τ → τ → Prop}

/-! ### Opening a collection -/

theorem attach_bind {f g : Handle → Action (Session τ) α} (C : F.Confines I look)
    (hs : K.Linked (Both I) s s')
    (hf : ∀ h h', K.Linked (F.Twin I look name h h') s s' → K.Runs P T (f h s) (g h' s')) :
    K.Runs P T ((call (F.attach name) >>= f) s) ((call (F.attach name) >>= g) s') := by
  obtain ⟨hinv, hinv'⟩ := hs.servers
  exact hs.open_bind (C.reads.attach name) (C.reads.attach name) (C.attach hinv hinv' hs.same)
    fun h h' hopen hopen' _ => hf h h' (hs.imp ⟨hinv, hinv', hs.same, hopen, hopen'⟩)

theorem inspect_bind {f g : Handle × Scoring → Action (Session τ) α} (C : F.Confines I look)
    (hs : K.Linked (Both I) s s')
    (hf : ∀ h h' scoring, K.Linked (F.Twin I look name h h') s s' →
      K.Runs P T (f (h, scoring) s) (g (h', scoring) s')) :
    K.Runs P T ((call (F.inspect name) >>= f) s) ((call (F.inspect name) >>= g) s') := by
  obtain ⟨hinv, hinv'⟩ := hs.servers
  refine hs.open_bind (C.reads.inspect name) (C.reads.inspect name) (C.inspect hinv hinv' hs.same) ?_
  rintro ⟨h, scoring⟩ ⟨h', scoring'⟩ hopen hopen' rfl
  exact hf h h' scoring (hs.imp ⟨hinv, hinv', hs.same, C.attach_of_inspect hopen,
    C.attach_of_inspect hopen'⟩)

/-- The same width is resolved of an opened collection. -/
theorem resolve {h h' : Handle} (C : F.Confines I look)
    (hs : K.Linked (F.Twin I look name h h') s s') :
    K.Runs Eq (F.Twin I look name h h') (F.resolve h s) (F.resolve h' s') := by
  unfold Family.resolve
  rw [C.named hs.servers.inv hs.servers.attach, C.named hs.servers.inv' hs.servers.attach']
  exact hs.resolveWidth (C.reads.declaredWidth h) (C.reads.declaredWidth h')
    (C.reads.probedWidth h) (C.reads.probedWidth h') (C.declaredWidth hs.servers)
    (C.probedWidth hs.servers)

/-! ### Reading -/

theorem getItems (C : F.Confines I look) (hs : K.Linked (Both I) s s') (ids : List String) :
    K.Runs Eq (Both I) (F.getItems name ids s) (F.getItems name ids s') := by
  refine hs.ensureConnected_bind ?_
  split
  · exact .ok rfl hs
  · exact C.attach_bind hs fun h h' hs =>
      (hs.ask (C.reads.fetch h ids) (C.reads.fetch h' ids) (C.fetch hs.servers ids)).imp
        (fun _ _ h => h) fun _ _ hs => hs.imp ⟨hs.servers.inv, hs.servers.inv'⟩

theorem countItems (C : F.Confines I look) (hs : K.Linked (Both I) s s') :
    K.Runs Eq (Both I) (F.countItems name s) (F.countItems name s') :=
  hs.ensureConnected_bind <| hs.ask (C.reads.count name) (C.reads.count name) <|
    C.count hs.servers.1 hs.servers.2 hs.same

theorem metadata (C : F.Confines I look) (hs : K.Linked (Both I) s s') :
    K.Runs Eq (fun _ _ => True) (F.metadata name s) (F.metadata name s') := by
  unfold Family.metadata
  split
  · exact hs.ensureConnected_bind <| C.attach_bind hs fun h h' hs =>
      .ok (C.metadataOf hs.servers) hs.any
  · exact .ok rfl hs.any

theorem describe (C : F.Confines I look) (hs : K.Linked (Both I) s s') :
    K.Runs Eq (fun _ _ => True) (F.describe name s) (F.describe name s') := by
  refine hs.ensureConnected_bind <| C.inspect_bind hs fun h h' scoring hs =>
    hs.ask_bind (C.reads.size h) (C.reads.size h') (C.size hs.servers) fun count =>
      hs.ask_bind (C.reads.sample h _) (C.reads.sample h' _) (C.sample hs.servers _)
        fun sample => ?_
  -- whatever the width comes from, the rest of the description is at hand
  have hlast : ∀ {w s₁ s₁'}, K.Linked (F.Twin I look name h h') s₁ s₁' →
      K.Runs Eq (fun _ _ => True)
        ((pure ⟨F.nameOf h, w, scoring.metric, count, Batch.observedFields sample⟩ :
          Action (Session τ) Collection) s₁)
        ((pure ⟨F.nameOf h', w, scoring.metric, count, Batch.observedFields sample⟩ :
          Action (Session τ) Collection) s₁') := by
    intro w s₁ s₁' hs₁
    rw [C.named hs.servers.inv hs.servers.attach, C.named hs.servers.inv' hs.servers.attach']
    exact .ok rfl hs₁.any
  split
  · cases scoring.declared with
    | none => exact hlast hs
    | some w => exact (hs.recordWidth w).bind_same fun _ _ _ _ _ hs₁ => hlast hs₁
  · exact (C.resolve hs).bind_same fun _ _ _ _ _ hs₁ => hlast hs₁

theorem search (C : F.Confines I look) (hs : K.Linked (Both I) s s') (query : Query) :
    K.Runs Eq (fun _ _ => True) (F.search name query s) (F.search name query s') := by
  refine hs.ensureConnected_bind <| hs.check_bind fun _ _ => hs.check_bind fun compiled _ =>
    C.inspect_bind hs fun h h' scoring hs =>
      (C.resolve hs).bind_same fun dimension s₁ s₁' _ _ hs => ?_
  have hmetadata := C.metadataOf hs.servers
  refine (hs.embedding (by rw [hmetadata])
    (hs.discreet.asks_queryVectors K.isWatched _ query.input dimension)).bind_same
      fun vectors s₂ s₂' _ _ hs => ?_
  have hrank : ∀ total, K.Runs Eq (fun _ _ => True)
      ((do
        let found ← call (F.nearest h scoring (searchLimit compiled.residual query.k total)
          compiled.native vectors)
        pure (found.map fun hits => finishHits scoring.ranking hits compiled.residual query.k) :
        Action (Session τ) (List QueryResult)) s₂)
      ((do
        let found ← call (F.nearest h' scoring (searchLimit compiled.residual query.k total)
          compiled.native vectors)
        pure (found.map fun hits => finishHits scoring.ranking hits compiled.residual query.k) :
        Action (Session τ) (List QueryResult)) s₂') := fun total =>
    hs.ask_bind (C.reads.nearest h scoring _ _ vectors) (C.reads.nearest h' scoring _ _ vectors)
      (C.nearest hs.servers scoring _ _ vectors) fun found => .ok rfl hs.any
  split
  · exact hrank 0
  · exact hs.ask_bind (C.reads.size h) (C.reads.size h') (C.size hs.servers) hrank

/-! ### Listings -/

/-- What is held of the listing of an opened collection is what is fetched. -/
theorem heldOr_fetchListing {filter : Option Filter} {compiled : CompiledFilter Fragment}
    {h : Handle} (hs : s.UpToDate F.Finds) (hc : F.compiler.compile? filter = .ok compiled)
    (hattach : F.attach name s.server = (.ok h, s.server)) :
    s.heldOr (listingKey name filter) (F.fetchListing h compiled s).1 =
      (F.fetchListing h compiled s).1 := by
  refine hs.heldOr fun found hfinds => ?_
  obtain ⟨compiled', h', items, hc', hattach', hfetch, rfl⟩ := hfinds
  rw [hc] at hc'
  cases hc'
  obtain rfl := attach_unique hattach hattach'
  rw [fetchListing_fst, hfetch]
  rfl

theorem listItems (C : F.Confines I look) (hs : K.Linked (Both I) s s') (hsettled : F.Settled s)
    (hsettled' : F.Settled s') (request : PageRequest) (filter : Option Filter) :
    K.Runs Eq (Both I) (F.listItems name request filter s)
      (F.listItems name request filter s') := by
  refine hs.ensureConnected_bind <| hs.check_bind fun _ hvalid => hs.check_bind fun compiled hc =>
    C.attach_bind hs fun h h' hs => ?_
  have hboth : ∀ s s', K.Linked (F.Twin I look name h h') s s' → K.Linked (Both I) s s' :=
    fun _ _ hs => hs.imp ⟨hs.servers.inv, hs.servers.inv'⟩
  cases hcomplete : compiled.isComplete with
  | true =>
    rw [if_pos rfl, if_pos rfl]
    exact (hs.read (C.reads.readPage h _ _) (C.reads.readPage h' _ _)
      (C.readPage hs.servers _ _)).imp (fun _ _ h => h) hboth
  | false =>
    rw [if_neg Bool.false_ne_true, if_neg Bool.false_ne_true]
    have hfresh : ∀ {s : Session τ}, F.Settled s → s.UpToDate F.Finds := fun hsettled =>
      hsettled.resolve_left fun hall => by
        rw [hall hc] at hcomplete
        cases hcomplete
    refine (hs.materialized (PageRequest.validate_eq_ok_iff.1 hvalid)
      (leaves_fetchListing C.reads) (leaves_fetchListing C.reads) ?_
      (heldOr_fetchListing (hfresh hsettled) hc hs.servers.attach)
      (heldOr_fetchListing (hfresh hsettled') hc hs.servers.attach')).imp (fun _ _ h => h) hboth
    rw [fetchListing_fst, fetchListing_fst, C.fetchAll hs.servers]

/-- Finding the ids that a filter selects changes listings only. -/
theorem exists_listings (R : F.ReadsOnly) (name : String) (f : Filter) (ids : List String) (s : Session τ) :
    ∃ listings, (F.filteredIds name ids f s).2 = { s with listings } := by
  have hkeeps : ∀ request, Step.Keeps (fun s₁ => ∃ listings, s₁ = { s with listings })
      (F.listItems name request (some f)) := fun request =>
    lasts_listItems (by rintro _ listings ⟨_, rfl⟩; exact ⟨listings, rfl⟩) R name request (some f)
  exact lasts_filteredIds R hkeeps ids s ⟨s.listings, rfl⟩

/-- **A removal finds the same ids**, also when the walks that find them differ in what they may
cost. -/
theorem filteredIds {Held Row : Type} {V : Storage τ Held Row Fragment} {I' : τ → Prop}
    (C : F.Confines I look) (L : V.Lawful F I') (hs : K.Linked (Both I) s s')
    (hsettled : F.Settled s) (hsettled' : F.Settled s') {f : Filter}
    {compiled : CompiledFilter Fragment} (hc : F.compiler.compile f = .ok compiled)
    {ids : List String} (hpart : ids.isEmpty = true → compiled.isComplete = false) :
    K.Runs Eq (Both I) (F.filteredIds name ids f s) (F.filteredIds name ids f s') := by
  cases hids : ids.isEmpty with
  | false =>
    unfold Family.filteredIds
    rw [hids, if_neg Bool.false_ne_true]
    exact hs.check_bind fun _ _ => (C.getItems hs ids).then_pure fun _ _ h => by rw [h]
  | true =>
    obtain rfl := List.isEmpty_iff.1 hids
    have hcomplete := hpart rfl
    obtain ⟨listings, hleft⟩ := exists_listings C.reads name f [] s
    obtain ⟨listings', hright⟩ := exists_listings C.reads name f [] s'
    refine Comparison.Linked.runs (by rw [hleft, hright]; exact hs.relist listings listings') ?_
    -- the first page fetches the listing, and its ids are those of all that is fetched
    have hall : ∀ {s page s₁}, F.listItems name (.first PageRequest.defaultSize) (some f) s =
        (.ok page, s₁) → ∃ h items, F.attach name s.server = (.ok h, s.server) ∧
          (F.fetchAll h compiled.native s.server).1 = .ok items ∧
            (F.filteredIds name [] f s).1 = .ok ((compiled.postFilter items).map (·.id)) := by
      intro s page s₁ hfirst
      obtain ⟨hconn, -, h, hattach, hpage⟩ := (listItems_eq_ok_iff L hc).1 hfirst
      obtain ⟨items, hfetch⟩ := fetchAll_of_listing L hcomplete hpage
      obtain ⟨later, s₂, hfinds, -, -⟩ := findsIds_of_fetched hc hcomplete hconn hattach hfetch
      exact ⟨h, items, hattach, by rw [hfetch], by rw [hfinds.complete]⟩
    have hpair := C.listItems hs hsettled hsettled' (.first PageRequest.defaultSize) (some f)
    rcases hfirst : F.listItems name (.first PageRequest.defaultSize) (some f) s with
        ⟨e | page, s₁⟩ <;>
      rcases hfirst' : F.listItems name (.first PageRequest.defaultSize) (some f) s' with
        ⟨e' | page', s₁'⟩ <;>
      rw [hfirst, hfirst'] at hpair <;> cases hpair
    · rw [Family.filteredIds, if_pos hids, Step.bind_of_error hfirst, Step.bind_of_error hfirst']
      exact congrArg Except.error ‹e = e'›
    · obtain ⟨h, items, hattach, hfetch, hfound⟩ := hall hfirst
      obtain ⟨h', items', hattach', hfetch', hfound'⟩ := hall hfirst'
      have htwin : F.Twin I look name h h' s.server s'.server :=
        ⟨hs.servers.1, hs.servers.2, hs.same, hattach, hattach'⟩
      rw [C.fetchAll htwin, hfetch'] at hfetch
      cases hfetch
      rw [hfound, hfound']

/-! ### Changes -/

/-- What is done to an opened collection, before its listings are dropped. -/
theorem change {erase : Handle → Call τ Unit} (C : F.Confines I look)
    (hs : K.Linked (Both I) s s')
    (herase : ∀ {h h'}, F.Twin I look name h h' s.server s'.server →
      Step.Alike (Confined look name s.server s'.server) (erase h s.server)
        (erase h' s'.server)) :
    K.Runs Eq (fun _ _ => True)
      ((do
        let h ← call (F.attach name)
        call (erase h)
        dropListings name) s)
      ((do
        let h ← call (F.attach name)
        call (erase h)
        dropListings name) s') :=
  C.attach_bind hs fun _ _ hs => (hs.changeBy (herase hs.servers)).bind_same
    fun _ _ _ _ _ hs => hs.dropListings

theorem deleteIds (C : F.Confines I look) (hs : K.Linked (Both I) s s') (ids : List String) :
    K.Runs Eq (fun _ _ => True) (F.deleteIds name ids s) (F.deleteIds name ids s') := by
  unfold Family.deleteIds
  split
  · exact .ok rfl hs.any
  · exact C.change hs fun h => C.eraseIds h ids

theorem deleteItems {Held Row : Type} {V : Storage τ Held Row Fragment} {I' : τ → Prop}
    (C : F.Confines I look) (L : V.Lawful F I') (hs : K.Linked (Both I) s s')
    (hsettled : F.Settled s) (hsettled' : F.Settled s') (ids : List String)
    (filter : Option Filter) :
    K.Runs Eq (fun _ _ => True) (F.deleteItems name ids filter s)
      (F.deleteItems name ids filter s') := by
  refine hs.ensureConnected_bind ?_
  cases hselective : selective filter with
  | none => exact C.deleteIds hs ids
  | some f =>
    refine hs.check_bind fun compiled hc => ?_
    have hlisted : (ids.isEmpty = true → compiled.isComplete = false) →
        K.Runs Eq (fun _ _ => True)
          ((F.filteredIds name ids f >>= fun found => F.deleteIds name found) s)
          ((F.filteredIds name ids f >>= fun found => F.deleteIds name found) s') := fun hpart =>
      (C.filteredIds L hs hsettled hsettled' hc hpart).bind_same fun found _ _ _ _ hs =>
        C.deleteIds hs found
    cases hnative : compiled.native with
    | some native =>
      cases hwhole : ids.isEmpty && compiled.isComplete with
      | true => exact C.change hs fun h => C.eraseWhere h native
      | false => exact hlisted fun hids => by rwa [hids, Bool.true_and] at hwhole
    | none =>
      -- what the server evaluates whole has a fragment
      refine hlisted fun _ => eq_false_of_ne_true fun hcomplete => ?_
      obtain ⟨native, hsome⟩ :=
        FilterCompiler.native_of_isComplete hc hcomplete (SharesNames.isEmpty_of_selective hselective)
      rw [hnative] at hsome
      cases hsome

theorem addItems (C : F.Confines I look) (hs : K.Linked (Both I) s s') (items : List Item) :
    K.Runs Eq (fun _ _ => True) (F.addItems name items s) (F.addItems name items s') := by
  refine hs.ensureConnected_bind ?_
  split
  · exact .ok rfl hs.any
  refine hs.check_bind fun _ _ => hs.check_bind fun _ _ => C.attach_bind hs fun h h' hs =>
    (hs.embedding (by rw [C.metadataOf hs.servers])
      (hs.discreet.asks_embedMissing K.isWatched _ items)).bind_same fun batch s₁ s₁' _ _ hs =>
        hs.check_bind fun _ _ => (C.resolve hs).bind_same fun dimension s₂ s₂' _ _ hs =>
          hs.check_bind fun width _ => ?_
  -- whether the width is remembered or not, the write comes next
  have hlast : ∀ {s₃ s₃'}, K.Linked (F.Twin I look name h h') s₃ s₃' →
      K.Runs Eq (fun _ _ => True)
        ((do
          onServer (F.write h batch)
          dropListings name : Action (Session τ) Unit) s₃)
        ((do
          onServer (F.write h' batch)
          dropListings name : Action (Session τ) Unit) s₃') := fun hs =>
    (hs.change (C.write hs.servers batch)).bind_same fun _ _ _ _ _ hs => hs.dropListings
  cases width with
  | none => exact hlast hs
  | some w =>
    simp only
    split
    · exact (hs.recordWidth w).bind_same fun _ _ _ _ _ hs => hlast hs
    · exact hlast hs

theorem updateItems (C : F.Confines I look) (hs : K.Linked (Both I) s s')
    (updates : List ItemUpdate) :
    K.Runs Eq (fun _ _ => True) (F.updateItems name updates s)
      (F.updateItems name updates s') := by
  refine hs.ensureConnected_bind ?_
  split
  · exact .ok rfl hs.any
  · refine (C.getItems hs _).bind_same fun stored s₁ s₁' _ _ hs => ?_
    rw [Step.bind_of_ok (Step.get_apply s₁), Step.bind_of_ok (Step.get_apply s₁'),
      hs.named.context]
    exact hs.check_bind fun merged _ => C.addItems hs merged

theorem createCollection (C : F.Confines I look) (hs : K.Linked (Both I) s s') (width : Nat)
    (metric : Metric) :
    K.Runs Eq (fun _ _ => True) (F.createCollection name width metric s)
      (F.createCollection name width metric s') := by
  refine hs.ensureConnected_bind <| hs.check_bind fun _ _ => ?_
  rw [Step.bind_of_ok (Step.get_apply s), Step.bind_of_ok (Step.get_apply s'), hs.named.context]
  exact (hs.changeBy (C.create hs.servers.1 hs.servers.2 hs.same _ _ _)).bind_same
    fun _ _ _ _ _ hs => hs.recordWidth width

theorem dropCollection (C : F.Confines I look) (hs : K.Linked (Both I) s s') :
    K.Runs Eq (fun _ _ => True) (F.dropCollection name s) (F.dropCollection name s') :=
  hs.ensureConnected_bind <|
    (hs.changeBy (C.drop hs.servers.1 hs.servers.2 hs.same)).bind_same fun _ _ _ _ _ hs =>
      hs.forgetWidth.bind_same fun _ _ _ _ _ hs => hs.dropListings

/-! ### Every operation -/

/-- **Every operation of the family keeps to its collection.** -/
theorem isolates {Held Row : Type} {V : Storage τ Held Row Fragment} {I' : τ → Prop}
    {J : Session τ → Prop} {p : String → Bool} (C : F.Confines I look) (L : V.Lawful F I')
    (hkeeps : F.adapter.Keeps J fun _ => True) (hinv : ∀ {s}, J s → I s.server)
    (hsettled : ∀ {s}, J s → F.Settled s)
    (hping : ∀ t, ∃ u, F.ping t = (.ok u, t)) :
    F.adapter.Isolates J (Concordant look p) p := by
  have hrel : ∀ {name : String} {K : Comparison look name}, J K.left → J K.right →
      K.Linked (fun _ _ => True) K.left K.right → K.Linked (Both I) K.left K.right :=
    fun hleft hright h => h.imp ⟨hinv hleft, hinv hright⟩
  have hany : ∀ {name : String} {K : Comparison look name} {α : Type}
      {r r' : Result α × Session τ}, K.Runs Eq (Both I) r r' → K.Runs Eq (fun _ _ => True) r r' :=
    fun h => h.imp (fun _ _ h => h) fun _ _ h => h.any
  exact {
    keeps := hkeeps
    context := fun h => h.context
    connect := fun h => h.connect hping
    disconnect := fun h => h.disconnect
    listCollections := leaves_ensureConnected.bind fun _ => leaves_call C.reads.names
    createCollection := fun name width metric => isolated_of_runs fun K hl hr h =>
      C.createCollection (hrel hl hr h) width metric
    describe := fun name => isolated_of_runs fun K hl hr h =>
      C.describe (hrel hl hr h)
    addItems := fun name items => isolated_of_runs fun K hl hr h =>
      C.addItems (hrel hl hr h) items
    getItems := fun name ids => isolated_of_runs fun K hl hr h =>
      hany (C.getItems (hrel hl hr h) ids)
    listItems := fun name request filter => isolated_of_runs fun K hl hr h =>
      hany (C.listItems (hrel hl hr h) (hsettled hl) (hsettled hr) request filter)
    updateItems := fun name updates => isolated_of_runs fun K hl hr h =>
      C.updateItems (hrel hl hr h) updates
    deleteItems := fun name ids filter => isolated_of_runs fun K hl hr h =>
      C.deleteItems L (hrel hl hr h) (hsettled hl) (hsettled hr) ids filter
    dropCollection := fun name => isolated_of_runs fun K hl hr h =>
      C.dropCollection (hrel hl hr h)
    countItems := fun name => isolated_of_runs fun K hl hr h =>
      hany (C.countItems (hrel hl hr h))
    search := fun name query => isolated_of_runs fun K hl hr h =>
      C.search (hrel hl hr h) query
    metadata := fun name => isolated_of_runs fun K hl hr h =>
      C.metadata (hrel hl hr h) }

end Confines

end Family

end VectorBridge
