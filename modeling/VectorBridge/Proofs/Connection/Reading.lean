import VectorBridge.Proofs.Connection.Freshness
import VectorBridge.Proofs.Connection.RoundTrip
import VectorBridge.Proofs.Milvus.Search
import VectorBridge.Proofs.Rows
/-!
# One item, however it is read

An item is read by its id, on a page of a listing and as a hit of a search, and a page is
cut by the server or from a listing that was fetched whole. Each of these turns what is
stored into an item in a place of its own. What they show of a stored item is one item,
but for the reserved key: a hit is shown without it, and the other ways leave it to the
server, which takes it off where it keeps items under keys of its own and nowhere else.
-/

namespace VectorBridge

/-- Where ids are distinct an item is the only one of its id. -/
theorem Item.filter_id_eq {items : List Item} (hids : (items.map (·.id)).Nodup) {item : Item}
    (hitem : item ∈ items) : (items.filter fun other => [item.id].contains other.id) = [item] := by
  refine List.perm_singleton.1 ((List.perm_ext_iff_of_nodup ?_ (List.nodup_singleton item)).2 ?_)
  · exact (List.Nodup.of_map _ hids).filter _
  · intro other
    rw [List.mem_filter, List.contains_iff_mem, List.mem_singleton, List.mem_singleton]
    refine ⟨fun h => List.inj_on_of_nodup_map hids h.1 hitem h.2, ?_⟩
    rintro rfl
    exact ⟨hitem, rfl⟩

/-- A hit of a result is one that was found, without reserved metadata. -/
theorem exists_of_mem_finishHits {ranking : Ranking} {hits : List Hit} {residual : Filter}
    {k : Nat} {hit : Hit} (h : hit ∈ (finishHits ranking hits residual k).hits) :
    ∃ found ∈ hits, hit = found.shown := by
  rw [finishHits, QueryResult.ofHits, QueryResult.hits_ofSorted] at h
  have hmem := ranking.mem_of_mem_top _ ((ranking.sort_perm _ _).mem_iff.1 h)
  obtain ⟨found, hfound, rfl⟩ := List.mem_map.1 hmem
  exact ⟨found, (List.mem_filter.1 hfound).1, rfl⟩

/-- A page with room for a whole listing is the only one. -/
theorem Page.slice_of_le {found : List Item} {size : Nat} (h : found.length ≤ size) :
    Page.slice found 0 size = ⟨found, none⟩ := by
  rw [Page.slice, List.drop_zero, List.take_of_length_le h, Nat.zero_add, Nat.min_eq_right h,
    if_neg (Nat.lt_irrefl _)]

/-! ## Families that read back what is stored -/

section Family

variable {τ Held Row Handle Condition Fragment : Type}

/-- Every question that reads is answered with the items that are stored: one item by its
id, where `tells` says that ids are told apart; all that passes, in a page or at once, where
there is room for it; and hits that are among them. -/
structure Storage.ReadsBack (V : Storage τ Held Row Fragment)
    (F : Family τ Handle Condition Fragment) (I : τ → Prop) (tells : Held → Prop)
    (room : Nat → Prop) : Prop where
  lawful : V.Lawful F I
  fetch : ∀ {t name h held}, V.Opened F I t name h held → tells held →
    ∀ {item}, item ∈ V.items held → F.fetch h [item.id] t = (.ok [item], t)
  readPage : ∀ {t name h held}, V.Opened F I t name h held → ∀ {fragment size}, room size →
    (V.passing held fragment).length < size →
      F.readPage h fragment (.first size) t = (.ok ⟨V.passing held fragment, none⟩, t)
  fetchAll : ∀ {t name h held}, V.Opened F I t name h held → ∀ {fragment size}, room size →
    (V.passing held fragment).length < size →
      F.fetchAll h fragment t = (.ok (V.passing held fragment), t)
  nearest : ∀ {t name held}, I t → V.held? t (V.serverName name) = some held →
    ∀ {h scoring}, F.inspect name t = (.ok (h, scoring), t) → ∀ {limit fragment vectors found},
      F.nearest h scoring limit fragment vectors t = (.ok found, t) →
        ∀ hits ∈ found, ∀ hit ∈ hits, hit.item ∈ V.items held

/-- A hit of some items is one of them. -/
theorem mem_of_mem_hitsOf {score : Embedding → Float32} {items : List Item} {hit : Hit}
    (h : hit ∈ hitsOf score items) : hit.item ∈ items := by
  obtain ⟨item, hitem, hscored⟩ := List.mem_filterMap.1 h
  obtain ⟨e, -, rfl⟩ := Option.map_eq_some_iff.1 hscored
  exact hitem

theorem Storage.passing_subset (V : Storage τ Held Row Fragment) (held : Held)
    (fragment : Option Fragment) : V.passing held fragment ⊆ V.items held :=
  List.map_subset _ (List.filter_subset_self _)

/-- Where a storage is searched, what is found is stored there. -/
theorem Storage.Searches.mem_items {V : Storage τ Held Row Fragment}
    {F : Family τ Handle Condition Fragment} {I : τ → Prop} {ranking : Held → Ranking}
    {score : Held → Embedding → Embedding → Float32} {cut : Nat → Nat}
    (S : V.Searches F I ranking score cut) {t : τ} {name : String} {held : Held} (hI : I t)
    (hheld : V.held? t (V.serverName name) = some held) {h : Handle} {scoring : Scoring}
    (hinspect : F.inspect name t = (.ok (h, scoring), t)) {limit : Nat}
    {fragment : Option Fragment} {vectors : List Embedding} {found : List (List Hit)}
    (hfound : F.nearest h scoring limit fragment vectors t = (.ok found, t)) :
    ∀ hits ∈ found, ∀ hit ∈ hits, hit.item ∈ V.items held := by
  obtain ⟨h', scoring', hinspect', -, -, -, -, hnearest⟩ := S.opens hI hheld
  rw [hinspect] at hinspect'
  cases hinspect'
  rw [hnearest] at hfound
  cases hfound
  intro hits hhits hit hhit
  obtain ⟨v, -, rfl⟩ := List.mem_map.1 hhits
  have hscored := (ranking held).mem_of_mem_top _ hhit
  exact V.passing_subset held fragment (mem_of_mem_hitsOf hscored)

namespace Family

open Session

variable {V : Storage τ Held Row Fragment} {F : Family τ Handle Condition Fragment}
variable {I : τ → Prop} {tells : Held → Prop} {room : Nat → Prop} {s s' : Session τ}
variable {name : String} {h : Handle} {held : Held} {filter : Option Filter}
variable {compiled : CompiledFilter Fragment}

/-- **A listing that is read to its end shows what passes**, with a filter or without. -/
theorem drains_eq_passing (L : V.Lawful F I) (hI : I s.server) (hconn : s.connected = true)
    (hheld : V.held? s.server (V.serverName name) = some held) {sizes : List Nat}
    {items : List Item} (hdrain : Drains (F.listItems name · filter) none sizes s items s') :
    ∃ compiled, F.compiler.compile? filter = .ok compiled ∧
      items = compiled.postFilter (V.passing held compiled.native) := by
  cases filter with
  | none =>
    obtain ⟨h, hattach⟩ := L.attach_of_held hheld
    have hpages := drains_of_unfiltered L.reads hconn hattach hdrain
    refine ⟨⟨none, .empty⟩, rfl, ?_⟩
    rw [L.drains_readPage ⟨hI, hattach, hheld⟩ hpages]
    exact (List.filter_eq_self.2 fun _ _ => rfl).symm
  | some f =>
    obtain ⟨size, page, s₁, hfirst⟩ := hdrain.first
    obtain ⟨compiled, hc⟩ := compile_of_listItems hfirst
    obtain ⟨h, held', ho, hitems, -⟩ := drains_eq_matching L hI hc hdrain
    obtain rfl := Option.some.inj (ho.held.symm.trans hheld)
    exact ⟨compiled, hc, hitems⟩

/-- **A first page with room for all that passes is the only one.** -/
theorem listItems_of_short (B : V.ReadsBack F I tells room) (hconn : s.connected = true)
    (ho : V.Opened F I s.server name h held) (hcompiled : F.compiler.compile? filter = .ok compiled)
    {size : Nat} (hroom : room size) (hshort : (V.passing held compiled.native).length < size) :
    ∃ s', F.listItems name (.first size) filter s =
      (.ok ⟨compiled.postFilter (V.passing held compiled.native), none⟩, s') := by
  have hsize : 0 < size := Nat.zero_lt_of_lt hshort
  have hvalid : (PageRequest.first size).validate = .ok () :=
    PageRequest.validate_eq_ok_iff.2 hsize
  rw [listItems, ensureConnected_bind hconn, Action.ofResult_bind_of_ok hvalid,
    Action.ofResult_bind_of_ok hcompiled, Step.bind_of_ok (call_of_ok ho.attach)]
  split
  · rename_i hcomplete
    have hall : compiled.postFilter (V.passing held compiled.native) =
        V.passing held compiled.native :=
      List.filter_eq_self.2 fun item _ => by
        rw [Filter.accepts, List.isEmpty_iff.1 hcomplete, List.all_nil]
    rw [onServer_apply, B.readPage ho hroom hshort, hall]
    exact ⟨_, rfl⟩
  · have hfetch := fetch_apply (s := s) (B.fetchAll ho hroom hshort)
    have hle : (compiled.postFilter (V.passing held compiled.native)).length ≤ size :=
      Nat.le_trans (List.length_filter_le _ _) (Nat.le_of_lt hshort)
    rw [← Page.slice_of_le hle]
    exact ⟨_, materialized_first hsize hfetch⟩

/-- A search is answered with what the server found, finished by the client. -/
theorem results_of_search (R : F.ReadsOnly) {query : Query} {results : List QueryResult}
    (hsearch : F.search name query s = (.ok results, s')) :
    ∃ h scoring limit fragment vectors found residual k,
      F.inspect name s.server = (.ok (h, scoring), s.server) ∧
      F.nearest h scoring limit fragment vectors s.server = (.ok found, s.server) ∧
      results = found.map fun hits => finishHits scoring.ranking hits residual k := by
  rw [search, ensureConnected_bind_eq_ok_iff, Action.ofResult_bind_eq_ok_iff] at hsearch
  obtain ⟨-, -, -, hsearch⟩ := hsearch
  obtain ⟨compiled, -, hsearch⟩ := Action.ofResult_bind_eq_ok_iff.1 hsearch
  obtain ⟨⟨h, scoring⟩, s₁, hopen, hsearch⟩ := Step.bind_eq_ok_iff.1 hsearch
  obtain ⟨t, hinspect, rfl⟩ := call_eq_ok_iff.1 hopen
  obtain rfl : t = s.server := by rw [← R.inspect name s.server, hinspect]
  obtain ⟨d, s₂, hresolve, hsearch⟩ := Step.bind_eq_ok_iff.1 hsearch
  have hserver : s₂.server = s.server := by
    have huntouched := untouched_resolveWidth (R.declaredWidth h) (R.probedWidth h) (F.nameOf h) s
    rw [show s₂ = (F.resolve h s).2 by rw [hresolve]]
    exact huntouched.server
  obtain ⟨vectors, s₃, hembed, hsearch⟩ := Step.bind_eq_ok_iff.1 hsearch
  have hserver₃ : s₃.server = s.server := by
    obtain ⟨-, rfl⟩ := Prod.mk.inj hembed
    exact hserver
  have hrest : ∀ (total : Nat) {s₄ : Session τ}, s₄.server = s.server → (do
      let found ← call (F.nearest h scoring (searchLimit compiled.residual query.k total)
        compiled.native vectors)
      pure (found.map fun hits => finishHits scoring.ranking hits compiled.residual query.k) :
        Action (Session τ) (List QueryResult)) s₄ = (.ok results, s') →
      ∃ found, F.nearest h scoring (searchLimit compiled.residual query.k total) compiled.native
        vectors s.server = (.ok found, s.server) ∧ results =
          found.map fun hits => finishHits scoring.ranking hits compiled.residual query.k := by
    intro total s₄ hserver₄ hrun
    obtain ⟨found, s₅, hfound, hpure⟩ := Step.bind_eq_ok_iff.1 hrun
    obtain ⟨t', hnearest, rfl⟩ := call_eq_ok_iff.1 hfound
    rw [hserver₄] at hnearest
    obtain rfl : t' = s.server := by
      rw [← R.nearest h scoring (searchLimit compiled.residual query.k total) compiled.native
        vectors s.server, hnearest]
    cases hpure
    exact ⟨found, hnearest, rfl⟩
  -- whether the size is asked for or not, the server is left as it is
  split at hsearch
  · obtain ⟨found, hnearest, hresults⟩ := hrest 0 hserver₃ hsearch
    exact ⟨h, scoring, _, _, _, found, _, _, hinspect, hnearest, hresults⟩
  · obtain ⟨total, s₄, htotal, hnear⟩ := Step.bind_eq_ok_iff.1 hsearch
    obtain rfl : s₄ = s₃ := (congrArg Prod.snd htotal).symm.trans (leaves_call (R.size h) s₃)
    obtain ⟨found, hnearest, hresults⟩ := hrest total hserver₃ hnear
    exact ⟨h, scoring, _, _, _, found, _, _, hinspect, hnearest, hresults⟩

/-- **A hit is a stored item, without reserved metadata.** -/
theorem hit_of_search (B : V.ReadsBack F I tells room) (hI : I s.server)
    (hheld : V.held? s.server (V.serverName name) = some held) {query : Query}
    {results : List QueryResult} (hsearch : F.search name query s = (.ok results, s'))
    {result : QueryResult} (hresult : result ∈ results) {hit : Hit} (hhit : hit ∈ result.hits) :
    ∃ item ∈ V.items held, hit.item = item.stripReserved := by
  obtain ⟨h, scoring, limit, fragment, vectors, found, residual, k, hinspect, hnearest, rfl⟩ :=
    results_of_search B.lawful.reads hsearch
  obtain ⟨hits, hhits, rfl⟩ := List.mem_map.1 hresult
  obtain ⟨given, hgiven, rfl⟩ := exists_of_mem_finishHits hhit
  exact ⟨given.item, B.nearest hI hheld hinspect hnearest hits hhits given hgiven, rfl⟩

end Family

end Family

/-! ## What servers in memory answer -/

namespace Chroma

theorem readsBack :
    storage.ReadsBack (family (τ := Memory)) Memory.Numbered (fun _ => True) fun _ => True where
  lawful := lawful
  fetch := by
    intro m name h s ho _ item hitem
    have hids : (s.records.map (·.id)).Nodup := ho.inv.distinct _ _ ho.held
    have hitem : item ∈ s.records := by
      rw [← List.map_id s.records]
      exact hitem
    have hselect : s.select { Selection.all with ids := some [item.id] } = [item] := by
      rw [← Item.filter_id_eq hids hitem]
      exact List.filter_congr fun other _ => Bool.and_true _
    have hread := Call.toAction_eq_ok_iff.1
      (reading_of_opened ho fun s => s.select { Selection.all with ids := some [item.id] })
    rw [hselect] at hread
    exact hread
  readPage := by
    intro m name h s ho fragment size _ hshort
    refine Storage.pageAt_of_short (fun offset =>
      (Memory.reading h.id fun s => s.select
        { Selection.all with
          filter := fragment
          limit := some size
          offset := some offset }).toAction) id ?_ hshort
    rw [reading_of_opened ho, select_page_eq, List.drop_zero,
      List.take_of_length_le (Nat.le_of_lt hshort)]
    rfl
  fetchAll := by
    intro m name h s ho fragment size _ _
    rw [← select_eq]
    exact reading_of_opened ho _
  nearest := searches.mem_items

end Chroma

namespace Postgres

theorem readsBack : storage.ReadsBack family Memory.Ordered (fun _ => True) fun _ => True where
  lawful := lawful
  fetch := by
    intro m name h t ho _ item hitem
    cases ho.attach
    have hids := lawful.nodup ho.inv ho.held
    have hread : Memory.fetch name [item.id] m =
        (.ok ((storage.items t).filter fun other => [item.id].contains other.id), m) :=
      Call.toAction_eq_ok_iff.1 (reading_of_opened ho _)
    rw [Item.filter_id_eq hids hitem] at hread
    have horder : Batch.inOrderOf [item.id] [item] = [item] :=
      List.perm_singleton.1 (Batch.inOrderOf_perm _ _)
    exact (Step.bind_of_ok hread _).trans (congrArg (fun found => (Except.ok found, m)) horder)
  readPage := by
    intro m name h t ho fragment size _ hshort
    cases ho.attach
    refine Storage.pageAt_of_short (fun offset =>
      (Memory.reading name fun t => ((t.passing fragment).drop offset).take size).toAction)
      id ?_ hshort
    rw [reading_of_opened ho, passing_eq, List.drop_zero,
      List.take_of_length_le (Nat.le_of_lt hshort)]
    rfl
  fetchAll := by
    intro m name h t ho fragment size _ _
    cases ho.attach
    rw [← passing_eq]
    exact reading_of_opened ho _
  nearest _ := searches.mem_items trivial

end Postgres

namespace Qdrant

theorem readsBack : storage.ReadsBack family Memory.Faithful (fun _ => True) fun _ => True where
  lawful := lawful
  fetch := by
    intro m name h s ho _ item hitem
    cases ho.attach
    have hs : s.Faithful := ho.inv name s ho.held
    obtain ⟨⟨u, p⟩, hmem, rfl⟩ := List.mem_map.1 hitem
    have hkey : (uuidKey (storage.itemOf s (u, p)).id).1 = u := hs.mapped _ hmem
    have hpoint : Keyed.get? u s.points = some p := hs.ascending.get?_of_mem hmem
    refine (fetch_apply ho.held _).trans ?_
    rw [uuidsOf, List.map_singleton, hkey,
      List.filterMap_cons_some (f := fun u => Keyed.get? u s.points) hpoint]
    rfl
  readPage := by
    intro m name h s ho fragment size _ hshort
    cases ho.attach
    have hpage := readPage_of_marks ho.held (marks_none (s.passing fragment)) size
    rw [← passing_eq, List.length_map] at hshort
    rw [List.take_of_length_le (Nat.le_of_lt hshort),
      List.drop_of_length_le (Nat.le_of_lt hshort), passing_eq] at hpage
    exact hpage
  fetchAll := by
    intro m name h s ho fragment size _ _
    cases ho.attach
    rw [← passing_eq]
    exact reading_apply ho.held _
  nearest _ := searches.mem_items trivial

end Qdrant

namespace Weaviate

theorem readsBack :
    storage.ReadsBack (family (τ := Memory)) Memory.Faithful (fun _ => True) fun _ => True where
  lawful := lawful
  fetch := by
    intro m name c s ho _ item hitem
    obtain ⟨rfl, hname⟩ := opened_eq ho
    have hs : s.Faithful (className name) := ho.inv _ s ho.held
    obtain ⟨o, hmem, rfl⟩ := List.mem_map.1 hitem
    have hkey : (uuidKey (storage.itemOf s o).id).1 = o.id := hs.keyed o hmem
    have hfind := (find?_eq_some_iff hs).2 ⟨hmem, rfl⟩
    refine (getAll_apply ho.held _).trans ?_
    rw [uuidsOf, List.map_singleton, hkey, List.flatMap_singleton, hfind]
    rfl
  readPage := fun ho _ _ _ hshort => readPage_of_short ho (opened_eq ho).2 hshort
  fetchAll := fun ho fragment _ _ _ => fetchAll_of_opened ho (opened_eq ho).2 fragment
  nearest := fun hm hheld => searches.mem_items (fun name s hs => (hm name s hs).named) hheld

end Weaviate

namespace Milvus

variable {m : Memory} {name : String} {s : Stored} {c : Opened}

/-- Where keys are strings, an item that is there is fetched by its id. -/
theorem fetch_of_strings (ho : storage.Opened family Memory.Sound m name c s)
    (hkind : s.schema.idKind ≠ .integer) {row : Row} (hrow : row ∈ s.rows) :
    family.fetch c [(itemOf s.schema row).id] m = (.ok [itemOf s.schema row], m) := by
  have h : s.Sound := ho.inv name s ho.held
  obtain rfl := opened_eq ho
  have hselected : ((s.rows.filter
      (Expr.primaryIn s.schema.primaryField [.str (itemOf s.schema row).id]).holds).take 1).map
        (itemOf s.schema) = [itemOf s.schema row] := by
    have hsame : s.rows.filter
        (Expr.primaryIn s.schema.primaryField [.str (itemOf s.schema row).id]).holds =
          s.rows.filter fun other =>
            [(itemOf s.schema row).id].contains (itemOf s.schema other).id := by
      refine List.filter_congr fun other hother => ?_
      rw [← selects_of_ne_integer h.apart hkind (h.keys other hother), Schema.selects, idSelectors,
        if_pos hkind]
      simp
    have hfound := Item.filter_id_eq (lawful.nodup ho.inv ho.held) (List.mem_map_of_mem hrow)
    rw [Storage.items, List.filter_map] at hfound
    rw [hsame, List.map_take]
    exact congrArg (List.take 1) hfound
  have hselectors : idSelectors s.schema [(itemOf s.schema row).id] =
      [Expr.primaryIn s.schema.primaryField [.str (itemOf s.schema row).id]] := if_pos hkind
  have hasked := selectAll_apply (c := ⟨name, s.schema⟩) ho.held rfl (by decide : 1 ≤ window)
    (idSelectors s.schema [(itemOf s.schema row).id])
  rw [hselectors, List.flatMap_singleton, hselected] at hasked
  have horder : Batch.inOrderOf [(itemOf s.schema row).id] [itemOf s.schema row] =
      [itemOf s.schema row] := List.perm_singleton.1 (Batch.inOrderOf_perm _ _)
  rw [← hselectors] at hasked
  exact (Step.bind_of_ok hasked _).trans (congrArg (fun found => (Except.ok found, m)) horder)

theorem readsBack : storage.ReadsBack (family (τ := Memory)) Memory.Sound
    (fun s => s.schema.idKind = .integer → s.KeysApart) (· ≤ window) where
  lawful := lawful
  fetch := by
    intro m name c s ho hapart item hitem
    obtain ⟨row, hrow, rfl⟩ := List.mem_map.1 hitem
    by_cases hkind : s.schema.idKind = .integer
    · exact fetch_of_keysApart ho hkind (hapart hkind) hrow
    · exact fetch_of_strings ho hkind hrow
  readPage := fun ho _ _ hroom hshort => readPage_of_short ho hroom hshort
  fetchAll := by
    intro m name c s ho fragment size hroom hshort
    rw [fetchAll_of_opened ho, if_pos (Nat.lt_of_lt_of_le hshort hroom)]
  nearest := by
    intro m name s hm hs c scoring hinspect limit fragment vectors found hfound
    have hread : Memory.reading name Stored.schema m = (.ok s.schema, m) := by
      rw [Memory.reading, Call.read_apply, Memory.find?, show Keyed.get? name _ = _ from hs]
      rfl
    have hopen : (family (τ := Memory)).inspect name m = (.ok ((⟨name, s.schema⟩ : Opened),
        ⟨ranking s.schema.metric, s.schema.metric, s.schema.dimension⟩), m) :=
      Step.bind_of_ok (Step.bind_of_ok hread _) _
    rw [hopen] at hinspect
    cases hinspect
    have hall := searchAll_eq (c := ⟨name, s.schema⟩) hs rfl (min limit window) fragment vectors
    obtain ⟨hsame, -⟩ := Prod.mk.inj (hfound.symm.trans hall)
    cases hsame
    intro hits hhits hit hhit
    obtain ⟨v, -, rfl⟩ := List.mem_map.1 hhits
    have hscored := (ranking s.schema.metric).mem_of_mem_top _ hhit
    obtain ⟨row, hrow, hgiven⟩ := List.mem_filterMap.1 hscored
    obtain ⟨e, -, rfl⟩ := Option.map_eq_some_iff.1 hgiven
    exact List.mem_map_of_mem (List.mem_filter.1 hrow).1

end Milvus

namespace Columnar

open Session

variable {s s' : Session Memory} {name : String} {t : Table} {filter : Option Filter}

/-- What the client lets pass of a table that is there. -/
theorem passing_apply (hheld : Keyed.get? name s.server.tables = some t)
    (filter : Option Filter) :
    passing name filter s = (.ok (t.items.filter (filter.getD .empty).accepts), s) := by
  rw [passing, Step.bind_of_ok (call_read_eq_ok_iff.2 ⟨hheld, rfl⟩)]
  rfl

/-- A table that is read to its end shows what passes, with a filter or without. -/
theorem drains_eq_passing (hheld : Keyed.get? name s.server.tables = some t) {sizes : List Nat}
    {items : List Item} (hdrain : Drains (listItems name · filter) none sizes s items s') :
    checkFilter filter = .ok () ∧ items = t.items.filter (filter.getD .empty).accepts := by
  obtain ⟨size, page, s₁, hfirst⟩ := hdrain.first
  obtain ⟨-, -, hcheck, -⟩ := materialized_of_listItems hfirst
  have hpage : ∀ {request page s₁ s₂}, s₁.server = s.server →
      listItems name request filter s₁ = (.ok page, s₂) → s₁.connected = true ∧
        0 < request.size ∧ materialized (listingKey name filter) request (passing name filter) s₁ =
          (.ok page, s₂) := by
    intro request page s₁ s₂ _ hlist
    obtain ⟨hconn, hsize, -, hcut⟩ := materialized_of_listItems hlist
    exact ⟨hconn, hsize, hcut⟩
  exact ⟨hcheck, (drains_materialized hpage (passing_apply hheld filter) hdrain).1⟩

/-- A first page with room for all that passes is the only one. -/
theorem listItems_of_short (hconn : s.connected = true)
    (hheld : Keyed.get? name s.server.tables = some t) (hcheck : checkFilter filter = .ok ())
    {size : Nat} (hshort : t.items.length < size) :
    ∃ s', listItems name (.first size) filter s =
      (.ok ⟨t.items.filter (filter.getD .empty).accepts, none⟩, s') := by
  have hsize : 0 < (PageRequest.first size).size := Nat.zero_lt_of_lt hshort
  rw [listItems_eq_materialized hconn hsize hcheck, ← Page.slice_of_le
    (Nat.le_trans (List.length_filter_le _ _) (Nat.le_of_lt hshort))]
  exact ⟨_, materialized_first hsize (passing_apply hheld filter)⟩

/-- A hit is an item of the table, without reserved metadata. -/
theorem hit_of_search (hheld : Keyed.get? name s.server.tables = some t) {query : Query}
    {results : List QueryResult} (hsearch : search name query s = (.ok results, s'))
    {result : QueryResult} (hresult : result ∈ results) {hit : Hit} (hhit : hit ∈ result.hits) :
    ∃ item ∈ t.items, hit.item = item.stripReserved := by
  rw [search, ensureConnected_bind_eq_ok_iff, Action.ofResult_bind_eq_ok_iff] at hsearch
  obtain ⟨-, -, -, hsearch⟩ := hsearch
  obtain ⟨compiled, -, hsearch⟩ := Action.ofResult_bind_eq_ok_iff.1 hsearch
  obtain ⟨t', s₁, hread, hsearch⟩ := Step.bind_eq_ok_iff.1 hsearch
  obtain ⟨hheld', -⟩ := call_read_eq_ok_iff.1 hread
  obtain rfl := Option.some.inj (hheld'.symm.trans hheld)
  obtain ⟨d, s₂, -, hsearch⟩ := Step.bind_eq_ok_iff.1 hsearch
  obtain ⟨vectors, s₃, -, hpure⟩ := Step.bind_eq_ok_iff.1 hsearch
  cases hpure
  obtain ⟨v, -, rfl⟩ := List.mem_map.1 hresult
  obtain ⟨found, hfound, rfl⟩ := exists_of_mem_finishHits hhit
  obtain ⟨item, hitem, hscored⟩ := List.mem_filterMap.1 hfound
  obtain ⟨e, -, hscored⟩ := Option.bind_eq_some_iff.1 hscored
  split at hscored
  · cases hscored
    exact ⟨item, (List.mem_filter.1 hitem).1, rfl⟩
  · cases hscored

/-- An item of a table is read by its id, alone. -/
theorem getItems_of_mem (hconn : s.connected = true)
    (hheld : Keyed.get? name s.server.tables = some t) (ht : t.Distinct) {item : Item}
    (hitem : item ∈ t.items) : getItems name [item.id] s = (.ok [item], s) := by
  have hread : call (Store.read name) s = (.ok t, s) := call_read_eq_ok_iff.2 ⟨hheld, rfl⟩
  have hfind : (t.items.find? fun other => other.id = item.id) = some item := by
    have hfound := Item.filter_id_eq ht.nodup_items hitem
    rw [← List.head?_filter]
    simpa using congrArg List.head? hfound
  rw [getItems, ensureConnected_bind hconn, Step.bind_of_ok hread,
    List.filterMap_cons_some (f := fun id => t.items.find? fun other => other.id = id) hfind]
  rfl

end Columnar

/-! ## Connections -/

namespace Holding

/-- Whether a page may have as many items as asked for. -/
def RoomFor : Holding → Nat → Prop
  | milvus _, size => size ≤ Milvus.window
  | chroma _, _ | qdrant _, _ | postgres _, _ | weaviate _, _ | table _, _ => True

/-- A table is filtered by the client. -/
theorem pushDown_table (t : Columnar.Table) (filter : Option Filter) :
    (table t).pushDown filter =
      (Columnar.checkFilter filter).map fun _ => (t.items, filter.getD .empty) := by
  rw [pushDown, Columnar.compile?_eq]
  cases Columnar.checkFilter filter <;> rfl

end Holding

/-- What is not there is not taken out. -/
theorem Keyed.erase_of_get?_eq_none {κ α : Type} [DecidableEq κ] {k : κ} {m : Keyed κ α}
    (h : Keyed.get? k m = none) : Keyed.erase k m = m := by
  induction m with
  | nil => rfl
  | cons e rest ih =>
    obtain ⟨k', v⟩ := e
    rw [get?_cons] at h
    split at h
    · cases h
    · rename_i hne
      rw [erase, if_neg hne, ih h]

/-- Only what has the reserved key changes when it is taken off. -/
theorem Item.stripReserved_eq_iff {item : Item} :
    item.stripReserved = item ↔ Metadata.Plain item.metadata := by
  constructor
  · intro h
    rw [← h]
    exact Keyed.get?_erase_self _ _
  · intro hplain
    rw [stripReserved, Keyed.erase_of_get?_eq_none hplain]

namespace Connection

/-- What the ways of reading a collection show of an item that it holds. -/
structure ShowsAlike (c : Connection) (name : String) (h : Holding) (item : Item) : Prop where
  /-- A read by its id finds it, alone. -/
  fetched : getItems name [item.id] c = (.ok [item], c)
  /-- A listing that is read to its end shows what passes both parts of its filter, and of
  the item's id the item only. -/
  listed : ∀ {filter sizes items c'}, Drains (listItems name · filter) none sizes c items c' →
    (∃ passing residual, h.pushDown filter = .ok (passing, residual) ∧
      items = passing.filter residual.accepts) ∧ (filter = none → item ∈ items) ∧
      ∀ shown ∈ items, shown.id = item.id → shown = item
  /-- And the end is reached, in one page where there is room for what passes. -/
  ends : ∀ {filter passing residual size}, h.pushDown filter = .ok (passing, residual) →
    h.RoomFor size → passing.length < size → ∃ c',
      Drains (listItems name · filter) none [size] c (passing.filter residual.accepts) c'
  /-- A hit of the item's id is the item without the reserved key. -/
  found : ∀ {query results c'}, search name query c = (.ok results, c') →
    ∀ result ∈ results, ∀ hit ∈ result.hits, hit.item.id = item.id →
      hit.item = item.stripReserved

section Family

variable {τ Held Row Handle Condition Fragment : Type} {V : Storage τ Held Row Fragment}
variable {F : Family τ Handle Condition Fragment} {I : τ → Prop} {tells : Held → Prop}
variable {room : Nat → Prop} {mk : Session τ → Connection} {inj : Held → Holding}

/-- What a connection shows of an item is what its session shows. -/
theorem showsAlike_of_family (W : WrapsSearch V F mk inj) (Y : WrapsById V F mk inj)
    (B : V.ReadsBack F I tells room) {s : Session τ} (hI : I s.server)
    (hconn : Managed.isConnected (mk s) = true) {name : String} {h : Holding}
    (hheld : (mk s).holding? ((mk s).serverName name) = some h)
    (htells : ∀ held, inj held = h → tells held)
    (hroom : ∀ held size, (inj held).RoomFor size → room size) {item : Item}
    (hitem : item ∈ h.items) : (mk s).ShowsAlike name h item := by
  rw [W.isConnected] at hconn
  rw [W.serverName, W.holding?] at hheld
  obtain ⟨held, hstored, rfl⟩ := Option.map_eq_some_iff.1 hheld
  rw [W.items] at hitem
  obtain ⟨handle, hattach⟩ := B.lawful.attach_of_held hstored
  have ho : V.Opened F I s.server name handle held := ⟨hI, hattach, hstored⟩
  have hids := B.lawful.nodup hI hstored
  have hlist : ∀ filter request s, listItems name request filter (mk s) =
      (F.listItems name request filter s).map id mk := fun filter request s => W.list _ _ _ s
  constructor
  · rw [Y.get, Family.getItems_of_fetch hconn hattach (B.fetch ho (htells held rfl) hitem) nofun]
    rfl
  · intro filter sizes items c' hdrain
    obtain ⟨s', -, hdrain⟩ := hdrain.of_lift (hlist filter)
    obtain ⟨compiled, hcompiled, rfl⟩ :=
      Family.drains_eq_passing B.lawful hI hconn hstored hdrain
    refine ⟨⟨_, _, by rw [W.pushDown, hcompiled]; rfl, rfl⟩, ?_, fun shown hshown hid => ?_⟩
    · rintro rfl
      cases hcompiled
      have hall : item ∈ V.passing held none := by rwa [V.passing_none]
      exact List.mem_filter.2 ⟨hall, rfl⟩
    · have hmem := V.passing_subset held compiled.native (List.mem_filter.1 hshown).1
      exact List.inj_on_of_nodup_map hids hmem hitem hid
  · intro filter passing residual size hfilter hfits hshort
    rw [W.pushDown] at hfilter
    cases hcompiled : F.compiler.compile? filter with
    | error e =>
      rw [hcompiled] at hfilter
      cases hfilter
    | ok compiled =>
      rw [hcompiled] at hfilter
      cases hfilter
      obtain ⟨s', hpage⟩ :=
        Family.listItems_of_short B hconn ho hcompiled (hroom held size hfits) hshort
      exact ⟨mk s', (Drains.single hpage).lift (hlist filter)⟩
  · intro query results c' hsearch result hresult hit hhit hid
    rw [W.search] at hsearch
    obtain ⟨hok, -⟩ := Prod.mk.inj hsearch
    obtain ⟨given, hgiven, hshown⟩ :=
      Family.hit_of_search B hI hstored (Prod.ext hok rfl) hresult hhit
    rw [hshown] at hid
    rw [hshown, List.inj_on_of_nodup_map hids hgiven hitem hid]

end Family

theorem wrapsById_chroma : WrapsById Chroma.storage Chroma.family chroma .chroma :=
  { wraps_chroma with }

theorem wrapsById_postgres : WrapsById Postgres.storage Postgres.family postgres .postgres :=
  { wraps_postgres with }

/-- What a connection to tables shows of an item. -/
theorem showsAlike_of_table {s : Session Columnar.Memory} (hs : s.server.Distinct)
    (hconn : s.connected = true) {name : String} {t : Columnar.Table}
    (hheld : Keyed.get? name s.server.tables = some t) {item : Item} (hitem : item ∈ t.items) :
    (tables s).ShowsAlike name (.table t) item := by
  have hids := (hs name t hheld).nodup_items
  have hlist : ∀ filter request s, listItems name request filter (tables s) =
      (Columnar.listItems name request filter s).map id tables := fun _ _ _ => rfl
  constructor
  · exact congrArg (Prod.map id tables)
      (Columnar.getItems_of_mem hconn hheld (hs name t hheld) hitem)
  · intro filter sizes items c' hdrain
    obtain ⟨s', -, hdrain⟩ := hdrain.of_lift (hlist filter)
    obtain ⟨hcheck, rfl⟩ := Columnar.drains_eq_passing hheld hdrain
    refine ⟨⟨_, _, by rw [Holding.pushDown_table, hcheck]; rfl, rfl⟩, ?_,
      fun shown hshown hid => ?_⟩
    · rintro rfl
      exact List.mem_filter.2 ⟨hitem, rfl⟩
    · exact List.inj_on_of_nodup_map hids (List.mem_filter.1 hshown).1 hitem hid
  · intro filter passing residual size hfilter _ hshort
    rw [Holding.pushDown_table] at hfilter
    cases hcheck : Columnar.checkFilter filter with
    | error e =>
      rw [hcheck] at hfilter
      cases hfilter
    | ok u =>
      rw [hcheck] at hfilter
      cases hfilter
      obtain ⟨s', hpage⟩ := Columnar.listItems_of_short hconn hheld hcheck hshort
      exact ⟨tables s', (Drains.single hpage).lift (hlist filter)⟩
  · intro query results c' hsearch result hresult hit hhit hid
    have hrun : (Columnar.search name query s).map id tables = (.ok results, c') := hsearch
    obtain ⟨hok, -⟩ := Prod.mk.inj hrun
    obtain ⟨given, hgiven, hshown⟩ := Columnar.hit_of_search hheld (Prod.ext hok rfl) hresult hhit
    rw [hshown] at hid
    rw [hshown, List.inj_on_of_nodup_map hids hgiven hitem hid]

/-- Servers that keep items under their own ids satisfy their invariant whatever the
metadata of the items. -/
theorem Used.sound_of_own {c : Connection} (h : c.Used) (hmaps : c.mapsIds = false) : c.Sound := by
  induction h with
  | fresh h => exact h.sound
  | @resolving c r h ih =>
    cases c with
    | qdrant | milvus | weaviate => cases hmaps
    | _ => exact ih rfl
  | @perform c call h ih =>
    have hany : call.Admissible fun _ => True := call.admissible_of_forall fun _ => trivial
    cases c with
    | chroma s => exact (Family.keeps Chroma.readsOnly Chroma.guards).perform hany s (ih rfl)
    | postgres s => exact (Family.keeps Postgres.readsOnly Postgres.guards).perform hany s (ih rfl)
    | tables s => exact Columnar.keeps.perform hany s (ih rfl)
    | qdrant | milvus | weaviate => cases hmaps
    | chromaRest | milvusRest | weaviateRest | directory | unsteady => exact (ih rfl).elim

theorem Used.sound {c : Connection} (h : c.Used) (hreached : c.mapsIds = true → c.Reached) :
    c.Sound := by
  cases hmaps : c.mapsIds with
  | true => exact (hreached hmaps).sound
  | false => exact h.sound_of_own hmaps

/-- **A stored item is shown as one item, however it is read, but for the reserved key.** Take
any connection that calls have led to, where those to servers that keep items under keys of
their own were called without metadata under the reserved key. An item of a collection there
is found by its id, alone; a listing that is read to its end, with a filter or without,
shows what passes and nothing else under the item's id; and a hit of its id is the item
without the reserved key. So all three are equal exactly when the item's metadata leaves the
reserved key alone, and on servers with keys of their own it always does. Only where keys
are integers is it asked that they are apart. -/
theorem item_shown_alike {c : Connection} (hc : c.Used) (hreached : c.mapsIds = true → c.Reached)
    (hconn : Managed.isConnected c = true) {name : String} {h : Holding}
    (hheld : c.holding? (c.serverName name) = some h)
    (hkeys : h.integerKeyed = true → h.KeysApart) {item : Item} (hitem : item ∈ h.items) :
    c.ShowsAlike name h item ∧ (c.mapsIds = true → Metadata.Plain item.metadata) ∧
      (item.stripReserved = item ↔ Metadata.Plain item.metadata) := by
  have hsound := hc.sound hreached
  refine ⟨?_, ?_, Item.stripReserved_eq_iff⟩
  · cases c with
    | chroma s =>
      exact showsAlike_of_family wrapsSearch_chroma wrapsById_chroma Chroma.readsBack hsound hconn
        hheld (fun _ _ => trivial) (fun _ _ _ => trivial) hitem
    | qdrant s =>
      exact showsAlike_of_family wrapsSearch_qdrant wrapsById_qdrant Qdrant.readsBack hsound hconn
        hheld (fun _ _ => trivial) (fun _ _ _ => trivial) hitem
    | postgres s =>
      exact showsAlike_of_family wrapsSearch_postgres wrapsById_postgres Postgres.readsBack hsound
        hconn hheld (fun _ _ => trivial) (fun _ _ _ => trivial) hitem
    | weaviate s =>
      exact showsAlike_of_family wrapsSearch_weaviate wrapsById_weaviate Weaviate.readsBack hsound
        hconn hheld (fun _ _ => trivial) (fun _ _ _ => trivial) hitem
    | milvus s =>
      refine showsAlike_of_family wrapsSearch_milvus wrapsById_milvus Milvus.readsBack hsound hconn
        hheld (fun held hsame hkind => ?_) (fun _ _ hfits => hfits) hitem
      subst hsame
      exact hkeys (decide_eq_true hkind)
    | tables s =>
      have hstored : (Keyed.get? name s.server.tables).map Holding.table = some h := hheld
      obtain ⟨t, hget, rfl⟩ := Option.map_eq_some_iff.1 hstored
      exact showsAlike_of_table hsound hconn hget hitem
    | chromaRest | milvusRest | weaviateRest | directory | unsteady => cases hheld
  · intro hmaps
    cases c with
    | qdrant s =>
      obtain ⟨held, -, rfl⟩ := Option.map_eq_some_iff.1 hheld
      obtain ⟨e, -, rfl⟩ := List.mem_map.1 hitem
      exact IdKind.plain_recover _ _
    | weaviate s =>
      obtain ⟨held, -, rfl⟩ := Option.map_eq_some_iff.1 hheld
      obtain ⟨o, -, rfl⟩ := List.mem_map.1 hitem
      exact IdKind.plain_recover _ _
    | milvus s =>
      obtain ⟨held, -, rfl⟩ := Option.map_eq_some_iff.1 hheld
      obtain ⟨row, -, rfl⟩ := List.mem_map.1 hitem
      exact Milvus.plain_itemOf _ _
    | chroma | chromaRest | postgres | milvusRest | weaviateRest | tables | directory
    | unsteady => cases hmaps

/-- Two items under integer keys, a number and a name. -/
def holdingNoted : Connection :=
  (perform (.addItems "docs" [noted "7" none 1, noted "doc_5" (some "words") 2])
    integerKeyed.prepared).2

/-- The name, which is kept beside its key, is shown alike. -/
theorem item_shown_alike_of_name :
    ∃ h item, holdingNoted.Used ∧ holdingNoted.mapsIds = true ∧ holdingNoted.Reached ∧
      Managed.isConnected holdingNoted = true ∧
      holdingNoted.holding? (holdingNoted.serverName "docs") = some h ∧ h.integerKeyed = true ∧
      h.KeysApart ∧ item ∈ h.items ∧ item.id = "doc_5" ∧ item.embedding.isSome = true ∧
      holdingNoted.ShowsAlike "docs" h item ∧ item.stripReserved = item := by
  let items : List Item := [noted "7" none 1, noted "doc_5" (some "words") 2]
  have hplain : AdapterCall.Admissible Metadata.Plain (.addItems "docs" items) := by
    intro item hitem
    rcases List.mem_pair.1 hitem with rfl | rfl <;> rfl
  have hreached : holdingNoted.Reached := .perform hplain fresh_integerKeyed.prepared
  have hused : holdingNoted.Used := .perform _ fresh_integerKeyed.used_prepared
  have hmaps : holdingNoted.mapsIds = true := by decide +kernel
  have hconn : Managed.isConnected holdingNoted = true := by decide +kernel
  have hfacts : ((holdingNoted.holding? (holdingNoted.serverName "docs")).map fun h =>
      (h.integerKeyed, h.smallKeys, h.items.map fun item => (item.id, item.embedding.isSome))) =
      some (true, true, [("7", true), ("doc_5", true)]) := by decide +kernel
  obtain ⟨h, hheld, hfacts⟩ := Option.map_eq_some_iff.1 hfacts
  obtain ⟨hinteger, hrest⟩ := Prod.mk.inj hfacts
  obtain ⟨hsmall, hids⟩ := Prod.mk.inj hrest
  have hapart := Holding.keysApart_of_smallKeys hsmall
  have hthere : ("doc_5", true) ∈ h.items.map fun item => (item.id, item.embedding.isSome) := by
    rw [hids]
    exact List.mem_cons_of_mem _ List.mem_cons_self
  obtain ⟨item, hitem, heq⟩ := List.mem_map.1 hthere
  obtain ⟨hid, hvector⟩ := Prod.mk.inj heq
  obtain ⟨hshows, hbare, hiff⟩ :=
    item_shown_alike hused (fun _ => hreached) hconn hheld (fun _ => hapart) hitem
  exact ⟨h, item, hused, hmaps, hreached, hconn, hheld, hinteger, hapart, hitem, hid, hvector,
    hshows, hiff.2 (hbare hmaps)⟩

/-! ## An item with a text under the reserved key -/

/-- An item whose metadata has the reserved key and another. -/
def marking : Item :=
  ⟨"a", none, [(givenIdKey, .str "b"), ("n", .num (.int 1))], some [Metric.one]⟩

/-- A connection after it is made ready and has the item added. -/
def holdingMarking (c : Connection) : Connection :=
  (perform (.addItems "docs" [marking]) c.prepared).2

/-- The metadata keys that a read by id, a listing and a search show. -/
def keysShown (c : Connection) : Option (List (List String × List (List String))) := do
  let found ← (getItems "docs" ["a"] c).1.toOption
  let page ← (listItems "docs" (.first 2) none c).1.toOption
  let results ← (search "docs" ⟨.vectors [[Metric.one]], 1, none⟩ c).1.toOption
  let keys (items : List Item) := items.map fun item => Keyed.keys item.metadata
  let ids (items : List Item) := items.map (·.id)
  let hits := results.flatMap fun result => result.hits.map (·.item)
  pure [(ids found, keys found), (ids page.items, keys page.items), (ids hits, keys hits)]

/-- A read by id and a listing show the reserved key of an item, and a search shows the item
without it. -/
structure ShowsReserved (c : Connection) : Prop where
  used : c.Used
  maps : c.mapsIds = false
  shown : c.keysShown = some [(["a"], [[givenIdKey, "n"]]), (["a"], [[givenIdKey, "n"]]),
    (["a"], [["n"]])]

/-- So it is where items are kept under their own ids: the reserved key comes back to the
caller, and one item has two forms. -/
theorem reserved_key_shown :
    (chroma (.start .empty .empty)).holdingMarking.ShowsReserved ∧
      (postgres (.start .empty .empty)).holdingMarking.ShowsReserved ∧
      (tables (.start .empty .empty)).holdingMarking.ShowsReserved := by
  refine ⟨⟨.perform _ (Fresh.chroma _).used_prepared, ?_, ?_⟩,
    ⟨.perform _ (Fresh.postgres _).used_prepared, ?_, ?_⟩,
    ⟨.perform _ (Fresh.tables _).used_prepared, ?_, ?_⟩⟩
  all_goals decide +kernel

end Connection

end VectorBridge
