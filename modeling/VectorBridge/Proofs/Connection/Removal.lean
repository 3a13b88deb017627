import VectorBridge.Proofs.Connection.Holding
/-!
# Removing what a connection lists

Whatever the server, and whichever way listings and removals are done there, a
removal by filter takes what the listing under the filter shows. The exception
are integer keys of a Milvus server: where a filter is not evaluated there whole,
the items that are found are removed by key, and with them those that the server
takes for them.
-/

namespace VectorBridge

namespace Holding

/-- The items that a removal of the items found under a filter takes as well. -/
def mistaken (f : Filter) (found : List Item) : Holding → List Item
  | milvus s =>
    match Milvus.filterCompiler.compile f with
    | .ok compiled => if compiled.isComplete then [] else s.mistaken found
    | .error _ => []
  | _ => []

/-- What is mistaken is there, and was not found. -/
theorem of_mem_mistaken {h : Holding} {f : Filter} {found : List Item} {item : Item}
    (hitem : item ∈ h.mistaken f found) : item ∈ h.items ∧ item.id ∉ found.map (·.id) := by
  cases h with
  | milvus s =>
    rw [mistaken] at hitem
    split at hitem
    · split at hitem
      · cases hitem
      · rw [Milvus.Stored.mistaken] at hitem
        split at hitem
        · obtain ⟨row, hrow, rfl⟩ := List.mem_map.1 hitem
          obtain ⟨hmem, hboth⟩ := List.mem_filter.1 hrow
          have hunseen := (Bool.and_eq_true_iff.1 hboth).2
          refine ⟨List.mem_map_of_mem hmem, fun hseen => ?_⟩
          rw [List.contains_iff_mem.2 hseen] at hunseen
          cases hunseen
        · cases hitem
    · cases hitem
  | chroma | qdrant | postgres | weaviate | table => cases hitem

/-- A collection lacks the items that were found, and no others, exactly when
nothing is mistaken for them. -/
theorem without_mistaken_eq_iff {h : Holding} {f : Filter} {found : List Item} :
    h.without (found ++ h.mistaken f found) = h.without found ↔ h.mistaken f found = [] := by
  constructor
  · intro heq
    rw [List.eq_nil_iff_forall_not_mem]
    intro item hitem
    obtain ⟨hthere, hunseen⟩ := of_mem_mistaken hitem
    -- a mistaken item would be left when the items found alone are removed
    have hleft : item ∈ (h.without found).items := by
      rw [items_without, List.mem_filter, List.contains_eq_mem, decide_eq_false hunseen]
      exact ⟨hthere, rfl⟩
    rw [← heq, items_without, List.mem_filter, List.map_append] at hleft
    have hgone := List.mem_append_right (found.map (·.id))
      (List.mem_map_of_mem (f := Item.id) hitem)
    rw [List.contains_iff_mem.2 hgone] at hleft
    exact Bool.false_ne_true hleft.2
  · intro hnone
    rw [hnone, List.append_nil]

end Holding

namespace Connection

/-! ## Sessions of a family -/

section Family

variable {τ Held Row Handle Condition Fragment : Type} {V : Storage τ Held Row Fragment}
variable {F : Family τ Handle Condition Fragment} {I : τ → Prop} {plain : Metadata → Prop}
variable {mk : Session τ → Connection} {inj : Held → Holding}

/-- The sessions of a family are the connections of a kind: the one is the other
by definition. -/
structure Wraps (V : Storage τ Held Row Fragment) (F : Family τ Handle Condition Fragment)
    (mk : Session τ → Connection) (inj : Held → Holding) : Prop where
  list : ∀ name request filter s,
    listItems name request filter (mk s) = (F.listItems name request filter s).map id mk := by
      intros; rfl
  delete : ∀ name ids filter s,
    deleteItems name ids filter (mk s) = (F.deleteItems name ids filter s).map id mk := by
      intros; rfl
  serverName : ∀ s name, (mk s).serverName name = V.serverName name := by intros; rfl
  holding? : ∀ s name, (mk s).holding? name = (V.held? s.server name).map inj := by intros; rfl
  items : ∀ held, (inj held).items = V.items held := by intros; rfl
  without : ∀ held gone, (inj held).without gone = inj (V.without held gone) := by intros; rfl

theorem wraps_chroma : Wraps Chroma.storage Chroma.family chroma .chroma := {}

theorem wraps_qdrant : Wraps Qdrant.storage Qdrant.family qdrant .qdrant := {}

theorem wraps_postgres : Wraps Postgres.storage Postgres.family postgres .postgres := {}

theorem wraps_milvus : Wraps Milvus.storage Milvus.family milvus .milvus := {}

theorem wraps_weaviate : Wraps Weaviate.storage Weaviate.family weaviate .weaviate := {}

variable {name : String} {f : Filter} {sizes : List Nat} {items : List Item}

/-- What a drain shows of a connection, and a removal leaves there. -/
def Complement (name : String) (f : Filter) (items : List Item) (c c' : Connection) : Prop :=
  ∃ h : Holding, items.Sublist h.items ∧ (h.items.map (·.id)).Nodup ∧
    Removed (listItems name · (some f)) holding? c c' (c.serverName name) h
      (h.without (items ++ h.mistaken f items))

theorem complement_of_family (W : Wraps V F mk inj) (L : V.Lawful F I) (G : F.Guards I plain)
    {s : Session τ} (hI : I s.server)
    (hmistaken : ∀ {held compiled}, V.held? s.server (V.serverName name) = some held →
      F.compiler.compile f = .ok compiled →
        (inj held).mistaken f (V.matching held compiled) = V.mistaken held compiled)
    {c₁ c₂ : Connection} (hf : f.isEmpty = false)
    (hdrain : Drains (listItems name · (some f)) none sizes (mk s) items c₁)
    (hdel : deleteItems name [] (some f) c₁ = (.ok (), c₂)) :
    Complement name f items (mk s) c₂ := by
  have hlist : ∀ request s, listItems name request (some f) (mk s) =
      (F.listItems name request (some f) s).map id mk := fun request s => W.list _ _ _ s
  -- the drain and the removal are those of the session inside
  obtain ⟨s₁, rfl, hshown⟩ := hdrain.of_lift hlist
  rw [W.delete] at hdel
  cases hrun : F.deleteItems name [] (some f) s₁ with
  | mk r s₂ =>
  rw [hrun] at hdel
  cases hdel
  obtain ⟨compiled, held, hc, rfl, hremoved⟩ := Family.removed_of_drain L G hI hf hshown hrun
  refine ⟨inj held, ?_, ?_, ?_⟩
  · rw [W.items]
    exact Family.matching_sublist V held compiled
  · rw [W.items]
    exact L.nodup hI hremoved.before
  · rw [W.serverName, W.without, hmistaken hremoved.before hc]
    exact hremoved.lift hlist W.holding?

end Family

/-- **A removal by filter is the complement of the listing.** -/
theorem Sound.complement {c c₁ c₂ : Connection} (h : c.Sound) {name : String} {f : Filter}
    (hf : f.isEmpty = false) {sizes : List Nat} {items : List Item}
    (hdrain : Drains (listItems name · (some f)) none sizes c items c₁)
    (hdel : deleteItems name [] (some f) c₁ = (.ok (), c₂)) : Complement name f items c c₂ := by
  cases c with
  | chroma s =>
    refine complement_of_family wraps_chroma Chroma.lawful Chroma.guards h (fun _ _ => ?_) hf
      hdrain hdel
    exact (Family.mistaken_of_exact fun _ _ _ _ hsel => List.contains_iff_mem.1 hsel).symm
  | qdrant s =>
    refine complement_of_family wraps_qdrant Qdrant.lawful Qdrant.guards h (fun hheld _ => ?_) hf
      hdrain hdel
    exact (Family.mistaken_of_exact fun _ hitems _ hrow hsel =>
      Qdrant.mem_of_selects (h _ _ hheld) hitems hrow hsel).symm
  | postgres s =>
    refine complement_of_family wraps_postgres Postgres.lawful Postgres.guards h (fun hheld _ => ?_)
      hf hdrain hdel
    exact (Family.mistaken_of_exact fun _ _ _ hrow hsel =>
      Postgres.mem_of_selects (h _ _ hheld) hrow hsel).symm
  | milvus s =>
    refine complement_of_family wraps_milvus Milvus.lawful Milvus.guards h (fun hheld hc => ?_) hf
      hdrain hdel
    rw [Holding.mistaken, show Milvus.filterCompiler.compile f = _ from hc]
    simp only
    split
    · rename_i hcomplete
      exact (Family.mistaken_of_complete hcomplete).symm
    · rename_i hcomplete
      exact (Milvus.mistaken_eq (h _ _ hheld) (Bool.eq_false_iff.2 hcomplete)).symm
  | weaviate s =>
    refine complement_of_family wraps_weaviate Weaviate.lawful Weaviate.guards h (fun hheld _ => ?_)
      hf hdrain hdel
    exact (Family.mistaken_of_exact fun _ hitems _ hrow hsel =>
      Weaviate.mem_of_selects (h _ _ hheld) hitems hrow hsel).symm
  | tables s =>
    have hlist : ∀ request s, listItems name request (some f) (tables s) =
        (Columnar.listItems name request (some f) s).map id tables := fun _ _ => rfl
    obtain ⟨s₁, rfl, hshown⟩ := hdrain.of_lift hlist
    have hdel' : (Columnar.deleteItems name [] (some f) s₁).map id tables = (.ok (), c₂) := hdel
    cases hrun : Columnar.deleteItems name [] (some f) s₁ with
    | mk r s₂ =>
    rw [hrun] at hdel'
    cases hdel'
    obtain ⟨t, rfl, hremoved⟩ := Columnar.removed_of_drain hf hshown hrun
    refine ⟨.table t, List.filter_sublist, ?_, ?_⟩
    · exact (h _ _ hremoved.before).nodup_items
    · have hnone : Holding.mistaken f (t.items.filter f.accepts) (.table t) = [] := rfl
      rw [hnone, List.append_nil]
      exact hremoved.lift hlist fun _ _ => rfl
  | chromaRest | milvusRest | weaviateRest | directory | unsteady => exact h.elim

/-- **A removal by filter is the complement of the listing, where nothing is
mistaken.** Take any connection that calls have led to, and drain a listing under
a filter in pages of any sizes: the drain shows some of the items of a collection
that is there, of distinct ids. After a removal under the same filter the
collection lacks these items and those mistaken for them, is otherwise as it was,
as is everything else on the server, and draining it again shows nothing. So the
removal takes exactly what the listing showed if and only if nothing is mistaken
for it. -/
theorem removal_complements_listing {c c₁ c₂ : Connection} (hc : c.Reached) {name : String}
    {f : Filter} (hf : f.isEmpty = false) {sizes : List Nat} {items : List Item}
    (hdrain : Drains (listItems name · (some f)) none sizes c items c₁)
    (hdel : deleteItems name [] (some f) c₁ = (.ok (), c₂)) :
    ∃ h : Holding, items.Sublist h.items ∧ (h.items.map (·.id)).Nodup ∧
      Removed (listItems name · (some f)) holding? c c₂ (c.serverName name) h
        (h.without (items ++ h.mistaken f items)) ∧
      (c₂.holding? (c.serverName name) = some (h.without items) ↔ h.mistaken f items = []) := by
  obtain ⟨h, hsub, hnodup, hremoved⟩ := hc.sound.complement hf hdrain hdel
  refine ⟨h, hsub, hnodup, hremoved, ?_⟩
  rw [hremoved.after, Option.some_inj]
  exact Holding.without_mistaken_eq_iff

/-! ## Two items under integer keys -/

/-- The ids of the items of a collection. -/
def idsOf (name : String) (c : Connection) : Option (List String) :=
  (c.holding? (c.serverName name)).map fun h => h.items.map (·.id)

/-- The ids on the only page of a listing, and those that a removal then leaves. -/
def listedAndLeft (name : String) (size : Nat) (f : Filter) (c : Connection) :
    Option (List String × Option (List String)) :=
  match listItems name (.first size) (some f) c with
  | (.ok ⟨items, none⟩, c₁) =>
    match deleteItems name [] (some f) c₁ with
    | (.ok (), c₂) => some (items.map (·.id), c₂.idsOf name)
    | _ => none
  | _ => none

theorem of_listedAndLeft {name : String} {size : Nat} {f : Filter} {c : Connection}
    {listed : List String} {left : Option (List String)}
    (h : c.listedAndLeft name size f = some (listed, left)) :
    ∃ items c₁ c₂, Drains (listItems name · (some f)) none [size] c items c₁ ∧
      deleteItems name [] (some f) c₁ = (.ok (), c₂) ∧ items.map (·.id) = listed ∧
      c₂.idsOf name = left := by
  rw [listedAndLeft] at h
  split at h
  · rename_i items c₁ hlist
    split at h
    · rename_i c₂ hdel
      cases h
      exact ⟨items, c₁, c₂, .single hlist, hdel, rfl, rfl⟩
    · cases h
  · cases h

/-- A Milvus server with a collection whose keys are integers. -/
def integerKeyed : Connection :=
  let schema : Milvus.Schema :=
    { Milvus.Schema.plain with idKind := .integer, dimension := some 1 }
  .milvus (.start (Milvus.Memory.empty.withCollection "docs" schema) .empty)

/-- The same after two items have been added, one marked `a` and one `b`. -/
def holdingTwo (id id' : String) : Connection :=
  let zero : Embedding := [Binary32.ofParts false 0]
  (perform (.addItems "docs" [⟨id, none, [("t", .str "a")], some zero⟩,
    ⟨id', none, [("t", .str "b")], some zero⟩]) (perform .connect integerKeyed).2).2

theorem reached_holdingTwo (id id' : String) : (holdingTwo id id').Reached := by
  refine .perform ?_ (.perform trivial
    (.fresh (.milvus (.withCollection .empty _ ⟨?_, ?_, ?_, ?_, ?_⟩) _)))
  · intro item hitem
    rcases List.mem_pair.1 hitem with rfl | rfl <;> rfl
  all_goals decide

/-- The filter for the items marked `b`, which the server does not evaluate. -/
def markedB : Filter := ⟨[⟨"t", .contains, .str "b"⟩]⟩

/-- An item is found and removed by its number, and one beside it, whose id is
kept in the metadata, is left. -/
theorem removal_complements_listing_of_named_id :
    ∃ items c₁ c₂, (holdingTwo "note-a" "7").Reached ∧ markedB.isEmpty = false ∧
      Drains (listItems "docs" · (some markedB)) none [5] (holdingTwo "note-a" "7") items c₁ ∧
      deleteItems "docs" [] (some markedB) c₁ = (.ok (), c₂) ∧ items.map (·.id) = ["7"] ∧
      c₂.idsOf "docs" = some ["note-a"] ∧
      ∃ h : Holding, items.Sublist h.items ∧ (h.items.map (·.id)).Nodup ∧
        Removed (listItems "docs" · (some markedB)) holding? (holdingTwo "note-a" "7") c₂ "docs" h
          (h.without (items ++ h.mistaken markedB items)) ∧
        (c₂.holding? "docs" = some (h.without items) ↔ h.mistaken markedB items = []) := by
  have hrun : (holdingTwo "note-a" "7").listedAndLeft "docs" 5 markedB =
      some (["7"], some ["note-a"]) := by decide +kernel
  obtain ⟨items, c₁, c₂, hdrain, hdel, hlisted, hleft⟩ := of_listedAndLeft hrun
  have hreached := reached_holdingTwo "note-a" "7"
  exact ⟨items, c₁, c₂, hreached, rfl, hdrain, hdel, hlisted, hleft,
    removal_complements_listing hreached rfl hdrain hdel⟩

/-- Two integers with one nearest binary64 value: only the second item is listed,
and both are removed. -/
theorem removal_exceeds_listing_of_near_keys :
    ∃ (c c₁ c₂ : Connection) (f : Filter) (items : List Item), c.Reached ∧ f.isEmpty = false ∧
      c.idsOf "docs" = some ["9007199254740992", "9007199254740993"] ∧
      Drains (listItems "docs" · (some f)) none [5] c items c₁ ∧
      deleteItems "docs" [] (some f) c₁ = (.ok (), c₂) ∧
      items.map (·.id) = ["9007199254740993"] ∧ c₂.idsOf "docs" = some [] := by
  have hrun : (holdingTwo "9007199254740992" "9007199254740993").listedAndLeft "docs" 5 markedB =
      some (["9007199254740993"], some []) := by decide +kernel
  obtain ⟨items, c₁, c₂, hdrain, hdel, hlisted, hleft⟩ := of_listedAndLeft hrun
  exact ⟨_, c₁, c₂, markedB, items, reached_holdingTwo _ _, rfl, by decide +kernel, hdrain, hdel,
    hlisted, hleft⟩

end Connection

/-! ## Calls that name items

Items are added and read by id the same way on every connection, and on a
connection to a server of one kind these are the calls of the session inside. Runs
begin with a connection that is made ready and has items added one at a time.
-/

namespace Connection

/-- Inserts items, or replaces those of the same ids. -/
def addItems (name : String) (items : List Item) : Action Connection Unit := fun c =>
  c.onSession fun A s => A.addItems name items s

/-- The stored items of some ids. -/
def getItems (name : String) (ids : List String) : Action Connection (List Item) := fun c =>
  c.onSession fun A s => A.getItems name ids s

/-- One collection of a connection's server changed, and no other. -/
structure Changed (c c' : Connection) (name : String) (h : Holding) : Prop where
  here : c'.holding? name = some h
  others : ∀ other, other ≠ name → c'.holding? other = c.holding? other

/-! ### Sessions of a family -/

section Family

variable {τ Held Row Handle Condition Fragment : Type} {V : Storage τ Held Row Fragment}
variable {F : Family τ Handle Condition Fragment} {mk : Session τ → Connection}
variable {inj : Held → Holding}

/-- Sessions are connections of a kind for additions and reads by id too. -/
structure WrapsById (V : Storage τ Held Row Fragment) (F : Family τ Handle Condition Fragment)
    (mk : Session τ → Connection) (inj : Held → Holding) : Prop extends Wraps V F mk inj where
  add : ∀ name items s,
    addItems name items (mk s) = (F.addItems name items s).map id mk := by intros; rfl
  get : ∀ name ids s,
    getItems name ids (mk s) = (F.getItems name ids s).map id mk := by intros; rfl
  isConnected : ∀ s, Managed.isConnected (mk s) = s.connected := by intros; rfl

theorem wrapsById_qdrant : WrapsById Qdrant.storage Qdrant.family qdrant .qdrant :=
  { wraps_qdrant with }

theorem wrapsById_milvus : WrapsById Milvus.storage Milvus.family milvus .milvus :=
  { wraps_milvus with }

theorem wrapsById_weaviate : WrapsById Weaviate.storage Weaviate.family weaviate .weaviate :=
  { wraps_weaviate with }

theorem Wraps.changed (W : Wraps V F mk inj) {s s' : Session τ} {name : String} {held : Held}
    (h : V.Changed s.server s'.server name held) :
    (mk s).Changed (mk s') name (inj held) where
  here := by rw [W.holding?, h.here, Option.map_some]
  others other hne := by rw [W.holding?, W.holding?, h.others other hne]

end Family

/-! ### Items added one at a time -/

/-- An item without document and metadata. -/
def sample (id : String) : Item := ⟨id, none, [], some [Binary32.ofParts false 0]⟩

/-- A connection after it is connected and has a collection. -/
def prepared (c : Connection) : Connection :=
  (perform (.createCollection "docs" 1 .cosine) (perform .connect c).2).2

/-- A connection after items of some ids have been added, one at a time. -/
def adding (ids : List String) (c : Connection) : Connection :=
  ids.foldl (fun c id => (perform (.addItems "docs" [sample id]) c).2) c

theorem Fresh.prepared {c : Connection} (h : c.Fresh) : c.prepared.Reached :=
  .perform trivial (.perform trivial (.fresh h))

theorem Reached.adding {c : Connection} (h : c.Reached) (ids : List String) :
    (c.adding ids).Reached := by
  induction ids generalizing c with
  | nil => exact h
  | cons id ids ih =>
    refine ih (.perform (fun item hitem => ?_) h)
    rw [List.mem_singleton.1 hitem]
    rfl

end Connection

end VectorBridge
