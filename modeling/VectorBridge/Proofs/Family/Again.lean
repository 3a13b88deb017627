import VectorBridge.Proofs.Family.Invariant
import VectorBridge.Proofs.Identifier
/-!
# Additions made twice

An addition checks a batch, fills its vectors in, compares them with the width of the
collection, and writes. Made once more it goes the same way: the provider, asked the same,
answers the same, and the width is known by now, or the server tells one that the batch
fits. That a server takes the same write again, and is left as it is, is the one thing that
a family has to show for itself; `Repeats` says what is needed of it.
-/

namespace VectorBridge

namespace DimensionResolver

/-- The resolver decides nothing by a rule of its own. -/
def Definite : DimensionResolver → Prop
  | cached _ | fixed _ => True
  | custom _ _ => False

/-- The resolver has an answer without asking the server. -/
def Settles (r : DimensionResolver) (collection : String) (d : Dimension) : Prop :=
  r = .fixed d ∨ ∃ ws w, r = .cached ws ∧ Keyed.get? collection ws = some w ∧ d = .known w

variable {r : DimensionResolver} {collection : String} {d : Dimension}

/-- A width that is told again changes no answer. -/
theorem Settles.record {w : Nat} (h : r.Settles collection d) (hw : ∀ w', d = .known w' → w = w') :
    (r.record collection w).Settles collection d := by
  rcases h with rfl | ⟨ws, w', rfl, -, rfl⟩
  · exact .inl rfl
  · exact .inr ⟨_, w', rfl, by rw [hw w' rfl, Keyed.get?_insert_self], rfl⟩

end DimensionResolver

namespace Session

variable {τ : Type} {s s' : Session τ} {collection : String} {declared probed : Call τ (Option Nat)}
variable {d : Dimension}

theorem resolveWidth_of_settles (h : s.dimensions.Settles collection d) :
    resolveWidth collection declared probed s = (.ok d, s) := by
  rcases h with hfixed | ⟨ws, w, hcached, hget, rfl⟩
  · simp only [resolveWidth, hfixed, DimensionResolver.resolve]
    rw [← hfixed]
    rfl
  · exact resolveWidth_of_cached hcached hget

/-- A width that was resolved is known from then on, or the server tells none. -/
theorem settles_of_resolveWidth (hs : s.dimensions.Definite) (hd : Step.Leaves declared)
    (hp : Step.Leaves probed)
    (hrun : resolveWidth collection declared probed s = (.ok d, s')) :
    s'.dimensions.Settles collection d ∨
      d = .unknown ∧ (∃ ws, s'.dimensions = .cached ws ∧ Keyed.get? collection ws = none) ∧
        declared s.server = (.ok none, s.server) ∧ probed s.server = (.ok none, s.server) := by
  cases hdims : s.dimensions with
  | fixed d' =>
    rw [resolveWidth_of_settles (.inl hdims)] at hrun
    obtain ⟨hd', rfl⟩ := Prod.mk.inj hrun
    exact .inl (.inl (by rw [hdims, Except.ok.inj hd']))
  | custom history decide =>
    rw [hdims] at hs
    cases hs
  | cached ws =>
    cases hget : Keyed.get? collection ws with
    | some w =>
      have hsettles : s.dimensions.Settles collection (.known w) :=
        .inr ⟨ws, w, hdims, hget, rfl⟩
      rw [resolveWidth_of_settles hsettles] at hrun
      obtain ⟨hd', rfl⟩ := Prod.mk.inj hrun
      exact .inl (Except.ok.inj hd' ▸ hsettles)
    | none =>
      have hrecorded : ∀ w, (s.dimensions.record collection w).Settles collection (.known w) := by
        intro w
        rw [hdims]
        exact .inr ⟨_, w, rfl, Keyed.get?_insert_self _ _ _, rfl⟩
      -- the answer is what the server declares, or else what is found there
      rcases hasked : declared s.server with ⟨e | w, t⟩
      · rw [resolveWidth_of_error hdims hget (Call.toAction_of_error hasked)] at hrun
        cases hrun
      obtain rfl : t = s.server := by rw [← hd s.server, hasked]
      cases w with
      | some w =>
        rw [resolveWidth_of_declared hdims hget (Call.toAction_of_ok hasked)] at hrun
        cases hrun
        exact .inl (hrecorded w)
      | none =>
        simp only [resolveWidth, hdims, DimensionResolver.resolve, hget] at hrun
        rw [Step.state_bind_apply, Call.toAction_of_ok hasked] at hrun
        simp only at hrun
        rw [Step.state_bind_apply] at hrun
        rcases hfound : probed s.server with ⟨e | w, t⟩
        · rw [Call.toAction_of_error hfound] at hrun
          cases hrun
        obtain rfl : t = s.server := by rw [← hp s.server, hfound]
        rw [Call.toAction_of_ok hfound] at hrun
        cases w with
        | some w =>
          cases hrun
          rw [hdims] at hrecorded
          exact .inl (hrecorded w)
        | none =>
          obtain ⟨hd', rfl⟩ := Prod.mk.inj hrun
          exact .inr ⟨(Except.ok.inj hd').symm, ⟨ws, rfl, hget⟩, rfl, rfl⟩

/-- Where nothing is known the server is asked, for what it declares and for what it holds. -/
theorem resolveWidth_of_asked {ws : Keyed String Nat} {w w' : Option Nat}
    (hs : s.dimensions = .cached ws) (hget : Keyed.get? collection ws = none)
    (hd : declared s.server = (.ok w, s.server)) (hp : probed s.server = (.ok w', s.server)) :
    ∃ s', resolveWidth collection declared probed s = (.ok (.ofOption (w <|> w')), s') := by
  cases w with
  | some w => exact ⟨_, resolveWidth_of_declared hs hget (Call.toAction_of_ok hd)⟩
  | none =>
    simp only [resolveWidth, hs, DimensionResolver.resolve, hget]
    rw [Step.state_bind_apply, Call.toAction_of_ok hd]
    simp only
    rw [Step.state_bind_apply, Call.toAction_of_ok hp]
    cases w' <;> exact ⟨_, rfl⟩

end Session

namespace Family

open Session

variable {τ Handle Condition Fragment : Type} {F : Family τ Handle Condition Fragment}
variable {name : String} {items batch : List Item} {s s' s₁ : Session τ} {h h' : Handle}
variable {log : List EmbeddingRequest} {d : Dimension} {width : Option Nat} {t t' : τ}

/-! ## What an addition does -/

/-- The session after a batch of a width has been written. -/
def afterWrite (F : Family τ Handle Condition Fragment) (name : String) (width : Option Nat)
    (t : τ) (s : Session τ) : Session τ :=
  { s with
    server := t
    dimensions := match width with
      | some w => if F.learnsWidth then s.dimensions.record name w else s.dimensions
      | none => s.dimensions
    listings := s.listings.invalidate (Listings.keyStart name) }

/-- The steps of an addition that succeeds: a collection is opened, the vectors of the batch
are filled in, its width is compared with the one that is resolved, and it is written. -/
structure Addition (F : Family τ Handle Condition Fragment) (name : String) (items : List Item)
    (s : Session τ) (h : Handle) (batch : List Item) (log : List EmbeddingRequest)
    (d : Dimension) (s₁ : Session τ) (width : Option Nat) (t : τ) : Prop where
  connected : s.connected = true
  ids : Batch.checkIds items = .ok ()
  checked : Filter.firstError (items.map F.checkItem) = .ok ()
  attach : F.attach name s.server = (.ok h, s.server)
  embedded : Batch.embedMissing s.context name (F.metadataOf h) items s.requests = (.ok batch, log)
  vectors : F.checkVectors batch = .ok ()
  resolved : F.resolve h { s with requests := log } = (.ok d, s₁)
  fits : Batch.checkDimensions d batch = .ok width
  written : F.write h batch s₁.server = (.ok (), t)

/-- The last steps of an addition: a width is remembered, and the batch is written. -/
theorem last_steps_eq_ok_iff :
    (do
      match width with
      | some w => if F.learnsWidth then recordWidth name w else pure ()
      | none => pure ()
      onServer (F.write h batch)
      dropListings name : Action (Session τ) Unit) s₁ = (.ok (), s') ↔
      ∃ t, F.write h batch s₁.server = (.ok (), t) ∧ s' = F.afterWrite name width t s₁ := by
  -- what the last two steps do, with whatever widths
  have hlast : ∀ r : DimensionResolver,
      (do
        onServer (F.write h batch)
        dropListings name : Action (Session τ) Unit) { s₁ with dimensions := r } = (.ok (), s') ↔
        ∃ t, F.write h batch s₁.server = (.ok (), t) ∧
          s' = { s₁ with
            server := t
            dimensions := r
            listings := s₁.listings.invalidate (Listings.keyStart name) } := by
    intro r
    rw [Step.bind_apply, onServer_apply]
    rcases F.write h batch s₁.server with ⟨e | _, t⟩
    · exact ⟨fun hrun => (by cases hrun), fun ⟨_, hwrite, _⟩ => (by cases hwrite)⟩
    · constructor
      · intro hrun
        cases hrun
        exact ⟨t, rfl, rfl⟩
      · rintro ⟨t', hwrite, rfl⟩
        cases hwrite
        rfl
  cases width with
  | none => exact hlast s₁.dimensions
  | some w =>
    simp only [afterWrite]
    split
    · exact hlast (s₁.dimensions.record name w)
    · exact hlast s₁.dimensions

/-- These steps are an addition. -/
theorem Addition.run (A : F.Addition name items s h batch log d s₁ width t)
    (hitems : items.isEmpty = false) :
    F.addItems name items s = (.ok (), F.afterWrite name width t s₁) := by
  have hembed : embedding (fun c => Batch.embedMissing c name (F.metadataOf h) items) s =
      (.ok batch, { s with requests := log }) := by
    rw [embedding_apply, A.embedded]
  rw [addItems, ensureConnected_bind A.connected, hitems, if_neg Bool.false_ne_true,
    Action.ofResult_bind_of_ok A.ids, Action.ofResult_bind_of_ok A.checked,
    Step.bind_of_ok (call_of_ok A.attach), Step.bind_of_ok hembed,
    Action.ofResult_bind_of_ok A.vectors, Step.bind_of_ok A.resolved,
    Action.ofResult_bind_of_ok A.fits]
  exact last_steps_eq_ok_iff.2 ⟨t, A.written, rfl⟩

/-- An addition that succeeds goes through these steps. -/
theorem exists_addition (R : F.ReadsOnly) (hitems : items.isEmpty = false)
    (hadd : F.addItems name items s = (.ok (), s')) :
    ∃ h batch log d s₁ width t, F.Addition name items s h batch log d s₁ width t ∧
      s' = F.afterWrite name width t s₁ := by
  rw [addItems, ensureConnected_bind_eq_ok_iff, hitems, if_neg Bool.false_ne_true,
    Action.ofResult_bind_eq_ok_iff] at hadd
  obtain ⟨hconn, _, hids, hadd⟩ := hadd
  obtain ⟨_, hchecked, hadd⟩ := Action.ofResult_bind_eq_ok_iff.1 hadd
  obtain ⟨h, s₂, hcall, hadd⟩ := Step.bind_eq_ok_iff.1 hadd
  obtain ⟨t₂, hattach, rfl⟩ := call_eq_ok_iff.1 hcall
  obtain rfl : t₂ = s.server := by rw [← R.attach name s.server, hattach]
  obtain ⟨batch, s₃, hembed, hadd⟩ := Step.bind_eq_ok_iff.1 hadd
  rw [embedding_apply] at hembed
  obtain ⟨hanswer, rfl⟩ := Prod.mk.inj hembed
  obtain ⟨_, hvectors, hadd⟩ := Action.ofResult_bind_eq_ok_iff.1 hadd
  obtain ⟨d, s₁, hresolve, hadd⟩ := Step.bind_eq_ok_iff.1 hadd
  obtain ⟨width, hfits, hadd⟩ := Action.ofResult_bind_eq_ok_iff.1 hadd
  obtain ⟨t, hwrite, hs'⟩ := last_steps_eq_ok_iff.1 hadd
  exact ⟨h, batch, _, d, s₁, width, t, ⟨hconn, hids, hchecked, hattach, Prod.ext hanswer rfl,
    hvectors, hresolve, hfits, hwrite⟩, hs'⟩

theorem Addition.accepts (A : F.Addition name items s h batch log d s₁ width t) :
    F.Accepts items batch where
  checked := List.forall_mem_map.1 (Filter.firstError_eq_ok_iff.1 A.checked)
  bare := Batch.map_embedMissing Item.bare (fun _ _ => rfl) A.embedded
  kept _ := Batch.mem_embedMissing A.embedded

/-- Of the session only the requests and the widths change before the write. -/
theorem Addition.eq_with (A : F.Addition name items s h batch log d s₁ width t)
    (R : F.ReadsOnly) : s₁ = { s with requests := log, dimensions := s₁.dimensions } := by
  have hleft := resolveWidth_server (R.declaredWidth h) (R.probedWidth h) (F.nameOf h)
    { s with requests := log }
  have hs₁ : (resolveWidth _ _ _ _).2 = s₁ := congrArg Prod.snd A.resolved
  rw [hs₁] at hleft
  calc s₁ = { s with requests := log, dimensions := s₁.dimensions, server := s₁.server } := by
        rw [← hs₁]
        rfl
    _ = _ := by rw [hleft]

/-- Where every item needs a vector, all of a batch that passes have one. -/
theorem isSome_of_checkVectors (hvectorless : F.vectorless.isSome = true)
    (h : F.checkVectors batch = .ok ()) : ∀ item ∈ batch, item.embedding.isSome = true := by
  obtain ⟨message, hmessage⟩ := Option.isSome_iff_exists.1 hvectorless
  rw [checkVectors, hmessage] at h
  cases hfind : batch.find? (fun item => item.embedding.isNone) with
  | none =>
    intro item hitem
    simpa [Option.isSome_iff_ne_none] using List.find?_eq_none.1 hfind item hitem
  | some item =>
    rw [hfind] at h
    cases h

/-- A batch that is written is not empty. -/
theorem Addition.exists_mem (A : F.Addition name items s h batch log d s₁ width t)
    (hitems : items.isEmpty = false) : ∃ item, item ∈ batch := by
  cases batch with
  | nil =>
    have hbare := A.accepts.bare
    rw [List.map_nil, eq_comm, List.map_eq_nil_iff] at hbare
    rw [hbare] at hitems
    cases hitems
  | cons item rest => exact ⟨item, List.mem_cons_self⟩

/-! ## The same addition again -/

/-- What a write of a batch leaves behind for another: the collection is opened under the
same name with the same record, the same write succeeds and changes nothing, and where the
server told no width before, the width of the batch is remembered or one is told that the
batch fits. -/
structure Repeats (F : Family τ Handle Condition Fragment) (name : String) (h h' : Handle)
    (batch : List Item) (t t' : τ) : Prop where
  attach : F.attach name t' = (.ok h', t')
  named : F.nameOf h = name ∧ F.nameOf h' = name
  metadata : F.metadataOf h' = F.metadataOf h
  write : F.write h' batch t' = (.ok (), t')
  width : ∀ w, F.declaredWidth h t = (.ok none, t) → F.probedWidth h t = (.ok none, t) →
    Batch.checkDimensions .unknown batch = .ok w → F.checkVectors batch = .ok () →
      (F.learnsWidth = true ∧ F.vectorless.isSome = true) ∨
      ∃ declared probed, F.declaredWidth h' t' = (.ok declared, t') ∧
        F.probedWidth h' t' = (.ok probed, t') ∧
        ∀ w, (declared <|> probed) = some w → ∀ v ∈ batch.filterMap (·.embedding), v.length = w

/-- On servers that satisfy an invariant a write repeats, where a collection that the write
leaves behind satisfies a condition. -/
def Repeating (F : Family τ Handle Condition Fragment) (I : τ → Prop)
    (whole : τ → String → Prop) : Prop :=
  ∀ {name h batch t t'}, I t → F.attach name t = (.ok h, t) →
    (∀ item ∈ batch, Metadata.Plain item.metadata) → (batch.map (·.id)).Nodup →
    F.write h batch t = (.ok (), t') → whole t' name → ∃ h', F.Repeats name h h' batch t t'

/-- A width is resolved that a batch fits. -/
def ResolvesFor (F : Family τ Handle Condition Fragment) (h : Handle) (batch : List Item)
    (s : Session τ) : Prop :=
  ∃ d s₂ width, F.resolve h s = (.ok d, s₂) ∧ Batch.checkDimensions d batch = .ok width

theorem resolvesFor_of_settles (hname : F.nameOf h = name) (hs : s.dimensions.Settles name d)
    (hfits : Batch.checkDimensions d batch = .ok width) : F.ResolvesFor h batch s :=
  ⟨d, s, width, by rw [resolve, hname, resolveWidth_of_settles hs], hfits⟩

/-- After an addition a width is resolved that its batch fits. -/
theorem Addition.resolvesFor (A : F.Addition name items s h batch log d s₁ width t)
    (R : F.ReadsOnly) (hitems : items.isEmpty = false) (hwidths : s.dimensions.Definite)
    (P : F.Repeats name h h' batch s.server t) (log' : List EmbeddingRequest) :
    F.ResolvesFor h' batch { F.afterWrite name width t s₁ with requests := log' } := by
  have hresolved := A.resolved
  rw [resolve, P.named.1] at hresolved
  obtain ⟨hknown, hwide, hfit⟩ := Batch.checkDimensions_eq_ok A.fits
  rcases settles_of_resolveWidth (s := { s with requests := log }) hwidths (R.declaredWidth h)
      (R.probedWidth h) hresolved with
    hsettles | ⟨rfl, ⟨ws, hws, hget⟩, hdeclared, hprobed⟩
  · -- a width that was known is the answer again
    refine resolvesFor_of_settles P.named.2 ?_ A.fits
    cases width with
    | none => exact hsettles
    | some w =>
      simp only [afterWrite]
      split
      · exact hsettles.record fun w' hd => Option.some.inj (hknown w' hd)
      · exact hsettles
  -- else the width of the batch is remembered, or the server is asked again
  by_cases hlearns : F.learnsWidth = true ∧ ∃ w, width = some w
  · obtain ⟨hlearns, w, rfl⟩ := hlearns
    refine resolvesFor_of_settles (d := .known w) P.named.2 ?_
      (Batch.commonWidth_of_forall (hfit w rfl))
    simp only [afterWrite, hlearns, if_true, hws]
    exact .inr ⟨_, w, rfl, Keyed.get?_insert_self _ _ _, rfl⟩
  · have hsame : (F.afterWrite name width t s₁).dimensions = .cached ws := by
      rw [← hws]
      cases width with
      | none => rfl
      | some w => exact if_neg fun hrecords => hlearns ⟨hrecords, w, rfl⟩
    rcases P.width width hdeclared hprobed A.fits A.vectors with ⟨hrecords, hvectorless⟩ |
      ⟨declared, probed, hdeclared', hprobed', hfits'⟩
    · obtain ⟨item, hitem⟩ := A.exists_mem hitems
      have hvector := isSome_of_checkVectors hvectorless A.vectors item hitem
      exact absurd ⟨hrecords, hwide ⟨item, hitem, hvector⟩⟩ hlearns
    obtain ⟨s₂, hasked⟩ := resolveWidth_of_asked
      (s := { F.afterWrite name width t s₁ with requests := log' }) hsame hget hdeclared' hprobed'
    rw [ResolvesFor, resolve, P.named.2, hasked]
    cases htold : (declared <|> probed) with
    | none => exact ⟨_, s₂, width, rfl, A.fits⟩
    | some w => exact ⟨_, s₂, some w, rfl, Batch.commonWidth_of_forall (hfits' w htold)⟩

/-- **An addition that succeeded succeeds again and changes nothing**, when the family repeats
its writes. -/
theorem addItems_again {I : τ → Prop} {whole : τ → String → Prop} (R : F.ReadsOnly)
    (P : F.Repeating I whole) (hI : I s.server) (hwidths : s.dimensions.Definite)
    (hprovider : s.context.Consistent) (hplain : ∀ item ∈ items, Metadata.Plain item.metadata)
    (hwhole : whole s'.server name)
    (hadd : F.addItems name items s = (.ok (), s')) :
    ∃ s'', F.addItems name items s' = (.ok (), s'') ∧ s''.server = s'.server := by
  cases hitems : items.isEmpty with
  | true =>
    have hrun := hadd
    rw [addItems, ensureConnected_bind_eq_ok_iff, hitems, if_pos rfl] at hrun
    obtain ⟨-, hpure⟩ := hrun
    cases hpure
    exact ⟨s, hadd, rfl⟩
  | false =>
    obtain ⟨h, batch, log, d, s₁, width, t, A, rfl⟩ := exists_addition R hitems hadd
    have hs₁ := A.eq_with R
    have hserver : s₁.server = s.server := by rw [hs₁]
    have hcontext : s₁.context = s.context := by rw [hs₁]
    have hconn : s₁.connected = true := by rw [hs₁, ← A.connected]
    have hids : (batch.map (·.id)).Nodup := by
      rw [Item.map_eq_of_bare (fun _ => rfl) A.accepts.bare]
      exact Batch.nodup_of_checkIds A.ids
    obtain ⟨h', P⟩ := P hI A.attach (Item.forall_of_bare A.accepts.bare hplain) hids
      (hserver ▸ A.written) hwhole
    have hembed : ∀ log', (Batch.embedMissing s.context name (F.metadataOf h') items log').1 =
        .ok batch := by
      intro log'
      rw [P.metadata, Batch.embedMissing_of_consistent hprovider _ _ _ log' s.requests, A.embedded]
    obtain ⟨d', s₂, width', hresolve, hfits⟩ := A.resolvesFor R hitems hwidths P
      (Batch.embedMissing s.context name (F.metadataOf h') items s₁.requests).2
    have hserver₂ : s₂.server = t := by
      have hleft := resolveWidth_server (R.declaredWidth h') (R.probedWidth h') (F.nameOf h')
        { F.afterWrite name width t s₁ with requests :=
          (Batch.embedMissing s.context name (F.metadataOf h') items s₁.requests).2 }
      rwa [show resolveWidth _ _ _ _ = _ from hresolve] at hleft
    have A' : F.Addition name items (F.afterWrite name width t s₁) h' batch _ d' s₂ width' t :=
      { connected := hconn
        ids := A.ids
        checked := A.checked
        attach := P.attach
        embedded := Prod.ext (by rw [← hembed s₁.requests, ← hcontext]; rfl)
          (by rw [← hcontext]; rfl)
        vectors := A.vectors
        resolved := hresolve
        fits := hfits
        written := hserver₂ ▸ P.write }
    exact ⟨_, A'.run hitems, rfl⟩

end Family

end VectorBridge
