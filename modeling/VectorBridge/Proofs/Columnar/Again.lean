import VectorBridge.Proofs.Columnar.Removal
import VectorBridge.Proofs.Family.Again
/-!
# Tables that are given a batch twice

A table is read and written whole, and an addition to it goes the way it goes with servers:
a batch is checked, completed, and compared with a width. The width is known after the first
addition, so the second makes the same rows, and these are there already.
-/

namespace VectorBridge

namespace Columnar

open Session

variable {name : String} {items batch : List Item} {s s' s₁ : Session Memory} {t : Table}
variable {log : List EmbeddingRequest} {d : Dimension} {w : Nat}

/-! ## What an addition does -/

/-- The table with the rows of a batch. -/
def Table.taking (t : Table) (batch : List Item) (w : Nat) : Table :=
  Table.upsert { t with width := t.width <|> some w } (batch.map (Row.ofItem w))

/-- The session after a table has been written for a batch of a width. -/
def afterWrite (name : String) (d : Dimension) (w : Nat) (t : Table) (s : Session Memory) :
    Session Memory :=
  { s with
    server := ⟨Keyed.insert name t s.server.tables⟩
    dimensions := if d.toOption.isNone then s.dimensions.record name w else s.dimensions
    listings := s.listings.invalidate (Listings.keyStart name) }

/-- The steps of an addition that succeeds, up to the writing of the table. -/
structure Addition (name : String) (items : List Item) (s : Session Memory) (t : Table)
    (batch : List Item) (log : List EmbeddingRequest) (d : Dimension) (s₁ : Session Memory)
    (w : Nat) : Prop where
  connected : s.connected = true
  ids : Batch.checkIds items = .ok ()
  hidden : checkSentinel items = .ok ()
  held : Keyed.get? name s.server.tables = some t
  embedded : Batch.embedMissing s.context name none items s.requests = (.ok batch, log)
  resolved : resolve name { s with requests := log } = (.ok d, s₁)
  fits : Batch.checkDimensions d batch = .ok (some w)

/-- These steps are an addition. -/
theorem Addition.run (A : Addition name items s t batch log d s₁ w)
    (hitems : items.isEmpty = false) :
    addItems name items s = (.ok (), afterWrite name d w (t.taking batch w) s₁) := by
  have hembed : embedding (fun c => Batch.embedMissing c name none items) s =
      (.ok batch, { s with requests := log }) := by
    rw [embedding_apply, A.embedded]
  rw [addItems, ensureConnected_bind A.connected, hitems, if_neg Bool.false_ne_true,
    Action.ofResult_bind_of_ok A.ids, Action.ofResult_bind_of_ok A.hidden,
    Step.bind_of_ok (call_read_eq_ok_iff.2 ⟨A.held, rfl⟩), Step.bind_of_ok hembed,
    Step.bind_of_ok A.resolved, Action.ofResult_bind_of_ok A.fits,
    Action.ofResult_bind_of_ok (show requireWidth name (some w) = .ok w from rfl)]
  simp only [afterWrite]
  split <;> rfl

/-- An addition that succeeds goes through these steps. -/
theorem exists_addition (hitems : items.isEmpty = false)
    (hadd : addItems name items s = (.ok (), s')) :
    ∃ t batch log d s₁ w, Addition name items s t batch log d s₁ w ∧
      s' = afterWrite name d w (t.taking batch w) s₁ := by
  have hsteps := hadd
  rw [addItems, ensureConnected_bind_eq_ok_iff, hitems, if_neg Bool.false_ne_true,
    Action.ofResult_bind_eq_ok_iff] at hsteps
  obtain ⟨hconn, _, hids, hsteps⟩ := hsteps
  obtain ⟨_, hhidden, hsteps⟩ := Action.ofResult_bind_eq_ok_iff.1 hsteps
  obtain ⟨t, s₂, hread, hsteps⟩ := Step.bind_eq_ok_iff.1 hsteps
  obtain ⟨hheld, hs₂⟩ := call_read_eq_ok_iff.1 hread
  rw [hs₂] at hsteps
  obtain ⟨batch, s₃, hembed, hsteps⟩ := Step.bind_eq_ok_iff.1 hsteps
  rw [embedding_apply] at hembed
  obtain ⟨hanswer, hs₃⟩ := Prod.mk.inj hembed
  rw [← hs₃] at hsteps
  obtain ⟨d, s₁, hresolve, hsteps⟩ := Step.bind_eq_ok_iff.1 hsteps
  obtain ⟨width, hfits, hsteps⟩ := Action.ofResult_bind_eq_ok_iff.1 hsteps
  obtain ⟨w, hwidth, -⟩ := Action.ofResult_bind_eq_ok_iff.1 hsteps
  obtain rfl : width = some w := by
    cases width with
    | none => cases hwidth
    | some w' => exact congrArg some (Except.ok.inj hwidth)
  have A : Addition name items s t batch _ d s₁ w :=
    ⟨hconn, hids, hhidden, hheld, Prod.ext hanswer rfl, hresolve, hfits⟩
  have hrun := A.run hitems
  rw [hadd] at hrun
  exact ⟨t, batch, _, d, s₁, w, A, (Prod.mk.inj hrun).2⟩

/-! ## The same addition again -/

/-- **Rows that are put again** are there, and the width is declared. -/
theorem Table.taking_again (ht : t.Distinct) {batch : List Item}
    (hids : (batch.map (·.id)).Nodup) (w : Nat) :
    (t.taking batch w).taking batch w = t.taking batch w := by
  have hput : ∀ {row : Row} {rows : List Row}, True → (rows.map (·.id)).Nodup →
      ((place rows row).map (·.id)).Nodup ∧
        ∀ r, r ∈ place rows row ↔ r = row ∨ r ∈ rows ∧ r.id ≠ row.id := by
    intro row rows _ hrows
    refine ⟨nodup_place hrows row, fun r => ?_⟩
    rw [place_eq_placeBy hrows]
    exact placeBy.mem_iff (fun _ _ => decide_eq_true_iff) hrows
  have hdistinct : ((batch.map (Row.ofItem w)).map (·.id)).Nodup := by
    rw [List.map_map]
    exact hids
  have hrows : (batch.map (Row.ofItem w)).foldl place (t.taking batch w).rows =
      (t.taking batch w).rows := by
    refine foldl_put_self fun row hrow => ?_
    have hafter : (t.taking batch w).Distinct :=
      Table.Distinct.upsert (t := { t with width := t.width <|> some w }) ht _
    rw [place_eq_placeBy hafter]
    refine placeBy.eq_self (fun _ _ => decide_eq_true_iff) hafter ?_
    exact (mem_foldl_put (J := fun rows => (rows.map Row.id).Nodup) hput
      (fun _ _ => trivial) ht hdistinct).2 (.inl hrow)
  have hwidth : ((t.taking batch w).width <|> some w) = (t.taking batch w).width := by
    show ((t.width <|> some w) <|> some w) = (t.width <|> some w)
    cases t.width <;> rfl
  rw [Table.taking, Table.upsert, hwidth]
  exact congrArg (fun rows => { t.taking batch w with rows }) hrows

/-- After an addition the width is known. -/
theorem Addition.settles (A : Addition name items s t batch log d s₁ w)
    (hwidths : s.dimensions.Definite) (t' : Table) :
    ∃ d', (afterWrite name d w t' s₁).dimensions.Settles name d' ∧
      Batch.checkDimensions d' batch = .ok (some w) := by
  obtain ⟨hknown, -, hfit⟩ := Batch.checkDimensions_eq_ok A.fits
  have hleaves : ∀ width : Table → Option Nat, Step.Leaves (do
      pure (width (← Store.read (τ := Memory) name)) : Call Memory (Option Nat)) :=
    fun width => (leaves_read name).bind fun _ => Step.leaves_pure _
  rcases settles_of_resolveWidth (s := { s with requests := log }) hwidths (hleaves Table.width)
      (hleaves Table.someWidth?) A.resolved with
    hsettles | ⟨rfl, ⟨ws, hws, -⟩, -⟩
  · refine ⟨d, ?_, A.fits⟩
    simp only [afterWrite]
    split
    · exact hsettles.record fun w' hd => Option.some.inj (hknown w' hd)
    · exact hsettles
  · refine ⟨.known w, ?_, Batch.commonWidth_of_forall (hfit w rfl)⟩
    rw [afterWrite, hws]
    exact .inr ⟨_, w, rfl, Keyed.get?_insert_self _ _ _, rfl⟩

/-- **An addition that succeeded succeeds again and changes nothing.** -/
theorem addItems_again (hserver : s.server.Distinct) (hwidths : s.dimensions.Definite)
    (hprovider : s.context.Consistent) (hadd : addItems name items s = (.ok (), s')) :
    ∃ s'', addItems name items s' = (.ok (), s'') ∧ s''.server = s'.server := by
  cases hitems : items.isEmpty with
  | true =>
    have hrun := hadd
    rw [addItems, ensureConnected_bind_eq_ok_iff, hitems, if_pos rfl] at hrun
    obtain ⟨-, hpure⟩ := hrun
    cases hpure
    exact ⟨s, hadd, rfl⟩
  | false =>
    obtain ⟨t, batch, log, d, s₁, w, A, rfl⟩ := exists_addition hitems hadd
    have hs₁ : s₁ = (resolve name { s with requests := log }).2 := by rw [A.resolved]
    have hcontext : s₁.context = s.context := by rw [hs₁]; rfl
    have hconn : s₁.connected = true := by rw [← A.connected, hs₁]; rfl
    have hids : (batch.map (·.id)).Nodup := by
      rw [Item.map_eq_of_bare (fun _ => rfl)
        (Batch.map_embedMissing Item.bare (fun _ _ => rfl) A.embedded)]
      exact Batch.nodup_of_checkIds A.ids
    obtain ⟨d', hsettles, hfits⟩ := A.settles hwidths (t.taking batch w)
    have A' : Addition name items (afterWrite name d w (t.taking batch w) s₁)
        (t.taking batch w) batch _ d' _ w :=
      { connected := hconn
        ids := A.ids
        hidden := A.hidden
        held := Keyed.get?_insert_self _ _ _
        embedded := Prod.ext (by
          rw [show (afterWrite name d w (t.taking batch w) s₁).context = s.context from hcontext,
            Batch.embedMissing_of_consistent hprovider _ _ _ _ s.requests, A.embedded]) rfl
        resolved := resolveWidth_of_settles hsettles
        fits := hfits }
    refine ⟨_, A'.run hitems, ?_⟩
    rw [Table.taking_again (hserver name t A.held) hids]
    exact congrArg Memory.mk (Keyed.insert_insert _ _ _ _)

end Columnar

end VectorBridge
