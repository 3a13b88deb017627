import VectorBridge.Proofs.Family.Respelling
import VectorBridge.Proofs.Weaviate.ById
/-!
# Names of one class

Two collections whose names have one capitalization are one class, and the server is asked
the same of either. A session goes on to tell the names apart: the width that it remembers
and the listing that it holds are those of the name it was called with. A class that is
dropped under one name leaves its width behind under the other.
-/

namespace VectorBridge

namespace Weaviate

open Session (Matched Twins)

variable {m : Memory} {n n' : String}

/-- Handles of one definition and one class are asked the same. -/
theorem indistinct {c c' : Opened} (hclass : className c.collection = className c'.collection)
    (hdefinition : c.definition = c'.definition) :
    (family (τ := Memory)).Indistinct c c' where
  metadataOf := rfl
  declaredWidth := rfl
  probedWidth := by simp only [family, hclass]
  write := by
    funext items
    simp only [family, write, hclass]
  fetch := by
    funext ids
    simp only [family, hclass]
  sample := by
    funext k
    simp only [family, hdefinition]
  fetchAll := by
    funext filter
    simp only [family, hdefinition]
  readPage := by
    funext filter request
    simp only [family, hdefinition]
  eraseIds := by
    funext ids
    simp only [family, hclass]
  eraseWhere := by
    funext filter
    simp only [family, hdefinition]
  size := by simp only [family, hdefinition]
  nearest := by
    funext scoring limit filter vectors
    simp only [family, hdefinition]

/-- A write fails for its keys, or because the server does. -/
theorem write_kind {c : Opened} {items : List Item} {e : Error} {m' : Memory}
    (h : (family (τ := Memory)).write c items m = (.error e, m')) :
    e.kind ≠ .dimensionMismatch := by
  rcases hkeys : IdKind.uuid.mapBatch items with failure | keys
  · obtain rfl : failure = e := by
      have hrun := Step.bind_of_error (Action.ofResult_apply (.error failure) m)
        fun _ : List MappedId =>
          (Server.put (className c.collection) (items.map Object.ofItem)).toAction
      rw [← hkeys] at hrun
      exact Except.error.inj (Prod.mk.inj (hrun.symm.trans h)).1
    rw [IdKind.kind_of_mapFrom hkeys]
    exact nofun
  · have hrun := Action.ofResult_bind_of_ok hkeys (s := m)
      fun _ => (Server.put (className c.collection) (items.map Object.ofItem)).toAction
    have hput := hrun.symm.trans h
    rw [Call.toAction] at hput
    rcases hanswer : Server.put (className c.collection) (items.map Object.ofItem) m with
      ⟨failure | _, t⟩ <;> rw [hanswer] at hput <;> cases hput
    exact Family.kind_of_toError failure

/-- A collection is opened under either name, or under neither. -/
theorem openCollection_paired (hn : className n = className n') :
    Step.Paired (fun c c' => (family (τ := Memory)).Indistinct c c' ∧ c.definition = c'.definition)
      Eq Eq Eq (openCollection n m) (openCollection n' m) := by
  rw [openCollection, openCollection, Step.bind_apply, Step.bind_apply, hn]
  rcases Server.describe (className n') m with ⟨e | definition, m'⟩
  · exact .error rfl rfl
  · exact .ok ⟨indistinct hn rfl, rfl⟩ rfl

/-- **The server is asked the same under names of one class.** -/
theorem sharesNames : (family (τ := Memory)).SharesNames className Memory.Named where
  reads := readsOnly
  guards := guards_named
  create hn c w metric := by simp only [family, hn]
  drop hn := by simp only [family, hn]
  count {n n'} hn := by simp only [family, openCollection, hn, bind_assoc, pure_bind]
  attach hn := (openCollection_paired hn).imp (fun _ _ h => h.1) fun _ _ h => h
  inspect hn := (openCollection_paired hn).then_pure fun c c' hc =>
    ⟨hc.1, by rw [hc.2]⟩
  attach_of_inspect {n m c scoring} hinspect := by
    obtain ⟨c', m₁, hopen, hpure⟩ := Step.bind_eq_ok_iff.1 hinspect
    cases hpure
    exact hopen
  named {n m c} hattach := by
    obtain ⟨s, -, rfl⟩ := attach_eq_ok hattach
    rfl
  widths {n m c} hm hattach := by
    obtain ⟨s, hs, rfl⟩ := attach_eq_ok hattach
    have hname : Keyed.get? s.definition.name m.classes = some s := by rw [hm _ s hs]; exact hs
    have hdescribe : Server.describe (className n) m = (.ok s.definition, m) := reading_apply hs _
    have hlist : Server.list s.definition none 0 1 m = (.ok _, m) := reading_apply hname _
    exact ⟨none, _, rfl, (Step.bind_of_ok hdescribe _).trans (Step.bind_of_ok hlist _)⟩
  write_kind := write_kind

/-! ## Runs -/

/-- **Names of one class are interchangeable** as long as what is remembered under them
agrees: whichever of them each call is made with, it succeeds with the same answer or
fails for the same kind of reason, and the server comes to the same. -/
theorem names_interchangeable {c : Context} {calls calls' : List AdapterCall}
    (hblind : c.Blind className)
    (h : family.Respelled className (.start Memory.empty c) (.start .empty c) calls calls') :
    List.Forall₂ AdapterAnswer.Concord (family.adapter.run calls (.start Memory.empty c)).1
        (family.adapter.run calls' (.start Memory.empty c)).1 ∧
      (family.adapter.run calls (.start Memory.empty c)).2.server =
        (family.adapter.run calls' (.start Memory.empty c)).2.server := by
  have hready : Family.Ready Memory.Named (.start .empty c) := ⟨fun _ _ hs => (nomatch hs), trivial⟩
  exact sharesNames.run h ⟨rfl, rfl, rfl, hblind, rfl⟩ hready hready

/-- The id of a sample, which is a UUID as it stands. -/
def sampleId : String := "6ba7b810-9dad-11d1-80b4-00c04fd430c8"

/-- Another name of one collection. -/
def respell (name : String) : String := if name = "docs" then "Docs" else name

theorem className_respell (name : String) : className (respell name) = className name := by
  unfold respell
  split
  · rename_i h
    subst h
    decide
  · rfl

/-- A collection that is created and written to, and then read. -/
def writing : List AdapterCall :=
  [.connect, .createCollection "docs" 2 .cosine, .addItems "docs" [Item.ofWidth sampleId 2],
    .walk "docs" 1 none, .countItems "docs"]

/-- The same, where all but the creation is done under another name. -/
def writingRespelled : List AdapterCall :=
  [.connect, .createCollection "docs" 2 .cosine, .addItems "Docs" [Item.ofWidth sampleId 2],
    .walk "Docs" 1 none, .countItems "Docs"]

theorem names_interchangeable_of_writing :
    List.Forall₂ AdapterAnswer.Concord
        (family.adapter.run writing (.start Memory.empty .empty)).1
        (family.adapter.run writingRespelled (.start Memory.empty .empty)).1 ∧
      (family.adapter.run writing (.start Memory.empty .empty)).2.server =
        (family.adapter.run writingRespelled (.start Memory.empty .empty)).2.server := by
  refine names_interchangeable Context.blind_empty ?_
  refine .cons id (fun _ => rfl) trivial (.cons id (fun _ => rfl) trivial ?_)
  refine .cons respell className_respell (.inr (by decide +kernel)) ?_
  exact .cons respell className_respell trivial
    (.cons respell className_respell trivial .nil)

/-- A collection is created, dropped under a name, and created under it for another
width, which is the width that is then written. -/
def recreating (name : String) : List AdapterCall :=
  [.connect, .createCollection "docs" 1 .cosine, .dropCollection name,
    .createCollection name 2 .cosine, .addItems "docs" [Item.ofWidth sampleId 2]]

/-- **A class that is dropped under one name leaves its width behind under the other**:
the run that keeps to one name succeeds throughout, the run that does not is refused for
the width of the class that is gone. -/
theorem width_left_under_other_name :
    className "Docs" = className "docs" ∧
      (family.adapter.run (recreating "docs") (.start Memory.empty .empty)).1.map
        (·.toOption.isSome) = [true, true, true, true, true] ∧
      (family.adapter.run (recreating "Docs") (.start Memory.empty .empty)).1.map
        Family.refusedForWidth = [false, false, false, false, true] := by
  decide +kernel

end Weaviate

end VectorBridge
