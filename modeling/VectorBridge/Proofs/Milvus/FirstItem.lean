import VectorBridge.Proofs.Family.FirstItem
import VectorBridge.Proofs.Milvus.Overwriting
/-!
# The first row of a collection

Keys are assigned to the items of a batch as if rows were there to ask for, and
of an empty collection none are. What has to be known of a server is that the
fields of a schema are told apart.
-/

namespace VectorBridge

namespace Milvus

/-- The fields of every schema are told apart. -/
def Memory.Apart (m : Memory) : Prop :=
  ∀ name s, Keyed.get? name m.collections = some s → s.schema.Apart

variable {m m' : Memory} {name : String} {s : Stored} {c : Opened}

theorem Memory.Prepared.apart (h : m.Prepared) : m.Apart := by
  intro name s hs
  exact (h.sound name s hs).apart

/-- A change of a collection that keeps its schema keeps all schemas. -/
theorem keeps_apart {f : Stored → Except TransportError Stored} (name : String)
    (hf : ∀ s s', f s = .ok s' → s'.schema = s.schema) :
    Step.Keeps Memory.Apart (Memory.changing name f) := by
  intro m hm
  refine forall_changing (P := fun s => s.schema.Apart) hm fun s s' hs hfs => ?_
  rw [hf s s' hfs]
  exact hm name s hs

theorem guards_apart : (family (τ := Memory)).Guards Memory.Apart fun _ => True where
  create _ name width metric m hm := by
    show Memory.Apart (Memory.create name width metric m).2
    unfold Memory.create
    split
    · exact hm
    · exact Keyed.forall_insert hm (apart_plain _ _)
  drop name := by
    refine Step.Keeps.bind (leaves_openCollection name).keeps fun _ m hm => ?_
    exact Keyed.forall_erase hm name
  eraseIds c ids := by
    show Step.Keeps Memory.Apart (deleteAll (τ := Memory) c (idSelectors c.schema ids))
    induction idSelectors c.schema ids with
    | nil => exact (Step.leaves_pure _).keeps
    | cons e rest ih =>
      refine Step.Keeps.bind (keeps_apart c.name fun s s' h => ?_) fun _ => ih
      cases h
      rfl
  eraseWhere c e := by
    refine keeps_apart c.name fun s s' h => ?_
    cases h
    rfl
  write {name m c items} hm _ _ _ := by
    refine Step.keeps_bind_at ((leaves_assignKeys _ items).keeps m hm) fun keys m₁ hassign => ?_
    obtain rfl := eq_of_assignKeys hassign
    refine Step.keeps_bind_at hm fun rows m₂ hmake => ?_
    obtain ⟨-, rfl⟩ := Prod.mk.inj hmake
    rw [Session.toAction_snd]
    refine keeps_apart c.name (fun s s' h => ?_) m₁ hm
    unfold Stored.upsert at h
    split at h
    · cases h
    · cases h
      rfl
  plain_fetch _ _ _ _ _ := trivial

/-- Whether a collection keeps an id beside its key: an integer key tells an id that
is the text of it. -/
def Stored.keepsBeside (s : Stored) (id : String) : Bool :=
  s.schema.idKind = .integer && !isPlainNumber id

/-- A key that an id may stand under keeps the id beside it where the collection does,
and else is the text of it. -/
theorem keepsId_eq_keepsBeside {id : String} {key : MappedId} (h : s.schema.Maps id key) :
    key.keepsId = s.keepsBeside id := by
  unfold Schema.Maps at h
  split at h
  · rename_i hkind
    obtain ⟨k, hk, rfl, hnamed⟩ := h
    rw [Stored.keepsBeside, isPlainNumber, hkind]
    by_cases hid : toString k = id
    · have hplain : plainNumber? id = some k := hid ▸ plainNumber?_toString hk
      have hsame : (toString k != id) = false := bne_eq_false_iff_eq.2 hid
      exact hsame.trans (by rw [hplain]; rfl)
    · have hother : (toString k != id) = true := bne_iff_ne.2 hid
      exact hother.trans (by rw [hnamed hid]; rfl)
  · rename_i hkind
    subst h
    have hne : s.schema.idKind ≠ .integer := fun heq => hkind heq
    simp [Stored.keepsBeside, hne]

theorem text_keyOf_of_not_keepsId (hS : s.schema.Apart) {item : Item} {key : MappedId} {row : Row}
    (hkey : s.schema.Maps item.id key) (h : rowOf s.schema item key = .ok row)
    (hkept : key.keepsId = false) : (keyOf s.schema row).text = item.id := by
  have hprimary := (get?_rowOf_given hS h).1
  unfold Schema.Maps at hkey
  split at hkey
  · obtain ⟨k, hk, rfl, -⟩ := hkey
    have hid : toString k = item.id := bne_eq_false_iff_eq.1 hkept
    rw [keyOf_nat hk hprimary]
    exact hid
  · subst hkey
    rw [keyOf_str hprimary]
    rfl

/-- The row of an item is read under the item's id exactly when the id survives. -/
theorem itemOf_rowOf_id_iff (hS : s.schema.Apart) {item : Item} {key : MappedId} {row : Row}
    (hkey : s.schema.Maps item.id key) (h : rowOf s.schema item key = .ok row) :
    (itemOf s.schema row).id = item.id ↔ item.IdSurvives (s.keepsBeside item.id) := by
  have hkept := keepsId_eq_keepsBeside hkey
  refine IdKind.recover_eq_id_iff (fun hnot => ?_) ?_
  · exact text_keyOf_of_not_keepsId hS hkey h (hkept.trans hnot)
  · rw [get?_given_erase hS, (get?_rowOf_given hS h).2, hkept]

/-- **A collection shows its first row**, under the id of its item exactly when the id
survives. -/
theorem showsFirst :
    storage.ShowsFirst (family (τ := Memory)) Memory.Apart Stored.keepsBeside where
  attach_of_held := lawful.attach_of_held
  write := by
    intro m m' name c s item ho hempty hwrite
    obtain rfl := opened_eq ho
    have hs : Keyed.get? name m.collections = some s := ho.held
    have hapart : s.schema.Apart := ho.inv name s hs
    have hnone : s.rows = [] := List.map_eq_nil_iff.1 hempty
    have hsound : s.Sound := by
      refine ⟨hapart, ?_, ?_, ?_⟩ <;> rw [hnone]
      · exact nofun
      · exact List.nodup_nil
      · exact List.nodup_nil
    obtain ⟨keys, rows, hassign, hmade, rfl⟩ :=
      write_eq_ok (c := ⟨name, s.schema⟩) hs rfl hwrite
    obtain ⟨-, hkeys, -⟩ := assignKeys_eq_ok (c := ⟨name, s.schema⟩) hsound hs rfl hassign
    obtain ⟨key, rfl⟩ : ∃ key, keys = [key] := List.length_eq_one_iff.1 hkeys.length_eq.symm
    obtain ⟨hadmits, -⟩ := List.forall₂_cons.1 hkeys
    obtain ⟨row, hrow, rfl⟩ : ∃ row, rowOf s.schema item key = .ok row ∧ rows = [row] := by
      rw [rowsOf] at hmade
      split at hmade
      · cases hmade
      · rename_i row hrow
        cases hmade
        exact ⟨row, hrow, rfl⟩
    refine ⟨s.written [row], itemOf s.schema row, Keyed.get?_insert_self _ _ _, ?_,
      itemOf_rowOf_id_iff hapart hadmits.1 hrow⟩
    show (place s.schema.primaryField row s.rows).map (itemOf s.schema) = _
    rw [hnone]
    rfl
  drains_readPage := by
    intro m name c s shown ho hitems sizes items m' hdrain
    rw [drains_eq_passing ho hdrain, Storage.passing_none, hitems]
  readPage := by
    intro m name c s shown ho hitems
    have hpassing : storage.passing s none = [shown] := by rw [Storage.passing_none, hitems]
    have hshort : (storage.passing s none).length < 2 := by
      rw [hpassing]
      exact Nat.one_lt_two
    have hwindow : 2 ≤ window := by decide
    rw [readPage_of_short ho hwindow hshort, hpassing]

end Milvus

end VectorBridge
