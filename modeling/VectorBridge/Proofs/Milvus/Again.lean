import VectorBridge.Proofs.Family.Again
import VectorBridge.Proofs.Milvus.RoundTrip
/-!
# Rows written again

Keys are assigned by what a collection holds, so a batch that is written again could be
given others than before. It is not. An item that was written stands under its key; an id
that is found there keeps its key, one that is not found is a plain number and has no other,
and every key that is claimed is held by the id that claims it. The same keys make the same
rows, which are there already.

The width of a collection is another matter. Where the schema declares none and none was
known, a width is read off the first row, whose vector is read without the components that
are no numbers.
-/

namespace VectorBridge

namespace Milvus

variable {m m' : Memory} {name : String} {s : Stored} {c : Opened} {S : Schema}
variable {items : List Item} {keys : List MappedId} {rows : List Row}

/-! ## The same keys -/

/-- A key of an id is told by what is written of it. -/
theorem Schema.Maps.ext {id : String} {key key' : MappedId} (h : S.Maps id key)
    (h' : S.Maps id key') (heq : keyJson key.backend = keyJson key'.backend) : key = key' := by
  unfold Schema.Maps at h h'
  split at h
  · rename_i hkind
    rw [hkind] at h'
    obtain ⟨k, -, rfl, -⟩ := h
    obtain ⟨k', -, rfl, -⟩ := h'
    rw [nat_inj heq]
  · rename_i hkind
    have h' : key' = ⟨.string id, false⟩ := by
      revert h'
      cases hS : S.idKind <;> intro h'
      all_goals first | exact h' | exact absurd hS hkind
    rw [h, h']

/-- Lists that a list determines entry by entry are one. -/
theorem eq_of_forall₂ {α β : Type} {R R' : α → β → Prop} {l : List α} {l₁ l₂ : List β}
    (h₁ : List.Forall₂ R l l₁) (h₂ : List.Forall₂ R' l l₂)
    (heq : ∀ a b b', R a b → R' a b' → b = b') : l₁ = l₂ := by
  induction h₁ generalizing l₂ with
  | nil =>
    cases h₂
    rfl
  | cons hab _ ih =>
    cases h₂ with
    | cons hab' hrest => rw [heq _ _ _ hab hab', ih hrest]

/-- Where each claimed key is found under the id that claims it, if at all, no key is
foreign. -/
theorem foreign?_eq_none {owners claims : List (Nat × String)}
    (h : ∀ claim ∈ claims, ∀ owner, owners.lookup claim.1 = some owner → owner = claim.2) :
    foreign? owners claims = none := by
  induction claims with
  | nil => rfl
  | cons claim rest ih =>
    rw [List.forall_mem_cons] at h
    rw [foreign?]
    cases hlookup : owners.lookup claim.1 with
    | none => exact ih h.2
    | some owner =>
      simp only [h.1 owner hlookup, if_true]
      exact ih h.2

/-- Each item of a batch is made a row under its key. -/
theorem forall₂_mem_rowOf {P : Item → MappedId → Prop} (hkeys : List.Forall₂ P items keys)
    (hrows : rowsOf S items keys = .ok rows) :
    List.Forall₂ (fun item key => P item key ∧ ∃ row ∈ rows, rowOf S item key = .ok row)
      items keys := by
  induction hkeys generalizing rows with
  | nil => exact .nil
  | cons hkey _ ih =>
    rw [rowsOf] at hrows
    split at hrows
    · cases hrows
    · rename_i row hrow
      split at hrows
      · cases hrows
      · rename_i rest hrest
        cases hrows
        refine .cons ⟨hkey, row, List.mem_cons_self, hrow⟩ ((ih hrest).imp ?_)
        rintro item key ⟨hkey, row, hmem, hof⟩
        exact ⟨hkey, row, List.mem_cons_of_mem _ hmem, hof⟩

/-- A batch that was given keys and written as rows, with what the collection satisfies before
and after. -/
structure Wrote (c : Opened) (s : Stored) (m : Memory) (items : List Item)
    (keys : List MappedId) (rows : List Row) : Prop where
  before : s.Sound
  held : Keyed.get? c.name m.collections = some s
  schema : c.schema = s.schema
  plain : ∀ item ∈ items, Metadata.Plain item.metadata
  ids : (items.map (·.id)).Nodup
  assigned : assignKeys c items m = (.ok keys, m)
  made : rowsOf s.schema items keys = .ok rows
  after : (s.written rows).Sound

namespace Wrote

theorem admits (W : Wrote c s m items keys rows) : List.Forall₂ s.Admits items keys :=
  (assignKeys_eq_ok W.before W.held W.schema W.assigned).2.1

theorem keyed (W : Wrote c s m items keys rows) : ∀ row ∈ rows, s.schema.Keys row :=
  (rowsOf_eq_ok W.before W.admits W.plain W.made).1

/-- The rows have keys of their own. -/
theorem nodup_keys (W : Wrote c s m items keys rows) : (rows.map s.schema.key).Nodup := by
  by_cases hkind : s.schema.idKind = .integer
  · have hclears := (assignKeys_eq_ok W.before W.held W.schema W.assigned).2.2 hkind
    have hstands := (stands_of_rowsOf W.before hkind W.admits W.plain W.made).1
    exact nodup_keys_of_stands hstands hclears.distinct
  · -- under string keys each row stands under the id of its item
    have hapart := W.before.apart
    have hmap : rows.map s.schema.key = (items.map (·.id)).map fun id => some (.str id) := by
      rw [List.map_map]
      refine (map_eq_of_forall₂ (forall₂_rowOf W.admits W.made) ?_).symm
      rintro item row ⟨key, hadmits, hof⟩
      exact (key_rowOf hapart hkind hadmits.1 hof).symm
    rw [hmap]
    exact W.ids.map fun id id' heq => Json.str.inj (Option.some.inj heq)

theorem mem_written (W : Wrote c s m items keys rows) {row : Row} (hrow : row ∈ rows) :
    row ∈ (s.written rows).rows :=
  (Milvus.mem_written W.before W.keyed W.nodup_keys).2 (.inl hrow)

/-- **Rows that are written again** are there. -/
theorem written_again (W : Wrote c s m items keys rows) :
    (s.written rows).written rows = s.written rows := by
  have hrows : rows.foldl (fun l row => place s.schema.primaryField row l) (s.written rows).rows =
      (s.written rows).rows := by
    refine foldl_put_self fun row hrow => ?_
    have hsame : ∀ r ∈ (s.written rows).rows, sameKey (s.schema.key r) (s.schema.key row) = true ↔
        s.schema.key r = s.schema.key row :=
      fun r hr => sameKey_iff (W.after.keys r hr) (W.keyed row hrow)
    rw [place_eq]
    exact placeBy.eq_self hsame W.after.distinct (W.mem_written hrow)
  exact congrArg (fun rows => ({ s with rows } : Stored)) hrows

/-- Each item of the batch has a row under its key. -/
theorem exists_row (W : Wrote c s m items keys rows) :
    List.Forall₂ (fun item key => s.schema.Maps item.id key ∧ ∃ row ∈ (s.written rows).rows,
      s.schema.key row = some (keyJson key.backend) ∧ (itemOf s.schema row).id = item.id)
      items keys := by
  have hall := (List.forall₂_and_left _ _).2 ⟨W.plain, W.admits⟩
  refine (forall₂_mem_rowOf hall W.made).imp ?_
  rintro item key ⟨⟨hplain, hadmits⟩, row, hrow, hof⟩
  exact ⟨hadmits.1, row, W.mem_written hrow, (get?_rowOf W.before.apart hplain hof).1,
    (keys_rowOf W.before.apart hplain hadmits.1 hof).2⟩

/-- **An item that was written is given the key that it stands under.** -/
theorem assigns_again (W : Wrote c s m items keys rows) (hkind : s.schema.idKind = .integer)
    (A : s.Assigns items keys) : (s.written rows).Assigns items keys where
  mapped := by
    obtain ⟨mapped, hmap, -⟩ := A.mapped
    refine ⟨mapped, hmap, ?_⟩
    refine eq_of_forall₂ W.exists_row (forall₂_admits_settle W.after hkind hmap A.few) ?_
    rintro item key key' ⟨hmaps, row, hrow, hkey, hid⟩ hadmits
    exact hmaps.ext hadmits.1 (Option.some.inj (hkey.symm.trans (hadmits.2 row hrow hid)))
  few := A.few
  apart := A.apart
  asked := A.asked
  free := by
    -- the row of a claimed key is the one that was written for the claim
    refine foreign?_eq_none fun claim hclaim owner howner => ?_
    have hheld := List.mem_reverse.1 (mem_of_lookup howner)
    obtain ⟨row, hasked, hrow⟩ := List.mem_filterMap.1 hheld
    have hmem := (List.mem_filter.1 (List.mem_of_mem_take hasked)).1
    obtain ⟨hkey, hid⟩ := (ownerOf_eq_some_iff (W.after.keys row hmem) hkind).1 hrow
    obtain ⟨own, hown, hstands⟩ :=
      exists_row_of_claim (stands_of_rowsOf W.before hkind W.admits W.plain W.made).1 hclaim
    obtain rfl : row = own := List.inj_on_of_nodup_map W.after.distinct hmem (W.mem_written hown)
      (hkey.trans hstands.key.symm)
    exact hid.symm.trans hstands.id

theorem assignKeys_again (W : Wrote c s m items keys rows)
    (hs' : Keyed.get? c.name m'.collections = some (s.written rows)) :
    assignKeys c items m' = (.ok keys, m') := by
  by_cases hkind : s.schema.idKind = .integer
  · have hschema : c.schema = (s.written rows).schema := W.schema
    have A := ((assignKeys_integer_iff W.held W.schema hkind).1 W.assigned).2
    exact (assignKeys_integer_iff hs' hschema hkind).2 ⟨rfl, W.assigns_again hkind A⟩
  · -- string keys are told by the ids
    have hne : c.schema.idKind ≠ .integer := W.schema ▸ hkind
    obtain ⟨mapped, m₁, hfirst, hassign⟩ := Step.bind_eq_ok_iff.1 W.assigned
    obtain ⟨hmap, rfl⟩ := Prod.mk.inj hfirst
    rw [if_pos hne] at hassign
    cases hassign
    rw [assignKeys, Action.ofResult_bind_of_ok hmap, if_pos hne]
    rfl

/-- The rows had the width of the schema, if it declares one. -/
theorem misfit?_eq_none (W : Wrote c s m items keys rows)
    (hwrite : family.write c items m = (.ok (), m')) : s.misfit? rows = none :=
  misfit?_of_write W.held W.schema W.assigned W.made hwrite

/-- **A batch that is written again** leaves the server as it was. -/
theorem write_again (W : Wrote c s m items keys rows)
    (hwrite : family.write c items m = (.ok (), m')) :
    family.write c items m' = (.ok (), m') := by
  have hfit : (s.written rows).misfit? rows = none := W.misfit?_eq_none hwrite
  obtain ⟨keys', rows', hassign, hmade, rfl⟩ := write_eq_ok W.held W.schema hwrite
  obtain rfl : keys = keys' := Except.ok.inj (Prod.mk.inj (W.assigned.symm.trans hassign)).1
  obtain rfl : rows = rows' := Except.ok.inj (W.made.symm.trans hmade)
  have hs' := Keyed.get?_insert_self c.name (s.written rows) m.collections
  have hput : Server.upsert c.name rows
      (⟨Keyed.insert c.name (s.written rows) m.collections⟩ : Memory) = _ :=
    changing_of_ok hs' (by rw [Stored.upsert, hfit])
  show (assignKeys c items >>= fun keys => _) _ = _
  rw [Step.bind_of_ok (W.assignKeys_again hs'), Action.ofResult_bind_of_ok (W.schema ▸ W.made)]
  refine (Call.toAction_of_ok hput).trans ?_
  rw [Keyed.insert_insert]
  exact congrArg (fun s => (_, (⟨Keyed.insert c.name s m.collections⟩ : Memory))) W.written_again

end Wrote

/-! ## The width -/

/-- Every component of the vector in the first row is a number, or the schema tells how many
there are. -/
def Stored.ReadsWhole (s : Stored) : Prop :=
  s.schema.dimension = none → ∀ row ∈ s.rows.head?,
    ∀ elems ∈ (Keyed.get? s.schema.vectorField row).bind Json.arr?,
      ∀ j ∈ elems, j.num?.isSome = true

instance (s : Stored) : Decidable s.ReadsWhole :=
  inferInstanceAs (Decidable (_ → _))

/-- The first row stays the first, or a new one takes its place. -/
theorem head?_written {row : Row} (h : (s.written rows).rows.head? = some row) :
    row ∈ rows ∨ s.rows.head? = some row := by
  have hplace : ∀ {l : List Row} {first row : Row},
      (place s.schema.primaryField first l).head? = some row →
        row = first ∨ l.head? = some row := by
    intro l first row hhead
    cases l with
    | nil => exact .inl (Option.some.inj hhead).symm
    | cons r rest =>
      rw [place] at hhead
      split at hhead
      · exact .inl (Option.some.inj hhead).symm
      · exact .inr hhead
  rw [Stored.written] at h
  generalize s.rows = l at h
  induction rows generalizing l with
  | nil => exact .inr h
  | cons first rest ih =>
    rcases ih _ h with hmem | hhead
    · exact .inl (List.mem_cons_of_mem _ hmem)
    · rcases hplace hhead with rfl | hold
      · exact .inl List.mem_cons_self
      · exact .inr hold

/-- A vector whose components are numbers is read in full. -/
theorem length_ofNumbers {elems : List Json} (h : ∀ j ∈ elems, j.num?.isSome = true) :
    (Embedding.ofNumbers elems).length = elems.length := by
  rw [Embedding.ofNumbers, List.length_filterMap_eq_countP, List.countP_eq_length]
  intro j hj
  rw [Option.isSome_map]
  exact h j hj

/-- The width of the first row, as it is probed. -/
def Stored.probe (s : Stored) : Option Nat :=
  s.rows.head?.bind fun row => (itemOf s.schema row).embedding.map List.length

theorem describe_apply (hs : Keyed.get? name m.collections = some s) :
    Server.describe name m = (.ok s.schema, m) := by
  show (Except.map (·.schema) (m.find? name), m) = _
  rw [Memory.find?, hs]
  rfl

theorem declaredWidth_apply (hs : Keyed.get? c.name m.collections = some s) :
    (family (τ := Memory)).declaredWidth c m = (.ok s.schema.dimension, m) :=
  Step.bind_of_ok (describe_apply hs) _

theorem probedWidth_apply (hs : Keyed.get? c.name m.collections = some s) :
    (family (τ := Memory)).probedWidth c m = (.ok s.probe, m) := by
  have hquery : Server.query c.name none 0 1 m = (.ok (s.rows.take 1), m) := by
    refine (query_apply hs (by decide)).trans ?_
    have hall : s.rows.filter (passes none) = s.rows := List.filter_eq_self.2 fun _ _ => rfl
    rw [List.drop_zero, Stored.passing, hall]
  refine (Step.bind_of_ok (describe_apply hs) _).trans ((Step.bind_of_ok hquery _).trans ?_)
  rw [Stored.probe]
  cases s.rows with
  | nil => rfl
  | cons row rest =>
    rw [List.take_succ_cons, List.take_zero, List.findSome?_singleton]
    rfl

/-- A row of a batch is read as wide as the vector that was written, or as having none. -/
theorem length_of_rowOf (hS : S.Apart) {item : Item} {key : MappedId} {row : Row}
    (hof : rowOf S item key = .ok row) {e v : Embedding} (hvector : item.embedding = some e)
    (hwhole : ∀ elems ∈ (Keyed.get? S.vectorField row).bind Json.arr?,
      ∀ j ∈ elems, j.num?.isSome = true)
    (hread : (itemOf S row).embedding = some v) : v.length = e.length := by
  have hstored : Keyed.get? S.vectorField row = some (.arr (e.map Json.ofFloat32)) := by
    rw [get?_vector_rowOf hS hof, hvector]
    rfl
  have hv : vectorOf? (Keyed.erase documentFieldName (Keyed.erase S.primaryField row))
    S.vectorField = some v := hread
  rw [vectorOf?, Keyed.get?_erase] at hv
  split at hv
  · cases hv
  · rw [Keyed.get?_erase_of_ne hS.primary_ne_vector, hstored] at hv
    obtain rfl := Option.some.inj hv
    rw [length_ofNumbers (hwhole _ (by rw [hstored]; rfl)), List.length_map]

theorem repeating : (family (τ := Memory)).Repeating Memory.Sound fun m name =>
    ∀ s, Keyed.get? name m.collections = some s → s.ReadsWhole := by
  intro name c batch m m' hm hattach hplain hids hwrite hwhole
  have hsound' : m'.Sound := by
    have hkept := guards.write hm hattach hids hplain
    rwa [hwrite] at hkept
  obtain ⟨s, hs, rfl⟩ := attach_eq_ok hattach
  have hwritten := hwrite
  obtain ⟨keys, rows, hassign, hmade, rfl⟩ :=
    write_eq_ok (c := ⟨name, s.schema⟩) hs rfl hwrite
  have hs' : Keyed.get? name (Keyed.insert name (s.written rows) m.collections) = _ :=
    Keyed.get?_insert_self _ _ _
  have W : Wrote ⟨name, s.schema⟩ s m batch keys rows :=
    ⟨hm name s hs, hs, rfl, hplain, hids, hassign, hmade, hsound' name _ hs'⟩
  obtain ⟨c, hattach'⟩ := lawful.attach_of_held hs'
  obtain ⟨s', hs'', rfl⟩ := attach_eq_ok hattach'
  obtain rfl := Option.some.inj (hs''.symm.trans hs')
  refine ⟨_, hattach', ⟨rfl, rfl⟩, rfl, W.write_again hwritten, ?_⟩
  intro w hdeclared hprobed hfits hvectors
  have hnone : s.schema.dimension = none := by
    rw [declaredWidth_apply (c := ⟨name, s.schema⟩) hs] at hdeclared
    exact Except.ok.inj (Prod.mk.inj hdeclared).1
  have hprobe : s.probe = none := by
    rw [probedWidth_apply (c := ⟨name, s.schema⟩) hs] at hprobed
    exact Except.ok.inj (Prod.mk.inj hprobed).1
  have hdeclared' := declaredWidth_apply (c := ⟨name, s.schema⟩) (s := s.written rows) hs'
  refine .inr ⟨_, _, hdeclared', probedWidth_apply (c := ⟨name, s.schema⟩) hs', fun w' hw' => ?_⟩
  rw [show (s.written rows).schema.dimension = none from hnone] at hw'
  obtain ⟨row, hhead, hmap⟩ :=
    Option.bind_eq_some_iff.1 (show (s.written rows).probe = some w' from hw')
  obtain ⟨v, hread, rfl⟩ := Option.map_eq_some_iff.1 hmap
  rcases head?_written hhead with hnew | hold
  · -- the first row is new, and as wide as its item
    obtain ⟨item, hitem, key, -, hof⟩ := exists_of_forall₂ (forall₂_rowOf W.admits hmade).flip hnew
    obtain ⟨e, he⟩ := Option.isSome_iff_exists.1
      (Family.isSome_of_checkVectors (F := family) rfl hvectors item hitem)
    rw [length_of_rowOf W.before.apart hof he
      (hwhole _ hs' hnone row hhead) hread]
    obtain ⟨-, hwide, hfit⟩ := Batch.checkDimensions_eq_ok hfits
    obtain ⟨width, rfl⟩ := hwide ⟨item, hitem, by rw [he]; rfl⟩
    have hitemFits := hfit width rfl e (List.mem_filterMap.2 ⟨item, hitem, he⟩)
    exact fun v hv => (hfit width rfl v hv).trans hitemFits.symm
  · -- the first row is the one that told no width before
    have htold : s.probe = some v.length := by
      rw [Stored.probe, hold]
      exact congrArg (Option.map List.length) hread
    rw [hprobe] at htold
    cases htold

end Milvus

end VectorBridge
