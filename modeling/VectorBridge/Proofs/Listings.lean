import VectorBridge.Proofs.Json.Injective
/-!
# Listings of a collection

A listing that was fetched whole is held under a key of its own for each collection and each
filter. The listings of a collection are forgotten together, by how their keys begin, and what
carries this module is which keys begin so: those of the collection, and those of a collection
whose name goes on behind the separator where the other name ends (`startsWith_key_iff`).
Where no name has a separator in it there are none of the second kind.
-/

namespace VectorBridge

namespace Listings

variable {α : Type} {name : String} {filter : Option Filter}

/-- The separator's character. -/
def mark : Char := '\x1f'

theorem toList_keyStart (collection : String) :
    (keyStart collection).toList = collection.toList ++ [mark] :=
  String.toList_append

/-- **A key begins as those of a collection do** exactly when it is of that collection, or of
one whose name begins so. -/
theorem startsWith_key_iff (name collection : String) {text : String}
    (htext : Json.Printable text) :
    Text.startsWith (key name text) (keyStart collection) = true ↔
      name = collection ∨ Text.startsWith name (keyStart collection) = true := by
  have hmark : mark ∉ text.toList := fun hmem => absurd (htext _ hmem) (by decide)
  simp only [Text.startsWith, List.isPrefixOf_iff_prefix, key, String.toList_append,
    toList_keyStart, ← String.toList_inj]
  constructor
  · rintro ⟨rest, hrest⟩
    rw [List.append_assoc, List.append_assoc] at hrest
    -- the two names are parts of one text, so one of them begins with the other
    rcases List.append_eq_append_iff.1 hrest with ⟨more, hname, hmore⟩ | ⟨more, hname, hmore⟩
    · cases more with
      | nil => exact .inl (hname.trans (List.append_nil _))
      | cons c more =>
        obtain ⟨rfl, -⟩ := List.cons.inj hmore
        exact .inr ⟨more, by rw [hname, List.append_assoc]; rfl⟩
    · cases more with
      | nil => exact .inl (hname.trans (List.append_nil _)).symm
      | cons c more =>
        have hin : text.toList = more ++ ([mark] ++ rest) := (List.cons.inj hmore).2
        exact absurd (hin ▸ List.mem_append_right more List.mem_cons_self) hmark
  · rintro (hname | ⟨rest, hrest⟩)
    · rw [hname]
      exact List.prefix_append _ _
    · rw [← hrest, List.append_assoc, List.append_assoc]
      exact List.prefix_append _ _

/-- A name without the separator in it does not go on behind another name's. -/
theorem not_startsWith_of_notMem (h : mark ∉ name.toList) (collection : String) :
    ¬ Text.startsWith name (keyStart collection) = true := by
  rw [Text.startsWith, List.isPrefixOf_iff_prefix, toList_keyStart]
  intro hbegins
  exact h (hbegins.subset (List.mem_append_right _ (List.mem_singleton_self mark)))

/-- **What is held under a key after the listings of a collection are forgotten.** -/
theorem get?_invalidate (l : Listings α) (name collection : String) (filter : Option Filter) :
    Keyed.get? (Session.listingKey name filter) (l.invalidate (keyStart collection)) =
      if name = collection ∨ Text.startsWith name (keyStart collection) = true then none
      else Keyed.get? (Session.listingKey name filter) l := by
  have hbegins := startsWith_key_iff name collection (Session.printable_fingerprint filter)
  rw [invalidate, Keyed.get?_filter_key fun key => !Text.startsWith key (keyStart collection)]
  by_cases hkey : name = collection ∨ Text.startsWith name (keyStart collection) = true
  · rw [if_pos hkey, Session.listingKey, hbegins.2 hkey]
    rfl
  · rw [if_neg hkey, Session.listingKey, Bool.eq_false_iff.2 fun h => hkey (hbegins.1 h)]
    rfl

/-- The listings that are held are of collections without the separator in their names. -/
def Unmarked (l : Listings α) : Prop :=
  ∀ key ∈ Keyed.keys l, ∃ name filter, key = Session.listingKey name filter ∧ mark ∉ name.toList

/-- A collection with the separator in its name has no listing there. -/
theorem Unmarked.get?_eq_none {l : Listings α} (h : l.Unmarked) (hname : ¬ mark ∉ name.toList) :
    Keyed.get? (Session.listingKey name filter) l = none := by
  by_contra hheld
  obtain ⟨found, hfound⟩ := Option.ne_none_iff_exists'.1 hheld
  obtain ⟨name', filter', hkey, hmark⟩ :=
    h _ (List.mem_map_of_mem (f := (·.1)) (Keyed.mem_of_get? hfound))
  obtain ⟨rfl, -⟩ := Session.listingKey_injective hkey
  exact hname hmark

/-- **Listings are kept apart and forgotten as a whole.** A key tells the collection and the
filter; when the listings of a collection are forgotten none of them is left; and where the
names have no separator in them, every listing of any other collection is. -/
theorem listings_of_one_collection (l : Listings α) (collection : String) :
    (∀ name name' filter filter',
      Session.listingKey name filter = Session.listingKey name' filter' →
        name = name' ∧ filter = filter') ∧
    (∀ filter, Keyed.get? (Session.listingKey collection filter)
      (l.invalidate (keyStart collection)) = none) ∧
    (l.Unmarked → ∀ name, name ≠ collection → ∀ filter,
      Keyed.get? (Session.listingKey name filter) (l.invalidate (keyStart collection)) =
        Keyed.get? (Session.listingKey name filter) l) := by
  refine ⟨fun _ _ _ _ => Session.listingKey_injective, fun filter => ?_,
    fun hnames name hne filter => ?_⟩
  · rw [get?_invalidate, if_pos (.inl rfl)]
  · rw [get?_invalidate]
    split
    · rename_i hkey
      have hbegins := hkey.resolve_left hne
      exact (hnames.get?_eq_none fun hmark =>
        not_startsWith_of_notMem hmark collection hbegins).symm
    · rfl

/-- Two collections, the name of one of which begins with the other's, and a filter. -/
theorem listings_of_one_collection_of_two :
    let filter : Filter := ⟨[⟨"n", .gt, .num (.int 5)⟩]⟩
    let l : Listings Nat := [(Session.listingKey "docs" none, [1]),
      (Session.listingKey "docs2" none, [2]), (Session.listingKey "docs2" (some filter), [3])]
    Session.listingKey "docs2" none ≠ Session.listingKey "docs2" (some filter) ∧
      l.Unmarked ∧ "docs2" ≠ "docs" ∧
      Keyed.get? (Session.listingKey "docs" none) (l.invalidate (keyStart "docs")) = none ∧
      Keyed.get? (Session.listingKey "docs2" (some filter)) (l.invalidate (keyStart "docs")) =
        some [3] := by
  intro filter l
  have hnames : l.Unmarked := by
    intro key hkey
    simp only [l, Keyed.keys, List.map_cons, List.map_nil, List.mem_cons, List.not_mem_nil,
      or_false] at hkey
    rcases hkey with rfl | rfl | rfl
    · exact ⟨"docs", none, rfl, by decide⟩
    · exact ⟨"docs2", none, rfl, by decide⟩
    · exact ⟨"docs2", some filter, rfl, by decide⟩
  have hne : "docs2" ≠ "docs" := by decide
  obtain ⟨hkeys, hgone, hleft⟩ := listings_of_one_collection l "docs"
  exact ⟨fun hkey => Option.some_ne_none filter (hkeys _ _ _ _ hkey).2.symm, hnames, hne,
    hgone none, (hleft hnames "docs2" hne (some filter)).trans (by decide +kernel)⟩

end Listings

end VectorBridge
