import VectorBridge.Proofs.Session
/-!
# Walking the pages of a list

A listing that does not change is walked from its first page on, each page at
the token of the one before it, until a page names no other. Pages are read off
a list in two ways: a server skips an offset and hands out what was asked for,
and a listing that was fetched whole is sliced where it is held. Both guess from
what they hand out whether something is left. They differ in one number: the
greatest offset at which they still promise a page. A server's full page always
promises one, so it may promise an empty page at the very end of the list; a
slice only promises entries.

`Walk` is the loop of a caller, `Cuts` what one page says, and the lemmas about
`Cuts` follow a walk from any offset. The main result starts it at the first page.
-/

namespace VectorBridge

variable {α : Type}

/-- Reading pages from a token to the end of the listing: `sizes i` is asked for
in call `i`, and the walk begins with call `i` at the token. -/
inductive Walk (reads : PageRequest → Page α → Prop) (sizes : Nat → Nat) :
    Nat → Option PageToken → List (Page α) → Prop where
  | last {i : Nat} {token : Option PageToken} {page : Page α}
      (hread : reads ⟨token, sizes i⟩ page) (hnext : page.next = none) :
      Walk reads sizes i token [page]
  | more {i : Nat} {token : Option PageToken} {page : Page α} {next : PageToken}
      {pages : List (Page α)} (hread : reads ⟨token, sizes i⟩ page)
      (hnext : page.next = some next) (hrest : Walk reads sizes (i + 1) (some next) pages) :
      Walk reads sizes i token (page :: pages)

/-- The pages a server builds from what it has after skipping the offset. -/
def readsByOffset (all : List α) (request : PageRequest) (page : Page α) : Prop :=
  ∃ offset, request.offset = .ok offset ∧
    Page.ofOffset ((all.drop offset).take request.size) request = .ok page

/-- The pages sliced from the listing that is held under a key. -/
def readsHeld (listings : Listings α) (key : String) (request : PageRequest) (page : Page α) :
    Prop :=
  listings.slice? key request = .ok (some page)

/-- Pages are cut from a list: a page of any positive size can be read at every
offset, holds what the list has there, and promises another page exactly up to
the offset `last`. -/
structure Cuts (reads : PageRequest → Page α → Prop) (all : List α) (last : Nat) : Prop where
  /-- No page is promised past the list, and one is promised while entries are left. -/
  bounds : last ≤ all.length ∧ all.length ≤ last + 1
  reads_iff : ∀ {token offset size page}, StartsAt token offset → 0 < size →
    (reads ⟨token, size⟩ page ↔ page = ⟨(all.drop offset).take size,
      if offset + size ≤ last then some (.offset (offset + size)) else none⟩)

/-- A server may promise a page at the end of its list. -/
theorem cuts_readsByOffset (all : List α) : Cuts (readsByOffset all) all all.length where
  bounds := ⟨Nat.le_refl _, by omega⟩
  reads_iff {token offset size page} hstart hpos := by
    have hvalid : (PageRequest.mk token size).validate = .ok () :=
      PageRequest.validate_eq_ok_iff.2 hpos
    have hlen : (if size ≤ ((all.drop offset).take size).length
        then some (PageToken.offset (offset + ((all.drop offset).take size).length)) else none)
        = if offset + size ≤ all.length then some (.offset (offset + size)) else none := by
      rw [List.length_take, List.length_drop]
      by_cases h : offset + size ≤ all.length
      · rw [if_pos h, if_pos (by omega), Nat.min_eq_left (by omega)]
      · rw [if_neg h, if_neg (by omega)]
    simp only [readsByOffset, Page.ofOffset, hvalid, hstart size,
      Except.ok.injEq, exists_eq_left', hlen]
    exact eq_comm

/-- A held listing promises no page without entries. -/
theorem cuts_readsHeld {listings : Listings α} {key : String} {all : List α}
    (hheld : Keyed.get? key listings = some all) :
    Cuts (readsHeld listings key) all (all.length - 1) where
  bounds := ⟨by omega, by omega⟩
  reads_iff {token offset size page} hstart hpos := by
    have hvalid : (PageRequest.mk token size).validate = .ok () :=
      PageRequest.validate_eq_ok_iff.2 hpos
    have hnext : (if min (offset + size) all.length < all.length
        then some (PageToken.offset (min (offset + size) all.length)) else none)
        = if offset + size ≤ all.length - 1 then some (.offset (offset + size)) else none := by
      by_cases h : offset + size < all.length
      · rw [Nat.min_eq_left (by omega), if_pos h, if_pos (by omega)]
      · rw [if_neg (by omega), if_neg (by omega)]
    simp only [readsHeld, Listings.slice?, hvalid, hstart size, hheld,
      Option.map_some, Except.ok.injEq, Option.some.injEq, Page.slice, hnext]
    exact eq_comm

namespace Cuts

variable {reads : PageRequest → Page α → Prop} {all : List α} {last : Nat} {sizes : Nat → Nat}
variable {i offset : Nat} {token : Option PageToken} {pages : List (Page α)}

/-- A page that promises no other lies at the end. -/
theorem of_last (hcuts : Cuts reads all last) {size : Nat} {page : Page α}
    (hstart : StartsAt token offset) (hpos : 0 < size) (hread : reads ⟨token, size⟩ page)
    (hnext : page.next = none) :
    last < offset + size ∧ page.items = (all.drop offset).take size := by
  obtain rfl := (hcuts.reads_iff hstart hpos).mp hread
  refine ⟨Nat.lt_of_not_le fun hmore => ?_, rfl⟩
  simp [hmore] at hnext

/-- A page that promises another names the offset after its own entries. -/
theorem of_more (hcuts : Cuts reads all last) {size : Nat} {page : Page α} {next : PageToken}
    (hstart : StartsAt token offset) (hpos : 0 < size) (hread : reads ⟨token, size⟩ page)
    (hnext : page.next = some next) :
    offset + size ≤ last ∧ StartsAt (some next) (offset + size) ∧
      page.items = (all.drop offset).take size := by
  obtain rfl := (hcuts.reads_iff hstart hpos).mp hread
  simp only at hnext
  split at hnext
  · obtain rfl := Option.some.inj hnext
    exact ⟨‹_›, startsAt_offset _, rfl⟩
  · cases hnext

/-- From every offset a walk comes to an end: each page promises a later one,
and none is promised past the list. -/
theorem exists_walk (hcuts : Cuts reads all last) (hpos : ∀ i, 0 < sizes i)
    (hstart : StartsAt token offset) : ∃ pages, Walk reads sizes i token pages := by
  induction hleft : all.length - offset using Nat.strongRecOn generalizing i token offset with
  | _ left ih =>
    have hread := (hcuts.reads_iff hstart (hpos i)).mpr (Eq.refl (Page.mk _ _))
    by_cases hmore : offset + sizes i ≤ last
    · have hsize := hpos i
      have hlast := hcuts.bounds
      obtain ⟨pages, hrest⟩ := ih (all.length - (offset + sizes i)) (by omega) (i := i + 1)
        (startsAt_offset (offset + sizes i)) rfl
      exact ⟨_, .more hread (if_pos hmore) hrest⟩
    · exact ⟨_, .last hread (if_neg hmore)⟩

/-- A caller has no choice: what it gets depends on the token and the sizes alone. -/
theorem walk_unique (hcuts : Cuts reads all last) (hpos : ∀ i, 0 < sizes i)
    {pages' : List (Page α)} (hwalk : Walk reads sizes i token pages)
    (hwalk' : Walk reads sizes i token pages') (hstart : StartsAt token offset) :
    pages' = pages := by
  induction hwalk generalizing offset pages' with
  | @last i token page hread hnext =>
    have hpage := (hcuts.reads_iff hstart (hpos i)).mp hread
    cases hwalk' with
    | last hread' => rw [(hcuts.reads_iff hstart (hpos i)).mp hread', hpage]
    | more hread' hnext' =>
      rw [(hcuts.reads_iff hstart (hpos i)).mp hread', ← hpage, hnext] at hnext'
      cases hnext'
  | @more i token page next pages hread hnext hrest ih =>
    have hpage := (hcuts.reads_iff hstart (hpos i)).mp hread
    cases hwalk' with
    | last hread' hnext' =>
      rw [(hcuts.reads_iff hstart (hpos i)).mp hread', ← hpage, hnext] at hnext'
      cases hnext'
    | more hread' hnext' hrest' =>
      obtain rfl := ((hcuts.reads_iff hstart (hpos i)).mp hread').trans hpage.symm
      obtain rfl := Option.some.inj (hnext.symm.trans hnext')
      rw [ih hrest' (hcuts.of_more hstart (hpos i) hread hnext).2.1]

/-- The pages of a walk from an offset are what the list has from there on: a
page that promises another leaves the rest to it, and the last page has what is
left. -/
theorem flatMap_items (hcuts : Cuts reads all last) (hpos : ∀ i, 0 < sizes i)
    (hwalk : Walk reads sizes i token pages) (hstart : StartsAt token offset) :
    pages.flatMap (·.items) = all.drop offset := by
  induction hwalk generalizing offset with
  | @last i token page hread hnext =>
    obtain ⟨hend, hitems⟩ := hcuts.of_last hstart (hpos i) hread hnext
    have hlast := hcuts.bounds
    rw [List.flatMap_singleton, hitems,
      List.take_of_length_le (by rw [List.length_drop]; omega)]
  | @more i token page next pages hread hnext hrest ih =>
    obtain ⟨-, hstart', hitems⟩ := hcuts.of_more hstart (hpos i) hread hnext
    rw [List.flatMap_cons, ih hstart', hitems, ← List.drop_drop, List.take_append_drop]

/-- Every page of a walk keeps to the size it was asked for. -/
theorem length_items_le (hcuts : Cuts reads all last) (hpos : ∀ i, 0 < sizes i)
    (hwalk : Walk reads sizes i token pages) (hstart : StartsAt token offset) :
    ∀ j (hj : j < pages.length), pages[j].items.length ≤ sizes (i + j) := by
  induction hwalk generalizing offset with
  | @last i token page hread hnext =>
    obtain ⟨-, hitems⟩ := hcuts.of_last hstart (hpos i) hread hnext
    intro j hj
    obtain rfl : j = 0 := by simpa using hj
    exact hitems ▸ List.length_take_le _ _
  | @more i token page next pages hread hnext hrest ih =>
    obtain ⟨-, hstart', hitems⟩ := hcuts.of_more hstart (hpos i) hread hnext
    intro j hj
    cases j with
    | zero => exact hitems ▸ List.length_take_le _ _
    | succ j =>
      have := ih hstart' j (by simpa using hj)
      rwa [Nat.add_right_comm, Nat.add_assoc] at this

/-- Pages of one size are as many as the steps of that size up to the last
promised offset, and one more. -/
theorem length_of_constant (hcuts : Cuts reads all last) {size : Nat} (hpos : 0 < size)
    (hwalk : Walk reads (fun _ => size) i token pages) (hstart : StartsAt token offset)
    (hle : offset ≤ last) : pages.length = (last - offset) / size + 1 := by
  induction hwalk generalizing offset with
  | @last i token page hread hnext =>
    obtain ⟨hend, -⟩ := hcuts.of_last hstart hpos hread hnext
    rw [Nat.div_eq_of_lt (by omega)]
    rfl
  | @more i token page next pages hread hnext hrest ih =>
    obtain ⟨hmore, hstart', -⟩ := hcuts.of_more hstart hpos hread hnext
    rw [List.length_cons, ih hstart' hmore, ← Nat.sub_sub,
      Nat.div_eq_sub_div hpos (by omega : size ≤ last - offset)]

end Cuts

/-- A walk from the first page visits everything once: it ends, in one way;
the pages a caller has got when there is no next token are together the list, in
its order; and each keeps to the size it was asked for. -/
structure VisitsOnce (reads : PageRequest → Page α → Prop) (sizes : Nat → Nat) (all : List α) :
    Prop where
  ends : ∃ pages, Walk reads sizes 0 none pages ∧
    ∀ pages', Walk reads sizes 0 none pages' → pages' = pages
  whole : ∀ pages, Walk reads sizes 0 none pages → pages.flatMap (·.items) = all
  within : ∀ pages, Walk reads sizes 0 none pages →
    ∀ i (hi : i < pages.length), pages[i].items.length ≤ sizes i

theorem Cuts.visitsOnce {reads : PageRequest → Page α → Prop} {all : List α} {last : Nat}
    {sizes : Nat → Nat} (hcuts : Cuts reads all last) (hpos : ∀ i, 0 < sizes i) :
    VisitsOnce reads sizes all where
  ends := by
    obtain ⟨pages, hwalk⟩ := hcuts.exists_walk hpos startsAt_none
    exact ⟨pages, hwalk, fun _ hwalk' => hcuts.walk_unique hpos hwalk hwalk' startsAt_none⟩
  whole _ hwalk := hcuts.flatMap_items hpos hwalk startsAt_none
  within _ hwalk i hi := by
    simpa using hcuts.length_items_le hpos hwalk startsAt_none i hi

/-- **Both ways of paging visit everything once, and ask for as few pages as
they can tell.** The server's pages and the slices of a held listing visit each
entry once, for all positive sizes. With one size, the server's walk takes a page
for each full page of the list and one more, which is empty when the last full
page ends the list; the slices take as many pages as the list fills, and one for
a list without entries. -/
theorem pages_visit_everything_once (all : List α) {listings : Listings α} {key : String}
    (hheld : Keyed.get? key listings = some all) :
    (∀ sizes : Nat → Nat, (∀ i, 0 < sizes i) → VisitsOnce (readsByOffset all) sizes all ∧
      VisitsOnce (readsHeld listings key) sizes all) ∧
    ∀ size : Nat, 0 < size →
      (∀ pages, Walk (readsByOffset all) (fun _ => size) 0 none pages →
        pages.length = all.length / size + 1) ∧
      ∀ pages, Walk (readsHeld listings key) (fun _ => size) 0 none pages →
        pages.length = max 1 ((all.length + size - 1) / size) := by
  refine ⟨fun sizes hpos => ⟨(cuts_readsByOffset all).visitsOnce hpos,
    (cuts_readsHeld hheld).visitsOnce hpos⟩, fun size hpos => ⟨fun pages hwalk => ?_,
    fun pages hwalk => ?_⟩⟩
  · exact (cuts_readsByOffset all).length_of_constant hpos hwalk startsAt_none (Nat.zero_le _)
  · have hlen := (cuts_readsHeld hheld).length_of_constant hpos hwalk startsAt_none (Nat.zero_le _)
    rw [hlen, Nat.sub_zero]
    cases hall : all.length with
    | zero => rw [Nat.zero_sub, Nat.zero_div, Nat.div_eq_of_lt (by omega)]; rfl
    | succ n =>
      rw [Nat.add_right_comm, Nat.add_sub_cancel, Nat.add_sub_cancel, Nat.add_div_right n hpos,
        Nat.max_eq_right (Nat.succ_pos _)]

/-- Four entries by twos: the server is asked a third time, the held listing is not. -/
theorem four_entries_by_twos :
    VisitsOnce (readsByOffset [1, 2, 3, 4]) (fun _ => 2) [1, 2, 3, 4] ∧
    VisitsOnce (readsHeld [("docs", [1, 2, 3, 4])] "docs") (fun _ => 2) [1, 2, 3, 4] ∧
    (∀ pages, Walk (readsByOffset [1, 2, 3, 4]) (fun _ => 2) 0 none pages → pages.length = 3) ∧
    ∀ pages, Walk (readsHeld [("docs", [1, 2, 3, 4])] "docs") (fun _ => 2) 0 none pages →
      pages.length = 2 := by
  have hheld : Keyed.get? "docs" [("docs", [1, 2, 3, 4])] = some [1, 2, 3, 4] := by decide
  have h := pages_visit_everything_once [1, 2, 3, 4] hheld
  exact ⟨(h.1 _ fun _ => by decide).1, (h.1 _ fun _ => by decide).2, h.2 2 (by decide)⟩

end VectorBridge
