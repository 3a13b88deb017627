import VectorBridge.Adapter.Call
import VectorBridge.Proofs.Step
/-!
# Draining a listing

A listing is read from its first page on, each page at the token of the one
before it, until a page comes without one. The sizes asked for may differ from
page to page. Most listings are cut from a list by offset, and a drain of such
a listing is the list.
-/

namespace VectorBridge

variable {σ : Type}

/-- Reading a listing from a token to its end: the sizes of the pages, the
state before, the items on the pages, and the state after. -/
inductive Drains (readPage : PageRequest → Action σ (Page Item)) :
    Option PageToken → List Nat → σ → List Item → σ → Prop where
  | last {token : Option PageToken} {size : Nat} {s s' : σ} {page : Page Item}
      (h : readPage ⟨token, size⟩ s = (.ok page, s')) (hnext : page.next = none) :
      Drains readPage token [size] s page.items s'
  | more {token : Option PageToken} {size : Nat} {s s₁ s' : σ} {page : Page Item}
      {next : PageToken} {sizes : List Nat} {items : List Item}
      (h : readPage ⟨token, size⟩ s = (.ok page, s₁)) (hnext : page.next = some next)
      (hrest : Drains readPage (some next) sizes s₁ items s') :
      Drains readPage token (size :: sizes) s (page.items ++ items) s'

/-- A page that promises no other is a drain. -/
theorem Drains.single {readPage : PageRequest → Action σ (Page Item)} {token : Option PageToken}
    {size : Nat} {s s' : σ} {items : List Item}
    (h : readPage ⟨token, size⟩ s = (.ok ⟨items, none⟩, s')) :
    Drains readPage token [size] s items s' := .last h rfl

/-- A drain begins with a page at its token. -/
theorem Drains.first {readPage : PageRequest → Action σ (Page Item)} {token : Option PageToken}
    {sizes : List Nat} {s s' : σ} {items : List Item} (h : Drains readPage token sizes s items s') :
    ∃ size page s₁, readPage ⟨token, size⟩ s = (.ok page, s₁) := by
  cases h with
  | last h _ => exact ⟨_, _, _, h⟩
  | more h _ _ => exact ⟨_, _, _, h⟩

/-- The answers of a history of calls, and the state after it. -/
def Adapter.run (A : Adapter σ) : List AdapterCall → σ → List (Result AdapterAnswer) × σ
  | [], s => ([], s)
  | call :: calls, s =>
    let (answer, s) := A.perform call s
    let (answers, s) := A.run calls s
    (answer :: answers, s)

/-! ## Pages cut by offset -/

/-- A page is cut from a list at an offset: it has as many entries as asked for
or left, names the place after them when it promises another page, and promises
one while there are entries left. -/
structure CutsAt (found : List Item) (offset size : Nat) (page : Page Item) : Prop where
  items : page.items = (found.drop offset).take size
  last : page.next = none → found.length ≤ offset + size
  more : ∀ token, page.next = some token →
    token = .offset (offset + size) ∧ offset + size ≤ found.length

/-- The tokens that stand for an offset: none stands for the start. -/
def StartsAt (token : Option PageToken) (offset : Nat) : Prop :=
  ∀ size, (PageRequest.mk token size).offset = .ok offset

theorem startsAt_none : StartsAt none 0 := fun _ => rfl

theorem startsAt_offset (offset : Nat) : StartsAt (some (.offset offset)) offset := fun _ => rfl

/-- A full page promises another one. -/
theorem cutsAt_of_ofOffset {found : List Item} {request : PageRequest} {offset : Nat}
    {page : Page Item} (ho : request.offset = .ok offset)
    (h : Page.ofOffset ((found.drop offset).take request.size) request = .ok page) :
    CutsAt found offset request.size page := by
  rw [Page.ofOffset, ho] at h
  cases hv : request.validate with
  | error e => simp [hv] at h
  | ok u =>
    simp only [hv, List.length_take, List.length_drop, Except.ok.injEq] at h
    -- a page of no size could not tell a full page from an empty one
    have hpos : request.size ≠ 0 := by
      intro h0
      simp [PageRequest.validate, h0] at hv
    subst h
    refine ⟨rfl, fun hnext => ?_, fun token hnext => ?_⟩ <;> simp only at hnext <;>
      split at hnext
    · cases hnext
    · omega
    · obtain rfl := Option.some.inj hnext
      exact ⟨by congr; omega, by omega⟩
    · cases hnext

/-- A page of a listing that is held is promised while entries are left. -/
theorem cutsAt_slice (found : List Item) {offset size : Nat} :
    CutsAt found offset size (Page.slice found offset size) := by
  refine ⟨rfl, fun hnext => ?_, fun token hnext => ?_⟩ <;> simp only [Page.slice] at hnext <;>
    split at hnext
  · cases hnext
  · omega
  · obtain rfl := Option.some.inj hnext
    exact ⟨by congr; omega, by omega⟩
  · cases hnext

variable {readPage : PageRequest → Action σ (Page Item)} {found : List Item} {P : σ → Prop}

/-- The rest of a list, cut into a page and the rest after it. -/
theorem CutsAt.drop_eq_append {offset size : Nat} {page : Page Item}
    (h : CutsAt found offset size page) :
    found.drop offset = page.items ++ found.drop (offset + size) := by
  rw [h.items, ← List.drop_drop, List.take_append_drop]

/-- The last page has all that is left. -/
theorem CutsAt.drop_eq_items {offset size : Nat} {page : Page Item}
    (h : CutsAt found offset size page) (hnext : page.next = none) :
    found.drop offset = page.items := by
  have hlen := h.last hnext
  rw [h.items, List.take_of_length_le (by rw [List.length_drop]; omega)]

/-- When every later page is cut from the list at its offset, the pages from an
offset on make up the rest of it. -/
theorem Drains.eq_drop
    (hstep : ∀ {token offset size s page s'}, P s → StartsAt (some token) offset →
      readPage ⟨some token, size⟩ s = (.ok page, s') → P s' ∧ CutsAt found offset size page)
    {token : PageToken} {sizes : List Nat} {s s' : σ} {items : List Item}
    (h : Drains readPage (some token) sizes s items s') {offset : Nat}
    (htoken : StartsAt (some token) offset) (hs : P s) : items = found.drop offset ∧ P s' := by
  -- on the pages; the offset moves along with the token
  generalize hstart : some token = start at h
  induction h generalizing token offset with
  | last h hnext =>
    subst hstart
    obtain ⟨hs', hcut⟩ := hstep hs htoken h
    exact ⟨(hcut.drop_eq_items hnext).symm, hs'⟩
  | more h hnext hrest ih =>
    subst hstart
    obtain ⟨hs₁, hcut⟩ := hstep hs htoken h
    obtain ⟨rfl, -⟩ := hcut.more _ hnext
    obtain ⟨rfl, hs'⟩ := ih (startsAt_offset _) hs₁ rfl
    exact ⟨hcut.drop_eq_append.symm, hs'⟩

/-- **A drain by offset reads the whole list**, whatever the first page does to
make the later ones what they are. -/
theorem Drains.eq_found {s s' : σ}
    (hfirst : ∀ {size page s'}, readPage ⟨none, size⟩ s = (.ok page, s') →
      P s' ∧ CutsAt found 0 size page)
    (hstep : ∀ {token offset size s page s'}, P s → StartsAt (some token) offset →
      readPage ⟨some token, size⟩ s = (.ok page, s') → P s' ∧ CutsAt found offset size page)
    {sizes : List Nat} {items : List Item} (h : Drains readPage none sizes s items s') :
    items = found ∧ P s' := by
  cases h with
  | last h hnext =>
    obtain ⟨hs', hcut⟩ := hfirst h
    exact ⟨(hcut.drop_eq_items hnext).symm, hs'⟩
  | more h hnext hrest =>
    obtain ⟨hs₁, hcut⟩ := hfirst h
    obtain ⟨rfl, -⟩ := hcut.more _ hnext
    obtain ⟨rfl, hs'⟩ := hrest.eq_drop hstep (startsAt_offset _) hs₁
    exact ⟨hcut.drop_eq_append.symm, hs'⟩

/-- Whatever sizes are asked for, a listing whose later pages are there and cut by
offset is drained from any of them on. -/
theorem exists_drains_next {s : σ}
    (hstep : ∀ {token offset size}, StartsAt (some token) offset → 0 < size →
      ∃ page, readPage ⟨some token, size⟩ s = (.ok page, s) ∧ CutsAt found offset size page)
    {size : Nat → Nat} (hsize : ∀ i, 0 < size i) {token : PageToken} {offset : Nat}
    (htoken : StartsAt (some token) offset) :
    ∃ n, Drains readPage (some token) ((List.range n).map size) s (found.drop offset) s := by
  -- the part of the list that is left shrinks with every page that promises another
  induction hleft : found.length - offset using Nat.strongRecOn generalizing size token offset with
  | _ left ih =>
    obtain ⟨page, h, hcut⟩ := hstep htoken (hsize 0)
    cases hnext : page.next with
    | none =>
      refine ⟨1, ?_⟩
      rw [hcut.drop_eq_items hnext]
      exact .last h hnext
    | some next =>
      obtain ⟨rfl, hle⟩ := hcut.more _ hnext
      have hpos := hsize 0
      obtain ⟨n, hrest⟩ := ih (found.length - (offset + size 0)) (by omega)
        (fun i => hsize (i + 1)) (startsAt_offset _) rfl
      refine ⟨n + 1, ?_⟩
      rw [hcut.drop_eq_append, List.range_succ_eq_map, List.map_cons, List.map_map]
      exact .more h hnext hrest

/-- It is drained from its first page on when that page is there as well,
whatever the page does to make the later ones what they are. -/
theorem exists_drains {s s₁ : σ}
    (hfirst : ∀ {size}, 0 < size →
      ∃ page, readPage ⟨none, size⟩ s = (.ok page, s₁) ∧ CutsAt found 0 size page)
    (hstep : ∀ {token offset size}, StartsAt (some token) offset → 0 < size →
      ∃ page, readPage ⟨some token, size⟩ s₁ = (.ok page, s₁) ∧ CutsAt found offset size page)
    {size : Nat → Nat} (hsize : ∀ i, 0 < size i) :
    ∃ n, Drains readPage none ((List.range n).map size) s found s₁ := by
  obtain ⟨page, h, hcut⟩ := hfirst (hsize 0)
  cases hnext : page.next with
  | none =>
    have hall : found = page.items := hcut.drop_eq_items hnext
    refine ⟨1, ?_⟩
    rw [hall]
    exact .last h hnext
  | some next =>
    obtain ⟨rfl, -⟩ := hcut.more _ hnext
    obtain ⟨n, hrest⟩ := exists_drains_next hstep (fun i => hsize (i + 1)) (startsAt_offset _)
    have hall : found = page.items ++ found.drop (0 + size 0) := hcut.drop_eq_append
    refine ⟨n + 1, ?_⟩
    rw [hall, List.range_succ_eq_map, List.map_cons, List.map_map]
    exact .more h hnext hrest

/-! ## Listings of a part of the state -/

section Lift

variable {σ' : Type} {mk : σ → σ'} {readPage' : PageRequest → Action σ' (Page Item)}
variable {token : Option PageToken} {sizes : List Nat} {s s' : σ} {items : List Item}

/-- A drain of a part is a drain of the whole that acts on the part. -/
theorem Drains.lift
    (hread : ∀ request s, readPage' request (mk s) = (readPage request s).map id mk)
    (h : Drains readPage token sizes s items s') :
    Drains readPage' token sizes (mk s) items (mk s') := by
  induction h with
  | last h hnext => exact .last (by rw [hread, h]; rfl) hnext
  | more h hnext _ ih => exact .more (by rw [hread, h]; rfl) hnext ih

/-- And the other way round. -/
theorem Drains.of_lift
    (hread : ∀ request s, readPage' request (mk s) = (readPage request s).map id mk) {c : σ'}
    (h : Drains readPage' token sizes (mk s) items c) :
    ∃ s', c = mk s' ∧ Drains readPage token sizes s items s' := by
  generalize hc : mk s = c₀ at h
  induction h generalizing s with
  | last h hnext =>
    subst hc
    rw [hread] at h
    obtain ⟨hpage, rfl⟩ := Prod.mk.inj h
    exact ⟨_, rfl, .last (Prod.ext hpage rfl) hnext⟩
  | more h hnext _ ih =>
    subst hc
    rw [hread] at h
    obtain ⟨hpage, rfl⟩ := Prod.mk.inj h
    obtain ⟨s', rfl, hrest⟩ := ih rfl
    exact ⟨s', rfl, .more (Prod.ext hpage rfl) hnext hrest⟩

end Lift

/-! ## What a removal leaves -/

/-- A removal has put `after` in the place of what was held under a name. Nothing
else that is held has changed, and draining the listing again comes to an end
with nothing. -/
structure Removed {Held : Type} (readPage : PageRequest → Action σ (Page Item))
    (held? : σ → String → Option Held) (s s' : σ) (name : String) (before after : Held) : Prop where
  before : held? s name = some before
  after : held? s' name = some after
  others : ∀ other, other ≠ name → held? s' other = held? s other
  nothing : ∀ {sizes items s''}, Drains readPage none sizes s' items s'' → items = []
  ends : ∃ s'', Drains readPage none [1] s' [] s''

theorem Removed.lift {Held Held' σ' : Type} {mk : σ → σ'} {inj : Held → Held'}
    {readPage' : PageRequest → Action σ' (Page Item)} {held? : σ → String → Option Held}
    {held?' : σ' → String → Option Held'} {s s' : σ} {name : String} {before after : Held}
    (hread : ∀ request s, readPage' request (mk s) = (readPage request s).map id mk)
    (hheld : ∀ s name, held?' (mk s) name = (held? s name).map inj)
    (h : Removed readPage held? s s' name before after) :
    Removed readPage' held?' (mk s) (mk s') name (inj before) (inj after) where
  before := by rw [hheld, h.before, Option.map_some]
  after := by rw [hheld, h.after, Option.map_some]
  others other hne := by rw [hheld, hheld, h.others other hne]
  nothing hdrain := by
    obtain ⟨_, -, hdrain⟩ := hdrain.of_lift hread
    exact h.nothing hdrain
  ends := by
    obtain ⟨_, hdrain⟩ := h.ends
    exact ⟨_, hdrain.lift hread⟩

end VectorBridge
