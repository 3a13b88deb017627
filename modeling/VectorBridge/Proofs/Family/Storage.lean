import VectorBridge.Proofs.Drain
import VectorBridge.Proofs.Family.Invariant
/-!
# What a family keeps on its servers

A family is told apart by how a server is asked. What its answers are about is
the same everywhere: a server holds collections, a collection has rows, and a
row is read as an item. `Storage` names these for one kind of server, and
`Storage.Lawful` says what the questions of a family have to do with them while
an invariant of the server holds: reading leaves the server alone and returns
the rows that pass, and removing leaves out the rows it selects. A removal by
ids may select more than it was asked for; by how much is part of the storage.
-/

namespace VectorBridge

/-- What servers with states in `τ` hold of their collections. -/
structure Storage (τ Held Row Fragment : Type) where
  /-- The server's name of a collection. -/
  serverName : String → String
  /-- What is held under a server's name. -/
  held? : τ → String → Option Held
  /-- The rows, in the order of a listing. -/
  rows : Held → List Row
  /-- The same collection with other rows. -/
  withRows : Held → List Row → Held
  /-- The item that a row is read as. -/
  itemOf : Held → Row → Item
  /-- Whether a row satisfies a fragment. -/
  holds : Fragment → Row → Bool
  /-- Whether a removal of some ids selects a row. -/
  selects : Held → List String → Row → Bool

namespace Storage

variable {τ Held Row Handle Condition Fragment : Type}

/-- The items of a collection. -/
def items (V : Storage τ Held Row Fragment) (held : Held) : List Item :=
  (V.rows held).map (V.itemOf held)

/-- Whether a row satisfies a fragment, if there is one. -/
def admits (V : Storage τ Held Row Fragment) (fragment : Option Fragment) (row : Row) : Bool :=
  fragment.all fun f => V.holds f row

/-- The items of the rows that satisfy a fragment. -/
def passing (V : Storage τ Held Row Fragment) (held : Held) (fragment : Option Fragment) :
    List Item :=
  ((V.rows held).filter (V.admits fragment)).map (V.itemOf held)

/-- Without a fragment every row passes. -/
theorem passing_none (V : Storage τ Held Row Fragment) (held : Held) :
    V.passing held none = V.items held := by
  have hall : (V.rows held).filter (V.admits none) = V.rows held :=
    List.filter_eq_self.2 fun _ _ => rfl
  rw [passing, hall, items]

/-- The collection with some of its rows. -/
def keeping (V : Storage τ Held Row Fragment) (held : Held) (p : Row → Bool) : Held :=
  V.withRows held ((V.rows held).filter p)

/-- One collection changed, and no other. -/
structure Changed (V : Storage τ Held Row Fragment) (t t' : τ) (name : String) (held : Held) :
    Prop where
  here : V.held? t' name = some held
  others : ∀ other, other ≠ name → V.held? t' other = V.held? t other

/-- A collection opened on a server that satisfies an invariant. -/
structure Opened (V : Storage τ Held Row Fragment) (F : Family τ Handle Condition Fragment)
    (I : τ → Prop) (t : τ) (name : String) (h : Handle) (held : Held) : Prop where
  inv : I t
  attach : F.attach name t = (.ok h, t)
  held : V.held? t (V.serverName name) = some held

/-- What the questions of a family do, on servers that satisfy `I`. -/
structure Lawful (V : Storage τ Held Row Fragment) (F : Family τ Handle Condition Fragment)
    (I : τ → Prop) : Prop where
  rows_withRows : ∀ held rows, V.rows (V.withRows held rows) = rows
  withRows_rows : ∀ held, V.withRows held (V.rows held) = held
  itemOf_withRows : ∀ held rows, V.itemOf (V.withRows held rows) = V.itemOf held
  reads : F.ReadsOnly
  /-- What is read from is there. -/
  held_of_readPage : ∀ {name t h}, F.attach name t = (.ok h, t) →
    ∀ {fragment request page t'}, F.readPage h fragment request t = (.ok page, t') →
      ∃ held, V.held? t (V.serverName name) = some held
  held_of_fetchAll : ∀ {name t h}, F.attach name t = (.ok h, t) →
    ∀ {fragment items t'}, F.fetchAll h fragment t = (.ok items, t') →
      ∃ held, V.held? t (V.serverName name) = some held
  attach_of_held : ∀ {name t held}, V.held? t (V.serverName name) = some held →
    ∃ h, F.attach name t = (.ok h, t)
  /-- No two rows are read as items of one id. -/
  nodup : ∀ {t name held}, I t → V.held? t name = some held →
    ((V.items held).map (·.id)).Nodup
  drains_readPage : ∀ {t name h held}, V.Opened F I t name h held →
    ∀ {fragment sizes items t'}, Drains (F.readPage h fragment) none sizes t items t' →
      items = V.passing held fragment
  readPage_of_nil : ∀ {t name h held}, V.Opened F I t name h held →
    ∀ {fragment}, V.passing held fragment = [] →
      F.readPage h fragment (.first 1) t = (.ok ⟨[], none⟩, t)
  fetchAll_eq : ∀ {t name h held}, V.Opened F I t name h held →
    ∀ {fragment items t'}, F.fetchAll h fragment t = (.ok items, t') →
      items = V.passing held fragment
  /-- What could be fetched whole can be when there is no more of it. -/
  fetchAll_of_le : ∀ {t name h held t₂ h₂ held₂}, V.Opened F I t name h held →
    V.Opened F I t₂ name h₂ held₂ → ∀ {fragment items},
      F.fetchAll h fragment t = (.ok items, t) →
      (V.passing held₂ fragment).length ≤ (V.passing held fragment).length →
      ∃ items₂, F.fetchAll h₂ fragment t₂ = (.ok items₂, t₂)
  eraseWhere_ok : ∀ {t name h held}, V.Opened F I t name h held →
    ∀ {fragment t'}, F.eraseWhere h fragment t = (.ok (), t') →
      V.Changed t t' (V.serverName name) (V.keeping held fun row => !V.holds fragment row)
  eraseIds_ok : ∀ {t name h held}, V.Opened F I t name h held →
    ∀ {ids t'}, F.eraseIds h ids t = (.ok (), t') →
      V.Changed t t' (V.serverName name) (V.keeping held fun row => !V.selects held ids row)
  /-- A removal of no ids selects nothing. -/
  selects_nil : ∀ held row, V.selects held [] row = false
  /-- A removal of ids selects the rows of these ids. -/
  selects_of_mem : ∀ {t name held}, I t → V.held? t name = some held →
    ∀ {row}, row ∈ V.rows held → ∀ {ids}, (V.itemOf held row).id ∈ ids →
      V.selects held ids row = true

/-! ## Pages read at an offset -/

section Offset

variable {Answer : Type} {read : Nat → Action τ Answer} {g : Answer → List Item} {t t' : τ}
variable {found : List Item}

/-- A page that is read at the offset of its token, and then judged full or
not. -/
def pageAt (read : Nat → Action τ Answer) (g : Answer → List Item) (request : PageRequest) :
    Action τ (Page Item) := do
  let offset ← Action.ofResult request.offset
  let answer ← read offset
  Action.ofResult (Page.ofOffset (g answer) request)

/-- A page comes from something read. -/
theorem read_of_pageAt {request : PageRequest} {page : Page Item}
    (h : pageAt read g request t = (.ok page, t')) :
    ∃ offset answer t₁, read offset t = (.ok answer, t₁) := by
  obtain ⟨offset, t₁, hoffset, hread⟩ := Step.bind_eq_ok_iff.1 h
  obtain ⟨answer, t₂, hanswer, -⟩ := Step.bind_eq_ok_iff.1 hread
  obtain ⟨-, rfl⟩ := Prod.mk.inj hoffset
  exact ⟨offset, answer, t₂, hanswer⟩

/-- What is read at an offset is cut from what there is. -/
theorem cutsAt_of_pageAt {token : Option PageToken} {offset size : Nat} {page : Page Item}
    (htoken : StartsAt token offset)
    (hread : ∀ {answer t₁}, read offset t = (.ok answer, t₁) →
      g answer = (found.drop offset).take size ∧ t₁ = t)
    (h : pageAt read g ⟨token, size⟩ t = (.ok page, t')) :
    t' = t ∧ CutsAt found offset size page := by
  rw [pageAt, htoken size, Step.bind_of_ok (Action.ofResult_apply _ t), Step.bind_eq_ok_iff] at h
  obtain ⟨answer, t₁, hanswer, hrun⟩ := h
  obtain ⟨hg, rfl⟩ := hread hanswer
  obtain ⟨hpage, rfl⟩ := Prod.mk.inj hrun
  rw [hg] at hpage
  exact ⟨rfl, cutsAt_of_ofOffset (htoken size) hpage⟩

/-- Such a page shows what there is. -/
theorem mem_of_pageAt (read : Nat → Action τ Answer) (g : Answer → List Item)
    {request : PageRequest} {page : Page Item}
    (hread : ∀ {offset answer t₁}, read offset t = (.ok answer, t₁) →
      g answer = (found.drop offset).take request.size ∧ t₁ = t)
    (h : pageAt read g request t = (.ok page, t')) {item : Item} (hitem : item ∈ page.items) :
    item ∈ found := by
  obtain ⟨offset, hoffset, hrun⟩ := Action.ofResult_bind_eq_ok_iff.1 h
  obtain ⟨answer, t₂, hanswer, hcut⟩ := Step.bind_eq_ok_iff.1 hrun
  obtain ⟨hg, rfl⟩ := hread hanswer
  obtain ⟨hpage, -⟩ := Prod.mk.inj hcut
  rw [(cutsAt_of_ofOffset hoffset (hg ▸ hpage)).items] at hitem
  exact List.mem_of_mem_drop (List.mem_of_mem_take hitem)

/-- A drain by such pages reads all that there is. -/
theorem drains_pageAt (read : Nat → Nat → Action τ Answer) (g : Answer → List Item)
    {readPage : PageRequest → Action τ (Page Item)}
    (hpage : ∀ token size, readPage ⟨token, size⟩ = pageAt (read size) g ⟨token, size⟩)
    (hread : ∀ {size offset answer t₁}, read size offset t = (.ok answer, t₁) →
      g answer = (found.drop offset).take size ∧ t₁ = t)
    {sizes : List Nat} {items : List Item} (h : Drains readPage none sizes t items t') :
    items = found := by
  have hstep : ∀ {token offset size s page s'}, s = t → StartsAt token offset →
      readPage ⟨token, size⟩ s = (.ok page, s') → s' = t ∧ CutsAt found offset size page := by
    intro token offset size s page s' hs htoken hrun
    subst hs
    rw [hpage] at hrun
    exact cutsAt_of_pageAt htoken hread hrun
  exact (h.eq_found (P := (· = t)) (hstep rfl startsAt_none) hstep).1

/-- A first page that is not full is the last. -/
theorem pageAt_of_short (read : Nat → Action τ Answer) (g : Answer → List Item) {answer : Answer}
    {size : Nat} (hread : read 0 t = (.ok answer, t)) (hshort : (g answer).length < size) :
    pageAt read g (.first size) t = (.ok ⟨g answer, none⟩, t) := by
  have hvalid : (PageRequest.first size).validate = .ok () :=
    PageRequest.validate_eq_ok_iff.2 (Nat.zero_lt_of_lt hshort)
  have hpage : Page.ofOffset (g answer) (.first size) = .ok ⟨g answer, none⟩ := by
    have hmore : ¬ (PageRequest.first size).size ≤ (g answer).length := Nat.not_le_of_lt hshort
    rw [Page.ofOffset, hvalid]
    simp only [if_neg hmore]
    rfl
  show (read 0 >>= fun answer => Action.ofResult (Page.ofOffset (g answer) (.first size))) t = _
  rw [Step.bind_of_ok hread, hpage]
  rfl

/-- Where nothing is found the first page is empty and the last. -/
theorem pageAt_nil (read : Nat → Action τ Answer) (g : Answer → List Item) {answer : Answer}
    (hread : read 0 t = (.ok answer, t)) (hg : g answer = []) :
    pageAt read g (.first 1) t = (.ok ⟨[], none⟩, t) := by
  rw [pageAt_of_short read g hread (by rw [hg]; exact Nat.zero_lt_one), hg]

end Offset

end Storage

end VectorBridge
