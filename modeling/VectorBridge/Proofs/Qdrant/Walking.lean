import Mathlib.Data.List.Nodup
import VectorBridge.Proofs.Connection.FirstItem
import VectorBridge.Proofs.Family.Invariant
import VectorBridge.Proofs.Filter.Compiling
/-!
# Walking a collection while it is edited

A walk by cursor is no reading of one state: between two of its pages items may
be added, changed and removed, the point that the cursor names among them. A
cursor is the text of a UUID, and a page begins at the first point from that UUID
on, whether there is a point under it or not. So the pages of a walk lie one
after the other in the order of UUIDs, and a point is passed over only while it
is not there, or does not match.

The walk starts on any connection that calls have led to. Its edits are those of
`AdapterCall.Edits`; each may fail, and each may change what the next page shows.
-/

namespace VectorBridge

namespace Qdrant

/-! ## Collections in the course of edits -/

/-- There is a collection of a name. -/
def Memory.Holds (name : String) (m : Memory) : Prop :=
  ∃ s, Keyed.get? name m.collections = some s

/-- A change of a collection takes none away. -/
theorem holds_changing {f : Stored → Except TransportError Stored} (name other : String) :
    Step.Keeps (Memory.Holds name) (Memory.changing other f) := by
  rintro m ⟨s, hs⟩
  unfold Memory.changing Memory.find?
  cases hget : Keyed.get? other m.collections with
  | none => exact ⟨s, hs⟩
  | some t =>
    simp only
    cases f t with
    | error e => exact ⟨s, hs⟩
    | ok t' =>
      simp only [Memory.Holds, Keyed.get?_insert]
      split
      · exact ⟨t', rfl⟩
      · exact ⟨s, hs⟩

/-- **An edit leaves the collection there**, and the collections ordered. -/
theorem edits_keeping (name : String) : family.Edits fun m => m.Ordered ∧ m.Holds name where
  write h items m hm := ⟨keeps_write (ordered_upsert h) items m hm.1,
    keeps_write (fun _ => holds_changing name h) items m hm.2⟩
  eraseIds h _ m hm := ⟨ordered_erase h _ m hm.1, holds_changing name h m hm.2⟩
  eraseWhere h f m hm := ⟨ordered_eraseWhere h f m hm.1, holds_changing name h m hm.2⟩

/-! ## Pages of a walk -/

/-- What is left of the matching points from a UUID on, or all of them. -/
def Stored.left (stored : Stored) (native : Option PointFilter) (start : Option Uuid) :
    List Point :=
  (stored.passing native).filter fun p => startsBefore (start.map .uuid) p.id

/-- The token of a page from a UUID on; without one it is the first page. -/
def tokenAt (start : Option Uuid) : Option PageToken :=
  start.map fun u => .cursor (BackendId.uuid u).text

variable {stored : Stored} {native : Option PointFilter} {start : Option Uuid} {name : String}
variable {filter : Option Filter} {compiled : CompiledFilter PointFilter}

theorem marks_tokenAt (stored : Stored) (native : Option PointFilter) (start : Option Uuid) :
    Marks (stored.passing native) (tokenAt start) (stored.left native start) := by
  intro size
  cases start with
  | none => exact ⟨none, rfl, rfl⟩
  | some u => exact ⟨some (.uuid u), start?_cursor u size, rfl⟩

/-- Points left are stored, match, and come no earlier than the start. -/
theorem mem_left (hs : stored.Ordered) {p : Point} :
    p ∈ stored.left native start ↔ Keyed.get? p.id stored.points = some p ∧
      passes native p.payload = true ∧ startsBefore (start.map .uuid) p.id = true := by
  rw [Stored.left, List.mem_filter, Stored.passing, List.mem_filter, Keyed.values, List.mem_map]
  constructor
  · rintro ⟨⟨⟨⟨u, p⟩, hp, rfl⟩, hpass⟩, hstart⟩
    obtain rfl : p.id = u := hs.keyed _ hp
    exact ⟨hs.ascending.get?_of_mem hp, hpass, hstart⟩
  · rintro ⟨hget, hpass, hstart⟩
    exact ⟨⟨⟨_, Keyed.mem_of_get? hget, rfl⟩, hpass⟩, hstart⟩

theorem pairwise_left (hs : stored.Ordered) (native : Option PointFilter) (start : Option Uuid) :
    (stored.left native start).Pairwise fun p q => p.id < q.id :=
  (pairwise_passing hs native).filter _

/-- A point server evaluates whole filters. -/
theorem isComplete_of_compile? (h : family.compiler.compile? filter = .ok compiled) :
    compiled.isComplete = true :=
  FilterCompiler.isComplete_of_allServerSide rfl h

/-- **A page shows the first points that are left**, and its token is the place of
the point after them. -/
theorem listItems_at {s : Session Memory} (hconn : s.connected = true)
    (hs : Keyed.get? name s.server.collections = some stored)
    (hcompiled : family.compiler.compile? filter = .ok compiled) {size : Nat} (hsize : 0 < size) :
    family.listItems name ⟨tokenAt start, size⟩ filter s =
      (.ok ⟨((stored.left compiled.native start).take size).map Point.toItem,
        tokenAt (((stored.left compiled.native start).drop size).head?.map (·.id))⟩, s) := by
  rw [Family.listItems, Session.ensureConnected_bind hconn,
    Action.ofResult_bind_of_ok (PageRequest.validate_eq_ok_iff.2 hsize),
    Action.ofResult_bind_of_ok hcompiled,
    Step.bind_of_ok (show Session.call (family.attach name) s = (.ok name, s) from rfl),
    if_pos (isComplete_of_compile? hcompiled), Session.onServer_apply,
    readPage_of_marks hs (marks_tokenAt stored compiled.native start), tokenAt, Option.map_map]
  rfl

/-! ## Walks -/

/-- One page of a walk, and the collection it was read from. -/
structure Turn where
  stored : Stored
  page : Page Item

/-- Following the cursors of a listing to its end: `sizes i` is asked for in page
call `i`, the calls `edits i` are made after it, and the walk begins with call `i`
at the token. -/
inductive WalkAmid (name : String) (filter : Option Filter) (sizes : Nat → Nat)
    (edits : Nat → List AdapterCall) :
    Nat → Option PageToken → Session Memory → List Turn → Prop where
  | last {i : Nat} {token : Option PageToken} {s s' : Session Memory} {stored : Stored}
      {page : Page Item} (hstored : Keyed.get? name s.server.collections = some stored)
      (hpage : family.listItems name ⟨token, sizes i⟩ filter s = (.ok page, s'))
      (hnext : page.next = none) : WalkAmid name filter sizes edits i token s [⟨stored, page⟩]
  | more {i : Nat} {token : Option PageToken} {s s' : Session Memory} {stored : Stored}
      {page : Page Item} {next : PageToken} {turns : List Turn}
      (hstored : Keyed.get? name s.server.collections = some stored)
      (hpage : family.listItems name ⟨token, sizes i⟩ filter s = (.ok page, s'))
      (hnext : page.next = some next)
      (hrest : WalkAmid name filter sizes edits (i + 1) (some next)
        (family.adapter.run (edits i) s').2 turns) :
      WalkAmid name filter sizes edits i token s (⟨stored, page⟩ :: turns)

/-- Points are those on a page: they are shown as its items, and are stored and
match at that moment. -/
structure Turn.Shows (native : Option PointFilter) (turn : Turn) (points : List Point) :
    Prop where
  items : turn.page.items = points.map Point.toItem
  stored : ∀ p ∈ points, Keyed.get? p.id turn.stored.points = some p
  pass : ∀ p ∈ points, passes native p.payload = true

/-- A matching point is stored under a UUID when a page is read. -/
def Turn.Stores (native : Option PointFilter) (u : Uuid) (turn : Turn) : Prop :=
  ∃ p, Keyed.get? u turn.stored.points = some p ∧ passes native p.payload = true

theorem shows_left (hs : stored.Ordered) (size : Nat) (next : Option PageToken) :
    Turn.Shows native ⟨stored, ⟨((stored.left native start).take size).map Point.toItem, next⟩⟩
      ((stored.left native start).take size) where
  items := rfl
  stored _ hp := ((mem_left hs).1 (List.mem_of_mem_take hp)).1
  pass _ hp := ((mem_left hs).1 (List.mem_of_mem_take hp)).2.1

/-- A matching point that comes no earlier than the start is on the page, or no
earlier than the point after the page. -/
theorem mem_take_or_of_stores (hs : stored.Ordered) {u : Uuid} {page : Page Item} (size : Nat)
    (hu : Turn.Stores native u ⟨stored, page⟩)
    (hstart : startsBefore (start.map .uuid) u = true) :
    u ∈ ((stored.left native start).take size).map (·.id) ∨
      ∃ q tail, (stored.left native start).drop size = q :: tail ∧ ¬ u < q.id := by
  obtain ⟨p, hget, hpass⟩ := hu
  obtain rfl : p.id = u := hs.keyed _ (Keyed.mem_of_get? hget)
  have hleft : p ∈ stored.left native start := (mem_left hs).2 ⟨hget, hpass, hstart⟩
  rw [← List.take_append_drop size (stored.left native start), List.mem_append] at hleft
  refine hleft.imp (List.mem_map_of_mem (f := Point.id)) fun hdrop => ?_
  cases hsplit : (stored.left native start).drop size with
  | nil => rw [hsplit] at hdrop; cases hdrop
  | cons q tail =>
    refine ⟨q, tail, rfl, fun hlt => ?_⟩
    have hsorted := (pairwise_left hs native start).drop (i := size)
    rw [hsplit] at hdrop hsorted
    rcases List.mem_cons.1 hdrop with rfl | hmem
    · exact Std.Irrefl.irrefl (r := (· < ·)) p.id hlt
    · exact Std.Irrefl.irrefl (r := (· < ·)) p.id
        (Trans.trans hlt ((List.pairwise_cons.1 hsorted).1 p hmem))

/-- A UUID is no earlier than what is no earlier than the start. -/
theorem startsBefore_of_not_lt {u v : Uuid} (h : startsBefore (start.map .uuid) v = true)
    (huv : ¬ u < v) : startsBefore (start.map .uuid) u = true := by
  cases start with
  | none => rfl
  | some w =>
    simp only [startsBefore, Option.map_some, Bool.not_eq_true', decide_eq_false_iff_not,
      Uuid.lt_def] at h huv ⊢
    omega

/-- What a walk from a UUID on has shown when it ends: the points of its pages, in
the order of their UUIDs, none before the start; with every UUID from the start on
under which a matching point was stored whenever a page was read. -/
structure ShownFrom (native : Option PointFilter) (start : Option Uuid) (turns : List Turn)
    (shown : List (List Point)) : Prop where
  shows : List.Forall₂ (Turn.Shows native) turns shown
  ascending : (shown.flatten.map (·.id)).Pairwise (· < ·)
  notBefore : ∀ u ∈ shown.flatten.map (·.id), startsBefore (start.map .uuid) u = true
  complete : ∀ u, startsBefore (start.map .uuid) u = true →
    (∀ turn ∈ turns, turn.Stores native u) → u ∈ shown.flatten.map (·.id)

/-- The last page shows what is left. -/
theorem ShownFrom.last (hs : stored.Ordered) {size : Nat} {next : Option PageToken}
    (hend : (stored.left native start).drop size = []) :
    ShownFrom native start
      [⟨stored, ⟨((stored.left native start).take size).map Point.toItem, next⟩⟩]
      [(stored.left native start).take size] where
  shows := .cons (shows_left hs size next) .nil
  ascending := by
    rw [List.flatten_singleton]
    exact List.pairwise_map.2 ((pairwise_left hs native start).take)
  notBefore u hu := by
    rw [List.flatten_singleton] at hu
    obtain ⟨p, hp, rfl⟩ := List.mem_map.1 hu
    exact ((mem_left hs).1 (List.mem_of_mem_take hp)).2.2
  complete u hstart hstores := by
    rw [List.flatten_singleton]
    rcases mem_take_or_of_stores hs size (hstores _ List.mem_cons_self) hstart with
      htake | ⟨q, tail, hsplit, -⟩
    · exact htake
    · rw [hend] at hsplit
      cases hsplit

/-- A page before a walk from the point after it: what the page shows comes before
that point, and all that the walk shows from there on comes after it or at it. -/
theorem ShownFrom.more (hs : stored.Ordered) {size : Nat} {next : Option PageToken} {q : Point}
    {tail : List Point} (hsplit : (stored.left native start).drop size = q :: tail)
    {turns : List Turn} {shown : List (List Point)}
    (hrest : ShownFrom native (some q.id) turns shown) :
    ShownFrom native start
      (⟨stored, ⟨((stored.left native start).take size).map Point.toItem, next⟩⟩ :: turns)
      ((stored.left native start).take size :: shown) := by
  have hsorted := pairwise_left hs native start
  have hparts := List.take_append_drop size (stored.left native start)
  rw [hsplit] at hparts
  have hq : q ∈ stored.left native start := by
    rw [← hparts]
    exact List.mem_append_right _ List.mem_cons_self
  have hbefore : ∀ p ∈ (stored.left native start).take size, p.id < q.id := by
    rw [← hparts] at hsorted
    exact fun p hp => (List.pairwise_append.1 hsorted).2.2 p hp q List.mem_cons_self
  have hafter : ∀ u ∈ shown.flatten.map (·.id), ¬ u < q.id := by
    intro u hu
    simpa [startsBefore] using hrest.notBefore u hu
  constructor
  case shows => exact .cons (shows_left hs size next) hrest.shows
  case ascending =>
    rw [List.flatten_cons, List.map_append, List.pairwise_append]
    refine ⟨List.pairwise_map.2 hsorted.take, hrest.ascending, fun u hu v hv => ?_⟩
    obtain ⟨p, hp, rfl⟩ := List.mem_map.1 hu
    have hlt := hbefore p hp
    have hge := hafter v hv
    rw [Uuid.lt_def] at hlt hge ⊢
    omega
  case notBefore =>
    intro u hu
    rw [List.flatten_cons, List.map_append, List.mem_append] at hu
    rcases hu with hu | hu
    · obtain ⟨p, hp, rfl⟩ := List.mem_map.1 hu
      exact ((mem_left hs).1 (List.mem_of_mem_take hp)).2.2
    · exact startsBefore_of_not_lt ((mem_left hs).1 hq).2.2 (hafter u hu)
  case complete =>
    intro u hstart hstores
    rw [List.forall_mem_cons] at hstores
    rw [List.flatten_cons, List.map_append, List.mem_append]
    rcases mem_take_or_of_stores hs size hstores.1 hstart with
      htake | ⟨q', tail', hsplit', hge⟩
    · exact .inl htake
    · rw [hsplit] at hsplit'
      cases hsplit'
      refine .inr (hrest.complete u ?_ hstores.2)
      simpa [startsBefore] using hge

section Walk

variable {sizes : Nat → Nat} {edits : Nat → List AdapterCall} {i : Nat} {s : Session Memory}
variable {turns : List Turn}

/-- A walk from a UUID on shows what it should: edits leave the collection there
and ordered, so every page begins where the cursor says. -/
theorem WalkAmid.shownFrom (hcompiled : family.compiler.compile? filter = .ok compiled)
    (hpos : ∀ i, 0 < sizes i) (hedits : ∀ i, ∀ call ∈ edits i, call.Edits name)
    {token : Option PageToken} (hwalk : WalkAmid name filter sizes edits i token s turns)
    (hs : s.Ready fun m => m.Ordered ∧ m.Holds name) (htoken : token = tokenAt start) :
    ∃ shown, ShownFrom compiled.native start turns shown := by
  induction hwalk generalizing start with
  | @last i token s s' stored page hstored hpage hnext =>
    rw [htoken, listItems_at hs.1 hstored hcompiled (hpos i)] at hpage
    cases hpage
    rw [tokenAt, Option.map_map, Option.map_eq_none_iff, List.head?_eq_none_iff] at hnext
    exact ⟨_, .last (hs.2.1 name stored hstored) hnext⟩
  | @more i token s s' stored page next turns hstored hpage hnext hrest ih =>
    rw [htoken, listItems_at hs.1 hstored hcompiled (hpos i)] at hpage
    cases hpage
    obtain ⟨q, tail, hsplit⟩ : ∃ q tail,
        (stored.left compiled.native start).drop (sizes i) = q :: tail := by
      cases hdrop : (stored.left compiled.native start).drop (sizes i) with
      | nil => rw [hdrop] at hnext; cases hnext
      | cons q tail => exact ⟨q, tail, rfl⟩
    rw [hsplit] at hnext
    have htoken : next = .cursor (BackendId.uuid q.id).text := (Option.some.inj hnext).symm
    obtain ⟨shown, hshown⟩ : ∃ shown, ShownFrom compiled.native (some q.id) turns shown :=
      ih ((edits_keeping name).run readsOnly (hedits i) hs) (htoken ▸ rfl)
    exact ⟨_, .more (hs.2.1 name stored hstored) hsplit hshown⟩

/-- How far a walk from a UUID on may still go. -/
def room : Option Uuid → Nat
  | none => 2 ^ 128 + 1
  | some u => 2 ^ 128 - u.bits.toNat

/-- A point after another that comes no earlier than the start leaves less room. -/
theorem room_lt {p q : Point} (hp : startsBefore (start.map .uuid) p.id = true)
    (hlt : p.id < q.id) : room (some q.id) < room start := by
  have hbound := q.id.bits.isLt
  rw [Uuid.lt_def] at hlt
  cases start with
  | none => simp only [room]; omega
  | some u =>
    simp only [startsBefore, Option.map_some, Bool.not_eq_true', decide_eq_false_iff_not,
      Uuid.lt_def] at hp
    simp only [room]
    omega

/-- Every walk comes to an end: a page that promises another shows a point, and the
next page begins after it. -/
theorem exists_walkAmid (hcompiled : family.compiler.compile? filter = .ok compiled)
    (hpos : ∀ i, 0 < sizes i) (hedits : ∀ i, ∀ call ∈ edits i, call.Edits name)
    (hs : s.Ready fun m => m.Ordered ∧ m.Holds name) (start : Option Uuid) :
    ∃ turns, WalkAmid name filter sizes edits i (tokenAt start) s turns := by
  induction hroom : room start using Nat.strong_induction_on generalizing start i s with
  | _ n ih =>
    obtain ⟨stored, hstored⟩ := hs.2.2
    have hordered := hs.2.1 name stored hstored
    have hpage : family.listItems name ⟨tokenAt start, sizes i⟩ filter s = _ :=
      listItems_at hs.1 hstored hcompiled (hpos i)
    cases hdrop : (stored.left compiled.native start).drop (sizes i) with
    | nil =>
      rw [hdrop] at hpage
      exact ⟨_, .last hstored hpage rfl⟩
    | cons q tail =>
      obtain ⟨p, hp⟩ : ∃ p, p ∈ (stored.left compiled.native start).take (sizes i) := by
        refine List.exists_mem_of_length_pos ?_
        have hlen := congrArg List.length hdrop
        rw [List.length_drop, List.length_cons] at hlen
        have := hpos i
        rw [List.length_take]
        omega
      have hlt : p.id < q.id := by
        have hsorted := pairwise_left hordered compiled.native start
        rw [← List.take_append_drop (sizes i) (stored.left compiled.native start), hdrop] at hsorted
        exact (List.pairwise_append.1 hsorted).2.2 p hp q List.mem_cons_self
      have hleft := ((mem_left hordered).1 (List.mem_of_mem_take hp)).2.2
      obtain ⟨turns, hrest⟩ := ih _ (hroom ▸ room_lt hleft hlt) (i := i + 1)
        ((edits_keeping name).run readsOnly (hedits i) hs) (some q.id) rfl
      rw [hdrop] at hpage
      exact ⟨_, .more hstored hpage rfl hrest⟩

/-- A caller has no choice: what it gets depends on the sizes and the edits alone. -/
theorem WalkAmid.unique {token : Option PageToken} {turns' : List Turn}
    (h : WalkAmid name filter sizes edits i token s turns)
    (h' : WalkAmid name filter sizes edits i token s turns') : turns' = turns := by
  induction h generalizing turns' with
  | last hstored hpage hnext =>
    cases h' with
    | last hstored' hpage' _ =>
      cases hstored.symm.trans hstored'
      cases hpage.symm.trans hpage'
      rfl
    | more _ hpage' hnext' _ =>
      cases hpage.symm.trans hpage'
      cases hnext.symm.trans hnext'
  | more hstored hpage hnext _ ih =>
    cases h' with
    | last _ hpage' hnext' =>
      cases hpage.symm.trans hpage'
      cases hnext.symm.trans hnext'
    | more hstored' hpage' hnext' hrest' =>
      cases hstored.symm.trans hstored'
      cases hpage.symm.trans hpage'
      cases hnext.symm.trans hnext'
      rw [ih hrest']

/-! ## Connections that calls lead to -/

/-- Calls keep the points of a connection's server in order, whatever they hand over. -/
theorem ordered_of_used {c : Connection} (h : c.Used) :
    ∀ s, c = .qdrant s → s.server.Ordered := by
  induction h with
  | fresh h =>
    rintro s rfl
    cases h
    exact nofun
  | @resolving c r h ih =>
    intro s hs
    cases c with
    | qdrant s₀ =>
      cases hs
      exact ih s₀ rfl
    | _ => cases hs
  | @perform c call h ih =>
    intro s hs
    cases c with
    | qdrant s₀ =>
      cases hs
      have hcall : call.Admissible fun _ => True :=
        call.admissible_of_forall fun _ => trivial
      exact (Family.keeps readsOnly guards_ordered).perform hcall s₀ (ih s₀ rfl)
    | _ => cases hs

/-- Calls of a session are calls of its connection. -/
theorem used_run {s : Session Memory} (h : (Connection.qdrant s).Used) (calls : List AdapterCall) :
    (Connection.qdrant (family.adapter.run calls s).2).Used := by
  induction calls generalizing s with
  | nil => exact h
  | cons call calls ih => exact ih (.perform call h)

/-- **Cursor walks are exact while the collection is edited.** Whatever the page
sizes, and whatever is added, changed and removed between the pages, following the
cursors comes to an end, and in one way. The points on the pages were stored and
matched when they were read; together they are in strictly ascending order of
UUIDs, so none is shown twice; and a UUID under which a matching point was stored
whenever a page was read is shown exactly once. -/
theorem walk_exact_amid_edits (hused : (Connection.qdrant s).Used) (hconn : s.connected = true)
    (hheld : Keyed.get? name s.server.collections = some stored)
    (hcompiled : family.compiler.compile? filter = .ok compiled) (hpos : ∀ i, 0 < sizes i)
    (hedits : ∀ i, ∀ call ∈ edits i, call.Edits name) :
    ∃ turns, WalkAmid name filter sizes edits 0 none s turns ∧
      (∀ turns', WalkAmid name filter sizes edits 0 none s turns' → turns' = turns) ∧
      ∃ shown, List.Forall₂ (Turn.Shows compiled.native) turns shown ∧
        (shown.flatten.map (·.id)).Pairwise (· < ·) ∧
        ∀ u, (∀ turn ∈ turns, turn.Stores compiled.native u) →
          (shown.flatten.map (·.id)).count u = 1 := by
  have hs : s.Ready fun m => m.Ordered ∧ m.Holds name :=
    ⟨hconn, ordered_of_used hused s rfl, stored, hheld⟩
  obtain ⟨turns, hwalk⟩ := exists_walkAmid (i := 0) hcompiled hpos hedits hs none
  have htoken : (none : Option PageToken) = tokenAt none := rfl
  obtain ⟨shown, hshown⟩ := hwalk.shownFrom hcompiled hpos hedits hs htoken
  refine ⟨turns, hwalk, fun _ hwalk' => hwalk.unique hwalk', shown, hshown.shows,
    hshown.ascending, fun u hstores => ?_⟩
  have hnodup : (shown.flatten.map (·.id)).Nodup := by
    refine List.nodup_iff_pairwise_ne.2 (hshown.ascending.imp ?_)
    rintro v _ hlt rfl
    exact Std.Irrefl.irrefl (r := (· < ·)) v hlt
  exact List.count_eq_one_of_mem hnodup (hshown.complete u rfl hstores)

end Walk

/-- A session with three points in a collection. -/
def threePoints : Session Memory :=
  (family.adapter.run [.connect, .createCollection "docs" 1 .cosine,
    .addItems "docs" (["a", "b", "c"].map Connection.sample)] (.start .empty .empty)).2

/-- After its first page a walk by ones finds the point of its cursor removed and
another one added. -/
def swapping (i : Nat) : List AdapterCall :=
  if i = 0 then [.deleteItems "docs" ["a", "b", "c"] none,
    .addItems "docs" [Connection.sample "d"]] else []

theorem edits_swapping (i : Nat) : ∀ call ∈ swapping i, call.Edits "docs" := by
  intro call hcall
  rw [swapping] at hcall
  split at hcall
  · rcases List.mem_cons.1 hcall with rfl | hcall
    · exact .delete _ _
    · rw [List.mem_singleton.1 hcall]
      exact .add _
  · cases hcall

/-- A walk whose points are all removed after its first page. -/
theorem walk_exact_amid_edits_of_swapping :
    ∃ stored, Keyed.get? "docs" threePoints.server.collections = some stored ∧
      stored.points.length = 3 ∧
      ∃ turns, WalkAmid "docs" none (fun _ => 1) swapping 0 none threePoints turns ∧
        (∀ turns', WalkAmid "docs" none (fun _ => 1) swapping 0 none threePoints turns' →
          turns' = turns) ∧
        ∃ shown, List.Forall₂ (Turn.Shows none) turns shown ∧
          (shown.flatten.map (·.id)).Pairwise (· < ·) ∧
          ∀ u, (∀ turn ∈ turns, turn.Stores none u) →
            (shown.flatten.map (·.id)).count u = 1 := by
  have hused : (Connection.qdrant threePoints).Used := used_run (.fresh (.qdrant _)) _
  have hconn : threePoints.connected = true := by decide +kernel
  have hheld : (Keyed.get? "docs" threePoints.server.collections).map (·.points.length) =
      some 3 := by decide +kernel
  obtain ⟨stored, hstored, hlen⟩ := Option.map_eq_some_iff.1 hheld
  have hcompiled : family.compiler.compile? none = .ok .empty := rfl
  exact ⟨stored, hstored, hlen, walk_exact_amid_edits hused hconn hstored hcompiled
    (fun _ => Nat.one_pos) edits_swapping⟩

end Qdrant

end VectorBridge
