import VectorBridge.Proofs.Family.Storage
import VectorBridge.Proofs.Family.Widths
/-!
# Servers that declare widths

Some servers declare a width for each of their collections and refuse vectors of any
other. Whether such a server ever has to refuse one depends on the adapter: what it
remembers has to be what the server declares, and to be looked at before every write.
`Declaring` says what a server of this kind does to the widths and items of its
collections; from that the widths that are remembered stay in step with it, and every
misfit is found before the server is asked to write it.
-/

namespace VectorBridge

namespace Storage

variable {τ Held Row Fragment : Type}

/-- All stored vectors of a collection have its width. -/
def Fits (V : Storage τ Held Row Fragment) (width : Held → Nat) (held : Held) : Prop :=
  ∀ item ∈ V.items held, ∀ v, item.embedding = some v → v.length = width held

/-- The widths remembered are those of collections that are there, and what is stored
fits them. -/
structure InStep (V : Storage τ Held Row Fragment) (width : Held → Nat)
    (ws : String → Option Nat) (t : τ) : Prop where
  known : ∀ name w, ws name = some w → ∃ held, V.held? t name = some held ∧ width held = w
  fits : ∀ name held, V.held? t name = some held → V.Fits width held

/-- A collection is as it was, or keeps its width and has no items but those it had and
some with new vectors. -/
def Edited (V : Storage τ Held Row Fragment) (width : Held → Nat) (new : List Embedding)
    (name : String) (t t' : τ) : Prop :=
  t' = t ∨ ∃ held held', V.held? t name = some held ∧ V.Changed t t' name held' ∧
    width held' = width held ∧ ∀ item ∈ V.items held',
      item ∈ V.items held ∨ ∀ v, item.embedding = some v → v ∈ new

variable {V : Storage τ Held Row Fragment} {width : Held → Nat} {ws ws' : String → Option Nat}
variable {t t' : τ} {name : String} {held : Held}

/-- Where there are no collections nothing is to be remembered. -/
theorem InStep.of_none (h : ∀ name, V.held? t name = none) : V.InStep width (fun _ => none) t where
  known _ _ hw := nomatch hw
  fits name held hheld := by
    rw [h name] at hheld
    cases hheld

/-- Widths stay in step when one collection changes, and what is remembered of it is
its width. -/
theorem InStep.of_changed (h : V.InStep width ws t) (hchanged : V.Changed t t' name held)
    (hfits : V.Fits width held) (hhere : ∀ w, ws' name = some w → width held = w)
    (hothers : ∀ other, other ≠ name → ws' other = ws other) : V.InStep width ws' t' where
  known other w hw := by
    by_cases hname : other = name
    · subst hname
      exact ⟨held, hchanged.here, hhere w hw⟩
    · obtain ⟨held', hheld, hwidth⟩ := h.known other w (by rwa [← hothers other hname])
      exact ⟨held', by rwa [hchanged.others other hname], hwidth⟩
  fits other held' hheld := by
    by_cases hname : other = name
    · subst hname
      obtain rfl := Option.some.inj (hchanged.here.symm.trans hheld)
      exact hfits
    · exact h.fits other held' (by rwa [← hchanged.others other hname])

/-- The width of a collection may be remembered. -/
theorem InStep.record (h : V.InStep width ws t) (hheld : V.held? t name = some held) :
    V.InStep width (Function.update ws name (some (width held))) t :=
  h.of_changed ⟨hheld, fun _ _ => rfl⟩ (h.fits name held hheld)
    (fun w hw => by rw [Function.update_self] at hw; exact Option.some.inj hw)
    fun other hother => Function.update_of_ne hother _ _

/-- The width of a collection that is gone is to be forgotten. -/
theorem InStep.forget (h : V.InStep width ws t) (hgone : V.held? t' name = none)
    (hothers : ∀ other, other ≠ name → V.held? t' other = V.held? t other) :
    V.InStep width (Function.update ws name none) t' where
  known other w hw := by
    by_cases hname : other = name
    · subst hname
      rw [Function.update_self] at hw
      cases hw
    · rw [Function.update_of_ne hname] at hw
      rw [hothers other hname]
      exact h.known other w hw
  fits other held hheld := by
    by_cases hname : other = name
    · subst hname
      rw [hgone] at hheld
      cases hheld
    · exact h.fits other held (by rwa [← hothers other hname])

/-- An edit keeps widths in step when its vectors have the width of their collection. -/
theorem InStep.of_edited {new : List Embedding} (h : V.InStep width ws t)
    (hedited : V.Edited width new name t t')
    (hnew : ∀ held, V.held? t name = some held → ∀ v ∈ new, v.length = width held) :
    V.InStep width ws t' := by
  rcases hedited with rfl | ⟨held, held', hheld, hchanged, hwidth, hitems⟩
  · exact h
  refine h.of_changed hchanged (fun item hitem v hv => ?_) (fun w hw => ?_) fun _ _ => rfl
  · rw [hwidth]
    rcases hitems item hitem with hold | hvector
    · exact h.fits name held hheld item hold v hv
    · exact hnew held hheld v (hvector v hv)
  · obtain ⟨held₀, hheld₀, hw⟩ := h.known name w hw
    obtain rfl := Option.some.inj (hheld.symm.trans hheld₀)
    exact hwidth.trans hw

end Storage

namespace Family

variable {τ Held Row Condition Fragment : Type}

open Session Storage

/-- What a family of servers that declare widths does to the widths and items of
collections. Writes are refused for a vector of another width. -/
structure Declaring (F : Family τ String Condition Fragment) (V : Storage τ Held Row Fragment)
    (width : Held → Nat) (refuses : String → List Item → τ → Bool) : Prop where
  reads : F.ReadsOnly
  attach : ∀ name t, F.attach name t = (.ok name, t)
  named : ∀ name, F.nameOf name = name
  inspected : ∀ {name t h scoring}, F.inspect name t = (.ok (h, scoring), t) →
    h = name ∧ ∃ held, V.held? t name = some held ∧ scoring.declared = some (width held)
  declared : ∀ {name t held}, V.held? t name = some held →
    F.declaredWidth name t = (.ok (some (width held)), t)
  undeclared : ∀ {name t}, V.held? t name = none → ∃ e, F.declaredWidth name t = (.error e, t)
  create : ∀ {c name w metric t t'}, F.create c name w metric t = (.ok (), t') →
    ∃ held, V.Changed t t' name held ∧ width held = w ∧ V.items held = []
  create_error : ∀ {c name w metric t e t'}, F.create c name w metric t = (.error e, t') → t' = t
  drop : ∀ {name t t'}, F.drop name t = (.ok (), t') → V.held? t' name = none ∧
    ∀ other, other ≠ name → V.held? t' other = V.held? t other
  drop_error : ∀ {name t e t'}, F.drop name t = (.error e, t') → t' = t
  eraseIds : ∀ name ids t, V.Edited width [] name t (F.eraseIds name ids t).2
  eraseWhere : ∀ name fragment t, V.Edited width [] name t (F.eraseWhere name fragment t).2
  write : ∀ name batch t,
    V.Edited width (batch.filterMap (·.embedding)) name t (F.write name batch t).2
  misfit_of_refuses : ∀ {name batch t}, refuses name batch t = true →
    ∃ held, V.held? t name = some held ∧
      ∃ v ∈ batch.filterMap (·.embedding), v.length ≠ width held

/-- What is said of a session whose adapter finds every misfit before its server does:
what it remembers of widths is what the server declares, all stored vectors have the
width declared, and a batch or a query that has come as far as its widths and has a
vector of another one is refused. -/
structure FindsMisfits (F : Family τ String Condition Fragment) (V : Storage τ Held Row Fragment)
    (s : Session τ) : Prop where
  remembered : ∀ name w, s.dimensions.cachedWidth? name = some w →
    (F.declaredWidth name s.server).1 = .ok (some w)
  stored : ∀ name held, V.held? s.server name = some held →
    ∃ w, (F.declaredWidth name s.server).1 = .ok (some w) ∧
      ∀ item ∈ V.items held, ∀ v, item.embedding = some v → v.length = w
  adding : ∀ name w items h batch s₁, (F.declaredWidth name s.server).1 = .ok (some w) →
    s.connected = true → F.submit name items s = (.ok (h, batch), s₁) →
      ∀ v ∈ batch.filterMap (·.embedding), v.length ≠ w →
        ∃ n s', n ≠ w ∧ F.addItems name items s = (.error (.dimensionMismatch w n), s')
  searching : ∀ name w query h vectors, (F.declaredWidth name s.server).1 = .ok (some w) →
    F.Inquiry name query s h vectors → ∀ v ∈ vectors, v.length ≠ w →
      ∃ n s', n ≠ w ∧ F.search name query s = (.error (.dimensionMismatch w n), s')

namespace Declaring

variable {F : Family τ String Condition Fragment} {V : Storage τ Held Row Fragment}
variable {width : Held → Nat} {refuses : String → List Item → τ → Bool} {s : Session τ}
variable {name : String}

theorem tracks (D : F.Declaring V width refuses) : F.Tracks (V.InStep width) where
  reads := D.reads
  named {_ t name h} _ hattach := by
    rw [D.attach] at hattach
    cases hattach
    exact D.named _
  attach_of_inspect hinspect := by
    obtain ⟨rfl, -⟩ := D.inspected hinspect
    exact D.attach _ _
  told _ {_ _ _ _ _ w} hstep hinspect hdeclared := by
    obtain ⟨-, held, hheld, htold⟩ := D.inspected hinspect
    obtain rfl : width held = w := Option.some.inj (htold.symm.trans hdeclared)
    exact hstep.record hheld
  declares {_ t name h} hstep hattach _ := by
    rw [D.attach] at hattach
    cases hattach
    cases hheld : V.held? t name with
    | none => exact .inl (D.undeclared hheld)
    | some held => exact .inr ⟨width held, D.declared hheld, hstep.record hheld⟩
  drop hstep hdrop := hstep.forget (D.drop hdrop).1 (D.drop hdrop).2
  drop_error hstep hdrop := D.drop_error hdrop ▸ hstep
  eraseIds _ name ids t hstep := hstep.of_edited (D.eraseIds name ids t) fun _ _ _ hv => nomatch hv
  eraseWhere _ name fragment t hstep :=
    hstep.of_edited (D.eraseWhere name fragment t) fun _ _ _ hv => nomatch hv
  write {_ t name h batch w} hstep hattach hw hfits := by
    rw [D.attach] at hattach
    cases hattach
    refine hstep.of_edited (D.write name batch t) fun held hheld v hv => ?_
    obtain ⟨held', hheld', rfl⟩ := hstep.known name w hw
    obtain rfl := Option.some.inj (hheld.symm.trans hheld')
    exact hfits v hv

theorem keeps_create (D : F.Declaring V width refuses) (name : String) (w : Nat)
    (metric : Metric) :
    Step.Keeps (Tracking (V.InStep width)) (F.createCollection name w metric) := by
  refine keeps_createCollection (fun hstep hcreate => ?_) (fun hstep hcreate => ?_) name w metric
  · obtain ⟨held, hchanged, rfl, hnone⟩ := D.create hcreate
    refine hstep.of_changed hchanged (fun item hitem => ?_) (fun w hw => ?_)
      fun other hother => Function.update_of_ne hother _ _
    · rw [hnone] at hitem
      cases hitem
    · rw [Function.update_self] at hw
      exact Option.some.inj hw
  · exact D.create_error hcreate ▸ hstep

/-- Refused writes have vectors of a width that is not the one remembered. -/
theorem misses (D : F.Declaring V width refuses) : F.Misses (V.InStep width) refuses := by
  intro ws t name h batch w hstep hattach hw hfits
  rw [D.attach] at hattach
  cases hattach
  cases hrefuses : refuses name batch t with
  | false => rfl
  | true =>
    obtain ⟨held, hheld, v, hv, hmisfit⟩ := D.misfit_of_refuses hrefuses
    obtain ⟨held', hheld', rfl⟩ := hstep.known name w hw
    obtain rfl := Option.some.inj (hheld.symm.trans hheld')
    exact absurd (hfits v hv) hmisfit

/-- What the server declares of a collection that is there is resolved. -/
theorem resolve_of_declared (D : F.Declaring V width refuses) {w : Nat}
    (hs : Tracking (V.InStep width) s)
    (hdeclared : (F.declaredWidth name s.server).1 = .ok (some w)) :
    ∃ s', F.resolve name s = (.ok (.known w), s') := by
  rcases D.tracks.resolve_cases hs (D.attach name s.server) with ⟨e, herror, -⟩ |
    ⟨w', s', hrun, hserver, hs', hwidth⟩
  · rw [herror] at hdeclared
    cases hdeclared
  · obtain ⟨held, hheld, rfl⟩ := hs'.agrees.known name w' hwidth
    rw [hserver] at hheld
    rw [D.declared hheld] at hdeclared
    cases hdeclared
    exact ⟨s', hrun⟩

theorem findsMisfits (D : F.Declaring V width refuses) (hs : Tracking (V.InStep width) s) :
    F.FindsMisfits V s where
  remembered name w hw := by
    obtain ⟨held, hheld, rfl⟩ := hs.agrees.known name w hw
    rw [D.declared hheld]
  stored name held hheld := ⟨width held, by rw [D.declared hheld], hs.agrees.fits name held hheld⟩
  adding name w items h batch s₁ hdeclared hconn hsubmit v hv hmisfit := by
    obtain ⟨hattach, -, requests, rfl⟩ := submit_eq_ok D.reads hsubmit
    rw [D.attach] at hattach
    cases hattach
    obtain ⟨s₂, hrun⟩ := D.resolve_of_declared (s := { s with requests := requests })
      (hs.of_same rfl rfl) hdeclared
    obtain ⟨n, hn, hadd⟩ := addItems_of_misfit D.reads hconn hsubmit hrun hv hmisfit
    exact ⟨n, s₂, hn, hadd⟩
  searching name w query h vectors hdeclared Q v hv hmisfit := by
    obtain ⟨scoring, hopen⟩ := Q.opened
    obtain ⟨rfl, -⟩ := D.inspected hopen
    obtain ⟨s₁, hrun⟩ := D.resolve_of_declared hs hdeclared
    exact search_of_misfit Q hrun hv hmisfit

/-- **From a server without collections on, every misfit is found before the server
does**, and no call reaches a write that is refused for one. -/
theorem run_findsMisfits (D : F.Declaring V width refuses) {start : τ}
    (hstart : ∀ name, V.held? start name = none) (c : Context) (calls : List AdapterCall) :
    F.FindsMisfits V (F.adapter.run calls (.start start c)).2 ∧
      ∀ instead, (F.rewriting refuses instead).adapter.run calls (.start start c) =
        F.adapter.run calls (.start start c) := by
  have hs : Tracking (V.InStep width) (.start start c) := ⟨trivial, .of_none hstart⟩
  have hkeeps : F.adapter.Keeps (Tracking (V.InStep width)) fun _ => True :=
    D.tracks.keeps D.keeps_create
  have hcalls : ∀ call ∈ calls, call.Admissible fun _ => True := fun call _ =>
    AdapterCall.admissible_of_forall (fun _ => trivial) call
  exact ⟨D.findsMisfits (hkeeps.run hcalls hs),
    fun instead => D.tracks.run_rewriting D.misses instead D.keeps_create calls hs⟩

end Declaring

end Family

end VectorBridge
