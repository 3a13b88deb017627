import VectorBridge.Session
/-!
# What a step does

Actions and calls are functions of a state, and what they do is read off by
running them. A step that succeeds runs the next one on the state it leaves; a
step that fails ends the sequence there, with the state it leaves.
-/

namespace VectorBridge

namespace Step

variable {ε σ α β : Type}

@[simp] theorem pure_apply (a : α) (s : σ) :
    (pure a : ExceptT ε (StateM σ) α) s = (.ok a, s) := rfl

@[simp] theorem throw_apply (e : ε) (s : σ) :
    (throw e : ExceptT ε (StateM σ) α) s = (.error e, s) := rfl

@[simp] theorem get_apply (s : σ) : (get : ExceptT ε (StateM σ) σ) s = (.ok s, s) := rfl

@[simp] theorem modify_apply (f : σ → σ) (s : σ) :
    (modify f : ExceptT ε (StateM σ) PUnit) s = (.ok ⟨⟩, f s) := rfl

theorem bind_apply (x : ExceptT ε (StateM σ) α) (f : α → ExceptT ε (StateM σ) β) (s : σ) :
    (x >>= f) s =
      match x s with
      | (.ok a, s') => f a s'
      | (.error e, s') => (.error e, s') := by
  show (match x s with
    | (r, s') => (match r with
      | .ok a => f a
      | .error e => fun s => (.error e, s) : StateM σ (Except ε β)) s') = _
  rcases x s with ⟨a | e, s'⟩ <;> rfl

theorem bind_of_ok {x : ExceptT ε (StateM σ) α} {s s' : σ} {a : α} (h : x s = (.ok a, s'))
    (f : α → ExceptT ε (StateM σ) β) : (x >>= f) s = f a s' := by
  rw [bind_apply, h]

theorem bind_of_error {x : ExceptT ε (StateM σ) α} {s s' : σ} {e : ε}
    (h : x s = (.error e, s')) (f : α → ExceptT ε (StateM σ) β) :
    (x >>= f) s = (.error e, s') := by
  rw [bind_apply, h]

/-- **A sequence succeeds exactly when** both of its steps do, one after the
other. -/
theorem bind_eq_ok_iff {x : ExceptT ε (StateM σ) α} {f : α → ExceptT ε (StateM σ) β}
    {s s' : σ} {b : β} :
    (x >>= f) s = (.ok b, s') ↔ ∃ a s₁, x s = (.ok a, s₁) ∧ f a s₁ = (.ok b, s') := by
  rw [bind_apply]
  rcases x s with ⟨e | a, s₁⟩
  · exact ⟨fun h => (by cases h), fun ⟨_, _, h, _⟩ => (by cases h)⟩
  · exact ⟨fun h => ⟨a, s₁, rfl, h⟩, fun ⟨_, _, h, hf⟩ => (by cases h; exact hf)⟩

/-! ## What a step leaves -/

/-- The step leaves the state as it is, whether it succeeds or not. -/
def Leaves (x : ExceptT ε (StateM σ) α) : Prop := ∀ s, (x s).2 = s

/-- The step keeps up a property of the state, whether it succeeds or not. -/
def Keeps (J : σ → Prop) (x : ExceptT ε (StateM σ) α) : Prop := ∀ s, J s → J (x s).2

theorem leaves_pure (a : α) : Leaves (pure a : ExceptT ε (StateM σ) α) := fun _ => rfl

theorem leaves_throw (e : ε) : Leaves (throw e : ExceptT ε (StateM σ) α) := fun _ => rfl

theorem Leaves.bind {x : ExceptT ε (StateM σ) α} {f : α → ExceptT ε (StateM σ) β}
    (hx : Leaves x) (hf : ∀ a, Leaves (f a)) : Leaves (x >>= f) := by
  intro s
  rw [bind_apply]
  have := hx s
  rcases hxs : x s with ⟨e | a, s'⟩ <;> rw [hxs] at this
  · exact this
  · obtain rfl : s' = s := this
    exact hf a s'

theorem Leaves.keeps {J : σ → Prop} {x : ExceptT ε (StateM σ) α} (hx : Leaves x) : Keeps J x :=
  fun s hs => by rw [hx s]; exact hs

/-- A property is kept at a state by a sequence when the first step keeps it there
and what comes after keeps it from where the first step leads. -/
theorem keeps_bind_at {J : σ → Prop} {x : ExceptT ε (StateM σ) α}
    {f : α → ExceptT ε (StateM σ) β} {s : σ} (hx : J (x s).2)
    (hf : ∀ a s', x s = (.ok a, s') → J (f a s').2) : J ((x >>= f) s).2 := by
  rw [bind_apply]
  rcases hxs : x s with ⟨e | a, s'⟩
  · rw [hxs] at hx
    exact hx
  · exact hf a s' hxs

theorem Keeps.bind {J : σ → Prop} {x : ExceptT ε (StateM σ) α}
    {f : α → ExceptT ε (StateM σ) β} (hx : Keeps J x) (hf : ∀ a, Keeps J (f a)) :
    Keeps J (x >>= f) := fun s hs =>
  keeps_bind_at (hx s hs) fun a s' hxs => hf a s' (by have := hx s hs; rwa [hxs] at this)

/-- What is made of a result leaves the state to the step. -/
theorem snd_then_pure (x : ExceptT ε (StateM σ) α) (f : α → β) (s : σ) :
    ((x >>= fun a => pure (f a)) s).2 = (x s).2 := by
  rw [bind_apply]
  rcases x s with ⟨_ | _, s'⟩ <;> rfl

/-- What holds of every failure of the first step, and of all that comes after a
success of it, holds of a sequence. -/
theorem bind_cases {x : ExceptT ε (StateM σ) α} {f : α → ExceptT ε (StateM σ) β} {s : σ}
    {P : Except ε β × σ → Prop} (herror : ∀ e s', x s = (.error e, s') → P (.error e, s'))
    (hok : ∀ a s', x s = (.ok a, s') → P (f a s')) : P ((x >>= f) s) := by
  rw [bind_apply]
  rcases hx : x s with ⟨e | a, s'⟩
  · exact herror e s' hx
  · exact hok a s' hx

/-- Sequences do the same at a state when their first steps do, and what comes after
does the same from where a success leads. -/
theorem bind_congr_at {x y : ExceptT ε (StateM σ) α} {f g : α → ExceptT ε (StateM σ) β} {s : σ}
    (h : x s = y s) (hf : ∀ a s', x s = (.ok a, s') → f a s' = g a s') :
    (x >>= f) s = (y >>= g) s := by
  rw [bind_apply, bind_apply, ← h]
  rcases hx : x s with ⟨e | a, s'⟩
  · rfl
  · exact hf a s' hx

/-- A sequence of steps that cannot fail. -/
theorem state_bind_apply (x : StateM σ α) (f : α → StateM σ β) (s : σ) :
    (x >>= f) s = f (x s).1 (x s).2 := rfl

/-! ## Steps that do the same -/

variable {ρ : Type}

/-- Two steps have the same outcome and leave related states. -/
def Alike (R : σ → ρ → Prop) (r : Except ε α × σ) (r' : Except ε α × ρ) : Prop :=
  r.1 = r'.1 ∧ R r.2 r'.2

/-- Sequences do the same when their first steps do, and what comes after does
the same at the states that a success leads to. -/
theorem Alike.bind {R : σ → ρ → Prop} {x : ExceptT ε (StateM σ) α} {y : ExceptT ε (StateM ρ) α}
    {f : α → ExceptT ε (StateM σ) β} {g : α → ExceptT ε (StateM ρ) β} {s : σ} {r : ρ}
    (h : Alike R (x s) (y r))
    (hf : ∀ a s' r', x s = (.ok a, s') → y r = (.ok a, r') → R s' r' →
      Alike R (f a s') (g a r')) :
    Alike R ((x >>= f) s) ((y >>= g) r) := by
  rw [bind_apply, bind_apply]
  rcases hx : x s with ⟨e | a, s'⟩ <;> rcases hy : y r with ⟨e' | a', r'⟩ <;> rw [hx, hy] at h <;>
    obtain ⟨hout, hR⟩ := h <;> cases hout
  · exact ⟨rfl, hR⟩
  · exact hf a s' r' hx hy hR

/-- What is made of the results is the same. -/
theorem Alike.then_pure {R : σ → ρ → Prop} {x : ExceptT ε (StateM σ) α}
    {y : ExceptT ε (StateM ρ) α} {s : σ} {r : ρ} (f : α → β) (h : Alike R (x s) (y r)) :
    Alike R ((x >>= fun a => pure (f a)) s) ((y >>= fun a => pure (f a)) r) :=
  h.bind fun _ _ _ _ _ hR => ⟨rfl, hR⟩

/-- What goes well goes well alike. -/
theorem Alike.of_ok {R : σ → ρ → Prop} {x : ExceptT ε (StateM σ) α} {y : ExceptT ε (StateM ρ) α}
    {s s' : σ} {r : ρ} {a : α} (h : Alike R (x s) (y r)) (hx : x s = (.ok a, s')) :
    ∃ r', y r = (.ok a, r') ∧ R s' r' := by
  rw [hx] at h
  obtain ⟨hout, hR⟩ := h
  exact ⟨(y r).2, Prod.ext hout.symm rfl, hR⟩

/-! ## Steps that succeed or fail together -/

variable {α' β' : Type}

/-- Two outcomes go together: both steps succeed, with related answers and states, or
both fail, for related reasons and with related states. -/
inductive Paired (Q : α → α' → Prop) (R : σ → ρ → Prop) (E : ε → ε → Prop) (R' : σ → ρ → Prop) :
    Except ε α × σ → Except ε α' × ρ → Prop
  | ok {a : α} {a' : α'} {s : σ} {r : ρ} (answers : Q a a') (states : R s r) :
      Paired Q R E R' (.ok a, s) (.ok a', r)
  | error {e e' : ε} {s : σ} {r : ρ} (reasons : E e e') (states : R' s r) :
      Paired Q R E R' (.error e, s) (.error e', r)

section Paired

variable {Q : α → α' → Prop} {R S R' : σ → ρ → Prop} {E : ε → ε → Prop} {P : β → β' → Prop}
variable {x : ExceptT ε (StateM σ) α} {y : ExceptT ε (StateM ρ) α'} {s : σ} {r : ρ}

/-- Sequences go together when their first steps do, and what comes after goes together
from where successes lead. -/
theorem Paired.bind {f : α → ExceptT ε (StateM σ) β} {g : α' → ExceptT ε (StateM ρ) β'}
    (h : Paired Q R E R' (x s) (y r))
    (hf : ∀ a a' s' r', x s = (.ok a, s') → y r = (.ok a', r') → Q a a' → R s' r' →
      Paired P S E R' (f a s') (g a' r')) :
    Paired P S E R' ((x >>= f) s) ((y >>= g) r) := by
  rcases hx : x s with ⟨e | a, s'⟩ <;> rcases hy : y r with ⟨e' | a', r'⟩ <;>
    rw [hx, hy] at h <;> cases h
  case error hreasons hstates =>
    rw [bind_of_error hx, bind_of_error hy]
    exact .error hreasons hstates
  case ok hanswers hstates =>
    rw [bind_of_ok hx, bind_of_ok hy]
    exact hf a a' s' r' hx hy hanswers hstates

/-- Where the first steps have the same answer, what comes after is told that answer. -/
theorem Paired.bind_same {x : ExceptT ε (StateM σ) α} {y : ExceptT ε (StateM ρ) α}
    {f : α → ExceptT ε (StateM σ) β} {g : α → ExceptT ε (StateM ρ) β'}
    (h : Paired Eq R E R' (x s) (y r))
    (hf : ∀ a s' r', x s = (.ok a, s') → y r = (.ok a, r') → R s' r' →
      Paired P S E R' (f a s') (g a r')) :
    Paired P S E R' ((x >>= f) s) ((y >>= g) r) := by
  refine h.bind fun a a' s' r' hx hy hanswers hstates => ?_
  subst hanswers
  exact hf a s' r' hx hy hstates

/-- What is made of the answers goes together when the answers do. -/
theorem Paired.then_pure {f : α → β} {g : α' → β'} (h : Paired Q R E R' (x s) (y r))
    (hf : ∀ a a', Q a a' → P (f a) (g a')) :
    Paired P R E R' ((x >>= fun a => pure (f a)) s) ((y >>= fun a => pure (g a)) r) :=
  h.bind fun a a' _ _ _ _ hanswers hstates => .ok (hf a a' hanswers) hstates

/-- What is asked of a success can be less. -/
theorem Paired.imp {Q' : α → α' → Prop} {r₁ : Except ε α × σ} {r₂ : Except ε α' × ρ}
    (h : Paired Q R E R' r₁ r₂) (hQ : ∀ a a', Q a a' → Q' a a')
    (hR : ∀ s r, R s r → S s r) : Paired Q' S E R' r₁ r₂ := by
  cases h with
  | ok hanswers hstates => exact .ok (hQ _ _ hanswers) (hR _ _ hstates)
  | error hreasons hstates => exact .error hreasons hstates

/-- States that are related by both relations are related after either outcome. -/
theorem Paired.states {r₁ : Except ε α × σ} {r₂ : Except ε α' × ρ} (h : Paired Q R E R r₁ r₂) :
    R r₁.2 r₂.2 := by
  cases h with
  | ok _ hstates => exact hstates
  | error _ hstates => exact hstates

end Paired

end Step

end VectorBridge
