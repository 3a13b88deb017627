import Mathlib
import VectorBridge.Postgres.Filter
/-!
# The text of a condition is free of values

Keys and operands travel as parameters, so the text of a conjunction shows only its shape.
Two things are said of every rendering. It appends its parameters to those that are bound
already, and the numbers in its text are just those of the parameters it appended
(`Numbered`); so no value is bound that the text does not use, and none is used that another
condition bound. And conjunctions of one shape have one text (`RenderedAlike`), whatever
their keys and values are. Both are kept by putting renderings together.
-/

namespace VectorBridge

namespace Postgres

/-! ## Placeholders of a text -/

/-- The numbers after the dollar signs. -/
def numbersIn : List Char → List Nat
  | [] => []
  | c :: cs =>
    if c = '$' then Nat.ofDigitChars 10 (cs.takeWhile Char.isDigit) 0 :: numbersIn cs
    else numbersIn cs

/-- The numbers of the placeholders in an SQL text, from left to right. -/
def placeholders (sql : String) : List Nat := numbersIn sql.toList

/-- Whether a text ends the number of a placeholder that stands before it. -/
def StartsApart (cs : List Char) : Prop := ∃ c rest, cs = c :: rest ∧ c.isDigit = false

theorem numbersIn_append (cs : List Char) {ds : List Char} (h : StartsApart ds) :
    numbersIn (cs ++ ds) = numbersIn cs ++ numbersIn ds := by
  have hstop : ∀ cs : List Char,
      (cs ++ ds).takeWhile Char.isDigit = cs.takeWhile Char.isDigit := by
    obtain ⟨d, rest, rfl, hd⟩ := h
    intro cs
    have hnone : (d :: rest).takeWhile Char.isDigit = [] := by
      rw [List.takeWhile_cons, hd]
      rfl
    rw [List.takeWhile_append, hnone, List.append_nil]
    split
    · rename_i hall
      exact ((List.takeWhile_prefix _).eq_of_length hall).symm
    · rfl
  induction cs with
  | nil => rfl
  | cons c cs ih =>
    rw [List.cons_append, numbersIn, numbersIn, hstop, ih]
    split <;> rfl

theorem numbersIn_of_not_mem {cs : List Char} (h : '$' ∉ cs) : numbersIn cs = [] := by
  induction cs with
  | nil => rfl
  | cons c cs ih =>
    obtain ⟨hc, hcs⟩ := not_or.1 (mt List.mem_cons.2 h)
    rw [numbersIn, if_neg (Ne.symm hc), ih hcs]

/-- Whether a text is fixed: it shows no placeholder, and no digit begins it. -/
def isFixed (s : String) : Bool :=
  match s.toList with
  | [] => false
  | c :: rest => !c.isDigit && !(c :: rest).contains '$'

/-- A piece of text that shows these placeholders, and continues none that stands before. -/
structure Shows (sql : String) (numbers : List Nat) : Prop where
  apart : StartsApart sql.toList
  eq : placeholders sql = numbers

namespace Shows

variable {s t : String} {l m : List Nat}

/-- Pieces of text show their placeholders one after the other. -/
theorem append (hs : Shows s l) (ht : Shows t m) : Shows (s ++ t) (l ++ m) := by
  constructor
  · obtain ⟨c, rest, hcs, hc⟩ := hs.apart
    exact ⟨c, rest ++ t.toList, by rw [String.toList_append, hcs, List.cons_append], hc⟩
  · rw [placeholders, String.toList_append, numbersIn_append _ ht.apart]
    exact congrArg₂ (· ++ ·) hs.eq ht.eq

theorem fixed (h : isFixed s = true) : Shows s [] := by
  unfold isFixed at h
  split at h
  · cases h
  · rename_i c rest hs
    rw [Bool.and_eq_true, Bool.not_eq_true', Bool.not_eq_true'] at h
    refine ⟨⟨c, rest, hs, h.1⟩, ?_⟩
    rw [placeholders, hs, numbersIn_of_not_mem]
    simpa using h.2

/-- Fixed text may stand before a piece, or behind it. -/
theorem before (ht : Shows t m) (h : isFixed s = true) : Shows (s ++ t) m := (fixed h).append ht

theorem behind (hs : Shows s l) (h : isFixed t = true) : Shows (s ++ t) l := by
  have happend := hs.append (fixed h)
  rwa [List.append_nil] at happend

/-- A placeholder shows its number. -/
theorem placeholder (i : Nat) : Shows s!"${i}" [i] := by
  have htext : (s!"${i}").toList = '$' :: Nat.toDigits 10 i := by
    show ("$" ++ i.repr).toList = _
    rw [String.toList_append, Nat.toList_repr]
    rfl
  have hdigits : ∀ c ∈ Nat.toDigits 10 i, c.isDigit = true := fun _ hc =>
    Nat.isDigit_of_mem_toDigits (by decide) (by decide) hc
  have hall : (Nat.toDigits 10 i).takeWhile Char.isDigit = Nat.toDigits 10 i :=
    List.takeWhile_eq_self_iff.2 hdigits
  have hnone : '$' ∉ Nat.toDigits 10 i := fun hmem => absurd (hdigits _ hmem) (by decide)
  constructor
  · exact ⟨'$', _, htext, by decide⟩
  · rw [placeholders, htext, numbersIn, if_pos rfl, hall, numbersIn_of_not_mem hnone,
      Nat.ofDigitChars_toDigits (by decide) (by decide)]

end Shows

/-! ## Numbered renderings -/

/-- The text and the parameters that a rendering makes of those bound so far. -/
def rendered {α : Type} (x : Rendering α) (bound : List SqlParam) : α × List SqlParam := x bound

theorem rendered_bind {α β : Type} (x : Rendering α) (f : α → Rendering β)
    (bound : List SqlParam) :
    rendered (x >>= f) bound = rendered (f (rendered x bound).1) (rendered x bound).2 := rfl

/-- A rendering that appends parameters and shows the number of each, and no other. -/
def Numbered (x : Rendering String) : Prop :=
  ∀ bound, ∃ added numbers, (rendered x bound).2 = bound ++ added ∧
    Shows (rendered x bound).1 numbers ∧
    ∀ i, i ∈ numbers ↔ bound.length < i ∧ i ≤ bound.length + added.length

section Numbered

variable {x : Rendering String}

/-- Fixed text around a rendering changes nothing. -/
theorem Numbered.around (h : Numbered x) {f : String → String}
    (hf : ∀ s l, Shows s l → Shows (f s) l) : Numbered (do let s ← x; pure (f s)) := by
  intro bound
  obtain ⟨added, numbers, hparams, hshows, hnumbers⟩ := h bound
  exact ⟨added, numbers, hparams, hf _ _ hshows, hnumbers⟩

/-- A fixed text binds nothing. -/
theorem numbered_fixed {s : String} (h : Shows s []) : Numbered (pure s) := fun bound =>
  ⟨[], [], (List.append_nil bound).symm, h, fun i => by simp⟩

/-- The three expressions of a key show the number of one parameter. -/
theorem shows_keyExpressions (key : String) (bound : List SqlParam) :
    (rendered (keyExpressions key) bound).2 = bound ++ [.text key] ∧
      Shows (rendered (keyExpressions key) bound).1.json [bound.length + 1] ∧
      Shows (rendered (keyExpressions key) bound).1.text [bound.length + 1] ∧
      Shows (rendered (keyExpressions key) bound).1.type [bound.length + 1] := by
  have hslot := Shows.placeholder (bound.length + 1)
  exact ⟨rfl, (hslot.before (by decide)).behind (by decide),
    (hslot.before (by decide)).behind (by decide), (hslot.before (by decide)).behind (by decide)⟩

/-- A substring is looked for when the operand is a string. -/
theorem substring_cases (needle : Json) :
    (∃ s, needle = .str s) ∨ ∀ expression, substring expression needle = pure "false" := by
  cases needle with
  | str s => exact .inl ⟨s, rfl⟩
  | _ => exact .inr fun _ => rfl

theorem numbered_renderContains (target : FieldTarget) (needle : Json) :
    Numbered (renderContains target needle) := by
  intro bound
  obtain ⟨s, rfl⟩ | hneedle := substring_cases needle
  · cases target with
    | document =>
      have hslot := Shows.placeholder (bound.length + 1)
      refine ⟨[.text s], _, rfl, (hslot.before (by decide)).behind (by decide), fun i => ?_⟩
      simp
      omega
    | metadata key =>
      obtain ⟨-, hjson, htext, htype⟩ := shows_keyExpressions key bound
      have hslot := Shows.placeholder ((bound ++ [SqlParam.text key]).length + 1)
      have hlast := Shows.placeholder
        ((bound ++ [SqlParam.text key] ++ [SqlParam.text s]).length + 1)
      refine ⟨[.text key, .text s, .json (.str s)], _, ?_,
        ((((htype.before (by decide)).behind (by decide)).append
          ((((htext.before (by decide)).behind (by decide)).append hslot).behind (by decide))).behind
            (by decide)).append
          ((((hjson.before (by decide)).behind (by decide)).append hlast).behind (by decide)),
        fun i => ?_⟩
      · show bound ++ [_] ++ [_] ++ [_] = _
        simp only [List.append_assoc, List.cons_append, List.nil_append]
      · simp
        omega
  · cases target with
    | document =>
      rw [renderContains, hneedle]
      exact numbered_fixed (.fixed (by decide)) bound
    | metadata key =>
      obtain ⟨-, hjson, htext, htype⟩ := shows_keyExpressions key bound
      have hlast := Shows.placeholder ((bound ++ [SqlParam.text key]).length + 1)
      simp only [renderContains, hneedle]
      refine ⟨[.text key, .json needle], _, List.append_assoc _ _ _,
        ((((htype.before (by decide)).behind (by decide)).behind (by decide)).behind
            (by decide)).append
          ((((hjson.before (by decide)).behind (by decide)).append hlast).behind (by decide)),
        fun i => ?_⟩
      simp
      omega

theorem numbered_renderJsonIn (key : String) (candidates : List Json) :
    Numbered (renderJsonIn key candidates) := by
  intro bound
  obtain ⟨-, hjson, -, -⟩ := shows_keyExpressions key bound
  have hslot := Shows.placeholder ((bound ++ [SqlParam.text key]).length + 1)
  refine ⟨[.text key, .json (.arr candidates)], _, List.append_assoc _ _ _,
    ((hslot.before (by decide)).behind (by decide)).append
      ((hjson.before (by decide)).behind (by decide)), fun i => ?_⟩
  simp
  omega

theorem isFixed_symbol (o : SqlOrdering) : isFixed o.symbol = true := by
  cases o <;> decide

/-- An order on a key binds the key and one more parameter. -/
theorem numbered_ordering (key : String) (p : SqlParam) {f : KeyExpressions → String → String}
    (hf : ∀ e slot n i, Shows e.text [n] → Shows e.type [n] → Shows slot [i] →
      Shows (f e slot) [n, n, i]) :
    Numbered (do
      let e ← keyExpressions key
      let slot ← bind p
      pure (f e slot)) := by
  intro bound
  obtain ⟨-, -, htext, htype⟩ := shows_keyExpressions key bound
  have hslot := Shows.placeholder ((bound ++ [SqlParam.text key]).length + 1)
  refine ⟨[.text key, p], _, List.append_assoc _ _ _, hf _ _ _ _ htext htype hslot, fun i => ?_⟩
  simp
  omega

/-- **Every condition is numbered.** -/
theorem SqlCondition.numbered_render (c : SqlCondition) : Numbered c.render := by
  obtain ⟨target, predicate⟩ := c
  have hslot := fun bound : List SqlParam => Shows.placeholder (bound.length + 1)
  cases target with
  | document =>
    cases predicate with
    | textIn l =>
      refine fun bound => ⟨[.textArray l], _, rfl,
        ((hslot bound).before (by decide)).behind (by decide), fun i => ?_⟩
      simp
      omega
    | textNotIn l =>
      refine fun bound => ⟨[.textArray l], _, rfl,
        ((hslot bound).before (by decide)).behind (by decide), fun i => ?_⟩
      simp
      omega
    | textCmp o s =>
      refine fun bound => ⟨[.text s], _, rfl,
        ((((Shows.fixed (by decide)).behind (by decide)).behind (isFixed_symbol o)).behind
          (by decide)).append (hslot bound), fun i => ?_⟩
      simp
      omega
    | numericCmp o x => exact numbered_fixed (.fixed (by decide))
    | jsonIn l => exact numbered_fixed (.fixed (by decide))
    | jsonNotIn l => exact numbered_fixed (.fixed (by decide))
    | contains needle => exact numbered_renderContains .document needle
    | notContains needle =>
      exact (numbered_renderContains .document needle).around fun _ _ hs =>
        (hs.before (by decide)).behind (by decide)
  | metadata key =>
    cases predicate with
    | textIn l => exact numbered_fixed (.fixed (by decide))
    | textNotIn l => exact numbered_fixed (.fixed (by decide))
    | textCmp o s =>
      exact numbered_ordering key (.text s) fun e slot n i htext htype hslot =>
        (((((htype.before (by decide)).behind (by decide)).append htext).behind
          (by decide)).behind (isFixed_symbol o)).behind (by decide) |>.append hslot
    | numericCmp o x =>
      exact numbered_ordering key (.float x) fun e slot n i htext htype hslot =>
        ((((htype.before (by decide)).behind (by decide)).append htext).behind (by decide)).append
          (((Shows.fixed (isFixed_symbol o)).behind (by decide)).append hslot)
    | jsonIn l => exact numbered_renderJsonIn key l
    | jsonNotIn l =>
      exact (numbered_renderJsonIn key l).around fun _ _ hs => hs.before (by decide)
    | contains needle => exact numbered_renderContains (.metadata key) needle
    | notContains needle =>
      exact (numbered_renderContains (.metadata key) needle).around fun _ _ hs =>
        (hs.before (by decide)).behind (by decide)

/-- Texts put between others show the placeholders of all. -/
theorem Shows.join {t : String} {l : List Nat} {ts : List String} {ls : List (List Nat)}
    (ht : Shows t l) (hts : List.Forall₂ Shows ts ls) :
    Shows (Text.join " AND " (t :: ts)) (l :: ls).flatten := by
  induction hts generalizing t l with
  | nil =>
    rw [List.flatten_cons, List.flatten_nil, List.append_nil]
    exact ht
  | cons hhead _ ih =>
    rw [List.flatten_cons]
    exact (ht.behind (by decide)).append (ih hhead)

/-- All conditions together are numbered, one after the other. -/
theorem numbered_renderAll (cs : List SqlCondition) (bound : List SqlParam) :
    ∃ added numbers, (rendered (renderAll cs) bound).2 = bound ++ added ∧
      List.Forall₂ Shows (rendered (renderAll cs) bound).1 numbers ∧
      ∀ i, i ∈ numbers.flatten ↔ bound.length < i ∧ i ≤ bound.length + added.length := by
  induction cs generalizing bound with
  | nil =>
    refine ⟨[], [], (List.append_nil bound).symm, .nil, fun i => ?_⟩
    simp
  | cons c cs ih =>
    obtain ⟨first, numbers, hparams, hshows, hnumbers⟩ := c.numbered_render bound
    obtain ⟨rest, others, hparams', hshows', hothers⟩ := ih (rendered c.render bound).2
    refine ⟨first ++ rest, numbers :: others, ?_,
      .cons ((hshows.before (by decide)).behind (by decide)) hshows', fun i => ?_⟩
    · rw [← List.append_assoc, ← hparams]
      exact hparams'
    · -- the numbers of the rest go on where those of the first condition end
      rw [List.flatten_cons, List.mem_append, hnumbers, hothers, hparams, List.length_append,
        List.length_append]
      omega

/-- **A conjunction is numbered.** -/
theorem SqlWhere.numbered_render (w : SqlWhere) : Numbered w.render := by
  obtain ⟨conditions⟩ := w
  cases conditions with
  | nil => exact numbered_fixed (.fixed (by decide))
  | cons c cs =>
    intro bound
    obtain ⟨added, numbers, hparams, hshows, hnumbers⟩ := numbered_renderAll (c :: cs) bound
    obtain ⟨first, others, hhead, htail, rfl⟩ := List.forall₂_cons_left_iff.1 hshows
    exact ⟨added, _, hparams, hhead.join htail, hnumbers⟩

end Numbered

/-! ## Conjunctions of one shape -/

/-- Targets that differ in the key at most. -/
inductive SameTarget : FieldTarget → FieldTarget → Prop
  | document : SameTarget .document .document
  | metadata (key key' : String) : SameTarget (.metadata key) (.metadata key')

/-- Predicates that differ in operands and candidates at most; whether an operand that is
looked for inside a value is a string belongs to the shape. -/
inductive SamePredicate : SqlPredicate → SqlPredicate → Prop
  | textIn (l l' : List String) : SamePredicate (.textIn l) (.textIn l')
  | textNotIn (l l' : List String) : SamePredicate (.textNotIn l) (.textNotIn l')
  | textCmp (o : SqlOrdering) (s s' : String) : SamePredicate (.textCmp o s) (.textCmp o s')
  | numericCmp (o : SqlOrdering) (x x' : Float) :
    SamePredicate (.numericCmp o x) (.numericCmp o x')
  | jsonIn (l l' : List Json) : SamePredicate (.jsonIn l) (.jsonIn l')
  | jsonNotIn (l l' : List Json) : SamePredicate (.jsonNotIn l) (.jsonNotIn l')
  | contains {v v' : Json} (h : v.str?.isSome = v'.str?.isSome) :
    SamePredicate (.contains v) (.contains v')
  | notContains {v v' : Json} (h : v.str?.isSome = v'.str?.isSome) :
    SamePredicate (.notContains v) (.notContains v')

/-- Conditions that differ in values only. -/
structure SqlCondition.SameShape (c d : SqlCondition) : Prop where
  target : SameTarget c.target d.target
  predicate : SamePredicate c.predicate d.predicate

/-- Conjunctions that differ in values only, condition by condition. -/
def SqlWhere.SameShape (w v : SqlWhere) : Prop :=
  List.Forall₂ SqlCondition.SameShape w.conditions v.conditions

/-- Renderings that give the same, and bind equally many parameters, after equally many. -/
def RenderedAlike {α : Type} (x y : Rendering α) : Prop :=
  ∀ bound bound' : List SqlParam, bound.length = bound'.length →
    (rendered x bound).1 = (rendered y bound').1 ∧
      (rendered x bound).2.length = (rendered y bound').2.length

namespace RenderedAlike

variable {α β : Type} {x y : Rendering α} {f g : α → Rendering β}

theorem pure (a : α) : RenderedAlike (Pure.pure a) (Pure.pure a) := fun _ _ h => ⟨rfl, h⟩

/-- What goes on with equal results goes on alike. -/
theorem bind (h : RenderedAlike x y) (hf : ∀ a, RenderedAlike (f a) (g a)) :
    RenderedAlike (x >>= f) (y >>= g) := by
  intro bound bound' hlen
  obtain ⟨hresult, hlen'⟩ := h bound bound' hlen
  rw [rendered_bind, rendered_bind, hresult]
  exact hf _ _ _ hlen'

/-- A placeholder shows how many parameters there are, and not which. -/
theorem slot (p q : SqlParam) : RenderedAlike (Postgres.bind p) (Postgres.bind q) := by
  intro bound bound' hlen
  constructor
  · exact congrArg (fun n : Nat => s!"${n + 1}") hlen
  · show (bound ++ [p]).length = (bound' ++ [q]).length
    rw [List.length_append, List.length_append, hlen]
    rfl

theorem keyExpressions (key key' : String) :
    RenderedAlike (Postgres.keyExpressions key) (Postgres.keyExpressions key') :=
  (slot _ _).bind fun _ => pure _

theorem substring (expression : String) {v v' : Json} (h : v.str?.isSome = v'.str?.isSome) :
    RenderedAlike (Postgres.substring expression v) (Postgres.substring expression v') := by
  cases v with
  | str s =>
    cases v' with
    | str s' => exact (slot _ _).bind fun _ => pure _
    | _ => cases h
  | _ =>
    cases v' with
    | str s' => cases h
    | _ => exact pure _

theorem renderContains {target target' : FieldTarget} {v v' : Json}
    (htarget : SameTarget target target') (h : v.str?.isSome = v'.str?.isSome) :
    RenderedAlike (Postgres.renderContains target v) (Postgres.renderContains target' v') := by
  cases htarget with
  | document => exact substring _ h
  | metadata key key' =>
    exact (keyExpressions key key').bind fun e => (substring e.text h).bind fun _ =>
      (slot _ _).bind fun _ => pure _

theorem renderJsonIn (key key' : String) (l l' : List Json) :
    RenderedAlike (Postgres.renderJsonIn key l) (Postgres.renderJsonIn key' l') :=
  (keyExpressions key key').bind fun _ => (slot _ _).bind fun _ => pure _

/-- **Conditions of one shape have one text.** -/
theorem render {c d : SqlCondition} (h : c.SameShape d) : RenderedAlike c.render d.render := by
  obtain ⟨target, predicate⟩ := c
  obtain ⟨target', predicate'⟩ := d
  obtain ⟨htarget, hpredicate⟩ := h
  cases hpredicate with
  | textIn l l' | textNotIn l l' =>
    cases htarget with
    | document => exact (slot _ _).bind fun _ => pure _
    | metadata key key' => exact pure _
  | textCmp o s s' =>
    cases htarget with
    | document => exact (slot _ _).bind fun _ => pure _
    | metadata key key' =>
      exact (keyExpressions key key').bind fun _ => (slot _ _).bind fun _ => pure _
  | numericCmp o x x' =>
    cases htarget with
    | document => exact pure _
    | metadata key key' =>
      exact (keyExpressions key key').bind fun _ => (slot _ _).bind fun _ => pure _
  | jsonIn l l' =>
    cases htarget with
    | document => exact pure _
    | metadata key key' => exact renderJsonIn key key' l l'
  | jsonNotIn l l' =>
    cases htarget with
    | document => exact pure _
    | metadata key key' => exact (renderJsonIn key key' l l').bind fun _ => pure _
  | contains hstr => exact renderContains htarget hstr
  | notContains hstr => exact (renderContains htarget hstr).bind fun _ => pure _

theorem renderAll {cs ds : List SqlCondition} (h : List.Forall₂ SqlCondition.SameShape cs ds) :
    RenderedAlike (Postgres.renderAll cs) (Postgres.renderAll ds) := by
  induction h with
  | nil => exact pure _
  | cons hhead _ ih => exact (render hhead).bind fun _ => ih.bind fun _ => pure _

end RenderedAlike

/-- **Conjunctions of one shape have one text.** -/
theorem SqlWhere.renderedAlike {w v : SqlWhere} (h : w.SameShape v) :
    RenderedAlike w.render v.render := by
  obtain ⟨cs⟩ := w
  obtain ⟨ds⟩ := v
  cases h with
  | nil => exact .pure _
  | cons hhead htail => exact (RenderedAlike.renderAll (.cons hhead htail)).bind fun _ => .pure _

/-- **No key and no value shows in SQL.** Whatever is bound already, a conjunction appends its
parameters, each of which its text refers to, and its text refers to no others. And two
conjunctions of one shape have the same text and bind equally many parameters, after equally
many, whatever their keys, operands and candidates are. -/
theorem SqlWhere.text_shows_shape_only :
    (∀ (w : SqlWhere) (bound : List SqlParam),
      bound <+: (rendered w.render bound).2 ∧
      ∀ i, i ∈ placeholders (rendered w.render bound).1 ↔
        bound.length < i ∧ i ≤ (rendered w.render bound).2.length) ∧
    ∀ (w v : SqlWhere) (bound bound' : List SqlParam),
      w.SameShape v → bound.length = bound'.length →
        (rendered w.render bound).1 = (rendered v.render bound').1 ∧
          (rendered w.render bound).2.length = (rendered v.render bound').2.length := by
  refine ⟨fun w bound => ?_,
    fun w v bound bound' h hlen => SqlWhere.renderedAlike h bound bound' hlen⟩
  obtain ⟨added, numbers, hparams, hshows, hnumbers⟩ := w.numbered_render bound
  rw [hparams, hshows.eq, List.length_append]
  exact ⟨List.prefix_append bound added, hnumbers⟩

/-- A key and an operand that read like SQL change no text, and their numbers go on where the
parameters bound before end. -/
theorem SqlWhere.text_shows_shape_only_of_hostile_key :
    let w : SqlWhere := ⟨[⟨.metadata "lang", .contains (.str "en")⟩, ⟨.document, .textIn ["a"]⟩]⟩
    let v : SqlWhere :=
      ⟨[⟨.metadata "lang) OR ($9", .contains (.str "\" OR TRUE")⟩, ⟨.document, .textIn []⟩]⟩
    w.SameShape v ∧
      (rendered w.render [.bigint 1]).1 = (rendered v.render [.bigint 2]).1 ∧
      (rendered w.render [.bigint 1]).2.length = (rendered v.render [.bigint 2]).2.length ∧
      5 ∈ placeholders (rendered v.render [.bigint 2]).1 := by
  intro w v
  have hshape : w.SameShape v :=
    .cons ⟨.metadata _ _, .contains rfl⟩ (.cons ⟨.document, .textIn _ _⟩ .nil)
  obtain ⟨hnumbered, halike⟩ := text_shows_shape_only
  obtain ⟨htext, hlen⟩ := halike w v [.bigint 1] [.bigint 2] hshape rfl
  exact ⟨hshape, htext, hlen, ((hnumbered v [.bigint 2]).2 5).2 (by decide)⟩

end Postgres

end VectorBridge
