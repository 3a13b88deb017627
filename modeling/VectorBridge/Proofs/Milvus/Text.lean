import VectorBridge.Proofs.Json.Injective
import VectorBridge.Proofs.Milvus.Pushdown
/-!
# Expressions are told by their text

The server is given an expression as one line of text. Every part of it can be told from what
follows: a string ends at the first quote that is not escaped, a bare name and a number end
with their characters, an operator ends at a blank, a list at its bracket. So the parts are
read one after the other, and two filters whose expressions have one text have one expression;
no name and no value is read as anything else, whatever characters it is made of.
-/

namespace VectorBridge

namespace Milvus

/-! ## Quoted strings -/

/-- A character as it stands between quotes. -/
def escapeChar (c : Char) : List Char :=
  if c = '\\' then ['\\', '\\'] else if c = '"' then ['\\', '"'] else [c]

theorem quote_toList (s : String) :
    (quote s).toList = '"' :: (s.toList.flatMap escapeChar ++ ['"']) := by
  simp only [quote, String.toList_append, String.toList_ofList]
  rfl

theorem escapeChar_append_inj {c d : Char} {u v : List Char}
    (h : escapeChar c ++ u = escapeChar d ++ v) : c = d ∧ u = v := by
  unfold escapeChar at h
  split_ifs at h <;> grind

/-- A quote that ends a string is not one that stands in it. -/
theorem escapeChar_append_ne (c : Char) (u v : List Char) : escapeChar c ++ u ≠ '"' :: v := by
  unfold escapeChar
  split_ifs <;> simp_all

theorem flatMap_escapeChar_append_inj {cs ds u v : List Char}
    (h : cs.flatMap escapeChar ++ '"' :: u = ds.flatMap escapeChar ++ '"' :: v) :
    cs = ds ∧ u = v := by
  induction cs generalizing ds with
  | nil =>
    cases ds with
    | nil => exact ⟨rfl, (List.cons.inj h).2⟩
    | cons d ds =>
      rw [List.flatMap_cons, List.append_assoc] at h
      exact absurd h.symm (escapeChar_append_ne d _ _)
  | cons c cs ih =>
    cases ds with
    | nil =>
      rw [List.flatMap_cons, List.append_assoc] at h
      exact absurd h (escapeChar_append_ne c _ _)
    | cons d ds =>
      rw [List.flatMap_cons, List.flatMap_cons, List.append_assoc, List.append_assoc] at h
      obtain ⟨rfl, hrest⟩ := escapeChar_append_inj h
      obtain ⟨rfl, rfl⟩ := ih hrest
      exact ⟨rfl, rfl⟩

/-- **A string is told from what follows its closing quote.** -/
theorem quote_append_inj {s t : String} {u v : List Char}
    (h : (quote s).toList ++ u = (quote t).toList ++ v) : s = t ∧ u = v := by
  rw [quote_toList, quote_toList, List.cons_append, List.cons_append, List.append_assoc,
    List.append_assoc] at h
  obtain ⟨hchars, rfl⟩ := flatMap_escapeChar_append_inj (List.cons.inj h).2
  exact ⟨String.toList_injective hchars, rfl⟩

/-! ## Parts and what follows them -/

/-- What may follow a field or a literal: the end, a blank, or the end of an enclosing part. -/
def Follows (u : List Char) : Prop := ∀ c ∈ u.head?, c ∈ [' ', ',', ']', ')']

/-- The text of a part can be told from what follows it, among some parts. -/
def Delimits {α : Type} (among : α → Prop) (code : α → String) (a : α) : Prop :=
  ∀ b u v, among b → Follows u → Follows v →
    (code a).toList ++ u = (code b).toList ++ v → a = b ∧ u = v

theorem follows_nil : Follows [] := fun _ hc => by cases hc

theorem follows_cons {c : Char} (h : c ∈ [' ', ',', ']', ')']) (u : List Char) :
    Follows (c :: u) := by
  rintro _ ⟨⟩
  exact h

/-- What follows a part is no character of it. -/
theorem Follows.not {p : Char → Prop} [DecidablePred p] {u : List Char} (h : Follows u)
    (hp : ([' ', ',', ']', ')'].all fun c => !decide (p c)) = true) :
    ∀ c ∈ u.head?, ¬ p c := by
  intro c hc
  have hnot := List.all_eq_true.1 hp c (h c hc)
  rwa [Bool.not_eq_true', decide_eq_false_iff_not] at hnot

section Join

variable {α : Type} {among : α → Prop} {code : α → String} {sep : String} {ends : List Char → Prop}

/-- What stands behind the first of some joined texts. -/
def behindFirst (sep : String) : List String → List Char
  | [] => []
  | s :: rest => sep.toList ++ (Text.join sep (s :: rest)).toList

theorem join_cons_toList (sep s : String) (rest : List String) :
    (Text.join sep (s :: rest)).toList = s.toList ++ behindFirst sep rest := by
  cases rest with
  | nil => exact (List.append_nil _).symm
  | cons t rest =>
    rw [Text.join, String.toList_append, String.toList_append, List.append_assoc]
    · rfl
    · exact fun h => by cases h

/-- **Joined parts are told from what follows them** when each of them is, and neither a part
nor a separator begins as the whole ends. -/
theorem join_append_inj (hends : ∀ u, ends u → Follows u)
    (hsep : ∀ w, Follows (sep.toList ++ w) ∧ ¬ ends (sep.toList ++ w))
    (hhead : ∀ a w, among a → ¬ ends ((code a).toList ++ w)) {as bs : List α}
    (has : ∀ a ∈ as, among a ∧ Delimits among code a) (hbs : ∀ b ∈ bs, among b)
    {u v : List Char} (hu : ends u) (hv : ends v)
    (h : (Text.join sep (as.map code)).toList ++ u = (Text.join sep (bs.map code)).toList ++ v) :
    as = bs ∧ u = v := by
  have hbehind : ∀ (cs : List α) {w : List Char}, ends w →
      Follows (behindFirst sep (cs.map code) ++ w) := by
    intro cs w hw
    cases cs with
    | nil => exact hends w hw
    | cons c cs =>
      rw [List.map_cons, behindFirst, List.append_assoc]
      exact (hsep _).1
  induction as generalizing bs with
  | nil =>
    cases bs with
    | nil => exact ⟨rfl, h⟩
    | cons b bs =>
      rw [List.map_cons, join_cons_toList, List.append_assoc] at h
      have hu : ends ([] ++ u) := hu
      exact absurd (h ▸ hu) (hhead b _ (hbs b List.mem_cons_self))
  | cons a as ih =>
    obtain ⟨⟨ha, hdelimits⟩, has⟩ := List.forall_mem_cons.1 has
    cases bs with
    | nil =>
      rw [List.map_cons, join_cons_toList, List.append_assoc] at h
      have hv : ends ([] ++ v) := hv
      exact absurd (h ▸ hv) (hhead a _ ha)
    | cons b bs =>
      obtain ⟨hb, hbs'⟩ := List.forall_mem_cons.1 hbs
      rw [List.map_cons, List.map_cons, join_cons_toList, join_cons_toList, List.append_assoc,
        List.append_assoc] at h
      obtain ⟨rfl, hrest⟩ := hdelimits b _ _ hb (hbehind as hu) (hbehind bs hv) h
      suffices hsame : as = bs ∧ u = v from ⟨congrArg _ hsame.1, hsame.2⟩
      cases as with
      | nil =>
        cases bs with
        | nil => exact ⟨rfl, hrest⟩
        | cons b' bs =>
          rw [List.map_cons, behindFirst, List.append_assoc] at hrest
          have hrest : u = _ := hrest
          exact absurd (hrest ▸ hu) (hsep _).2
      | cons a' as =>
        cases bs with
        | nil =>
          rw [List.map_cons, behindFirst, List.append_assoc] at hrest
          have hrest : _ = v := hrest
          exact absurd (hrest ▸ hv) (hsep _).2
        | cons b' bs =>
          simp only [List.map_cons, behindFirst, List.append_assoc] at hrest
          exact ih has hbs' (List.append_cancel_left hrest)

end Join

/-! ## Fields -/

/-- A character of a bare name. -/
def WordChar (c : Char) : Prop := (Text.isLetter c || Text.isDigit c || c == '_') = true

instance : DecidablePred WordChar := fun _ => inferInstanceAs (Decidable (_ = true))

theorem exists_word {s : String} (h : isIdentifier s = true) :
    ∃ c cs, s.toList = c :: cs ∧ ∀ d ∈ c :: cs, WordChar d := by
  unfold isIdentifier at h
  split at h
  · cases h
  · rename_i c cs hs
    obtain ⟨hc, hcs⟩ := Bool.and_eq_true_iff.1 h
    refine ⟨c, cs, hs, List.forall_mem_cons.2 ⟨?_, List.all_eq_true.1 hcs⟩⟩
    obtain hletter | hscore := Bool.or_eq_true_iff.1 hc
    · rw [WordChar, hletter]
      rfl
    · rw [WordChar, hscore, Bool.or_true]

namespace Field

/-- A field that a clause can be on: of the schema it is the document only. -/
def Clausal : Field → Prop
  | schema n => n = documentFieldName
  | dynamic _ => True

/-- Whether the field is written by its name alone. -/
def isBare : Field → Bool
  | schema _ => true
  | dynamic k => isIdentifier k && !(schemaFields.contains k)

theorem text_of_isBare {f : Field} (h : f.isBare = true) : f.text = f.name := by
  cases f with
  | schema n => rfl
  | dynamic k => exact if_pos h

theorem text_of_not_isBare {f : Field} (h : f.isBare = false) :
    f.text.toList = "$meta[".toList ++ ((quote f.name).toList ++ [']']) := by
  cases f with
  | schema n => cases h
  | dynamic k =>
    have hkey : ¬ (isIdentifier k && !(schemaFields.contains k)) = true := by
      rw [Bool.not_eq_true]
      exact h
    rw [text, if_neg hkey, String.toList_append, String.toList_append, List.append_assoc]
    rfl

theorem exists_word_of_isBare {f : Field} (hf : f.Clausal) (h : f.isBare = true) :
    ∃ c cs, f.name.toList = c :: cs ∧ ∀ d ∈ c :: cs, WordChar d := by
  cases f with
  | schema n =>
    obtain rfl : n = documentFieldName := hf
    exact exists_word (by decide)
  | dynamic k => exact exists_word (Bool.and_eq_true_iff.1 h).1

/-- No metadata key is written as the document is. -/
theorem eq_of_name {f g : Field} (hf : f.Clausal) (hg : g.Clausal) (hbare : f.isBare = g.isBare)
    (hname : f.name = g.name) : f = g := by
  have hdocument : ∀ k, k = documentFieldName → (dynamic k).isBare = false := by
    rintro _ rfl
    decide
  cases f with
  | schema n =>
    cases g with
    | schema m => exact congrArg schema hname
    | dynamic k =>
      rw [hdocument k (hname.symm.trans hf)] at hbare
      cases hbare
  | dynamic k =>
    cases g with
    | schema m =>
      rw [hdocument k (hname.trans hg)] at hbare
      cases hbare
    | dynamic k' => exact congrArg dynamic hname

/-- A quoted access does not begin as a name does. -/
theorem text_append_ne {f g : Field} (hf : f.Clausal) (hbare : f.isBare = true)
    (hquoted : g.isBare = false) (u v : List Char) :
    f.text.toList ++ u ≠ g.text.toList ++ v := by
  obtain ⟨c, cs, hname, hword⟩ := exists_word_of_isBare hf hbare
  rw [text_of_isBare hbare, text_of_not_isBare hquoted, hname]
  intro h
  have hdollar : c = '$' := (List.cons.inj h).1
  exact absurd (hdollar ▸ hword c List.mem_cons_self) (by decide)

/-- **A field is told from what follows it**, whether it is a bare name or a quoted access. -/
theorem delimits_text {f : Field} (hf : f.Clausal) : Delimits Clausal text f := by
  intro g u v hg hu hv h
  cases hbare : f.isBare with
  | true =>
    cases hbare' : g.isBare with
    | true =>
      obtain ⟨c, cs, hname, hword⟩ := exists_word_of_isBare hf hbare
      obtain ⟨c', cs', hname', hword'⟩ := exists_word_of_isBare hg hbare'
      rw [text_of_isBare hbare, text_of_isBare hbare'] at h
      rw [← hname] at hword
      rw [← hname'] at hword'
      obtain ⟨heq, rfl⟩ := run_append_inj hword hword' (hu.not (by decide))
        (hv.not (by decide)) h
      exact ⟨eq_of_name hf hg (hbare.trans hbare'.symm) (String.toList_injective heq), rfl⟩
    | false => exact absurd h (text_append_ne hf hbare hbare' u v)
  | false =>
    cases hbare' : g.isBare with
    | true => exact absurd h.symm (text_append_ne hg hbare' hbare v u)
    | false =>
      rw [text_of_not_isBare hbare, text_of_not_isBare hbare', List.append_assoc,
        List.append_assoc, List.append_assoc, List.append_assoc] at h
      obtain ⟨hname, hrest⟩ := quote_append_inj (List.append_cancel_left h)
      exact ⟨eq_of_name hf hg (hbare.trans hbare'.symm) hname, (List.cons.inj hrest).2⟩

/-- No field begins with a bracket. -/
theorem text_append_ne_bracket {f : Field} (hf : f.Clausal) (u v : List Char) :
    f.text.toList ++ u ≠ '(' :: v := by
  cases hbare : f.isBare with
  | true =>
    obtain ⟨c, cs, hname, hword⟩ := exists_word_of_isBare hf hbare
    rw [text_of_isBare hbare, hname]
    intro h
    have hbracket : c = '(' := (List.cons.inj h).1
    exact absurd (hbracket ▸ hword c List.mem_cons_self) (by decide)
  | false =>
    rw [text_of_not_isBare hbare]
    intro h
    exact absurd (List.cons.inj h).1 (by decide)

end Field

/-! ## Literals -/

namespace Literal

theorem list_toList (elems : List Literal) :
    (list elems).text.toList = '[' :: ((listText elems).toList ++ [']']) := by
  simp only [text, String.toList_append]
  rfl

/-- The first character of a literal tells its kind. -/
theorem exists_head (l : Literal) :
    ∃ c cs, l.text.toList = c :: cs ∧ Json.kindOf c = Json.kind l.toJson := by
  cases l with
  | str s => exact ⟨'"', _, quote_toList s, (by decide : Json.kindOf '"' = 4)⟩
  | num n =>
    obtain ⟨hne, hnumeral⟩ := n.numeral_text
    obtain ⟨c, cs, hcons⟩ := List.exists_cons_of_ne_nil hne
    exact ⟨c, cs, hcons, if_pos (hnumeral c (hcons ▸ List.mem_cons_self))⟩
  | bool b =>
    cases b with
    | true => exact ⟨'t', ['r', 'u', 'e'], by simp [text], by decide⟩
    | false => exact ⟨'f', ['a', 'l', 's', 'e'], by simp [text], by decide⟩
  | list elems => exact ⟨'[', _, list_toList elems, (by decide : Json.kindOf '[' = 5)⟩

theorem kind_eq_of_append {l m : Literal} {u v : List Char}
    (h : l.text.toList ++ u = m.text.toList ++ v) : Json.kind l.toJson = Json.kind m.toJson := by
  obtain ⟨c, cs, hl, hkind⟩ := exists_head l
  obtain ⟨d, ds, hm, hkind'⟩ := exists_head m
  rw [hl, hm] at h
  rw [← hkind, ← hkind', (List.cons.inj h).1]

theorem listText_eq (elems : List Literal) : listText elems = Text.join ", " (elems.map text) := by
  induction elems with
  | nil => rfl
  | cons l rest ih =>
    cases rest with
    | nil => rfl
    | cons m rest =>
      rw [listText, ih]
      · rfl
      · exact fun h => by cases h

/-- Any literal may stand where one does. -/
abbrev Any (_ : Literal) : Prop := True

theorem delimits_list {elems : List Literal} (helems : ∀ l ∈ elems, Delimits Any text l) :
    Delimits Any text (list elems) := by
  intro m u v _ hu hv h
  have hkind := kind_eq_of_append h
  cases m with
  | list elems' =>
    rw [list_toList, list_toList, listText_eq, listText_eq, List.cons_append, List.cons_append,
      List.append_assoc, List.append_assoc] at h
    have hhead : ∀ (l : Literal) w, Any l → ¬ ∃ w', l.text.toList ++ w = ']' :: w' := by
      rintro l w - ⟨w', heq⟩
      obtain ⟨c, cs, hl, hkind⟩ := exists_head l
      rw [hl] at heq
      obtain rfl : c = ']' := (List.cons.inj heq).1
      cases l with
      | bool b => cases b <;> cases hkind
      | _ => cases hkind
    have hbracket : ∀ w, (∃ w', w = ']' :: w') → Follows w := by
      rintro _ ⟨w, rfl⟩
      exact follows_cons (by decide) w
    have hcomma : ∀ w, Follows (", ".toList ++ w) ∧ ¬ ∃ w', ", ".toList ++ w = ']' :: w' :=
      fun w => ⟨follows_cons (by decide) _, fun ⟨w', heq⟩ =>
        absurd (List.cons.inj heq).1 (by decide)⟩
    obtain ⟨rfl, hrest⟩ := join_append_inj hbracket hcomma hhead
      (fun l hl => ⟨trivial, helems l hl⟩) (fun _ _ => trivial) ⟨u, rfl⟩ ⟨v, rfl⟩
      (List.cons.inj h).2
    exact ⟨rfl, (List.cons.inj hrest).2⟩
  | bool b => cases b <;> cases hkind
  | _ => cases hkind

mutual

/-- **A literal is told from what follows it.** -/
theorem delimits_text : ∀ l : Literal, Delimits Any text l
  | .str s => by
    intro m u v _ hu hv h
    have hkind := kind_eq_of_append h
    cases m with
    | str t =>
      obtain ⟨rfl, rfl⟩ := quote_append_inj h
      exact ⟨rfl, rfl⟩
    | bool b => cases b <;> cases hkind
    | _ => cases hkind
  | .num n => by
    intro m u v _ hu hv h
    have hkind := kind_eq_of_append h
    cases m with
    | num k =>
      obtain ⟨rfl, rfl⟩ := Number.text_append_inj (hu.not (by decide)) (hv.not (by decide)) h
      exact ⟨rfl, rfl⟩
    | bool b => cases b <;> cases hkind
    | _ => cases hkind
  | .bool b => by
    intro m u v _ hu hv h
    have hkind := kind_eq_of_append h
    cases m with
    | bool b' =>
      obtain rfl : b = b' := by
        cases b <;> cases b' <;> first | rfl | cases hkind
      exact ⟨rfl, List.append_cancel_left h⟩
    | _ => cases b <;> cases hkind
  | .list elems => delimits_list (delimits_elems elems)

theorem delimits_elems : ∀ elems : List Literal, ∀ l ∈ elems, Delimits Any text l
  | [] => fun _ hl => absurd hl List.not_mem_nil
  | l :: rest => List.forall_mem_cons.2 ⟨delimits_text l, delimits_elems rest⟩

end

end Literal

/-! ## Terms -/

/-- Whether a comparison also looks at the elements of a list. -/
def Op.looksInside : Op → Bool
  | .matchesOne | .matchesAny => true
  | _ => false

/-- Among the comparisons that look inside, and among the others, the token tells which. -/
theorem Op.eq_of_token {o p : Op} (hinside : o.looksInside = p.looksInside)
    (htoken : o.token.toList = p.token.toList) : o = p := by
  revert hinside htoken
  cases o <;> cases p <;> decide

theorem Op.blank_not_mem_token (o : Op) : ' ' ∉ o.token.toList := by
  cases o <;> decide

namespace Term

/-- The comparison as it is written without looking inside. -/
def plain (t : Term) : List Char :=
  t.field.text.toList ++ ' ' :: (t.op.token.toList ++ ' ' :: t.value.text.toList)

/-- **A comparison is read from its text**: the field up to the blank, the token up to the next
one, and the literal. -/
theorem plain_append_inj {t t' : Term} {u v : List Char} (ht : t.field.Clausal)
    (ht' : t'.field.Clausal) (hu : Follows u) (hv : Follows v)
    (h : t.plain ++ u = t'.plain ++ v) :
    t.field = t'.field ∧ t.op.token.toList = t'.op.token.toList ∧ t.value = t'.value ∧ u = v := by
  simp only [plain, List.append_assoc, List.cons_append] at h
  obtain ⟨hfield, hrest⟩ := Field.delimits_text ht t'.field _ _ ht' (follows_cons (by decide) _)
    (follows_cons (by decide) _) h
  have hcut := congrArg (cutAt ' ') (List.cons.inj hrest).2
  rw [cutAt_append t.op.blank_not_mem_token, cutAt_append t'.op.blank_not_mem_token] at hcut
  obtain ⟨htoken, hvalue⟩ := Prod.mk.inj hcut
  obtain ⟨hliteral, hend⟩ := Literal.delimits_text t.value t'.value u v trivial hu hv hvalue
  exact ⟨hfield, htoken, hliteral, hend⟩

/-- What stands behind the comparison where it also looks inside. -/
def inside (t : Term) : List Char :=
  (if t.op = .matchesAny then " || json_contains_any(" else " || json_contains(").toList ++
    (t.field.text.toList ++ (", ".toList ++ (t.value.text.toList ++ "))".toList)))

theorem text_toList (t : Term) :
    t.text.toList = if t.op.looksInside then '(' :: (t.plain ++ t.inside) else t.plain := by
  obtain ⟨field, op, value⟩ := t
  cases op <;> simp [text, plain, inside, Op.looksInside, String.toList_append]

theorem follows_inside (t : Term) (u : List Char) : Follows (t.inside ++ u) := by
  unfold inside
  split
  · exact follows_cons (by decide) _
  · exact follows_cons (by decide) _

theorem text_append_ne {t t' : Term} (ht' : t'.field.Clausal) (hinside : t.op.looksInside = true)
    (hplain : t'.op.looksInside = false) (u v : List Char) :
    t.text.toList ++ u ≠ t'.text.toList ++ v := by
  rw [text_toList, text_toList, hinside, hplain, if_pos rfl, if_neg Bool.false_ne_true]
  exact fun h => Field.text_append_ne_bracket ht' _ _ ((List.append_assoc _ _ _).symm.trans h.symm)

/-- **A term is told from what follows it.** -/
theorem delimits_text {t : Term} (ht : t.field.Clausal) :
    Delimits (fun t : Term => t.field.Clausal) text t := by
  intro t' u v ht' hu hv h
  have heq : t.op.looksInside = t'.op.looksInside → t.field = t'.field →
      t.op.token.toList = t'.op.token.toList → t.value = t'.value → t = t' := by
    intro hinside hfield htoken hvalue
    have hop := Op.eq_of_token hinside htoken
    cases t
    cases t'
    simp_all
  cases hinside : t.op.looksInside with
  | true =>
    cases hinside' : t'.op.looksInside with
    | true =>
      rw [text_toList, text_toList, if_pos hinside, if_pos hinside', List.cons_append,
        List.cons_append, List.append_assoc, List.append_assoc] at h
      obtain ⟨hfield, htoken, hvalue, hrest⟩ := plain_append_inj ht ht' (follows_inside t u)
        (follows_inside t' v) (List.cons.inj h).2
      obtain rfl := heq (hinside.trans hinside'.symm) hfield htoken hvalue
      exact ⟨rfl, List.append_cancel_left hrest⟩
    | false => exact absurd h (text_append_ne ht' hinside hinside' u v)
  | false =>
    cases hinside' : t'.op.looksInside with
    | true => exact absurd h.symm (text_append_ne ht hinside' hinside v u)
    | false =>
      rw [text_toList, text_toList, hinside, hinside', if_neg Bool.false_ne_true,
        if_neg Bool.false_ne_true] at h
      obtain ⟨hfield, htoken, hvalue, hrest⟩ := plain_append_inj ht ht' hu hv h
      exact ⟨heq (hinside.trans hinside'.symm) hfield htoken hvalue, hrest⟩

/-- A term has a text. -/
theorem text_append_ne_nil (t : Term) (u : List Char) : t.text.toList ++ u ≠ [] := by
  rw [text_toList]
  split
  · exact List.cons_ne_nil _ _
  · simp [plain]

end Term

/-! ## Expressions -/

/-- **The text of an expression tells its terms.** -/
theorem Expr.eq_of_text {e e' : Expr} (he : ∀ t ∈ e.terms, t.field.Clausal)
    (he' : ∀ t ∈ e'.terms, t.field.Clausal) (h : e.text = e'.text) : e = e' := by
  obtain ⟨ts⟩ := e
  obtain ⟨ts'⟩ := e'
  have hend : ∀ u : List Char, u = [] → Follows u := by
    rintro _ rfl
    exact follows_nil
  have hsep : ∀ w, Follows (" && ".toList ++ w) ∧ ¬ " && ".toList ++ w = [] := fun w =>
    ⟨follows_cons (by decide) _, List.cons_ne_nil _ _⟩
  have hlist : (Text.join " && " (ts.map Term.text)).toList ++ [] =
      (Text.join " && " (ts'.map Term.text)).toList ++ [] := congrArg (·.toList ++ []) h
  obtain ⟨rfl, -⟩ := join_append_inj hend hsep (fun t w _ => t.text_append_ne_nil w)
    (fun t ht => ⟨he t ht, Term.delimits_text (he t ht)⟩) he' rfl rfl hlist
  rfl

/-! ## Filters -/

theorem clausal_fieldOf (c : Clause) : (fieldOf c).Clausal := by
  unfold fieldOf
  split
  · rfl
  · trivial

/-- The operator, on the field it is used on, is told by its comparison. -/
theorem ofOperator?_inj {o p : Operator} {f : Field} {op : Op}
    (ho : Op.ofOperator? o f = some op) (hp : Op.ofOperator? p f = some op) : o = p := by
  cases f <;> cases o <;> cases p <;> grind [Op.ofOperator?]

theorem fieldOf_congr {c d : Clause} (h : c.field = d.field) : fieldOf c = fieldOf d := by
  unfold fieldOf Clause.target
  rw [h]

/-- A term is the lowering of one clause only. -/
theorem lower_inj {c d : Clause} {t : Term} (hc : lower c = .ok t) (hd : lower d = .ok t) :
    c = d := by
  obtain ⟨hfield, hvalue, hop⟩ := lower_eq_ok hc
  obtain ⟨hfield', hvalue', hop'⟩ := lower_eq_ok hd
  have hname : c.field = d.field := hfield.symm.trans hfield'
  rw [fieldOf_congr hname] at hop
  have hoperator := ofOperator?_inj hop hop'
  have hoperand : c.value = d.value := hvalue.symm.trans hvalue'
  cases c
  cases d
  simp_all

theorem clausal_of_lower {c : Clause} {t : Term} (h : lower c = .ok t) : t.field.Clausal := by
  unfold lower at h
  split at h
  · cases h
  · split at h
    · cases h
    · obtain rfl := Except.ok.inj h
      exact clausal_fieldOf c

theorem clausal_of_forall₂ {cs : List Clause} {ts : List Term}
    (h : List.Forall₂ (fun c t => lower c = .ok t) cs ts) : ∀ t ∈ ts, t.field.Clausal := by
  induction h with
  | nil => exact fun _ ht => absurd ht List.not_mem_nil
  | cons hc _ ih => exact List.forall_mem_cons.2 ⟨clausal_of_lower hc, ih⟩

theorem forall₂_lower_inj {cs ds : List Clause} {ts : List Term}
    (h : List.Forall₂ (fun c t => lower c = .ok t) cs ts)
    (h' : List.Forall₂ (fun c t => lower c = .ok t) ds ts) : cs = ds := by
  induction h generalizing ds with
  | nil =>
    cases h'
    rfl
  | cons hc _ ih =>
    cases h' with
    | cons hd htail => rw [lower_inj hc hd, ih htail]

/-- **The text of an expression is unambiguous.** Two filters that compile, with fields and
values of any characters, have expressions of one text only if these are one expression, term
by term with the same field, comparison and literal. So the clauses that are left to the
server are the same too. -/
theorem text_unambiguous {f g : Filter} {compiled compiled' : CompiledFilter Expr}
    (hf : filterCompiler.compile f = .ok compiled) (hg : filterCompiler.compile g = .ok compiled')
    (h : compiled.native.map Expr.text = compiled'.native.map Expr.text) :
    compiled.native = compiled'.native ∧
      filterCompiler.serverSide f = filterCompiler.serverSide g := by
  obtain ⟨-, ts, hts, rfl⟩ := FilterCompiler.compile_eq_ok_iff.1 hf
  obtain ⟨-, ts', hts', rfl⟩ := FilterCompiler.compile_eq_ok_iff.1 hg
  have hterms : ts = ts' := by
    cases ts with
    | nil =>
      cases ts' with
      | nil => rfl
      | cons t' ts' => cases h
    | cons t ts =>
      cases ts' with
      | nil => cases h
      | cons t' ts' =>
        have htext : Expr.text ⟨t :: ts⟩ = Expr.text ⟨t' :: ts'⟩ := Option.some.inj h
        exact congrArg Expr.terms
          (Expr.eq_of_text (clausal_of_forall₂ hts) (clausal_of_forall₂ hts') htext)
  subst hterms
  exact ⟨rfl, forall₂_lower_inj hts hts'⟩

/-- A name and a value that read like an expression, and a clause that the client evaluates,
which does not show in the text. -/
theorem text_unambiguous_of_residual :
    let c : Clause := ⟨"say \"hi\"", .eq, .str "a\" || id > 0"⟩
    let f : Filter := ⟨[c]⟩
    let g : Filter := ⟨[⟨"lang", .ne, .str "en"⟩, c]⟩
    ∃ compiled compiled', filterCompiler.compile f = .ok compiled ∧
      filterCompiler.compile g = .ok compiled' ∧
      compiled.native.map Expr.text = compiled'.native.map Expr.text ∧
      compiled.native = compiled'.native ∧
      filterCompiler.serverSide f = filterCompiler.serverSide g := by
  intro c f g
  have hf : filterCompiler.compile f = .ok
      ⟨some ⟨[⟨.dynamic c.field, .matchesOne, .str "a\" || id > 0"⟩]⟩, ⟨[]⟩⟩ := rfl
  have hg : filterCompiler.compile g = .ok
      ⟨some ⟨[⟨.dynamic c.field, .matchesOne, .str "a\" || id > 0"⟩]⟩,
        ⟨[⟨"lang", .ne, .str "en"⟩]⟩⟩ := rfl
  exact ⟨_, _, hf, hg, rfl, text_unambiguous hf hg rfl⟩

end Milvus

end VectorBridge
