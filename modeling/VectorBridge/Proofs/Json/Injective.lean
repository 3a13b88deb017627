import Mathlib
import VectorBridge.Json.Reader
import VectorBridge.Proofs.Number.Text
import VectorBridge.Proofs.Session
/-!
# The text of a value says which it is

What a value is printed as can be told from what follows it: strings end at the first quote
that is not escaped, numbers at the first character that is no numeral, and lists and objects
at the bracket that closes them. So two values of one text are one value. Strings are read
back by the reader itself; numbers are not always, and that their texts differ is shown apart.

The keys that listings are held under are made of such texts, and are those of one collection
and one filter.
-/

namespace VectorBridge

namespace Json

/-! ## Strings -/

theorem hexDigit?_hexDigit (n : Nat) : hexDigit? (hexDigit n) = some (n % 16) := by
  have hall : ∀ k : Fin 16, hexDigit? (Nat.digitChar k) = some k.val := by decide
  exact hall ⟨n % 16, Nat.mod_lt _ (by decide)⟩

/-- A control character is read from its unicode escape. -/
theorem unicodeEscape_control {c : Char} (hc : c.toNat < 32) (rest : List Char) :
    unicodeEscape ('0' :: '0' :: hexDigit (c.toNat / 16) :: hexDigit c.toNat :: rest) =
      some (c, rest) := by
  have hzero : hexDigit? '0' = some 0 := by decide
  have hcode : ((0 * 16 + 0) * 16 + c.toNat / 16 % 16) * 16 + c.toNat % 16 = c.toNat := by omega
  have hquad : hexQuad ('0' :: '0' :: hexDigit (c.toNat / 16) :: hexDigit c.toNat :: rest) =
      some (c.toNat, rest) := by
    simp only [hexQuad, hzero, hexDigit?_hexDigit, Option.bind_eq_bind, Option.bind_some,
      Option.pure_def, hcode]
  rw [unicodeEscape, hquad]
  simp only [Option.bind_eq_bind, Option.bind_some]
  rw [if_neg (by omega), if_neg (by omega), Char.ofNat_toNat]

/-- **A character is read from its escape.** -/
theorem stringBody_escapeChar (fuel : Nat) (acc : List Char) (c : Char) (rest : List Char) :
    stringBody (fuel + 1) acc (escapeChar c ++ rest) = stringBody fuel (c :: acc) rest := by
  have hcode : ∀ {n : Nat} {d : Char}, c.toNat = n → d.toNat = n → c = d := fun h h' =>
    Char.toNat_inj.1 (h.trans h'.symm)
  unfold escapeChar
  split_ifs with hquote hslash hline hreturn htab hback hfeed hcontrol
  · rw [hquote]
    rfl
  · rw [hslash]
    rfl
  · rw [hline]
    rfl
  · rw [hreturn]
    rfl
  · rw [htab]
    rfl
  · rw [hcode hback (d := '\x08') rfl]
    rfl
  · rw [hcode hfeed (d := '\x0c') rfl]
    rfl
  · have hquote : '\\' ≠ '"' := by decide
    simp only [List.cons_append, List.nil_append]
    rw [stringBody.eq_def]
    simp only [if_neg hquote, if_true, unicodeEscape_control hcontrol]
  · rw [List.singleton_append, stringBody.eq_def]
    simp only
    rw [if_neg hquote, if_neg hslash, if_neg hcontrol]

theorem stringBody_flatMap (cs : List Char) (rest : List Char) (fuel : Nat) (acc : List Char) :
    stringBody (fuel + cs.length + 1) acc (cs.flatMap escapeChar ++ '"' :: rest) =
      some (String.ofList (acc.reverse ++ cs), rest) := by
  induction cs generalizing acc with
  | nil =>
    rw [List.append_nil]
    rfl
  | cons c cs ih =>
    rw [List.flatMap_cons, List.append_assoc, List.length_cons, ← Nat.add_assoc,
      stringBody_escapeChar, ih, List.reverse_cons, List.append_assoc, List.singleton_append]

theorem quote_toList (s : String) :
    (quote s).toList = '"' :: (s.toList.flatMap escapeChar ++ ['"']) := by
  simp only [quote, String.toList_append, String.toList_ofList]
  rfl

/-- **A string is told from what follows it.** -/
theorem quote_append_inj {s t : String} {u v : List Char}
    (h : (quote s).toList ++ u = (quote t).toList ++ v) : s = t ∧ u = v := by
  rw [quote_toList, quote_toList] at h
  simp only [List.cons_append, List.append_assoc, List.cons.injEq, true_and, List.nil_append] at h
  have hs := stringBody_flatMap s.toList u t.toList.length []
  have ht := stringBody_flatMap t.toList v s.toList.length []
  rw [h, Nat.add_comm t.toList.length, ht] at hs
  simp only [List.reverse_nil, List.nil_append, String.ofList_toList, Option.some.injEq,
    Prod.mk.injEq] at hs
  exact ⟨hs.1.symm, hs.2.symm⟩

/-! ## Values -/

/-- What may follow a value. -/
def Follows (cs : List Char) : Prop := ∀ c ∈ cs.head?, c ∈ [',', ']', '\x7d']

/-- A value's code can be told from what follows it. -/
def Delimits {α : Type} (code : α → List Char) (a : α) : Prop :=
  ∀ b u v, Follows u → Follows v → code a ++ u = code b ++ v → a = b ∧ u = v

theorem Follows.not_numeral {u : List Char} (h : Follows u) : ∀ c ∈ u.head?, ¬ Numeral c := by
  intro c hc
  have hfollows := h c hc
  simp only [List.mem_cons, List.not_mem_nil, or_false] at hfollows
  rcases hfollows with rfl | rfl | rfl <;> decide

theorem delimits_number (n : Number) : Delimits (fun n : Number => n.text.toList) n :=
  fun _ _ _ hu hv h => Number.text_append_inj hu.not_numeral hv.not_numeral h

/-! ### Lists of values -/

/-- Codes after the first one, up to the closing bracket. -/
def afterFirst (close : Char) (u : List Char) : List (List Char) → List Char
  | [] => close :: u
  | code :: rest => ',' :: (code ++ afterFirst close u rest)

/-- Codes separated by commas, up to the closing bracket. -/
def sequence (close : Char) (u : List Char) : List (List Char) → List Char
  | [] => close :: u
  | code :: rest => code ++ afterFirst close u rest

section

variable {α : Type} {code : α → List Char} {close : Char} {u v : List Char} {as bs : List α}

theorem follows_afterFirst (hclose : close ∈ [']', '\x7d']) (codes : List (List Char)) :
    Follows (afterFirst close u codes) := by
  cases codes with
  | nil =>
    rintro c ⟨⟩
    exact List.mem_cons_of_mem _ hclose
  | cons code rest =>
    rintro c ⟨⟩
    exact List.mem_cons_self

theorem afterFirst_inj (hclose : close ∈ [']', '\x7d']) (hcode : ∀ a ∈ as, Delimits code a)
    (h : afterFirst close u (as.map code) = afterFirst close v (bs.map code)) :
    as = bs ∧ u = v := by
  have hcomma : ',' ≠ close := by
    rintro rfl
    revert hclose
    decide
  induction as generalizing bs with
  | nil =>
    cases bs with
    | nil => exact ⟨rfl, (List.cons.inj h).2⟩
    | cons b bs => exact absurd (List.cons.inj h).1.symm hcomma
  | cons a as ih =>
    cases bs with
    | nil => exact absurd (List.cons.inj h).1 hcomma
    | cons b bs =>
      obtain ⟨ha, has⟩ := List.forall_mem_cons.1 hcode
      obtain ⟨rfl, hrest⟩ := ha b _ _ (follows_afterFirst hclose _) (follows_afterFirst hclose _)
        (List.cons.inj h).2
      obtain ⟨rfl, rfl⟩ := ih has hrest
      exact ⟨rfl, rfl⟩

/-- **A list is told from what follows it when its elements are**, and no element begins as
the list ends. -/
theorem sequence_inj (hclose : close ∈ [']', '\x7d']) (hcode : ∀ a ∈ as, Delimits code a)
    (hhead : ∀ a w w', code a ++ w ≠ close :: w')
    (h : sequence close u (as.map code) = sequence close v (bs.map code)) : as = bs ∧ u = v := by
  cases as with
  | nil =>
    cases bs with
    | nil => exact ⟨rfl, (List.cons.inj h).2⟩
    | cons b bs => exact absurd h.symm (hhead b _ _)
  | cons a as =>
    cases bs with
    | nil => exact absurd h (hhead a _ _)
    | cons b bs =>
      obtain ⟨ha, has⟩ := List.forall_mem_cons.1 hcode
      obtain ⟨rfl, hrest⟩ := ha b _ _ (follows_afterFirst hclose _) (follows_afterFirst hclose _) h
      obtain ⟨rfl, rfl⟩ := afterFirst_inj hclose has hrest
      exact ⟨rfl, rfl⟩

end

/-! ### One value -/

/-- What the first character of a value tells of it. -/
def kindOf (c : Char) : Nat :=
  if Numeral c then 0 else if c = 'n' then 1 else if c = 't' then 2 else if c = 'f' then 3
  else if c = '"' then 4 else if c = '[' then 5 else if c = '\x7b' then 6 else 7

/-- The kind of a value. -/
def kind : Json → Nat
  | num _ => 0
  | null => 1
  | bool true => 2
  | bool false => 3
  | str _ => 4
  | arr _ => 5
  | obj _ => 6

theorem arr_toList (elems : List Json) :
    (arr elems).text.toList = '[' :: ((textList elems).toList ++ [']']) := by
  simp only [text, String.toList_append]
  rfl

theorem obj_toList (fields : List (String × Json)) :
    (obj fields).text.toList = '\x7b' :: ((textFields fields).toList ++ ['\x7d']) := by
  simp only [text, String.toList_append]
  rfl

theorem exists_head (j : Json) : ∃ c cs, j.text.toList = c :: cs ∧ kindOf c = kind j := by
  cases j with
  | null => exact ⟨'n', ['u', 'l', 'l'], by simp [text], by decide⟩
  | bool b =>
    cases b with
    | true => exact ⟨'t', ['r', 'u', 'e'], by simp [text], by decide⟩
    | false => exact ⟨'f', ['a', 'l', 's', 'e'], by simp [text], by decide⟩
  | num n =>
    obtain ⟨hne, hnumeral⟩ := n.numeral_text
    obtain ⟨c, cs, hcons⟩ := List.exists_cons_of_ne_nil hne
    exact ⟨c, cs, hcons, if_pos (hnumeral c (hcons ▸ List.mem_cons_self))⟩
  | str s => exact ⟨'"', _, quote_toList s, (by decide : kindOf '"' = 4)⟩
  | arr elems => exact ⟨'[', _, arr_toList elems, (by decide : kindOf '[' = 5)⟩
  | obj fields => exact ⟨'\x7b', _, obj_toList fields, (by decide : kindOf '\x7b' = 6)⟩

/-- Values that begin alike are of one kind. -/
theorem kind_eq_of_append {j k : Json} {u v : List Char}
    (h : j.text.toList ++ u = k.text.toList ++ v) : kind j = kind k := by
  obtain ⟨c, cs, hj, hkind⟩ := exists_head j
  obtain ⟨d, ds, hk, hkind'⟩ := exists_head k
  rw [hj, hk] at h
  rw [← hkind, ← hkind', (List.cons.inj h).1]

/-- A field with its value. -/
def fieldText (f : String × Json) : List Char := (quote f.1).toList ++ ':' :: f.2.text.toList

theorem textList_append (elems : List Json) (u : List Char) :
    (textList elems).toList ++ ']' :: u = sequence ']' u (elems.map (·.text.toList)) := by
  induction elems with
  | nil => rfl
  | cons j elems ih =>
    cases elems with
    | nil => rfl
    | cons k rest =>
      simp only [textList, String.toList_append, List.append_assoc, List.map_cons, sequence] at ih ⊢
      rw [ih]
      rfl

theorem textFields_append (fields : List (String × Json)) (u : List Char) :
    (textFields fields).toList ++ '\x7d' :: u = sequence '\x7d' u (fields.map fieldText) := by
  have hcomma : ",".toList = [','] := rfl
  have hcolon : ":".toList = [':'] := rfl
  induction fields with
  | nil => rfl
  | cons f fields ih =>
    cases fields with
    | nil =>
      simp only [textFields, fieldText, String.toList_append, List.append_assoc, List.map_cons,
        sequence, hcolon, List.cons_append, List.nil_append]
      rfl
    | cons g rest =>
      simp only [textFields, fieldText, String.toList_append, List.append_assoc, List.map_cons,
        sequence, afterFirst, hcomma, hcolon, List.cons_append, List.nil_append] at ih ⊢
      rw [ih]

theorem arr_append (elems : List Json) (u : List Char) :
    (arr elems).text.toList ++ u = '[' :: sequence ']' u (elems.map (·.text.toList)) := by
  rw [arr_toList, ← textList_append, List.cons_append, List.append_assoc]
  rfl

theorem obj_append (fields : List (String × Json)) (u : List Char) :
    (obj fields).text.toList ++ u = '\x7b' :: sequence '\x7d' u (fields.map fieldText) := by
  rw [obj_toList, ← textFields_append, List.cons_append, List.append_assoc]
  rfl

theorem delimits_fieldText {f : String × Json} (h : Delimits (·.text.toList) f.2) :
    Delimits fieldText f := by
  intro g u v hu hv heq
  simp only [fieldText, List.append_assoc] at heq
  obtain ⟨hkey, hrest⟩ := quote_append_inj heq
  obtain ⟨hvalue, rfl⟩ := h g.2 u v hu hv (List.cons.inj hrest).2
  exact ⟨Prod.ext hkey hvalue, rfl⟩

/-- No value begins as a list ends. -/
theorem text_append_ne {close : Char} (hclose : kindOf close = 7) (j : Json) (u v : List Char) :
    j.text.toList ++ u ≠ close :: v := by
  obtain ⟨c, cs, hj, hkind⟩ := exists_head j
  rw [hj]
  intro h
  have hkind' : kindOf close = kind j := (List.cons.inj h).1 ▸ hkind
  rw [hclose] at hkind'
  cases j with
  | bool b => cases b <;> cases hkind'
  | _ => cases hkind'

theorem delimits_null : Delimits (·.text.toList) null := by
  intro k u v hu hv h
  have hkind := kind_eq_of_append h
  cases k with
  | null => exact ⟨rfl, List.append_cancel_left h⟩
  | bool b => cases b <;> cases hkind
  | _ => cases hkind

theorem delimits_bool (b : Bool) : Delimits (·.text.toList) (bool b) := by
  intro k u v hu hv h
  have hkind := kind_eq_of_append h
  cases k with
  | bool b' =>
    obtain rfl : b = b' := by
      cases b <;> cases b' <;> first | rfl | cases hkind
    exact ⟨rfl, List.append_cancel_left h⟩
  | _ => cases b <;> cases hkind

theorem delimits_num (n : Number) : Delimits (·.text.toList) (num n) := by
  intro k u v hu hv h
  have hkind := kind_eq_of_append h
  cases k with
  | num m =>
    obtain ⟨rfl, rfl⟩ := delimits_number n m u v hu hv h
    exact ⟨rfl, rfl⟩
  | bool b => cases b <;> cases hkind
  | _ => cases hkind

theorem delimits_str (s : String) : Delimits (·.text.toList) (str s) := by
  intro k u v hu hv h
  have hkind := kind_eq_of_append h
  cases k with
  | str t =>
    obtain ⟨rfl, rfl⟩ := quote_append_inj h
    exact ⟨rfl, rfl⟩
  | bool b => cases b <;> cases hkind
  | _ => cases hkind

theorem delimits_arr {elems : List Json} (helems : ∀ j ∈ elems, Delimits (·.text.toList) j) :
    Delimits (·.text.toList) (arr elems) := by
  intro k u v hu hv h
  have hkind := kind_eq_of_append h
  cases k with
  | arr elems' =>
    simp only [arr_append] at h
    obtain ⟨rfl, rfl⟩ := sequence_inj (by decide) helems (text_append_ne (by decide))
      (List.cons.inj h).2
    exact ⟨rfl, rfl⟩
  | bool b => cases b <;> cases hkind
  | _ => cases hkind

theorem delimits_obj {fields : List (String × Json)}
    (hfields : ∀ f ∈ fields, Delimits fieldText f) : Delimits (·.text.toList) (obj fields) := by
  intro k u v hu hv h
  have hkind := kind_eq_of_append h
  cases k with
  | obj fields' =>
    have hhead : ∀ (f : String × Json) w w', fieldText f ++ w ≠ '\x7d' :: w' := by
      intro f w w' h
      rw [fieldText, quote_toList] at h
      cases h
    simp only [obj_append] at h
    obtain ⟨rfl, rfl⟩ := sequence_inj (by decide) hfields hhead (List.cons.inj h).2
    exact ⟨rfl, rfl⟩
  | bool b => cases b <;> cases hkind
  | _ => cases hkind

mutual

/-- **A value is told from what follows it.** -/
theorem delimits_text : ∀ j : Json, Delimits (·.text.toList) j
  | .null => delimits_null
  | .bool b => delimits_bool b
  | .num n => delimits_num n
  | .str s => delimits_str s
  | .arr elems => delimits_arr (delimits_elems elems)
  | .obj fields => delimits_obj (delimits_fields fields)

theorem delimits_elems : ∀ elems : List Json, ∀ j ∈ elems, Delimits (·.text.toList) j
  | [] => fun _ hj => absurd hj List.not_mem_nil
  | j :: rest => List.forall_mem_cons.2 ⟨delimits_text j, delimits_elems rest⟩

theorem delimits_fields : ∀ fields : List (String × Json), ∀ f ∈ fields, Delimits fieldText f
  | [] => fun _ hf => absurd hf List.not_mem_nil
  | (key, j) :: rest =>
    List.forall_mem_cons.2 ⟨delimits_fieldText (f := (key, j)) (delimits_text j),
      delimits_fields rest⟩

end

/-- **Different values have different texts.** -/
theorem text_injective : Function.Injective text := by
  intro j k h
  have hnil : Follows [] := fun _ hc => by cases hc
  exact (delimits_text j k [] [] hnil hnil (congrArg (·.toList ++ []) h)).1

end Json

/-! ## Filters -/

theorem Operator.name_injective : Function.Injective name := by
  have hnames : all.map name = ["eq", "ne", "gt", "gte", "lt", "lte", "in", "not_in", "contains",
    "not_contains"] := rfl
  have hall : ∀ o, o ∈ all := by
    intro o
    cases o <;> decide
  exact fun a b h => List.inj_on_of_nodup_map (by rw [hnames]; decide +kernel) (hall a) (hall b) h

theorem Clause.toJson_eq (c : Clause) : c.toJson =
    .obj [("field", .str c.field), ("operator", .str c.operator.name), ("value", c.value)] := by
  have hfield : ¬ "operator" < "field" := by decide +kernel
  simp only [toJson, Json.ofFields, Keyed.ofList, List.foldl_cons, List.foldl_nil, Keyed.insert,
    if_neg hfield]
  rfl

theorem Clause.toJson_injective : Function.Injective toJson := by
  intro a b h
  rw [toJson_eq, toJson_eq] at h
  simp only [Json.obj.injEq, Json.str.injEq, List.cons.injEq, Prod.mk.injEq, true_and, and_true]
    at h
  obtain ⟨hfield, hoperator, hvalue⟩ := h
  cases a
  cases b
  simp only at hfield hoperator hvalue
  rw [hfield, Operator.name_injective hoperator, hvalue]

theorem Filter.toJson_injective : Function.Injective toJson := by
  rintro ⟨clauses⟩ ⟨clauses'⟩ h
  injection h with helems
  exact congrArg Filter.mk (List.map_injective_iff.2 Clause.toJson_injective helems)

/-- **A key of a listing tells the collection and the filter.** -/
theorem Session.listingKey_injective {name name' : String} {filter filter' : Option Filter}
    (h : listingKey name filter = listingKey name' filter') : name = name' ∧ filter = filter' := by
  obtain ⟨hname, htext⟩ := listingKey_inj h
  have hinj : Function.Injective fun f : Filter => f.toJson.text :=
    Json.text_injective.comp Filter.toJson_injective
  exact ⟨hname, Option.map_injective hinj htext⟩

end VectorBridge
