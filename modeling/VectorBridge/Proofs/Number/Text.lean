import Mathlib
import VectorBridge.Json.Printer
import VectorBridge.Proofs.Number.Shortest
import VectorBridge.Text.Search
/-!
# The text of a number says which it is

An integer is written by its digits. A binary64 is written by a decimal, with a point or an
exponent, from which the value of the decimal can be read; so the two classes are not confused
and different numbers have different texts. What it takes is that the value is read from the
layout, and `Writes` says for each layout what is read.
-/

namespace VectorBridge

/-! ## Decimal digits -/

namespace Text

theorem isDigit_of_mem_toString {n : Nat} {c : Char} (h : c ∈ (toString n).toList) :
    isDigit c = true := by
  have hdigit : c.isDigit = true :=
    Nat.isDigit_of_mem_toDigits (b := 10) (by decide) (by decide) (Nat.toList_repr ▸ h)
  simp only [Char.isDigit, Bool.and_eq_true, decide_eq_true_eq] at hdigit
  simp only [isDigit, Bool.and_eq_true, decide_eq_true_eq]
  exact hdigit

/-- A number is read from its text. -/
theorem natOfDigits_toString (n : Nat) : natOfDigits (toString n).toList = n := by
  have h : Nat.ofDigitChars 10 (toString n).toList 0 = n := by
    rw [show (toString n).toList = Nat.toDigits 10 n from Nat.toList_repr]
    exact Nat.ofDigitChars_ten_toDigits
  rw [Nat.ofDigitChars_eq_foldl] at h
  simp only [Nat.mul_comm 10] at h
  exact h

theorem toString_toList_ne_nil (n : Nat) : (toString n).toList ≠ [] := by
  rw [show (toString n).toList = Nat.toDigits 10 n from Nat.toList_repr]
  exact Nat.toDigits_ne_nil

theorem le_of_natUpTo? {bound n : Nat} {s : String} (h : natUpTo? bound s = some n) :
    n ≤ bound := by
  simp only [natUpTo?, Option.ite_none_left_eq_some, Option.ite_none_right_eq_some] at h
  obtain ⟨-, hle, heq⟩ := h
  exact Option.some.inj heq ▸ hle

theorem natUpTo?_toString {bound n : Nat} (h : n ≤ bound) :
    natUpTo? bound (toString n) = some n := by
  have hvalue := natOfDigits_toString n
  have hne := toString_toList_ne_nil n
  have hall : ∀ c ∈ (toString n).toList, isDigit c = true := fun c => isDigit_of_mem_toString
  rw [natUpTo?]
  generalize (toString n).toList = cs at hvalue hne hall
  cases cs with
  | nil => exact absurd rfl hne
  | cons c rest =>
    have hplus : c ≠ '+' := by
      rintro rfl
      exact absurd (hall '+' List.mem_cons_self) (by decide)
    have hdigits : (c :: rest).all isDigit = true := List.all_eq_true.2 hall
    simp [hplus, hdigits, hvalue, h]

end Text

/-- Only decimal digits. -/
def Digits (cs : List Char) : Prop := ∀ c ∈ cs, c.isDigit = true

theorem digits_toDigits (n : Nat) : Digits (Nat.toDigits 10 n) := fun _ hc =>
  Nat.isDigit_of_mem_toDigits (by decide) (by decide) hc

theorem digits_append {as bs : List Char} : Digits (as ++ bs) ↔ Digits as ∧ Digits bs :=
  List.forall_mem_append

theorem digits_replicate (n : Nat) : Digits (List.replicate n '0') := by
  intro c hc
  obtain rfl := List.eq_of_mem_replicate hc
  decide

/-- A character that numbers are written with. -/
def Numeral (c : Char) : Prop := c.isDigit = true ∨ c ∈ ['-', '+', '.', 'e']

instance (c : Char) : Decidable (Numeral c) := inferInstanceAs (Decidable (_ ∨ _))

theorem Digits.numeral {cs : List Char} (h : Digits cs) : ∀ c ∈ cs, Numeral c :=
  fun c hc => .inl (h c hc)

/-! ## What comes before a character -/

/-- What comes before a character, and what comes after it. -/
def cutAt (c : Char) (cs : List Char) : List Char × List Char :=
  (cs.takeWhile (· ≠ c), (cs.dropWhile (· ≠ c)).drop 1)

theorem cutAt_of_not_mem {c : Char} {cs : List Char} (h : c ∉ cs) : cutAt c cs = (cs, []) := by
  have hall : ∀ d ∈ cs, decide (d ≠ c) = true := fun d hd =>
    decide_eq_true fun heq => h (heq ▸ hd)
  rw [cutAt, List.takeWhile_eq_self_iff.2 hall, List.dropWhile_eq_nil_iff.2 hall]
  rfl

theorem cutAt_append {c : Char} {as : List Char} (h : c ∉ as) (bs : List Char) :
    cutAt c (as ++ c :: bs) = (as, bs) := by
  have hall : ∀ d ∈ as, decide (d ≠ c) = true := fun d hd =>
    decide_eq_true fun heq => h (heq ▸ hd)
  rw [cutAt, List.takeWhile_append_of_pos hall, List.dropWhile_append_of_pos hall]
  simp

/-- Characters of one kind end where another character begins. -/
theorem run_append_inj {p : Char → Prop} [DecidablePred p] {as bs u v : List Char}
    (has : ∀ c ∈ as, p c) (hbs : ∀ c ∈ bs, p c) (hu : ∀ c ∈ u.head?, ¬ p c)
    (hv : ∀ c ∈ v.head?, ¬ p c) (h : as ++ u = bs ++ v) : as = bs ∧ u = v := by
  have hrun : ∀ {as u : List Char}, (∀ c ∈ as, p c) → (∀ c ∈ u.head?, ¬ p c) →
      (as ++ u).takeWhile (p ·) = as := by
    intro as u has hu
    rw [List.takeWhile_append_of_pos fun c hc => decide_eq_true (has c hc)]
    cases u with
    | nil => simp
    | cons c u => simp [hu c rfl]
  have heq : as = bs := by rw [← hrun has hu, ← hrun hbs hv, h]
  subst heq
  exact ⟨rfl, List.append_cancel_left h⟩

theorem Digits.not_mem {cs : List Char} (h : Digits cs) {c : Char} (hc : c.isDigit = false) :
    c ∉ cs := fun hmem => by
  rw [h c hmem] at hc
  cases hc

namespace Decimal

/-! ## Reading a layout -/

/-- The exponent that is written with a sign. -/
def exponentOf : List Char → Int
  | '-' :: places => -(Nat.ofDigitChars 10 places 0)
  | _ :: places => Nat.ofDigitChars 10 places 0
  | [] => 0

/-- The value that characters are read as. -/
def valueOf (cs : List Char) : ℚ :=
  let (mantissa, exponent) := cutAt 'e' cs
  let (whole, fraction) := cutAt '.' mantissa
  Nat.ofDigitChars 10 (whole ++ fraction) 0 * 10 ^ (exponentOf exponent - fraction.length)

/-- The layouts of a decimal: digits with a point among them, or with an exponent after them,
which has a sign. -/
inductive Layout : List Char → ℚ → Prop
  | point (whole fraction : List Char) (hne : whole ≠ []) (hdigits : Digits (whole ++ fraction)) :
      Layout (whole ++ '.' :: fraction)
        (Nat.ofDigitChars 10 (whole ++ fraction) 0 * 10 ^ (-(fraction.length : Int)))
  | exponent (c : Char) (rest places : List Char) (sign : Bool) (hdigits : Digits (c :: rest))
      (hplaces : Digits places) :
      Layout (c :: (if rest = [] then [] else '.' :: rest) ++
          'e' :: (if sign then '+' else '-') :: places)
        (Nat.ofDigitChars 10 (c :: rest) 0 *
          10 ^ (exponentOf ((if sign then '+' else '-') :: places) - rest.length))

namespace Layout

variable {cs : List Char} {v : ℚ}

theorem valueOf_eq (h : Layout cs v) : valueOf cs = v := by
  cases h with
  | point whole fraction hne hdigits =>
    obtain ⟨hwhole, hfraction⟩ := digits_append.1 hdigits
    have hnone : 'e' ∉ whole ++ '.' :: fraction := by
      rw [List.mem_append, List.mem_cons]
      rintro (h | h | h)
      · exact hwhole.not_mem (by decide) h
      · cases h
      · exact hfraction.not_mem (by decide) h
    rw [valueOf, cutAt_of_not_mem hnone]
    simp only
    rw [cutAt_append (hwhole.not_mem (by decide))]
    simp [exponentOf]
  | exponent c rest places sign hdigits hplaces =>
    obtain ⟨hc, hrest⟩ := List.forall_mem_cons.1 hdigits
    have hpoint : c ≠ '.' := by
      rintro rfl
      cases hc
    have hmark : 'e' ∉ c :: if rest = [] then [] else '.' :: rest := by
      rw [List.mem_cons, not_or]
      refine ⟨fun heq => ?_, ?_⟩
      · cases heq
        cases hc
      · split
        · exact List.not_mem_nil
        · rw [List.mem_cons, not_or]
          exact ⟨by decide, Digits.not_mem hrest (by decide)⟩
    rw [valueOf, cutAt_append hmark]
    simp only
    split
    · rename_i hnil
      rw [hnil, cutAt_of_not_mem (by simpa using hpoint.symm)]
      rfl
    · have hnone : '.' ∉ [c] := by simpa using hpoint.symm
      have hcut : cutAt '.' (c :: '.' :: rest) = ([c], rest) := cutAt_append hnone rest
      rw [hcut]
      rfl

theorem unique {w : ℚ} (h : Layout cs v) (h' : Layout cs w) : v = w :=
  h.valueOf_eq.symm.trans h'.valueOf_eq

/-- A layout begins with a digit, so it has no sign. -/
theorem exists_head (h : Layout cs v) : ∃ c rest, cs = c :: rest ∧ c.isDigit = true := by
  cases h with
  | point whole fraction hne hdigits =>
    obtain ⟨c, rest, rfl⟩ := List.exists_cons_of_ne_nil hne
    exact ⟨c, _, rfl, hdigits c List.mem_cons_self⟩
  | exponent c rest places sign hdigits hplaces =>
    exact ⟨c, _, rfl, hdigits c List.mem_cons_self⟩

/-- A layout is not that of an integer. -/
theorem marked (h : Layout cs v) : '.' ∈ cs ∨ 'e' ∈ cs := by
  cases h with
  | point => exact .inl (by simp)
  | exponent => exact .inr (by simp)

theorem numeral (h : Layout cs v) : ∀ c ∈ cs, Numeral c := by
  cases h with
  | point whole fraction hne hdigits =>
    obtain ⟨hwhole, hfraction⟩ := digits_append.1 hdigits
    rw [List.forall_mem_append, List.forall_mem_cons]
    exact ⟨hwhole.numeral, .inr (by decide), hfraction.numeral⟩
  | exponent c rest places sign hdigits hplaces =>
    obtain ⟨hc, hrest⟩ := List.forall_mem_cons.1 hdigits.numeral
    rw [List.forall_mem_append, List.forall_mem_cons, List.forall_mem_cons, List.forall_mem_cons]
    refine ⟨⟨hc, ?_⟩, .inr (by decide), .inr ?_, hplaces.numeral⟩
    · split
      · exact fun _ h => absurd h List.not_mem_nil
      · exact List.forall_mem_cons.2 ⟨.inr (by decide), hrest⟩
    · cases sign <;> decide

end Layout

/-! ## The layout of a decimal -/

theorem ofDigitChars_zeros_append (n : Nat) (cs : List Char) :
    Nat.ofDigitChars 10 (List.replicate n '0' ++ cs) 0 = Nat.ofDigitChars 10 cs 0 := by
  rw [Nat.ofDigitChars_append, Nat.ofDigitChars_replicate_zero, Nat.mul_zero]

theorem ofDigitChars_append_zeros (n : Nat) (cs : List Char) :
    Nat.ofDigitChars 10 (cs ++ List.replicate n '0') 0 = 10 ^ n * Nat.ofDigitChars 10 cs 0 := by
  rw [Nat.ofDigitChars_append, Nat.ofDigitChars_replicate_zero]

theorem exponentOf_sign (lead : Int) :
    exponentOf ((if 0 ≤ lead then '+' else '-') :: Nat.toDigits 10 lead.natAbs) = lead := by
  split
  · show (Nat.ofDigitChars 10 (Nat.toDigits 10 lead.natAbs) 0 : Int) = lead
    rw [Nat.ofDigitChars_ten_toDigits]
    omega
  · show -(Nat.ofDigitChars 10 (Nat.toDigits 10 lead.natAbs) 0 : Int) = lead
    rw [Nat.ofDigitChars_ten_toDigits]
    omega

section

variable {ds : List Char}

/-- Digits that stand behind zeros, all of them after the point. -/
theorem layout_below_one (h : Digits ds) (k : Nat) :
    Layout ('0' :: '.' :: (List.replicate k '0' ++ ds))
      (Nat.ofDigitChars 10 ds 0 * 10 ^ (-(k + ds.length : Int))) := by
  have hzeros : ['0'] ++ (List.replicate k '0' ++ ds) = List.replicate (k + 1) '0' ++ ds := rfl
  have hvalue := ofDigitChars_zeros_append (k + 1) ds
  rw [← hzeros] at hvalue
  convert Layout.point ['0'] (List.replicate k '0' ++ ds) (by simp)
    (by rw [hzeros]; exact digits_append.2 ⟨digits_replicate _, h⟩) using 1
  · rfl
  · rw [hvalue, List.length_append, List.length_replicate]
    push_cast
    rfl

/-- Digits with the point after the first `w` places, padded with zeros if they are fewer. -/
theorem layout_positional (h : Digits ds) (hne : ds ≠ []) {w : Nat} (hw : 0 < w) :
    Layout ((ds ++ List.replicate (w - ds.length) '0').take w ++ '.' ::
        if ((ds ++ List.replicate (w - ds.length) '0').drop w).isEmpty then ['0']
        else (ds ++ List.replicate (w - ds.length) '0').drop w)
      (Nat.ofDigitChars 10 ds 0 * 10 ^ ((w : Int) - ds.length)) := by
  have hlength := List.length_pos_iff.2 hne
  rcases Nat.lt_or_ge w ds.length with hlt | hge
  · -- the point stands among the digits
    have hpadded : ds ++ List.replicate (w - ds.length) '0' = ds := by
      rw [Nat.sub_eq_zero_of_le hlt.le]
      simp
    have hdrop : ¬ (ds.drop w).isEmpty = true := by
      simpa using hlt
    rw [hpadded, if_neg hdrop]
    have htake : ds.take w ≠ [] := by
      rw [← List.length_pos_iff, List.length_take]
      omega
    convert Layout.point _ _ htake (by rwa [List.take_append_drop]) using 1
    rw [List.take_append_drop, List.length_drop]
    congr 2
    omega
  · -- the digits end at the point or before it
    obtain ⟨k, rfl⟩ := Nat.exists_eq_add_of_le hge
    have hpadded : ds.length + k - ds.length = k := by omega
    have hall : (ds ++ List.replicate k '0').length = ds.length + k := by simp
    rw [hpadded, List.take_of_length_le hall.le, List.drop_of_length_le hall.le]
    have hone : (ds ++ List.replicate k '0') ++ ['0'] = ds ++ List.replicate (k + 1) '0' := by
      rw [List.append_assoc, ← List.replicate_succ']
    convert Layout.point (ds ++ List.replicate k '0') ['0'] (by simp [hne])
      (by rw [hone]; exact digits_append.2 ⟨h, digits_replicate _⟩) using 1
    · rfl
    · have hexp : ((ds.length + k : Nat) : Int) - ds.length = k := by omega
      rw [hone, ofDigitChars_append_zeros, hexp, zpow_natCast, pow_succ]
      simp
      ring

/-- Digits with the point after the first place, if there are more, and an exponent. -/
theorem layout_scientific (h : Digits ds) (hne : ds ≠ []) (lead : Int) :
    Layout ((match ds with
        | [] => "0"
        | [c] => String.ofList [c]
        | c :: rest => String.ofList (c :: '.' :: rest)).toList ++
          'e' :: (if 0 ≤ lead then '+' else '-') :: Nat.toDigits 10 lead.natAbs)
      (Nat.ofDigitChars 10 ds 0 * 10 ^ (lead - (ds.length - 1))) := by
  cases ds with
  | nil => exact absurd rfl hne
  | cons c rest =>
    convert Layout.exponent c rest _ (decide (0 ≤ lead)) h (digits_toDigits lead.natAbs) using 1
    · cases rest <;> simp
    · have hsign := exponentOf_sign lead
      simp only [decide_eq_true_eq, hsign, List.length_cons]
      congr 2
      push_cast
      ring

end

/-- **The text of a decimal is a layout of its value.** -/
theorem layout_text (d : Decimal) : Layout d.text.toList d.value := by
  have hread : Nat.ofDigitChars 10 (Nat.toDigits 10 d.digits) 0 = d.digits :=
    Nat.ofDigitChars_ten_toDigits
  have hdigits := digits_toDigits d.digits
  have hne : Nat.toDigits 10 d.digits ≠ [] := Nat.toDigits_ne_nil
  rw [value, ← hread]
  simp only [text]
  generalize Nat.toDigits 10 d.digits = ds at hdigits hne ⊢
  have hlength := List.length_pos_iff.2 hne
  split
  · split
    · convert layout_below_one hdigits (-((ds.length : Int) + d.exponent - 1) - 1).toNat using 1
      · simp
      · congr 2
        omega
    · convert layout_positional hdigits hne
        (Nat.succ_pos ((ds.length : Int) + d.exponent - 1).toNat) using 1
      · simp [apply_ite String.toList]
      · congr 2
        omega
  · convert layout_scientific hdigits hne ((ds.length : Int) + d.exponent - 1) using 1
    · simp only [String.toList_append, Nat.toString_eq_repr, Nat.toList_repr, List.append_assoc]
      congr 1
      split <;> rfl
    · congr 2
      omega

end Decimal

/-! ## Binary64 values -/

namespace Binary64

open Decimal

/-- The value of the decimal that a magnitude is written by. -/
noncomputable def written (bits : Nat) : ℚ := if bits = 0 then 0 else (ofBits bits).value

theorem written_injective : Function.Injective written := by
  have hpos : ∀ {bits : Nat}, bits ≠ 0 → 0 < (ofBits bits).value := by
    intro bits hbits
    obtain ⟨n, rfl⟩ := Nat.exists_eq_add_one_of_ne_zero hbits
    have hlower : 0 < lower (n + 1) := by
      rw [lower_succ, upper]
      positivity
    linarith [(value_bounds (n + 1)).1.1]
  intro a b h
  unfold written at h
  split_ifs at h with ha hb hb
  · rw [ha, hb]
  · exact absurd h (hpos hb).ne
  · exact absurd h (hpos ha).ne'
  · exact value_ofBits_injective h

/-- The text of a value without its sign. -/
theorem layout_unsigned (bits : Nat) :
    Layout (if bits = 0 then "0.0" else (ofBits bits).text).toList (written bits) := by
  unfold written
  split
  · have hzero : Nat.ofDigitChars 10 (List.replicate 1 '0') 0 = 0 := by decide
    convert layout_below_one (digits_replicate 1) 0 using 1
    · rfl
    · rw [hzero]
      simp
  · exact layout_text _

/-- A value is known by its bits. -/
theorem ofBits_toBits (x : Float) : Float.ofBits x.toBits = x := by
  have hmodel : ∀ a b : Float.Model, a.toBits = b.toBits → a = b := by
    rintro ⟨_, _⟩ ⟨_, _⟩ rfl
    rfl
  have hkept := @BinaryFormat.pack_unpack .binary64 _ (by decide) x.toModel.valid
  exact congrArg Float.ofModel (hmodel _ _ (congrArg UInt64.ofBitVec hkept))

/-- A value is that of its sign and its magnitude. -/
theorem ofParts_self (x : Float) : ofParts (negative x) (magnitude x) = x := by
  have hlt : x.toBits.toNat < 2 ^ 64 := x.toBits.toNat_lt
  have hbits : (if negative x then magnitude x + Word.half64 else magnitude x) =
      x.toBits.toNat := by
    have hhalf : Word.half64 = 2 ^ 63 := rfl
    simp only [negative, magnitude, decide_eq_true_eq, hhalf]
    split <;> omega
  rw [ofParts, hbits, UInt64.ofNat_toNat, ofBits_toBits]

theorem text_toList (x : Float) : ∃ cs, Layout cs (written (magnitude x)) ∧
    (text x).toList = if negative x then '-' :: cs else cs := by
  refine ⟨_, layout_unsigned (magnitude x), ?_⟩
  rw [text, String.toList_append]
  split <;> rfl

/-- **Different values have different texts**, zeros of different sign included. -/
theorem text_injective : Function.Injective text := by
  intro x y h
  obtain ⟨cs, hx, htext⟩ := text_toList x
  obtain ⟨cs', hy, htext'⟩ := text_toList y
  rw [h, htext'] at htext
  have hsigned : ∀ {cs cs' : List Char} {v : ℚ}, Layout cs v → cs ≠ '-' :: cs' := by
    rintro cs cs' v hlayout rfl
    obtain ⟨c, rest, hcons, hdigit⟩ := hlayout.exists_head
    cases hcons
    cases hdigit
  have hparts : negative x = negative y ∧ cs = cs' := by
    cases hnx : negative x <;> cases hny : negative y <;> simp only [hnx, hny] at htext
    · exact ⟨rfl, htext.symm⟩
    · exact absurd htext.symm (hsigned hx)
    · exact absurd htext (hsigned hy)
    · exact ⟨rfl, (List.cons.inj htext).2.symm⟩
  obtain ⟨hsign, rfl⟩ := hparts
  rw [← ofParts_self x, ← ofParts_self y, hsign, written_injective (hx.unique hy)]

end Binary64

/-! ## Numbers -/

namespace Number

theorem int_toList (n : Int) : (toString n).toList ≠ [] ∧
    ∀ c ∈ (toString n).toList, c.isDigit = true ∨ c = '-' := by
  have hdigits : ∀ m : Nat, ∀ c ∈ m.repr.toList, c.isDigit = true ∨ c = '-' := fun m c hc =>
    .inl (digits_toDigits m c (Nat.toList_repr ▸ hc))
  cases n with
  | ofNat m =>
    refine ⟨?_, hdigits m⟩
    show m.repr.toList ≠ []
    rw [Nat.toList_repr]
    exact Nat.toDigits_ne_nil
  | negSucc m =>
    have hsign : (toString (Int.negSucc m)).toList = '-' :: (m + 1).repr.toList :=
      String.toList_append
    rw [hsign]
    exact ⟨List.cons_ne_nil _ _, List.forall_mem_cons.2 ⟨.inr rfl, hdigits _⟩⟩

/-- A number is written with numerals. -/
theorem numeral_text (n : Number) : n.text.toList ≠ [] ∧ ∀ c ∈ n.text.toList, Numeral c := by
  cases n with
  | int n =>
    obtain ⟨hne, hdigits⟩ := int_toList n
    refine ⟨hne, fun c hc => (hdigits c hc).imp_right ?_⟩
    rintro rfl
    exact List.mem_cons_self
  | flt x =>
    obtain ⟨cs, hlayout, htext⟩ := Binary64.text_toList x
    obtain ⟨c, rest, hcons, -⟩ := hlayout.exists_head
    rw [text, htext]
    split
    · exact ⟨by simp, List.forall_mem_cons.2 ⟨.inr (by decide), hlayout.numeral⟩⟩
    · exact ⟨by simp [hcons], hlayout.numeral⟩

/-- An integer is not written as a binary64 is. -/
theorem text_int_ne_flt (n : Int) (x : Float) : (Number.int n).text ≠ (Number.flt x).text := by
  intro h
  obtain ⟨-, hdigits⟩ := int_toList n
  obtain ⟨cs, hlayout, hflt⟩ := Binary64.text_toList x
  have hlist : (toString n).toList = (Binary64.text x).toList := congrArg String.toList h
  rw [hlist, hflt] at hdigits
  have hmem : ∀ c ∈ cs, c.isDigit = true ∨ c = '-' := by
    split at hdigits
    · exact (List.forall_mem_cons.1 hdigits).2
    · exact hdigits
  rcases hlayout.marked with hdot | hexp
  · exact absurd (hmem _ hdot) (by decide)
  · exact absurd (hmem _ hexp) (by decide)

/-- **Different numbers have different texts**, of whichever class they are. -/
theorem text_injective : Function.Injective text := by
  intro m n h
  cases m with
  | int m =>
    cases n with
    | int n => exact congrArg int (Int.repr_injective h)
    | flt y => exact absurd h (text_int_ne_flt m y)
  | flt x =>
    cases n with
    | int n => exact absurd h.symm (text_int_ne_flt n x)
    | flt y => exact congrArg flt (Binary64.text_injective h)

/-- A number ends where its numerals do. -/
theorem text_append_inj {m n : Number} {u v : List Char} (hu : ∀ c ∈ u.head?, ¬ Numeral c)
    (hv : ∀ c ∈ v.head?, ¬ Numeral c) (h : m.text.toList ++ u = n.text.toList ++ v) :
    m = n ∧ u = v := by
  obtain ⟨htext, hrest⟩ := run_append_inj m.numeral_text.2 n.numeral_text.2 hu hv h
  exact ⟨text_injective (String.toList_injective htext), hrest⟩

end Number

end VectorBridge
