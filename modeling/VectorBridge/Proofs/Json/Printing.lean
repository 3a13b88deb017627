import VectorBridge.Json.Printer
/-!
# Printed values have no control characters

A string is printed with its control characters escaped, and numbers and
punctuation have none. So a text that is set off by a control character can be
told from what comes before it.
-/

namespace VectorBridge

namespace Json

/-- No character is a control character. -/
def Printable (s : String) : Prop := ∀ c ∈ s.toList, 32 ≤ c.toNat

theorem Printable.append {s t : String} (hs : Printable s) (ht : Printable t) :
    Printable (s ++ t) := by
  intro c hc
  rw [String.toList_append] at hc
  rcases List.mem_append.1 hc with h | h
  · exact hs c h
  · exact ht c h

theorem printable_ofList {cs : List Char} (h : ∀ c ∈ cs, 32 ≤ c.toNat) :
    Printable (String.ofList cs) := by
  intro c hc
  rw [String.toList_ofList] at hc
  exact h c hc

/-! ## Numbers -/

theorem printable_of_mem_toDigits {n : Nat} {c : Char} (h : c ∈ Nat.toDigits 10 n) :
    32 ≤ c.toNat := by
  have hdigit := Nat.isDigit_of_mem_toDigits (by decide) (by decide) h
  simp only [Char.isDigit, Bool.and_eq_true, decide_eq_true_eq] at hdigit
  have hzero : ('0' : Char).val ≤ c.val := hdigit.1
  have hle : ('0' : Char).toNat ≤ c.toNat := hzero
  have hpos : 32 ≤ ('0' : Char).toNat := by decide
  omega

theorem printable_nat (n : Nat) : Printable (toString n) :=
  printable_ofList fun _ hc => printable_of_mem_toDigits hc

theorem printable_int : ∀ n : Int, Printable (toString n)
  | .ofNat n => printable_nat n
  | .negSucc n => by
    have hminus : Printable "-" := by
      intro c hc
      obtain rfl : c = '-' := by simpa using hc
      decide
    exact hminus.append (printable_nat (n + 1))

/-- A text without control characters, by looking at it. -/
theorem printable_of_all {s : String} (h : s.toList.all fun c => 32 ≤ c.toNat) : Printable s :=
  fun c hc => by simpa using List.all_eq_true.1 h c hc

theorem printable_decimal (d : Decimal) : Printable d.text := by
  have hdigits : ∀ c ∈ Nat.toDigits 10 d.digits, 32 ≤ c.toNat :=
    fun _ hc => printable_of_mem_toDigits hc
  have hzeros : ∀ n : Nat, ∀ c ∈ List.replicate n '0', 32 ≤ c.toNat := by
    intro n c hc
    obtain rfl := List.eq_of_mem_replicate hc
    decide
  simp only [Decimal.text]
  split
  · split
    · refine (printable_of_all (by decide)).append (printable_ofList fun c hc => ?_)
      rcases List.mem_append.1 hc with h | h
      · exact hzeros _ c h
      · exact hdigits c h
    · have hpadded : ∀ n : Nat, ∀ c ∈ Nat.toDigits 10 d.digits ++ List.replicate n '0',
          32 ≤ c.toNat := fun n c hc =>
        (List.mem_append.1 hc).elim (hdigits c) (hzeros n c)
      refine ((printable_ofList fun c hc => ?_).append (printable_of_all (by decide))).append ?_
      · exact hpadded _ c (List.mem_of_mem_take hc)
      · split
        · exact printable_of_all (by decide)
        · exact printable_ofList fun c hc => hpadded _ c (List.mem_of_mem_drop hc)
  · refine (Printable.append (Printable.append ?_ (printable_of_all (by decide))) ?_).append
      (printable_nat _)
    · generalize Nat.toDigits 10 d.digits = ds at hdigits
      split
      · exact printable_of_all (by decide)
      · exact printable_ofList hdigits
      · rename_i c rest _
        rw [List.forall_mem_cons] at hdigits
        refine printable_ofList ?_
        rw [List.forall_mem_cons, List.forall_mem_cons]
        exact ⟨hdigits.1, by decide, hdigits.2⟩
    · split <;> exact printable_of_all (by decide)

theorem printable_number : ∀ n : Number, Printable n.text
  | .int n => printable_int n
  | .flt x => by
    simp only [Number.text, Binary64.text]
    refine Printable.append ?_ ?_
    · split <;> exact printable_of_all (by decide)
    · split
      · exact printable_of_all (by decide)
      · exact printable_decimal _

/-! ## Strings and values -/

theorem hexDigit_printable (n : Nat) : 32 ≤ (hexDigit n).toNat := by
  have hall : ∀ k : Fin 16, 32 ≤ (Nat.digitChar k).toNat := by decide
  exact hall ⟨n % 16, Nat.mod_lt _ (by decide)⟩

theorem escapeChar_printable (c : Char) : ∀ d ∈ escapeChar c, 32 ≤ d.toNat := by
  have hmem : ∀ cs : List Char, cs.all (fun d => 32 ≤ d.toNat) = true →
      ∀ d ∈ cs, 32 ≤ d.toNat := fun cs h d hd => by simpa using List.all_eq_true.1 h d hd
  unfold escapeChar
  -- each short escape is looked at, and what needs none stays as it is
  iterate 7
    split
    · exact hmem _ (by decide)
  split
  · simp only [List.forall_mem_cons]
    exact ⟨by decide, by decide, by decide, by decide, hexDigit_printable _,
      hexDigit_printable _, fun _ h => by cases h⟩
  · rename_i hlarge
    intro d hd
    obtain rfl := List.mem_singleton.1 hd
    omega

theorem printable_quote (s : String) : Printable (quote s) := by
  refine ((printable_of_all (by decide)).append (printable_ofList fun c hc => ?_)).append
    (printable_of_all (by decide))
  obtain ⟨d, -, hd⟩ := List.mem_flatMap.1 hc
  exact escapeChar_printable d c hd

mutual

/-- **The text of a value has no control characters.** -/
theorem printable_text : ∀ j : Json, Printable j.text
  | .null => printable_of_all (by decide)
  | .bool true => printable_of_all (by decide)
  | .bool false => printable_of_all (by decide)
  | .num n => printable_number n
  | .str s => printable_quote s
  | .arr elems =>
    ((printable_of_all (by decide)).append (printable_textList elems)).append
      (printable_of_all (by decide))
  | .obj fields =>
    ((printable_of_all (by decide)).append (printable_textFields fields)).append
      (printable_of_all (by decide))

theorem printable_textList : ∀ elems : List Json, Printable (textList elems)
  | [] => printable_of_all (by decide)
  | [j] => printable_text j
  | j :: k :: rest =>
    ((printable_text j).append (printable_of_all (by decide))).append
      (printable_textList (k :: rest))

theorem printable_textFields : ∀ fields : List (String × Json), Printable (textFields fields)
  | [] => printable_of_all (by decide)
  | [(k, j)] =>
    ((printable_quote k).append (printable_of_all (by decide))).append (printable_text j)
  | (k, j) :: f :: rest =>
    ((((printable_quote k).append (printable_of_all (by decide))).append
      (printable_text j)).append (printable_of_all (by decide))).append
        (printable_textFields (f :: rest))

end

end Json

end VectorBridge
