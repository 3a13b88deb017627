import Mathlib.Algebra.Group.Nat.Defs
import Mathlib.Data.List.TakeWhile
import VectorBridge.Url.Address
/-!
# Addresses read from their text

An IPv6 address is eight pieces of sixteen bits, and is written with its longest run of zeros
left out. Reading fills the gap up to eight pieces, so the address is read back whatever run
was left out, as long as it was one of zeros (`longestZeros_eq_some`). Other texts of an
address are read as it too; only the one is written.
-/

namespace VectorBridge

/-! ## Cutting at every separator -/

namespace Text

variable {separator : Char} {part : List Char}

theorem splitAt_of_notMem (h : separator ∉ part) : splitAt separator part = [part] := by
  induction part with
  | nil => rfl
  | cons c part ih =>
    rw [List.mem_cons, not_or] at h
    rw [splitAt, if_neg (Ne.symm h.1), ih h.2]

theorem splitAt_append (h : separator ∉ part) (rest : List Char) :
    splitAt separator (part ++ separator :: rest) = part :: splitAt separator rest := by
  induction part with
  | nil => rw [List.nil_append, splitAt, if_pos rfl]
  | cons c part ih =>
    rw [List.mem_cons, not_or] at h
    rw [List.cons_append, splitAt, if_neg (Ne.symm h.1), ih h.2]

/-- A character is the separator or in a part. -/
theorem mem_splitAt (separator : Char) {cs : List Char} {c : Char} (h : c ∈ cs) :
    c = separator ∨ ∃ part ∈ splitAt separator cs, c ∈ part := by
  induction cs with
  | nil => cases h
  | cons d cs ih =>
    have hrest : c ∈ cs → c = separator ∨ ∃ part ∈ splitAt separator (d :: cs), c ∈ part := by
      intro hmem
      refine (ih hmem).imp_right ?_
      rintro ⟨part, hpart, hc⟩
      rw [splitAt]
      split
      · exact ⟨part, List.mem_cons_of_mem _ hpart, hc⟩
      · split
        · rename_i hnil
          rw [hnil] at hpart
          cases hpart
        · rename_i first parts hparts
          rw [hparts] at hpart
          rcases List.mem_cons.1 hpart with rfl | hpart
          · exact ⟨_, List.mem_cons_self, List.mem_cons_of_mem _ hc⟩
          · exact ⟨part, List.mem_cons_of_mem _ hpart, hc⟩
    rcases List.mem_cons.1 h with rfl | hmem
    · rw [splitAt]
      split
      · rename_i hseparator
        exact .inl hseparator
      · split
        · exact .inr ⟨[c], List.mem_singleton_self _, List.mem_singleton_self c⟩
        · exact .inr ⟨_, List.mem_cons_self, List.mem_cons_self⟩
    · exact hrest hmem

end Text

namespace Url

/-- Eight pieces of sixteen bits. -/
structure IsIpv6 (pieces : List Nat) : Prop where
  length : pieces.length = 8
  small : ∀ n ∈ pieces, n < 0x10000

/-! ## Pieces -/

/-- A piece as it is written. -/
def hexPiece (n : Nat) : List Char := Nat.toDigits 16 n

theorem exists_digit_of_mem_hexPiece {n : Nat} {c : Char} (h : c ∈ hexPiece n) :
    ∃ d < 16, c = Nat.digitChar d := by
  induction n using Nat.strongRecOn with
  | _ n ih =>
    by_cases hn : n < 16
    · rw [hexPiece, Nat.toDigits_of_lt_base hn, List.mem_singleton] at h
      exact ⟨n, hn, h⟩
    · rw [hexPiece, Nat.toDigits_of_base_le (by decide) (Nat.le_of_not_lt hn), List.mem_append,
        List.mem_singleton] at h
      rcases h with h | rfl
      · exact ih (n / 16) (by omega) h
      · exact ⟨n % 16, Nat.mod_lt _ (by decide), rfl⟩

/-- What is written of a piece is neither a colon nor a dot. -/
theorem notMem_hexPiece (n : Nat) : ':' ∉ hexPiece n ∧ '.' ∉ hexPiece n := by
  have hdigits : ∀ d < 16, Nat.digitChar d ≠ ':' ∧ Nat.digitChar d ≠ '.' := by decide
  constructor <;> intro hmem <;> obtain ⟨d, hd, hc⟩ := exists_digit_of_mem_hexPiece hmem
  · exact (hdigits d hd).1 hc.symm
  · exact (hdigits d hd).2 hc.symm

theorem hexPiece_ne_nil (n : Nat) : hexPiece n ≠ [] := Nat.toDigits_ne_nil

/-- **A piece is read from its digits.** -/
theorem number?_hexPiece (n : Nat) : number? 16 (hexPiece n) = some n := by
  have hdigits : ∀ d < 16, digit? 16 (Nat.digitChar d) = some d := by decide
  induction n using Nat.strongRecOn with
  | _ n ih =>
    by_cases hn : n < 16
    · rw [hexPiece, Nat.toDigits_of_lt_base hn, number?, List.mapM_cons, hdigits n hn]
      simp
    · have hfirst := ih (n / 16) (by omega)
      have hlast := hdigits (n % 16) (Nat.mod_lt _ (by decide))
      rw [number?, Option.map_eq_some_iff] at hfirst
      obtain ⟨ds, hds, hvalue⟩ := hfirst
      rw [hexPiece] at hds
      rw [hexPiece, Nat.toDigits_of_base_le (by decide) (Nat.le_of_not_lt hn), number?,
        List.mapM_append, hds, List.mapM_cons, hlast]
      simp only [List.mapM_nil, Option.bind_eq_bind, Option.pure_def, Option.bind_some,
        Option.map_some, List.foldl_append, List.foldl_cons, List.foldl_nil, hvalue]
      congr 1
      omega

theorem length_hexPiece {n : Nat} (h : n < 0x10000) : (hexPiece n).length ≤ 4 :=
  (Nat.length_toDigits_le_iff (by decide) (by decide)).2 h

/-- Pieces with colons between them. -/
def colons : List Nat → List Char
  | [] => []
  | [n] => hexPiece n
  | n :: m :: rest => hexPiece n ++ ':' :: colons (m :: rest)

variable {pieces left right : List Nat}

theorem toList_join_hexPiece (pieces : List Nat) :
    (Text.join ":" (pieces.map fun n => String.ofList (Nat.toDigits 16 n))).toList =
      colons pieces := by
  induction pieces with
  | nil => rfl
  | cons n rest ih =>
    cases rest with
    | nil => exact String.toList_ofList
    | cons m rest =>
      rw [List.map_cons] at ih
      rw [List.map_cons, List.map_cons, Text.join, String.toList_append, String.toList_append, ih,
        String.toList_ofList, colons, List.append_assoc]
      · rfl
      · nofun

/-- Pieces begin with a digit. -/
theorem exists_cons_colons (n : Nat) (rest : List Nat) :
    ∃ c cs, colons (n :: rest) = c :: cs ∧ c ≠ ':' := by
  obtain ⟨c, cs, hcons⟩ := List.exists_cons_of_ne_nil (hexPiece_ne_nil n)
  have hc : c ≠ ':' := by
    rintro rfl
    exact (notMem_hexPiece n).1 (hcons ▸ List.mem_cons_self)
  cases rest with
  | nil => exact ⟨c, cs, hcons, hc⟩
  | cons m rest => exact ⟨c, _, by rw [colons, hcons, List.cons_append], hc⟩

theorem mem_colons {c : Char} (h : c ∈ colons pieces) : c = ':' ∨ ∃ n, c ∈ hexPiece n := by
  induction pieces with
  | nil => cases h
  | cons n rest ih =>
    cases rest with
    | nil => exact .inr ⟨n, h⟩
    | cons m rest =>
      rcases List.mem_append.1 h with h | h
      · exact .inr ⟨n, h⟩
      · rcases List.mem_cons.1 h with h | h
        · exact .inl h
        · exact ih h

theorem splitAt_colons (n : Nat) (rest : List Nat) :
    Text.splitAt ':' (colons (n :: rest)) = (n :: rest).map hexPiece := by
  induction rest generalizing n with
  | nil => exact Text.splitAt_of_notMem (notMem_hexPiece n).1
  | cons m rest ih =>
    rw [colons, Text.splitAt_append (notMem_hexPiece n).1, ih]
    rfl

/-- Pieces are read one by one. -/
theorem ipv6Pieces?_map (h : ∀ n ∈ pieces, n < 0x10000) :
    ipv6Pieces? (pieces.map hexPiece) = some pieces := by
  induction pieces with
  | nil => rfl
  | cons n rest ih =>
    rw [List.forall_mem_cons] at h
    have hne : (hexPiece n).isEmpty = false := List.isEmpty_eq_false_iff.2 (hexPiece_ne_nil n)
    have hlong : decide (4 < (hexPiece n).length) = false :=
      decide_eq_false (Nat.not_lt.2 (length_hexPiece h.1))
    have hread := number?_hexPiece n
    cases rest with
    | nil =>
      have hdot : (hexPiece n).contains '.' = false := by
        simpa using (notMem_hexPiece n).2
      rw [List.map_cons, List.map_nil, ipv6Pieces?, hdot, hne, hlong, hread]
      rfl
    | cons m rest =>
      have hrest := ih h.2
      rw [List.map_cons] at hrest
      rw [List.map_cons, List.map_cons, ipv6Pieces?, hne, hlong, hread, hrest]
      · rfl
      · nofun

theorem side?_colons (h : ∀ n ∈ pieces, n < 0x10000) : side? (colons pieces) = some pieces := by
  cases pieces with
  | nil => rfl
  | cons n rest =>
    obtain ⟨c, cs, hcons, -⟩ := exists_cons_colons n rest
    rw [side?, hcons, List.isEmpty_cons, ← hcons, splitAt_colons]
    exact ipv6Pieces?_map h

/-! ## The pair of colons -/

theorem splitPair?_append {part : List Char} (h : ':' ∉ part) (rest : List Char) :
    splitPair? (part ++ rest) = (splitPair? rest).map fun (a, b) => (part ++ a, b) := by
  induction part with
  | nil => simp
  | cons c part ih =>
    rw [List.mem_cons, not_or] at h
    rw [List.cons_append, splitPair?, ih h.2, Option.map_map]
    · rfl
    · rintro rest' rfl
      exact absurd rfl h.1

/-- Pieces have no pair of colons between them. -/
theorem splitPair?_colons (pieces : List Nat) (rest : List Char) :
    splitPair? (colons pieces ++ rest) =
      (splitPair? rest).map fun (a, b) => (colons pieces ++ a, b) := by
  induction pieces with
  | nil => simp [colons]
  | cons n later ih =>
    cases later with
    | nil => exact splitPair?_append (notMem_hexPiece n).1 rest
    | cons m later =>
      -- the colon is followed by a digit
      obtain ⟨c, cs, hcons, hc⟩ := exists_cons_colons m later
      rw [colons, List.append_assoc, splitPair?_append (notMem_hexPiece n).1, List.cons_append,
        hcons, List.cons_append, splitPair?, ← List.cons_append, ← hcons, ih, Option.map_map,
        Option.map_map]
      · simp only [Function.comp_def, List.append_assoc, List.cons_append]
      · rintro rest' - ⟨⟩
        exact hc rfl

/-! ## The run of zeros -/

theorem eq_replicate_zeroRun (pieces : List Nat) :
    pieces = List.replicate (zeroRun pieces) 0 ++ pieces.drop (zeroRun pieces) := by
  have hzeros : pieces.takeWhile (· == 0) = List.replicate (zeroRun pieces) 0 :=
    List.eq_replicate_of_mem fun n hn => by simpa using List.mem_takeWhile_imp hn
  have hall := List.takeWhile_append_dropWhile (p := (· == 0)) (l := pieces)
  have hrest : pieces.drop (zeroRun pieces) = pieces.dropWhile (· == 0) :=
    (congrArg (List.drop (zeroRun pieces)) hall.symm).trans (List.drop_left' rfl)
  rw [hrest, ← hzeros, hall]

/-- **What is left out is a run of zeros.** -/
theorem longestZeros_eq_some {start length : Nat} (h : longestZeros pieces = some (start, length)) :
    2 ≤ length ∧
      pieces = pieces.take start ++ List.replicate length 0 ++ pieces.drop (start + length) := by
  have hfold : ∀ (runs : List (Nat × Nat)) (best : Nat × Nat),
      runs.foldl (fun best r => if best.2 < r.2 then r else best) best ∈ best :: runs := by
    intro runs
    induction runs with
    | nil => exact fun _ => List.mem_cons_self
    | cons r runs ih =>
      intro best
      rw [List.foldl_cons]
      rcases List.mem_cons.1 (ih (if best.2 < r.2 then r else best)) with hbest | hbest
      · rw [hbest]
        split
        · exact List.mem_cons_of_mem _ List.mem_cons_self
        · exact List.mem_cons_self
      · exact List.mem_cons_of_mem _ (List.mem_cons_of_mem _ hbest)
  rw [longestZeros] at h
  simp only [Option.ite_none_right_eq_some] at h
  obtain ⟨hlong, hbest⟩ := h
  have hmem := hfold ((List.range pieces.length).map fun i => (i, zeroRun (pieces.drop i))) (0, 0)
  rw [Option.some.inj hbest] at hlong hmem
  refine ⟨hlong, ?_⟩
  rcases List.mem_cons.1 hmem with hnone | hrun
  · obtain ⟨-, rfl⟩ := Prod.mk.inj hnone
    omega
  · obtain ⟨i, -, hi⟩ := List.mem_map.1 hrun
    obtain ⟨rfl, rfl⟩ := Prod.mk.inj hi
    have hzeros := eq_replicate_zeroRun (pieces.drop i)
    rw [List.drop_drop] at hzeros
    conv => lhs; rw [← List.take_append_drop i pieces, hzeros]
    rw [List.append_assoc]

/-! ## Addresses -/

theorem toList_ipv6Text (pieces : List Nat) :
    (ipv6Text pieces).toList = match longestZeros pieces with
      | none => colons pieces
      | some (start, length) =>
        colons (pieces.take start) ++ ':' :: ':' :: colons (pieces.drop (start + length)) := by
  rw [ipv6Text]
  cases longestZeros pieces with
  | none => exact toList_join_hexPiece pieces
  | some run =>
    simp only [String.toList_append, toList_join_hexPiece, List.append_assoc]
    rfl

/-- An address is written in hexadecimal digits and colons. -/
theorem mem_ipv6Text {c : Char} (h : c ∈ (ipv6Text pieces).toList) :
    c = ':' ∨ ∃ d < 16, c = Nat.digitChar d := by
  have hcolons : ∀ {l}, c ∈ colons l → c = ':' ∨ ∃ d < 16, c = Nat.digitChar d := fun hc =>
    (mem_colons hc).imp_right fun ⟨n, hn⟩ => exists_digit_of_mem_hexPiece hn
  rw [toList_ipv6Text] at h
  split at h
  · exact hcolons h
  · rcases List.mem_append.1 h with h | h
    · exact hcolons h
    · rcases List.mem_cons.1 h with h | h
      · exact .inl h
      · rcases List.mem_cons.1 h with h | h
        · exact .inl h
        · exact hcolons h

/-- **An address is read from its text.** -/
theorem ipv6?_ipv6Text (h : IsIpv6 pieces) : ipv6? (ipv6Text pieces).toList = some pieces := by
  rw [toList_ipv6Text]
  cases hzeros : longestZeros pieces with
  | none =>
    have hpair : splitPair? (colons pieces) = none := by
      have hnone := splitPair?_colons pieces []
      rwa [List.append_nil] at hnone
    obtain ⟨n, rest, rfl⟩ : ∃ n rest, pieces = n :: rest :=
      List.exists_cons_of_length_pos (by rw [h.length]; decide)
    simp only [ipv6?, hpair, splitAt_colons, ipv6Pieces?_map h.small, Option.bind_eq_bind,
      Option.bind_some, h.length, if_true]
  | some run =>
    obtain ⟨start, length⟩ := run
    obtain ⟨hlong, hpieces⟩ := longestZeros_eq_some hzeros
    simp only
    generalize pieces.take start = left at hpieces ⊢
    generalize pieces.drop (start + length) = right at hpieces ⊢
    subst hpieces
    have hlength := h.length
    simp only [List.length_append, List.length_replicate] at hlength
    have hleft : side? (colons left) = some left := side?_colons fun n hn =>
      h.small n (List.mem_append_left _ (List.mem_append_left _ hn))
    have hright : side? (colons right) = some right := side?_colons fun n hn =>
      h.small n (List.mem_append_right _ hn)
    have hpair : splitPair? (colons left ++ ':' :: ':' :: colons right) =
        some (colons left, colons right) := by
      rw [splitPair?_colons, splitPair?, Option.map_some]
      simp only [List.append_nil]
    have hdot : (colons left).contains '.' = false := by
      rw [List.contains_eq_mem, decide_eq_false_iff_not]
      intro hmem
      rcases mem_colons hmem with hc | ⟨n, hn⟩
      · cases hc
      · exact (notMem_hexPiece n).2 hn
    have hmissing : 8 - (left.length + right.length) = length := by omega
    have hroom : ¬ 8 ≤ left.length + right.length := by omega
    simp only [ipv6?, hpair, hdot, hleft, hright, Bool.false_eq_true, if_false,
      Option.bind_eq_bind, Option.bind_some, hmissing, if_neg hroom]

/-! ### What is read -/

theorem number?_lt {cs : List Char} {n : Nat} (h : number? 16 cs = some n) :
    n < 16 ^ cs.length := by
  have hdigit : ∀ {c d}, digit? 16 c = some d → d < 16 := by
    intro c d hd
    obtain ⟨d', -, hd'⟩ := Option.bind_eq_some_iff.1 hd
    split at hd'
    · rename_i hlt
      exact Option.some.inj hd' ▸ hlt
    · cases hd'
  have hfold : ∀ (cs : List Char) (ds : List Nat) (before : Nat), cs.mapM (digit? 16) = some ds →
      ds.foldl (fun n d => n * 16 + d) before < (before + 1) * 16 ^ cs.length := by
    intro cs
    induction cs with
    | nil =>
      rintro ds before ⟨⟩
      simp
    | cons c cs ih =>
      intro ds before hds
      simp only [List.mapM_cons, Option.bind_eq_bind, Option.bind_eq_some_iff, Option.pure_def,
        Option.some.injEq] at hds
      obtain ⟨d, hd, later, hlater, rfl⟩ := hds
      calc later.foldl (fun n d => n * 16 + d) (before * 16 + d)
          < (before * 16 + d + 1) * 16 ^ cs.length := ih later _ hlater
        _ ≤ (before + 1) * 16 * 16 ^ cs.length :=
          Nat.mul_le_mul_right _ (by have := hdigit hd; omega)
        _ = (before + 1) * 16 ^ (cs.length + 1) := by rw [Nat.mul_assoc, Nat.pow_succ']
  obtain ⟨ds, hds, rfl⟩ := Option.map_eq_some_iff.1 h
  have hbound := hfold cs ds 0 hds
  rwa [Nat.zero_add, Nat.one_mul] at hbound

/-- A piece of at most four digits has sixteen bits. -/
theorem number?_small {part : List Char} {n : Nat} (h : number? 16 part = some n)
    (hlong : ¬ 4 < part.length) : n < 0x10000 :=
  Nat.lt_of_lt_of_le (number?_lt h) (Nat.pow_le_pow_right (by decide) (Nat.le_of_not_lt hlong))

/-- Where all of a list is read, each entry is, and everything read comes from one. -/
theorem exists_of_mapM {α β : Type} {f : α → Option β} {as : List α} {bs : List β}
    (h : as.mapM f = some bs) :
    (∀ a ∈ as, ∃ b, f a = some b) ∧ ∀ b ∈ bs, ∃ a ∈ as, f a = some b := by
  induction as generalizing bs with
  | nil =>
    cases h
    exact ⟨nofun, nofun⟩
  | cons a as ih =>
    simp only [List.mapM_cons, Option.bind_eq_bind, Option.bind_eq_some_iff, Option.pure_def,
      Option.some.injEq] at h
    obtain ⟨b, hb, later, hlater, rfl⟩ := h
    obtain ⟨hread, hfrom⟩ := ih hlater
    refine ⟨List.forall_mem_cons.2 ⟨⟨b, hb⟩, hread⟩, List.forall_mem_cons.2
      ⟨⟨a, List.mem_cons_self, hb⟩, fun b' hb' => ?_⟩⟩
    obtain ⟨a', ha', hread'⟩ := hfrom b' hb'
    exact ⟨a', List.mem_cons_of_mem _ ha', hread'⟩

/-- The two pieces of an IPv4 address have sixteen bits. -/
theorem small_of_embeddedIpv4? {cs : List Char} (h : embeddedIpv4? cs = some pieces) :
    ∀ n ∈ pieces, n < 0x10000 := by
  simp only [embeddedIpv4?, Option.bind_eq_bind, Option.bind_eq_some_iff] at h
  obtain ⟨numbers, hnumbers, h⟩ := h
  have hbytes : ∀ n ∈ numbers, n ≤ 255 := by
    intro n hmem
    obtain ⟨part, -, hn⟩ := (exists_of_mapM hnumbers).2 n hmem
    simp only [Option.ite_none_left_eq_some, Option.ite_none_right_eq_some] at hn
    exact Option.some.inj hn.2.2.2 ▸ hn.2.2.1
  split at h
  · rename_i a b c d
    cases h
    simp only [List.forall_mem_cons] at hbytes ⊢
    obtain ⟨ha, hb, hc, hd, -⟩ := hbytes
    exact ⟨by omega, by omega, nofun⟩
  · cases h

theorem small_of_ipv6Pieces? {parts : List (List Char)} (h : ipv6Pieces? parts = some pieces) :
    ∀ n ∈ pieces, n < 0x10000 := by
  fun_induction ipv6Pieces? parts generalizing pieces with
  | case1 =>
    cases h
    nofun
  | case2 part hdot => exact small_of_embeddedIpv4? h
  | case3 part hdot hlong => cases h
  | case4 part hdot hlong =>
    obtain ⟨n, hn, rfl⟩ := Option.map_eq_some_iff.1 h
    simp only [Bool.or_eq_true, decide_eq_true_eq, not_or] at hlong
    exact List.forall_mem_singleton.2 (number?_small hn hlong.2)
  | case5 part rest hrest hlong => cases h
  | case6 part rest hrest hlong ih =>
    simp only [Option.bind_eq_bind, Option.bind_eq_some_iff] at h
    obtain ⟨n, hn, later, hlater, h⟩ := h
    cases h
    simp only [Bool.or_eq_true, decide_eq_true_eq, not_or] at hlong
    exact List.forall_mem_cons.2 ⟨number?_small hn hlong.2, ih hlater⟩

theorem small_of_side? {cs : List Char} (h : side? cs = some pieces) :
    ∀ n ∈ pieces, n < 0x10000 := by
  rw [side?] at h
  split at h
  · cases h
    nofun
  · exact small_of_ipv6Pieces? h

/-- **What is read is an address.** -/
theorem isIpv6_of_ipv6? {cs : List Char} (h : ipv6? cs = some pieces) : IsIpv6 pieces := by
  rw [ipv6?] at h
  split at h
  · obtain ⟨read, hread, h⟩ := Option.bind_eq_some_iff.1 h
    split at h
    · rename_i hlength
      cases h
      exact ⟨hlength, small_of_ipv6Pieces? hread⟩
    · cases h
  · simp only at h
    split at h
    · cases h
    · obtain ⟨left, hleft, h⟩ := Option.bind_eq_some_iff.1 h
      obtain ⟨right, hright, h⟩ := Option.bind_eq_some_iff.1 h
      simp only [Option.ite_none_left_eq_some] at h
      obtain ⟨hroom, h⟩ := h
      cases h
      refine ⟨?_, fun n hn => ?_⟩
      · simp only [List.length_append, List.length_replicate]
        omega
      · rcases List.mem_append.1 hn with hn | hn
        · rcases List.mem_append.1 hn with hn | hn
          · exact small_of_side? hleft n hn
          · rw [List.eq_of_mem_replicate hn]
            decide
        · exact small_of_side? hright n hn

/-! ### What addresses are spelled with -/

/-- A hexadecimal digit, a colon or a dot. -/
def inIpv6 (c : Char) : Bool := c == ':' || c == '.' || (Json.hexDigit? c).isSome

theorem inIpv6_of_number? {cs : List Char} {n : Nat} (h : number? 16 cs = some n) :
    ∀ c ∈ cs, inIpv6 c = true := by
  intro c hc
  obtain ⟨ds, hds, -⟩ := Option.map_eq_some_iff.1 h
  obtain ⟨d, hd⟩ := (exists_of_mapM hds).1 c hc
  obtain ⟨d', hd', -⟩ := Option.bind_eq_some_iff.1 hd
  rw [inIpv6, hd', Option.isSome_some, Bool.or_true]

theorem inIpv6_of_embeddedIpv4? {cs : List Char} (h : embeddedIpv4? cs = some pieces) :
    ∀ c ∈ cs, inIpv6 c = true := by
  simp only [embeddedIpv4?, Option.bind_eq_bind, Option.bind_eq_some_iff] at h
  obtain ⟨numbers, hnumbers, -⟩ := h
  intro c hc
  rcases Text.mem_splitAt '.' hc with rfl | ⟨part, hpart, hc⟩
  · rfl
  · obtain ⟨n, hn⟩ := (exists_of_mapM hnumbers).1 part hpart
    simp only [Option.ite_none_left_eq_some, Bool.or_eq_true, not_or, Bool.not_eq_true',
      Bool.not_eq_false, List.all_eq_true] at hn
    have hdigit := hn.1.2 c hc
    rw [Text.isDigit, Bool.and_eq_true, decide_eq_true_eq, decide_eq_true_eq] at hdigit
    rw [inIpv6, Json.hexDigit?, if_pos hdigit, Option.isSome_some, Bool.or_true]

theorem inIpv6_of_ipv6Pieces? {parts : List (List Char)} (h : ipv6Pieces? parts = some pieces) :
    ∀ part ∈ parts, ∀ c ∈ part, inIpv6 c = true := by
  fun_induction ipv6Pieces? parts generalizing pieces with
  | case1 => nofun
  | case2 part hdot => exact List.forall_mem_singleton.2 (inIpv6_of_embeddedIpv4? h)
  | case3 part hdot hlong => cases h
  | case4 part hdot hlong =>
    obtain ⟨n, hn, -⟩ := Option.map_eq_some_iff.1 h
    exact List.forall_mem_singleton.2 (inIpv6_of_number? hn)
  | case5 part rest hrest hlong => cases h
  | case6 part rest hrest hlong ih =>
    simp only [Option.bind_eq_bind, Option.bind_eq_some_iff] at h
    obtain ⟨n, hn, later, hlater, -⟩ := h
    exact List.forall_mem_cons.2 ⟨inIpv6_of_number? hn, ih hlater⟩

theorem eq_of_splitPair? {cs before after : List Char} (h : splitPair? cs = some (before, after)) :
    cs = before ++ ':' :: ':' :: after := by
  fun_induction splitPair? cs generalizing before with
  | case1 rest =>
    cases h
    rfl
  | case2 c rest hpair ih =>
    obtain ⟨⟨front, back⟩, hrest, hparts⟩ := Option.map_eq_some_iff.1 h
    obtain ⟨rfl, rfl⟩ := Prod.mk.inj hparts
    exact congrArg (c :: ·) (ih hrest)
  | case3 => cases h

/-- Only colons, dots and digits make up an address. -/
theorem inIpv6_of_ipv6? {cs : List Char} (h : ipv6? cs = some pieces) :
    ∀ c ∈ cs, inIpv6 c = true := by
  have hparts : ∀ {cs pieces}, ipv6Pieces? (Text.splitAt ':' cs) = some pieces →
      ∀ c ∈ cs, inIpv6 c = true := by
    intro cs pieces hread c hc
    rcases Text.mem_splitAt ':' hc with rfl | ⟨part, hpart, hc⟩
    · rfl
    · exact inIpv6_of_ipv6Pieces? hread part hpart c hc
  have hside : ∀ {cs pieces}, side? cs = some pieces → ∀ c ∈ cs, inIpv6 c = true := by
    intro cs pieces hread
    rw [side?] at hread
    split at hread
    · rename_i hempty
      rw [List.isEmpty_iff.1 hempty]
      nofun
    · exact hparts hread
  rw [ipv6?] at h
  split at h
  · obtain ⟨read, hread, -⟩ := Option.bind_eq_some_iff.1 h
    exact hparts hread
  · rename_i before after hpair
    simp only at h
    split at h
    · cases h
    · obtain ⟨left, hleft, h⟩ := Option.bind_eq_some_iff.1 h
      obtain ⟨right, hright, -⟩ := Option.bind_eq_some_iff.1 h
      rw [eq_of_splitPair? hpair, List.forall_mem_append, List.forall_mem_cons,
        List.forall_mem_cons]
      exact ⟨hside hleft, rfl, rfl, hside hright⟩

end Url

end VectorBridge
