import Mathlib.Algebra.Group.Nat.Defs
import VectorBridge.Uuid.Basic
/-!
# UUIDs in order and in text

UUIDs are ordered as numbers, and a UUID is read back from its text.
-/

namespace VectorBridge

namespace Uuid

/-! ## Order -/

theorem lt_def (a b : Uuid) : a < b ↔ a.bits.toNat < b.bits.toNat := Iff.rfl

instance : Std.Irrefl (α := Uuid) (· < ·) where
  irrefl a := Nat.lt_irrefl a.bits.toNat

instance : Trans (α := Uuid) (· < ·) (· < ·) (· < ·) where
  trans := Nat.lt_trans

instance : Std.Trichotomous (α := Uuid) (· < ·) where
  trichotomous a b hab hba := by
    rw [lt_def] at hab hba
    have hbits : a.bits = b.bits := BitVec.eq_of_toNat_eq (by omega)
    cases a
    cases b
    exact congrArg Uuid.mk hbits

/-! ## Text -/

theorem hexDigit?_digitChar : ∀ d < 16, Json.hexDigit? (Nat.digitChar d) = some d := by decide

theorem digitChar_ne : ∀ d < 16, Nat.digitChar d ≠ 'u' := by decide

theorem length_hexDigits (k n : Nat) : (hexDigits k n).length = k := by
  induction k generalizing n with
  | zero => rfl
  | succ k ih => rw [hexDigits, List.length_append, ih, List.length_singleton]

theorem mem_hexDigits {k n : Nat} {c : Char} (h : c ∈ hexDigits k n) :
    ∃ d < 16, c = Nat.digitChar d := by
  induction k generalizing n with
  | zero => cases h
  | succ k ih =>
    rw [hexDigits, List.mem_append, List.mem_singleton] at h
    rcases h with h | rfl
    · exact ih h
    · exact ⟨n % 16, Nat.mod_lt _ (by decide), rfl⟩

/-- The digits of a number read as its lowest digits. -/
theorem mapM_hexDigits (k n : Nat) :
    ∃ ds, (hexDigits k n).mapM Json.hexDigit? = some ds ∧
      ds.foldl (fun n d => n * 16 + d) 0 = n % 16 ^ k := by
  induction k generalizing n with
  | zero => exact ⟨[], rfl, by simp [Nat.mod_one]⟩
  | succ k ih =>
    obtain ⟨ds, hds, hfold⟩ := ih (n / 16)
    refine ⟨ds ++ [n % 16], ?_, ?_⟩
    · rw [hexDigits, List.mapM_append, hds]
      simp [hexDigit?_digitChar (n % 16) (Nat.mod_lt _ (by decide))]
    · rw [List.foldl_append, hfold, Nat.pow_succ, Nat.mul_comm (16 ^ k) 16, Nat.mod_mul]
      simp only [List.foldl_cons, List.foldl_nil]
      omega

/-- Digits of a UUID read as the UUID. -/
theorem ofSimple?_hexDigits (u : Uuid) : ofSimple? (hexDigits 32 u.bits.toNat) = some u := by
  obtain ⟨ds, hds, hfold⟩ := mapM_hexDigits 32 u.bits.toNat
  rw [ofSimple?, if_pos (length_hexDigits _ _), hds, Option.map_some, ofHex, hfold]
  have hlt : u.bits.toNat < 16 ^ 32 := u.bits.isLt
  rw [Nat.mod_eq_of_lt hlt]
  simp

/-- Groups of digits between hyphens read as the digits. -/
theorem ofHyphenated?_append {a b c d e : List Char} (ha : a.length = 8) (hb : b.length = 4)
    (hc : c.length = 4) (hd : d.length = 4) (he : e.length = 12) :
    ofHyphenated? (a ++ ['-'] ++ b ++ ['-'] ++ c ++ ['-'] ++ d ++ ['-'] ++ e) =
      ofSimple? (a ++ b ++ c ++ d ++ e) := by
  rw [ofHyphenated?, if_pos]
  · simp [List.drop_append, List.drop_of_length_le, ha, hb, hc, hd]
  · simp [ha, hb, hc, hd, he]

/-- **A UUID is read back from its text.** -/
theorem parse?_text (u : Uuid) : parse? u.text = some u := by
  have hdigits := ofSimple?_hexDigits u
  have hlen := length_hexDigits 32 u.bits.toNat
  have hchars : ∀ c ∈ hexDigits 32 u.bits.toNat, c ≠ 'u' := by
    intro c hc
    obtain ⟨d, hd, rfl⟩ := mem_hexDigits hc
    exact digitChar_ne d hd
  rw [parse?, text]
  generalize hexDigits 32 u.bits.toNat = ds at hdigits hlen hchars ⊢
  have hsplit : ds.take 8 ++ (ds.drop 8).take 4 ++ (ds.drop 12).take 4 ++ (ds.drop 16).take 4 ++
      ds.drop 20 = ds := by
    rw [← List.take_add, ← List.take_add, ← List.take_add, List.take_append_drop]
  have hhyphen := ofHyphenated?_append (a := ds.take 8) (b := (ds.drop 8).take 4)
    (c := (ds.drop 12).take 4) (d := (ds.drop 16).take 4) (e := ds.drop 20)
    (by simp [hlen]) (by simp [hlen]) (by simp [hlen]) (by simp [hlen]) (by simp [hlen])
  rw [hsplit, hdigits] at hhyphen
  -- the text begins with a digit, so it is no URN
  cases ds with
  | nil => cases hlen
  | cons c rest =>
    have hc : c ≠ 'u' := hchars c List.mem_cons_self
    rw [String.toList_ofList, hhyphen]
    have hrest : rest.length = 31 := Nat.succ.inj hlen
    simp [hrest, List.isPrefixOf, hc.symm]

end Uuid

end VectorBridge
