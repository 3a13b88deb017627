import VectorBridge.Url.Percent
/-!
# Reading percent encoding

Encoding characters of a text does not change the bytes it decodes to, as long as percent
signs and hexadecimal digits are left as they are. An escape is read as a byte, whether it was
written for one or was there before, so texts that are encoded alike need not be equal; but
they decode to the same bytes, and are equal where neither spells an escape. Decoding makes a
text shorter by two bytes for each escape, and only so.
-/

namespace VectorBridge

namespace Uuid

/-! ## The bytes of a text -/

theorem toList_loop (bs : ByteArray) (i : Nat) (before : List UInt8) :
    ByteArray.toList.loop bs i before = before.reverse ++ bs.data.toList.drop i := by
  fun_induction ByteArray.toList.loop bs i before with
  | case1 i before h ih =>
    have hi : i < bs.data.toList.length := by simpa using h
    rw [ih, List.drop_eq_getElem_cons hi]
    simp [ByteArray.get!, h]
  | case2 i before h =>
    rw [List.drop_eq_nil_of_le (by simpa using Nat.le_of_not_lt h), List.append_nil]

/-- The bytes of a text are those of its characters, one after the other. -/
theorem utf8_ofList (cs : List Char) :
    utf8 (String.ofList cs) = cs.flatMap String.utf8EncodeChar := by
  rw [utf8, String.toUTF8, String.toByteArray_ofList, List.utf8Encode, ByteArray.toList,
    toList_loop, List.toList_data_toByteArray]
  rfl

theorem toArray_utf8 (s : String) : (⟨(utf8 s).toArray⟩ : ByteArray) = s.toByteArray := by
  rw [utf8, String.toUTF8, ByteArray.toList, toList_loop]
  rfl

/-- The bytes of a text read as the text. -/
theorem fromUTF8?_utf8 (s : String) : String.fromUTF8? ⟨(utf8 s).toArray⟩ = some s := by
  rw [toArray_utf8, String.fromUTF8?, dif_pos s.isValidUTF8, String.fromUTF8]

/-- Only the bytes of a text read as it. -/
theorem eq_utf8_of_fromUTF8? {bs : List UInt8} {s : String}
    (h : String.fromUTF8? ⟨bs.toArray⟩ = some s) : bs = utf8 s := by
  unfold String.fromUTF8? at h
  split at h
  · have hbytes : (⟨bs.toArray⟩ : ByteArray) = s.toByteArray :=
      congrArg String.toByteArray (Option.some.inj h)
    rw [← toArray_utf8] at hbytes
    exact List.toArray_inj (ByteArray.mk.inj hbytes)
  · cases h

/-- A character of ASCII is its own byte. -/
theorem utf8EncodeChar_of_ascii {c : Char} (h : c.toNat < 128) :
    String.utf8EncodeChar c = [UInt8.ofNat c.toNat] := by
  have hle : c.val.toNat ≤ 127 := Nat.le_of_lt_succ h
  simp only [String.utf8EncodeChar, if_pos hle]
  rfl

/-- The byte of a character of ASCII is its code. -/
theorem toNat_byte {c : Char} (h : c.toNat < 128) : (UInt8.ofNat c.toNat).toNat = c.toNat :=
  Nat.mod_eq_of_lt (Nat.lt_trans h (by decide))

/-- All bytes of any other character are beyond ASCII. -/
theorem le_of_mem_utf8EncodeChar {c : Char} (h : 128 ≤ c.toNat) {b : UInt8}
    (hb : b ∈ String.utf8EncodeChar c) : 128 ≤ b.toNat := by
  have hgt : ¬ c.val.toNat ≤ 127 := Nat.not_le.2 h
  simp only [String.utf8EncodeChar, if_neg hgt] at hb
  split at hb
  · simp only [List.mem_cons, List.not_mem_nil, or_false] at hb
    rcases hb with rfl | rfl <;> simp only [UInt8.toNat_ofNat'] <;> omega
  · split at hb
    · simp only [List.mem_cons, List.not_mem_nil, or_false] at hb
      rcases hb with rfl | rfl | rfl <;> simp only [UInt8.toNat_ofNat'] <;> omega
    · simp only [List.mem_cons, List.not_mem_nil, or_false] at hb
      rcases hb with rfl | rfl | rfl | rfl <;> simp only [UInt8.toNat_ofNat'] <;> omega

theorem utf8EncodeChar_ne_nil (c : Char) : String.utf8EncodeChar c ≠ [] := by
  simp only [String.utf8EncodeChar]
  repeat' split
  all_goals exact List.cons_ne_nil _ _

/-- A byte of ASCII at the start of a text is its first character. -/
theorem exists_cons_of_bytes {cs : List Char} {b : UInt8} {bs : List UInt8}
    (h : cs.flatMap String.utf8EncodeChar = b :: bs) (hb : b.toNat < 128) :
    ∃ rest, cs = Char.ofNat b.toNat :: rest ∧ rest.flatMap String.utf8EncodeChar = bs := by
  cases cs with
  | nil => cases h
  | cons c rest =>
    rw [List.flatMap_cons] at h
    by_cases hc : c.toNat < 128
    · rw [utf8EncodeChar_of_ascii hc] at h
      obtain ⟨rfl, rfl⟩ := List.cons.inj h
      exact ⟨rest, by rw [toNat_byte hc, Char.ofNat_toNat], rfl⟩
    · obtain ⟨b', later, hbytes⟩ := List.exists_cons_of_ne_nil (utf8EncodeChar_ne_nil c)
      have hlow := le_of_mem_utf8EncodeChar (Nat.le_of_not_lt hc)
        (hbytes ▸ List.mem_cons_self (a := b'))
      rw [hbytes] at h
      obtain ⟨rfl, -⟩ := List.cons.inj h
      omega

end Uuid

namespace Url

open Json (hexDigit?)

/-! ## Escapes -/

/-- A text begins with a percent sign and two hexadecimal digits. -/
def startsEscape : List Char → Bool
  | '%' :: a :: b :: _ => (hexDigit? a).isSome && (hexDigit? b).isSome
  | _ => false

/-- A percent sign and two hexadecimal digits stand somewhere in a text. -/
def spellsEscape : List Char → Bool
  | [] => false
  | c :: cs => startsEscape (c :: cs) || spellsEscape cs

variable {c : Char} {cs cs' ds ds' : List Char}

theorem startsEscape_of_ne (hc : c ≠ '%') (cs : List Char) : startsEscape (c :: cs) = false := by
  rw [startsEscape]
  rintro _ _ _ ⟨⟩
  exact hc rfl

/-- What an escape consists of. -/
theorem exists_of_startsEscape (h : startsEscape (c :: cs) = true) :
    c = '%' ∧ ∃ a b rest, cs = a :: b :: rest ∧
      (hexDigit? a).isSome = true ∧ (hexDigit? b).isSome = true := by
  by_cases hc : c = '%'
  · subst hc
    match cs with
    | [] | [_] => cases h
    | a :: b :: rest =>
      obtain ⟨ha, hb⟩ := Bool.and_eq_true_iff.1 h
      exact ⟨rfl, a, b, rest, rfl, ha, hb⟩
  · rw [startsEscape_of_ne hc] at h
    cases h

/-- Hexadecimal digits are characters of ASCII. -/
theorem toNat_of_isHexDigit (h : (hexDigit? c).isSome = true) : c.toNat < 128 := by
  have hlast : ∀ {bound : Char}, c ≤ bound → c.toNat ≤ bound.toNat := fun h => h
  rw [hexDigit?] at h
  split at h
  · rename_i hfigure
    exact Nat.lt_of_le_of_lt (hlast hfigure.2) (by decide)
  · split at h
    · rename_i hletter
      exact Nat.lt_of_le_of_lt (hlast hletter.2) (by decide)
    · split at h
      · rename_i hletter
        exact Nat.lt_of_le_of_lt (hlast hletter.2) (by decide)
      · cases h

/-! ## Decoding -/

/-- The bytes of a text, encoded ones decoded. -/
def decoded (cs : List Char) : List UInt8 := decodeBytes (cs.flatMap String.utf8EncodeChar)

/-- Any byte but that of the percent sign stands for itself. -/
theorem decodeBytes_cons {b : UInt8} (hb : b ≠ 0x25) (bs : List UInt8) :
    decodeBytes (b :: bs) = b :: decodeBytes bs := by
  rw [decodeBytes]
  rintro _ _ _ rfl
  exact absurd rfl hb

theorem decodeBytes_append {bs : List UInt8} (hbs : 0x25 ∉ bs) (later : List UInt8) :
    decodeBytes (bs ++ later) = bs ++ decodeBytes later := by
  induction bs with
  | nil => rfl
  | cons b bs ih =>
    rw [List.mem_cons, not_or] at hbs
    rw [List.cons_append, decodeBytes_cons (Ne.symm hbs.1), ih hbs.2, List.cons_append]

/-- The byte of the percent sign is in no other character. -/
theorem not_mem_utf8EncodeChar (hc : c ≠ '%') : 0x25 ∉ String.utf8EncodeChar c := by
  intro hmem
  by_cases hascii : c.toNat < 128
  · rw [Uuid.utf8EncodeChar_of_ascii hascii, List.mem_singleton] at hmem
    have hcode := Uuid.toNat_byte hascii
    rw [← hmem] at hcode
    exact hc (Char.toNat_inj.1 hcode.symm)
  · exact absurd (Uuid.le_of_mem_utf8EncodeChar (Nat.le_of_not_lt hascii) hmem) (by decide)

/-- A percent sign that starts no escape stands for itself. -/
theorem decodeBytes_percent (h : startsEscape ('%' :: cs) = false) :
    decodeBytes (0x25 :: cs.flatMap String.utf8EncodeChar) = 0x25 :: decoded cs := by
  have hcodes : ∀ n < 256, (hexDigit? (Char.ofNat n)).isSome = true → n < 128 := by
    decide +kernel
  have hascii (b : UInt8) : (hexDigit? (Char.ofNat b.toNat)).isSome = true → b.toNat < 128 :=
    hcodes b.toNat b.toNat_lt
  rw [decoded]
  match hbytes : cs.flatMap String.utf8EncodeChar with
  | [] | [_] => simp [decodeBytes]
  | a :: b :: bs =>
    -- bytes that are digits are characters of ASCII, so the text has them too
    rw [decodeBytes]
    split
    · rename_i x y hx hy
      obtain ⟨rest, rfl, hrest⟩ :=
        Uuid.exists_cons_of_bytes hbytes (hascii a (Option.isSome_of_eq_some hx))
      obtain ⟨rest', rfl, -⟩ :=
        Uuid.exists_cons_of_bytes hrest (hascii b (Option.isSome_of_eq_some hy))
      rw [startsEscape, hx, hy] at h
      cases h
    · rfl

/-- **A character that starts no escape stands for itself.** -/
theorem decoded_cons (h : startsEscape (c :: cs) = false) :
    decoded (c :: cs) = String.utf8EncodeChar c ++ decoded cs := by
  rw [decoded, List.flatMap_cons]
  by_cases hc : c = '%'
  · subst hc
    rw [Uuid.utf8EncodeChar_of_ascii (by decide)]
    exact decodeBytes_percent h
  · exact decodeBytes_append (not_mem_utf8EncodeChar hc) _

/-- **An escape is read as a byte.** -/
theorem decoded_escape {a b : Char} {x y : Nat} (ha : hexDigit? a = some x)
    (hb : hexDigit? b = some y) (cs : List Char) :
    decoded ('%' :: a :: b :: cs) = UInt8.ofNat (x * 16 + y) :: decoded cs := by
  have hread : ∀ {d : Char} {n : Nat}, hexDigit? d = some n → ∃ byte : UInt8,
      String.utf8EncodeChar d = [byte] ∧ hexDigit? (Char.ofNat byte.toNat) = some n := by
    intro d n hd
    have hascii := toNat_of_isHexDigit (Option.isSome_of_eq_some hd)
    exact ⟨_, Uuid.utf8EncodeChar_of_ascii hascii,
      by rw [Uuid.toNat_byte hascii, Char.ofNat_toNat, hd]⟩
  obtain ⟨high, hhigh, hx⟩ := hread ha
  obtain ⟨low, hlow, hy⟩ := hread hb
  rw [decoded, List.flatMap_cons, List.flatMap_cons, List.flatMap_cons, hhigh, hlow,
    Uuid.utf8EncodeChar_of_ascii (by decide)]
  show decodeBytes (0x25 :: high :: low :: cs.flatMap String.utf8EncodeChar) = _
  rw [decodeBytes, hx, hy, decoded]

/-- A text begins with an escape, or with a character that stands for itself. -/
theorem decoded_cases (c : Char) (cs : List Char) :
    (∃ a b x y rest, c :: cs = '%' :: a :: b :: rest ∧ hexDigit? a = some x ∧
      hexDigit? b = some y ∧ decoded (c :: cs) = UInt8.ofNat (x * 16 + y) :: decoded rest) ∨
    startsEscape (c :: cs) = false ∧ decoded (c :: cs) = String.utf8EncodeChar c ++ decoded cs := by
  by_cases hstarts : startsEscape (c :: cs) = true
  · obtain ⟨rfl, a, b, rest, rfl, ha, hb⟩ := exists_of_startsEscape hstarts
    obtain ⟨x, hx⟩ := Option.isSome_iff_exists.1 ha
    obtain ⟨y, hy⟩ := Option.isSome_iff_exists.1 hb
    exact .inl ⟨a, b, x, y, rest, rfl, hx, hy, decoded_escape hx hy rest⟩
  · have hplain := Bool.eq_false_iff.2 hstarts
    exact .inr ⟨hplain, decoded_cons hplain⟩

theorem decoded_nil : decoded [] = [] := by
  rw [decoded, List.flatMap_nil, decodeBytes]

theorem decoded_cons_ne_nil (c : Char) (cs : List Char) : decoded (c :: cs) ≠ [] := by
  rcases decoded_cases c cs with ⟨a, b, x, y, rest, -, -, -, hread⟩ | ⟨-, hread⟩
  · rw [hread]
    exact List.cons_ne_nil _ _
  · rw [hread]
    exact List.append_ne_nil_of_left_ne_nil (Uuid.utf8EncodeChar_ne_nil c) _

/-- Encoded bytes are read back. -/
theorem decoded_encodeBytes (bs : List UInt8) (cs : List Char) :
    decoded (bs.flatMap encodeByte ++ cs) = bs ++ decoded cs := by
  have hdigits : ∀ n < 16, hexDigit? (hexDigit n) = some n := by decide
  induction bs with
  | nil => rfl
  | cons b bs ih =>
    have hsize := b.toNat_lt
    have hvalue : b.toNat / 16 * 16 + b.toNat % 16 = b.toNat := by omega
    have hescape := decoded_escape (hdigits (b.toNat / 16) (by omega))
      (hdigits (b.toNat % 16) (by omega)) (bs.flatMap encodeByte ++ cs)
    rw [hvalue, UInt8.ofNat_toNat, ih] at hescape
    exact hescape

theorem decode?_eq_some_iff {s t : String} :
    decode? s = some t ↔ decoded s.toList = Uuid.utf8 t := by
  have hbytes : decode? s = String.fromUTF8? ⟨(decoded s.toList).toArray⟩ := by
    rw [decode?, decoded, ← Uuid.utf8_ofList, String.ofList_toList]
  rw [hbytes]
  exact ⟨Uuid.eq_utf8_of_fromUTF8?, fun h => h ▸ Uuid.fromUTF8?_utf8 t⟩

/-- A text without escapes stands for itself. -/
theorem decoded_of_unescaped (h : spellsEscape cs = false) :
    decoded cs = cs.flatMap String.utf8EncodeChar := by
  induction cs with
  | nil => exact decoded_nil
  | cons c cs ih =>
    obtain ⟨hstarts, hrest⟩ := Bool.or_eq_false_iff.1 h
    rw [decoded_cons hstarts, ih hrest, List.flatMap_cons]

/-- Texts without escapes that stand for the same are equal. -/
theorem eq_of_decoded (h : decoded cs = decoded cs') (hcs : spellsEscape cs = false)
    (hcs' : spellsEscape cs' = false) : cs = cs' := by
  rw [decoded_of_unescaped hcs, decoded_of_unescaped hcs', ← Uuid.utf8_ofList,
    ← Uuid.utf8_ofList] at h
  have hread := congrArg (fun bs : List UInt8 => String.fromUTF8? ⟨bs.toArray⟩) h
  simp only [Uuid.fromUTF8?_utf8] at hread
  exact String.ofList_injective (Option.some.inj hread)

/-! ## Encoding -/

/-- A character that escapes consist of. -/
def inEscape (c : Char) : Bool := c == '%' || (hexDigit? c).isSome

theorem toNat_of_inEscape (h : inEscape c = true) : c.toNat < 128 := by
  rcases Bool.or_eq_true_iff.1 h with hc | hc
  · rw [beq_iff_eq.1 hc]
    decide
  · exact toNat_of_isHexDigit hc

/-- Neither user information nor queries encode what escapes consist of. -/
theorem not_encodes_of_inEscape (h : inEscape c = true) :
    inUserinfo c = false ∧ inQuery true c = false := by
  have hcodes : ∀ n < 128, inEscape (Char.ofNat n) = true →
      inUserinfo (Char.ofNat n) = false ∧ inQuery true (Char.ofNat n) = false := by decide +kernel
  have hcode := hcodes c.toNat (toNat_of_inEscape h)
  rw [Char.ofNat_toNat] at hcode
  exact hcode h

theorem eq_false_of_inEscape {p : Char → Bool} (h : ∀ c, p c = true → inEscape c = false)
    (hc : inEscape c = true) : p c = false :=
  Bool.eq_false_iff.2 fun hp => Bool.eq_false_iff.1 (h c hp) hc

theorem inEscape_of_inUserinfo (h : inUserinfo c = true) : inEscape c = false :=
  Bool.eq_false_iff.2 fun hc => Bool.eq_false_iff.1 (not_encodes_of_inEscape hc).1 h

theorem inEscape_of_inPath (h : inPath c = true) : inEscape c = false :=
  inEscape_of_inUserinfo (by rw [inUserinfo, h, Bool.true_or])

theorem inEscape_of_inFragment (h : inFragment c = true) : inEscape c = false :=
  inEscape_of_inPath (by rw [inPath, h, Bool.true_or])

theorem inEscape_of_isControl (h : isControl c = true) : inEscape c = false :=
  inEscape_of_inFragment (by rw [inFragment, h, Bool.true_or])

theorem inEscape_of_inQuery {special : Bool} (h : inQuery special c = true) :
    inEscape c = false := by
  refine Bool.eq_false_iff.2 fun hc => ?_
  have hquery := (not_encodes_of_inEscape hc).2
  cases special with
  | true => exact Bool.eq_false_iff.1 hquery h
  | false =>
    rw [inQuery, Bool.false_and, Bool.or_false] at h
    rw [inQuery, h, Bool.true_or] at hquery
    cases hquery

/-- What an encoder writes is part of an escape, or stood in the text and is left alone. -/
theorem mem_encode {encodes : Char → Bool} (h : c ∈ (encode encodes cs).toList) :
    inEscape c = true ∨ c ∈ cs ∧ encodes c = false := by
  have hdigits : ∀ n < 16, inEscape (hexDigit n) = true := by decide
  rw [encode, String.toList_ofList] at h
  obtain ⟨d, hd, hc⟩ := List.mem_flatMap.1 h
  rw [encodeChar] at hc
  split at hc
  · obtain ⟨b, -, hb⟩ := List.mem_flatMap.1 hc
    have hsize := b.toNat_lt
    simp only [encodeByte, List.mem_cons, List.not_mem_nil, or_false] at hb
    rcases hb with rfl | rfl | rfl
    · exact .inl (by decide)
    · exact .inl (hdigits _ (by omega))
    · exact .inl (hdigits _ (by omega))
  · rename_i hplain
    rw [List.mem_singleton.1 hc]
    exact .inr ⟨hd, Bool.eq_false_iff.2 hplain⟩

/-- Nothing is written only of nothing. -/
theorem encode_eq_empty_iff {encodes : Char → Bool} : encode encodes cs = "" ↔ cs = [] := by
  have hfilled : ∀ c, encodeChar encodes c ≠ [] := by
    intro c
    rw [encodeChar]
    split
    · obtain ⟨b, later, hbytes⟩ := List.exists_cons_of_ne_nil (Uuid.utf8EncodeChar_ne_nil c)
      rw [Uuid.utf8_ofList, List.flatMap_singleton, hbytes]
      exact List.cons_ne_nil _ _
    · exact List.cons_ne_nil _ _
  rw [encode, String.ofList_eq_empty_iff, List.flatMap_eq_nil_iff]
  cases cs with
  | nil => simp
  | cons c cs => simp [hfilled c]

/-- A text that an encoder leaves alone. -/
def Kept (encodes : Char → Bool) (cs : List Char) : Prop := ∀ c ∈ cs, encodes c = false

theorem encode_of_kept {encodes : Char → Bool} (h : Kept encodes cs) :
    encode encodes cs = String.ofList cs := by
  have hself : cs.flatMap (encodeChar encodes) = cs := by
    induction cs with
    | nil => rfl
    | cons c cs ih =>
      obtain ⟨hc, hrest⟩ := List.forall_mem_cons.1 h
      rw [List.flatMap_cons, ih hrest, encodeChar, hc]
      rfl
  rw [encode, hself]

theorem kept_encode {encodes : Char → Bool} (h : ∀ c, encodes c = true → inEscape c = false)
    (cs : List Char) : Kept encodes (encode encodes cs).toList := fun _ hc =>
  (mem_encode hc).elim (eq_false_of_inEscape h) And.right

/-- A text in which some characters are encoded, and none that escapes consist of. -/
inductive Written : List Char → List Char → Prop
  | nil : Written [] []
  | kept (c : Char) {cs ds : List Char} (rest : Written cs ds) : Written (c :: cs) (c :: ds)
  | encoded {c : Char} (plain : inEscape c = false) {cs ds : List Char} (rest : Written cs ds) :
      Written (c :: cs) ((String.utf8EncodeChar c).flatMap encodeByte ++ ds)

namespace Written

theorem append (h : Written cs ds) (h' : Written cs' ds') : Written (cs ++ cs') (ds ++ ds') := by
  induction h with
  | nil => exact h'
  | kept c _ ih => exact .kept c ih
  | encoded plain _ ih =>
    rw [List.append_assoc]
    exact .encoded plain ih

/-- What an encoder writes that leaves escapes as they are. -/
theorem of_encode {encodes : Char → Bool} (h : ∀ c, encodes c = true → inEscape c = false)
    (cs : List Char) : Written cs (cs.flatMap (encodeChar encodes)) := by
  induction cs with
  | nil => exact .nil
  | cons c cs ih =>
    rw [List.flatMap_cons, encodeChar]
    split
    · rename_i hc
      rw [Uuid.utf8_ofList, List.flatMap_singleton]
      exact .encoded (h c hc) ih
    · exact .kept c ih

/-- A digit that was written was in the text. -/
theorem exists_kept {a : Char} (h : Written cs (a :: ds)) (ha : (hexDigit? a).isSome = true) :
    ∃ rest, cs = a :: rest ∧ Written rest ds := by
  generalize hds : a :: ds = written at h
  cases h with
  | nil => cases hds
  | kept c rest =>
    obtain ⟨rfl, rfl⟩ := List.cons.inj hds
    exact ⟨_, rfl, rest⟩
  | @encoded c plain cs ds rest =>
    obtain ⟨b, later, hbytes⟩ := List.exists_cons_of_ne_nil (Uuid.utf8EncodeChar_ne_nil c)
    rw [hbytes, List.flatMap_cons, encodeByte] at hds
    obtain ⟨rfl, -⟩ := List.cons.inj hds
    exact absurd ha (by decide)

/-- A digit of the text stays where it is. -/
theorem exists_of_digit {a : Char} (h : Written (a :: cs) ds) (ha : (hexDigit? a).isSome = true) :
    ∃ rest, ds = a :: rest ∧ Written cs rest := by
  cases h with
  | kept _ rest => exact ⟨_, rfl, rest⟩
  | encoded plain rest =>
    rw [inEscape, ha, Bool.or_true] at plain
    cases plain

/-- Encoding starts no escape behind a percent sign. -/
theorem startsEscape_percent (h : Written cs ds) (hcs : startsEscape ('%' :: cs) = false) :
    startsEscape ('%' :: ds) = false := by
  refine Bool.eq_false_iff.2 fun hstarts => ?_
  obtain ⟨-, a, b, ds, rfl, ha, hb⟩ := exists_of_startsEscape hstarts
  obtain ⟨rest, rfl, hrest⟩ := h.exists_kept ha
  obtain ⟨rest', rfl, -⟩ := hrest.exists_kept hb
  rw [startsEscape, ha, hb] at hcs
  cases hcs

/-- **Encoding does not change what a text stands for.** -/
theorem decoded_eq (h : Written cs ds) : decoded ds = decoded cs := by
  -- an escape that was there before takes three characters at once
  induction hlength : cs.length using Nat.strongRecOn generalizing cs ds with
  | _ n ih =>
    cases h with
    | nil => rfl
    | @kept c cs ds rest =>
      by_cases hstarts : startsEscape (c :: cs) = true
      · obtain ⟨rfl, a, b, cs, rfl, ha, hb⟩ := exists_of_startsEscape hstarts
        obtain ⟨_, rfl, hbehind⟩ := rest.exists_of_digit ha
        obtain ⟨ds, rfl, hafter⟩ := hbehind.exists_of_digit hb
        obtain ⟨x, hx⟩ := Option.isSome_iff_exists.1 ha
        obtain ⟨y, hy⟩ := Option.isSome_iff_exists.1 hb
        have hrest : decoded ds = decoded cs := ih cs.length (by simp at hlength; omega) hafter rfl
        rw [decoded_escape hx hy, decoded_escape hx hy, hrest]
      · have hcs : startsEscape (c :: cs) = false := Bool.eq_false_iff.2 hstarts
        have hds : startsEscape (c :: ds) = false := by
          by_cases hc : c = '%'
          · subst hc
            exact rest.startsEscape_percent hcs
          · exact startsEscape_of_ne hc ds
        have hrest : decoded ds = decoded cs := ih cs.length (by simp at hlength; omega) rest rfl
        rw [decoded_cons hcs, decoded_cons hds, hrest]
    | @encoded c plain cs ds rest =>
      have hc : c ≠ '%' := by
        rintro rfl
        exact absurd plain (by decide)
      have hrest : decoded ds = decoded cs := ih cs.length (by simp at hlength; omega) rest rfl
      rw [decoded_encodeBytes, decoded_cons (startsEscape_of_ne hc cs), hrest]

end Written

theorem decoded_encode {encodes : Char → Bool} (h : ∀ c, encodes c = true → inEscape c = false)
    (cs : List Char) : decoded (encode encodes cs).toList = decoded cs := by
  rw [encode, String.toList_ofList]
  exact (Written.of_encode h cs).decoded_eq

/-! ## Lengths -/

/-- The bytes of a text, counted. -/
def size (cs : List Char) : Nat := (cs.flatMap String.utf8EncodeChar).length

theorem size_cons (c : Char) (cs : List Char) :
    size (c :: cs) = (String.utf8EncodeChar c).length + size cs := by
  rw [size, List.flatMap_cons, List.length_append, size]

theorem size_append (cs cs' : List Char) : size (cs ++ cs') = size cs + size cs' := by
  rw [size, List.flatMap_append, List.length_append, size, size]

theorem length_utf8EncodeChar_pos (c : Char) : 0 < (String.utf8EncodeChar c).length :=
  List.length_pos_iff.2 (Uuid.utf8EncodeChar_ne_nil c)

/-- A text from which something was left out is shorter. -/
theorem eq_or_size_lt_of_sublist (h : cs.Sublist cs') : cs = cs' ∨ size cs < size cs' := by
  induction h with
  | slnil => exact .inl rfl
  | @cons cs cs' c _ ih =>
    have hpos := length_utf8EncodeChar_pos c
    rw [size_cons]
    rcases ih with rfl | ih
    · exact .inr (by omega)
    · exact .inr (by omega)
  | @cons_cons cs cs' c _ ih =>
    rw [size_cons, size_cons]
    rcases ih with rfl | ih
    · exact .inl rfl
    · exact .inr (by omega)

/-- How often a percent sign and two hexadecimal digits stand in a text. -/
def escapes : List Char → Nat
  | [] => 0
  | c :: cs => (if startsEscape (c :: cs) then 1 else 0) + escapes cs

theorem escapes_cons (c : Char) (cs : List Char) :
    escapes (c :: cs) = (if startsEscape (c :: cs) then 1 else 0) + escapes cs := rfl

theorem escapes_eq_zero_iff : escapes cs = 0 ↔ spellsEscape cs = false := by
  induction cs with
  | nil => exact ⟨fun _ => rfl, fun _ => rfl⟩
  | cons c cs ih =>
    rw [escapes_cons, spellsEscape, Bool.or_eq_false_iff, ← ih]
    cases startsEscape (c :: cs) <;> simp

/-- **Decoding shortens a text by two bytes for every escape.** -/
theorem length_decoded (cs : List Char) : (decoded cs).length + 2 * escapes cs = size cs := by
  have hself : ∀ {c : Char}, (hexDigit? c).isSome = true →
      (String.utf8EncodeChar c).length = 1 ∧ ∀ cs, startsEscape (c :: cs) = false := by
    intro c hc
    refine ⟨by rw [Uuid.utf8EncodeChar_of_ascii (toNat_of_isHexDigit hc)]; rfl, fun cs => ?_⟩
    refine startsEscape_of_ne ?_ cs
    rintro rfl
    exact absurd hc (by decide)
  induction hlength : cs.length using Nat.strongRecOn generalizing cs with
  | _ n ih =>
    cases cs with
    | nil =>
      rw [decoded_nil]
      rfl
    | cons c cs =>
      rcases decoded_cases c cs with ⟨a, b, x, y, rest, hcs, hx, hy, hread⟩ | ⟨hplain, hread⟩
      · obtain ⟨rfl, rfl⟩ := List.cons.inj hcs
        have hstarts : startsEscape ('%' :: a :: b :: rest) = true := by
          rw [startsEscape, hx, hy]
          rfl
        have ha := hself (Option.isSome_of_eq_some hx)
        have hb := hself (Option.isSome_of_eq_some hy)
        have hpercent : (String.utf8EncodeChar '%').length = 1 := by decide
        have hrest := ih rest.length (by simp at hlength; omega) rest rfl
        rw [hread, List.length_cons, escapes_cons, escapes_cons, escapes_cons, hstarts, ha.2, hb.2,
          size_cons, size_cons, size_cons, ha.1, hb.1, hpercent]
        simp only [if_true, Bool.false_eq_true, if_false]
        omega
      · have hrest := ih cs.length (by simp at hlength; omega) cs rfl
        rw [hread, List.length_append, escapes_cons, hplain, size_cons]
        simp only [Bool.false_eq_true, if_false]
        omega

theorem startsEscape_of_not_inEscape (hc : inEscape c = false) (cs : List Char) :
    startsEscape (c :: cs) = false :=
  startsEscape_of_ne (by rintro rfl; exact absurd hc (by decide)) cs

/-- What no escape consists of parts the escapes before it from those behind it. -/
theorem escapes_append_cons (hc : inEscape c = false) (cs cs' : List Char) :
    escapes (cs ++ c :: cs') = escapes cs + escapes cs' := by
  have hdigit : (hexDigit? c).isSome = false := (Bool.or_eq_false_iff.1 hc).2
  induction cs with
  | nil =>
    rw [List.nil_append, escapes_cons, startsEscape_of_not_inEscape hc]
    rfl
  | cons d cs ih =>
    have hstarts : startsEscape (d :: (cs ++ c :: cs')) = startsEscape (d :: cs) := by
      by_cases hd : d = '%'
      · subst hd
        match cs with
        | [] => cases cs' <;> simp [startsEscape, hdigit]
        | [a] => simp [startsEscape, hdigit]
        | a :: b :: rest => rfl
      · rw [startsEscape_of_ne hd, startsEscape_of_ne hd]
    rw [List.cons_append, escapes_cons, escapes_cons, ih, hstarts, Nat.add_assoc]

/-- Leaving out what no escape consists of leaves the escapes there. -/
theorem escapes_filter {p : Char → Bool} (hp : ∀ c, p c = false → inEscape c = false)
    (cs : List Char) : escapes cs ≤ escapes (cs.filter p) := by
  have hkept : ∀ {c}, inEscape c = true → p c = true := by
    intro c hc
    cases hpc : p c with
    | true => rfl
    | false =>
      rw [hp c hpc] at hc
      cases hc
  induction cs with
  | nil => exact Nat.le_refl 0
  | cons c cs ih =>
    by_cases hstarts : startsEscape (c :: cs) = true
    · obtain ⟨rfl, a, b, rest, rfl, ha, hb⟩ := exists_of_startsEscape hstarts
      have hdigit : ∀ {d}, (hexDigit? d).isSome = true → p d = true := fun hd =>
        hkept (by rw [inEscape, hd, Bool.or_true])
      have hthere : startsEscape ('%' :: (a :: b :: rest).filter p) = true := by
        rw [List.filter_cons_of_pos (hdigit ha), List.filter_cons_of_pos (hdigit hb)]
        exact Bool.and_eq_true_iff.2 ⟨ha, hb⟩
      rw [List.filter_cons_of_pos (hkept (by decide)), escapes_cons, escapes_cons '%', hstarts,
        hthere]
      exact Nat.add_le_add_left ih _
    · rw [escapes_cons, if_neg hstarts, Nat.zero_add]
      refine Nat.le_trans ih ?_
      by_cases hc : p c = true
      · rw [List.filter_cons_of_pos hc, escapes_cons]
        exact Nat.le_add_left _ _
      · exact Nat.le_of_eq (congrArg escapes (List.filter_cons_of_neg hc)).symm

/-- A text is longer than what comes before a character that is in no escape. -/
theorem length_decoded_append_cons (hc : inEscape c = false) (cs cs' : List Char) :
    (decoded (cs ++ c :: cs')).length =
      (decoded cs).length + (String.utf8EncodeChar c).length + (decoded cs').length := by
  have hwhole := length_decoded (cs ++ c :: cs')
  have hbefore := length_decoded cs
  have hbehind := length_decoded cs'
  rw [escapes_append_cons hc, size_append, size_cons] at hwhole
  omega

/-- A text from which something was left out that is in no escape is shorter. -/
theorem eq_or_length_decoded_filter_lt {p : Char → Bool}
    (hp : ∀ c, p c = false → inEscape c = false) (cs : List Char) :
    cs.filter p = cs ∨ (decoded (cs.filter p)).length < (decoded cs).length := by
  have hfilter := length_decoded (cs.filter p)
  have hwhole := length_decoded cs
  have hescapes := escapes_filter hp cs
  exact (eq_or_size_lt_of_sublist List.filter_sublist).imp_right fun hsize => by omega

/-- What is encoded decodes to itself exactly if it spells no escape. -/
theorem decode?_encode_iff {encodes : Char → Bool}
    (h : ∀ c, encodes c = true → inEscape c = false) {s : String} :
    decode? (encode encodes s.toList) = some s ↔ spellsEscape s.toList = false := by
  have hutf8 : Uuid.utf8 s = s.toList.flatMap String.utf8EncodeChar := by
    rw [← Uuid.utf8_ofList, String.ofList_toList]
  rw [decode?_eq_some_iff, decoded_encode h, hutf8]
  refine ⟨fun hread => ?_, decoded_of_unescaped⟩
  have hlength := length_decoded s.toList
  rw [hread, ← size] at hlength
  exact escapes_eq_zero_iff.1 (by omega)

end Url

end VectorBridge
