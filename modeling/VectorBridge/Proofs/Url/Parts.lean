import VectorBridge.Proofs.Number.Text
import VectorBridge.Proofs.Url.Address
import VectorBridge.Proofs.Url.Resolving
/-!
# Parts of a URL and their texts

Each part of a URL is read up to a character that ends it, and what is read is encoded so that
it is free of the characters that would end it when it is written. For every part of a URL
whose scheme is not special, this file says what a part that may be written looks like, that
it is read from its text, and that what is read may be written. A segment of a path has to be
no dots in addition, and encoding does not make it dots (`dots?_eq_some_iff`).
-/

namespace VectorBridge

namespace Text

variable {separator : Char} {cs later : List Char}

/-! ## Cutting -/

theorem cut_of_notMem (h : separator ∉ cs) : cut separator cs = (cs, none) := by
  have hcut := cut_append_of_notMem h []
  rwa [List.append_nil, cut, List.append_nil] at hcut

theorem cut_append (h : separator ∉ cs) (later : List Char) :
    cut separator (cs ++ separator :: later) = (cs, some later) := by
  rw [cut_append_of_notMem h, cut, if_pos rfl, List.append_nil]

theorem cutLast_of_notMem (h : separator ∉ cs) : cutLast separator cs = none := by
  induction cs with
  | nil => rfl
  | cons c cs ih =>
    rw [List.mem_cons, not_or] at h
    rw [cutLast, ih h.2]
    exact if_neg (Ne.symm h.1)

theorem cutLast_append (h : separator ∉ later) (before : List Char) :
    cutLast separator (before ++ separator :: later) = some (before, later) := by
  induction before with
  | nil =>
    rw [List.nil_append, cutLast, cutLast_of_notMem h]
    exact if_pos rfl
  | cons c before ih => rw [List.cons_append, cutLast, ih]

/-- What was cut is the text, with the separator between. -/
theorem eq_of_cutLast {before : List Char} (h : cutLast separator cs = some (before, later)) :
    cs = before ++ separator :: later := by
  induction cs generalizing before with
  | nil => cases h
  | cons c cs ih =>
    rw [cutLast] at h
    split at h
    · rename_i hrest
      cases h
      exact congrArg (c :: ·) (ih hrest)
    · split at h
      · rename_i hc
        cases h
        rw [hc]
        rfl
      · cases h

end Text

namespace Url

variable {scheme : String} {cs rest : List Char}

/-! ## Query and fragment -/

theorem cutTail_of_notMem (special : Bool) (hmark : '#' ∉ cs) (hasks : '?' ∉ cs) :
    cutTail special cs = ⟨cs, none, none⟩ := by
  simp only [cutTail, Text.cut_of_notMem hmark, Text.cut_of_notMem hasks, Option.map_none]

/-- A text without query and fragment has neither mark in it. -/
theorem notMem_of_cutTail {special : Bool} (hquery : (cutTail special cs).query = none)
    (hfragment : (cutTail special cs).fragment = none) : '#' ∉ cs ∧ '?' ∉ cs := by
  have hnone : ∀ {mark cs}, (Text.cut mark cs).2 = none →
      (Text.cut mark cs).1 = cs ∧ mark ∉ cs := by
    intro mark cs h
    have hcut := Text.eq_of_cut mark cs
    rw [h, Option.elim_none, List.append_nil] at hcut
    exact ⟨hcut.1.symm, hcut.1.symm ▸ hcut.2⟩
  obtain ⟨hself, hmark⟩ := hnone (Option.map_eq_none_iff.1 hfragment)
  have hasks := (hnone (Option.map_eq_none_iff.1 hquery)).2
  exact ⟨hmark, hself ▸ hasks⟩

/-! ## Schemes -/

/-- A scheme as it is written, of a kind that is not special. -/
structure IsPlainScheme (scheme : String) : Prop where
  opened : ∃ c ∈ scheme.toList.head?, Text.isLetter c = true
  chars : ∀ c ∈ scheme.toList, isSchemeChar c = true
  lower : Text.lower scheme = scheme
  plain : isSpecial scheme = false

theorem splitScheme?_append (h : IsPlainScheme scheme) (rest : List Char) :
    splitScheme? (scheme.toList ++ ':' :: rest) = some (scheme, rest) := by
  have hcolon : isSchemeChar ':' = false := by decide
  have htake : (scheme.toList ++ ':' :: rest).takeWhile isSchemeChar = scheme.toList := by
    rw [List.takeWhile_append_of_pos h.chars, List.takeWhile_cons_of_neg (by simp [hcolon]),
      List.append_nil]
  have hdrop : (scheme.toList ++ ':' :: rest).dropWhile isSchemeChar = ':' :: rest := by
    rw [List.dropWhile_append_of_pos h.chars, List.dropWhile_cons_of_neg (by simp [hcolon])]
  obtain ⟨c, hc, hletter⟩ := h.opened
  obtain ⟨cs, hcs⟩ := List.head?_eq_some_iff.1 hc
  rw [hcs, List.cons_append] at htake hdrop ⊢
  simp only [splitScheme?, hletter, Bool.not_true, Bool.false_eq_true, if_false, hdrop, htake,
    ← hcs, String.ofList_toList, h.lower]

/-- The lower case of a character of a scheme is one too, and stays as it is. -/
theorem lowerChar_schemeChar {c : Char} (h : isSchemeChar c = true) :
    isSchemeChar (Text.lowerChar c) = true ∧
      Text.lowerChar (Text.lowerChar c) = Text.lowerChar c ∧
      Text.isLetter (Text.lowerChar c) = Text.isLetter c := by
  have hcodes : ∀ n < 128, 'A' ≤ Char.ofNat n ∧ Char.ofNat n ≤ 'Z' →
      isSchemeChar (Text.lowerChar (Char.ofNat n)) = true ∧
      Text.lowerChar (Text.lowerChar (Char.ofNat n)) = Text.lowerChar (Char.ofNat n) ∧
      Text.isLetter (Text.lowerChar (Char.ofNat n)) = Text.isLetter (Char.ofNat n) := by
    decide +kernel
  by_cases hupper : 'A' ≤ c ∧ c ≤ 'Z'
  · have hle : c.toNat ≤ 'Z'.toNat := hupper.2
    have hcode := hcodes c.toNat (Nat.lt_of_le_of_lt hle (by decide))
    rw [Char.ofNat_toNat] at hcode
    exact hcode hupper
  · have hself : Text.lowerChar c = c := if_neg hupper
    simp only [hself, h, and_self]

/-- What is read before a colon is a scheme as it is written. -/
theorem isPlainScheme_of_splitScheme? (h : splitScheme? cs = some (scheme, rest))
    (hplain : isSpecial scheme = false) : IsPlainScheme scheme := by
  cases cs with
  | nil => cases h
  | cons c cs =>
    rw [splitScheme?] at h
    split at h
    · cases h
    · rename_i hletter
      split at h
      · cases h
        have hchars : ∀ d ∈ (c :: cs).takeWhile isSchemeChar, isSchemeChar d = true :=
          fun d => List.mem_takeWhile_imp
        have hopened : isSchemeChar c = true := by
          rw [Bool.not_eq_true', Bool.not_eq_false] at hletter
          simp only [isSchemeChar, hletter, Bool.true_or]
        refine ⟨?_, ?_, ?_, hplain⟩
        · rw [Bool.not_eq_true', Bool.not_eq_false] at hletter
          refine ⟨Text.lowerChar c, ?_, ?_⟩
          · rw [Text.lower, String.toList_ofList, String.toList_ofList,
              List.takeWhile_cons_of_pos hopened]
            rfl
          · rw [(lowerChar_schemeChar hopened).2.2, hletter]
        · intro d hd
          rw [Text.lower, String.toList_ofList, String.toList_ofList] at hd
          obtain ⟨e, he, rfl⟩ := List.mem_map.1 hd
          exact (lowerChar_schemeChar (hchars e he)).1
        · simp only [Text.lower, String.toList_ofList, List.map_map]
          exact congrArg String.ofList (List.map_congr_left fun d hd =>
            (lowerChar_schemeChar (hchars d hd)).2.1)
      · cases h

/-! ## Hosts -/

/-- A host as it is written: a name without characters that end it or are encoded, or an
address. -/
def Host.IsWritten : Host → Prop
  | .name s => ∀ c ∈ s.toList, isForbidden c = false ∧ isControl c = false
  | .ipv4 _ => False
  | .ipv6 pieces => IsIpv6 pieces

variable {host : Host}

theorem Host.toList_text_ipv6 (pieces : List Nat) :
    (ipv6 pieces).text.toList = '[' :: ((ipv6Text pieces).toList ++ [']']) := by
  simp only [text, String.toList_append]
  rfl

theorem Host.plain?_text (h : host.IsWritten) : plain? host.text.toList = .ok host := by
  cases host with
  | name s =>
    have hchars : ∀ c ∈ s.toList, isForbidden c = false ∧ isControl c = false := h
    have hallowed : s.toList.any isForbidden = false :=
      List.any_eq_false.2 fun c hc => Bool.eq_false_iff.1 (hchars c hc).1
    have hopened : ∀ rest, s.toList ≠ '[' :: rest := by
      intro rest hs
      have hbracket := (hchars '[' (hs ▸ List.mem_cons_self)).1
      exact absurd hbracket (by decide)
    rw [text, plain?]
    · rw [hallowed, encode_of_kept fun c hc => (hchars c hc).2, String.ofList_toList]
      rfl
    · exact hopened
  | ipv4 n => exact h.elim
  | ipv6 pieces =>
    simp only [toList_text_ipv6, plain?, bracketed?, List.getLast?_concat, List.dropLast_concat,
      ipv6?_ipv6Text h]

/-- Hosts do not end in what escapes consist of. -/
theorem inEscape_of_isForbidden {c : Char} (h : isForbidden c = true) : inEscape c = false := by
  have hcodes : ∀ n < 128, isForbidden (Char.ofNat n) = true → inEscape (Char.ofNat n) = false := by
    decide +kernel
  refine Bool.eq_false_iff.2 fun hescape => ?_
  have hcode := hcodes c.toNat (toNat_of_inEscape hescape)
  rw [Char.ofNat_toNat] at hcode
  exact Bool.eq_false_iff.1 (hcode h) hescape

theorem Host.isWritten_of_plain? (h : plain? cs = .ok host) : host.IsWritten := by
  unfold plain? at h
  split at h
  · unfold bracketed? at h
    split at h
    · rename_i hpieces
      cases h
      exact isIpv6_of_ipv6? hpieces
    · cases h
  · split at h
    · cases h
    · rename_i hallowed
      cases h
      intro c hc
      rcases mem_encode hc with hescape | ⟨hmem, hcontrol⟩
      · exact ⟨eq_false_of_inEscape (fun _ => inEscape_of_isForbidden) hescape,
          eq_false_of_inEscape (fun _ => inEscape_of_isControl) hescape⟩
      · exact ⟨Bool.eq_false_iff.2 fun hforbidden =>
          hallowed (List.any_eq_true.2 ⟨c, hmem, hforbidden⟩), hcontrol⟩

theorem Host.isEmpty_iff (h : host.IsWritten) : host.isEmpty = true ↔ host.text.toList = [] := by
  cases host with
  | name s => exact String.isEmpty_iff.trans String.toList_eq_nil_iff.symm
  | ipv4 n => exact h.elim
  | ipv6 pieces => simp [isEmpty, toList_text_ipv6]

/-! ## Where a host ends -/

/-- A colon ends the host unless it stands in brackets. -/
theorem cutHost_append {inside : Bool}
    (h : ∀ c ∈ cs, (c = ':' → inside = true) ∧ c ≠ '[' ∧ c ≠ ']') (rest : List Char) :
    cutHost inside (cs ++ rest) = (cs ++ (cutHost inside rest).1, (cutHost inside rest).2) := by
  induction cs with
  | nil => rfl
  | cons c cs ih =>
    obtain ⟨⟨hcolon, hopen, hclose⟩, hrest⟩ := List.forall_mem_cons.1 h
    have hgoes : ¬ (c = ':' ∧ inside = false) := by
      rintro ⟨hc, hinside⟩
      rw [hcolon hc] at hinside
      cases hinside
    rw [List.cons_append, cutHost, if_neg hgoes]
    simp only [if_neg hopen, if_neg hclose, ih hrest, List.cons_append]

/-- A host ends at a colon, or with the text. -/
theorem cutHost_behind (inside : Bool) (cs : List Char) :
    (cutHost inside cs).2 = [] ∨ ∃ rest, (cutHost inside cs).2 = ':' :: rest := by
  induction cs generalizing inside with
  | nil => exact .inl rfl
  | cons c cs ih =>
    rw [cutHost]
    split
    · rename_i hc
      exact .inr ⟨cs, by rw [hc.1]⟩
    · exact ih _

theorem Host.cutHost_text (h : host.IsWritten) (hrest : ∀ c ∈ rest.head?, c = ':') :
    cutHost false (host.text.toList ++ rest) = (host.text.toList, rest) := by
  have hend : cutHost false rest = ([], rest) := by
    cases rest with
    | nil => rfl
    | cons c rest =>
      rw [cutHost, if_pos ⟨hrest c rfl, rfl⟩]
  cases host with
  | name s =>
    have hchars : ∀ c ∈ s.toList, (c = ':' → false = true) ∧ c ≠ '[' ∧ c ≠ ']' := by
      intro c hc
      have hallowed : isForbidden c = false := (h c hc).1
      refine ⟨?_, ?_, ?_⟩ <;> rintro rfl <;> exact absurd hallowed (by decide)
    rw [text, cutHost_append hchars, hend, List.append_nil]
  | ipv4 n => exact h.elim
  | ipv6 pieces =>
    have hdigits : ∀ d < 16, Nat.digitChar d ≠ '[' ∧ Nat.digitChar d ≠ ']' := by decide
    have hchars : ∀ c ∈ (ipv6Text pieces).toList, (c = ':' → true = true) ∧ c ≠ '[' ∧ c ≠ ']' := by
      intro c hc
      refine ⟨fun _ => rfl, ?_⟩
      rcases mem_ipv6Text hc with rfl | ⟨d, hd, rfl⟩
      · decide
      · exact hdigits d hd
    have hclosed : cutHost true (']' :: rest) = ([']'], rest) := by
      rw [cutHost, if_neg (by decide)]
      exact congrArg (fun ends : List Char × List Char => (']' :: ends.1, ends.2)) hend
    rw [toList_text_ipv6, List.cons_append, List.append_assoc, List.cons_append, List.nil_append,
      cutHost, if_neg (by decide)]
    simp only [if_true, cutHost_append hchars, hclosed]

/-! ## Paths -/

/-- A dot that is read was written as one, or as its escape. -/
theorem dot_of_decoded {bs : List UInt8} (h : decoded cs = 0x2E :: bs) :
    (∃ rest, cs = '.' :: rest ∧ decoded rest = bs) ∨
      ∃ e rest, cs = '%' :: '2' :: e :: rest ∧ (e = 'e' ∨ e = 'E') ∧ decoded rest = bs := by
  have hdigits : ∀ m < 128, ∀ x, Json.hexDigit? (Char.ofNat m) = some x →
      x < 16 ∧ (x = 2 → Char.ofNat m = '2') ∧
        (x = 14 → Char.ofNat m = 'e' ∨ Char.ofNat m = 'E') := by
    decide +kernel
  have hdigit : ∀ {d x}, Json.hexDigit? d = some x →
      x < 16 ∧ (x = 2 → d = '2') ∧ (x = 14 → d = 'e' ∨ d = 'E') := by
    intro d x hd
    have hcode := hdigits d.toNat (toNat_of_isHexDigit (Option.isSome_of_eq_some hd)) x
    rw [Char.ofNat_toNat] at hcode
    exact hcode hd
  cases cs with
  | nil =>
    rw [decoded_nil] at h
    cases h
  | cons c cs =>
    rcases decoded_cases c cs with ⟨a, b, x, y, rest, hcs, hx, hy, hread⟩ | ⟨-, hread⟩
    · obtain ⟨hx16, ha, -⟩ := hdigit hx
      obtain ⟨hy16, -, hb⟩ := hdigit hy
      obtain ⟨hbyte, hrest⟩ := List.cons.inj (hread.symm.trans h)
      have hvalue : (x * 16 + y) % 256 = 46 := congrArg UInt8.toNat hbyte
      obtain rfl := ha (by omega)
      exact .inr ⟨b, rest, hcs, hb (by omega), hrest⟩
    · rw [hread] at h
      by_cases hascii : c.toNat < 128
      · rw [Uuid.utf8EncodeChar_of_ascii hascii] at h
        obtain ⟨hbyte, hrest⟩ := List.cons.inj h
        have hvalue := congrArg UInt8.toNat hbyte
        rw [Uuid.toNat_byte hascii] at hvalue
        obtain rfl : c = '.' := Char.toNat_inj.1 hvalue
        exact .inl ⟨cs, rfl, hrest⟩
      · obtain ⟨b, later, hbytes⟩ := List.exists_cons_of_ne_nil (Uuid.utf8EncodeChar_ne_nil c)
        have hlow := Uuid.le_of_mem_utf8EncodeChar (Nat.le_of_not_lt hascii)
          (hbytes ▸ List.mem_cons_self (a := b))
        rw [hbytes] at h
        obtain ⟨rfl, -⟩ := List.cons.inj h
        exact absurd hlow (by decide)

/-- **A segment is dots exactly if it decodes to them.** -/
theorem dots?_eq_some_iff {n : Nat} : dots? cs = some n ↔ decoded cs = List.replicate n 0x2E := by
  have hescape : ∀ e, e = 'e' ∨ e = 'E' → Json.hexDigit? e = some 14 := by
    rintro e (rfl | rfl) <;> decide
  have hdot : ∀ rest, decoded ('.' :: rest) = 0x2E :: decoded rest := fun rest =>
    decoded_cons (startsEscape_of_ne (by decide) rest)
  constructor
  · intro h
    fun_induction dots? cs generalizing n with
    | case1 =>
      cases h
      exact decoded_nil
    | case2 rest ih =>
      obtain ⟨m, hm, rfl⟩ := Option.map_eq_some_iff.1 h
      rw [hdot, ih hm, List.replicate_succ]
    | case3 e rest he ih =>
      obtain ⟨m, hm, rfl⟩ := Option.map_eq_some_iff.1 h
      rw [decoded_escape (x := 2) (by decide) (hescape e he), ih hm, List.replicate_succ]
      rfl
    | case4 => cases h
    | case5 => cases h
  · intro h
    induction n generalizing cs with
    | zero =>
      cases cs with
      | nil => rfl
      | cons c cs => exact absurd h (decoded_cons_ne_nil c cs)
    | succ n ih =>
      rw [List.replicate_succ] at h
      rcases dot_of_decoded h with ⟨rest, rfl, hrest⟩ | ⟨e, rest, rfl, he, hrest⟩
      · rw [dots?, ih hrest]
        rfl
      · rw [dots?, if_pos he, ih hrest]
        rfl

/-- A name as it is written: no character of it is encoded or ends it, and it is not dots. -/
structure IsWrittenName (name : String) : Prop where
  kept : Kept inPath name.toList
  unparted : '/' ∉ name.toList
  isName : IsName name.toList

theorem splitSlashes_of_notMem (h : '/' ∉ cs) : splitSlashes false cs = [cs] := by
  induction cs with
  | nil => rfl
  | cons c cs ih =>
    rw [List.mem_cons, not_or] at h
    have hslash : isSlash false c = false := by
      simpa [isSlash] using Ne.symm h.1
    rw [splitSlashes, hslash, ih h.2]
    rfl

/-- No slash is left in a segment. -/
theorem notMem_of_mem_splitSlashes {segment : List Char} (h : segment ∈ splitSlashes false cs) :
    '/' ∉ segment := by
  induction cs generalizing segment with
  | nil =>
    rw [List.mem_singleton.1 h]
    exact List.not_mem_nil
  | cons c cs ih =>
    rw [splitSlashes] at h
    split at h
    · rcases List.mem_cons.1 h with rfl | h
      · exact List.not_mem_nil
      · exact ih h
    · rename_i hslash
      obtain ⟨part, parts, hparts⟩ := List.exists_cons_of_ne_nil (splitSlashes_ne_nil false cs)
      rw [hparts] at h ih
      rcases List.mem_cons.1 h with rfl | h
      · rw [List.mem_cons, not_or]
        refine ⟨?_, ih List.mem_cons_self⟩
        rintro rfl
        exact hslash (by decide)
      · exact ih (List.mem_cons_of_mem _ h)

/-- The names of a path are read from its text. -/
theorem segmentsOf_text {names : List String} (h : ∀ name ∈ names, IsWrittenName name) :
    segmentsOf false (Path.segments names).text.toList = names := by
  rw [toList_text_segments]
  cases names with
  | nil => rfl
  | cons name names =>
    have hsplit : splitSlashes false
        (name.toList ++ names.flatMap fun name => '/' :: name.toList) =
          (name :: names).map String.toList := by
      induction names generalizing name with
      | nil =>
        rw [List.flatMap_nil, List.append_nil]
        exact splitSlashes_of_notMem (h name List.mem_cons_self).unparted
      | cons later names ih =>
        have hrest := List.forall_mem_cons.1 h
        rw [List.flatMap_cons, List.cons_append, splitSlashes_append, ih later hrest.2,
          splitSlashes_of_notMem hrest.1.unparted]
        rfl
    have hnames : ∀ segment ∈ (name :: names).map String.toList, IsName segment :=
      List.forall_mem_map.2 fun name hname => (h name hname).isName
    have hkept : ∀ name' ∈ name :: names, encode inPath name'.toList = name' := by
      intro name' hname
      rw [encode_of_kept (h name' hname).kept, String.ofList_toList]
    rw [List.flatMap_cons, List.cons_append, segmentsOf, if_pos (by decide), hsplit,
      follow_eq hnames, List.nil_append, List.map_map]
    exact (List.map_congr_left hkept).trans (List.map_id _)

theorem isWrittenName_empty : IsWrittenName "" :=
  ⟨fun _ => nofun, List.not_mem_nil, by decide⟩

/-- A segment that is a name is written as one. -/
theorem isWrittenName_encode {segment : List Char} (hslash : '/' ∉ segment)
    (hname : IsName segment) : IsWrittenName (encode inPath segment) where
  kept := kept_encode (fun _ => inEscape_of_inPath) segment
  unparted := fun hmem => (mem_encode hmem).elim (absurd · (by decide)) (hslash ·.1)
  isName := by
    have hread := decoded_encode (fun _ => inEscape_of_inPath) segment
    rw [IsName, ne_eq, ne_eq, dots?_eq_some_iff, dots?_eq_some_iff] at hname ⊢
    rwa [hread]

/-- What is followed is fit to be written. -/
theorem isWrittenName_of_mem_follow {names : List String} {segments : List (List Char)}
    (hnames : ∀ name ∈ names, IsWrittenName name)
    (hsegments : ∀ segment ∈ segments, '/' ∉ segment) :
    ∀ name ∈ follow names segments, IsWrittenName name := by
  have hconcat : ∀ {names : List String} {name}, (∀ name ∈ names, IsWrittenName name) →
      IsWrittenName name → ∀ name' ∈ names ++ [name], IsWrittenName name' := fun hnames hname =>
    List.forall_mem_append.2 ⟨hnames, List.forall_mem_singleton.2 hname⟩
  have hupward : ∀ {names : List String}, (∀ name ∈ names, IsWrittenName name) →
      ∀ name ∈ upward names, IsWrittenName name := by
    intro names hnames name hname
    rw [upward] at hname
    split at hname
    · exact hnames name hname
    · exact hnames name (List.mem_of_mem_dropLast hname)
  induction segments generalizing names with
  | nil => exact hnames
  | cons segment segments ih =>
    obtain ⟨hslash, hrest⟩ := List.forall_mem_cons.1 hsegments
    rw [follow]
    split
    · refine ih ?_ hrest
      split
      · exact hconcat hnames isWrittenName_empty
      · exact hnames
    · refine ih ?_ hrest
      split
      · exact hconcat (hupward hnames) isWrittenName_empty
      · exact hupward hnames
    · rename_i hone htwo
      exact ih (hconcat hnames (isWrittenName_encode hslash ⟨hone, htwo⟩)) hrest

/-! ## What ends a part -/

section

variable {c : Char}

theorem of_inFragment (h : inFragment c = false) : 0x20 < c.toNat := by
  simp only [inFragment, isControl, Bool.or_eq_false_iff, decide_eq_false_iff_not, not_lt] at h
  have hspace : c.toNat ≠ 0x20 := by
    intro hc
    obtain rfl : c = ' ' := Char.toNat_inj.1 hc
    exact absurd h.2 (by decide)
  omega

theorem of_inPath (h : inPath c = false) : 0x20 < c.toNat ∧ c ≠ '#' ∧ c ≠ '?' := by
  rw [inPath, Bool.or_eq_false_iff] at h
  refine ⟨of_inFragment h.1, ?_, ?_⟩ <;> rintro rfl <;> exact absurd h.2 (by decide)

theorem of_inUserinfo (h : inUserinfo c = false) :
    (0x20 < c.toNat ∧ c ≠ '#' ∧ c ≠ '?') ∧ c ≠ '/' ∧ c ≠ ':' ∧ c ≠ '@' := by
  rw [inUserinfo, Bool.or_eq_false_iff] at h
  refine ⟨of_inPath h.1, ?_, ?_, ?_⟩ <;> rintro rfl <;> exact absurd h.2 (by decide)

theorem of_inQuery (h : inQuery false c = false) : 0x20 < c.toNat ∧ c ≠ '#' := by
  simp only [inQuery, isControl, Bool.or_eq_false_iff, decide_eq_false_iff_not, not_lt] at h
  have hspace : c.toNat ≠ 0x20 := by
    intro hc
    obtain rfl : c = ' ' := Char.toNat_inj.1 hc
    exact absurd h.1.2 (by decide)
  refine ⟨by omega, ?_⟩
  rintro rfl
  exact absurd h.1.2 (by decide)

end

/-! ## Hosts with their ports -/

/-- A port as it is written, behind its colon. -/
def placedPort (port : Option Nat) : List Char := port.elim [] fun n => ':' :: (toString n).toList

/-- No character of a port ends it, or what is before it. -/
theorem of_mem_placedPort {port : Option Nat} {c : Char} (hc : c ∈ placedPort port) :
    (0x20 < c.toNat ∧ c ≠ '#' ∧ c ≠ '?') ∧ c ≠ '/' ∧ c ≠ '@' := by
  cases port with
  | none => cases hc
  | some n =>
    rcases List.mem_cons.1 hc with rfl | hc
    · decide
    · have hdigit := Text.isDigit_of_mem_toString hc
      rw [Text.isDigit, Bool.and_eq_true, decide_eq_true_eq, decide_eq_true_eq] at hdigit
      have hlow : '0'.toNat ≤ c.toNat := hdigit.1
      refine ⟨⟨Nat.lt_of_lt_of_le (by decide) hlow, ?_, ?_⟩, ?_, ?_⟩ <;>
        rintro rfl <;> exact absurd hdigit (by decide)

/-- No character of a host and a port ends them. -/
theorem of_mem_located (h : host.IsWritten) {port : Option Nat} {c : Char}
    (hc : c ∈ host.text.toList ++ placedPort port) :
    (0x20 < c.toNat ∧ c ≠ '#' ∧ c ≠ '?') ∧ c ≠ '/' ∧ c ≠ '@' := by
  rcases List.mem_append.1 hc with hc | hc
  · cases host with
    | name s =>
      obtain ⟨hallowed, hcontrol⟩ : isForbidden c = false ∧ isControl c = false := h c hc
      have hne : ∀ d, isForbidden d = true → c ≠ d := by
        rintro d hd rfl
        rw [hallowed] at hd
        cases hd
      have hspace : c.toNat ≠ 0x20 := fun heq => hne ' ' (by decide) (Char.toNat_inj.1 heq)
      simp only [isControl, Bool.or_eq_false_iff, decide_eq_false_iff_not, not_lt] at hcontrol
      exact ⟨⟨by omega, hne '#' (by decide), hne '?' (by decide)⟩, hne '/' (by decide),
        hne '@' (by decide)⟩
    | ipv4 n => exact h.elim
    | ipv6 pieces =>
      have hfigure : ∀ d < 16, (0x20 < (Nat.digitChar d).toNat ∧ Nat.digitChar d ≠ '#' ∧
          Nat.digitChar d ≠ '?') ∧ Nat.digitChar d ≠ '/' ∧ Nat.digitChar d ≠ '@' := by decide
      rw [Host.toList_text_ipv6, List.mem_cons, List.mem_append, List.mem_singleton] at hc
      rcases hc with rfl | hc | rfl
      · decide
      · rcases mem_ipv6Text hc with rfl | ⟨d, hd, rfl⟩
        · decide
        · exact hfigure d hd
      · decide
  · exact of_mem_placedPort hc

theorem port?_text {n : Nat} (h : n ≤ 65535) : port? (toString n).toList = .ok (some n, []) := by
  have hdigits : ∀ c ∈ (toString n).toList, Text.isDigit c = true := fun c =>
    Text.isDigit_of_mem_toString
  have hne : (toString n).toList.isEmpty = false :=
    List.isEmpty_eq_false_iff.2 (Text.toString_toList_ne_nil n)
  have hbound : ¬ 65535 < n := Nat.not_lt.2 h
  simp only [port?, List.takeWhile_eq_self_iff.2 hdigits, List.dropWhile_eq_nil_iff.2 hdigits, hne,
    Bool.false_eq_true, if_false, Text.natOfDigits_toString, Option.any_some, decide_eq_true_eq,
    if_neg hbound]

theorem defaultPort?_of_plain (hscheme : isSpecial scheme = false) :
    defaultPort? scheme = none := by
  rw [isSpecial, Bool.or_eq_false_iff] at hscheme
  exact Option.not_isSome_iff_eq_none.1 (Bool.eq_false_iff.1 hscheme.2)

/-- Host and port are read from what was written of them. -/
theorem hostAndPort?_text (hscheme : isSpecial scheme = false) (h : host.IsWritten)
    {port : Option Nat} (hport : ∀ n ∈ port, n ≤ 65535)
    (hempty : host.text.toList = [] → port = none) :
    hostAndPort? scheme (host.text.toList ++ placedPort port) = .ok (host, port, []) := by
  have hcolon : ∀ c ∈ (placedPort port).head?, c = ':' := by
    cases port with
    | none => nofun
    | some n =>
      rintro c ⟨⟩
      rfl
  rw [hostAndPort?, Host.cutHost_text h hcolon]
  cases port with
  | none =>
    simp only [placedPort, Option.elim_none, hscheme, List.isEmpty_nil, Bool.not_true,
      Bool.or_false, Bool.and_false, Bool.false_eq_true, if_false, Host.plain?_text h]
    rfl
  | some n =>
    have hhost : host.text.toList.isEmpty = false :=
      List.isEmpty_eq_false_iff.2 fun hnil => Option.some_ne_none n (hempty hnil)
    simp only [placedPort, Option.elim_some, hhost, Bool.false_and, Bool.false_eq_true, if_false,
      hscheme, Host.plain?_text h]
    show (port? (toString n).toList >>= _) = _
    rw [port?_text (hport n rfl)]
    simp [defaultPort?_of_plain hscheme]

/-- What follows a port is nothing, or begins with a backslash. -/
theorem port?_cases {port : Option Nat} (h : port? cs = .ok (port, rest)) :
    (∀ n ∈ port, n ≤ 65535) ∧ rest = cs.dropWhile Text.isDigit ∧ ∀ c ∈ rest.head?, c = '\\' := by
  have hbound : ∀ {port : Option Nat}, ¬ port.any (65535 < ·) = true → ∀ n ∈ port, n ≤ 65535 := by
    rintro _ hany n rfl
    exact Nat.not_lt.1 (of_decide_eq_false (Bool.eq_false_iff.2 hany))
  unfold port? at h
  simp only at h
  generalize (if (cs.takeWhile Text.isDigit).isEmpty = true then none
    else some (Text.natOfDigits (cs.takeWhile Text.isDigit))) = read at h
  split at h
  · rename_i hnil
    split at h
    · cases h
    · rename_i hsmall
      cases h
      exact ⟨hbound hsmall, hnil.symm, fun _ hc => by cases hc⟩
  · rename_i c behind hcons
    split at h
    · cases h
    · rename_i hsmall
      cases h
      rw [Bool.or_eq_true, not_or, decide_eq_true_eq, not_not] at hsmall
      refine ⟨hbound hsmall.1, hcons.symm, ?_⟩
      rintro d ⟨⟩
      exact hsmall.2

/-- A host of no characters is read from none. -/
theorem Host.eq_nil_of_plain? (h : plain? cs = .ok host) (hempty : host.text.toList = []) :
    cs = [] := by
  unfold plain? at h
  split at h
  · unfold bracketed? at h
    split at h
    · cases h
      rw [toList_text_ipv6] at hempty
      cases hempty
    · cases h
  · split at h
    · cases h
    · cases h
      exact encode_eq_empty_iff.1 (String.toList_eq_nil_iff.1 hempty)

/-- A host is read up to where it ends, and a port behind it if there is a colon. -/
theorem hostAndPort?_cases (hscheme : isSpecial scheme = false) {port : Option Nat}
    (h : hostAndPort? scheme cs = .ok (host, port, rest)) :
    Host.plain? (cutHost false cs).1 = .ok host ∧
      ((cutHost false cs).2 = [] ∧ port = none ∧ rest = [] ∨
        (cutHost false cs).1 ≠ [] ∧
          ∃ figures, (cutHost false cs).2 = ':' :: figures ∧ port? figures = .ok (port, rest)) := by
  have hbehind := cutHost_behind false cs
  unfold hostAndPort? at h
  generalize cutHost false cs = parts at h hbehind ⊢
  obtain ⟨text, behind⟩ := parts
  simp only [hscheme, Bool.false_or, Bool.false_eq_true, if_false] at h hbehind ⊢
  split at h
  · cases h
  · rename_i hthere
    cases hread : Host.plain? text with
    | error e =>
      rw [hread] at h
      cases h
    | ok read =>
      rw [hread] at h
      rcases hbehind with rfl | ⟨figures, rfl⟩
      · cases h
        exact ⟨rfl, .inl ⟨rfl, rfl, rfl⟩⟩
      · cases hport : port? figures with
        | error e =>
          simp only [bind, Except.bind, hport] at h
          cases h
        | ok found =>
          obtain ⟨port', rest'⟩ := found
          have hown : (if port' = none then none else port') = port' := by
            split
            · rename_i hnone
              exact hnone.symm
            · rfl
          simp only [bind, Except.bind, hport, defaultPort?_of_plain hscheme, hown] at h
          cases h
          have hne : text ≠ [] := by
            rintro rfl
            exact hthere rfl
          exact ⟨rfl, .inr ⟨hne, figures, rfl, hport⟩⟩

/-- Host and port are fit to be written, and only a host that is there has a port. -/
theorem of_hostAndPort? (hscheme : isSpecial scheme = false) {port : Option Nat}
    (h : hostAndPort? scheme cs = .ok (host, port, rest)) :
    host.IsWritten ∧ (∀ n ∈ port, n ≤ 65535) ∧ (host.text.toList = [] → port = none) := by
  obtain ⟨hhost, hport⟩ := hostAndPort?_cases hscheme h
  refine ⟨Host.isWritten_of_plain? hhost, ?_⟩
  rcases hport with ⟨-, rfl, -⟩ | ⟨hne, figures, -, hport⟩
  · exact ⟨nofun, fun _ => rfl⟩
  · exact ⟨(port?_cases hport).1, fun hempty => absurd (Host.eq_nil_of_plain? hhost hempty) hne⟩

/-- User and password are fit to be written. -/
theorem of_userinfo (cs : List Char) :
    Kept inUserinfo (userinfo cs).1.toList ∧
      ∀ password ∈ (userinfo cs).2, password ≠ "" ∧ Kept inUserinfo password.toList := by
  have hkept : ∀ cs, Kept inUserinfo (encode inUserinfo cs).toList :=
    kept_encode fun _ => inEscape_of_inUserinfo
  refine ⟨hkept _, fun password hpassword => ?_⟩
  obtain ⟨cs', hcs', rfl⟩ := Option.map_eq_some_iff.1 hpassword
  have hfilled := (Option.mem_filter_iff.1 hcs').2
  refine ⟨fun hempty => ?_, hkept cs'⟩
  rw [encode_eq_empty_iff.1 hempty] at hfilled
  cases hfilled

end Url

end VectorBridge
