import VectorBridge.Proofs.Url.Percent
import VectorBridge.Url.Basic
/-!
# Names in a path

A name that is put behind a folder of a base URL is read as part of a URL: blanks at the end
and tabs go, a number sign ends it, slashes of both kinds and dots are followed, and what is
not allowed is encoded. A plain name goes through all of that whole. It is found in the path,
and in the query from its first question mark on, between a beginning and an end that are the
same for every plain name, so that two of them lead to one place only if they decode to the
same bytes.
-/

namespace VectorBridge

/-! ## Cutting and stripping a text that goes on -/

namespace Text

variable {separator : Char} {cs later before behind : List Char}

theorem cut_append_of_notMem (h : separator ∉ cs) (later : List Char) :
    cut separator (cs ++ later) = (cs ++ (cut separator later).1, (cut separator later).2) := by
  induction cs with
  | nil => rfl
  | cons c cs ih =>
    rw [List.mem_cons, not_or] at h
    rw [List.cons_append, cut, if_neg (Ne.symm h.1), ih h.2]
    rfl

theorem cut_append_of_eq_some (h : cut separator cs = (before, some behind))
    (later : List Char) : cut separator (cs ++ later) = (before, some (behind ++ later)) := by
  induction cs generalizing before with
  | nil => cases h
  | cons c cs ih =>
    rw [List.cons_append, cut]
    rw [cut] at h
    split
    · rename_i hc
      rw [if_pos hc] at h
      cases h
      rfl
    · rename_i hc
      rw [if_neg hc] at h
      obtain ⟨rfl, hbehind⟩ := Prod.mk.inj h
      rw [ih (Prod.ext rfl hbehind)]

/-- What was cut is the text, with the separator between. -/
theorem eq_of_cut (separator : Char) (cs : List Char) :
    cs = (cut separator cs).1 ++ (cut separator cs).2.elim [] (separator :: ·) ∧
      separator ∉ (cut separator cs).1 := by
  induction cs with
  | nil => exact ⟨rfl, List.not_mem_nil⟩
  | cons c cs ih =>
    rw [cut]
    split
    · rename_i hc
      exact ⟨by rw [hc]; rfl, List.not_mem_nil⟩
    · rename_i hc
      refine ⟨congrArg (c :: ·) ih.1, ?_⟩
      rw [List.mem_cons, not_or]
      exact ⟨Ne.symm hc, ih.2⟩

/-- A text whose ends are kept is kept, and what follows it is stripped at its end. -/
theorem stripChars_append {p : Char → Bool} (hfirst : ∃ c ∈ cs.head?, p c = false)
    (hlast : ∃ c ∈ cs.getLast?, p c = false) (later : List Char) :
    stripChars p (cs ++ later) = cs ++ (later.reverse.dropWhile p).reverse := by
  have hkept : ∀ {l : List Char}, (∃ c ∈ l.head?, p c = false) → l.dropWhile p = l := by
    rintro l ⟨c, hc, hp⟩
    obtain ⟨l, rfl⟩ := List.head?_eq_some_iff.1 hc
    exact List.dropWhile_cons_of_neg (by rw [hp]; exact Bool.false_ne_true)
  have hfront : (cs ++ later).dropWhile p = cs ++ later :=
    hkept (by obtain ⟨c, hc, hp⟩ := hfirst; exact ⟨c, by simp [Option.mem_def.1 hc], hp⟩)
  have hback : cs.reverse.dropWhile p = cs.reverse := hkept (by rwa [List.head?_reverse])
  -- what follows may be stripped altogether, and stripping stops at the text then
  rw [stripChars, hfront, List.reverse_append, List.dropWhile_append]
  split
  · rename_i hempty
    rw [hback, List.reverse_reverse, List.isEmpty_iff.1 hempty, List.reverse_nil, List.append_nil]
  · rw [List.reverse_append, List.reverse_reverse]

end Text

namespace Url

/-! ## Segments -/

/-- A segment stays a segment: it is not one dot or two. -/
def IsName (segment : List Char) : Prop := dots? segment ≠ some 1 ∧ dots? segment ≠ some 2

instance : DecidablePred IsName := fun _ => inferInstanceAs (Decidable (_ ∧ _))

/-- Names are followed one by one. -/
theorem follow_eq {names : List String} {segments : List (List Char)}
    (h : ∀ segment ∈ segments, IsName segment) :
    follow names segments = names ++ segments.map (encode inPath) := by
  induction segments generalizing names with
  | nil => rw [follow, List.map_nil, List.append_nil]
  | cons segment rest ih =>
    obtain ⟨hname, hrest⟩ := List.forall_mem_cons.1 h
    rw [follow]
    split
    · rename_i hdots
      exact absurd hdots hname.1
    · rename_i hdots
      exact absurd hdots hname.2
    · rw [ih hrest, List.append_assoc]
      rfl

theorem splitSlashes_ne_nil (special : Bool) (cs : List Char) : splitSlashes special cs ≠ [] := by
  cases cs with
  | nil => exact List.cons_ne_nil _ _
  | cons c rest =>
    rw [splitSlashes]
    split
    · exact List.cons_ne_nil _ _
    · split <;> exact List.cons_ne_nil _ _

/-- A slash parts the segments before it from those behind it. -/
theorem splitSlashes_append (special : Bool) (before behind : List Char) :
    splitSlashes special (before ++ '/' :: behind) =
      splitSlashes special before ++ splitSlashes special behind := by
  induction before with
  | nil => rfl
  | cons c rest ih =>
    rw [List.cons_append, splitSlashes, splitSlashes, ih]
    split
    · rfl
    · obtain ⟨part, parts, hparts⟩ :=
        List.exists_cons_of_ne_nil (splitSlashes_ne_nil special rest)
      rw [hparts]
      rfl

theorem toList_text_segments (names : List String) :
    (Path.segments names).text.toList = names.flatMap fun name => '/' :: name.toList := by
  rw [Path.text, String.toList_join, List.flatMap_map]
  simp only [String.toList_append]
  rfl

/-- A path is written as its text is, character by character. -/
theorem flatMap_splitSlashes (special : Bool) {cs : List Char} (h : special = true → '\\' ∉ cs)
    {f : Char → List Char} (hf : f '/' = ['/']) :
    ((splitSlashes special cs).flatMap fun segment => '/' :: segment.flatMap f) =
      '/' :: cs.flatMap f := by
  induction cs with
  | nil => rfl
  | cons c rest ih =>
    have hrest := ih fun hspecial hmem => h hspecial (List.mem_cons_of_mem c hmem)
    rw [splitSlashes]
    split
    · rename_i hslash
      have hc : c = '/' := by
        rw [isSlash, Bool.or_eq_true, beq_iff_eq, Bool.and_eq_true, beq_iff_eq] at hslash
        exact hslash.resolve_right fun ⟨hspecial, hc⟩ => h hspecial (hc ▸ List.mem_cons_self)
      rw [List.flatMap_cons, hrest, List.flatMap_cons, hc, hf]
      rfl
    · obtain ⟨part, parts, hparts⟩ := List.exists_cons_of_ne_nil (splitSlashes_ne_nil special rest)
      rw [hparts, List.flatMap_cons] at hrest
      rw [hparts]
      simp only [List.flatMap_cons, List.cons_append, List.append_assoc]
      rw [← (List.cons.inj hrest).2]
      rfl

/-! ## Plain names -/

/-- A name that is read whole wherever it is put in a URL. -/
structure Plain (name : List Char) : Prop where
  /-- It holds nothing that is left out or that ends the query. -/
  kept : ∀ c ∈ name, c ≠ '#' ∧ c ≠ '\t' ∧ c ≠ '\n' ∧ c ≠ '\r'
  /-- It does not end in a blank. -/
  closed : ∀ c ∈ name.getLast?, 0x20 < c.toNat
  /-- No backslash stands in for a slash in its path. -/
  slashes : '\\' ∉ (Text.cut '?' name).1
  /-- The segments of its path are names. -/
  names : ∀ segment ∈ splitSlashes true (Text.cut '?' name).1, IsName segment

instance (name : List Char) : Decidable (Plain name) :=
  decidable_of_iff
    ((name.all fun c => c ≠ '#' ∧ c ≠ '\t' ∧ c ≠ '\n' ∧ c ≠ '\r') = true ∧
      (name.getLast?.all fun c => 0x20 < c.toNat) = true ∧
      '\\' ∉ (Text.cut '?' name).1 ∧
      ((splitSlashes true (Text.cut '?' name).1).all fun segment => IsName segment) = true) <| by
    simp only [List.all_eq_true, Option.all_eq_true, decide_eq_true_eq]
    exact ⟨fun ⟨hkept, hclosed, hslashes, hnames⟩ => ⟨hkept, hclosed, hslashes, hnames⟩,
      fun h => ⟨h.kept, h.closed, h.slashes, h.names⟩⟩

/-- A query as written, behind a question mark. -/
def asked (query : Option (List Char)) : List Char :=
  query.elim [] fun cs => '?' :: cs.flatMap (encodeChar (inQuery true))

/-- A name as it is put in a URL: path, and query behind its first question mark. -/
def placed (name : List Char) : List Char :=
  (Text.cut '?' name).1.flatMap (encodeChar inPath) ++ asked (Text.cut '?' name).2

/-- What is put in a URL is the name, with some characters encoded. -/
theorem written_placed (name : List Char) : Written name (placed name) := by
  rw [placed]
  conv => lhs; rw [(Text.eq_of_cut '?' name).1]
  refine (Written.of_encode (fun _ => inEscape_of_inPath) _).append ?_
  cases (Text.cut '?' name).2 with
  | none => exact .nil
  | some behind => exact .kept '?' (.of_encode (fun _ => inEscape_of_inQuery) behind)

/-- What follows a name goes to the query, if anything does. -/
theorem cut_append_query (name : List Char) {later : List Char}
    (h : later = [] ∨ ∃ query, later = '?' :: query) :
    (Text.cut '?' (name ++ later)).1 = (Text.cut '?' name).1 ∧
      asked (Text.cut '?' (name ++ later)).2 =
        asked (Text.cut '?' name).2 ++ later.flatMap (encodeChar (inQuery true)) := by
  have hmark : encodeChar (inQuery true) '?' = ['?'] := by decide
  have hcut := Text.eq_of_cut '?' name
  -- the query begins behind the name, or in it
  rcases hname : Text.cut '?' name with ⟨before, _ | behind⟩
  · rw [hname] at hcut
    obtain rfl : name = before := hcut.1.trans (List.append_nil before)
    rw [Text.cut_append_of_notMem hcut.2]
    rcases h with rfl | ⟨query, rfl⟩
    · exact ⟨List.append_nil name, rfl⟩
    · refine ⟨List.append_nil name, ?_⟩
      rw [List.flatMap_cons, hmark]
      rfl
  · rw [Text.cut_append_of_eq_some hname]
    refine ⟨rfl, ?_⟩
    simp only [asked, Option.elim_some, List.flatMap_append, List.cons_append]

/-! ## Folders -/

/-- A folder that names are put in. -/
structure IsFolder (folder : List Char) : Prop where
  plain : Plain folder
  /-- It begins with something that is kept. -/
  opened : ∃ c ∈ folder.head?, 0x20 < c.toNat ∧ c ≠ '/'
  /-- It is all path. -/
  unasked : '?' ∉ folder

variable {folder name : List Char}

theorem IsFolder.cut_eq (h : IsFolder folder) : (Text.cut '?' folder).1 = folder := by
  have hcut := Text.cut_append_of_notMem h.unasked []
  rw [List.append_nil] at hcut
  rw [hcut]
  exact List.append_nil folder

/-- What is left of the text behind a name. -/
def remainder (later : List Char) : List Char :=
  (later.reverse.dropWhile fun c => c.toNat ≤ 0x20).reverse.filter fun c =>
    c ≠ '\t' ∧ c ≠ '\n' ∧ c ≠ '\r'

/-- Only the text behind a plain name in a folder is cleaned. -/
theorem cleaned_eq (hfolder : IsFolder folder) (hname : Plain name) (later : List Char) :
    cleaned (String.ofList (folder ++ '/' :: name ++ later)) =
      folder ++ '/' :: name ++ remainder later := by
  have hfirst : ∃ c ∈ (folder ++ '/' :: name).head?, decide (c.toNat ≤ 0x20) = false := by
    obtain ⟨c, hc, hopened, -⟩ := hfolder.opened
    exact ⟨c, by simp [Option.mem_def.1 hc], decide_eq_false (Nat.not_le.2 hopened)⟩
  have hlast : ∃ c ∈ (folder ++ '/' :: name).getLast?, decide (c.toNat ≤ 0x20) = false := by
    cases hend : name.getLast? with
    | none => exact ⟨'/', by simp [List.getLast?_eq_none_iff.1 hend], by decide⟩
    | some c =>
      have hclosed := hname.closed c hend
      exact ⟨c, by simp [List.getLast?_append, List.getLast?_cons, hend],
        decide_eq_false (Nat.not_le.2 hclosed)⟩
  have hkept : ∀ c ∈ folder ++ '/' :: name,
      decide (c ≠ '\t' ∧ c ≠ '\n' ∧ c ≠ '\r') = true := by
    intro c hc
    rw [decide_eq_true_iff]
    rcases List.mem_append.1 hc with hc | hc
    · exact (hfolder.plain.kept c hc).2
    · rcases List.mem_cons.1 hc with rfl | hc
      · decide
      · exact (hname.kept c hc).2
  rw [cleaned, String.toList_ofList, Text.stripChars_append hfirst hlast, List.filter_append,
    List.filter_eq_self.2 hkept, remainder]

/-- What of the text behind a name is asked for: a number sign ends it. -/
def askedBehind (later : List Char) : List Char := (Text.cut '#' (remainder later)).1

/-- Behind a name nothing or a query is asked for, when that is what was put there. -/
theorem askedBehind_query {later : List Char} (h : later = [] ∨ ∃ query, later = '?' :: query) :
    askedBehind later = [] ∨ ∃ query, askedBehind later = '?' :: query := by
  rcases h with rfl | ⟨query, rfl⟩
  · exact .inl rfl
  · right
    have hstrip : ∃ query', (('?' :: query).reverse.dropWhile fun c => c.toNat ≤ 0x20).reverse =
        '?' :: query' := by
      rw [List.reverse_cons, List.dropWhile_append]
      split
      · exact ⟨[], rfl⟩
      · exact ⟨_, by rw [List.reverse_append]; rfl⟩
    obtain ⟨query', hquery'⟩ := hstrip
    rw [askedBehind, remainder, hquery', List.filter_cons_of_pos (by decide), Text.cut,
      if_neg (by decide)]
    exact ⟨_, rfl⟩

/-! ## Resolving -/

/-- Path and query part within the name, or behind it. -/
theorem cutTail_cleaned (hfolder : IsFolder folder) (hname : Plain name) (later : List Char) :
    cutTail true (cleaned (String.ofList (folder ++ '/' :: name ++ later))) =
      ⟨folder ++ '/' :: (Text.cut '?' (name ++ askedBehind later)).1,
        (Text.cut '?' (name ++ askedBehind later)).2.map (encode (inQuery true)),
        (Text.cut '#' (remainder later)).2.map (encode inFragment)⟩ := by
  have hmark : '#' ∉ folder ++ '/' :: name := by
    intro hmem
    rcases List.mem_append.1 hmem with hmem | hmem
    · exact (hfolder.plain.kept '#' hmem).1 rfl
    · rcases List.mem_cons.1 hmem with hslash | hmem
      · exact absurd hslash (by decide)
      · exact (hname.kept '#' hmem).1 rfl
  have hunasked : '?' ∉ folder ++ ['/'] := by
    simp [hfolder.unasked]
  have hbehind : folder ++ '/' :: name ++ (Text.cut '#' (remainder later)).1 =
      folder ++ ['/'] ++ (name ++ askedBehind later) := by
    simp only [askedBehind, List.append_assoc, List.cons_append, List.nil_append]
  rw [cleaned_eq hfolder hname, cutTail, Text.cut_append_of_notMem hmark]
  simp only [hbehind]
  rw [Text.cut_append_of_notMem hunasked, List.append_assoc]
  rfl

/-- The path of a name is written behind its folder's. -/
theorem toList_text_follow {names : List String} (hfolder : IsFolder folder)
    (hname : Plain name) :
    (Path.segments (follow names
      (splitSlashes true (folder ++ '/' :: (Text.cut '?' name).1)))).text.toList =
      (Path.segments names).text.toList ++ '/' :: folder.flatMap (encodeChar inPath) ++
        '/' :: (Text.cut '?' name).1.flatMap (encodeChar inPath) := by
  have hsegments : ∀ segment ∈ splitSlashes true (folder ++ '/' :: (Text.cut '?' name).1),
      IsName segment := by
    intro segment hmem
    rw [splitSlashes_append] at hmem
    rcases List.mem_append.1 hmem with hmem | hmem
    · exact hfolder.plain.names segment (hfolder.cut_eq.symm ▸ hmem)
    · exact hname.names segment hmem
  have hslashes : '\\' ∉ folder ++ '/' :: (Text.cut '?' name).1 := by
    have := hfolder.plain.slashes
    rw [hfolder.cut_eq] at this
    simp [this, hname.slashes]
  have hslash : encodeChar inPath '/' = ['/'] := by decide
  have hwritten := flatMap_splitSlashes true (fun _ => hslashes) hslash
  rw [List.flatMap_append, List.flatMap_cons, hslash] at hwritten
  rw [follow_eq hsegments, toList_text_segments, toList_text_segments, List.flatMap_append,
    List.flatMap_map]
  simp only [encode, String.toList_ofList, hwritten, List.append_assoc, List.cons_append,
    List.nil_append]

/-- **A plain name in a folder is found whole**, between what is the same for all of them. -/
theorem exists_resolve {base : Url} {names : List String} (hpath : base.path = .segments names)
    (hspecial : isSpecial base.scheme = true) (hfolder : IsFolder folder) {later : List Char}
    (hlater : later = [] ∨ ∃ query, later = '?' :: query) :
    ∃ root closing : List Char, ∀ name : List Char, Plain name → ∃ url,
      base.resolve? (String.ofList (folder ++ '/' :: name ++ later)) = .ok url ∧
      url.target.toList = root ++ placed name ++ closing := by
  refine ⟨(Path.segments names.dropLast).text.toList ++ '/' :: folder.flatMap (encodeChar inPath) ++
    ['/'], (askedBehind later).flatMap (encodeChar (inQuery true)), fun name hname => ?_⟩
  obtain ⟨hbefore, hquery⟩ := cut_append_query name (askedBehind_query hlater)
  have hasked : ∀ query : Option (List Char),
      (((query.map (encode (inQuery true))).map ("?" ++ ·)).getD "").toList = asked query := by
    intro query
    cases query with
    | none => rfl
    | some cs =>
      simp only [Option.map_some, Option.getD_some, String.toList_append, encode,
        String.toList_ofList]
      rfl
  have hresolve : base.resolve? (String.ofList (folder ++ '/' :: name ++ later)) = .ok
      { base with
        path := .segments (follow names.dropLast
          (splitSlashes true (folder ++ '/' :: (Text.cut '?' name).1)))
        query := (Text.cut '?' (name ++ askedBehind later)).2.map (encode (inQuery true))
        fragment := (Text.cut '#' (remainder later)).2.map (encode inFragment) } := by
    rw [resolve?, hpath, hspecial]
    simp only [cutTail_cleaned hfolder hname, hbefore]
  refine ⟨_, hresolve, ?_⟩
  simp only [target, String.toList_append, toList_text_follow hfolder hname, hasked, hquery, placed,
    List.append_assoc, List.cons_append, List.nil_append]

end Url

end VectorBridge
