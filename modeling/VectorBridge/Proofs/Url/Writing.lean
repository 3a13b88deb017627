import VectorBridge.Proofs.Url.Parts
/-!
# Reading what was written

A URL of a scheme that is not special is written part by part, and each part is free of the
characters that end it, since those are encoded when it is read or set. So the text is cut
where it was put together, and the same URL is read from it (`parse?_text`). What is read is
fit to be written (`isWritten_of_parse?`), and stays so when a user or a password is set.
-/

namespace VectorBridge

namespace Url

variable {scheme : String} {cs : List Char} {host : Host}

/-! ## Authorities -/

/-- A URL of a scheme that is not special as it is written: no part has a character that ends
it or is encoded. -/
structure IsWritten (u : Url) : Prop where
  scheme : IsPlainScheme u.scheme
  username : Kept inUserinfo u.username.toList
  password : ∀ password ∈ u.password, password ≠ "" ∧ Kept inUserinfo password.toList
  host : ∃ host ∈ u.host, host.IsWritten ∧
    (host.text.toList = [] → u.username = "" ∧ u.password = none ∧ u.port = none)
  port : ∀ n ∈ u.port, n ≤ 65535
  path : ∃ names, u.path = .segments names ∧ ∀ name ∈ names, IsWrittenName name
  query : ∀ query ∈ u.query, Kept (inQuery false) query.toList
  fragment : ∀ fragment ∈ u.fragment, Kept inFragment fragment.toList

variable {u : Url}

/-- Nothing is written of a user that is not there; else an at-sign ends what is written. -/
theorem userinfoText_cases (h : u.IsWritten) :
    (u.userinfoText.toList = [] ∧ u.username = "" ∧ u.password = none) ∨
      ∃ info, u.userinfoText.toList = info ++ ['@'] ∧ userinfo info = (u.username, u.password) ∧
        (∀ c ∈ info, (0x20 < c.toNat ∧ c ≠ '#' ∧ c ≠ '?') ∧ c ≠ '/') ∧
        ¬ (u.username = "" ∧ u.password = none) := by
  have husername : ∀ c ∈ u.username.toList,
      (0x20 < c.toNat ∧ c ≠ '#' ∧ c ≠ '?') ∧ c ≠ '/' ∧ c ≠ ':' ∧ c ≠ '@' :=
    fun c hc => of_inUserinfo (h.username c hc)
  have hcolon : ':' ∉ u.username.toList := fun hmem => (husername ':' hmem).2.2.1 rfl
  have hkept : encode inUserinfo u.username.toList = u.username := by
    rw [encode_of_kept h.username, String.ofList_toList]
  rw [userinfoText]
  cases hpassword : u.password with
  | none =>
    by_cases hempty : u.username = ""
    · rw [hempty]
      exact .inl ⟨rfl, rfl, rfl⟩
    · refine .inr ⟨u.username.toList, ?_, ?_, fun c hc => ?_, fun hnone => hempty hnone.1⟩
      · simp only [String.isEmpty_iff, hempty, if_false, String.toList_append]
        rfl
      · rw [userinfo, Text.cut_of_notMem hcolon]
        simp only [hkept, Option.filter_none, Option.map_none]
      · exact ⟨(husername c hc).1, (husername c hc).2.1⟩
  | some password =>
    obtain ⟨hne, hpassword⟩ := h.password password hpassword
    have hfilled : password.toList.isEmpty = false :=
      List.isEmpty_eq_false_iff.2 fun hnil => hne (String.toList_eq_nil_iff.1 hnil)
    refine .inr ⟨u.username.toList ++ ':' :: password.toList, ?_, ?_, ?_, fun hnone =>
      Option.some_ne_none password hnone.2⟩
    · simp only [String.toList_append, List.append_assoc, List.cons_append]
      rfl
    · rw [userinfo, Text.cut_append hcolon]
      simp only [hkept, Option.filter_some, hfilled, Bool.not_false, if_true, Option.map_some,
        encode_of_kept hpassword, String.ofList_toList]
    · intro c hc
      rcases List.mem_append.1 hc with hc | hc
      · exact ⟨(husername c hc).1, (husername c hc).2.1⟩
      · rcases List.mem_cons.1 hc with rfl | hc
        · decide
        · have hchar := of_inUserinfo (hpassword c hc)
          exact ⟨hchar.1, hchar.2.1⟩

/-- An authority ends at the first slash. -/
theorem span_slash (hplain : isSpecial scheme = false) {text : List Char}
    (htext : ∀ c ∈ text, c ≠ '/') {path : List Char} (hpath : ∀ c ∈ path.head?, c = '/') :
    (text ++ path).takeWhile (fun c => !isSlash (isSpecial scheme) c) = text ∧
      (text ++ path).dropWhile (fun c => !isSlash (isSpecial scheme) c) = path := by
  have hkeep : ∀ c ∈ text, (!isSlash (isSpecial scheme) c) = true := fun c hc => by
    simp [isSlash, hplain, htext c hc]
  rw [List.takeWhile_append_of_pos hkeep, List.dropWhile_append_of_pos hkeep]
  cases path with
  | nil => simp
  | cons c path =>
    obtain rfl := hpath c rfl
    simp [isSlash]

/-- The authority is read from what was written of it. -/
theorem authority?_text (h : u.IsWritten) (hhost : u.host = some host) {path : List Char}
    (hpath : ∀ c ∈ path.head?, c = '/') (query fragment : Option String) :
    authority? u.scheme ⟨u.userinfoText.toList ++ (host.text.toList ++ placedPort u.port) ++ path,
      query, fragment⟩ = .ok (⟨u.username, u.password, host, u.port⟩, path) := by
  obtain ⟨host', hhost', hwritten, hnamed⟩ := h.host
  obtain rfl : host' = host := Option.some.inj (hhost'.symm.trans hhost)
  have hplain := h.scheme.plain
  have hread := hostAndPort?_text hplain hwritten h.port fun hempty => (hnamed hempty).2.2
  have hlocated : ∀ c ∈ host'.text.toList ++ placedPort u.port, c ≠ '/' ∧ c ≠ '@' := fun c hc =>
    (of_mem_located hwritten hc).2
  have hmark : '@' ∉ host'.text.toList ++ placedPort u.port := fun hmem => (hlocated '@' hmem).2 rfl
  rcases userinfoText_cases h with
    ⟨hinfo, husername, hpassword⟩ | ⟨info, hinfo, huser, hchars, hsome⟩
  · obtain ⟨htake, hdrop⟩ := span_slash hplain (fun c hc => (hlocated c hc).1) hpath
    rw [hinfo, List.nil_append, authority?]
    simp only [htake, hdrop, Text.cutLast_of_notMem hmark, hread, husername, hpassword]
    rfl
  · have hauthority : ∀ c ∈ info ++ '@' :: (host'.text.toList ++ placedPort u.port), c ≠ '/' := by
      refine List.forall_mem_append.2 ⟨fun c hc => (hchars c hc).2, ?_⟩
      exact List.forall_mem_cons.2 ⟨by decide, fun c hc => (hlocated c hc).1⟩
    obtain ⟨htake, hdrop⟩ := span_slash hplain hauthority hpath
    have hfilled : host'.text.toList ≠ [] := fun hempty =>
      hsome ⟨(hnamed hempty).1, (hnamed hempty).2.1⟩
    have hnonempty : (host'.text.toList ++ placedPort u.port).isEmpty = false :=
      List.isEmpty_eq_false_iff.2 (List.append_ne_nil_of_left_ne_nil hfilled _)
    have hhosted : host'.isEmpty = false :=
      Bool.eq_false_iff.2 fun hempty => hfilled ((Host.isEmpty_iff hwritten).1 hempty)
    rw [hinfo, List.append_assoc info, List.singleton_append, authority?]
    simp only [htake, hdrop, Text.cutLast_append hmark, hnonempty, huser, hread, bind, Except.bind,
      hhosted, Bool.and_false, Bool.false_and, Bool.false_eq_true, if_false]
    rfl

/-! ## Whole URLs -/

/-- A character that can be seen is not left out. -/
theorem kept_of_visible {c : Char} (h : 0x20 < c.toNat) :
    decide (c ≠ '\t' ∧ c ≠ '\n' ∧ c ≠ '\r') = true := by
  refine decide_eq_true ⟨?_, ?_, ?_⟩ <;> rintro rfl <;> exact absurd h (by decide)

/-- A text without blanks and control characters is clean. -/
theorem cleaned_of_visible {s : String} (h : ∀ c ∈ s.toList, 0x20 < c.toNat) :
    cleaned s = s.toList := by
  have hstrip : ∀ {cs : List Char}, (∀ c ∈ cs, 0x20 < c.toNat) →
      cs.dropWhile (fun c => decide (c.toNat ≤ 0x20)) = cs := by
    intro cs hcs
    cases cs with
    | nil => rfl
    | cons c cs =>
      have hc := hcs c List.mem_cons_self
      exact List.dropWhile_cons_of_neg (by simpa using hc)
  rw [cleaned, Text.stripChars, hstrip h, hstrip fun c hc => h c (List.mem_reverse.1 hc),
    List.reverse_reverse, List.filter_eq_self.2 fun c hc => kept_of_visible (h c hc)]

/-- A part as it is written behind its mark. -/
def marked (mark : Char) (part : Option String) : List Char :=
  part.elim [] fun s => mark :: s.toList

theorem toList_marked (mark : Char) (part : Option String) :
    ((part.map (String.singleton mark ++ ·)).getD "").toList = marked mark part := by
  cases part with
  | none => rfl
  | some s => simp [marked]

theorem exists_of_mem_marked {mark c : Char} {part : Option String} (h : c ∈ marked mark part) :
    ∃ s ∈ part, c = mark ∨ c ∈ s.toList := by
  cases part with
  | none => cases h
  | some s => exact ⟨s, rfl, List.mem_cons.1 h⟩

theorem cut_marked {mark : Char} (h : mark ∉ cs) (part : Option String) :
    Text.cut mark (cs ++ marked mark part) = (cs, part.map String.toList) := by
  cases part with
  | none =>
    rw [marked, Option.elim_none, List.append_nil]
    exact Text.cut_of_notMem h
  | some s => exact Text.cut_append h s.toList

theorem map_encode_marked {encodes : Char → Bool} {part : Option String}
    (h : ∀ s ∈ part, Kept encodes s.toList) :
    (part.map String.toList).map (encode encodes) = part := by
  cases part with
  | none => rfl
  | some s =>
    rw [Option.map_some, Option.map_some, encode_of_kept (h s rfl), String.ofList_toList]

/-- The text of a URL with a host, part by part. -/
theorem toList_text (hhost : u.host = some host) :
    u.text.toList = u.scheme.toList ++ ':' :: '/' :: '/' ::
      (u.userinfoText.toList ++ (host.text.toList ++ placedPort u.port) ++ u.path.text.toList ++
        marked '?' u.query ++ marked '#' u.fragment) := by
  have hport : (((u.port.map fun n => s!":{n}").getD "")).toList = placedPort u.port := by
    cases u.port with
    | none => rfl
    | some n =>
      simp only [Option.map_some, Option.getD_some, placedPort, Option.elim_some,
        String.toList_append]
      rfl
  have hquery := toList_marked '?' u.query
  have hfragment := toList_marked '#' u.fragment
  rw [text, authorityText, hhost, target]
  simp only [String.toList_append, hport, ← hquery, ← hfragment, List.append_assoc]
  rfl

/-- What comes before query and fragment does not end there. -/
theorem of_mem_front (h : u.IsWritten) (hwritten : host.IsWritten) {names : List String}
    (hnames : ∀ name ∈ names, IsWrittenName name) {c : Char}
    (hc : c ∈ u.userinfoText.toList ++ (host.text.toList ++ placedPort u.port) ++
      (Path.segments names).text.toList) : 0x20 < c.toNat ∧ c ≠ '#' ∧ c ≠ '?' := by
  rcases List.mem_append.1 hc with hc | hc
  · rcases List.mem_append.1 hc with hc | hc
    · rcases userinfoText_cases h with ⟨hinfo, -⟩ | ⟨info, hinfo, -, hchars, -⟩
      · rw [hinfo] at hc
        cases hc
      · rw [hinfo] at hc
        rcases List.mem_append.1 hc with hc | hc
        · exact (hchars c hc).1
        · rw [List.mem_singleton.1 hc]
          decide
    · exact (of_mem_located hwritten hc).1
  · rw [toList_text_segments] at hc
    obtain ⟨name, hname, hc⟩ := List.mem_flatMap.1 hc
    rcases List.mem_cons.1 hc with rfl | hc
    · decide
    · exact of_inPath ((hnames name hname).kept c hc)

/-- **Reading what was written gives the same URL.** -/
theorem parse?_text (h : u.IsWritten) : parse? u.text = .ok u := by
  obtain ⟨host, hhost, hwritten, -⟩ := h.host
  obtain ⟨names, hpath, hnames⟩ := h.path
  have hfront := fun c => of_mem_front h hwritten hnames (c := c)
  have htext := toList_text hhost
  have hsegments := segmentsOf_text hnames
  have hslash : ∀ c ∈ (Path.segments names).text.toList.head?, c = '/' := by
    rw [toList_text_segments]
    cases names with
    | nil => nofun
    | cons name names =>
      rintro c ⟨⟩
      rfl
  have hauthority := authority?_text h hhost hslash u.query u.fragment
  rw [hpath] at htext
  generalize hbefore : u.userinfoText.toList ++ (host.text.toList ++ placedPort u.port) ++
    (Path.segments names).text.toList = front at htext hfront hauthority
  have hscheme : ∀ c ∈ u.scheme.toList, 0x20 < c.toNat := by
    have hcodes : ∀ n < 0x21, isSchemeChar (Char.ofNat n) = false := by decide
    intro c hc
    by_contra hlow
    have hcode := hcodes c.toNat (by omega)
    rw [Char.ofNat_toNat, h.scheme.chars c hc] at hcode
    cases hcode
  have hquery : ∀ c ∈ marked '?' u.query, 0x20 < c.toNat ∧ c ≠ '#' := by
    intro c hc
    obtain ⟨query, hmem, hc⟩ := exists_of_mem_marked hc
    rcases hc with rfl | hc
    · decide
    · exact of_inQuery (h.query query hmem c hc)
  have hfragment : ∀ c ∈ marked '#' u.fragment, 0x20 < c.toNat := by
    intro c hc
    obtain ⟨fragment, hmem, hc⟩ := exists_of_mem_marked hc
    rcases hc with rfl | hc
    · decide
    · exact of_inFragment (h.fragment fragment hmem c hc)
  have hclean : cleaned u.text = u.text.toList := by
    refine cleaned_of_visible ?_
    rw [htext]
    simp only [List.forall_mem_append, List.forall_mem_cons]
    exact ⟨hscheme, by decide, by decide, by decide, ⟨fun c hc => (hfront c hc).1,
      fun c hc => (hquery c hc).1⟩, hfragment⟩
  have htail : cutTail false
      ('/' :: '/' :: (front ++ marked '?' u.query ++ marked '#' u.fragment)) =
        ⟨'/' :: '/' :: front, u.query, u.fragment⟩ := by
    have hmark : '#' ∉ '/' :: '/' :: (front ++ marked '?' u.query) := by
      simp only [List.mem_cons, List.mem_append, not_or]
      exact ⟨by decide, by decide, fun hmem => (hfront '#' hmem).2.1 rfl,
        fun hmem => (hquery '#' hmem).2 rfl⟩
    have hasks : '?' ∉ '/' :: '/' :: front := by
      simp only [List.mem_cons, not_or]
      exact ⟨by decide, by decide, fun hmem => (hfront '?' hmem).2.2 rfl⟩
    have hcut := cut_marked hmark u.fragment
    have hcut' := cut_marked hasks u.query
    simp only [List.cons_append] at hcut hcut'
    simp only [cutTail, hcut, hcut', map_encode_marked h.query, map_encode_marked h.fragment]
  have hfile : isFile u.scheme = false := by
    have hplain := h.scheme.plain
    rw [isSpecial, Bool.or_eq_false_iff] at hplain
    exact hplain.1
  simp only [parse?, hclean, htext, splitScheme?_append h.scheme, h.scheme.plain, htail, hfile,
    Bool.false_eq_true, if_false, ofAuthority?, hauthority, bind, Except.bind, hsegments]
  rw [← hpath, ← hhost]
  rfl

/-- So one text is written of one URL only. -/
theorem text_inj {u' : Url} (h : u.IsWritten) (h' : u'.IsWritten) : u.text = u'.text ↔ u = u' := by
  refine ⟨fun htext => ?_, congrArg text⟩
  have hread := parse?_text h
  rw [htext, parse?_text h'] at hread
  exact (Except.ok.inj hread).symm

/-! ## What is read -/

/-- Host and port stand behind the last at-sign, if there is one. -/
theorem authority?_cases {t : Tail} {a : Authority} {path : List Char}
    (h : authority? scheme t = .ok (a, path)) : ∃ located rest,
      hostAndPort? scheme located = .ok (a.host, a.port, rest) ∧
      path = rest ++ t.before.dropWhile (fun c => !isSlash (isSpecial scheme) c) ∧
      (Text.cutLast '@' (t.before.takeWhile fun c => !isSlash (isSpecial scheme) c) = none ∧
          located = t.before.takeWhile (fun c => !isSlash (isSpecial scheme) c) ∧
          a.username = "" ∧ a.password = none ∨
        ∃ info, Text.cutLast '@' (t.before.takeWhile fun c => !isSlash (isSpecial scheme) c) =
            some (info, located) ∧
          userinfo info = (a.username, a.password) ∧
          (a.host.isEmpty = true → a.username = "" ∧ a.password = none)) := by
  unfold authority? at h
  simp only at h
  split at h
  · rename_i hcut
    cases hread : hostAndPort? scheme
        (t.before.takeWhile fun c => !isSlash (isSpecial scheme) c) with
    | error e =>
      rw [hread] at h
      cases h
    | ok found =>
      rw [hread] at h
      cases h
      exact ⟨_, found.2.2, hread, rfl, .inl ⟨hcut, rfl, rfl, rfl⟩⟩
  · rename_i info located hcut
    split at h
    · cases h
    · cases hread : hostAndPort? scheme located with
      | error e =>
        rw [hread] at h
        cases h
      | ok found =>
        rw [hread] at h
        simp only [bind, Except.bind] at h
        split at h
        · cases h
        · rename_i hempty
          cases h
          refine ⟨located, found.2.2, hread, rfl, .inr ⟨info, hcut, rfl, fun hhost => ?_⟩⟩
          simpa [hhost] using hempty

/-- An authority is fit to be written. -/
theorem of_authority? (hscheme : isSpecial scheme = false) {t : Tail} {a : Authority}
    {path : List Char} (h : authority? scheme t = .ok (a, path)) :
    Kept inUserinfo a.username.toList ∧
      (∀ password ∈ a.password, password ≠ "" ∧ Kept inUserinfo password.toList) ∧
      a.host.IsWritten ∧ (∀ n ∈ a.port, n ≤ 65535) ∧
      (a.host.text.toList = [] → a.username = "" ∧ a.password = none ∧ a.port = none) := by
  obtain ⟨located, rest, hlocated, -, huser⟩ := authority?_cases h
  obtain ⟨hwritten, hport, hnone⟩ := of_hostAndPort? hscheme hlocated
  rcases huser with ⟨-, -, husername, hpassword⟩ | ⟨info, -, huser, hempty⟩
  · rw [husername, hpassword]
    exact ⟨nofun, nofun, hwritten, hport, fun hhost => ⟨rfl, rfl, hnone hhost⟩⟩
  · have hinfo := of_userinfo info
    rw [huser] at hinfo
    refine ⟨hinfo.1, hinfo.2, hwritten, hport, fun hhost => ?_⟩
    obtain ⟨husername, hpassword⟩ := hempty ((Host.isEmpty_iff hwritten).2 hhost)
    exact ⟨husername, hpassword, hnone hhost⟩

/-- The URL behind two slashes has its authority, and the names of its path. -/
theorem ofAuthority?_cases {t : Tail} (h : ofAuthority? scheme t = .ok u) : ∃ a path,
    authority? scheme t = .ok (a, path) ∧
      u = ⟨scheme, a.username, a.password, some a.host, a.port,
        .segments (segmentsOf (isSpecial scheme) path), t.query, t.fragment⟩ := by
  unfold ofAuthority? at h
  cases hread : authority? scheme t with
  | error e =>
    rw [hread] at h
    cases h
  | ok found =>
    rw [hread] at h
    cases h
    exact ⟨found.1, found.2, rfl, rfl⟩

/-- All segments behind an authority are fit to be written. -/
theorem isWrittenName_of_mem_segmentsOf {name : String} (h : name ∈ segmentsOf false cs) :
    IsWrittenName name := by
  cases cs with
  | nil => cases h
  | cons c cs =>
    exact isWrittenName_of_mem_follow (fun _ => (absurd · List.not_mem_nil))
      (fun _ => notMem_of_mem_splitSlashes) name h

/-- Query and fragment are fit to be written. -/
theorem of_cutTail (special : Bool) (cs : List Char) :
    (∀ query ∈ (cutTail special cs).query, Kept (inQuery special) query.toList) ∧
      ∀ fragment ∈ (cutTail special cs).fragment, Kept inFragment fragment.toList := by
  refine ⟨fun query hquery => ?_, fun fragment hfragment => ?_⟩
  · obtain ⟨cs', -, rfl⟩ := Option.map_eq_some_iff.1 hquery
    exact kept_encode (fun _ => inEscape_of_inQuery) cs'
  · obtain ⟨cs', -, rfl⟩ := Option.map_eq_some_iff.1 hfragment
    exact kept_encode (fun _ => inEscape_of_inFragment) cs'

/-- **What is read is fit to be written**, if it has a host. -/
theorem isWritten_of_parse? {s : String} (h : parse? s = .ok u)
    (hscheme : isSpecial u.scheme = false) (hhost : u.host ≠ none) : u.IsWritten := by
  unfold parse? at h
  split at h
  · cases h
  · rename_i scheme rest hsplit
    simp only at h
    split at h
    · -- the scheme of a file is special
      unfold ofFile? at h
      simp only [bind, Except.bind] at h
      split at h
      · cases h
      · cases h
        change isSpecial "file" = false at hscheme
        exact absurd hscheme (by decide)
    · split at h
      · rename_i hspecial
        obtain ⟨a, path, -, rfl⟩ := ofAuthority?_cases h
        exact absurd hspecial (Bool.eq_false_iff.1 hscheme)
      · rename_i hspecial
        split at h
        · obtain ⟨a, path, hauthority, rfl⟩ := ofAuthority?_cases h
          obtain ⟨husername, hpassword, hwritten, hport, hempty⟩ := of_authority? hscheme hauthority
          refine ⟨isPlainScheme_of_splitScheme? hsplit hscheme, husername, hpassword,
            ⟨a.host, rfl, hwritten, hempty⟩, hport, ⟨_, rfl, fun name hname => ?_⟩, ?_, ?_⟩
          · rw [hscheme] at hname
            exact isWrittenName_of_mem_segmentsOf hname
          · exact hscheme ▸ (of_cutTail (isSpecial scheme) rest).1
          · exact (of_cutTail (isSpecial scheme) rest).2
        · cases h
          exact absurd rfl hhost

/-! ## What is set -/

/-- A URL that can carry a user stays fit to be written with another one. -/
theorem IsWritten.withUser (h : u.IsWritten) (hcarries : u.carriesUser = true) {username : String}
    {password : Option String} (husername : Kept inUserinfo username.toList)
    (hpassword : ∀ text ∈ password, text ≠ "" ∧ Kept inUserinfo text.toList) :
    IsWritten { u with username, password } := by
  obtain ⟨host, hhost, hwritten, -⟩ := h.host
  have hfilled : host.text.toList ≠ [] := by
    intro hempty
    rw [carriesUser, Option.mem_def.1 hhost, Option.any_some,
      (Host.isEmpty_iff hwritten).2 hempty] at hcarries
    simp at hcarries
  exact ⟨h.scheme, husername, hpassword, ⟨host, hhost, hwritten, fun hempty =>
    absurd hempty hfilled⟩, h.port, h.path, h.query, h.fragment⟩

end Url

end VectorBridge
