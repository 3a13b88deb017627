import VectorBridge.Proofs.Keyed
import VectorBridge.Proofs.Settings.Address
/-!
# Entries of a profile that are empty

An empty entry says nothing, so settings ought not to change when it is left out. Most entries
are read through `filled?` or `trimmed?`, which drop what is empty, and those do not change
(`filled?_withoutEmpty`, `trimmed?_withoutEmpty`). Host, database, user and password of an
address are read as they are. An empty host or database stands in the address, where a missing
one has a default, and shows there; an empty user or password is as good as none, unless the
host brings one along.
-/

namespace VectorBridge

namespace Url

variable {name : String} {port : Nat}

/-! ## The end of an address -/

/-- What is behind the last slash is followed last. -/
theorem exists_follow_append (names : List String) (segments : List (List Char)) :
    ∃ names', ∀ segment, IsName segment →
      follow names (segments ++ [segment]) = names' ++ [encode inPath segment] := by
  induction segments generalizing names with
  | nil => exact ⟨names, fun segment hname => follow_eq (List.forall_mem_singleton.2 hname)⟩
  | cons first rest ih =>
    have hmore : ∀ segment, (rest ++ [segment]).isEmpty = false := fun segment =>
      List.isEmpty_eq_false_iff.2 (List.concat_ne_nil segment rest)
    simp only [List.cons_append, follow, hmore, Bool.false_eq_true, if_false]
    split
    · exact ih names
    · exact ih (upward names)
    · exact ih (names ++ [encode inPath first])

/-- So a path that goes on behind a slash has its end as last name. -/
theorem exists_segmentsOf_append (cs : List Char) :
    ∃ names, ∀ segment, '/' ∉ segment → IsName segment →
      segmentsOf false (cs ++ '/' :: segment) = names ++ [encode inPath segment] := by
  obtain ⟨before, hbefore⟩ : ∃ before, ∀ segment, '/' ∉ segment →
      segmentsOf false (cs ++ '/' :: segment) = follow [] (before ++ [segment]) := by
    cases cs with
    | nil =>
      refine ⟨[], fun segment hslash => ?_⟩
      rw [List.nil_append, segmentsOf, if_pos (by decide), splitSlashes_of_notMem hslash]
      rfl
    | cons c cs =>
      refine ⟨splitSlashes false (if isSlash false c then cs else c :: cs),
        fun segment hslash => ?_⟩
      rw [List.cons_append, segmentsOf, ← splitSlashes_of_notMem hslash, ← splitSlashes_append]
      split <;> rfl
  obtain ⟨names, hnames⟩ := exists_follow_append [] before
  exact ⟨names, fun segment hslash hname => (hbefore segment hslash).trans (hnames segment hname)⟩

/-- An authority ends where it did, whatever is put behind a slash. -/
theorem authority?_append_slash (located : List Char) (query fragment : Option String) :
    (∃ e, ∀ behind, authority? "postgres" ⟨located ++ '/' :: behind, query, fragment⟩ = .error e) ∨
      ∃ a before, ∀ behind, authority? "postgres" ⟨located ++ '/' :: behind, query, fragment⟩ =
        .ok (a, before ++ '/' :: behind) := by
  have hplain : isSpecial "postgres" = false := isPlainScheme_postgres.plain
  obtain ⟨text, path, hspan⟩ : ∃ text path, ∀ behind,
      (located ++ '/' :: behind).takeWhile (fun c => !isSlash (isSpecial "postgres") c) = text ∧
        (located ++ '/' :: behind).dropWhile (fun c => !isSlash (isSpecial "postgres") c) =
          path ++ '/' :: behind := by
    by_cases hslash : '/' ∈ located
    · obtain ⟨front, back, rfl, hfront⟩ := List.eq_append_cons_of_mem hslash
      refine ⟨front, '/' :: back, fun behind => ?_⟩
      rw [List.append_assoc, List.cons_append]
      exact span_slash hplain (fun c hc => by rintro rfl; exact hfront hc)
        (head_slash (back ++ '/' :: behind))
    · refine ⟨located, [], fun behind => ?_⟩
      exact span_slash hplain (fun c hc => by rintro rfl; exact hslash hc) (head_slash behind)
  have hpath : ∀ behind, (path ++ '/' :: behind).isEmpty = false := fun behind =>
    List.isEmpty_eq_false_iff.2 (List.append_ne_nil_of_right_ne_nil _ (List.cons_ne_nil _ _))
  simp only [authority?, (hspan _).1, (hspan _).2, hpath, Bool.false_and, Bool.not_false,
    Bool.and_true]
  cases Text.cutLast '@' text with
  | none =>
    cases hostAndPort? "postgres" text with
    | error e => exact .inl ⟨e, fun _ => rfl⟩
    | ok found =>
      obtain ⟨host, port, rest⟩ := found
      refine .inr ⟨⟨"", none, host, port⟩, rest ++ path, fun behind => ?_⟩
      rw [List.append_assoc]
      rfl
  | some cut =>
    obtain ⟨info, located⟩ := cut
    simp only [bind, Except.bind]
    cases info.isEmpty && located.isEmpty with
    | true => exact .inl ⟨.emptyHost, fun _ => rfl⟩
    | false =>
      cases hostAndPort? "postgres" located with
      | error e => exact .inl ⟨e, fun _ => rfl⟩
      | ok found =>
        obtain ⟨host, port, rest⟩ := found
        simp only
        cases host.isEmpty && !((userinfo info).1.isEmpty && (userinfo info).2.isNone) with
        | true => exact .inl ⟨.emptyHost, fun _ => rfl⟩
        | false =>
          refine .inr ⟨⟨(userinfo info).1, (userinfo info).2, host, port⟩, rest ++ path,
            fun behind => ?_⟩
          rw [List.append_assoc]
          rfl

theorem encode_append_ne (encodes : Char → Bool) (cs : List Char) {last : List Char}
    (h : last ≠ []) : encode encodes cs ≠ encode encodes (cs ++ last) := by
  intro hsame
  rw [encode, encode, String.ofList_inj, List.flatMap_append, List.self_eq_append_right,
    ← String.ofList_eq_empty_iff] at hsame
  exact h (encode_eq_empty_iff.1 hsame)

/-- Two readings fail alike, or give URLs that differ, but only behind the host. -/
def ReadApart (read read' : Except UrlError Url) : Prop :=
  (∃ e, read = .error e ∧ read' = .error e) ∨
    ∃ u path query fragment, read = .ok u ∧ read' = .ok { u with path, query, fragment } ∧
      u ≠ { u with path, query, fragment }

section Tails

variable {scheme : String} {t t' : Tail}

theorem ReadApart.of_error {e : UrlError} (h : authority? scheme t = .error e)
    (h' : authority? scheme t' = .error e) :
    ReadApart (ofAuthority? scheme t) (ofAuthority? scheme t') := by
  rw [ofAuthority?, ofAuthority?, h, h']
  exact .inl ⟨e, rfl, rfl⟩

/-- Tails with one authority are read as URLs that are one up to the path. -/
theorem ReadApart.of_ok {a : Authority} {path path' : List Char}
    (h : authority? scheme t = .ok (a, path)) (h' : authority? scheme t' = .ok (a, path'))
    (hends : segmentsOf (isSpecial scheme) path = segmentsOf (isSpecial scheme) path' →
      t.query = t'.query → t.fragment ≠ t'.fragment) :
    ReadApart (ofAuthority? scheme t) (ofAuthority? scheme t') := by
  rw [ofAuthority?, ofAuthority?, h, h']
  refine .inr ⟨_, _, _, _, rfl, rfl, fun hsame => ?_⟩
  simp only [Url.mk.injEq, true_and, Path.segments.injEq] at hsame
  exact hends hsame.1 hsame.2.1 hsame.2.2

theorem ReadApart.of_eq (h : authority? scheme t = authority? scheme t')
    (hends : t.query = t'.query → t.fragment ≠ t'.fragment) :
    ReadApart (ofAuthority? scheme t) (ofAuthority? scheme t') := by
  cases hread : authority? scheme t' with
  | error e => exact of_error (h.trans hread) hread
  | ok found => exact of_ok (h.trans hread) hread fun _ => hends

end Tails

/-- **What is put behind the last slash of an address is read as its end**, of the path, the
query or the fragment, and changes nothing else. -/
theorem readApart_append_slash (located : List Char) {last : List Char} (hfilled : last ≠ [])
    (hlast : '#' ∉ last ∧ '?' ∉ last ∧ '/' ∉ last) (hname : IsName last) :
    ReadApart (ofAuthority? "postgres" (cutTail false (located ++ ['/'])))
      (ofAuthority? "postgres" (cutTail false (located ++ '/' :: last))) := by
  by_cases hmark : '#' ∈ located
  · -- the fragment goes on to the end
    obtain ⟨front, back, rfl, hfront⟩ := List.eq_append_cons_of_mem hmark
    have htail : ∀ behind, cutTail false (front ++ '#' :: back ++ '/' :: behind) =
        { cutTail false front with
          fragment := some (encode inFragment (back ++ '/' :: behind)) } := by
      intro behind
      rw [List.append_assoc, List.cons_append, cutTail, Text.cut_append hfront, cutTail,
        Text.cut_of_notMem hfront]
      rfl
    rw [htail, htail]
    refine .of_eq rfl fun _ hsame => encode_append_ne inFragment (back ++ ['/']) hfilled ?_
    rw [List.append_assoc]
    exact Option.some.inj hsame
  · have hmarks : ∀ {behind}, '#' ∉ behind → '#' ∉ located ++ '/' :: behind := by
      intro behind hbehind hmem
      rcases List.mem_append.1 hmem with hmem | hmem
      · exact hmark hmem
      · exact hbehind ((List.mem_cons.1 hmem).resolve_left (by decide))
    by_cases hasks : '?' ∈ located
    · -- the query does
      obtain ⟨front, back, rfl, hfront⟩ := List.eq_append_cons_of_mem hasks
      have htail : ∀ behind, '#' ∉ behind →
          cutTail false (front ++ '?' :: back ++ '/' :: behind) =
            ⟨front, some (encode (inQuery false) (back ++ '/' :: behind)), none⟩ := by
        intro behind hbehind
        rw [cutTail, Text.cut_of_notMem (hmarks hbehind), List.append_assoc, List.cons_append]
        simp only [Text.cut_append hfront, Option.map_some, Option.map_none]
      rw [htail [] List.not_mem_nil, htail last hlast.1]
      refine .of_eq rfl fun hsame => ?_
      refine absurd ?_ (encode_append_ne (inQuery false) (back ++ ['/']) hfilled)
      rw [List.append_assoc]
      exact Option.some.inj hsame
    · -- the path does
      have htail : ∀ behind, '#' ∉ behind → '?' ∉ behind →
          cutTail false (located ++ '/' :: behind) = ⟨located ++ '/' :: behind, none, none⟩ := by
        intro behind hbehind hask
        refine cutTail_of_notMem false (hmarks hbehind) fun hmem => ?_
        rcases List.mem_append.1 hmem with hmem | hmem
        · exact hasks hmem
        · exact hask ((List.mem_cons.1 hmem).resolve_left (by decide))
      rw [htail [] List.not_mem_nil List.not_mem_nil, htail last hlast.1 hlast.2.1]
      rcases authority?_append_slash located none none with ⟨e, hread⟩ | ⟨a, before, hread⟩
      · exact .of_error (hread []) (hread last)
      · refine .of_ok (hread []) (hread last) fun hsame => ?_
        obtain ⟨names, hnames⟩ := exists_segmentsOf_append before
        rw [isPlainScheme_postgres.plain, hnames [] List.not_mem_nil (by decide),
          hnames last hlast.2.2 hname, List.append_cancel_left_eq, List.cons.injEq] at hsame
        exact absurd hsame.1 (encode_append_ne inPath [] hfilled)

/-- So an empty database is read like the one that stands for none, but for the end. -/
theorem readApart_address (name : String) (port : Nat) :
    let read := fun database : String => parse? s!"postgres://{name}:{port}/{database}"
    ReadApart (read "") (read "postgres") := by
  have hends := readApart_append_slash (scrubbed name.toList ++ placedPort (some port))
    (show "postgres".toList ≠ [] by decide) (by decide) (by decide)
  simp only [parse?_address]
  exact hends

/-- Nothing is not read as a host in front of a port. -/
theorem parse?_address_ne_ok (hname : name = "") {database : String} {u : Url}
    (hport : port ≤ 65535) : parse? s!"postgres://{name}:{port}/{database}" ≠ .ok u := by
  intro hread
  subst hname
  have hwritten := isWritten_of_address hread
  obtain ⟨host, hempty, rfl⟩ := eq_of_address hport (by decide) hread
  obtain ⟨_, ⟨⟩, -, hnamed⟩ := hwritten.host
  obtain rfl : host = .name "" := (Except.ok.inj hempty).symm
  exact Option.some_ne_none _ (hnamed rfl).2.2

/-- The host that stands for none is read, and can be logged in to. -/
theorem exists_parse?_address_localhost (hname : name = "localhost") (database : String)
    (hport : port ≤ 65535) :
    ∃ u, parse? s!"postgres://{name}:{port}/{database}" = .ok u ∧ u.carriesUser = true := by
  subst hname
  have hlocal : Host.plain? "localhost".toList = .ok (.name "localhost") :=
    Profile.eq_ok_of_toOption (by decide +kernel)
  have hbound : ∀ n ∈ some port, n ≤ 65535 := by
    rintro _ ⟨⟩
    exact hport
  have hread := hostAndPort?_text isPlainScheme_postgres.plain (Host.isWritten_of_plain? hlocal)
    hbound fun hempty => absurd hempty (by decide)
  refine ⟨_, (parse?_address_of_unbroken (by decide)).trans (congrArg (Except.map _) hread), rfl⟩

end Url

namespace Profile

variable {p : Profile} {u : Url}

/-- The profile without its empty entries. -/
def withoutEmpty (p : Profile) : Profile := p.filter fun entry => !entry.2.isEmpty

theorem filter_filled (s : Option String) :
    (s.filter fun s => !s.isEmpty) = if s = some "" then none else s := by
  cases s with
  | none => rfl
  | some s =>
    by_cases hempty : s = ""
    · rw [hempty]
      rfl
    · rw [Option.filter_some, if_pos (by simpa using hempty), if_neg (by simpa using hempty)]

theorem get?_withoutEmpty (h : (Keyed.keys p).Nodup) (key : String) :
    Keyed.get? key p.withoutEmpty =
      if Keyed.get? key p = some "" then none else Keyed.get? key p :=
  (Keyed.get?_filter_value h (fun s : String => !s.isEmpty) key).trans (filter_filled _)

/-! ## Entries that are read when there is something in them -/

theorem filled?_withoutEmpty (h : (Keyed.keys p).Nodup) (key : String) :
    p.withoutEmpty.filled? key = p.filled? key := by
  rw [filled?, filled?, get?_withoutEmpty h]
  split
  · rename_i hempty
    rw [hempty]
    rfl
  · rfl

theorem trimmed?_withoutEmpty (h : (Keyed.keys p).Nodup) (key : String) :
    p.withoutEmpty.trimmed? key = p.trimmed? key := by
  rw [trimmed?, trimmed?, get?_withoutEmpty h]
  split
  · rename_i hempty
    rw [hempty]
    rfl
  · rfl

theorem port_withoutEmpty (h : (Keyed.keys p).Nodup) (familyPort : Nat) :
    p.withoutEmpty.port familyPort = p.port familyPort := by
  rw [port, port, filled?_withoutEmpty h]

theorem milvusToken_withoutEmpty (h : (Keyed.keys p).Nodup) :
    p.withoutEmpty.milvusToken = p.milvusToken := by
  simp only [milvusToken, trimmed?_withoutEmpty h]

theorem host_of_empty (h : Keyed.get? "host" p = some "") : p.host = "" := by
  rw [host, h]
  rfl

theorem host_withoutEmpty (h : (Keyed.keys p).Nodup) :
    p.withoutEmpty.host = if Keyed.get? "host" p = some "" then "localhost" else p.host := by
  rw [host, host, get?_withoutEmpty h]
  split <;> rfl

theorem database_of_empty (h : Keyed.get? "database" p = some "") : p.database = "" := by
  rw [database, h]
  rfl

theorem database_withoutEmpty (h : (Keyed.keys p).Nodup) : p.withoutEmpty.database =
    if Keyed.get? "database" p = some "" then "postgres" else p.database := by
  rw [database, database, get?_withoutEmpty h]
  split <;> rfl

/-! ## The address of a server -/

/-- The port, if one is given, is a number of a port. -/
def HasPort (p : Profile) : Prop :=
  ∀ text ∈ p.filled? "port", (Text.natUpTo? 65535 text).isSome = true

theorem hasPort_iff (familyPort : Nat) : p.HasPort ↔ ∃ n, p.port familyPort = .ok n := by
  rw [HasPort, port]
  cases p.filled? "port" with
  | none => exact iff_of_true nofun ⟨familyPort, rfl⟩
  | some text =>
    simp only [Option.mem_some, forall_eq']
    cases Text.natUpTo? 65535 text with
    | none => exact iff_of_false nofun nofun
    | some n => exact iff_of_true rfl ⟨n, rfl⟩

/-- An empty entry shows in the address of a server: it is made of the host. -/
def ShowsInServer (p : Profile) : Prop :=
  p.filled? "url" = none ∧ p.HasPort ∧ Keyed.get? "host" p = some ""

/-- The address of a server shows an empty host, where it is made of one. -/
theorem serverUrl_withoutEmpty_iff (h : (Keyed.keys p).Nodup) (familyPort : Nat) :
    p.serverUrl familyPort = p.withoutEmpty.serverUrl familyPort ↔ ¬ p.ShowsInServer := by
  rw [serverUrl, serverUrl, filled?_withoutEmpty h, port_withoutEmpty h, host_withoutEmpty h,
    ShowsInServer, hasPort_iff familyPort]
  cases p.filled? "url" with
  | some url => exact ⟨fun _ => by rintro ⟨⟨⟩, -⟩, fun _ => rfl⟩
  | none =>
    cases p.port familyPort with
    | error e => exact ⟨fun _ => by rintro ⟨-, ⟨n, ⟨⟩⟩, -⟩, fun _ => rfl⟩
    | ok n =>
      by_cases hempty : Keyed.get? "host" p = some ""
      · rw [if_pos hempty, host_of_empty hempty]
        refine iff_of_false (fun hsame => ?_) fun hshows => hshows ⟨rfl, ⟨n, rfl⟩, hempty⟩
        have hlength := congrArg String.length (Except.ok.inj hsame)
        simp only [String.length_append, Nat.add_right_cancel_iff, Nat.add_left_cancel_iff]
          at hlength
        exact absurd hlength (by decide)
      · rw [if_neg hempty]
        exact iff_of_true rfl fun hshows => hempty hshows.2.2

/-! ## User and password -/

/-- An empty user or password takes away what is there, or is refused. -/
def ClearsUser (p : Profile) (u : Url) : Prop :=
  if u.carriesUser then
    Keyed.get? "user" p = some "" ∧ u.username ≠ "" ∨
      Keyed.get? "password" p = some "" ∧ u.password ≠ none
  else
    Keyed.get? "user" p = some "" ∨
      Keyed.get? "user" p = none ∧ Keyed.get? "password" p = some ""

theorem elim_filled_iff {β : Type} (s : Option String) {b : β} {f : String → β} :
    s.elim b f = (if s = some "" then none else s).elim b f ↔ ¬ (s = some "" ∧ b ≠ f "") := by
  split
  · rename_i hempty
    rw [hempty, Option.elim_some, Option.elim_none, not_and, not_not, eq_comm]
    exact ⟨fun hsame _ => hsame, fun hsame => hsame rfl⟩
  · rename_i hfilled
    exact iff_of_true rfl fun hempty => hfilled hempty.1

theorem placed_withoutEmpty_iff (h : (Keyed.keys p).Nodup) (path : Url.Path)
    (query fragment : Option String) :
    p.placed u = p.withoutEmpty.placed { u with path, query, fragment } ↔
      ¬ (Keyed.get? "user" p = some "" ∧ u.username ≠ "") ∧
        ¬ (Keyed.get? "password" p = some "" ∧ u.password ≠ none) ∧
        u = { u with path, query, fragment } := by
  have huser := elim_filled_iff (Keyed.get? "user" p) (b := u.username)
    (f := fun user => Url.encode Url.inUserinfo user.toList)
  have hpassword := elim_filled_iff (Keyed.get? "password" p) (b := u.password)
    (f := fun password =>
      if password.isEmpty then none else some (Url.encode Url.inUserinfo password.toList))
  rw [Url.encode_eq_empty_iff.2 String.toList_empty] at huser
  rw [if_pos (String.isEmpty_iff.2 rfl)] at hpassword
  rw [← huser, ← hpassword, placed, placed, get?_withoutEmpty h, get?_withoutEmpty h]
  cases u
  simp only [Url.mk.injEq, true_and]

/-- Where no user can be set, an empty one is refused, and so is an empty password unless a
user is refused anyway. -/
theorem setUser_withoutEmpty_iff_of_not_carriesUser (h : (Keyed.keys p).Nodup) {u' : Url}
    (hu : u.carriesUser = false) (hu' : u'.carriesUser = false) :
    (p.setUser u).map Url.text = (p.withoutEmpty.setUser u').map Url.text ↔
      ¬ (Keyed.get? "user" p = some "" ∨
          Keyed.get? "user" p = none ∧ Keyed.get? "password" p = some "") ∧
        (u.text = u'.text ∨ ∀ set, p.setUser u ≠ .ok set) := by
  rw [setUser_of_not_carriesUser hu, setUser_of_not_carriesUser hu', get?_withoutEmpty h,
    get?_withoutEmpty h]
  cases Keyed.get? "user" p with
  | none =>
    cases Keyed.get? "password" p with
    | none =>
      refine (Except.ok.injEq ..).to_iff.trans ⟨fun hsame => ⟨?_, .inl hsame⟩, fun hsame => ?_⟩
      · rintro (hclears | ⟨-, hclears⟩) <;> cases hclears
      · exact hsame.2.resolve_right fun hfails => hfails u rfl
    | some password =>
      by_cases hempty : some password = some ""
      · rw [if_pos hempty]
        exact iff_of_false nofun fun hsame => hsame.1 (.inr ⟨rfl, hempty⟩)
      · rw [if_neg hempty]
        refine iff_of_true rfl ⟨?_, .inr nofun⟩
        rintro (hclears | ⟨-, hclears⟩)
        · cases hclears
        · exact hempty hclears
  | some user =>
    by_cases hempty : some user = some ""
    · rw [if_pos hempty]
      refine iff_of_false ?_ fun hsame => hsame.1 (.inl hempty)
      -- what a password is refused with is not what a user is refused with
      cases if Keyed.get? "password" p = some "" then none else Keyed.get? "password" p with
      | none => exact nofun
      | some password =>
        intro hsame
        have hmessage := congrArg Error.message (Except.error.inj hsame)
        exact absurd hmessage (by decide)
    · rw [if_neg hempty]
      refine iff_of_true rfl ⟨?_, .inr nofun⟩
      rintro (hclears | ⟨hclears, -⟩)
      · exact hempty hclears
      · cases hclears

/-- **When empty entries show in what is set on a URL**, and the rest of it is one text or
another. -/
theorem setUser_withoutEmpty_iff (h : (Keyed.keys p).Nodup) (hu : u.IsWritten) {path : Url.Path}
    {query fragment : Option String} (hu' : { u with path, query, fragment }.IsWritten) :
    (p.setUser u).map Url.text =
        (p.withoutEmpty.setUser { u with path, query, fragment }).map Url.text ↔
      ¬ p.ClearsUser u ∧
        (u = { u with path, query, fragment } ∨ ∀ set, p.setUser u ≠ .ok set) := by
  rw [ClearsUser]
  by_cases hcarries : u.carriesUser = true
  · have hcarries' : { u with path, query, fragment }.carriesUser = true := hcarries
    rw [if_pos hcarries, setUser_of_carriesUser hcarries, setUser_of_carriesUser hcarries',
      Except.map, Except.map, Except.ok.injEq,
      Url.text_inj (isWritten_placed hu hcarries) (isWritten_placed hu' hcarries'),
      placed_withoutEmpty_iff h, not_or, and_assoc]
    refine and_congr_right fun _ => and_congr_right fun _ => ⟨.inl, ?_⟩
    rintro (hsame | hfails)
    · exact hsame
    · exact absurd rfl (hfails _)
  · rw [Bool.not_eq_true] at hcarries
    rw [if_neg (Bool.eq_false_iff.1 hcarries), ← Url.text_inj hu hu']
    exact setUser_withoutEmpty_iff_of_not_carriesUser h hcarries hcarries

/-! ## The address of a database -/

/-- An empty entry shows in what is made of an address: host and database stand in it, and
an empty user or password takes away what a host brings along. -/
def ShowsInAddress (p : Profile) (port : Nat) : Prop :=
  Keyed.get? "host" p = some "" ∨
    ∃ u, Url.parse? (p.address port) = .ok u ∧
      (p.ClearsUser u ∨ Keyed.get? "database" p = some "" ∧ ∃ set, p.setUser u = .ok set)

/-- Where the host stays, only the end of an address changes, if the database is empty. -/
theorem address_withoutEmpty (h : (Keyed.keys p).Nodup) (hhost : Keyed.get? "host" p ≠ some "")
    (n : Nat) :
    (∃ e, Url.parse? (p.address n) = .error e ∧
        Url.parse? (p.withoutEmpty.address n) = .error e) ∨
      ∃ u path query fragment, Url.parse? (p.address n) = .ok u ∧
        Url.parse? (p.withoutEmpty.address n) = .ok { u with path, query, fragment } ∧
        (u = { u with path, query, fragment } ↔ Keyed.get? "database" p ≠ some "") := by
  rw [address, address, host_withoutEmpty h, if_neg hhost, database_withoutEmpty h]
  by_cases hdatabase : Keyed.get? "database" p = some ""
  · rw [if_pos hdatabase, database_of_empty hdatabase]
    refine (Url.readApart_address p.host n).imp_right ?_
    rintro ⟨u, path, query, fragment, hread, hread', hapart⟩
    exact ⟨u, path, query, fragment, hread, hread', iff_of_false hapart (not_not_intro hdatabase)⟩
  · rw [if_neg hdatabase]
    cases hread : Url.parse? s!"postgres://{p.host}:{n}/{p.database}" with
    | error e => exact .inl ⟨e, rfl, rfl⟩
    | ok u => exact .inr ⟨u, u.path, u.query, u.fragment, rfl, rfl, iff_of_true rfl hdatabase⟩

theorem ofAddress_withoutEmpty_iff (h : (Keyed.keys p).Nodup) {n : Nat} (hport : n ≤ 65535) :
    p.ofAddress (Url.parse? (p.address n)) =
        p.withoutEmpty.ofAddress (Url.parse? (p.withoutEmpty.address n)) ↔
      ¬ p.ShowsInAddress n := by
  by_cases hhost : Keyed.get? "host" p = some ""
  · refine iff_of_false (fun hsame => ?_) (not_not_intro (.inl hhost))
    have hlocal : p.withoutEmpty.host = "localhost" := by rw [host_withoutEmpty h, if_pos hhost]
    obtain ⟨u, hread, hcarries⟩ :=
      Url.exists_parse?_address_localhost hlocal p.withoutEmpty.database hport
    rw [address, address, hread] at hsame
    simp only [ofAddress, setUser_of_carriesUser hcarries] at hsame
    split at hsame
    · cases hsame
    · rename_i hempty
      exact Url.parse?_address_ne_ok (host_of_empty hhost) hport hempty
  · rcases address_withoutEmpty h hhost n with
      ⟨e, hread, hread'⟩ | ⟨u, path, query, fragment, hread, hread', hends⟩
    · rw [hread, hread']
      refine iff_of_true rfl ?_
      rintro (hempty | ⟨u, hok, -⟩)
      · exact hhost hempty
      · cases hread.symm.trans hok
    · have hwritten := Url.isWritten_of_address hread
      have hwritten' := Url.isWritten_of_address hread'
      rw [hread, hread']
      refine (setUser_withoutEmpty_iff h hwritten hwritten').trans ?_
      rw [hends, ShowsInAddress, hread]
      constructor
      · rintro ⟨hkept, hdatabase⟩ (hempty | ⟨_, ⟨⟩, hclears | ⟨hempty, set, hset⟩⟩)
        · exact hhost hempty
        · exact hkept hclears
        · exact hdatabase.elim (· hempty) fun hfails => hfails set hset
      · intro hkept
        refine ⟨fun hclears => hkept (.inr ⟨u, rfl, .inl hclears⟩), ?_⟩
        by_cases hset : ∃ set, p.setUser u = .ok set
        · exact .inl fun hempty => hkept (.inr ⟨u, rfl, .inr ⟨hempty, hset⟩⟩)
        · exact .inr fun set hok => hset ⟨set, hok⟩

/-- An empty entry shows in the address of a database. -/
def ShowsInDatabase (p : Profile) : Prop :=
  p.filled? "url" = none ∧ ∃ n, p.port 5432 = .ok n ∧ p.ShowsInAddress n

/-- **The address of a database shows an empty entry** exactly if it is made of host and port,
and the entry shows in what is made. -/
theorem postgresUrl_withoutEmpty_iff (h : (Keyed.keys p).Nodup) :
    p.postgresUrl = p.withoutEmpty.postgresUrl ↔
      ¬ p.ShowsInDatabase := by
  have hurl := filled?_withoutEmpty h "url"
  have hport := port_withoutEmpty h 5432
  rw [ShowsInDatabase]
  cases hgiven : p.filled? "url" with
  | some url =>
    refine iff_of_true ?_ fun hshows => Option.some_ne_none url hshows.1
    simp only [postgresUrl, hurl, hgiven]
  | none =>
    cases hread : p.port 5432 with
    | error e =>
      refine iff_of_true ?_ ?_
      · simp only [postgresUrl, hurl, hport, hgiven, hread, bind, Except.bind]
      · rintro ⟨-, n, ⟨⟩, -⟩
    | ok n =>
      rw [postgresUrl_eq hgiven hread, postgresUrl_eq (hurl.trans hgiven) (hport.trans hread),
        ofAddress_withoutEmpty_iff h (port_le hread), not_iff_not]
      refine ⟨fun hshows => ⟨rfl, n, rfl, hshows⟩, ?_⟩
      rintro ⟨-, _, ⟨⟩, hshows⟩
      exact hshows

/-! ## The settings of a provider -/

/-- An empty entry shows in the settings of a provider. -/
def EmptyShows (provider : String) (p : Profile) : Prop :=
  match Settings.familyOf? provider with
  | none | some .columnar => False
  | some .postgres => p.ShowsInDatabase
  | some _ => p.ShowsInServer

theorem bind_pure_eq_iff {ε α β : Type} {f : α → β} (hf : Function.Injective f)
    {x y : Except ε α} : (do pure (f (← x))) = (do pure (f (← y)) : Except ε β) ↔ x = y := by
  refine ⟨fun hsame => ?_, fun hsame => hsame ▸ rfl⟩
  cases x with
  | error e => cases y <;> cases hsame; rfl
  | ok a =>
    cases y with
    | error e => cases hsame
    | ok b => exact congrArg Except.ok (hf (Except.ok.inj hsame))

/-- **Settings are the same without the empty entries of a profile** exactly if none of them
shows in an address that is made. -/
theorem ofProfile_withoutEmpty_iff (h : (Keyed.keys p).Nodup) (provider : String) :
    Settings.ofProfile provider p = Settings.ofProfile provider p.withoutEmpty ↔
      ¬ p.EmptyShows provider := by
  have hserver : ∀ {make : String → Settings}, Function.Injective make → ∀ familyPort : Nat,
      (do pure (make (← p.serverUrl familyPort))) =
          (do pure (make (← p.withoutEmpty.serverUrl familyPort)) : Result Settings) ↔
        ¬ p.ShowsInServer := fun hmake familyPort =>
    (bind_pure_eq_iff hmake).trans (serverUrl_withoutEmpty_iff h familyPort)
  rw [Settings.ofProfile, Settings.ofProfile, EmptyShows]
  simp only [trimmed?_withoutEmpty h, milvusToken_withoutEmpty h]
  cases Settings.familyOf? provider with
  | none => exact iff_of_true rfl id
  | some family =>
    cases family with
    | chroma => exact hserver (fun _ _ hsame => by cases hsame; rfl) 8000
    | qdrant => exact hserver (fun _ _ hsame => by cases hsame; rfl) 6334
    | postgres =>
      exact (bind_pure_eq_iff fun _ _ hsame => by cases hsame; rfl).trans
        (postgresUrl_withoutEmpty_iff h)
    | milvus => exact hserver (fun _ _ hsame => by cases hsame; rfl) 19530
    | weaviate => exact hserver (fun _ _ hsame => by cases hsame; rfl) 8080
    | columnar => exact iff_of_true rfl id

/-- An empty user and password do not show in the address of a database. -/
theorem ofProfile_withoutEmpty_of_user :
    let p : Profile := [("api_key", ""), ("database", "docs"), ("password", ""), ("port", ""),
      ("user", "")]
    (Keyed.keys p).Nodup ∧ ¬ p.EmptyShows "pgvector" ∧
      Settings.ofProfile "pgvector" p = Settings.ofProfile "pgvector" [("database", "docs")] := by
  intro p
  have hkeys : (Keyed.keys p).Nodup := by decide
  have hread : Url.parse? (p.address 5432) = .ok
      { scheme := "postgres", username := "", password := none, host := some (.name "localhost")
        port := some 5432, path := .segments ["docs"], query := none, fragment := none } :=
    eq_ok_of_toOption (by decide +kernel)
  have hshows : ¬ p.EmptyShows "pgvector" := by
    have hfamily : Settings.familyOf? "pgvector" = some .postgres := by decide
    rw [EmptyShows, hfamily]
    rintro ⟨-, n, hport, hhost | ⟨u, hu, hclears⟩⟩
    · exact absurd hhost (by decide)
    · obtain rfl : 5432 = n := Except.ok.inj hport
      obtain rfl := Except.ok.inj (hread.symm.trans hu)
      rcases hclears with hclears | ⟨hdatabase, -⟩
      · rcases hclears with ⟨-, huser⟩ | ⟨-, hpassword⟩
        · exact huser rfl
        · exact hpassword rfl
      · exact absurd hdatabase (by decide)
  exact ⟨hkeys, hshows, (ofProfile_withoutEmpty_iff hkeys "pgvector").2 hshows⟩

/-- An empty host is kept in the address of a server, where a missing one is this one. -/
theorem empty_host_shows :
    let p : Profile := [("host", "")]
    Settings.ofProfile "chroma" p = .ok (.chroma (.ofUrl "http://:8000")) ∧
      Settings.ofProfile "chroma" p.withoutEmpty = .ok (.chroma (.ofUrl "http://localhost:8000")) ∧
      Settings.ofProfile "chroma" p ≠ Settings.ofProfile "chroma" p.withoutEmpty := by
  intro p
  have hempty : Settings.ofProfile "chroma" p = .ok (.chroma (.ofUrl "http://:8000")) :=
    eq_ok_of_toOption (by decide +kernel)
  have hmissing : Settings.ofProfile "chroma" p.withoutEmpty =
      .ok (.chroma (.ofUrl "http://localhost:8000")) :=
    eq_ok_of_toOption (by decide +kernel)
  refine ⟨hempty, hmissing, ?_⟩
  rw [hempty, hmissing]
  exact fun hsame => absurd (congrArg Except.toOption hsame) (by decide +kernel)

end Profile

end VectorBridge
