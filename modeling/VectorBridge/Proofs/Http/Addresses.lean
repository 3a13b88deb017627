import Mathlib.Tactic.Choose
import VectorBridge.Chroma.Rest
import VectorBridge.Proofs.Http.Exchange
import VectorBridge.Proofs.Url.Resolving
import VectorBridge.Weaviate.Rest
/-!
# Where requests about a collection go

A server over HTTP is asked about a collection at an address that has its name in it: below
the folder of the collections, which is below the base URL. A request carries no more than
path and query, so what is lost on the way to them tells no names apart. Of plain names
nothing is lost: two of them share an address only when they decode to the same bytes. Of
others something may be, and then a call reads or drops what another name stands for.
-/

namespace VectorBridge

/-! ## Base URLs -/

/-- A result that has two steps has both. -/
theorem exists_of_bind_eq_ok {ε α β : Type} {x : Except ε α} {f : α → Except ε β} {b : β}
    (h : x >>= f = .ok b) : ∃ a, x = .ok a ∧ f a = .ok b := by
  cases x with
  | error e => cases h
  | ok a => exact ⟨a, rfl, h⟩

namespace Url

variable {u : Url}

theorem path_of_ofAuthority? {scheme : String} {t : Tail} (h : ofAuthority? scheme t = .ok u) :
    ∃ names, u.path = .segments names := by
  obtain ⟨a, -, hu⟩ := exists_of_bind_eq_ok h
  cases hu
  exact ⟨_, rfl⟩

theorem path_of_ofFile? {t : Tail} (h : ofFile? t = .ok u) : ∃ names, u.path = .segments names := by
  obtain ⟨f, -, hu⟩ := exists_of_bind_eq_ok h
  cases hu
  exact ⟨_, rfl⟩

/-- A special URL has a path of segments. -/
theorem path_of_parse? {s : String} (h : parse? s = .ok u) (hspecial : isSpecial u.scheme = true) :
    ∃ names, u.path = .segments names := by
  rw [parse?] at h
  split at h
  · cases h
  · rename_i scheme rest hscheme
    simp only at h
    split at h
    · exact path_of_ofFile? h
    · split at h
      · exact path_of_ofAuthority? h
      · rename_i hother
        split at h
        · exact path_of_ofAuthority? h
        · cases h
          exact absurd hspecial hother

theorem path_directory (h : ∃ names, u.path = .segments names) :
    ∃ names, u.directory.path = .segments names := by
  obtain ⟨names, hnames⟩ := h
  rw [directory, hnames]
  simp only
  split
  · exact ⟨names, hnames⟩
  · exact ⟨_, rfl⟩

theorem scheme_directory (u : Url) : u.directory.scheme = u.scheme := by
  rw [directory]
  split <;> split <;> rfl

/-- Anything can be resolved against a path of segments, and does not change the scheme. -/
theorem exists_resolve_scheme {base : Url} {names : List String}
    (h : base.path = .segments names) (relative : String) :
    ∃ url, base.resolve? relative = .ok url ∧ url.scheme = base.scheme := by
  rw [resolve?, h]
  exact ⟨_, rfl, rfl⟩

end Url

namespace Http

open Url (IsFolder Plain decoded spellsEscape)

namespace Client

variable {c : Client} {target : String} {path : String}

/-- Web schemes are special. -/
theorem isSpecial_of_isWeb {scheme : String} (h : isWeb scheme = true) :
    Url.isSpecial scheme = true := by
  simp only [isWeb, Bool.or_eq_true, decide_eq_true_eq] at h
  rcases h with rfl | rfl <;> decide

/-- A client keeps the peer it is given, and its base has segments where it is on the web. -/
theorem path_of_ofUrl? {base : String} {token : Option String} {peer : Peer}
    (h : ofUrl? base token peer = .ok c) :
    c.peer = peer ∧
      (isWeb c.base.scheme = true → ∃ names, c.base.path = .segments names) := by
  obtain ⟨u, hu, h⟩ := exists_of_bind_eq_ok h
  obtain ⟨authorization, -, h⟩ := exists_of_bind_eq_ok h
  cases h
  refine ⟨rfl, fun hweb => Url.path_directory (Url.path_of_parse? (s := base) ?_ ?_)⟩
  · cases hparse : Url.parse? base with
    | error e =>
      rw [hparse] at hu
      cases hu
    | ok u' =>
      rw [hparse] at hu
      cases hu
      rfl
  · rw [← Url.scheme_directory u]
    exact isSpecial_of_isWeb hweb

/-! ## Addresses -/

/-- Requests to a path are received, at a target. -/
structure Reaches (c : Client) (path target : String) : Prop where
  listening : c.peer.listening = true
  located : ∃ url, c.locate path = .ok url ∧ isWeb url.scheme = true ∧ url.target = target

/-- A path that begins with a folder is resolved as it is. -/
theorem exists_locate {names : List String} (hnames : c.base.path = .segments names)
    {folder rest : List Char} (hfolder : IsFolder folder) (hpath : path.toList = folder ++ rest) :
    ∃ url, c.base.resolve? (String.ofList (folder ++ rest)) = .ok url ∧
      c.locate path = .ok url ∧ url.scheme = c.base.scheme := by
  obtain ⟨first, hfirst, -, hslash⟩ := hfolder.opened
  obtain ⟨later, rfl⟩ := List.head?_eq_some_iff.1 hfirst
  have hrelative : path.toList.dropWhile (· == '/') = first :: later ++ rest := by
    rw [hpath]
    exact List.dropWhile_cons_of_neg (by simpa using hslash)
  obtain ⟨url, hurl, hscheme⟩ :=
    Url.exists_resolve_scheme hnames (String.ofList (first :: later ++ rest))
  refine ⟨url, hurl, ?_, hscheme⟩
  rw [locate, hrelative, hurl]
  rfl

/-- Plain names that share an address decode to the same bytes, and are equal when neither spells
an escape. -/
def TellsApart (address : String → String) : Prop :=
  ∀ x y : String, Plain x.toList → Plain y.toList → address x = address y →
    decoded x.toList = decoded y.toList ∧
      (spellsEscape x.toList = false → spellsEscape y.toList = false → x = y)

/-- **Every name in a folder has an address**, and plain names are told apart by it. -/
theorem exists_address (hlisten : c.peer.listening = true) (hweb : isWeb c.base.scheme = true)
    (hbase : ∃ names, c.base.path = .segments names) {folder later : List Char}
    (hfolder : IsFolder folder) (hlater : later = [] ∨ ∃ query, later = '?' :: query)
    {path : String → String}
    (hpath : ∀ name, (path name).toList = folder ++ '/' :: name.toList ++ later) :
    ∃ address : String → String,
      (∀ name, c.Reaches (path name) (address name)) ∧ TellsApart address := by
  obtain ⟨names, hnames⟩ := hbase
  obtain ⟨root, closing, hplaced⟩ :=
    Url.exists_resolve hnames (isSpecial_of_isWeb hweb) hfolder hlater
  have hlocate : ∀ name, ∃ url,
      c.base.resolve? (String.ofList (folder ++ '/' :: name.toList ++ later)) = .ok url ∧
      c.locate (path name) = .ok url ∧ url.scheme = c.base.scheme := by
    intro name
    rw [List.append_assoc]
    exact exists_locate hnames hfolder ((hpath name).trans (List.append_assoc _ _ _))
  choose url hresolve hlocated hscheme using hlocate
  refine ⟨fun name => (url name).target,
    fun name => ⟨hlisten, url name, hlocated name, by rw [hscheme, hweb], rfl⟩,
    fun x y hx hy hxy => ?_⟩
  have htarget : ∀ name : String, Plain name.toList →
      (url name).target.toList = root ++ Url.placed name.toList ++ closing := by
    intro name hname
    obtain ⟨_, hurl, htarget⟩ := hplaced name.toList hname
    rw [hresolve] at hurl
    cases hurl
    exact htarget
  -- what surrounds a name is the same for both, so what was placed is too
  have hequal : root ++ Url.placed x.toList ++ closing = root ++ Url.placed y.toList ++ closing := by
    rw [← htarget x hx, ← htarget y hy]
    exact congrArg String.toList hxy
  have hplace := List.append_cancel_left (List.append_cancel_right hequal)
  have hdecoded : decoded x.toList = decoded y.toList := by
    rw [← (Url.written_placed x.toList).decoded_eq, hplace, (Url.written_placed y.toList).decoded_eq]
  exact ⟨hdecoded, fun hx hy => String.toList_inj.1 (Url.eq_of_decoded hdecoded hx hy)⟩

/-- A request goes out, and every one that does goes to a target. -/
def SendsTo (target : String) (before after : Client) : Prop :=
  ∃ requests, requests ≠ [] ∧ after.peer.received = requests ++ before.peer.received ∧
    ∀ request ∈ requests, request.target = target

theorem SendsTo.trans {c₁ c₂ c₃ : Client} (h : SendsTo target c₁ c₂) (h' : SendsTo target c₂ c₃) :
    SendsTo target c₁ c₃ := by
  obtain ⟨requests, hne, hreceived, htarget⟩ := h
  obtain ⟨requests', -, hreceived', htarget'⟩ := h'
  refine ⟨requests' ++ requests, by simp [hne], ?_, ?_⟩
  · rw [hreceived', hreceived, List.append_assoc]
  · intro request hrequest
    exact (List.mem_append.1 hrequest).elim (htarget' request) (htarget request)

/-- A request goes to where its path leads, and the next one does again. -/
theorem Reaches.send {α : Type} (h : c.Reaches path target) (method : Method)
    (body : Option Json) (decode : Json → Option α) :
    SendsTo target c (send method path body decode c).2 ∧
      (send method path body decode c).2.Reaches path target := by
  obtain ⟨hlisten, url, hlocate, hweb, rfl⟩ := h
  have hrequest : c.request? method path body =
      .ok { method, target := url.target, body, authorization := c.authorization } := by
    rw [request?, hlocate]
    exact if_pos hweb
  rw [send_apply hrequest hlisten]
  refine ⟨⟨[_], List.cons_ne_nil _ _, rfl, ?_⟩, hlisten, url, hlocate, hweb, rfl⟩
  intro request hmem
  rw [List.mem_singleton.1 hmem]

end Client

open Client (SendsTo TellsApart)

/-! ## Folders of collections -/

theorem isFolder_collections : IsFolder "api/v1/collections".toList where
  plain := by decide
  opened := ⟨_, rfl, by decide, by decide⟩
  unasked := by decide

theorem isFolder_schema : IsFolder "v1/schema".toList where
  plain := by decide
  opened := ⟨_, rfl, by decide, by decide⟩
  unasked := by decide

theorem toList_collectionsPath (r : Chroma.Rest) (name : String) :
    (r.collectionsPath ("/" ++ name)).toList =
      "api/v1/collections".toList ++ '/' :: name.toList ++ r.scope.toList := by
  have hslash : "/".toList = ['/'] := by decide
  unfold Chroma.Rest.collectionsPath
  -- with the text in it, the goal is taken for one about closed terms
  generalize "api/v1/collections" = folder
  simp only [String.toList_append, hslash, List.singleton_append]

theorem toList_schemaPath (name : String) :
    s!"v1/schema/{name}".toList = "v1/schema".toList ++ '/' :: name.toList ++ [] := by
  have hfolder : (toString "v1/schema/").toList = "v1/schema".toList ++ ['/'] := by decide
  have hname : toString name = name := rfl
  rw [String.toList_append, hfolder, hname, List.append_assoc, List.singleton_append, List.append_nil]

/-- Tenant and database are named in a query, if at all. -/
theorem scopeOf_query (tenant database : Option String) :
    (Chroma.Rest.scopeOf tenant database).toList = [] ∨
      ∃ query, (Chroma.Rest.scopeOf tenant database).toList = '?' :: query := by
  have hmark : "?".toList = ['?'] := by decide
  rw [Chroma.Rest.scopeOf]
  generalize tenant.toList.map ("tenant=" ++ ·) ++ database.toList.map ("database=" ++ ·) = params
  cases params with
  | nil => exact .inl rfl
  | cons param params =>
    right
    rw [String.toList_append, hmark]
    exact ⟨_, rfl⟩

/-! ## Calls about a collection -/

section Calls

variable {name target : String}

theorem sendsTo_find {r : Chroma.Rest}
    (h : r.client.Reaches (r.collectionsPath ("/" ++ name)) target) :
    SendsTo target r.client (Chroma.Rest.find name r).2.client := by
  rw [Chroma.Rest.find, Step.bind_of_ok (Step.get_apply r)]
  exact (h.send .get none Chroma.Info.ofJson?).1

theorem sendsTo_drop {r : Chroma.Rest}
    (h : r.client.Reaches (r.collectionsPath ("/" ++ name)) target) :
    SendsTo target r.client (Chroma.Rest.drop name r).2.client := by
  rw [Chroma.Rest.drop, Step.bind_of_ok (Step.get_apply r)]
  exact (h.send .delete none Client.anything).1

theorem sendsTo_describe {r : Weaviate.Rest} (h : r.client.Reaches s!"v1/schema/{name}" target) :
    SendsTo target r.client (Weaviate.Rest.describe name r).2.client ∧
      (Weaviate.Rest.describe name r).2.client.Reaches s!"v1/schema/{name}" target := by
  rw [Weaviate.Rest.describe]
  exact h.send .get none Weaviate.Class.ofJson?

/-- A class is described before it is dropped, and left where it is not there. -/
theorem sendsTo_drop_class {r : Weaviate.Rest} (h : r.client.Reaches s!"v1/schema/{name}" target) :
    SendsTo target r.client (Weaviate.Rest.drop name r).2.client := by
  obtain ⟨hsent, hagain⟩ := sendsTo_describe h
  rw [Weaviate.Rest.drop, Step.bind_apply]
  rcases hdescribe : Weaviate.Rest.describe name r with ⟨e | definition, r'⟩ <;>
    rw [hdescribe] at hsent hagain
  · exact hsent
  · exact hsent.trans (hagain.send .delete none Client.anything).1

end Calls

/-- **Plain names are told apart.** Whatever base URL of the web a client accepts, tenant,
database and token included, and whatever was asked before: the requests that look up or drop a
collection go to one address, and plain names that have the same address decode to the same bytes;
so there is none that two plain names without escapes have in common. -/
theorem plain_names_apart {peer : Peer} (hlisten : peer.listening = true) :
    (∀ {s : ChromaSettings} {r : Chroma.Rest}, Chroma.Rest.ofSettings? s peer = .ok r →
      Client.isWeb r.client.base.scheme = true →
      ∃ address : String → String,
        (∀ name, SendsTo (address name) r.client (Chroma.Rest.find name r).2.client ∧
          SendsTo (address name) r.client (Chroma.Rest.drop name r).2.client) ∧
        TellsApart address) ∧
    ∀ {s : WeaviateSettings} {r : Weaviate.Rest}, Weaviate.Rest.ofSettings? s peer = .ok r →
      Client.isWeb r.client.base.scheme = true →
      ∃ address : String → String,
        (∀ name, SendsTo (address name) r.client (Weaviate.Rest.describe name r).2.client ∧
          SendsTo (address name) r.client (Weaviate.Rest.drop name r).2.client) ∧
        TellsApart address := by
  constructor
  · intro s r hr hweb
    obtain ⟨c, hc, hr⟩ := exists_of_bind_eq_ok hr
    cases hr
    obtain ⟨rfl, hbase⟩ := Client.path_of_ofUrl? hc
    obtain ⟨address, haddress, hplain⟩ := Client.exists_address hlisten hweb (hbase hweb)
      isFolder_collections (scopeOf_query s.tenant s.database) (toList_collectionsPath ⟨c, _⟩)
    exact ⟨address, fun name => ⟨sendsTo_find (haddress name), sendsTo_drop (haddress name)⟩, hplain⟩
  · intro s r hr hweb
    obtain ⟨c, hc, hr⟩ := exists_of_bind_eq_ok hr
    cases hr
    obtain ⟨rfl, hbase⟩ := Client.path_of_ofUrl? hc
    obtain ⟨address, haddress, hplain⟩ := Client.exists_address hlisten hweb (hbase hweb)
      isFolder_schema (.inl rfl) toList_schemaPath
    exact ⟨address, fun name =>
      ⟨(sendsTo_describe (haddress name)).1, sendsTo_drop_class (haddress name)⟩, hplain⟩

/-! ### One server of each kind -/

/-- A Chroma server on this machine. -/
def chromaHere (tenant : Option String) : ChromaSettings :=
  ⟨"http://localhost:8000/db", tenant, none, none, 30⟩

/-- A Weaviate server on this machine. -/
def weaviateHere : WeaviateSettings := ⟨"http://localhost:8080", none, 30⟩

/-- Of two names, one has an accent and a blank, the other a question mark. -/
theorem plain_names_apart_of_two :
    (Peer.scripted []).listening = true ∧ Plain "my café".toList ∧ Plain "my?caf".toList ∧
    (∃ r, Chroma.Rest.ofSettings? (chromaHere (some "one")) (.scripted []) = .ok r ∧
      Client.isWeb r.client.base.scheme = true ∧ ∃ address : String → String,
        (∀ name, SendsTo (address name) r.client (Chroma.Rest.find name r).2.client ∧
          SendsTo (address name) r.client (Chroma.Rest.drop name r).2.client) ∧
        address "my café" ≠ address "my?caf") ∧
    ∃ r, Weaviate.Rest.ofSettings? weaviateHere (.scripted []) = .ok r ∧
      Client.isWeb r.client.base.scheme = true ∧ ∃ address : String → String,
        (∀ name, SendsTo (address name) r.client (Weaviate.Rest.describe name r).2.client ∧
          SendsTo (address name) r.client (Weaviate.Rest.drop name r).2.client) ∧
        address "my café" ≠ address "my?caf" := by
  have hlisten : (Peer.scripted []).listening = true := rfl
  have hx : Plain "my café".toList := by decide
  have hy : Plain "my?caf".toList := by decide
  have hne : "my café" ≠ "my?caf" := by decide
  obtain ⟨r, hr, hweb⟩ := exists_of_any_toOption
    (x := Chroma.Rest.ofSettings? (chromaHere (some "one")) (.scripted []))
    (p := fun r => Client.isWeb r.client.base.scheme) (by decide +kernel)
  obtain ⟨r', hr', hweb'⟩ := exists_of_any_toOption
    (x := Weaviate.Rest.ofSettings? weaviateHere (.scripted []))
    (p := fun r => Client.isWeb r.client.base.scheme) (by decide +kernel)
  obtain ⟨address, hsent, hplain⟩ := (plain_names_apart hlisten).1 hr hweb
  obtain ⟨address', hsent', hplain'⟩ := (plain_names_apart hlisten).2 hr' hweb'
  exact ⟨hlisten, hx, hy,
    ⟨r, hr, hweb, address, hsent, fun h => hne ((hplain _ _ hx hy h).2 (by decide) (by decide))⟩,
    ⟨r', hr', hweb', address', hsent', fun h => hne ((hplain' _ _ hx hy h).2 (by decide) (by decide))⟩⟩

/-- Pairs of names that are taken for each other, and where requests about both go. -/
def mistaken : List (String × String × String) :=
  [("docs#1", "docs#2", "docs"), ("docs#old", "docs", "docs"), ("docs\t", "docs", "docs"),
    ("a\\b", "a/b", "a/b"), ("new/../docs", "docs", "docs"), ("a b", "a%20b", "a%20b")]

/-- Where the requests that a client sent went, latest first. -/
def sentTo (c : Client) : List String := c.peer.received.map (·.target)

/-- A class as a server describes it. -/
def described : Reply := ⟨200, (Json.obj [("class", .str "Docs")]).text⟩

/-- **A name can stand for what another one does**: a number sign ends it, tabs are left out,
slashes and dots are followed, and escapes are read as they are. Looking up the one looks up
the other, and dropping the one drops the other. -/
theorem names_mistaken :
    (∃ r, Chroma.Rest.ofSettings? (chromaHere none) (.scripted []) = .ok r ∧
      ∀ p ∈ mistaken, p.1 ≠ p.2.1 ∧ ∀ name ∈ [p.1, p.2.1],
        sentTo (Chroma.Rest.find name r).2.client = ["/db/api/v1/collections/" ++ p.2.2] ∧
        sentTo (Chroma.Rest.drop name r).2.client = ["/db/api/v1/collections/" ++ p.2.2]) ∧
    ∃ r, Weaviate.Rest.ofSettings? weaviateHere (.scripted [described]) = .ok r ∧
      ∀ p ∈ mistaken, p.1 ≠ p.2.1 ∧ ∀ name ∈ [p.1, p.2.1],
        sentTo (Weaviate.Rest.describe name r).2.client = ["/v1/schema/" ++ p.2.2] ∧
        sentTo (Weaviate.Rest.drop name r).2.client =
          ["/v1/schema/" ++ p.2.2, "/v1/schema/" ++ p.2.2] := by
  constructor
  · obtain ⟨r, hr, hsent⟩ := exists_of_any_toOption
      (x := Chroma.Rest.ofSettings? (chromaHere none) (.scripted []))
      (p := fun r => ∀ p ∈ mistaken, p.1 ≠ p.2.1 ∧ ∀ name ∈ [p.1, p.2.1],
        sentTo (Chroma.Rest.find name r).2.client = ["/db/api/v1/collections/" ++ p.2.2] ∧
        sentTo (Chroma.Rest.drop name r).2.client = ["/db/api/v1/collections/" ++ p.2.2])
      (by decide +kernel)
    exact ⟨r, hr, of_decide_eq_true hsent⟩
  · obtain ⟨r, hr, hsent⟩ := exists_of_any_toOption
      (x := Weaviate.Rest.ofSettings? weaviateHere (.scripted [described]))
      (p := fun r => ∀ p ∈ mistaken, p.1 ≠ p.2.1 ∧ ∀ name ∈ [p.1, p.2.1],
        sentTo (Weaviate.Rest.describe name r).2.client = ["/v1/schema/" ++ p.2.2] ∧
        sentTo (Weaviate.Rest.drop name r).2.client =
          ["/v1/schema/" ++ p.2.2, "/v1/schema/" ++ p.2.2])
      (by decide +kernel)
    exact ⟨r, hr, of_decide_eq_true hsent⟩

end Http

end VectorBridge
