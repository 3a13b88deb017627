import VectorBridge.Postgres.Statement
/-!
# Names stay in their quotes

A delimited identifier is read from its opening quote on: two quotes in a row stand for one,
and the first that is not doubled closes it. What is written for a name is read as that name
and ends with its last quote, however many quotes the name has and wherever they stand: each
is written as a pair, and pairs are read from the left. Only a quote right behind the closing
one could change that, and no statement has one there. So the statements about two tables
differ in the identifiers of the table and of its index, and in nothing else.
-/

namespace VectorBridge

namespace Postgres

/-! ## Quoted text -/

/-- What stands in quotes, behind the opening one, and what follows the closing one. Two quotes
in a row stand for one, and the first that is not doubled closes. -/
def takeQuoted (quote : Char) : List Char → Option (List Char × List Char)
  | [] => none
  | c :: rest =>
    if c = quote then
      match rest with
      | [] => some ([], [])
      | d :: behind =>
        if d = quote then (takeQuoted quote behind).map fun r => (quote :: r.1, r.2)
        else some ([], d :: behind)
    else (takeQuoted quote rest).map fun r => (c :: r.1, r.2)

/-- A character as it stands between quotes. -/
def doubledChar (quote c : Char) : List Char := if c = quote then [quote, quote] else [c]

section TakeQuoted

variable {quote : Char} {cs content behind : List Char}

theorem takeQuoted_quote (h : behind.head? ≠ some quote) :
    takeQuoted quote (quote :: behind) = some ([], behind) := by
  rw [takeQuoted.eq_def]
  cases behind with
  | nil => exact if_pos rfl
  | cons d behind => exact (if_pos rfl).trans (if_neg fun hd => h (congrArg some hd))

theorem takeQuoted_doubledChar (c : Char) (rest : List Char) :
    takeQuoted quote (doubledChar quote c ++ rest) =
      (takeQuoted quote rest).map fun r => (c :: r.1, r.2) := by
  by_cases hc : c = quote
  · rw [doubledChar, if_pos hc, hc, List.cons_append, List.singleton_append, takeQuoted.eq_def]
    exact (if_pos rfl).trans (if_pos rfl)
  · rw [doubledChar, if_neg hc, List.singleton_append, takeQuoted.eq_def]
    exact if_neg hc

/-- **Doubled quotes do not close.** -/
theorem takeQuoted_flatMap (cs : List Char) (h : behind.head? ≠ some quote) :
    takeQuoted quote (cs.flatMap (doubledChar quote) ++ quote :: behind) = some (cs, behind) := by
  induction cs with
  | nil => exact takeQuoted_quote h
  | cons c cs ih =>
    rw [List.flatMap_cons, List.append_assoc, takeQuoted_doubledChar, ih]
    rfl

/-- **Quoted text has one written form.** -/
theorem eq_of_takeQuoted (h : takeQuoted quote cs = some (content, behind)) :
    cs = content.flatMap (doubledChar quote) ++ quote :: behind ∧ behind.head? ≠ some quote := by
  fun_induction takeQuoted quote cs generalizing content with
  | case1 => cases h
  | case2 =>
    cases h
    exact ⟨rfl, nofun⟩
  | case3 rest ih =>
    -- a pair of quotes
    obtain ⟨⟨content, behind⟩, hrest, hr⟩ := Option.map_eq_some_iff.1 h
    cases hr
    obtain ⟨rfl, hbehind⟩ := ih hrest
    exact ⟨by rw [List.flatMap_cons, doubledChar, if_pos rfl]; rfl, hbehind⟩
  | case4 d rest hd =>
    -- a quote that is not doubled
    cases h
    exact ⟨rfl, fun hhead => hd (Option.some.inj hhead)⟩
  | case5 c rest hc ih =>
    obtain ⟨⟨content, behind⟩, hrest, hr⟩ := Option.map_eq_some_iff.1 h
    cases hr
    obtain ⟨rfl, hbehind⟩ := ih hrest
    exact ⟨by rw [List.flatMap_cons, doubledChar, if_neg hc]; rfl, hbehind⟩

theorem length_of_takeQuoted (h : takeQuoted quote cs = some (content, behind)) :
    behind.length < cs.length := by
  obtain ⟨rfl, -⟩ := eq_of_takeQuoted h
  rw [List.length_append, List.length_cons]
  omega

end TakeQuoted

/-! ## Identifiers -/

/-- The delimited identifier that a text begins with, and the text behind it. -/
def scanIdentifier? (text : String) : Option (String × String) :=
  match text.toList with
  | '"' :: rest =>
    (takeQuoted '"' rest).map fun r => (String.ofList r.1, String.ofList r.2)
  | _ => none

theorem toList_quoteIdentifier_append (name : String) (behind : List Char) :
    (quoteIdentifier name).toList ++ behind =
      '"' :: (name.toList.flatMap (doubledChar '"') ++ '"' :: behind) := by
  have hname : (quoteIdentifier name).toList =
      '"' :: (name.toList.flatMap (doubledChar '"') ++ ['"']) := by
    simp only [quoteIdentifier, String.toList_append, String.toList_ofList]
    rfl
  rw [hname, List.cons_append, List.append_assoc, List.singleton_append]

/-- What is written for a name is scanned as that name, if no quote continues it. -/
theorem scanIdentifier?_append (name behind : String)
    (h : behind.toList.head? ≠ some '"') :
    scanIdentifier? (quoteIdentifier name ++ behind) = some (name, behind) := by
  rw [scanIdentifier?, String.toList_append, toList_quoteIdentifier_append]
  simp only [takeQuoted_flatMap _ h, Option.map_some, String.ofList_toList]

/-- The quotes at both ends and the two in the middle are all part of the name. -/
example : scanIdentifier? (quoteIdentifier "\"a\"\"b\"" ++ " (") = some ("\"a\"\"b\"", " (") := by
  cbv

/-- **What is scanned as an identifier was written for its name**, and is not continued. -/
theorem eq_of_scanIdentifier? {text name behind : String}
    (h : scanIdentifier? text = some (name, behind)) :
    text = quoteIdentifier name ++ behind ∧ behind.toList.head? ≠ some '"' := by
  rw [scanIdentifier?] at h
  split at h
  · rename_i rest htext
    obtain ⟨⟨content, behind⟩, hread, hr⟩ := Option.map_eq_some_iff.1 h
    cases hr
    obtain ⟨rfl, hbehind⟩ := eq_of_takeQuoted hread
    rw [← String.toList_inj, String.toList_append, toList_quoteIdentifier_append, htext,
      String.toList_ofList, String.toList_ofList]
    exact ⟨rfl, hbehind⟩
  · cases h

theorem scanIdentifier?_quoteIdentifier (name : String) :
    scanIdentifier? (quoteIdentifier name) = some (name, "") := by
  have hscan := scanIdentifier?_append name "" nofun
  rwa [String.append_empty] at hscan

theorem quoteIdentifier_injective : Function.Injective quoteIdentifier := by
  intro name name' h
  have hscan := scanIdentifier?_quoteIdentifier name
  rw [h, scanIdentifier?_quoteIdentifier] at hscan
  exact (congrArg Prod.fst (Option.some.inj hscan)).symm

/-! ## Pieces of a statement -/

/-- A piece of an SQL text: a character outside of quotes, quoted text, or text whose quote is
never closed. Double quotes hold identifiers, single ones strings. -/
inductive Piece where
  | bare (c : Char)
  | quoted (quote : Char) (content : String)
  | unclosed (quote : Char) (rest : String)

def isQuote (c : Char) : Bool := c == '"' || c == '\x27'

/-- The pieces of an SQL text, as its quotes divide it. -/
def pieces : List Char → List Piece
  | [] => []
  | c :: rest =>
    if isQuote c then
      match _ : takeQuoted c rest with
      | some (content, behind) => .quoted c (String.ofList content) :: pieces behind
      | none => [.unclosed c (String.ofList rest)]
    else .bare c :: pieces rest
termination_by cs => cs.length
decreasing_by
  · exact Nat.lt_succ_of_lt (length_of_takeQuoted ‹_›)
  · exact Nat.lt_succ_self _

theorem pieces_bare {c : Char} (hc : isQuote c = false) (rest : List Char) :
    pieces (c :: rest) = .bare c :: pieces rest := by
  rw [pieces, if_neg (Bool.eq_false_iff.1 hc)]

theorem pieces_quoted {quote : Char} {cs content behind : List Char} (hquote : isQuote quote = true)
    (h : takeQuoted quote cs = some (content, behind)) :
    pieces (quote :: cs) = .quoted quote (String.ofList content) :: pieces behind := by
  rw [pieces, if_pos hquote]
  split
  · rename_i content' behind' h'
    cases h.symm.trans h'
    rfl
  · rename_i h'
    cases h.symm.trans h'

/-- **An identifier is one piece.** -/
theorem pieces_identifier (name : String) {behind : List Char} (h : behind.head? ≠ some '"') :
    pieces ((quoteIdentifier name).toList ++ behind) = .quoted '"' name :: pieces behind := by
  rw [toList_quoteIdentifier_append, pieces_quoted rfl (takeQuoted_flatMap name.toList h),
    String.ofList_toList]

/-- Whether a text begins with a character that does not continue an identifier. -/
def beginsApart (s : String) : Bool :=
  s.toList.head?.any fun c => c != '"'

theorem exists_of_beginsApart {s : String} (h : beginsApart s = true) :
    ∃ c cs, s.toList = c :: cs ∧ c ≠ '"' := by
  rw [beginsApart] at h
  cases hs : s.toList with
  | nil =>
    rw [hs] at h
    cases h
  | cons c cs =>
    rw [hs] at h
    exact ⟨c, cs, rfl, bne_iff_ne.1 h⟩

theorem beginsApart_append {s : String} (h : beginsApart s = true) (t : String) :
    beginsApart (s ++ t) = true := by
  obtain ⟨c, cs, hs, hc⟩ := exists_of_beginsApart h
  rw [beginsApart, String.toList_append, hs]
  exact bne_iff_ne.2 hc

theorem head?_append_of_beginsApart {s : String} (h : beginsApart s = true) (behind : List Char) :
    (s.toList ++ behind).head? ≠ some '"' := by
  obtain ⟨c, cs, hs, hc⟩ := exists_of_beginsApart h
  rw [hs]
  exact fun hhead => hc (Option.some.inj hhead)

theorem head?_of_beginsApart {s : String} (h : beginsApart s = true) :
    s.toList.head? ≠ some '"' := by
  have happend := head?_append_of_beginsApart h []
  rwa [List.append_nil] at happend

/-- A text that is read as these pieces, whatever follows it. -/
def ReadAs (s : String) (ps : List Piece) : Prop :=
  ∀ behind, pieces (s.toList ++ behind) = ps ++ pieces behind

namespace ReadAs

variable {s t : String} {ps qs : List Piece}

theorem append (hs : ReadAs s ps) (ht : ReadAs t qs) : ReadAs (s ++ t) (ps ++ qs) := by
  intro behind
  rw [String.toList_append, List.append_assoc, hs, ht, List.append_assoc]

/-- Text without quotes is read character by character. -/
theorem bare (h : s.toList.all (fun c => !isQuote c) = true) : ReadAs s (s.toList.map .bare) := by
  have hbare : ∀ cs : List Char, (∀ c ∈ cs, isQuote c = false) → ∀ behind,
      pieces (cs ++ behind) = cs.map .bare ++ pieces behind := by
    intro cs hcs behind
    induction cs with
    | nil => rfl
    | cons c cs ih =>
      obtain ⟨hc, hcs⟩ := List.forall_mem_cons.1 hcs
      rw [List.cons_append, pieces_bare hc, ih hcs, List.map_cons, List.cons_append]
  exact hbare s.toList (by simpa using h)

theorem identifier (name : String) (ht : ReadAs t qs) (h : beginsApart t = true) :
    ReadAs (quoteIdentifier name ++ t) (.quoted '"' name :: qs) := by
  intro behind
  rw [String.toList_append, List.append_assoc,
    pieces_identifier name (head?_append_of_beginsApart h behind), ht, List.cons_append]

end ReadAs

/-- A number is read digit by digit. -/
theorem readAs_number (n : Nat) : ReadAs (toString n) ((toString n).toList.map .bare) := by
  refine .bare (List.all_eq_true.2 fun c hc => ?_)
  have hdigit : c.isDigit = true := by
    have hmem : c ∈ Nat.toDigits 10 n := by rwa [← Nat.toList_repr]
    exact Nat.isDigit_of_mem_toDigits (by decide) (by decide) hmem
  rw [Bool.not_eq_true', Bool.eq_false_iff, isQuote]
  intro hquote
  rw [Bool.or_eq_true, beq_iff_eq, beq_iff_eq] at hquote
  rcases hquote with rfl | rfl <;> exact absurd hdigit (by decide)

/-- The columns are read as identifiers, and what follows them as it stands. -/
theorem exists_readAs_itemColumns {t : String} {qs : List Piece} (ht : ReadAs t qs)
    (h : beginsApart t = true) : ∃ ps, ReadAs (itemColumns ++ t) ps := by
  have hcolumns : itemColumns = quoteIdentifier "id" ++ (", " ++ (quoteIdentifier "document" ++
      (", " ++ (quoteIdentifier "metadata" ++ (", " ++ quoteIdentifier "embedding"))))) := by decide
  have hcomma : ReadAs ", " _ := .bare (by decide)
  have hbegins : ∀ u, beginsApart (", " ++ u) = true := beginsApart_append (by decide)
  simp only [hcolumns, String.append_assoc]
  exact ⟨_, .identifier _ (hcomma.append (.identifier _ (hcomma.append (.identifier _ (hcomma.append
    (.identifier _ ht h)) (hbegins _))) (hbegins _))) (hbegins _)⟩

/-! ## Statements -/

/-- A place in a statement: a piece that is there for every table, the identifier of the table
or that of its index. -/
inductive Slot where
  | fixed (p : Piece)
  | table
  | index

/-- What stands in a place for a table of this name. -/
def Slot.fill (name : String) : Slot → Piece
  | fixed p => p
  | table => .quoted '"' name
  | index => .quoted '"' (indexName name)

theorem map_fill_fixed (name : String) (ps : List Piece) :
    (ps.map Slot.fixed).map (Slot.fill name) = ps := by
  rw [List.map_map]
  exact List.map_id ps

/-- A text that names the table it is made for, and has the same pieces for all tables but for
the identifiers of the table and of its index. -/
def NamesTable (text : String → String) : Prop :=
  ∃ slots : List Slot, .table ∈ slots ∧
    ∀ name, pieces (text name).toList = slots.map (Slot.fill name)

namespace NamesTable

variable {text : String → String} {before : String} {ps : List Piece}

/-- A table may be named behind text that is read by itself. -/
theorem of_split (hbefore : ReadAs before ps)
    (h : ∃ behind, (∀ name, text name = before ++ (quoteIdentifier name ++ behind)) ∧
      behind.toList.head? ≠ some '"') : NamesTable text := by
  obtain ⟨behind, htext, hapart⟩ := h
  refine ⟨ps.map .fixed ++ .table :: (pieces behind.toList).map .fixed, ?_, fun name => ?_⟩
  · exact List.mem_append_right _ List.mem_cons_self
  · rw [htext, String.toList_append, hbefore, String.toList_append, pieces_identifier name hapart,
      List.map_append, List.map_cons, map_fill_fixed, map_fill_fixed]
    rfl

/-- And so may its index, before it. -/
theorem of_index (hbefore : ReadAs before ps)
    (h : ∃ rest : String → String,
      (∀ name, text name = before ++ (quoteIdentifier (indexName name) ++ rest name)) ∧
        NamesTable rest ∧ ∀ name, beginsApart (rest name) = true) : NamesTable text := by
  obtain ⟨rest, htext, ⟨slots, hmem, hslots⟩, hbegins⟩ := h
  refine ⟨ps.map .fixed ++ .index :: slots, ?_, fun name => ?_⟩
  · exact List.mem_append_right _ (List.mem_cons_of_mem _ hmem)
  · rw [htext, String.toList_append, hbefore, String.toList_append,
      pieces_identifier _ (head?_of_beginsApart (hbegins name)), hslots,
      List.map_append, List.map_cons, map_fill_fixed]
    rfl

end NamesTable

namespace Statement

theorem beginsApart_whereClause (filter : Option SqlWhere) {t : String}
    (h : beginsApart t = true) : beginsApart ((whereClause filter []).1 ++ t) = true := by
  cases filter with
  | none => exact h
  | some w =>
    show beginsApart (" WHERE " ++ (w.render []).1 ++ t) = true
    rw [String.append_assoc]
    exact beginsApart_append (by decide) _

/-- What stands before the table where its items are read. -/
theorem exists_readAs_select : ∃ ps, ReadAs ("SELECT " ++ (itemColumns ++ " FROM ")) ps := by
  obtain ⟨ps, hcolumns⟩ :=
    exists_readAs_itemColumns (t := " FROM ") (.bare (by decide)) (by decide)
  exact ⟨_, .append (.bare (by decide)) hcolumns⟩

/-- What stands before the table where distances are read as well. -/
theorem exists_readAs_nearest (metric : Metric) (n : Nat) :
    ∃ ps, ReadAs ("SELECT " ++ (itemColumns ++ (", (\"embedding\" " ++ (distanceOperator metric ++
      (" $" ++ (toString n ++ (")" ++ "::double precision AS distance FROM "))))))) ps := by
  have hvector : ", (\"embedding\" " = ", (" ++ (quoteIdentifier "embedding" ++ " ") := by decide
  have hoperator : ReadAs (distanceOperator metric) _ := .bare (by cases metric <;> decide)
  obtain ⟨ps, hdistance⟩ : ∃ ps, ReadAs (", (\"embedding\" " ++ (distanceOperator metric ++
      (" $" ++ (toString n ++ (")" ++ "::double precision AS distance FROM "))))) ps := by
    rw [hvector, String.append_assoc, String.append_assoc]
    exact ⟨_, .append (.bare (by decide)) (.identifier _
      (.append (.bare (by decide)) (hoperator.append (.append (.bare (by decide))
        ((readAs_number n).append (.append (.bare (by decide)) (.bare (by decide)))))))
      (beginsApart_append (by decide) _))⟩
  obtain ⟨ps, hcolumns⟩ := exists_readAs_itemColumns hdistance (beginsApart_append (by decide) _)
  exact ⟨_, .append (.bare (by decide)) hcolumns⟩

/-- **Every statement names its table as it is.** -/
theorem namesTable_text (s : Statement) : NamesTable s.text := by
  have hapart {s t : String} (h : beginsApart s = true) : (s ++ t).toList.head? ≠ some '"' :=
    head?_of_beginsApart (beginsApart_append h t)
  cases s with
  | createTable width =>
    refine .of_split (.bare (s := "CREATE TABLE ") (by decide)) ?_
    simp only [text, render, String.append_assoc]
    exact ⟨_, fun _ => rfl, hapart (by decide)⟩
  | createIndex metric lists =>
    refine .of_index (.bare (s := "CREATE INDEX ") (by decide)) ?_
    simp only [text, render, String.append_assoc]
    refine ⟨_, fun _ => rfl, ?_, fun _ => beginsApart_append (by decide) _⟩
    exact .of_split (.bare (s := " ON ") (by decide)) ⟨_, fun _ => rfl, hapart (by decide)⟩
  | dropTable =>
    refine .of_split (.bare (s := "DROP TABLE ") (by decide)) ⟨"", fun name => ?_, nofun⟩
    rw [String.append_empty]
    rfl
  | upsert =>
    refine .of_split (.bare (s := "INSERT INTO ") (by decide)) ?_
    simp only [text, render, String.append_assoc]
    exact ⟨_, fun _ => rfl, hapart (by decide)⟩
  | fetch =>
    obtain ⟨ps, hselect⟩ := exists_readAs_select
    refine .of_split hselect ?_
    simp only [text, render, String.append_assoc]
    exact ⟨_, fun _ => rfl, by decide⟩
  | select filter offset limit =>
    obtain ⟨ps, hselect⟩ := exists_readAs_select
    refine .of_split hselect ?_
    simp only [text, render, String.append_assoc]
    exact ⟨_, fun _ => rfl, head?_of_beginsApart
      (beginsApart_whereClause filter (beginsApart_append (by decide) _))⟩
  | delete =>
    refine .of_split (.bare (s := "DELETE FROM ") (by decide)) ?_
    simp only [text, render, String.append_assoc]
    exact ⟨_, fun _ => rfl, by decide⟩
  | deleteWhere filter =>
    refine .of_split (.bare (s := "DELETE FROM ") (by decide)) ?_
    simp only [text, render, String.append_assoc]
    exact ⟨_, fun _ => rfl, hapart (by decide)⟩
  | count =>
    refine .of_split (.bare (s := "SELECT COUNT(*) AS count FROM ") (by decide))
      ⟨"", fun name => ?_, nofun⟩
    rw [String.append_empty]
    rfl
  | nearest metric filter =>
    obtain ⟨ps, hselect⟩ := exists_readAs_nearest metric ((condition filter []).2.length + 1)
    refine .of_split hselect ?_
    simp only [text, render, String.append_assoc]
    exact ⟨_, fun _ => rfl, hapart (by decide)⟩

end Statement

/-- **Nothing in a name ends its identifier.** Scanning what is written for a name takes all of it
and gives the name; behind it may stand anything but a quote, and nothing else is scanned as that
name. Two names are never written alike, and every statement is divided in the same way for all
tables: the name of the table is the one piece where it stands. -/
theorem names_stay_delimited :
    (∀ name, scanIdentifier? (quoteIdentifier name) = some (name, "")) ∧
      (∀ text name behind, scanIdentifier? text = some (name, behind) ↔
        text = quoteIdentifier name ++ behind ∧ behind.toList.head? ≠ some '"') ∧
      Function.Injective quoteIdentifier ∧
      ∀ s : Statement, NamesTable s.text := by
  refine ⟨scanIdentifier?_quoteIdentifier, fun text name behind => ?_, quoteIdentifier_injective,
    Statement.namesTable_text⟩
  refine ⟨eq_of_scanIdentifier?, ?_⟩
  rintro ⟨rfl, hapart⟩
  exact scanIdentifier?_append name behind hapart

end Postgres

end VectorBridge
