import EntityGraph.Proofs.Sql.Binding
import EntityGraph.Proofs.Sql.Outline
import EntityGraph.Proofs.Text.Quoted

namespace EntityGraph

/-- A model without names. Of what it declares only the identity is left, since the rest is in no column. -/
def Model.unnamed (m : Model) : Model :=
  ⟨"", "", m.validated, "", m.identityType, m.identityGenerated, [], [], []⟩

def SortOrder.unnamed (s : SortOrder) : SortOrder :=
  { s with field := "" }

namespace Sql

open Token

def Token.areLegible : List Token → Bool
  | [] => true
  | x :: rest => x.isLegible && (rest.head?.all fun y => !x.endsSolid || !y.startsSolid) && areLegible rest

namespace Token.Legible

variable {s : List Token} (schema : String) (m : Model) (id content : Json)

theorem of_areLegible (s : List Token) (h : areLegible s = true) : Legible s := by
  induction s with
  | nil => exact ⟨nofun, .nil⟩
  | cons x rest ih =>
    rw [areLegible, Bool.and_eq_true_iff, Bool.and_eq_true_iff] at h
    obtain ⟨⟨hx, hedge⟩, hrest⟩ := h
    obtain ⟨heach, hapart⟩ := ih hrest
    refine ⟨List.forall_mem_cons.mpr ⟨hx, heach⟩, List.isChain_cons.mpr ⟨fun y hy => ?_, hapart⟩⟩
    rw [Option.mem_def.mp hy] at hedge
    simpa using hedge

theorem parens (h : Legible s) : Legible (parens s) :=
  ((single rfl).append h (.inl rfl)).append (single rfl) (.inr rfl)

theorem createSchema : Legible (createSchema schema) :=
  of_areLegible _ rfl

theorem identityColumn : Legible (identityColumn m) := by
  refine of_areLegible _ ?_
  unfold Sql.identityColumn
  split <;> rfl

theorem createTable : Legible (createTable schema m) := by
  have hidentity : Legible (.name "id" :: .plain " " :: Sql.identityColumn m) :=
    (of_areLegible [.name "id", .plain " "] rfl).append (identityColumn m) (.inl rfl)
  have hpayload : Legible ([.plain ", ", .name "payload", .plain " JSONB NOT NULL DEFAULT ", .literal "\x7b\x7d",
      .plain "::jsonb, ", .name "updated_at", .plain " TIMESTAMPTZ NOT NULL DEFAULT NOW"] ++ Sql.parens []) :=
    of_areLegible _ rfl
  have hcolumns := (hidentity.append hpayload (.inr rfl)).parens
  simpa [Sql.createTable] using!
    (of_areLegible (.plain "CREATE TABLE IF NOT EXISTS " :: table schema m.path ++ [.plain " "]) rfl).append
      hcolumns (.inl rfl)

theorem createPayloadIndex : Legible (createPayloadIndex schema m) :=
  of_areLegible _ rfl

theorem syncSequence (h : s ∈ syncSequence schema m) : Legible s := by
  obtain ⟨-, hs⟩ := Option.ite_none_right_eq_some.mp h
  obtain rfl := Option.some.inj hs
  exact of_areLegible _ rfl

theorem typedIdentity : Legible (typedIdentity m id) := by
  refine of_areLegible _ ?_
  unfold Sql.typedIdentity identityCast
  cases m.identityType <;> rfl

theorem selectById : Legible (selectById schema m id) :=
  (of_areLegible _ rfl).append ((single rfl).append (typedIdentity m id) (.inl rfl)) (.inr rfl)

theorem insert (key : Option Json) : Legible (insert schema m key content) := by
  cases key with
  | none => exact of_areLegible _ rfl
  | some id =>
    have hidentity : Legible (Sql.typedIdentity m id ++ [.plain ", "]) :=
      (typedIdentity m id).append (single rfl) (.inr rfl)
    have hvalues := (hidentity.append (single (x := .param (.json content)) rfl) (.inl rfl)).parens
    exact ((of_areLegible _ rfl).append ((single rfl).append hvalues (.inl rfl)) (.inr rfl)).append
      (of_areLegible _ rfl) (.inr rfl)

theorem upsert : Legible (upsert schema m id content) := by
  have hvalues := ((typedIdentity m id).append
    (of_areLegible [.plain ", ", .param (.json content)] rfl) (.inr rfl)).parens
  have hinsert := (of_areLegible (.plain "INSERT INTO " :: table schema m.path ++ .plain " " ::
    Sql.parens [.name "id", .plain ", ", .name "payload"]) rfl).append
      ((single (x := .plain " VALUES ") rfl).append hvalues (.inl rfl)) (.inr rfl)
  -- only the type of the identity is open, so what is behind the values is checked as it is
  exact (((hinsert.append (of_areLegible _ rfl) (.inr rfl)).append (of_areLegible _ rfl) (.inr rfl)).append
    (of_areLegible _ rfl) (.inr rfl)).append (of_areLegible _ rfl) (.inr rfl)

theorem delete : Legible (delete schema m id) :=
  (of_areLegible _ rfl).append (typedIdentity m id) (.inl rfl)

end Token.Legible

def orderTexts : Option SortOrder → List String
  | none => ["id"]
  | some s => if s.isIdentity then ["id"] else ["payload", s.field, "id"]

theorem isUnquoted_toString (n : Nat) : Lexeme.isUnquoted (toString n).toList = true := by
  have hdigits : (toString n).toList = Nat.toDigits 10 n := Nat.toList_repr
  rw [hdigits]
  exact List.all_eq_true.mpr fun c hc => Lexeme.isNone_quote? (isWordChar_of_mem_toDigits hc)

namespace Filled

variable (schema : String) (m : Model) (id content : Json) (p : Option Predicate) (sort : Option SortOrder)
  (offset limit : Option Nat)

theorem createSchema : Filled (createSchema "") [schema] (createSchema schema) :=
  .plain _ rfl (.name _ _ .nil)

theorem identityColumn : Filled (identityColumn m) [] (identityColumn m) := by
  unfold Sql.identityColumn
  split <;> exact .self _ rfl

theorem createTable : Filled (createTable "" m.unnamed)
    [schema, m.path, "id", "payload", "\x7b\x7d", "updated_at"] (createTable schema m) := by
  have hidentity : Filled (.name "id" :: .plain " " :: Sql.identityColumn m) ["id"]
      (.name "id" :: .plain " " :: Sql.identityColumn m) := .name _ _ (.plain _ rfl (identityColumn m))
  have hpayload := self [.plain ", ", .name "payload", .plain " JSONB NOT NULL DEFAULT ", .literal "\x7b\x7d",
    .plain "::jsonb, ", .name "updated_at", .plain " TIMESTAMPTZ NOT NULL DEFAULT NOW"] rfl
  have hcolumns := (hidentity.append hpayload).append (.parens .nil)
  exact (Filled.plain _ rfl (table schema m.path)).append (.plain _ rfl hcolumns.parens)

theorem createPayloadIndex : Filled (createPayloadIndex "" m.unnamed)
    [m.path ++ "_payload_gin", schema, m.path, "payload"] (createPayloadIndex schema m) := by
  have hindex := Filled.plain "CREATE INDEX IF NOT EXISTS " rfl
    (.name (m.unnamed.path ++ "_payload_gin") (m.path ++ "_payload_gin") (.plain " ON " rfl .nil))
  exact (hindex.append (table schema m.path)).append (.self _ rfl)

theorem typedIdentity : Filled (typedIdentity m id) [] (typedIdentity m id) := by
  have hcast : Lexeme.isUnquoted ("::" ++ identityCast m).toList = true := by
    unfold identityCast
    cases m.identityType <;> decide
  exact (Filled.plain _ hcast .nil).same (.param (.ofJson id)) rfl

theorem syncSequence (h : m.identityGenerated ∧ m.identityType.isIntegral) : ∃ s t,
    syncSequence schema m = some s ∧ syncSequence "" m.unnamed = some t ∧
      Filled t [Statement.text (Sql.table schema m.path), "id", "id", schema, m.path] s := by
  have hunnamed : m.unnamed.identityGenerated ∧ m.unnamed.identityType.isIntegral := h
  refine ⟨_, _, if_pos h, if_pos hunnamed, ?_⟩
  have hserial : Filled (.plain "pg_get_serial_sequence" ::
        Sql.parens [.literal (Statement.text (Sql.table "" m.unnamed.path)), .plain ", ", .literal "id"])
      [Statement.text (Sql.table schema m.path), "id"] (.plain "pg_get_serial_sequence" ::
        Sql.parens [.literal (Statement.text (Sql.table schema m.path)), .plain ", ", .literal "id"]) :=
    .plain _ rfl (Filled.literal _ _ (.self _ rfl)).parens
  have hmax := (self (.plain "SELECT MAX" :: Sql.parens [.name "id"]) rfl).append
    (.plain " FROM " rfl (table schema m.path))
  have hgreatest := Filled.plain ", GREATEST" rfl
    (hmax.parens.append_bare (.plain ", 1" rfl .nil)).parens
  exact .plain _ rfl (hserial.append hgreatest).parens

theorem selectById : Filled (selectById "" m.unnamed id) ["id", "id", "payload", "payload", schema, m.path, "id"]
    (selectById schema m id) := by
  have hselect := Filled.plain "SELECT " rfl (self selected rfl)
  have htable := (hselect.append (.plain " FROM " rfl (table schema m.path))).append
    (self [.plain " ", .alias 0, .plain " WHERE "] rfl)
  exact (htable.append (idColumn 0)).append (.plain _ rfl (typedIdentity m id))

theorem insert (key : Option Json) : Filled (insert "" m.unnamed key content)
    ([schema, m.path] ++ (key.map fun _ => "id").toList ++ ["payload", "id", "id", "payload"])
    (insert schema m key content) := by
  have hinto := Filled.plain "INSERT INTO " rfl (table schema m.path)
  have hreturning := Filled.plain " RETURNING " rfl (self returned rfl)
  cases key with
  | none => exact (hinto.append (.self _ rfl)).append hreturning
  | some id =>
    have hcolumns := self (.plain " " :: Sql.parens [.name "id", .plain ", ", .name "payload"]) rfl
    have hvalues := ((typedIdentity m id).append (self [.plain ", "] rfl)).append
      (self [.param (.json content)] rfl)
    exact ((hinto.append hcolumns).append (.plain _ rfl hvalues.parens)).append hreturning

theorem upsert : Filled (upsert "" m.unnamed id content)
    [schema, m.path, "id", "payload", "id", "payload", "payload", "updated_at", "id", "id", "payload"]
    (upsert schema m id content) := by
  have hcolumns := self (.plain " " :: Sql.parens [.name "id", .plain ", ", .name "payload"]) rfl
  have hvalues := (typedIdentity m id).append (self [.plain ", ", .param (.json content)] rfl)
  have hinsert := ((Filled.plain "INSERT INTO " rfl (table schema m.path)).append hcolumns).append
    (.plain " VALUES " rfl hvalues.parens)
  have hconflict := self (.plain " ON CONFLICT " :: Sql.parens [.name "id"]) rfl
  have hset := self [.plain " DO UPDATE SET ", .name "payload", .plain " = EXCLUDED.", .name "payload",
    .plain ", ", .name "updated_at", .plain " = NOW"] rfl
  have hreturning := Filled.plain " RETURNING " rfl (self returned rfl)
  exact (((hinsert.append hconflict).append hset).append (.parens .nil)).append hreturning

theorem delete : Filled (delete "" m.unnamed id) [schema, m.path, "id"] (delete schema m id) := by
  have hwhere := self [.plain " WHERE ", .name "id", .plain " = "] rfl
  exact ((Filled.plain _ rfl (table schema m.path)).append hwhere).append (typedIdentity m id)

theorem whereClause : Filled (whereClause "" (p.map Predicate.unnamed)) (p.elim [] (conditionTexts schema))
    (whereClause schema p) := by
  cases p with
  | none => exact .nil
  | some p => exact .plain _ rfl (condition_filled p 1)

theorem direction (d : SortDirection) : Filled [.plain (directionWord d)] [] [.plain (directionWord d)] :=
  .plain _ (by cases d <;> rfl) .nil

theorem orderBy : Filled (orderBy (sort.map SortOrder.unnamed)) (orderTexts sort) (orderBy sort) := by
  cases sort with
  | none => exact (idColumn 0).append_bare (direction .asc)
  | some s =>
    simp only [Option.map_some, Sql.orderBy, orderTexts, SortOrder.unnamed]
    split
    · exact (idColumn 0).append_bare (direction s.direction)
    · have hnext := (direction s.direction).append (.plain ", " rfl (idColumn 0))
      exact ((payloadValue 0 s.field s.type).append hnext).append_bare (direction .asc)

theorem window : Filled (window offset limit) [] (window offset limit) := by
  have hnumber {w : String} (hw : Lexeme.isUnquoted w.toList = true) (n : Option Nat) :
      Filled (n.map fun n => Token.plain (w ++ toString n)).toList []
        (n.map fun n => Token.plain (w ++ toString n)).toList := by
    cases n with
    | none => exact .nil
    | some n =>
      refine .plain _ ?_ .nil
      rw [String.toList_append, Lexeme.isUnquoted, List.all_append]
      exact Bool.and_eq_true_iff.mpr ⟨hw, isUnquoted_toString n⟩
  exact (hnumber rfl limit).append (hnumber rfl (offset.filter (0 < ·)))

theorem count : Filled (count "" m.unnamed (p.map Predicate.unnamed))
    ([schema, m.path] ++ p.elim [] (conditionTexts schema)) (count schema m p) := by
  have hcount := self (.plain "SELECT COUNT" :: Sql.parens [.plain "*"]) rfl
  have hfrom := (hcount.append (.plain " FROM " rfl (table schema m.path))).append
    (self [.plain " ", .alias 0] rfl)
  exact hfrom.append (whereClause schema p)

theorem select : Filled
    (select "" m.unnamed (p.map Predicate.unnamed) (sort.map SortOrder.unnamed) offset limit)
    (["id", "id", "payload", "payload", schema, m.path] ++ p.elim [] (conditionTexts schema) ++ orderTexts sort)
    (select schema m p sort offset limit) := by
  have hselect := Filled.plain "SELECT " rfl (self selected rfl)
  have hfrom := (hselect.append (.plain " FROM " rfl (table schema m.path))).append
    (self [.plain " ", .alias 0] rfl)
  have hwhere := hfrom.append (whereClause schema p)
  exact (hwhere.append (.plain _ rfl (orderBy sort))).append_bare (window offset limit)

end Filled

def outline? (s : String) : Option (List Lexeme) :=
  (Lexeme.read? s.toList).map (·.map Lexeme.outline)

/-- What stands in the quotes of a text. -/
def quotedTexts? (s : String) : Option (List String) :=
  (Lexeme.read? s.toList).map (·.filterMap Lexeme.quotedText?)

def outsideOf (s : String) : List Char :=
  Lexeme.outside (.word []) s.toList

/-- Texts that are taken apart in the same way and differ in their quotes only, with the given texts in the quotes of
the first one. -/
structure Outlined (s t : String) (texts : List String) : Prop where
  outline : ∃ xs, outline? s = some xs ∧ outline? t = some xs
  outside : outsideOf s = outsideOf t
  texts : quotedTexts? s = some texts

theorem Filled.outlined {s t : Statement} {texts : List String} (h : Filled t texts s) (hs : Legible s)
    (ht : Legible t) : Outlined s.text t.text texts := by
  have hread {u : Statement} (hu : Legible u) : Lexeme.read? u.text.toList = some (lexemes 1 u) := by
    rw [Statement.text, String.toList_ofList, read?_write hu]
  refine ⟨⟨(lexemes 1 s).map Lexeme.outline, ?_, ?_⟩, ?_, ?_⟩
  · rw [outline?, hread hs, Option.map_some]
  · rw [outline?, hread ht, Option.map_some, h.outline_eq]
  · rw [outsideOf, outsideOf, Statement.text, Statement.text, String.toList_ofList, String.toList_ofList,
      h.outside_eq ht hs]
  · rw [quotedTexts?, hread hs, Option.map_some, h.quotedTexts_eq]

/-- What names do to the statements on the table of a model. Every name stands in quotes of its own, and the text is
the one without names everywhere else. -/
structure NamesInQuotes (schema : String) (m : Model) (p : Option Predicate) (sort : Option SortOrder)
    (offset limit : Option Nat) (key : Option Json) (id content : Json) : Prop where
  table : Outlined (Statement.text (Sql.table schema m.path)) (Statement.text (Sql.table "" "")) [schema, m.path]
  createSchema : Outlined (Sql.createSchema schema).text (Sql.createSchema "").text [schema]
  createTable : Outlined (Sql.createTable schema m).text (Sql.createTable "" m.unnamed).text
    [schema, m.path, "id", "payload", "\x7b\x7d", "updated_at"]
  createPayloadIndex : Outlined (Sql.createPayloadIndex schema m).text (Sql.createPayloadIndex "" m.unnamed).text
    [m.path ++ "_payload_gin", schema, m.path, "payload"]
  /-- The first text is the one of the table, whose names are quoted in it. -/
  syncSequence : Option.Rel (fun s t =>
      Outlined s.text t.text [Statement.text (Sql.table schema m.path), "id", "id", schema, m.path])
    (Sql.syncSequence schema m) (Sql.syncSequence "" m.unnamed)
  sequenced : (Sql.syncSequence schema m).isSome = (m.identityGenerated && m.identityType.isIntegral)
  selectById : Outlined (QueryBuf.selectById schema m id).sql (QueryBuf.selectById "" m.unnamed id).sql
    ["id", "id", "payload", "payload", schema, m.path, "id"]
  select : Outlined (QueryBuf.select schema m p sort offset limit).sql
    (QueryBuf.select "" m.unnamed (p.map Predicate.unnamed) (sort.map SortOrder.unnamed) offset limit).sql
    (["id", "id", "payload", "payload", schema, m.path] ++ p.elim [] (conditionTexts schema) ++ orderTexts sort)
  count : Outlined (QueryBuf.count schema m p).sql (QueryBuf.count "" m.unnamed (p.map Predicate.unnamed)).sql
    ([schema, m.path] ++ p.elim [] (conditionTexts schema))
  insert : Outlined (QueryBuf.insert schema m key content).sql (QueryBuf.insert "" m.unnamed key content).sql
    ([schema, m.path] ++ (key.map fun _ => "id").toList ++ ["payload", "id", "id", "payload"])
  upsert : Outlined (QueryBuf.upsert schema m id content).sql (QueryBuf.upsert "" m.unnamed id content).sql
    [schema, m.path, "id", "payload", "id", "payload", "payload", "updated_at", "id", "id", "payload"]
  delete : Outlined (QueryBuf.delete schema m id).sql (QueryBuf.delete "" m.unnamed id).sql [schema, m.path, "id"]

theorem outlined_syncSequence (schema : String) (m : Model) : Option.Rel (fun s t =>
      Outlined s.text t.text [Statement.text (table schema m.path), "id", "id", schema, m.path])
    (syncSequence schema m) (syncSequence "" m.unnamed) := by
  by_cases h : m.identityGenerated ∧ m.identityType.isIntegral
  · obtain ⟨s, t, hs, ht, hfilled⟩ := Filled.syncSequence schema m h
    rw [hs, ht]
    exact .some (hfilled.outlined (.syncSequence schema m hs) (.syncSequence "" m.unnamed ht))
  · have hunnamed : ¬(m.unnamed.identityGenerated ∧ m.unnamed.identityType.isIntegral) := h
    rw [syncSequence, syncSequence, if_neg h, if_neg hunnamed]
    exact .none

theorem isSome_syncSequence (schema : String) (m : Model) :
    (syncSequence schema m).isSome = (m.identityGenerated && m.identityType.isIntegral) := by
  rw [Bool.eq_iff_iff]
  simp [syncSequence]

/-- What is written in quotes is read back, exactly where no further quote follows, and to the reader of statements
it is one piece. So the names that a statement is made with stand in its quotes as they are, whatever characters
they have, and nothing else in its text depends on them. -/
theorem quoted_names_are_single_tokens :
    (∀ (q : Quote) (cs : List Char) (s : String) (rest : List Char), Text.readQuoted q.mark cs = some (s, rest) ↔
      cs = Text.quoted q.mark s ++ rest ∧ rest.head? ≠ some q.mark) ∧
    (∀ (q : Quote) (s : String) (rest : List Char), rest.head? ≠ some q.mark →
      Lexeme.read? (Text.quoted q.mark s ++ rest) = (Lexeme.read? rest).map (.quoted q s.toList :: ·)) ∧
    ∀ (schema : String) (m : Model) (p : Option Predicate) (sort : Option SortOrder) (offset limit : Option Nat)
      (key : Option Json) (id content : Json), NamesInQuotes schema m p sort offset limit key id content := by
  refine ⟨fun q cs s rest => Text.readQuoted_eq_some_iff, fun q s rest h => Lexeme.read?_quoted_append q s h, ?_⟩
  intro schema m p sort offset limit key id content
  exact {
    table := (Filled.table schema m.path).outlined (.of_areLegible _ rfl) (.of_areLegible _ rfl)
    createSchema := (Filled.createSchema schema).outlined (.createSchema schema) (.createSchema "")
    createTable := (Filled.createTable schema m).outlined (.createTable schema m) (.createTable "" m.unnamed)
    createPayloadIndex := (Filled.createPayloadIndex schema m).outlined (.createPayloadIndex schema m)
      (.createPayloadIndex "" m.unnamed)
    syncSequence := outlined_syncSequence schema m
    sequenced := isSome_syncSequence schema m
    selectById := by
      rw [QueryBuf.selectById_eq, QueryBuf.selectById_eq]
      exact (Filled.selectById schema m id).outlined (.selectById schema m id) (.selectById "" m.unnamed id)
    select := by
      rw [QueryBuf.select_eq, QueryBuf.select_eq]
      exact (Filled.select schema m p sort offset limit).outlined (select_fragment ..).legible
        (select_fragment ..).legible
    count := by
      rw [QueryBuf.count_eq, QueryBuf.count_eq]
      exact (Filled.count schema m p).outlined (count_fragment ..).legible (count_fragment ..).legible
    insert := by
      rw [QueryBuf.insert_eq, QueryBuf.insert_eq]
      exact (Filled.insert schema m content key).outlined (.insert schema m content key)
        (.insert "" m.unnamed content key)
    upsert := by
      rw [QueryBuf.upsert_eq, QueryBuf.upsert_eq]
      exact (Filled.upsert schema m id content).outlined (.upsert schema m id content)
        (.upsert "" m.unnamed id content)
    delete := by
      rw [QueryBuf.delete_eq, QueryBuf.delete_eq]
      exact (Filled.delete schema m id).outlined (.delete schema m id) (.delete "" m.unnamed id) }

open Household

/-- Quotes at both ends of a name, and a schema and a path that would end a name and a literal. -/
theorem names_of_quotes_are_single_tokens :
    ['.'].head? ≠ some Quote.name.mark ∧
      Lexeme.read? (Text.quoted Quote.name.mark "\"x\"\"" ++ ['.']) =
        some [.quoted .name "\"x\"\"".toList, .sign '.'] ∧
      Outlined
        (QueryBuf.select "o'\"" { person with path := "it's" } (some (search "Ada" [.ofNat 1] "A%")) none none
          (some 20)).sql
        (QueryBuf.select "" person.unnamed (some (search "Ada" [.ofNat 1] "A%").unnamed) none none (some 20)).sql
        ["id", "id", "payload", "payload", "o'\"", "it's", "payload", "name", "o'\"", "pets", "payload", "owner", "id",
          "id", "payload", "name", "id"] := by
  obtain ⟨-, hpiece, hnames⟩ := quoted_names_are_single_tokens
  have hhead : ['.'].head? ≠ some Quote.name.mark := by decide
  have h := hnames "o'\"" { person with path := "it's" } (some (search "Ada" [.ofNat 1] "A%")) none none (some 20) none
    .null .null
  exact ⟨hhead, hpiece .name "\"x\"\"" ['.'] hhead, h.select⟩

example : (syncSequence "o'\"" { person with path := "it's" }).map Statement.text =
    some ("SELECT setval(pg_get_serial_sequence('\"o''\"\"\".\"it''s\"', 'id'), " ++
      "GREATEST((SELECT MAX(\"id\") FROM \"o'\"\"\".\"it's\"), 1))") := by
  cbv

end Sql

end EntityGraph
