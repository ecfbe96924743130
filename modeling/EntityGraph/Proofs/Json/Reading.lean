import EntityGraph.Proofs.Json.Members
import EntityGraph.Proofs.Json.Number

namespace EntityGraph

namespace Json

open Document (Mode Frame read)
open Token (scan EndsNumber)

mutual

def document : Json → Document
  | .null => .null
  | .bool b => .bool b
  | .num n => .number n.literal
  | .str s => .string (some s)
  | .arr items => .array (documents items)
  | .obj members => .object (memberDocuments members)
termination_by structural v => v

def documents : List Json → List Document
  | [] => []
  | v :: rest => document v :: documents rest
termination_by structural vs => vs

def memberDocuments : List (String × Json) → List (Option String × Document)
  | [] => []
  | (k, v) :: rest => (some k, document v) :: memberDocuments rest
termination_by structural ms => ms

end

mutual

def doubles : Json → List Double
  | .num (.double x) => [x]
  | .arr items => itemDoubles items
  | .obj members => memberDoubles members
  | _ => []
termination_by structural v => v

def itemDoubles : List Json → List Double
  | [] => []
  | v :: rest => doubles v ++ itemDoubles rest
termination_by structural vs => vs

def memberDoubles : List (String × Json) → List Double
  | [] => []
  | (_, v) :: rest => doubles v ++ memberDoubles rest
termination_by structural ms => ms

end

theorem documents_eq_map (items : List Json) : documents items = items.map document := by
  induction items with
  | nil => rfl
  | cons v rest ih => rw [documents, ih, List.map_cons]

theorem memberDocuments_eq_map (members : List (String × Json)) :
    memberDocuments members = members.map fun p => (some p.1, p.2.document) := by
  induction members with
  | nil => rfl
  | cons p rest ih => rw [memberDocuments, ih, List.map_cons]

theorem mem_itemDoubles_iff {items : List Json} {x : Double} :
    x ∈ itemDoubles items ↔ ∃ v ∈ items, x ∈ v.doubles := by
  induction items with
  | nil => simp [itemDoubles]
  | cons v rest ih => simp [itemDoubles, ih]

theorem mem_memberDoubles_iff {members : List (String × Json)} {x : Double} :
    x ∈ memberDoubles members ↔ ∃ p ∈ members, x ∈ p.2.doubles := by
  induction members with
  | nil => simp [memberDoubles]
  | cons p rest ih => simp [memberDoubles, ih]

namespace Document

def supply (d : Document) (ts : List Token) : List Frame → Option (Document × List Token)
  | [] => some (d, ts)
  | f :: rest => read ts .after (f.add d :: rest)

end Document

/-- Wherever a value may stand, and before anything that does not go on with a number, the text supplies
the document. -/
def Supplies (text : List Char) (d : Document) : Prop :=
  ∀ mode rest stack, mode = .value ∨ mode = .firstItem → EndsNumber rest →
    read (scan (text ++ rest)) mode stack = d.supply (scan rest) stack

theorem readsBack_of_mem {n : Number} (h : ∀ x ∈ (Json.num n).doubles, x.ReadsBack) (x : Double)
    (hx : n = .double x) : x.ReadsBack := by
  subst hx
  exact h x (List.mem_singleton_self x)

section Supply

variable {rest : List Char} {stack : List Frame} {mode : Mode} {items : List Json}
  {members : List (String × Json)}

theorem supplies_null : Supplies "null".toList .null := by
  intro mode rest stack hmode _
  have hnull : scan ("null".toList ++ rest) = .null :: scan rest := Token.scan_cons rfl _
  rw [hnull]
  rcases hmode with rfl | rfl <;> rfl

theorem supplies_bool (b : Bool) : Supplies (write (.bool b)) (.bool b) := by
  intro mode rest stack hmode _
  have hbool : scan (write (.bool b) ++ rest) = .bool b :: scan rest := by
    cases b <;> exact Token.scan_cons rfl _
  rw [hbool]
  rcases hmode with rfl | rfl <;> rfl

theorem supplies_number {n : Number} (h : ∀ x, n = .double x → x.ReadsBack) :
    Supplies n.text.toList (.number n.literal) := by
  intro mode rest stack hmode hrest
  rw [Token.scan_number_append hrest (Number.scan_text h).1]
  rcases hmode with rfl | rfl <;> rfl

theorem supplies_quote (s : String) : Supplies (quote s) (.string (some s)) := by
  intro mode rest stack hmode _
  rw [Token.scan_quote]
  rcases hmode with rfl | rfl <;> rfl

theorem read_writeItems (hitems : ∀ v ∈ items, Supplies v.write v.document) (hne : items ≠ [])
    (earlier : List Document) (hmode : mode = .value ∨ mode = .firstItem) :
    read (scan (writeItems items ++ ']' :: rest)) mode (.array earlier :: stack) =
      (Document.array (earlier.reverse ++ items.map document)).supply (scan rest) stack := by
  induction items generalizing earlier mode with
  | nil => exact absurd rfl hne
  | cons v items ih =>
    obtain ⟨hv, hrest⟩ := List.forall_mem_cons.mp hitems
    cases items with
    | nil =>
      rw [writeItems, hv mode _ _ hmode (Token.endsNumber_of_mark (by simp) rest), Token.scan_closeArray,
        List.map_singleton, ← List.reverse_cons]
      rfl
    | cons w items =>
      rw [writeItems, List.append_assoc, List.cons_append,
        hv mode _ _ hmode (Token.endsNumber_of_mark (by simp) _), Token.scan_comma]
      · refine (ih hrest (List.cons_ne_nil w items) (v.document :: earlier) (.inl rfl)).trans ?_
        rw [List.reverse_cons, List.append_assoc, List.singleton_append, List.map_cons (a := v)]
      · exact List.cons_ne_nil w items

theorem supplies_array (hitems : ∀ v ∈ items, Supplies v.write v.document) :
    Supplies (write (.arr items)) (document (.arr items)) := by
  intro mode rest stack hmode _
  have hopen (cs : List Char) : read (scan ('[' :: cs)) mode stack =
      read (scan cs) .firstItem (.array [] :: stack) := by
    rw [Token.scan_cons rfl]
    rcases hmode with rfl | rfl <;> rfl
  rw [write, List.append_assoc, List.cons_append, hopen, document, documents_eq_map]
  cases items with
  | nil =>
    change read (scan (']' :: rest)) .firstItem _ = _
    rw [Token.scan_closeArray]
    rfl
  | cons v items => exact read_writeItems hitems (List.cons_ne_nil v items) [] (.inr rfl)

theorem read_member {k : String} {v : Json} (hv : Supplies v.write v.document)
    (earlier : List (Option String × Document)) (hmode : mode = .key ∨ mode = .firstKey)
    (hrest : EndsNumber rest) :
    read (scan (quote k ++ ':' :: (v.write ++ rest))) mode (.object earlier none :: stack) =
      read (scan rest) .after (.object ((some k, v.document) :: earlier) none :: stack) := by
  have hcolon (cs : List Char) : scan (':' :: cs) = .colon :: scan cs := Token.scan_cons rfl cs
  have hkey (ts : List Token) :
      read (.string (some k) :: .colon :: ts) mode (.object earlier none :: stack) =
        read ts .value (.object earlier (some k) :: stack) := by
    rcases hmode with rfl | rfl <;> rfl
  rw [Token.scan_quote, hcolon, hkey, hv .value rest _ (.inl rfl) hrest]
  rfl

theorem read_writeMembers (hmembers : ∀ p ∈ members, Supplies p.2.write p.2.document) (hne : members ≠ [])
    (earlier : List (Option String × Document)) (hmode : mode = .key ∨ mode = .firstKey) :
    read (scan (writeMembers members ++ '\x7d' :: rest)) mode (.object earlier none :: stack) =
      (Document.object (earlier.reverse ++ members.map fun p => (some p.1, p.2.document))).supply
        (scan rest) stack := by
  induction members generalizing earlier mode with
  | nil => exact absurd rfl hne
  | cons p members ih =>
    obtain ⟨k, v⟩ := p
    obtain ⟨hv, hrest⟩ := List.forall_mem_cons.mp hmembers
    cases members with
    | nil =>
      rw [writeMembers, List.append_assoc, List.cons_append,
        read_member hv earlier hmode (Token.endsNumber_of_mark (by simp) rest), Token.scan_closeObject,
        List.map_singleton, ← List.reverse_cons]
      rfl
    | cons q members =>
      rw [writeMembers, List.append_assoc, List.append_assoc, List.cons_append, List.cons_append,
        read_member hv earlier hmode (Token.endsNumber_of_mark (by simp) _), Token.scan_comma]
      · refine (ih hrest (List.cons_ne_nil q members) ((some k, v.document) :: earlier) (.inl rfl)).trans ?_
        rw [List.reverse_cons, List.append_assoc, List.singleton_append, List.map_cons (a := (k, v))]
      · exact List.cons_ne_nil q members

theorem supplies_object (hmembers : ∀ p ∈ members, Supplies p.2.write p.2.document) :
    Supplies (write (.obj members)) (document (.obj members)) := by
  intro mode rest stack hmode _
  have hopen (cs : List Char) : read (scan ('\x7b' :: cs)) mode stack =
      read (scan cs) .firstKey (.object [] none :: stack) := by
    rw [Token.scan_cons rfl]
    rcases hmode with rfl | rfl <;> rfl
  rw [write, List.append_assoc, List.cons_append, hopen, document, memberDocuments_eq_map]
  cases members with
  | nil =>
    change read (scan ('\x7d' :: rest)) .firstKey _ = _
    rw [Token.scan_closeObject]
    rfl
  | cons p members => exact read_writeMembers hmembers (List.cons_ne_nil p members) [] (.inr rfl)

mutual

/-- What is written for a value supplies its document if its binary numbers are read back. -/
theorem supplies_write (v : Json) (h : ∀ x ∈ v.doubles, x.ReadsBack) : Supplies v.write v.document := by
  cases v with
  | null => exact supplies_null
  | bool b => exact supplies_bool b
  | num n => exact supplies_number (readsBack_of_mem h)
  | str s => exact supplies_quote s
  | arr items => exact supplies_array (supplies_items items h)
  | obj members => exact supplies_object (supplies_members members h)
termination_by structural v

theorem supplies_items (items : List Json) (h : ∀ x ∈ itemDoubles items, x.ReadsBack) :
    ∀ v ∈ items, Supplies v.write v.document := by
  cases items with
  | nil => nofun
  | cons v rest =>
    obtain ⟨hv, hrest⟩ := List.forall_mem_append.mp h
    exact List.forall_mem_cons.mpr ⟨supplies_write v hv, supplies_items rest hrest⟩
termination_by structural items

theorem supplies_members (members : List (String × Json)) (h : ∀ x ∈ memberDoubles members, x.ReadsBack) :
    ∀ p ∈ members, Supplies p.2.write p.2.document := by
  cases members with
  | nil => nofun
  | cons p rest =>
    obtain ⟨hv, hrest⟩ := List.forall_mem_append.mp h
    exact List.forall_mem_cons.mpr ⟨supplies_write p.2 hv, supplies_members rest hrest⟩
termination_by structural members

end

end Supply

theorem Document.ofText?_text {v : Json} (h : ∀ x ∈ v.doubles, x.ReadsBack) :
    Document.ofText? v.text = some v.document := by
  rw [Document.ofText?_eq_some_iff, text, String.toList_ofList]
  have hread := supplies_write v h .value [] [] (.inl rfl) Token.endsNumber_nil
  rwa [List.append_nil] at hread

section Values

variable {v : Json} {d : Document} {items : List Json} {members : List (String × Json)} {k : Nat}

theorem depthItems_documents_le (h : ∀ v ∈ items, v.document.depth ≤ k) :
    Document.depthItems (documents items) ≤ k := by
  induction items with
  | nil => exact Nat.zero_le k
  | cons v items ih =>
    obtain ⟨hv, hrest⟩ := List.forall_mem_cons.mp h
    exact Nat.max_le.mpr ⟨hv, ih hrest⟩

theorem depthMembers_memberDocuments_le (h : ∀ p ∈ members, p.2.document.depth ≤ k) :
    Document.depthMembers (memberDocuments members) ≤ k := by
  induction members with
  | nil => exact Nat.zero_le k
  | cons p members ih =>
    obtain ⟨hp, hrest⟩ := List.forall_mem_cons.mp h
    exact Nat.max_le.mpr ⟨hp, ih hrest⟩

theorem itemsToJson?_documents (h : ∀ v ∈ items, v.document.toJson? = some v) :
    Document.itemsToJson? (documents items) = some items := by
  induction items with
  | nil => rfl
  | cons v items ih =>
    obtain ⟨hv, hrest⟩ := List.forall_mem_cons.mp h
    rw [documents, Document.itemsToJson?, hv, ih hrest]

theorem membersToJson?_memberDocuments (h : ∀ p ∈ members, p.2.document.toJson? = some p.2) :
    Document.membersToJson? (memberDocuments members) = some members := by
  induction members with
  | nil => rfl
  | cons p members ih =>
    obtain ⟨hp, hrest⟩ := List.forall_mem_cons.mp h
    simp only [memberDocuments, Document.membersToJson?, hp, ih hrest]

/-- The value stands in the place of a document: the document of its text is no deeper, and if its binary
numbers are read back it stands for the value. -/
structure Replaces (v : Json) (d : Document) : Prop where
  depth_le : v.document.depth ≤ d.depth
  toJson?_eq : (∀ x ∈ v.doubles, x.ReadsBack) → v.document.toJson? = some v

theorem replaces_array {ds : List Document}
    (h : ∀ v ∈ items, ∃ d, d.depth ≤ Document.depthItems ds ∧ v.Replaces d) :
    (Json.arr items).Replaces (.array ds) := by
  constructor
  · refine Nat.succ_le_succ (depthItems_documents_le fun v hv => ?_)
    obtain ⟨d, hd, hreplaces⟩ := h v hv
    exact Nat.le_trans hreplaces.depth_le hd
  · intro hdoubles
    have hitems := itemsToJson?_documents fun v hv => by
      obtain ⟨d, -, hreplaces⟩ := h v hv
      exact hreplaces.toJson?_eq fun x hx => hdoubles x (mem_itemDoubles_iff.mpr ⟨v, hv, hx⟩)
    rw [document, Document.toJson?, hitems, Option.map_some]

theorem replaces_object {ds : List (Option String × Document)} (hascending : OrderedMap.Ascending members)
    (h : ∀ p ∈ members, ∃ d, d.depth ≤ Document.depthMembers ds ∧ p.2.Replaces d) :
    (Json.obj members).Replaces (.object ds) := by
  constructor
  · refine Nat.succ_le_succ (depthMembers_memberDocuments_le fun p hp => ?_)
    obtain ⟨d, hd, hreplaces⟩ := h p hp
    exact Nat.le_trans hreplaces.depth_le hd
  · intro hdoubles
    have hmembers := membersToJson?_memberDocuments fun p hp => by
      obtain ⟨d, -, hreplaces⟩ := h p hp
      exact hreplaces.toJson?_eq fun x hx => hdoubles x (mem_memberDoubles_iff.mpr ⟨p, hp, hx⟩)
    rw [document, Document.toJson?, hmembers, Option.map_some, ofPairs,
      OrderedMap.ofPairs_eq_self hascending]

mutual

theorem replaces_of_toJson? (d : Document) (v : Json) (h : d.toJson? = some v) : v.Replaces d := by
  cases d with
  | null =>
    cases h
    exact ⟨Nat.le_refl _, fun _ => rfl⟩
  | bool b =>
    cases h
    exact ⟨Nat.le_refl _, fun _ => rfl⟩
  | number l =>
    obtain ⟨n, -, rfl⟩ := Option.map_eq_some_iff.mp h
    refine ⟨Nat.le_refl _, fun hdoubles => ?_⟩
    rw [document, Document.toJson?, (Number.scan_text (readsBack_of_mem hdoubles)).2, Option.map_some]
  | string s =>
    obtain ⟨s, rfl, rfl⟩ := Option.map_eq_some_iff.mp h
    exact ⟨Nat.le_refl _, fun _ => rfl⟩
  | array ds =>
    obtain ⟨vs, hvs, rfl⟩ := Option.map_eq_some_iff.mp h
    exact replaces_array (replaces_of_itemsToJson? ds vs hvs)
  | object ds =>
    obtain ⟨ps, hps, rfl⟩ := Option.map_eq_some_iff.mp h
    exact replaces_object (OrderedMap.ascending_ofPairs ps) fun p hp =>
      replaces_of_membersToJson? ds ps hps p (OrderedMap.mem_of_mem_ofPairs hp)
termination_by structural d

theorem replaces_of_itemsToJson? (ds : List Document) (vs : List Json)
    (h : Document.itemsToJson? ds = some vs) :
    ∀ v ∈ vs, ∃ d, d.depth ≤ Document.depthItems ds ∧ v.Replaces d := by
  cases ds with
  | nil =>
    cases h
    nofun
  | cons d ds =>
    unfold Document.itemsToJson? at h
    split at h
    · next v rest hv hrest =>
      cases h
      refine List.forall_mem_cons.mpr ⟨⟨d, Nat.le_max_left _ _, replaces_of_toJson? d v hv⟩, fun w hw => ?_⟩
      obtain ⟨d', hd', hreplaces⟩ := replaces_of_itemsToJson? ds rest hrest w hw
      exact ⟨d', Nat.le_trans hd' (Nat.le_max_right _ _), hreplaces⟩
    · cases h
termination_by structural ds

theorem replaces_of_membersToJson? (ds : List (Option String × Document)) (ps : List (String × Json))
    (h : Document.membersToJson? ds = some ps) :
    ∀ p ∈ ps, ∃ d, d.depth ≤ Document.depthMembers ds ∧ p.2.Replaces d := by
  cases ds with
  | nil =>
    cases h
    nofun
  | cons q ds =>
    obtain ⟨k, d⟩ := q
    unfold Document.membersToJson? at h
    split at h
    · next k v rest hv hrest =>
      cases h
      refine List.forall_mem_cons.mpr ⟨⟨d, Nat.le_max_left _ _, replaces_of_toJson? d v hv⟩, fun w hw => ?_⟩
      obtain ⟨d', hd', hreplaces⟩ := replaces_of_membersToJson? ds rest hrest w hw
      exact ⟨d', Nat.le_trans hd' (Nat.le_max_right _ _), hreplaces⟩
    · cases h
termination_by structural ds

end

end Values

end Json

end EntityGraph
