import EntityGraph.Proofs.Query.Comparator
import EntityGraph.Proofs.Store.Rows

namespace EntityGraph

namespace SortOrder

variable {s : SortOrder} {earlier : Json → Json → Prop} {x : Json} {rows ys acc : List Json}

theorem place_perm (s : SortOrder) (x : Json) (ys : List Json) : (s.place x ys).Perm (x :: ys) := by
  induction ys with
  | nil => exact .refl _
  | cons y rest ih =>
    unfold place
    split
    · exact (ih.cons y).trans (.swap x y rest)
    · exact .refl _

theorem apply_perm (s : SortOrder) (rows : List Json) : (s.apply rows).Perm rows := by
  have hfold (acc : List Json) :
      (rows.foldl (fun sorted x => s.place x sorted) acc).Perm (rows ++ acc) := by
    induction rows generalizing acc with
    | nil => exact .refl _
    | cons x rest ih =>
      refine (ih (s.place x acc)).trans ?_
      exact ((s.place_perm x acc).append_left rest).trans List.perm_middle
  have hsorted := hfold []
  rw [List.append_nil] at hsorted
  exact (List.reverse_perm _).trans hsorted

/-- The first of two records comes first in the order, or neither does and it has been the earlier one. -/
def Before (s : SortOrder) (earlier : Json → Json → Prop) (a b : Json) : Prop :=
  s.compare a b = .lt ∨ s.compare a b = .eq ∧ earlier a b

theorem Before.isLE {a b : Json} (h : s.Before earlier a b) : (s.compare a b).isLE = true := by
  rcases h with h | ⟨h, -⟩
  · rw [h]
    rfl
  · rw [h]
    rfl

theorem before_of_ne_lt {a b : Json} (h : s.compare b a ≠ .lt) (he : earlier a b) :
    s.Before earlier a b := by
  rw [s.compare_swap a b] at h
  cases hab : s.compare a b with
  | lt => exact .inl hab
  | eq => exact .inr ⟨hab, he⟩
  | gt =>
    rw [hab] at h
    exact absurd rfl h

theorem place_pairwise (hx : s.type.Places (x.get s.field)) (hys : ∀ y ∈ ys, s.type.Places (y.get s.field))
    (hearlier : ∀ y ∈ ys, earlier y x) (h : ys.Pairwise fun b a => s.Before earlier a b) :
    (s.place x ys).Pairwise fun b a => s.Before earlier a b := by
  induction ys with
  | nil => exact List.pairwise_singleton _ _
  | cons y rest ih =>
    obtain ⟨hhead, hrest⟩ := List.pairwise_cons.mp h
    unfold place
    split
    · next hlt =>
      have hplaced := ih (fun z hz => hys z (List.mem_cons_of_mem _ hz))
        (fun z hz => hearlier z (List.mem_cons_of_mem _ hz)) hrest
      refine List.pairwise_cons.mpr ⟨fun z hz => ?_, hplaced⟩
      rcases List.mem_cons.mp ((s.place_perm x rest).mem_iff.mp hz) with rfl | hz
      · exact .inl hlt
      · exact hhead z hz
    · next hlt =>
      have hyx : s.Before earlier y x := before_of_ne_lt hlt (hearlier y List.mem_cons_self)
      refine List.pairwise_cons.mpr ⟨fun z hz => ?_, h⟩
      rcases List.mem_cons.mp hz with rfl | hz'
      · exact hyx
      · have hzx : (s.compare z x).isLE = true :=
          compare_trans (hys z hz) (hys y List.mem_cons_self) hx (hhead z hz').isLE hyx.isLE
        refine before_of_ne_lt (fun hxz => ?_) (hearlier z hz)
        rw [s.compare_swap x z, hxz] at hzx
        cases hzx

theorem foldl_place_pairwise (hrows : ∀ x ∈ rows, s.type.Places (x.get s.field))
    (hacc : ∀ y ∈ acc, s.type.Places (y.get s.field)) (hearlier : ∀ y ∈ acc, ∀ x ∈ rows, earlier y x)
    (hp : rows.Pairwise earlier) (h : acc.Pairwise fun b a => s.Before earlier a b) :
    (rows.foldl (fun sorted x => s.place x sorted) acc).Pairwise fun b a => s.Before earlier a b := by
  induction rows generalizing acc with
  | nil => exact h
  | cons x rest ih =>
    obtain ⟨hhead, hrest⟩ := List.pairwise_cons.mp hp
    have hmem {y : Json} (hy : y ∈ s.place x acc) : y = x ∨ y ∈ acc :=
      List.mem_cons.mp ((s.place_perm x acc).mem_iff.mp hy)
    refine ih (fun y hy => hrows y (List.mem_cons_of_mem _ hy)) (fun y hy => ?_) (fun y hy z hz => ?_) hrest
      (place_pairwise (hrows x List.mem_cons_self) hacc
        (fun y hy => hearlier y hy x List.mem_cons_self) h)
    · rcases hmem hy with rfl | hy
      · exact hrows y List.mem_cons_self
      · exact hacc y hy
    · rcases hmem hy with rfl | hy
      · exact hhead z hz
      · exact hearlier y hy z (List.mem_cons_of_mem _ hz)

/-- Sorting puts records into the order, and those that are equal in it stay as they were. -/
theorem apply_pairwise (hrows : ∀ x ∈ rows, s.type.Places (x.get s.field)) (hp : rows.Pairwise earlier) :
    (s.apply rows).Pairwise (s.Before earlier) :=
  List.pairwise_reverse.mpr (foldl_place_pairwise hrows (fun _ h => absurd h List.not_mem_nil)
    (fun _ h => absurd h List.not_mem_nil) hp .nil)

/-- Records that are in order stay where they are. -/
theorem apply_eq_self (hrows : ∀ x ∈ rows, s.type.Places (x.get s.field))
    (hp : rows.Pairwise fun a b => s.compare a b = .lt) : s.apply rows = rows := by
  have hsorted := (apply_pairwise hrows hp).imp fun {a b} h => h.elim id And.right
  refine (s.apply_perm rows).eq_of_pairwise (fun a b _ _ hab hba => ?_) hsorted hp
  rw [s.compare_swap a b, hab] at hba
  cases hba

end SortOrder

section Identities

variable {t : FieldType} {a b id : Json} {k l : RecordKey}

/-- The form that a type gives identities: what it makes of them and keeps as it is, and numbers of a
sequence, which may lie beyond the type. Among values of type JSON no form is given. -/
def FieldType.IsCanonical (t : FieldType) (id : Json) : Prop :=
  t.IsIdentity id ∨ t ≠ .json ∧ coerce? t id = some id

theorem Double.units_of_isWhole {x : Double} (h : x.isWhole = true) : x.units = x.truncate * unit := by
  have hmagnitude : ((x.magnitude / unit : Nat) : Int) * unit = x.magnitude := by
    exact_mod_cast Nat.div_mul_cancel (Nat.dvd_of_mod_eq_zero (beq_iff_eq.mp h))
  unfold units truncate
  split
  · rw [Int.neg_mul, hmagnitude]
  · rw [hmagnitude]

theorem RecordKey.lt_of_clamp_lt {i j : Int} (h : clamp i < clamp j) : i < j := by
  unfold clamp at h
  omega

theorem RecordKey.isWhole_of_of? {x : Double} (h : RecordKey.of? (.num (.double x)) = some k) :
    x.isWhole = true ∧ k = .int (clamp x.truncate) := by
  obtain ⟨hwhole, hint⟩ := Option.ite_none_right_eq_some.mp h
  exact ⟨hwhole, (Option.some.inj hint).symm⟩

namespace FieldType

theorem compareRanks_of_lt {i j : Int} (h : i < j) (s u : String) :
    compareRanks (i, s) (j, u) = .lt := by
  have hlt : Ord.compare i j = .lt := if_pos h
  simp [compareRanks, compareLex, compareOn, hlt]

theorem Orders.compareRanks_of_key (ha : t.Orders a) (hb : t.Orders b) (hk : RecordKey.of? a = some k)
    (hl : RecordKey.of? b = some l) (h : k < l) : compareRanks a.rank b.rank = .lt := by
  rcases ha.alike hb with
    ⟨n, j, hn, hj, rfl, rfl⟩ | ⟨x, y, rfl, rfl⟩ | ⟨s, u, rfl, rfl⟩ | ⟨x, y, rfl, rfl⟩
  · simp only [RecordKey.of?, Number.signed?, hn, hj, if_true, Option.some.injEq] at hk hl
    subst hk hl
    exact compareRanks_of_lt h _ _
  · obtain ⟨hx, rfl⟩ := RecordKey.isWhole_of_of? hk
    obtain ⟨hy, rfl⟩ := RecordKey.isWhole_of_of? hl
    refine compareRanks_of_lt ?_ _ _
    rw [Double.units_of_isWhole hx, Double.units_of_isWhole hy]
    exact Int.mul_lt_mul_of_pos_right (RecordKey.lt_of_clamp_lt h) (by exact_mod_cast Double.unit_pos)
  · obtain rfl := Option.some.inj hk
    obtain rfl := Option.some.inj hl
    have hlt : Ord.compare s u = .lt := if_pos h
    simp [compareRanks, compareLex, compareOn, Json.rank, hlt]
  · cases hk

theorem IsCanonical.coerceOrKeep_eq (h : t.IsCanonical id) : coerceOrKeep t id = id := by
  rcases h with h | ⟨-, h⟩
  · exact h.coerceOrKeep_eq
  · rw [coerceOrKeep, h, Option.getD_some]

theorem IsCanonical.places (h : t.IsCanonical id) : t.Places id := by
  rcases h with h | ⟨ht, h⟩
  · exact h.places
  · exact places_of_coerce? ht h

/-- Canonical identities are in the order of their keys. -/
theorem IsCanonical.compareAs_of_key (ha : t.IsCanonical a) (hb : t.IsCanonical b) (hna : a ≠ .null)
    (hnb : b ≠ .null) (hk : RecordKey.of? a = some k) (hl : RecordKey.of? b = some l) (h : k < l) :
    compareAs t a b = some .lt := by
  have hplace {id : Json} (h : t.IsCanonical id) (hn : id ≠ .null) : t.Orders id :=
    h.coerceOrKeep_eq ▸ h.places.resolve_left hn
  rw [ha.places.compareAs_eq hb.places hna hnb, ha.coerceOrKeep_eq, hb.coerceOrKeep_eq,
    (hplace ha hna).compareRanks_of_key (hplace hb hnb) hk hl h]

end FieldType

end Identities

/-- A record as it may be stored: under the key of its identity, which is canonical, and with scalars that
are null or results of their types. -/
structure Model.Stores (m : Model) (key : RecordKey) (record : Json) : Prop where
  identity : ∃ id, m.identityOf record = some id ∧ m.identityType.IsCanonical id ∧
    RecordKey.of? id = some key
  scalars : ∀ a ∈ m.attributes, ∃ raw, coerce? a.type raw = some (record.get a.name)

/-- The first of two records has the smaller identity. -/
def Model.Earlier (m : Model) (a b : Json) : Prop :=
  compareAs m.identityType (a.get m.identity) (b.get m.identity) = some .lt

/-- One record may come before another one: null is at the end when the order ascends and at the start when
it descends, all other values go up or down, and where neither comes first the smaller identity does. -/
structure SortOrder.Precedes (s : SortOrder) (m : Model) (a b : Json) : Prop where
  null_last : s.direction = .asc → a.get s.field = .null → b.get s.field = .null
  null_first : s.direction = .desc → b.get s.field = .null → a.get s.field = .null
  ascending : s.direction = .asc → a.get s.field ≠ .null → b.get s.field ≠ .null →
    ∃ o, compareAs s.type (a.get s.field) (b.get s.field) = some o ∧ o ≠ .gt
  descending : s.direction = .desc → a.get s.field ≠ .null → b.get s.field ≠ .null →
    ∃ o, compareAs s.type (a.get s.field) (b.get s.field) = some o ∧ o ≠ .lt
  tie : (a.get s.field = .null ∧ b.get s.field = .null) ∨
      compareAs s.type (a.get s.field) (b.get s.field) = some .eq → m.Earlier a b

section Sorted

variable {s : SortOrder} {ts : Tables} {m : Model} {a b : Json} {key k l : RecordKey}
  {predicate : Option Predicate}

theorem Model.Stores.earlier (ha : m.Stores k a) (hb : m.Stores l b) (h : k < l) : m.Earlier a b := by
  obtain ⟨x, hx, hxc, hxk⟩ := ha.identity
  obtain ⟨y, hy, hyc, hyk⟩ := hb.identity
  obtain ⟨hget, hnx⟩ := Model.identityOf_eq_some_iff.mp hx
  obtain ⟨hget', hny⟩ := Model.identityOf_eq_some_iff.mp hy
  rw [Model.Earlier, Json.get_of_get? hget, Json.get_of_get? hget']
  exact hxc.compareAs_of_key hyc hnx hny hxk hyk h

theorem Model.Stores.places (h : m.Stores key a) (hfield : m.fieldType? s.field = some s.type)
    (hjson : s.type ≠ .json) : s.type.Places (a.get s.field) := by
  unfold Model.fieldType? at hfield
  split at hfield
  · next hname =>
    obtain ⟨x, hx, hxc, -⟩ := h.identity
    rw [hname, Json.get_of_get? (Model.identityOf_eq_some_iff.mp hx).1, ← Option.some.inj hfield]
    exact hxc.places
  · obtain ⟨x, hx, htype⟩ := Option.map_eq_some_iff.mp hfield
    have hname : x.name = s.field := by simpa using List.find?_some hx
    obtain ⟨raw, hraw⟩ := h.scalars x (List.mem_of_find?_eq_some hx)
    rw [htype, hname] at hraw
    exact FieldType.places_of_coerce? hjson hraw

namespace SortOrder

theorem compareValues_of_tie {t : FieldType} {x y : Json}
    (h : (x = .null ∧ y = .null) ∨ compareAs t x y = some .eq) : compareValues t x y = .eq := by
  rcases h with ⟨rfl, rfl⟩ | h
  · rfl
  · exact compareValues_of_compareAs h

theorem compareAs_eq_compareValues (ha : s.type.Places (a.get s.field)) (hb : s.type.Places (b.get s.field))
    (hna : a.get s.field ≠ .null) (hnb : b.get s.field ≠ .null) :
    compareAs s.type (a.get s.field) (b.get s.field) =
      some (compareValues s.type (a.get s.field) (b.get s.field)) := by
  rw [compareValues_of_ne_null hna hnb, ha.compareAs_eq hb hna hnb, Option.getD_some]

theorem precedes_of_ascending (hd : s.direction = .asc) (ha : s.type.Places (a.get s.field))
    (hb : s.type.Places (b.get s.field)) (h : s.Before m.Earlier a b) : s.Precedes m a b := by
  rw [SortOrder.Before, compare_ascending hd] at h
  refine ⟨fun _ hna => ?_, fun hd' => absurd (hd.symm.trans hd') nofun,
    fun _ hna hnb => ⟨_, compareAs_eq_compareValues ha hb hna hnb, ?_⟩,
    fun hd' => absurd (hd.symm.trans hd') nofun, fun htie => ?_⟩
  · by_contra hnb
    rw [hna, null_compareValues hnb] at h
    simp at h
  · rcases h with h | ⟨h, -⟩ <;> simp [h]
  · rw [compareValues_of_tie htie] at h
    simpa using h

theorem precedes_of_descending (hd : s.direction = .desc) (ha : s.type.Places (a.get s.field))
    (hb : s.type.Places (b.get s.field)) (h : s.Before m.Earlier a b) : s.Precedes m a b := by
  rw [SortOrder.Before, compare_descending hd] at h
  refine ⟨fun hd' => absurd (hd.symm.trans hd') nofun, fun _ hnb => ?_,
    fun hd' => absurd (hd.symm.trans hd') nofun,
    fun _ hna hnb => ⟨_, compareAs_eq_compareValues ha hb hna hnb, ?_⟩, fun htie => ?_⟩
  · by_contra hna
    rw [hnb, compareValues_null hna] at h
    simp at h
  · rcases h with h | ⟨h, -⟩
    · rw [Ordering.swap_eq_lt.mp h]
      decide
    · rw [Ordering.swap_eq_eq.mp h]
      decide
  · rw [compareValues_of_tie htie] at h
    simpa using h

theorem precedes_of_before (ha : s.type.Places (a.get s.field)) (hb : s.type.Places (b.get s.field))
    (h : s.Before m.Earlier a b) : s.Precedes m a b := by
  cases hd : s.direction with
  | asc => exact precedes_of_ascending hd ha hb h
  | desc => exact precedes_of_descending hd ha hb h

end SortOrder

namespace Tables

theorem pairwise_earlier (hrows : ∀ key record, ts.row? m.path key = some record → m.Stores key record)
    (predicate : Option Predicate) : (ts.matching m predicate).Pairwise m.Earlier := by
  have hall : (ts.records m.path).Pairwise m.Earlier := by
    refine (ts.pairwise_keys m.path).imp ?_
    rintro a b ⟨k, l, hlt, ha, hb⟩
    exact (hrows k a ha).earlier (hrows l b hb) hlt
  cases predicate with
  | none => exact hall
  | some p => exact hall.filter _

theorem exists_row?_of_mem_matching (h : a ∈ ts.matching m predicate) :
    ∃ key, ts.row? m.path key = some a := by
  refine mem_records_iff.mp ?_
  cases predicate with
  | none => exact h
  | some p => exact List.mem_of_mem_filter h

/-- A query answers a part of the records that match, in the order that is asked for. Without one it is that
of the identities. -/
theorem queries_are_ordered
    (hrows : ∀ key record, ts.row? m.path key = some record → m.Stores key record)
    (predicate : Option Predicate) :
    (∀ s : SortOrder, m.fieldType? s.field = some s.type → s.type ≠ .json →
      ∃ rows, rows.Perm (ts.matching m predicate) ∧ rows.Pairwise (s.Precedes m) ∧
        ∀ w, ts.query m predicate (some s) w = .ok (w.apply rows)) ∧
    ∀ w, ts.query m predicate none w =
      ts.query m predicate (some ⟨m.identity, m.identityType, true, .asc⟩) w := by
  have hearlier := pairwise_earlier hrows predicate
  constructor
  · intro s hfield hjson
    have hplaces : ∀ x ∈ ts.matching m predicate, s.type.Places (x.get s.field) := fun x hx => by
      obtain ⟨key, hkey⟩ := exists_row?_of_mem_matching hx
      exact (hrows key x hkey).places hfield hjson
    have hperm := s.apply_perm (ts.matching m predicate)
    refine ⟨_, hperm, ?_, query_of_sorts (.inr (SortOrder.totalOn_of_places hplaces))⟩
    refine (SortOrder.apply_pairwise hplaces hearlier).imp_of_mem fun {a b} ha hb h => ?_
    exact SortOrder.precedes_of_before (hplaces a (hperm.mem_iff.mp ha)) (hplaces b (hperm.mem_iff.mp hb)) h
  · intro w
    let s : SortOrder := ⟨m.identity, m.identityType, true, .asc⟩
    have hplaces : ∀ x ∈ ts.matching m predicate, s.type.Places (x.get s.field) := fun x hx => by
      obtain ⟨key, hkey⟩ := exists_row?_of_mem_matching hx
      obtain ⟨id, hid, hcanonical, -⟩ := (hrows key x hkey).identity
      rw [Json.get_of_get? (Model.identityOf_eq_some_iff.mp hid).1]
      exact hcanonical.places
    have hsorted : s.apply (ts.matching m predicate) = ts.matching m predicate :=
      SortOrder.apply_eq_self hplaces (hearlier.imp fun {a b} h =>
        SortOrder.compareValues_of_compareAs h)
    rw [query_of_sorts (.inr (SortOrder.totalOn_of_places hplaces)), hsorted, query_unsorted]

end Tables

end Sorted

namespace Notebook

def titled (n : Nat) (title : Json) : Json :=
  .ofPairs [("id", .ofNat n), ("title", title)]

/-- Two notes of one title, and between them one without a title. -/
def drafts : Tables :=
  Tables.empty.set "notes" (((Table.empty.put (.int 3) (titled 3 (.str "Plan"))).put
    (.int 2) (titled 2 .null)).put (.int 1) (titled 1 (.str "Plan")))

theorem stores_drafts : ∀ key record, drafts.row? note.path key = some record →
    note.Stores key record := by
  intro key record h
  have hmem := (OrderedMap.get?_eq_some_iff (drafts.table note.path).ascending).mp h
  have hrows : (drafts.table note.path).rows =
      [(.int 1, titled 1 (.str "Plan")), (.int 2, titled 2 .null), (.int 3, titled 3 (.str "Plan"))] := rfl
  have hstores {n : Nat} {title : Json} (hid : note.identityOf (titled n title) = some (.ofNat n))
      (hcoerce : coerce? .long (.ofNat n) = some (.ofNat n)) (hkey : RecordKey.of? (.ofNat n) = some (.int n))
      (htitle : ∃ raw, coerce? .string raw = some ((titled n title).get "title")) :
      note.Stores (.int n) (titled n title) := by
    refine ⟨⟨_, hid, .inr ⟨nofun, hcoerce⟩, hkey⟩, fun a ha => ?_⟩
    rcases List.mem_cons.mp ha with rfl | ha
    · exact htitle
    · obtain rfl := List.mem_singleton.mp ha
      exact ⟨(titled n title).get "data", by cases (titled n title).get "data" <;> rfl⟩
  rw [hrows] at hmem
  simp only [List.mem_cons, Prod.mk.injEq, List.not_mem_nil, or_false] at hmem
  rcases hmem with ⟨rfl, rfl⟩ | ⟨rfl, rfl⟩ | ⟨rfl, rfl⟩
  · exact hstores (by rfl) (by rfl) (by rfl) ⟨.str "Plan", by rfl⟩
  · exact hstores (by rfl) (by rfl) (by rfl) ⟨.null, by rfl⟩
  · exact hstores (by rfl) (by rfl) (by rfl) ⟨.str "Plan", by rfl⟩

end Notebook

namespace Tables

open Notebook

/-- In descending order the note without a title is the first one, and the others stay as they are. -/
theorem drafts_are_ordered :
    (∀ key record, drafts.row? note.path key = some record → note.Stores key record) ∧
      note.fieldType? byTitle.field = some byTitle.type ∧ byTitle.type ≠ .json ∧
      (∃ rows, rows.Perm (drafts.matching note none) ∧ rows.Pairwise (byTitle.Precedes note) ∧
        ∀ w, drafts.query note none (some byTitle) w = .ok (w.apply rows)) ∧
      drafts.query note none (some byTitle) ⟨0, some 2⟩ =
        .ok [titled 2 .null, titled 1 (.str "Plan")] :=
  ⟨stores_drafts, rfl, nofun, (queries_are_ordered stores_drafts none).1 byTitle rfl nofun, by rfl⟩

end Tables

end EntityGraph
