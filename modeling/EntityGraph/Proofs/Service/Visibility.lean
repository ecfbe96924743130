import EntityGraph.Proofs.Service.Run

namespace EntityGraph

/-- A number that is in the range of the identity type; one that has been generated may lie beyond. -/
def Model.InRange (m : Model) (id : Json) : Prop :=
  ∀ n : Whole, id = .num (.whole n) → m.identityType.holds n.value = true

namespace Model

variable {m : Model} {id : Json}

theorem IsIdentity.identity?_eq_self (h : m.IsIdentity id) (hr : m.InRange id) :
    m.identity? id = some id := by
  rw [identity?_eq_some_iff, coerceIdentity_eq_ok_iff]
  refine ⟨?_, h.ne_null⟩
  unfold IsIdentity InRange at *
  generalize m.identityType = t at h hr
  cases h with
  | whole ht n hn =>
    rw [FieldType.coerce?_whole ht hn, FieldType.integral?_eq_some_iff]
    exact ⟨hr n rfl, n, rfl, rfl⟩
  | text s => rfl
  | uuid hs => exact FieldType.coerce?_uuid_of_canonical hs

end Model

namespace Registry

variable {g : Registry} {ts : Tables} {m n target : Model} {o i r : Relation} {key : RecordKey}
  {a b id record other x : Json}

theorem AllFit.exists_key_of_mem_records (hts : g.AllFit ts) (hm : m ∈ g.models)
    (hr : record ∈ ts.records m.path) (ha : m.identityOf record = some a) :
    ∃ key, RecordKey.of? a = some key ∧ ts.row? m.path key = some record ∧ m.IsIdentity a ∧
      (m.identityGenerated = false → m.identity? a = some a) := by
  obtain ⟨key, hrow⟩ := Tables.mem_records_iff.mp hr
  obtain ⟨x, hx, hform, hk, hself⟩ := (hts m hm key record hrow).identity
  obtain rfl := Option.some.inj (ha.symm.trans hx)
  exact ⟨key, hk, hrow, hform, hself⟩

theorem mem_take_one {α : Type} {xs : List α} {a : α} (h : ∀ x ∈ xs, ∀ y ∈ xs, x = y) :
    a ∈ xs.take 1 ↔ a ∈ xs := by
  refine ⟨List.mem_of_mem_take, fun ha => ?_⟩
  cases xs with
  | nil => exact ha
  | cons x rest => exact List.mem_singleton.mpr (h a ha x List.mem_cons_self)

theorem leadsTo_of_owning (ho : o ∈ m.owning) (ts : Tables) (target : Model) (id record : Json) :
    leadsTo ts target o id record = (record.get o.name).references := by
  have hmb := Option.isNone_iff_eq_none.mp (List.mem_filter.mp ho).2
  rw [leadsTo, hmb]

theorem kind_eq_oneToOne_iff (h : i.kind.pairs o.kind = true) :
    o.kind = .oneToOne ↔ i.isCollection = false := by
  unfold Relation.isCollection
  cases hi : i.kind <;> cases ho : o.kind <;> simp_all [RelationKind.pairs, RelationKind.isCollection]

section Inverse

variable (hm : m ∈ g.models) (ho : o ∈ m.owning) (ht : g.get? o.target = some n)
  (hb : n.IsIdentity b)

include hm ho ht hb

theorem AllFit.mem_identities_of_holders (hts : g.AllFit ts) (ha : m.IsIdentity a)
    (hk : RecordKey.of? a = some key) :
    a ∈ (holders ts m o.name b).filterMap m.identityOf ↔ ts.Refers m key o b := by
  simp only [List.mem_filterMap, hts.mem_holders_iff hm ho ht hb]
  constructor
  · rintro ⟨record, ⟨l, hrow, hmem⟩, hid⟩
    have hkey := (hts m hm l record hrow).key?_eq
    rw [Model.key?, hid, Option.bind_some, hk, Option.some.injEq] at hkey
    exact ⟨record, hkey ▸ hrow, hmem⟩
  · rintro ⟨record, hrow, hmem⟩
    obtain ⟨y, hy, hform, hyk, -⟩ := (hts m hm key record hrow).identity
    exact ⟨record, ⟨key, hrow, hmem⟩, by rw [hy, hform.eq_of_key ha (hyk.trans hk.symm)]⟩

theorem AllFit.eq_of_mem_holders (hts : g.AllFit ts) (hold : ts.ConsistentAt m o n)
    (hkind : o.kind = .oneToOne)
    (ha : a ∈ (holders ts m o.name b).filterMap m.identityOf)
    (hx : x ∈ (holders ts m o.name b).filterMap m.identityOf) : a = x := by
  have hform {z} (hz : z ∈ (holders ts m o.name b).filterMap m.identityOf) :
      ∃ k, m.IsIdentity z ∧ RecordKey.of? z = some k ∧ ts.Refers m k o b := by
    obtain ⟨record, hrecord, hid⟩ := List.mem_filterMap.mp hz
    obtain ⟨k, hzk, -, hzform, -⟩ :=
      hts.exists_key_of_mem_records hm (List.mem_filter.mp hrecord).1 hid
    exact ⟨k, hzform, hzk, (hts.mem_identities_of_holders hm ho ht hb hzform hzk).mp hz⟩
  obtain ⟨k, haform, hak, hk⟩ := hform ha
  obtain ⟨l, hxform, hxl, hl⟩ := hform hx
  exact haform.eq_of_key hxform (by rw [hak, hxl, hold.single hkind k l b hk hl])

/-- From the inverse side a relation leads to the identities of the records that refer to the
record. -/
theorem AllFit.mem_leadsTo_of_inverse (hts : g.AllFit ts) (hold : ts.ConsistentAt m o n)
    (hmapped : i.mappedBy = some o.name) (hpairs : i.kind.pairs o.kind = true)
    (ha : m.IsIdentity a) (hk : RecordKey.of? a = some key) (other : Json) :
    a ∈ leadsTo ts m i b other ↔ ts.Refers m key o b := by
  rw [leadsTo, hmapped, ← hts.mem_identities_of_holders hm ho ht hb ha hk]
  dsimp only
  split
  · exact Iff.rfl
  · next hsingle =>
    have hkind := (kind_eq_oneToOne_iff hpairs).mpr (Bool.eq_false_iff.mpr hsingle)
    exact mem_take_one fun x hx y hy => hts.eq_of_mem_holders hm ho ht hb hold hkind hx hy

end Inverse

end Registry

namespace Service

open Registry

variable {s : Service} {ts : Tables} {m n target : Model} {o i r : Relation} {path : String}
  {raw id record other a b : Json} {writes : List Write}

theorem relatedLookup_eq (hg : s.registry.Coherent) (hpath : s.registry.get? path = some m)
    (hr : r ∈ m.relations) (hid : m.coerceIdentity raw = .ok id) :
    s.relatedLookup path raw r.name = .ok (UnitOfWork.attempt fun ts => do
      let record ← existing ts m id
      let entity ← s.expanded ts m (max s.settings.relationDepth 1) record
      return (entity.get? r.name).getD r.empty) := by
  have hrelation : relation m r.name = .ok r := by
    rw [relation, hg.relation?_name (mem_of_get? hpath).1 hr]
  rw [relatedLookup, resolve_eq_ok_iff.mpr hpath, ok_bind, hrelation, ok_bind, hid, ok_bind]
  rfl

theorem expanded_eq (s : Service) : ∃ depth, ∀ ts m record,
    s.expanded ts m (max s.settings.relationDepth 1) record =
      s.registry.load ts (depth + 1) m (s.registry.fromRecord m record) := by
  refine ⟨max s.settings.relationDepth 1 - 1, fun ts m record => ?_⟩
  rw [expanded, Nat.sub_add_cancel (Nat.le_max_right _ _)]

/-- Whenever what is related to a stored record is read, it is what the relation leads to. -/
theorem shows_of_relatedLookup (hg : s.registry.Coherent) (hts : s.registry.AllFit ts)
    (hpath : s.registry.get? path = some m) (hr : r ∈ m.relations)
    (ht : s.registry.get? r.target = some target) (hplain : r.PlainOwner target)
    (hid : m.coerceIdentity raw = .ok id) (hfind : ts.find? m.path id = some record)
    {u : UnitOfWork Json} {v : Json} {ts' : Tables} (hu : s.relatedLookup path raw r.name = .ok u)
    (hrun : u.run ts = (.ok v, ts')) :
    Shows target r.isCollection (leadsTo ts target r id record) v := by
  have hm := (mem_of_get? hpath).1
  obtain ⟨hform, hself⟩ := Model.isIdentity_of_coerceIdentity (hg.identityTypes m hm) hid
  have hroot : (m.identityOf (s.registry.fromRecord m record)).bind m.identity? = some id := by
    rw [hg.identityOf_fromRecord hm, hts.identityOf_of_find? hm hform hfind, Option.bind_some, hself]
  obtain ⟨depth, hdepth⟩ := s.expanded_eq
  obtain rfl := Except.ok.inj ((relatedLookup_eq hg hpath hr hid).symm.trans hu)
  obtain ⟨hread, -⟩ := UnitOfWork.run_attempt_eq_ok_iff.mp hrun
  rw [existing_eq_ok_iff.mpr hfind, ok_bind, hdepth] at hread
  obtain ⟨e, hload, he⟩ := bind_eq_ok_iff.mp hread
  obtain ⟨w, hw, hshows⟩ := (expanded_of_load hg hts hm hroot hfind hload).related r hr target ht
  rw [hw, Option.getD_some] at he
  exact Except.ok.inj he ▸ hshows hplain

/-- Where references have plain names, what is related to a stored record is read without fail. -/
theorem exists_getRelated (hs : s.IsPlain) (hts : s.registry.AllFit ts)
    (hpath : s.registry.get? path = some m) (hr : r ∈ m.relations)
    (ht : s.registry.get? r.target = some target) (hid : m.coerceIdentity raw = .ok id)
    (hfind : ts.find? m.path id = some record) :
    ∃ u v, s.relatedLookup path raw r.name = .ok u ∧ u.run ts = (.ok v, ts) ∧
      Shows target r.isCollection (leadsTo ts target r id record) v := by
  have hg := hs.coherent
  have hm := (mem_of_get? hpath).1
  obtain ⟨depth, hdepth⟩ := s.expanded_eq
  obtain ⟨e, hload⟩ := exists_load_total hg hs.names ts (depth + 1) hm (s.registry.fromRecord m record)
  have hplan := relatedLookup_eq hg hpath hr hid
  have hrun : (UnitOfWork.attempt fun ts => do
      let record ← existing ts m id
      let entity ← s.expanded ts m (max s.settings.relationDepth 1) record
      return (entity.get? r.name).getD r.empty : UnitOfWork Json).run ts =
        (.ok ((e.get? r.name).getD r.empty), ts) := by
    refine UnitOfWork.run_attempt_eq_ok_iff.mpr ⟨?_, rfl⟩
    rw [existing_eq_ok_iff.mpr hfind, ok_bind, hdepth, hload, ok_bind]
    rfl
  exact ⟨_, _, hplan, hrun, shows_of_relatedLookup hg hts hpath hr ht
    (hs.names.plainOwner (mem_of_get? ht).1 r) hid hfind hplan hrun⟩

/-- Whatever has been written, an entity is related to another one from the owning side of a relation
just if it is from the inverse side. -/
theorem related_from_both_sides (hs : s.IsPlain) (hw : ∀ w ∈ writes, w.IsLoose)
    (hm : m ∈ s.registry.models) (hn : n ∈ s.registry.models) (ho : o ∈ m.owning)
    (hi : i ∈ n.relations) (hmapped : i.mappedBy = some o.name)
    (hback : s.registry.get? i.target = some m)
    (hrecord : record ∈ (s.after writes).tables.records m.path)
    (hother : other ∈ (s.after writes).tables.records n.path)
    (ha : m.identityOf record = some a) (hb : n.identityOf other = some b)
    (harange : m.identityGenerated = true → m.InRange a)
    (hbrange : n.identityGenerated = true → n.InRange b) :
    ∃ v w, ((s.after writes).run (s.getRelated m.path a o.name)).1 = .ok v ∧
      ((s.after writes).run (s.getRelated n.path b i.name)).1 = .ok w ∧
        ((n.identitiesOf v).any (·.sameIdentity b) = true ↔
          (m.identitiesOf w).any (·.sameIdentity a) = true) := by
  have hg := hs.coherent
  have hts := consistent_after hs hw
  have hout := outage_after s writes
  obtain ⟨counter, hco, hname, htarget, hpairs⟩ :=
    hg.owners n hn i hi o.name hmapped m hm (hg.target_path hn hi hback).2
  obtain rfl := hg.eq_of_name hm (List.mem_filter.mp hco).1 (List.mem_filter.mp ho).1 hname
  have ht : s.registry.get? counter.target = some n := htarget ▸ get?_path hn
  obtain ⟨key, hk, hrow, haform, haself⟩ := hts.fits.exists_key_of_mem_records hm hrecord ha
  obtain ⟨l, hl, hlrow, hbform, hbself⟩ := hts.fits.exists_key_of_mem_records hn hother hb
  have haccepted : m.identity? a = some a := by
    cases hgen : m.identityGenerated with
    | false => exact haself hgen
    | true => exact haform.identity?_eq_self (harange hgen)
  have hbaccepted : n.identity? b = some b := by
    cases hgen : n.identityGenerated with
    | false => exact hbself hgen
    | true => exact hbform.identity?_eq_self (hbrange hgen)
  obtain ⟨u, v, hu, hurun, hv⟩ := exists_getRelated hs hts.fits (get?_path hm)
    (List.mem_filter.mp ho).1 ht (Model.identity?_eq_some_iff.mp haccepted)
    ((Tables.find?_eq_row? hk _ _).trans hrow)
  obtain ⟨u', w, hu', hurun', hw'⟩ := exists_getRelated hs hts.fits (get?_path hn) hi hback
    (Model.identity?_eq_some_iff.mp hbaccepted) ((Tables.find?_eq_row? hl _ _).trans hlrow)
  refine ⟨v, w, congrArg Prod.fst (Store.run_of_ok hout hu hurun),
    congrArg Prod.fst (Store.run_of_ok hout hu' hurun'), ?_⟩
  rw [hbform.any_sameIdentity_iff fun x hx => hv.1.isIdentity hx,
    haform.any_sameIdentity_iff fun x hx => hw'.1.isIdentity hx, hv.2, hw'.2,
    leadsTo_of_owning ho, hts.fits.mem_leadsTo_of_inverse hm ho ht hbform (hts.consistentAt hm ho ht)
      hmapped hpairs haform hk,
    Tables.refers_iff hrow]

theorem passport_related_from_both_sides :
    let store := Household.service.after Household.writes
    ∃ v w, (store.run (Household.service.getRelated "people" (.ofNat 2) "passport")).1 = .ok v ∧
      (store.run (Household.service.getRelated "passports" (.str "P1") "holder")).1 = .ok w ∧
        ((Household.document.identitiesOf v).any (·.sameIdentity (.str "P1")) = true ↔
          (Household.person.identitiesOf w).any (·.sameIdentity (.ofNat 2)) = true) :=
  related_from_both_sides (m := Household.person) (n := Household.document)
    (o := Household.passport) (i := Household.holder) Household.isPlain Household.writes_isLoose
    (.head _) (.tail _ (.head _)) (.head _) (.head _) rfl rfl
    (List.mem_of_getElem? (i := 1) (a := Json.ofPairs [("id", .ofNat 2), ("name", .str "Bo"),
      ("passport", .str "P1")]) rfl)
    (List.mem_singleton_self (Json.ofPairs [("number", .str "P1")])) rfl rfl
    (fun _ n hn => by cases hn; rfl) (fun h => nomatch h)

end Service

end EntityGraph
