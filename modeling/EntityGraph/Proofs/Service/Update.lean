import EntityGraph.Proofs.Service.Locality

namespace EntityGraph

namespace Service

open Registry UnitOfWork

variable {s : Service} {ts ts' next : Tables} {path : String} {raw a id record incoming bound entity v x : Json}
  {members : List (String × Json)} {m target : Model} {r c : Relation} {key k : RecordKey}
  {ls : List Assignment} {l : Assignment} {writes : List Write}

namespace Revised

variable (hg : s.registry.Coherent) (hts : s.registry.AllFit ts)
  (h : s.Revised ts path raw members m id key record incoming bound entity)
  (hr : r ∈ m.relations) (ht : s.registry.get? r.target = some target)
  (honly : ∀ q ∈ m.relations, q.NamedIn members → q = r)
  (hv : s.registry.bound? ts target r (.obj (OrderedMap.erase members m.identity)) = some v)

include hg h

include hts hv in
/-- The relation that the input gives is stored as it is bound. -/
theorem mem_references_of_owning (hr : r ∈ m.owning) (ht : s.registry.get? r.target = some target) :
    x ∈ ((s.registry.toRecord m entity).get r.name).references ↔ x ∈ target.identitiesOf v := by
  have hrm := (List.mem_filter.mp hr).1
  have hfound := found_of_bound? hg hts (mem_of_get? ht).1 hv
  have hbound : s.registry.RelatedBy ts r bound := by
    intro t ht' w hw
    obtain rfl := Option.some.inj (ht.symm.trans ht')
    rw [h.binds.related r hrm target ht, hv, Option.some_or, Option.some.injEq] at hw
    exact hw ▸ ⟨hfound.fits, hfound.stored⟩
  rw [(hbound.mirrors hrm h.mirrors).mem_references_toRecord hg h.mem_models hr ht,
    h.mirrors.identitiesOf_get hrm ht, h.get_bound hrm ht hv]
  exact ⟨And.left, fun hx => ⟨hx, hfound.accepted x hx⟩⟩

section Inverse

variable (hc : c ∈ target.owning) (hmapped : r.mappedBy = some c.name)

include hr ht honly hv hc hmapped

theorem link_of_spreads (hl : s.Spreads next m id bound l) :
    (l.holder = target ∧ l.relation = c ∧ l.id = id) ∧
      ∃ y ∈ target.identitiesOf v, RecordKey.of? y = some l.key := by
  obtain ⟨q, hq, hmb, hholder, y, hy, hyk⟩ := hl.relation
  obtain rfl := honly q hq (h.namedIn_of_mem_identitiesOf hg hq hmb hy)
  obtain rfl := Option.some.inj (hholder.symm.trans ht)
  have hrelation : l.relation = c :=
    hg.eq_of_name hl.proper.mem_models (List.mem_filter.mp hl.proper.mem_owning).1
      (List.mem_filter.mp hc).1 (Option.some.inj (hmb.symm.trans hmapped))
  rw [h.get_bound hr ht hv] at hy
  exact ⟨⟨rfl, hrelation, hl.id_eq⟩, y, hy, hyk⟩

theorem exists_link_iff
    (hlinks : List.Forall₂ StandsFor (m.relations.flatMap (s.registry.backLinks bound)) ls)
    (hspreads : ∀ l ∈ ls, s.Spreads next m id bound l)
    (hfits : target.FitsValue r.isCollection v) (hx : target.IsIdentity x)
    (hk : RecordKey.of? x = some k) :
    (∃ l ∈ ls, l.key = k) ↔ x ∈ target.identitiesOf v := by
  constructor
  · rintro ⟨l, hl, rfl⟩
    obtain ⟨-, y, hy, hyk⟩ := h.link_of_spreads hg hr ht honly hv hc hmapped (hspreads l hl)
    rwa [← (hfits.isIdentity hy).eq_of_key hx (hyk.trans hk.symm)]
  · intro hmem
    rw [← h.get_bound hr ht hv] at hmem
    have hlink := (mem_backLinks_iff hmapped ht).mpr ⟨x, hmem, rfl⟩
    obtain ⟨l, hl, hstands⟩ := exists_right_of_forall₂ hlinks (List.mem_flatMap.mpr ⟨r, hr, hlink⟩)
    exact ⟨l, hl, Option.some.inj (hstands.key.symm.trans hk)⟩

variable (hct : s.registry.get? c.target = some m) (hold : ts.ConsistentAt target c m)

include hts hct hold

omit hr hv in
/-- What refers to the root does so still when the root has been written and has its claims. -/
theorem refers_of_trims
    (hnext : s.registry.Trims target c (claims m key (s.registry.toRecord m entity))
      (ts.put m.path key (s.registry.toRecord m entity)) next) :
    next.Refers target k c id ↔ ts.Refers target k c id := by
  have hm := h.mem_models
  obtain ⟨hcm, howning⟩ := List.mem_filter.mp hc
  -- the relation is not given, also if it is one of the root's own
  have hown (htarget : target = m) {x : Json} :
      x ∈ ((s.registry.toRecord m entity).get c.name).references ↔
        x ∈ (record.get c.name).references ∧ m.identity? x = some x := by
    subst htarget
    have hkept := h.get?_bound_of_not_namedIn hg hcm fun hnamed => by
      rw [honly c hcm hnamed, Relation.isOwning_of_some hmapped] at howning
      cases howning
    exact h.mem_references_saved hg hts hc hct (h.relatedBy_bound hg hts hcm
      (relatedBy_fromRecord hg hts hm h.row hcm fun t ht' _ y hy =>
        Option.some.inj (hct.symm.trans ht') ▸ hold.closed key y ⟨record, h.row, hy⟩)) hkept
  have hput : (ts.put m.path key (s.registry.toRecord m entity)).Refers target k c id ↔
      ts.Refers target k c id := by
    rw [refers_put hm (mem_of_get? ht).1]
    by_cases hroot : target = m ∧ k = key
    · obtain ⟨htarget, rfl⟩ := hroot
      rw [hown htarget, ← Tables.refers_iff (htarget ▸ h.row)]
      simp [htarget, (h.isIdentity hg).2]
    · rw [← and_assoc]
      simp [hroot]
  rw [hnext.refers_iff, hput]
  refine ⟨And.left, fun hrefers => ⟨hrefers, fun cut hcut hremoves => ?_⟩⟩
  obtain ⟨o, ho, hkind, y, hy, rfl⟩ := mem_claims_iff.mp hcut
  obtain ⟨htarget, rfl, rfl, hspared⟩ := hremoves
  have hmem := (present?_eq_some_iff_of_oneToOne (h.fits hg) ho hkind hct).mp hy
  have hkey := hold.single hkind k key _ hrefers ⟨record, htarget ▸ h.row, ((hown htarget.symm).mp hmem).1⟩
  exact (decide_eq_false_iff_not.mp hspared) hkey

/-- An entity refers to the root if the relation that the input gives is bound to it, and otherwise if
it did before and has not lost its place. -/
theorem refers_of_settled (hpairs : r.kind.pairs c.kind = true)
    (hsettled : s.SettledAt target c (ts.put m.path key (s.registry.toRecord m entity)) ts' m key id
      (s.registry.toRecord m entity) bound) (hx : target.IsIdentity x) (hk : RecordKey.of? x = some k) :
    ts'.Refers target k c id ↔ x ∈ target.identitiesOf v ∨
      ts.Refers target k c id ∧ (r.isCollection = true ∨ target.identitiesOf v = []) := by
  obtain ⟨next, ls, hnext, hlast, hlinks, hspreads⟩ := hsettled
  have hfits := (found_of_bound? hg hts (mem_of_get? ht).1 hv).fits
  have hlink (l : Assignment) (hl : l ∈ ls) :=
    h.link_of_spreads hg hr ht honly hv hc hmapped (hspreads l hl)
  have hkey {y j} (hy : target.IsIdentity y) (hj : RecordKey.of? y = some j) :=
    h.exists_link_iff hg hr ht honly hv hc hmapped hlinks hspreads hfits hy hj
  have hnil : ls = [] ↔ target.identitiesOf v = [] := by
    simp only [List.eq_nil_iff_forall_not_mem]
    constructor
    · intro hnone y hy
      obtain ⟨j, hj⟩ := (hfits.isIdentity hy).exists_key
      obtain ⟨l, hl, -⟩ := (hkey (hfits.isIdentity hy) hj).mpr hy
      exact hnone l hl
    · intro hnone l hl
      obtain ⟨-, y, hy, -⟩ := hlink l hl
      exact hnone y hy
  have hkind := kind_eq_oneToOne_iff hpairs
  rw [hlast.refers_iff (fun l hl => (hlink l hl).1) (fun hone l hl l' hl' => by
      obtain ⟨-, y, hy, hyk⟩ := hlink l hl
      obtain ⟨-, y', hy', hyk'⟩ := hlink l' hl'
      have heq := (hkind.mp hone ▸ hfits).eq_of_mem hy hy'
      exact Option.some.inj (by rw [← hyk, ← hyk', heq])),
    hkey hx hk, h.refers_of_trims hg hts ht honly hc hmapped hct hold hnext, hkind, hnil]
  cases r.isCollection <;> simp

end Inverse

end Revised

section Effect

variable (hg : s.registry.Coherent) (hhooks : s.hooks = .none) {u : UnitOfWork Json}

include hg hhooks

/-- Of an owning relation that the input gives, what it is bound to is left. -/
theorem exists_left_of_owning (hts : s.registry.AllFit ts)
    (hpath : s.registry.get? path = some m) (hr : r ∈ m.owning)
    (ht : s.registry.get? r.target = some target)
    (honly : ∀ q ∈ m.relations, q.NamedIn members → q = r)
    (hv : s.registry.bound? ts target r (.obj (OrderedMap.erase members m.identity)) = some v)
    (h : s.revision path raw (.fields members) = .ok u) (hrun : u.run ts = (.ok a, ts')) :
    ∃ id record after, m.coerceIdentity raw = .ok id ∧ s.registry.AllFit ts' ∧
      ts.find? m.path id = some record ∧ ts'.find? m.path id = some after ∧
        ∀ x, x ∈ leadsTo ts' target r id after ↔ x ∈ target.identitiesOf v := by
  obtain ⟨n, id, key, record, incoming, bound, entity, hprepared, hanswered⟩ :=
    update_answers hg hts hhooks h a ts' hrun
  obtain rfl := Option.some.inj (hpath.symm.trans hprepared.model)
  have hcurrent : ∀ o ∈ m.relations, o.isOwning = false → o.target = m.path → ¬o.NamedIn members := by
    intro o ho howning _ hnamed
    rw [honly o ho hnamed, (List.mem_filter.mp hr).2] at howning
    cases howning
  refine ⟨id, record, _, hprepared.coerced, hanswered.fits, hprepared.found,
    hanswered.same ⟨members, rfl, hcurrent⟩, fun x => ?_⟩
  rw [leadsTo_of_owning hr]
  exact (hprepared.revised hg).mem_references_of_owning hg hts hv hr ht

/-- Of an inverse relation that the input gives, what it is bound to is left, and what it led to before
unless that has lost its place. -/
theorem exists_left_of_inverse (hts : s.registry.AllFit ts)
    (hpath : s.registry.get? path = some m) (hr : r ∈ m.relations)
    (ht : s.registry.get? r.target = some target)
    (honly : ∀ q ∈ m.relations, q.NamedIn members → q = r)
    (hv : s.registry.bound? ts target r (.obj (OrderedMap.erase members m.identity)) = some v)
    (hc : c ∈ target.owning) (hplain : c.IsPlain) (hmapped : r.mappedBy = some c.name)
    (hct : s.registry.get? c.target = some m) (hpairs : r.kind.pairs c.kind = true)
    (hold : ts.ConsistentAt target c m)
    (h : s.revision path raw (.fields members) = .ok u) (hrun : u.run ts = (.ok a, ts')) :
    ∃ id record after, m.coerceIdentity raw = .ok id ∧ s.registry.AllFit ts' ∧
      ts.find? m.path id = some record ∧ ts'.find? m.path id = some after ∧
        ∀ x, target.IsIdentity x → (x ∈ leadsTo ts' target r id after ↔ x ∈ target.identitiesOf v ∨
          x ∈ leadsTo ts target r id record ∧
            (r.isCollection = true ∨ target.identitiesOf v = [])) := by
  have htm := (mem_of_get? ht).1
  obtain ⟨n, id, key, record, incoming, bound, entity, hrevised, hsettled⟩ :=
    revision_settles hg htm hc hplain hct hts hold hhooks h a ts' hrun
  obtain rfl := Option.some.inj (hpath.symm.trans hrevised.model)
  have hm := hrevised.mem_models
  have hid := (hrevised.isIdentity hg).1
  obtain ⟨hts', hnew⟩ := hrevised.consistentAt_of_settledAt hg htm hc hct hts hold hsettled
  obtain ⟨after, hafter⟩ : ∃ after, ts'.row? m.path key = some after := by
    rw [← Option.isSome_iff_exists, hsettled.isSome_row?, Tables.row?_put_self]
    rfl
  refine ⟨id, record, after, hrevised.coerced, hts',
    (Tables.find?_eq_row? hrevised.key_eq _ _).trans hrevised.row,
    (Tables.find?_eq_row? hrevised.key_eq _ _).trans hafter, fun x hx => ?_⟩
  obtain ⟨k, hk⟩ := hx.exists_key
  rw [hts'.mem_leadsTo_of_inverse htm hc hct hid hnew hmapped hpairs hx hk,
    hts.mem_leadsTo_of_inverse htm hc hct hid hold hmapped hpairs hx hk,
    hrevised.refers_of_settled hg hts hr ht honly hv hc hmapped hct hold hpairs hsettled hx hk]

/-- What an update leaves of the relation that it gives: what it is bound to, and from the inverse side what
it led to before, unless that has lost its place. -/
theorem exists_left (hts : s.registry.AllFit ts) (hpath : s.registry.get? path = some m)
    (hr : r ∈ m.relations) (ht : s.registry.get? r.target = some target)
    (honly : ∀ q ∈ m.relations, q.NamedIn members → q = r)
    (hv : s.registry.bound? ts target r (.obj (OrderedMap.erase members m.identity)) = some v)
    (hold : ∀ c ∈ target.owning, r.mappedBy = some c.name → s.registry.get? c.target = some m →
      c.IsPlain ∧ ts.ConsistentAt target c m)
    (h : s.revision path raw (.fields members) = .ok u) (hrun : u.run ts = (.ok a, ts')) :
    ∃ id record after, m.coerceIdentity raw = .ok id ∧ s.registry.AllFit ts' ∧
      ts.find? m.path id = some record ∧ ts'.find? m.path id = some after ∧
        ∀ x, target.IsIdentity x → (x ∈ leadsTo ts' target r id after ↔ x ∈ target.identitiesOf v ∨
          r.isOwning = false ∧ x ∈ leadsTo ts target r id record ∧
            (r.isCollection = true ∨ target.identitiesOf v = [])) := by
  have hm := (mem_of_get? hpath).1
  cases hmb : r.mappedBy with
  | none =>
    obtain ⟨id, record, after, hcoerced, hts', hfound, hleft, hx⟩ := exists_left_of_owning hg hhooks hts
      hpath (Model.mem_owning_iff.mpr ⟨hr, hmb⟩) ht honly hv h hrun
    refine ⟨id, record, after, hcoerced, hts', hfound, hleft, fun x _ => ?_⟩
    rw [hx, Relation.isOwning_of_none hmb]
    simp
  | some owner =>
    obtain ⟨htm, hp⟩ := hg.target_path hm hr ht
    obtain ⟨c, hc, rfl, hct, hpairs⟩ := hg.owners m hm r hr owner hmb target htm hp
    have hmodel : s.registry.get? c.target = some m := hct ▸ get?_path hm
    obtain ⟨hplain, hold⟩ := hold c hc hmb hmodel
    obtain ⟨id, record, after, hcoerced, hts', hfound, hleft, hx⟩ := exists_left_of_inverse hg hhooks hts
      hpath hr ht honly hv hc hplain hmb hmodel hpairs hold h hrun
    refine ⟨id, record, after, hcoerced, hts', hfound, hleft, fun x hform => ?_⟩
    rw [hx x hform, Relation.isOwning_of_some hmb]
    simp

end Effect

/-- Of what was listed before nothing but what the relation is bound to is left, if it is all bound, or
nothing is left of it at all. -/
theorem left_eq_bound_iff {before bound after : List Json}
    (h : ∀ x, x ∈ after ↔ x ∈ bound ∨ r.isOwning = false ∧ x ∈ before ∧
      (r.isCollection = true ∨ bound = [])) :
    (∀ x, x ∈ after ↔ x ∈ bound) ↔
      r.isOwning = true ∨ before ⊆ bound ∨ r.isCollection = false ∧ bound ≠ [] := by
  simp only [h]
  constructor
  · intro hall
    by_cases howning : r.isOwning = true
    · exact .inl howning
    · by_cases hkept : r.isCollection = true ∨ bound = []
      · exact .inr (.inl fun x hb => (hall x).mp (.inr ⟨Bool.not_eq_true _ ▸ howning, hb, hkept⟩))
      · obtain ⟨hsingle, hsome⟩ := not_or.mp hkept
        exact .inr (.inr ⟨Bool.not_eq_true _ ▸ hsingle, hsome⟩)
  · refine fun hcases x => ⟨?_, .inl⟩
    rintro (hmem | ⟨hinverse, hb, hkept⟩)
    · exact hmem
    · rcases hcases with howning | hsub | ⟨hsingle, hsome⟩
      · exact absurd (hinverse.symm.trans howning) Bool.false_ne_true
      · exact hsub hb
      · rcases hkept with hmany | hnone
        · exact absurd (hsingle.symm.trans hmany) Bool.false_ne_true
        · exact absurd hnone hsome

/-- An update that gives one relation has full effect just if the relation is stored with the entity,
or all that was related before is related still, or a single entity takes the place of another. -/
theorem update_takes_full_effect_iff {definitions : List ModelDefinition}
    (hresolved : ofDefinitions definitions = .ok s.registry) (hhooks : s.hooks = .none)
    (huuids : s.GivesUuids) (hw : ∀ w ∈ writes, w.IsLoose) (hpath : s.registry.get? path = some m)
    (hr : r ∈ m.relations) (ht : s.registry.get? r.target = some target)
    (hplain : r.PlainOwner target) (honly : ∀ q ∈ m.relations, q.NamedIn members → q = r)
    (hok : ((s.after writes).run (s.update path raw (.fields members))).1.isOk = true)
    (hv : s.registry.bound? (s.after writes).tables target r
      (.obj (OrderedMap.erase members m.identity)) = some v) :
    let store := s.after writes
    let updated := s.after (writes ++ [.update path raw (.fields members)])
    (s.registry.PlainReferences → ∃ before after,
      (store.run (s.getRelated path raw r.name)).1 = .ok before ∧
        (updated.run (s.getRelated path raw r.name)).1 = .ok after) ∧
    ∀ before after, (store.run (s.getRelated path raw r.name)).1 = .ok before →
      (updated.run (s.getRelated path raw r.name)).1 = .ok after →
        ((∀ x, x ∈ target.identitiesOf after ↔ x ∈ target.identitiesOf v) ↔
          r.isOwning = true ∨ target.identitiesOf before ⊆ target.identitiesOf v ∨
            r.isCollection = false ∧ target.identitiesOf v ≠ []) := by
  intro store updated
  have hg := coherent_of_ofDefinitions hresolved
  have hts := allFit_after hg hhooks huuids writes
  have htm := (mem_of_get? ht).1
  have hupdated : updated = (store.run (s.update path raw (.fields members))).2 := after_append s writes _
  obtain ⟨u, a, hplan, hrun⟩ := Store.exists_of_isOk_run hok
  obtain ⟨id, record, changed, hid, hts', hfound, hleft, hx⟩ := exists_left hg hhooks hts hpath hr ht honly
    hv (fun c hc hmb hct => ⟨hplain c hc hmb,
      consistentAt_after hg hhooks huuids htm hc (hplain c hc hmb) hct hw⟩) hplan hrun
  refine ⟨fun hnames => ?_, fun before after hbefore hafter => ?_⟩
  · have hs : s.IsPlain := ⟨⟨definitions, hresolved⟩, hnames, hhooks, huuids⟩
    have hout := outage_after s writes
    obtain ⟨u₁, before, hu₁, hrun₁, -⟩ := exists_getRelated hs hts hpath hr ht hid hfound
    obtain ⟨u₂, after, hu₂, hrun₂, -⟩ := exists_getRelated hs hts' hpath hr ht hid hleft
    refine ⟨before, after, congrArg Prod.fst (Store.run_of_ok hout hu₁ hrun₁), hupdated ▸ ?_⟩
    exact congrArg Prod.fst (Store.run_of_ok ((Store.outage_run _ _).trans hout) hu₂ hrun₂)
  · obtain ⟨u₁, ts₁, hu₁, hrun₁, -⟩ := Store.exists_of_run_eq_ok hbefore
    obtain ⟨u₂, ts₂, hu₂, hrun₂, -⟩ := Store.exists_of_run_eq_ok (hupdated ▸ hafter)
    have hold := shows_of_relatedLookup hg hts hpath hr ht hplain hid hfound hu₁ hrun₁
    have hnew := shows_of_relatedLookup hg hts' hpath hr ht hplain hid hleft hu₂ hrun₂
    have hfits := (found_of_bound? hg hts htm hv).fits
    have hmem (x : Json) : x ∈ target.identitiesOf after ↔ x ∈ target.identitiesOf v ∨
        r.isOwning = false ∧ x ∈ target.identitiesOf before ∧
          (r.isCollection = true ∨ target.identitiesOf v = []) := by
      by_cases hform : target.IsIdentity x
      · rw [hnew.2, hold.2, hx x hform]
      · have hnone {w : Json} (hw : target.FitsValue r.isCollection w) : x ∉ target.identitiesOf w :=
          fun hmem => hform (hw.isIdentity hmem)
        simp [hnone hnew.1, hnone hold.1, hnone hfits]
    exact left_eq_bound_iff hmem

theorem pet_given_takes_full_effect_iff :
    ∃ before after,
      ((Household.service.after Household.writes).run
        (Household.service.getRelated "people" (.ofNat 2) "pets")).1 = .ok before ∧
      ((Household.service.after (Household.writes ++
        [.update "people" (.ofNat 2) (.fields [("petsIds", .arr [.ofNat 1])])])).run
          (Household.service.getRelated "people" (.ofNat 2) "pets")).1 = .ok after ∧
      ((∀ x, x ∈ Household.pet.identitiesOf after ↔ x ∈ [Json.ofNat 1]) ↔
        Household.pets.isOwning = true ∨ Household.pet.identitiesOf before ⊆ [Json.ofNat 1] ∨
          Household.pets.isCollection = false ∧ [Json.ofNat 1] ≠ []) := by
  have hplain := Household.isPlain.names
  obtain ⟨hread, hiff⟩ := update_takes_full_effect_iff (m := Household.person) (r := Household.pets)
    (v := .arr [.ofPairs [("id", .ofNat 1), ("owner", .ofPairs [("id", .ofNat 1)])]])
    (show ofDefinitions Household.definitions = .ok Household.service.registry by rfl) rfl
    Household.isPlain.fresh Household.writes_isLoose
    (show Household.service.registry.get? "people" = some Household.person from rfl) (.tail _ (.head _))
    (show Household.service.registry.get? "pets" = some Household.pet from rfl)
    (hplain.plainOwner (.tail _ (.tail _ (.head _))) Household.pets) (by
      simp [Household.person, Relation.NamedIn, Household.passport, Household.pets,
        Relation.identityKey, Relation.isCollection, Relation.idKey, Relation.idsKey,
        RelationKind.isCollection])
    (show ((Household.service.after Household.writes).run (Household.service.update "people" (.ofNat 2)
      (.fields [("petsIds", .arr [.ofNat 1])]))).1.isOk = true by rfl) (by rfl)
  obtain ⟨before, after, hbefore, hafter⟩ := hread hplain
  exact ⟨before, after, hbefore, hafter, hiff before after hbefore hafter⟩

/-- From the inverse side a relation cannot be cleared. -/
theorem clearing_pets_has_no_effect :
    ∃ v, ((Household.service.after Household.writes).run (Household.service.update "people"
        (.ofNat 1) (.fields [("petsIds", .arr [])]))).1.isOk = true ∧
      Household.service.registry.bound? (Household.service.after Household.writes).tables
        Household.pet Household.pets (.obj [("petsIds", .arr [])]) = some (.arr []) ∧
      ((Household.service.after (Household.writes ++
        [.update "people" (.ofNat 1) (.fields [("petsIds", .arr [])])])).run
          (Household.service.getRelated "people" (.ofNat 1) "pets")).1 = .ok v ∧
      Household.pet.identitiesOf v = [.ofNat 1] :=
  ⟨_, by rfl, by rfl, by rfl, by rfl⟩

end Service

end EntityGraph
