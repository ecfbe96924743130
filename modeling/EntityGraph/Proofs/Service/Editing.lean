import EntityGraph.Proofs.Service.Preservation
import EntityGraph.Proofs.Service.Symmetry
import EntityGraph.Proofs.Service.Visibility

namespace EntityGraph

open Registry

theorem Registry.Consistent.refers_of_holds {g : Registry} {ts : Tables} {m target : Model}
    {r : Relation} {key : RecordKey} {l : Assignment} {x : Json} (hts : g.Consistent ts)
    (hl : l.release.IsProper g target) (hheld : l.Holds ts) (hm : m ∈ g.models) (hr : r ∈ m.owning) :
    ts.Refers m key r x ↔ l.Adds m key r x ∨ ts.Refers m key r x ∧ ¬l.Displaces m key r x := by
  constructor
  · intro h
    by_cases hd : l.Displaces m key r x
    · apply Or.inl
      obtain ⟨rfl, rfl, ⟨rfl, hsingle⟩ | ⟨hne, hkind, rfl⟩⟩ := hd
      · obtain ⟨record, hrow, hx⟩ := h
        have hslot := (hts.fits _ hm _ record hrow).slots _ hr target hl.get?_target
        rw [hsingle] at hslot
        exact ⟨rfl, rfl, rfl, hslot.eq_of_mem hx ((Tables.refers_iff hrow).mp hheld)⟩
      · exact absurd (hts.single _ hm _ hr hkind key l.key _ h hheld) hne
    · exact .inr ⟨h, hd⟩
  · rintro (⟨rfl, rfl, rfl, rfl⟩ | h)
    · exact hheld
    · exact h.1

namespace Service

variable {s : Service} {store : Store} {ts ts' : Tables} {m target referred : Model} {r : Relation}
  {k l : Assignment} {raw related id b x record root other : Json} {path : String} {ids : List Json}
  {calls : List (Service × Write)}

namespace Edited

variable {n : Model} {q : Relation} {key : RecordKey}
  (h : s.Edited ts m target r id b l referred) (hg : s.registry.Coherent)

include h hg

theorem refers_after_link (hts : s.registry.Consistent ts)
    (hts' : l.Holds ts ∧ ts' = ts ∨ ts.Rewrites ts' l.apply) (hn : n ∈ s.registry.models)
    (hq : q ∈ n.owning) :
    ts'.Refers n key q x ↔ l.Adds n key q x ∨ ts.Refers n key q x ∧ ¬l.Displaces n key q x := by
  rcases hts' with ⟨hheld, rfl⟩ | hts'
  · exact hts.refers_of_holds h.proper hheld hn hq
  · exact hts.fits.refers_of_assignment hg h.proper h.isSome hts' hn hq

theorem refers_after_unlink (hts : s.registry.AllFit ts) (hts' : ts.Rewrites ts' l.remove.apply)
    (hn : n ∈ s.registry.models) (hq : q ∈ n.owning) :
    ts'.Refers n key q x ↔ ts.Refers n key q x ∧ ¬l.remove.Removes n key q x := by
  rw [hts.refers_of_cuts hg h.isProper_remove (show ts.Rewrites ts' (Cut.applyAll [l.remove]) from hts')
    hn hq]
  simp

end Edited

section Stores

variable (hg : s.registry.Coherent) (hm : m ∈ s.registry.models) (hr : r ∈ m.relations)
  (ht : s.registry.get? r.target = some target)

include hg hm hr ht

theorem exists_stores (hid : m.IsIdentity id) (hx : target.IsIdentity x) :
    ∃ l, Stores m target r id x l := by
  cases hmb : r.mappedBy with
  | none =>
    obtain ⟨key, hk⟩ := hid.exists_key
    exact ⟨_, .owning hmb hk⟩
  | some owner =>
    obtain ⟨htm, hp⟩ := hg.target_path hm hr ht
    obtain ⟨c, hc, rfl, -, -⟩ := hg.owners m hm r hr owner hmb target htm hp
    obtain ⟨key, hk⟩ := hx.exists_key
    exact ⟨_, .inverse hmb hc hk⟩

namespace Stores

/-- A relation leads to another entity just if the reference is there. -/
theorem mem_leadsTo_iff (hts : s.registry.Consistent ts) (hid : m.IsIdentity id)
    (hx : target.IsIdentity x) (hfind : ts.find? m.path id = some record)
    (h : Stores m target r id x l) : x ∈ leadsTo ts target r id record ↔ l.Holds ts := by
  cases h with
  | owning hmb hk =>
    rw [leadsTo_of_owning (Model.mem_owning_iff.mpr ⟨hr, hmb⟩)]
    exact (Tables.refers_iff ((Tables.find?_eq_row? hk ts m.path).symm.trans hfind)).symm
  | inverse hmb hc hk =>
    obtain ⟨htm, hp⟩ := hg.target_path hm hr ht
    obtain ⟨c, hc', hname, hback, hpairs⟩ := hg.owners m hm r hr _ hmb target htm hp
    obtain rfl := hg.eq_of_name htm (List.mem_filter.mp hc').1 (List.mem_filter.mp hc).1 hname
    have hmodel := hback ▸ get?_path hm
    exact hts.fits.mem_leadsTo_of_inverse htm hc hmodel hid (hts.consistentAt htm hc hmodel) hmb hpairs hx hk
      record

omit hg in
theorem mem_owning (h : Stores m target r id x l) :
    l.holder ∈ s.registry.models ∧ l.relation ∈ l.holder.owning := by
  cases h with
  | owning hmb _ => exact ⟨hm, Model.mem_owning_iff.mpr ⟨hr, hmb⟩⟩
  | inverse _ hc _ => exact ⟨(mem_of_get? ht).1, hc⟩

theorem side_by_side (hb : target.IsIdentity b) (hx : target.IsIdentity x)
    (hl : Stores m target r id b l) (hk : Stores m target r id x k) :
    (l.holder = k.holder ∧ l.relation = k.relation) ∧
      (k.key = l.key ∧ (k.id = l.id ↔ x = b) ∧ k.relation = r ∨
        k.id = l.id ∧ (k.key = l.key ↔ x = b) ∧
          (k.relation.kind = .oneToOne ↔ r.isCollection = false)) := by
  cases hl with
  | owning hmb hl =>
    cases hk with
    | owning _ hk => exact ⟨⟨rfl, rfl⟩, .inl ⟨Option.some.inj (hk.symm.trans hl), Iff.rfl, rfl⟩⟩
    | inverse hmb' _ _ => cases hmb.symm.trans hmb'
  | inverse hmb hc hl =>
    cases hk with
    | owning hmb' _ => cases hmb.symm.trans hmb'
    | inverse hmb' hc' hk =>
      obtain ⟨htm, hp⟩ := hg.target_path hm hr ht
      obtain ⟨c, hco, hname, -, hpairs⟩ := hg.owners m hm r hr _ hmb target htm hp
      have hsame {d : Relation} (hd : d ∈ target.owning) (hmd : r.mappedBy = some d.name) : c = d :=
        hg.eq_of_name htm (List.mem_filter.mp hco).1 (List.mem_filter.mp hd).1
          (hname.trans (Option.some.inj (hmb.symm.trans hmd)))
      obtain rfl := hsame hc hmb
      obtain rfl := hsame hc' hmb'
      refine ⟨⟨rfl, rfl⟩, .inr ⟨rfl, ⟨fun h => ?_, ?_⟩, kind_eq_oneToOne_iff hpairs⟩⟩
      · exact hx.eq_of_key hb (hk.trans ((congrArg some h).trans hl.symm))
      · rintro rfl
        exact Option.some.inj (hk.symm.trans hl)

variable (hb : target.IsIdentity b) (hx : target.IsIdentity x) (hl : Stores m target r id b l)
  (hk : Stores m target r id x k)

include hb hx hl hk

theorem adds_iff : l.Adds k.holder k.key k.relation k.id ↔ x = b := by
  obtain ⟨⟨hh, hrel⟩, ⟨hkey, hid, -⟩ | ⟨hid, hkey, -⟩⟩ := side_by_side hg hm hr ht hb hx hl hk
  · simp [Assignment.Adds, hh, hrel, hkey, hid]
  · simp [Assignment.Adds, hh, hrel, hkey, hid]

theorem removes_iff : l.remove.Removes k.holder k.key k.relation k.id ↔ x = b := by
  obtain ⟨⟨hh, hrel⟩, ⟨hkey, hid, -⟩ | ⟨hid, hkey, -⟩⟩ := side_by_side hg hm hr ht hb hx hl hk
  · simp [Assignment.remove, Cut.Removes, hh, hrel, hkey, eq_comm (a := l.id), hid]
  · simp [Assignment.remove, Cut.Removes, hh, hrel, hkey, hid]

theorem displaces_iff (hne : x ≠ b) :
    l.Displaces k.holder k.key k.relation k.id ↔ r.isCollection = false := by
  obtain ⟨⟨hh, hrel⟩, ⟨hkey, hid, rfl⟩ | ⟨hid, hkey, hkind⟩⟩ := side_by_side hg hm hr ht hb hx hl hk
  · simp [Assignment.Displaces, hh, hrel, hkey]
  · simp [Assignment.Displaces, hh, hrel, hkey, hid, hne, hkind]

end Stores

end Stores

section Edit

variable (hs : s.IsPlain) (hts : s.registry.Consistent ts) (hm : m ∈ s.registry.models)
  (hr : r ∈ m.relations) (ht : s.registry.get? r.target = some target) (hid : m.IsIdentity id)
  (hb : target.IsIdentity b) (hroot : ts.find? m.path id = some root)
  (hother : ts.find? target.path b = some other)

include hs hts hm hr ht hid hb hroot hother

/-- Linking does not fail. Afterwards the relation leads to the entity, and to those from before if there
is room for them. -/
theorem run_link : ∃ a ts', (s.editBetween true m r target id b).run ts = (.ok a, ts') ∧
    s.registry.Consistent ts' ∧ ts'.Stored m.path id ∧
      ∀ changed, ts'.find? m.path id = some changed → ∀ x, target.IsIdentity x →
        (x ∈ leadsTo ts' target r id changed ↔
          x = b ∨ r.isCollection = true ∧ x ∈ leadsTo ts target r id root) := by
  have hg := hs.coherent
  obtain ⟨l, referred, ts', hedited, hlink, -, hdone, -⟩ :=
    run_editBetween true hs hts.fits hm hr ht hid hb hroot hother
  obtain ⟨a, hrun⟩ := hdone (.inl rfl)
  have hts' := hedited.consistent_link hg hts (hlink rfl)
  have hst : ts'.Stored m.path id := by
    rcases hlink rfl with ⟨-, rfl⟩ | h
    · exact Tables.stored_of_find? hroot
    · exact (h.stored_iff m.path id).mpr (Tables.stored_of_find? hroot)
  refine ⟨a, ts', hrun, hts', hst, fun changed hchanged x hx => ?_⟩
  obtain ⟨k, hk⟩ := exists_stores hg hm hr ht hid hx
  obtain ⟨hkm, hko⟩ := hk.mem_owning hm hr ht
  rw [hk.mem_leadsTo_iff hg hm hr ht hts' hid hx hchanged,
    hk.mem_leadsTo_iff hg hm hr ht hts hid hx hroot, Assignment.Holds,
    hedited.refers_after_link hg hts (hlink rfl) hkm hko,
    Stores.adds_iff hg hm hr ht hb hx hedited.stores hk]
  by_cases hne : x = b
  · simp [hne]
  · simp [hne, Stores.displaces_iff hg hm hr ht hb hx hedited.stores hk hne, Assignment.Holds, and_comm]

/-- Unlinking fails just if the relation does not lead to the entity. Afterwards it leads to the others. -/
theorem run_unlink : ∃ ts',
    (b ∈ leadsTo ts target r id root →
      ∃ a, (s.editBetween false m r target id b).run ts = (.ok a, ts')) ∧
    (b ∉ leadsTo ts target r id root → (s.editBetween false m r target id b).run ts =
      (.error (.entityNotFound target.path b), ts')) ∧
    s.registry.Consistent ts' ∧ ts'.Stored m.path id ∧
      ∀ changed, ts'.find? m.path id = some changed → ∀ x, target.IsIdentity x →
        (x ∈ leadsTo ts' target r id changed ↔ x ∈ leadsTo ts target r id root ∧ x ≠ b) := by
  have hg := hs.coherent
  obtain ⟨l, referred, ts', hedited, -, hunlink, hdone, hrefused⟩ :=
    run_editBetween false hs hts.fits hm hr ht hid hb hroot hother
  have hcut := hunlink rfl
  have hts' := hedited.consistent_unlink hg hts hcut
  have hheld := hedited.stores.mem_leadsTo_iff hg hm hr ht hts hid hb hroot
  refine ⟨ts', fun h => hdone (.inr (hheld.mp h)), fun h => hrefused rfl (mt hheld.mpr h), hts',
    (hcut.stored_iff m.path id).mpr (Tables.stored_of_find? hroot), fun changed hchanged x hx => ?_⟩
  obtain ⟨k, hk⟩ := exists_stores hg hm hr ht hid hx
  obtain ⟨hkm, hko⟩ := hk.mem_owning hm hr ht
  rw [hk.mem_leadsTo_iff hg hm hr ht hts' hid hx hchanged,
    hk.mem_leadsTo_iff hg hm hr ht hts hid hx hroot, Assignment.Holds,
    hedited.refers_after_unlink hg hts.fits hcut hkm hko,
    Stores.removes_iff hg hm hr ht hb hx hedited.stores hk]
  rfl

end Edit

/-- A relation of an entity that is read shows the entities of these identities, a single one or none where
it is no collection. -/
def Lists (s : Service) (store : Store) (path : String) (raw : Json) (r : Relation) (target : Model)
    (ids : List Json) : Prop :=
  ∃ v, (store.run (s.getRelated path raw r.name)).1 = .ok v ∧ Shows target r.isCollection ids v

theorem Lists.isIdentity (h : s.Lists store path raw r target ids) (hx : x ∈ ids) :
    target.IsIdentity x := by
  obtain ⟨v, -, hfits, rfl⟩ := h
  exact hfits.isIdentity hx

theorem lists_leadsTo (hs : s.IsPlain) (hts : s.registry.AllFit ts)
    (hpath : s.registry.get? path = some m) (hr : r ∈ m.relations)
    (ht : s.registry.get? r.target = some target) (hid : m.coerceIdentity raw = .ok id)
    (hfind : ts.find? m.path id = some record) :
    s.Lists ⟨ts, none⟩ path raw r target (leadsTo ts target r id record) := by
  obtain ⟨u, v, hplan, hrun, hshows⟩ := exists_getRelated hs hts hpath hr ht hid hfind
  exact ⟨v, congrArg Prod.fst (Store.run_of_ok rfl hplan hrun), hshows⟩

namespace Requested

variable (hs : s.IsPlain) (h : s.Requested path raw r.name related m r target id b)

include hs h

theorem exists_lists {P : Json → Prop} (hts : s.registry.Consistent ts) (hst : ts.Stored m.path id)
    (hP : ∀ x, P x → target.IsIdentity x)
    (hleads : ∀ record, ts.find? m.path id = some record → ∀ x, target.IsIdentity x →
      (x ∈ leadsTo ts target r id record ↔ P x)) :
    ∃ ids, s.Lists ⟨ts, none⟩ path raw r target ids ∧ ∀ x, x ∈ ids ↔ P x := by
  obtain ⟨record, hfind⟩ := Option.isSome_iff_exists.mp hst
  have hlists := lists_leadsTo hs hts.fits h.model h.mem_relations h.target_eq h.coerced hfind
  refine ⟨_, hlists, fun x => ⟨fun hx => ?_, fun hx => ?_⟩⟩
  · exact (hleads record hfind x (hlists.isIdentity hx)).mp hx
  · exact (hleads record hfind x (hP x hx)).mpr hx

omit hs in
theorem relatedEdit_eq_ok (link : Bool) :
    s.relatedEdit link path raw r.name related = .ok (s.editBetween link m r target id b) :=
  relatedEdit_eq_ok_iff.mpr ⟨m, r, target, id, b, h, rfl⟩

variable (hts : s.registry.Consistent ts) (hroot : ts.find? m.path id = some root)
  (hother : ts.find? target.path b = some other)

include hts hroot hother

theorem lists_after_link :
    let added := (⟨ts, none⟩ : Store).run (s.addRelated path raw r.name related)
    added.1.isOk = true ∧ ∃ more, s.Lists added.2 path raw r target more ∧ ∀ x, x ∈ more ↔
      x = b ∨ r.isCollection = true ∧ x ∈ leadsTo ts target r id root := by
  have hg := hs.coherent
  have hlisted := lists_leadsTo hs hts.fits h.model h.mem_relations h.target_eq h.coerced hroot
  obtain ⟨a, ts', hrun, hts', hst, hleads⟩ := run_link hs hts h.mem_models h.mem_relations h.target_eq
    (h.isIdentity hg) (h.isIdentity_related hg) hroot hother
  have hstore : (⟨ts, none⟩ : Store).run (s.addRelated path raw r.name related) =
      (.ok a, ⟨ts', none⟩) := Store.run_of_ok rfl (h.relatedEdit_eq_ok true) hrun
  rw [hstore]
  refine ⟨rfl, h.exists_lists hs hts' hst (fun x hx => ?_) hleads⟩
  rcases hx with rfl | ⟨-, hx⟩
  · exact h.isIdentity_related hg
  · exact hlisted.isIdentity hx

theorem lists_after_unlink :
    let removed := (⟨ts, none⟩ : Store).run (s.removeRelated path raw r.name related)
    (removed.1.isOk = true ↔ b ∈ leadsTo ts target r id root) ∧
      (removed.1.isOk = true → ∃ rest, s.Lists removed.2 path raw r target rest ∧
        ∀ x, x ∈ rest ↔ x ∈ leadsTo ts target r id root ∧ x ≠ b) := by
  have hg := hs.coherent
  have hlisted := lists_leadsTo hs hts.fits h.model h.mem_relations h.target_eq h.coerced hroot
  obtain ⟨ts', hdone, hrefused, hts', hst, hleads⟩ := run_unlink hs hts h.mem_models h.mem_relations
    h.target_eq (h.isIdentity hg) (h.isIdentity_related hg) hroot hother
  by_cases hmem : b ∈ leadsTo ts target r id root
  · obtain ⟨a, hrun⟩ := hdone hmem
    have hstore : (⟨ts, none⟩ : Store).run (s.removeRelated path raw r.name related) =
        (.ok a, ⟨ts', none⟩) := Store.run_of_ok rfl (h.relatedEdit_eq_ok false) hrun
    rw [hstore]
    exact ⟨⟨fun _ => hmem, fun _ => rfl⟩, fun _ => h.exists_lists hs hts' hst
      (fun x hx => hlisted.isIdentity hx.1) hleads⟩
  · have hstore : (⟨ts, none⟩ : Store).run (s.removeRelated path raw r.name related) =
        (.error (.entityNotFound target.path b), ⟨ts, none⟩) :=
      Store.run_of_error (h.relatedEdit_eq_ok false) (hrefused hmem)
    rw [hstore]
    exact ⟨⟨(nomatch ·), (absurd · hmem)⟩, (nomatch ·)⟩

end Requested

/-- An entity can be unlinked from another one just if it is listed there. Then it is listed no longer, and
the others still are. It can always be linked; then it is listed, in a collection along with the others. -/
theorem edits_match_what_is_listed (hs : s.IsPlain)
    (hcalls : ∀ c ∈ calls, c.1.registry = s.registry ∧ c.1.IsPlain ∧ c.2.IsLoose)
    (hpath : s.registry.get? path = some m) (hr : r ∈ m.relations)
    (ht : s.registry.get? r.target = some target) (hid : m.coerceIdentity raw = .ok id)
    (hrelated : relatedIdentity target related = .ok b)
    (hroot : id ∈ (afterCalls calls).tables.identities m)
    (hother : b ∈ (afterCalls calls).tables.identities target) :
    let removed := (afterCalls calls).run (s.removeRelated path raw r.name related)
    let added := (afterCalls calls).run (s.addRelated path raw r.name related)
    ∃ listed, s.Lists (afterCalls calls) path raw r target listed ∧
      (removed.1.isOk = true ↔ b ∈ listed) ∧
      (removed.1.isOk = true → ∃ rest, s.Lists removed.2 path raw r target rest ∧
        ∀ x, x ∈ rest ↔ x ∈ listed ∧ x ≠ b) ∧
      added.1.isOk = true ∧ ∃ more, s.Lists added.2 path raw r target more ∧
        ∀ x, x ∈ more ↔ x = b ∨ r.isCollection = true ∧ x ∈ listed := by
  have hts := consistent_afterCalls hcalls
  have h : s.Requested path raw r.name related m r target id b :=
    ⟨hpath, hs.coherent.relation?_name (mem_of_get? hpath).1 hr, ht, hid, hrelated⟩
  obtain ⟨root, hfind⟩ := Option.isSome_iff_exists.mp
    ((hts.fits.mem_identities_iff h.mem_models (h.isIdentity hs.coherent)).mp hroot)
  obtain ⟨other, hfound⟩ := Option.isSome_iff_exists.mp
    ((hts.fits.mem_identities_iff (mem_of_get? ht).1 (h.isIdentity_related hs.coherent)).mp hother)
  obtain ⟨ts, hstore⟩ : ∃ ts, afterCalls calls = ⟨ts, none⟩ := ⟨_, by rw [← outage_afterCalls calls]⟩
  rw [hstore] at hts hfind hfound ⊢
  obtain ⟨hremoved, hrest⟩ := h.lists_after_unlink hs hts hfind hfound
  obtain ⟨hadded, hmore⟩ := h.lists_after_link hs hts hfind hfound
  exact ⟨_, lists_leadsTo hs hts.fits hpath hr ht hid hfind, hremoved, hrest, hadded, hmore⟩

/-- A pet is taken from its owner, or given to it once more, by numbers that are written as texts. -/
theorem pet_is_unlinked_from_its_owner :
    let removed := (afterCalls Household.calls).run
      (Household.service.removeRelated "people" (.str "1") "pets" (.str "1"))
    let added := (afterCalls Household.calls).run
      (Household.service.addRelated "people" (.str "1") "pets" (.str "1"))
    removed.1.isOk = true ∧
      ∃ listed, Household.service.Lists (afterCalls Household.calls) "people" (.str "1")
          Household.pets Household.pet listed ∧
        (removed.1.isOk = true ↔ Json.ofNat 1 ∈ listed) ∧
        (removed.1.isOk = true → ∃ rest,
          Household.service.Lists removed.2 "people" (.str "1") Household.pets Household.pet rest ∧
            ∀ x, x ∈ rest ↔ x ∈ listed ∧ x ≠ .ofNat 1) ∧
        added.1.isOk = true ∧ ∃ more,
          Household.service.Lists added.2 "people" (.str "1") Household.pets Household.pet more ∧
            ∀ x, x ∈ more ↔ x = .ofNat 1 ∨ Household.pets.isCollection = true ∧ x ∈ listed :=
  ⟨by decide +kernel, edits_match_what_is_listed (m := Household.person) (r := Household.pets)
    Household.isPlain Household.calls_plain rfl (.tail _ (.head _))
    (show Household.service.registry.get? "pets" = some Household.pet from rfl) rfl rfl
    (List.mem_of_getElem? (i := 0) rfl) (List.mem_of_getElem? (i := 0) rfl)⟩

end Service

end EntityGraph
