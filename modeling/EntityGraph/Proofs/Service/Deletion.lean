import EntityGraph.Proofs.Service.Effects
import EntityGraph.Proofs.Service.Sequences

namespace EntityGraph

/-- A record of a model before and after the references to an identity of another model, perhaps the same
one, have been taken from it. -/
structure Model.Released (n m : Model) (id before after : Json) : Prop where
  /-- All members but the slots of relations to the other model stay as they are. -/
  others : ∀ name, (∀ r ∈ n.owning, r.target = m.path → r.name ≠ name) →
    after.get? name = before.get? name
  slots : ∀ r ∈ n.owning, r.target = m.path →
    after.get? r.name = (before.get? r.name).map (·.without id)
  references : ∀ r ∈ n.owning, r.target = m.path → ∀ x,
    x ∈ (after.get r.name).references ↔ x ∈ (before.get r.name).references ∧ x ≠ id
  unaffected : (∀ r ∈ n.owning, r.target = m.path → id ∉ (before.get r.name).references) →
    after = before

/-- Tables before and after a record has been deleted. -/
structure Registry.Deleted (g : Registry) (m : Model) (id : Json) (ts ts' : Tables) : Prop where
  gone : id ∉ ts'.identities m
  rows : ∀ path key, (ts'.row? path key).isSome = true ↔
    (ts.row? path key).isSome = true ∧ ¬(path = m.path ∧ RecordKey.of? id = some key)
  kept : ∀ n ∈ g.models, ∀ key before after, ts.row? n.path key = some before →
    ts'.row? n.path key = some after → n.Released m id before after
  sequences : ∀ path, (ts'.table path).sequence = (ts.table path).sequence

namespace Service

open Registry

variable {s : Service} {ts ts' next : Tables} {m n : Model} {key : RecordKey}
  {raw id record : Json} {path : String} {calls : List (Service × Write)}

theorem released_applyAll (hg : s.registry.Coherent) (hm : m ∈ s.registry.models)
    (hid : m.IsIdentity id) (hn : n ∈ s.registry.models) (h : s.registry.Fits n key record) :
    n.Released m id record (Cut.applyAll (s.referencesTo m id) n.path key record) := by
  have hproper : ∀ c ∈ s.referencesTo m id, ∃ target, c.IsProper s.registry target :=
    fun c hc => ⟨m, isProper_of_mem_referencesTo hm hid hc⟩
  have hcut {r} (hr : r ∈ n.owning) (ht : r.target = m.path) :
      (⟨n, r, id, fun _ => false⟩ : Cut) ∈ s.referencesTo m id :=
    mem_referencesTo_iff.mpr ⟨n, hn, r, hr, ht, rfl⟩
  have hof {c : Cut} (hc : c ∈ s.referencesTo m id) (hholder : c.holder = n) :
      c.relation ∈ n.owning ∧ c.relation.target = m.path ∧ c.id = id := by
    obtain ⟨other, -, r, hr, ht, rfl⟩ := mem_referencesTo_iff.mp hc
    exact ⟨hholder ▸ hr, ht, rfl⟩
  refine ⟨fun name hname => ?_, fun r hr ht => ?_, fun r hr ht x => ?_, fun hfree => ?_⟩
  · refine Cut.get?_applyAll_of_not_mem hg hproper hn h fun c hc hholder hcn _ => ?_
    obtain ⟨hr, ht, -⟩ := hof hc hholder
    exact absurd hcn (hname c.relation hr ht)
  · refine Cut.get?_applyAll_of_mem hg hproper hn h (fun c hc _ _ => ?_)
      ⟨_, hcut hr ht, rfl, rfl, rfl⟩
    obtain ⟨-, -, r', -, -, rfl⟩ := mem_referencesTo_iff.mp hc
    rfl
  · rw [Cut.mem_references_applyAll hg hproper hn h hr]
    refine and_congr_right fun _ => ⟨?_, fun hne c hc hremoves => ?_⟩
    · rintro hnone rfl
      exact hnone _ (hcut hr ht) ⟨rfl, rfl, rfl, rfl⟩
    · exact hne (hremoves.2.2.1.symm.trans (hof hc hremoves.1).2.2)
  · refine Cut.applyAll_of_not_mem hproper hn h fun c hc hholder _ => ?_
    obtain ⟨hr, ht, hcid⟩ := hof hc hholder
    exact hcid ▸ hfree c.relation hr ht

theorem deleted_of_rewrites (hg : s.registry.Coherent) (hts : s.registry.AllFit ts)
    (hm : m ∈ s.registry.models) (hid : m.IsIdentity id) (hk : RecordKey.of? id = some key)
    (h : ts.Rewrites next (Cut.applyAll (s.referencesTo m id)))
    (hsequences : ∀ path, (next.table path).sequence = (ts.table path).sequence) :
    s.registry.Deleted m id ts (next.erase m.path key) := by
  have hrows : ∀ path k, (next.erase m.path key).row? path k =
      if path = m.path ∧ k = key then none else next.row? path k :=
    fun path k => Tables.row?_erase next m.path key path k
  have hfits := hts.rewrites h fun _ hn _ _ hf =>
    Cut.fits_applyAll hg (fun c hc => ⟨m, isProper_of_mem_referencesTo hm hid hc⟩) hn hf
  refine ⟨fun hmem => ?_, fun path k => ?_, fun n hn k before after hb ha => ?_,
    fun path => ?_⟩
  · obtain ⟨record, hrecord, hx⟩ := List.mem_filterMap.mp hmem
    obtain ⟨k, hrow⟩ := Tables.mem_records_iff.mp hrecord
    rw [hrows] at hrow
    split at hrow
    · cases hrow
    · next hne =>
      have hkey := (hfits m hm k record hrow).key?_eq
      rw [Model.key?, hx, Option.bind_some, hk, Option.some.injEq] at hkey
      exact hne ⟨rfl, hkey.symm⟩
  · rw [hrows, hk, Option.some.injEq, eq_comm (a := key)]
    split
    · next he => simp [he]
    · next he => rw [h.isSome_row?, and_iff_left he]
  · rw [hrows] at ha
    split at ha
    · cases ha
    · rw [h, hb, Option.map_some, Option.some.injEq] at ha
      exact ha ▸ released_applyAll hg hm hid hn (hts n hn k before hb)
  · rw [← hsequences path]
    by_cases hp : m.path = path
    · subst hp
      rw [Tables.erase, Tables.table_set_self]
      rfl
    · rw [Tables.erase, Tables.table_set_of_ne _ hp]

/-- The deletion of a stored record. -/
theorem exists_deleted (hs : s.IsPlain) (hts : s.registry.AllFit ts) (hcounted : ts.Counted)
    (hpath : s.registry.get? path = some m) (hcoerce : m.coerceIdentity raw = .ok id)
    (hst : ts.Stored m.path id) :
    ∃ u ts', s.deletion path raw = .ok u ∧ u.run ts = (.ok (), ts') ∧
      s.registry.Deleted m id ts ts' := by
  have hg := hs.coherent
  have hm := (mem_of_get? hpath).1
  have hform := (Model.isIdentity_of_coerceIdentity (hg.identityTypes m hm) hcoerce).1
  obtain ⟨u, key, next, hplan, hk, hdetach, hnext, hrun⟩ := run_delete hs hts hpath hcoerce hst
  -- references are taken away by records that are put where records are
  have hputs : ts.Puts next := detachAll_maintains (fun _ path key record h => h.put path key record)
    (s.ownersOf m) id ts .refl () next hdetach
  have hsequences := hputs.sequence_eq hcounted fun path k hrow => hnext.isSome_row? path k ▸ hrow
  exact ⟨u, _, hplan, hrun, deleted_of_rewrites hg hts hm hform hk hnext hsequences⟩

/-- A deletion succeeds just if it names a stored record. Then this record is gone, each of the others has
lost the references to it and nothing else, and no numbers are counted or forgotten. -/
theorem deletion_only_releases_references (hs : s.IsPlain)
    (hcalls : ∀ c ∈ calls, c.1.registry = s.registry ∧ c.1.IsPlain ∧ c.2.IsLoose)
    (hpath : s.registry.get? path = some m) :
    (((afterCalls calls).run (s.delete path raw)).1.isOk = true ↔
      ∃ id, m.coerceIdentity raw = .ok id ∧ id ∈ (afterCalls calls).tables.identities m) ∧
    ∀ id, m.coerceIdentity raw = .ok id →
      ((afterCalls calls).run (s.delete path raw)).1.isOk = true →
        s.registry.Deleted m id (afterCalls calls).tables
          ((afterCalls calls).run (s.delete path raw)).2.tables := by
  have hts := (consistent_afterCalls hcalls).fits
  have hm := (mem_of_get? hpath).1
  have hstored {id} (hcoerce : m.coerceIdentity raw = .ok id) :
      id ∈ (afterCalls calls).tables.identities m ↔ (afterCalls calls).tables.Stored m.path id :=
    hts.mem_identities_iff hm
      (Model.isIdentity_of_coerceIdentity (hs.coherent.identityTypes m hm) hcoerce).1
  have hnamed (hok : ((afterCalls calls).run (s.delete path raw)).1.isOk = true) :
      ∃ id, m.coerceIdentity raw = .ok id ∧ (afterCalls calls).tables.Stored m.path id := by
    obtain ⟨u, ⟨⟩, hplan, hrun⟩ := Store.exists_of_isOk_run hok
    obtain ⟨m', id, hmodel, hcoerce, hst⟩ := stored_of_run_delete hplan hrun
    obtain rfl := Option.some.inj (hpath.symm.trans hmodel)
    exact ⟨id, hcoerce, hst⟩
  have hrun {id} (hcoerce : m.coerceIdentity raw = .ok id)
      (hst : (afterCalls calls).tables.Stored m.path id) :
      ∃ ts', (afterCalls calls).run (s.delete path raw) = (.ok (), ⟨ts', none⟩) ∧
        s.registry.Deleted m id (afterCalls calls).tables ts' := by
    obtain ⟨u, ts', hplan, hrun, hdeleted⟩ :=
      exists_deleted hs hts (counted_afterCalls calls) hpath hcoerce hst
    exact ⟨ts', Store.run_of_ok (outage_afterCalls calls) hplan hrun, hdeleted⟩
  refine ⟨⟨fun hok => ?_, fun ⟨id, hcoerce, hmem⟩ => ?_⟩, fun id hcoerce hok => ?_⟩
  · obtain ⟨id, hcoerce, hst⟩ := hnamed hok
    exact ⟨id, hcoerce, (hstored hcoerce).mpr hst⟩
  · obtain ⟨ts', hdone, -⟩ := hrun hcoerce ((hstored hcoerce).mp hmem)
    rw [hdone]
    rfl
  · obtain ⟨id', hcoerce', hst⟩ := hnamed hok
    obtain rfl := Except.ok.inj (hcoerce'.symm.trans hcoerce)
    obtain ⟨ts', hdone, hdeleted⟩ := hrun hcoerce hst
    rw [hdone]
    exact hdeleted

/-- A person whose pet is left without an owner. -/
theorem pet_outlives_its_owner :
    ((afterCalls Household.calls).run (Household.service.delete "people" (.str "1"))).1.isOk = true ∧
      Household.service.registry.Deleted Household.person (.ofNat 1) (afterCalls Household.calls).tables
        ((afterCalls Household.calls).run (Household.service.delete "people" (.str "1"))).2.tables :=
  have hpath : Household.service.registry.get? "people" = some Household.person := by rfl
  have hok : ((afterCalls Household.calls).run
      (Household.service.delete "people" (.str "1"))).1.isOk = true :=
    (deletion_only_releases_references Household.isPlain Household.calls_plain hpath).1.mpr
      ⟨.ofNat 1, by rfl, List.mem_of_getElem? (i := 0) (by rfl)⟩
  ⟨hok, (deletion_only_releases_references Household.isPlain Household.calls_plain hpath).2
    (.ofNat 1) (by rfl) hok⟩

end Service

end EntityGraph
