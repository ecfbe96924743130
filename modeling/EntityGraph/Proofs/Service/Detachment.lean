import EntityGraph.Proofs.Query.Holders
import EntityGraph.Proofs.Store.Steps
import EntityGraph.Service.Basic

namespace EntityGraph

def Model.key? (m : Model) (record : Json) : Option RecordKey :=
  (m.identityOf record).bind RecordKey.of?

namespace Tables

variable {ts ts' : Tables} {path : String} {key : RecordKey} {record : Json}

theorem Rewrites.unchanged (h : ts.row? path key = some record) :
    ts.Rewrites ts (within path fun k old => if k = key then record else old) := by
  refine (Rewrites.refl ts).congr fun other k old hold => ?_
  simp only [within]
  split
  · next hp =>
    subst hp
    split
    · next hk =>
      subst hk
      exact Option.some.inj (hold.symm.trans h)
    · rfl
  · rfl

end Tables

namespace Registry

variable {g : Registry} {ts ts' : Tables} {m target : Model} {r : Relation} {key : RecordKey}
  {record id : Json}

theorem Fits.key?_eq (h : g.Fits m key record) : m.key? record = some key := by
  obtain ⟨id, hid, -, hk, -⟩ := h.identity
  rw [Model.key?, hid, Option.bind_some, hk]

theorem AllFit.nodup_keys (hts : g.AllFit ts) (hm : m ∈ g.models) :
    ((ts.records m.path).map m.key?).Nodup := by
  have hascending := (ts.table m.path).ascending
  have hkeys : (ts.records m.path).map m.key? = (ts.table m.path).rows.map (some ∘ Prod.fst) := by
    rw [Tables.records, Table.records, List.map_map]
    refine List.map_congr_left fun p hp => ?_
    exact (hts m hm p.1 p.2 ((OrderedMap.get?_eq_some_iff hascending).mpr hp)).key?_eq
  rw [hkeys, ← List.map_map]
  exact (OrderedMap.nodup_keys hascending).map fun _ _ h => Option.some.inj h

theorem AllFit.rewrites {f : String → RecordKey → Json → Json} (hts : g.AllFit ts)
    (h : ts.Rewrites ts' f)
    (hf : ∀ m ∈ g.models, ∀ key record, g.Fits m key record → g.Fits m key (f m.path key record)) :
    g.AllFit ts' := by
  intro m hm key record hrow
  rw [h, Option.map_eq_some_iff] at hrow
  obtain ⟨old, hold, rfl⟩ := hrow
  exact hf m hm key old (hts m hm key old hold)

end Registry

namespace UnitOfWork

/-- A loop over records with different keys, of which each is rewritten in its place. -/
theorem run_forM_rewrite {m : Model} {f : Json → UnitOfWork Unit} (change : Json → Json)
    (xs : List Json) (ts : Tables)
    (hstep : ∀ x ∈ xs, ∀ key ts, m.key? x = some key → ts.row? m.path key = some x →
      ∃ ts', (f x).run ts = (.ok (), ts') ∧
        ts.Rewrites ts' (Tables.within m.path fun k old => if k = key then change x else old))
    (hrows : ∀ x ∈ xs, ∃ key, m.key? x = some key ∧ ts.row? m.path key = some x)
    (hd : (xs.map m.key?).Nodup) :
    ∃ ts', (xs.forM f).run ts = (.ok (), ts') ∧ ts.Rewrites ts'
      (Tables.within m.path fun k old => if some k ∈ xs.map m.key? then change old else old) := by
  induction xs generalizing ts with
  | nil =>
    refine ⟨ts, rfl, (Tables.Rewrites.refl ts).congr fun path k old _ => ?_⟩
    simp [Tables.within]
  | cons x rest ih =>
    obtain ⟨hx, hrest⟩ := List.nodup_cons.mp hd
    obtain ⟨key, hkey, hrow⟩ := hrows x List.mem_cons_self
    obtain ⟨ts₁, hrun₁, hts₁⟩ := hstep x List.mem_cons_self key ts hkey hrow
    have hrows₁ : ∀ y ∈ rest, ∃ key, m.key? y = some key ∧ ts₁.row? m.path key = some y := by
      intro y hy
      obtain ⟨k, hk, hyrow⟩ := hrows y (List.mem_cons_of_mem _ hy)
      have hne : k ≠ key := by
        rintro rfl
        exact hx (List.mem_map.mpr ⟨y, hy, by rw [hk, hkey]⟩)
      exact ⟨k, hk, by simp [hts₁ m.path k, hyrow, Tables.within, hne]⟩
    obtain ⟨ts', hrun, hts'⟩ :=
      ih ts₁ (fun y hy => hstep y (List.mem_cons_of_mem _ hy)) hrows₁ hrest
    refine ⟨ts', ?_, (hts₁.trans hts').congr fun path k old hold => ?_⟩
    · rw [run_forM_cons, run_bind_of_ok hrun₁, hrun]
    · unfold Tables.within
      by_cases hp : path = m.path
      · subst hp
        by_cases hk : k = key
        · subst hk
          obtain rfl : x = old := Option.some.inj (hrow.symm.trans hold)
          rw [hkey] at hx
          simp [hkey, hx]
        · have hne : some k ≠ m.key? x := by
            rw [hkey]
            exact fun h => hk (Option.some.inj h)
          simp [hk, hne]
      · simp [hp]

end UnitOfWork

namespace Service

open Registry

variable (s : Service)

/-- What is left of a record that is not spared. -/
def detached (r : Relation) (id : Json) (spared : Json → Bool) (record : Json) : Json :=
  if spared record then record else record.unlinked r.name id r.isCollection

section Detach

variable {s} {ts : Tables} {m target : Model} {r : Relation} {id record : Json} {key : RecordKey}
  (hg : s.registry.Coherent) (hts : s.registry.AllFit ts) (hm : m ∈ s.registry.models)
  (hr : r ∈ m.owning)

include hg hm hr in
theorem run_detach_holder (hfits : s.registry.Fits m key record)
    (hrow : ts.row? m.path key = some record) (spared : Json → Bool) :
    ∃ ts', (if spared record then pure ()
      else
        match record.clearReference r.name id r.isCollection with
        | some changed => discard (UnitOfWork.merge m changed)
        | none => pure () : UnitOfWork Unit).run ts = (.ok (), ts') ∧
      ts.Rewrites ts' (Tables.within m.path fun k old =>
        if k = key then detached r id spared record else old) := by
  unfold Service.detached
  split
  · exact ⟨ts, rfl, Tables.Rewrites.unchanged hrow⟩
  · have hchanged := hfits.unlinked hg hm hr id
    unfold Json.unlinked at hchanged ⊢
    split
    · next changed hc =>
      rw [hc, Option.getD_some] at hchanged
      obtain ⟨x, hx, -, hk, -⟩ := hchanged.identity
      refine ⟨ts.put m.path key changed, ?_, ?_⟩
      · exact UnitOfWork.run_discard_eq_ok_iff.mpr ⟨changed, UnitOfWork.run_merge hx hk ts⟩
      · simpa only [hc, Option.getD_some] using Tables.Rewrites.put hrow changed
    · next hc =>
      refine ⟨ts, rfl, ?_⟩
      simpa only [hc, Option.getD_none] using Tables.Rewrites.unchanged hrow

include hg hts hm hr in
/-- Detaching rewrites all records of the model but those that are spared. -/
theorem run_detach (hplain : r.IsPlain) (ht : s.registry.get? r.target = some target) (hid : target.IsIdentity id)
    (hst : ts.Stored target.path id) (spared : Json → Bool) :
    ∃ ts', (s.detach m r id spared).run ts = (.ok (), ts') ∧
      ts.Rewrites ts' (Tables.within m.path fun _ record => detached r id spared record) := by
  have hrm := (List.mem_filter.mp hr).1
  have hmem {record} : record ∈ holders ts m r.name id ↔
      ∃ key, ts.row? m.path key = some record ∧ id ∈ (record.get r.name).references :=
    hts.mem_holders_iff hm hr ht hid
  obtain ⟨ts', hrun, hts'⟩ := UnitOfWork.run_forM_rewrite (detached r id spared)
    (holders ts m r.name id) ts
    (fun x hx key ts₁ hk hrow => by
      obtain ⟨k, hxrow, -⟩ := hmem.mp hx
      have hfits := hts m hm k x hxrow
      rw [hfits.key?_eq, Option.some.injEq] at hk
      exact run_detach_holder hg hm hr (hk ▸ hfits) hrow spared)
    (fun x hx => by
      obtain ⟨k, hxrow, -⟩ := hmem.mp hx
      exact ⟨k, (hts m hm k x hxrow).key?_eq, hxrow⟩)
    ((hts.nodup_keys hm).sublist (List.filter_sublist.map _))
  refine ⟨ts', ?_, hts'.congr fun path k old hold => ?_⟩
  · unfold detach
    rw [UnitOfWork.run_bind_of_ok (UnitOfWork.run_attempt_eq_ok_iff.mpr ⟨?_, rfl⟩)]
    · exact hrun
    · rw [references_eq hg hplain hm hr ht]
      exact hts.query_reference hg hm hr ht hid hst
  · simp only [Tables.within]
    split
    · next hp =>
      subst hp
      have hfits := hts m hm k old hold
      split
      · rfl
      · next hn =>
        have hnot : id ∉ (old.get r.name).references := fun h =>
          hn (List.mem_map.mpr ⟨old, hmem.mpr ⟨k, hold, h⟩, hfits.key?_eq⟩)
        rw [Service.detached, Json.unlinked,
          Json.unlinked_of_not_mem hid (hfits.slots r hr target ht) hnot, Option.getD_none, ite_self]
    · rfl

end Detach

end Service

/-- Taking one identity away from one relation, in all records but those under some keys. -/
structure Cut where
  holder : Model
  relation : Relation
  id : Json
  spared : RecordKey → Bool

namespace Cut

open Registry

def apply (c : Cut) : String → RecordKey → Json → Json :=
  Tables.within c.holder.path fun key record =>
    if c.spared key then record else record.unlinked c.relation.name c.id c.relation.isCollection

/-- A cut takes this reference away. -/
def Removes (c : Cut) (m : Model) (key : RecordKey) (r : Relation) (id : Json) : Prop :=
  c.holder = m ∧ c.relation = r ∧ c.id = id ∧ c.spared key = false

/-- What is cut is an owning relation of the registry and an identity of its target. -/
structure IsProper (g : Registry) (c : Cut) (target : Model) : Prop where
  mem_models : c.holder ∈ g.models
  mem_owning : c.relation ∈ c.holder.owning
  get?_target : g.get? c.relation.target = some target
  isIdentity : target.IsIdentity c.id

def applyAll (cs : List Cut) (path : String) (key : RecordKey) (record : Json) : Json :=
  cs.foldl (fun record c => c.apply path key record) record

variable {g : Registry} {c : Cut} {cs : List Cut} {m target : Model} {r : Relation}
  {key : RecordKey} {record x : Json}

theorem fits_apply (hg : g.Coherent) (hc : c.IsProper g target) (hm : m ∈ g.models)
    (h : g.Fits m key record) : g.Fits m key (c.apply m.path key record) := by
  simp only [apply, Tables.within]
  split
  · next hp =>
    obtain rfl := eq_of_path hm hc.mem_models hp
    split
    · exact h
    · exact h.unlinked hg hm hc.mem_owning c.id
  · exact h

theorem mem_references_apply (hg : g.Coherent) (hc : c.IsProper g target) (hm : m ∈ g.models)
    (h : g.Fits m key record) (hr : r ∈ m.owning) :
    x ∈ ((c.apply m.path key record).get r.name).references ↔
      x ∈ (record.get r.name).references ∧ ¬c.Removes m key r x := by
  simp only [apply, Tables.within]
  have hrm := (List.mem_filter.mp hr).1
  split
  · next hp =>
    obtain rfl := eq_of_path hm hc.mem_models hp
    have hcm := (List.mem_filter.mp hc.mem_owning).1
    split
    · next hs => simp [Removes, hs]
    · next hs =>
      by_cases hn : c.relation.name = r.name
      · obtain rfl := hg.eq_of_name hm hcm hrm hn
        rw [Json.mem_references_unlinked h.isObject hc.isIdentity (h.slots _ hr target hc.get?_target)]
        simp [Removes, hs, eq_comm]
      · have hne : c.relation ≠ r := fun he => hn (by rw [he])
        rw [Json.get_unlinked_of_ne record hn]
        simp [Removes, hne]
  · next hp =>
    have hne : c.holder ≠ m := fun he => hp (by rw [he])
    simp [Removes, hne]

theorem fits_applyAll (hg : g.Coherent) (hcs : ∀ c ∈ cs, ∃ target, c.IsProper g target)
    (hm : m ∈ g.models) (h : g.Fits m key record) :
    g.Fits m key (applyAll cs m.path key record) := by
  unfold applyAll
  induction cs generalizing record with
  | nil => exact h
  | cons c rest ih =>
    obtain ⟨target, hc⟩ := hcs c List.mem_cons_self
    exact ih (fun d hd => hcs d (List.mem_cons_of_mem _ hd)) (fits_apply hg hc hm h)

theorem mem_references_applyAll (hg : g.Coherent)
    (hcs : ∀ c ∈ cs, ∃ target, c.IsProper g target) (hm : m ∈ g.models) (h : g.Fits m key record)
    (hr : r ∈ m.owning) :
    x ∈ ((applyAll cs m.path key record).get r.name).references ↔
      x ∈ (record.get r.name).references ∧ ∀ c ∈ cs, ¬c.Removes m key r x := by
  unfold applyAll
  induction cs generalizing record with
  | nil => simp
  | cons c rest ih =>
    obtain ⟨target, hc⟩ := hcs c List.mem_cons_self
    rw [List.foldl_cons, ih (fun d hd => hcs d (List.mem_cons_of_mem _ hd))
      (fits_apply hg hc hm h), mem_references_apply hg hc hm h hr, List.forall_mem_cons, and_assoc]

end Cut

namespace Service

open Registry

variable {s : Service} {ts : Tables} (hg : s.registry.Coherent)

include hg

theorem run_cut {c : Cut} {target : Model} {spared : Json → Bool} (hts : s.registry.AllFit ts)
    (hc : c.IsProper s.registry target) (hplain : c.relation.IsPlain) (hst : ts.Stored target.path c.id)
    (hspared : ∀ key record, ts.row? c.holder.path key = some record →
      spared record = c.spared key) :
    ∃ ts', (s.detach c.holder c.relation c.id spared).run ts = (.ok (), ts') ∧
      ts.Rewrites ts' c.apply := by
  obtain ⟨ts', hrun, hts'⟩ :=
    run_detach hg hts hc.mem_models hc.mem_owning hplain hc.get?_target hc.isIdentity hst spared
  refine ⟨ts', hrun, hts'.congr fun path key record hrow => ?_⟩
  simp only [Cut.apply, Tables.within]
  split
  · next hp =>
    subst hp
    rw [detached, hspared key record hrow]
  · rfl

/-- A loop of which each round makes a cut or does nothing. -/
theorem run_cuts {α : Type} {f : α → UnitOfWork Unit} {xs : List α} (cut? : α → Option Cut)
    (hnone : ∀ a ∈ xs, cut? a = none → ∀ ts, (f a).run ts = (.ok (), ts))
    (hsome : ∀ a ∈ xs, ∀ c, cut? a = some c → ∃ target, c.IsProper s.registry target ∧
      ts.Stored target.path c.id ∧ ∀ ts, s.registry.AllFit ts → ts.Stored target.path c.id →
        ∃ ts', (f a).run ts = (.ok (), ts') ∧ ts.Rewrites ts' c.apply)
    (hts : s.registry.AllFit ts) :
    ∃ ts', (xs.forM f).run ts = (.ok (), ts') ∧
      ts.Rewrites ts' (Cut.applyAll (xs.filterMap cut?)) := by
  induction xs generalizing ts with
  | nil => exact ⟨ts, rfl, .refl ts⟩
  | cons a rest ih =>
    have hnone' := fun b hb => hnone b (List.mem_cons_of_mem _ hb)
    cases ha : cut? a with
    | none =>
      obtain ⟨ts', hrun, hts'⟩ := ih hnone' (fun b hb => hsome b (List.mem_cons_of_mem _ hb)) hts
      refine ⟨ts', ?_, by rwa [List.filterMap_cons_none ha]⟩
      rw [UnitOfWork.run_forM_cons, UnitOfWork.run_bind_of_ok (hnone a List.mem_cons_self ha ts), hrun]
    | some c =>
      obtain ⟨target, hc, hst, hstep⟩ := hsome a List.mem_cons_self c ha
      obtain ⟨ts₁, hrun₁, hts₁⟩ := hstep ts hts hst
      have hfit₁ := hts.rewrites hts₁ fun m hm key record h => Cut.fits_apply hg hc hm h
      have hsome₁ : ∀ b ∈ rest, ∀ d, cut? b = some d → ∃ target, d.IsProper s.registry target ∧
          ts₁.Stored target.path d.id ∧ ∀ ts, s.registry.AllFit ts → ts.Stored target.path d.id →
            ∃ ts', (f b).run ts = (.ok (), ts') ∧ ts.Rewrites ts' d.apply := by
        intro b hb d hd
        obtain ⟨t, hdp, hdst, hdstep⟩ := hsome b (List.mem_cons_of_mem _ hb) d hd
        exact ⟨t, hdp, (hts₁.stored_iff t.path d.id).mpr hdst, hdstep⟩
      obtain ⟨ts', hrun, hts'⟩ := ih hnone' hsome₁ hfit₁
      refine ⟨ts', ?_, ?_⟩
      · rw [UnitOfWork.run_forM_cons, UnitOfWork.run_bind_of_ok hrun₁, hrun]
      · rw [List.filterMap_cons_some ha]
        exact hts₁.trans hts'

end Service

end EntityGraph
