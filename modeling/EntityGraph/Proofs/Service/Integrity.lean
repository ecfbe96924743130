import EntityGraph.Proofs.Service.Linking

namespace EntityGraph

def Tables.Refers (ts : Tables) (m : Model) (key : RecordKey) (r : Relation) (id : Json) : Prop :=
  ∃ record, ts.row? m.path key = some record ∧ id ∈ (record.get r.name).references

theorem Tables.refers_iff {ts : Tables} {m : Model} {key : RecordKey} {r : Relation}
    {record id : Json} (h : ts.row? m.path key = some record) :
    ts.Refers m key r id ↔ id ∈ (record.get r.name).references := by
  constructor
  · rintro ⟨found, hfound, hid⟩
    rwa [Option.some.inj (h.symm.trans hfound)]
  · exact fun hid => ⟨record, h, hid⟩

def Assignment.Holds (l : Assignment) (ts : Tables) : Prop :=
  ts.Refers l.holder l.key l.relation l.id

/-- What a relation refers to is stored, and if the relation is one-to-one an identity is referred to by
one record. -/
structure Tables.ConsistentAt (ts : Tables) (m : Model) (r : Relation) (target : Model) : Prop where
  closed : ∀ key id, ts.Refers m key r id → ts.Stored target.path id
  single : r.kind = .oneToOne → ∀ key other id, ts.Refers m key r id → ts.Refers m other r id →
    key = other

namespace Registry

/-- All records fit, what they refer to is stored, and an identity that a one-to-one relation refers
to is referred to by one record. -/
structure Consistent (g : Registry) (ts : Tables) : Prop where
  fits : g.AllFit ts
  closed : ∀ m ∈ g.models, ∀ r ∈ m.owning, ∀ target, g.get? r.target = some target →
    ∀ key id, ts.Refers m key r id → ts.Stored target.path id
  single : ∀ m ∈ g.models, ∀ r ∈ m.owning, r.kind = .oneToOne →
    ∀ key other id, ts.Refers m key r id → ts.Refers m other r id → key = other

variable {g : Registry} {ts ts' : Tables} {m target : Model} {r : Relation} {key k : RecordKey}
  {record id x : Json} {cs : List Cut} {l : Assignment} {ls : List Assignment}

theorem consistent_empty (g : Registry) : g.Consistent .empty :=
  ⟨fun _ _ _ _ h => (nomatch h), fun _ _ _ _ _ _ _ _ ⟨_, h, _⟩ => (nomatch h),
    fun _ _ _ _ _ _ _ _ ⟨_, h, _⟩ => (nomatch h)⟩

theorem AllFit.isIdentity_of_refers (hts : g.AllFit ts) (hm : m ∈ g.models) (hr : r ∈ m.owning)
    (ht : g.get? r.target = some target) (h : ts.Refers m key r x) : target.IsIdentity x := by
  obtain ⟨record, hrow, hx⟩ := h
  exact ((hts m hm key record hrow).slots r hr target ht).isIdentity hx

theorem refers_of_rewrites {f : String → RecordKey → Json → Json} (h : ts.Rewrites ts' f) :
    ts'.Refers m key r x ↔
      ∃ record, ts.row? m.path key = some record ∧
        x ∈ ((f m.path key record).get r.name).references := by
  simp only [Tables.Refers, h m.path key, Option.map_eq_some_iff]
  constructor
  · rintro ⟨-, ⟨record, hrow, rfl⟩, hx⟩
    exact ⟨record, hrow, hx⟩
  · rintro ⟨record, hrow, hx⟩
    exact ⟨_, ⟨record, hrow, rfl⟩, hx⟩

theorem AllFit.refers_of_cuts (hts : g.AllFit ts) (hg : g.Coherent)
    (hcs : ∀ c ∈ cs, ∃ target, c.IsProper g target) (h : ts.Rewrites ts' (Cut.applyAll cs))
    (hm : m ∈ g.models) (hr : r ∈ m.owning) :
    ts'.Refers m key r x ↔ ts.Refers m key r x ∧ ∀ c ∈ cs, ¬c.Removes m key r x := by
  rw [refers_of_rewrites h]
  constructor
  · rintro ⟨record, hrow, hx⟩
    rw [Cut.mem_references_applyAll hg hcs hm (hts m hm key record hrow) hr] at hx
    exact ⟨⟨record, hrow, hx.1⟩, hx.2⟩
  · rintro ⟨⟨record, hrow, hx⟩, hcut⟩
    refine ⟨record, hrow, ?_⟩
    rw [Cut.mem_references_applyAll hg hcs hm (hts m hm key record hrow) hr]
    exact ⟨hx, hcut⟩

theorem AllFit.refers_of_assignment (hts : g.AllFit ts) (hg : g.Coherent)
    (hl : l.release.IsProper g target) (hrow : (ts.row? l.holder.path l.key).isSome = true)
    (h : ts.Rewrites ts' l.apply) (hm : m ∈ g.models) (hr : r ∈ m.owning) :
    ts'.Refers m key r x ↔
      l.Adds m key r x ∨ ts.Refers m key r x ∧ ¬l.Displaces m key r x := by
  rw [refers_of_rewrites h]
  constructor
  · rintro ⟨record, hrow, hx⟩
    rw [Assignment.mem_references_apply hg hl hm (hts m hm key record hrow) hr] at hx
    exact hx.imp id fun hx => ⟨⟨record, hrow, hx.1⟩, hx.2⟩
  · rintro (ha | ⟨⟨record, hrow, hx⟩, hd⟩)
    · obtain ⟨rfl, rfl, rfl, rfl⟩ := id ha
      obtain ⟨record, hrow⟩ := Option.isSome_iff_exists.mp hrow
      refine ⟨record, hrow, ?_⟩
      rw [Assignment.mem_references_apply hg hl hm (hts _ hm _ record hrow) hr]
      exact .inl ha
    · refine ⟨record, hrow, ?_⟩
      rw [Assignment.mem_references_apply hg hl hm (hts m hm key record hrow) hr]
      exact .inr ⟨hx, hd⟩

/-- Later tables with the same records, all of which fit, and what one relation refers to in them. -/
structure Relinks (g : Registry) (n : Model) (c : Relation) (refers : RecordKey → Json → Prop)
    (ts ts' : Tables) : Prop where
  fits : g.AllFit ts'
  isSome_row? : ∀ path key, (ts'.row? path key).isSome = (ts.row? path key).isSome
  refers_iff : ∀ key x, ts'.Refers n key c x ↔ refers key x

/-- The references of a relation that are left by some cuts. -/
def Trims (g : Registry) (n : Model) (c : Relation) (cs : List Cut) (ts ts' : Tables) : Prop :=
  g.Relinks n c (fun key x => ts.Refers n key c x ∧ ∀ cut ∈ cs, ¬cut.Removes n key c x) ts ts'

/-- The references of a relation after an assignment, which may be one to another relation. -/
def Assigns (g : Registry) (n : Model) (c : Relation) (l : Assignment) (ts ts' : Tables) : Prop :=
  g.Relinks n c (fun key x => l.Adds n key c x ∨ ts.Refers n key c x ∧ ¬l.Displaces n key c x) ts ts'

inductive Links (g : Registry) (n : Model) (c : Relation) : List Assignment → Tables → Tables → Prop
  | nil (ts : Tables) : Links g n c [] ts ts
  | cons {l : Assignment} {ls : List Assignment} {ts next ts' : Tables}
      (h : g.Assigns n c l ts next) (hrest : Links g n c ls next ts') : Links g n c (l :: ls) ts ts'

namespace Relinks

variable {c : Relation} {n : Model} {refers : RecordKey → Json → Prop}

theorem stored_iff (h : g.Relinks n c refers ts ts') (path : String) (x : Json) :
    ts'.Stored path x ↔ ts.Stored path x :=
  Tables.stored_congr (h.isSome_row? path) x

end Relinks

theorem AllFit.trims (hts : g.AllFit ts) (hg : g.Coherent)
    (hcs : ∀ c ∈ cs, ∃ target, c.IsProper g target) (h : ts.Rewrites ts' (Cut.applyAll cs))
    (hm : m ∈ g.models) (hr : r ∈ m.owning) : g.Trims m r cs ts ts' :=
  ⟨hts.rewrites h fun _ hm _ _ hfits => Cut.fits_applyAll hg hcs hm hfits, h.isSome_row?,
    fun _ _ => hts.refers_of_cuts hg hcs h hm hr⟩

theorem AllFit.assigns (hts : g.AllFit ts) (hg : g.Coherent) (hl : l.release.IsProper g target)
    (hrow : (ts.row? l.holder.path l.key).isSome = true) (h : ts.Rewrites ts' l.apply)
    (hm : m ∈ g.models) (hr : r ∈ m.owning) : g.Assigns m r l ts ts' :=
  ⟨hts.rewrites h fun _ hm _ _ hfits => Assignment.fits_apply hg hl hm hfits, h.isSome_row?,
    fun _ _ => hts.refers_of_assignment hg hl hrow h hm hr⟩

/-- Where one identity is assigned to several records, they refer to it, and so do those that did
before unless the reference is one-to-one. -/
theorem Links.refers_iff (hls : ∀ l ∈ ls, l.holder = m ∧ l.relation = r ∧ l.id = x)
    (hone : r.kind = .oneToOne → ∀ k ∈ ls, ∀ l ∈ ls, k.key = l.key) (h : g.Links m r ls ts ts') :
    ts'.Refers m key r x ↔ (∃ l ∈ ls, l.key = key) ∨
      ts.Refers m key r x ∧ (r.kind = .oneToOne → ls = []) := by
  induction h with
  | nil => simp
  | @cons l rest ts next ts' h _ ih =>
    obtain ⟨rfl, rfl, rfl⟩ := hls l List.mem_cons_self
    have hrest := ih (fun k hk => hls k (List.mem_cons_of_mem _ hk))
      fun hkind k hk k' hk' => hone hkind k (List.mem_cons_of_mem _ hk) k' (List.mem_cons_of_mem _ hk')
    have hself (k : Assignment) (hk : k ∈ rest) (hkind : l.relation.kind = .oneToOne) :
        k.key = l.key :=
      hone hkind k (List.mem_cons_of_mem _ hk) l List.mem_cons_self
    rw [hrest, h.refers_iff]
    constructor
    · rintro (⟨k, hk, hkey⟩ | ⟨ha | ⟨hx, hd⟩, -⟩)
      · exact .inl ⟨k, List.mem_cons_of_mem _ hk, hkey⟩
      · exact .inl ⟨l, List.mem_cons_self, ha.2.2.1.symm⟩
      · by_cases hkey : key = l.key
        · exact .inl ⟨l, List.mem_cons_self, hkey.symm⟩
        · exact .inr ⟨hx, fun hkind => (hd ⟨rfl, rfl, .inr ⟨hkey, hkind, rfl⟩⟩).elim⟩
    · rintro (⟨k, hk, rfl⟩ | ⟨hx, hnone⟩)
      · rcases List.mem_cons.mp hk with rfl | hk
        · by_cases hnil : k.relation.kind = .oneToOne → rest = []
          · exact .inr ⟨.inl ⟨rfl, rfl, rfl, rfl⟩, hnil⟩
          · obtain ⟨hkind, hne⟩ := Classical.not_imp.mp hnil
            obtain ⟨other, ho⟩ := List.exists_mem_of_ne_nil rest hne
            exact .inl ⟨other, ho, hself other ho hkind⟩
        · exact .inl ⟨k, hk, rfl⟩
      · have hkind : l.relation.kind ≠ .oneToOne := fun hkind => nomatch hnone hkind
        refine .inr ⟨?_, fun h => absurd h hkind⟩
        by_cases hkey : key = l.key
        · exact .inl ⟨rfl, rfl, hkey, rfl⟩
        · refine .inr ⟨hx, ?_⟩
          rintro ⟨-, -, ⟨hk, -⟩ | ⟨-, hk, -⟩⟩
          · exact hkey hk
          · exact hkind hk

theorem Consistent.consistentAt (hts : g.Consistent ts) (hm : m ∈ g.models) (hr : r ∈ m.owning)
    (ht : g.get? r.target = some target) : ts.ConsistentAt m r target :=
  ⟨hts.closed m hm r hr target ht, hts.single m hm r hr⟩

theorem consistent_iff (hg : g.Coherent) : g.Consistent ts ↔ g.AllFit ts ∧
    ∀ m ∈ g.models, ∀ r ∈ m.owning, ∀ target, g.get? r.target = some target →
      ts.ConsistentAt m r target := by
  refine ⟨fun h => ⟨h.fits, fun m hm r hr target ht => h.consistentAt hm hr ht⟩, fun ⟨hfits, h⟩ => ?_⟩
  refine ⟨hfits, fun m hm r hr target ht => (h m hm r hr target ht).closed, fun m hm r hr => ?_⟩
  obtain ⟨target, ht⟩ := hg.exists_target hm (List.mem_filter.mp hr).1
  exact (h m hm r hr target ht).single

section Put

theorem stored_put {other : String} (h : ts.Stored other x) (path : String) (key : RecordKey)
    (record : Json) : (ts.put path key record).Stored other x := by
  unfold Tables.Stored at h ⊢
  cases hk : RecordKey.of? x with
  | none => rw [Tables.find?, hk] at h; cases h
  | some k =>
    rw [Tables.find?_eq_row? hk] at h ⊢
    rw [Tables.row?_put]
    split
    · rfl
    · exact h

theorem refers_put (hm : m ∈ g.models) {n : Model} (hn : n ∈ g.models) :
    (ts.put m.path key record).Refers n k r x ↔
      (n = m ∧ k = key ∧ x ∈ (record.get r.name).references) ∨
        ¬(n = m ∧ k = key) ∧ ts.Refers n k r x := by
  have hpath : n.path = m.path ↔ n = m := ⟨fun h => eq_of_path hn hm h, fun h => by rw [h]⟩
  unfold Tables.Refers
  rw [Tables.row?_put, ← hpath]
  split
  · next h => simp [h]
  · next h => simp [h, ← and_assoc]

theorem allFit_put (hts : g.AllFit ts) (hm : m ∈ g.models) (h : g.Fits m key record) :
    g.AllFit (ts.put m.path key record) := by
  intro n hn k old hrow
  rw [Tables.row?_put] at hrow
  split at hrow
  · next hp =>
    obtain rfl := eq_of_path hn hm hp.1
    obtain rfl := Option.some.inj hrow
    exact hp.2 ▸ h
  · exact hts n hn k old hrow

end Put

section At

variable {n : Model} {c : Relation}

theorem Trims.consistentAt (h : g.Trims n c cs ts ts') (hc : ts.ConsistentAt n c target) :
    ts'.ConsistentAt n c target := by
  have hrefers {key x} (hx : ts'.Refers n key c x) : ts.Refers n key c x := ((h.refers_iff key x).mp hx).1
  refine ⟨fun key x hx => ?_, fun hk key other x hx hy => hc.single hk key other x (hrefers hx) (hrefers hy)⟩
  exact (h.stored_iff target.path x).mpr (hc.closed key x (hrefers hx))

theorem Assigns.consistentAt (h : g.Assigns n c l ts ts') (hc : ts.ConsistentAt n c target)
    (hst : l.holder = n → l.relation = c → ts.Stored target.path l.id) :
    ts'.ConsistentAt n c target := by
  refine ⟨fun key x hx => ?_, fun hk key other x hx hy => ?_⟩
  · rw [h.stored_iff]
    rcases (h.refers_iff key x).mp hx with ⟨hn, hr, -, rfl⟩ | ⟨hx, -⟩
    · exact hst hn hr
    · exact hc.closed key x hx
  · -- a record that held the identity before no longer does
    have hold {k} (ha : l.holder = n ∧ l.relation = c ∧ x = l.id) (hd : ¬l.Displaces n k c x) :
        k = l.key := by
      by_contra hne
      exact hd ⟨ha.1, ha.2.1, .inr ⟨hne, hk, ha.2.2⟩⟩
    rcases (h.refers_iff key x).mp hx with ha | ⟨hx, hdx⟩
    · have ha' := And.intro ha.1 (And.intro ha.2.1 ha.2.2.2)
      rcases (h.refers_iff other x).mp hy with hb | ⟨-, hdy⟩
      · exact ha.2.2.1.trans hb.2.2.1.symm
      · exact ha.2.2.1.trans (hold ha' hdy).symm
    · rcases (h.refers_iff other x).mp hy with hb | ⟨hy, -⟩
      · exact (hold ⟨hb.1, hb.2.1, hb.2.2.2⟩ hdx).trans hb.2.2.1.symm
      · exact hc.single hk key other x hx hy

theorem Links.consistentAt (h : g.Links n c ls ts ts') (hc : ts.ConsistentAt n c target)
    (hst : ∀ l ∈ ls, l.holder = n → l.relation = c → ts.Stored target.path l.id) :
    ts'.ConsistentAt n c target := by
  induction h with
  | nil => exact hc
  | @cons l ls ts next ts' h _ ih =>
    refine ih (h.consistentAt hc (hst l List.mem_cons_self)) fun k hk hn hr => ?_
    exact (h.stored_iff target.path k.id).mpr (hst k (List.mem_cons_of_mem _ hk) hn hr)

/-- A record that refers to stored records may be written, if it then becomes the single holder of
what it claims. -/
theorem Trims.consistentAt_of_put {start : Tables} (hg : g.Coherent) (hm : m ∈ g.models)
    (hn : n ∈ g.models) (hc : c ∈ n.owning) (hfits : g.Fits m key record)
    (hold : ts.ConsistentAt n c target)
    (hrefs : n = m → ∀ x ∈ (record.get c.name).references, ts.Stored target.path x)
    (hput : ∀ path k, start.row? path k = (ts.put m.path key record).row? path k)
    (h : g.Trims n c (Service.claims m key record) start ts') : ts'.ConsistentAt n c target := by
  have hstart {k x} : start.Refers n k c x ↔ n = m ∧ k = key ∧ x ∈ (record.get c.name).references ∨
      ¬(n = m ∧ k = key) ∧ ts.Refers n k c x := by
    rw [Tables.Refers, hput]
    exact refers_put hm hn
  refine ⟨fun k x hx => ?_, fun hk k other x hx hy => ?_⟩
  · rw [h.stored_iff, Tables.stored_congr fun k => congrArg Option.isSome (hput target.path k)]
    refine stored_put ?_ m.path key record
    rcases hstart.mp ((h.refers_iff k x).mp hx).1 with ⟨hnm, -, hx⟩ | ⟨-, hx⟩
    · exact hrefs hnm x hx
    · exact hold.closed k x hx
  · obtain ⟨hx₁, hxc⟩ := (h.refers_iff k x).mp hx
    obtain ⟨hy₁, hyc⟩ := (h.refers_iff other x).mp hy
    -- what the record claims, no other record refers to
    have hclaim {k} (hnm : n = m) (hmem : x ∈ (record.get c.name).references)
        (hcut : ∀ cut ∈ Service.claims m key record, ¬cut.Removes n k c x) : k = key := by
      subst hnm
      by_contra hne
      obtain ⟨t, ht⟩ := hg.exists_target hm (List.mem_filter.mp hc).1
      have hpresent := (Service.present?_eq_some_iff_of_oneToOne hfits hc hk ht).mpr hmem
      refine hcut _ (Service.mem_claims_iff.mpr ⟨c, hc, hk, x, hpresent, rfl⟩) ⟨rfl, rfl, rfl, ?_⟩
      exact decide_eq_false hne
    rcases hstart.mp hx₁ with ⟨hnm, hkx, hmem⟩ | ⟨-, hx₀⟩
    · rw [hkx, hclaim hnm hmem hyc]
    · rcases hstart.mp hy₁ with ⟨hnm, hky, hmem⟩ | ⟨-, hy₀⟩
      · rw [hky, hclaim hnm hmem hxc]
      · exact hold.single hk k other x hx₀ hy₀

theorem AllFit.consistentAt_erase (hts : g.AllFit ts) (hm : m ∈ g.models) (hn : n ∈ g.models)
    (hr : c ∈ n.owning) (ht : g.get? c.target = some target) (hid : m.IsIdentity id)
    (hk : RecordKey.of? id = some key) (hc : ts.ConsistentAt n c target)
    (hfree : target = m → ∀ k, ¬ts.Refers n k c id) :
    (ts.erase m.path key).ConsistentAt n c target := by
  have hrefers {k x} (h : (ts.erase m.path key).Refers n k c x) : ts.Refers n k c x :=
    let ⟨record, hrow, hx⟩ := h
    ⟨record, Tables.row?_of_erase hrow, hx⟩
  refine ⟨fun k x hx => ?_, fun hone k other x hx hy => hc.single hone k other x (hrefers hx) (hrefers hy)⟩
  have hx₀ := hrefers hx
  have hst := hc.closed k x hx₀
  have hform := hts.isIdentity_of_refers hn hr ht hx₀
  obtain ⟨l, hl⟩ := hform.exists_key
  rw [Tables.stored_iff hl] at hst ⊢
  rw [Tables.row?_erase]
  split
  · next hp =>
    obtain rfl := eq_of_path (mem_of_get? ht).1 hm hp.1
    rw [hform.eq_of_key hid (by rw [hl, hk, hp.2])] at hx₀
    exact absurd hx₀ (hfree rfl k)
  · exact hst

end At

namespace Consistent

variable (hg : g.Coherent)

include hg

theorem of_cuts (hts : g.Consistent ts) (hcs : ∀ c ∈ cs, ∃ target, c.IsProper g target)
    (h : ts.Rewrites ts' (Cut.applyAll cs)) : g.Consistent ts' :=
  (consistent_iff hg).mpr ⟨hts.fits.rewrites h fun _ hm _ _ hfits => Cut.fits_applyAll hg hcs hm hfits,
    fun _ hm _ hr _ ht => (hts.fits.trims hg hcs h hm hr).consistentAt (hts.consistentAt hm hr ht)⟩

theorem of_assignment (hts : g.Consistent ts) (hl : l.release.IsProper g target)
    (hst : ts.Stored target.path l.id) (hrow : (ts.row? l.holder.path l.key).isSome = true)
    (h : ts.Rewrites ts' l.apply) : g.Consistent ts' := by
  refine (consistent_iff hg).mpr
    ⟨hts.fits.rewrites h fun _ hm _ _ hfits => Assignment.fits_apply hg hl hm hfits,
      fun m hm r hr t ht => ?_⟩
  refine (hts.fits.assigns hg hl hrow h hm hr).consistentAt (hts.consistentAt hm hr ht) ?_
  rintro rfl rfl
  obtain rfl : t = target := Option.some.inj (ht.symm.trans hl.get?_target)
  exact hst

theorem of_chain (hts : g.Consistent ts)
    (hls : ∀ l ∈ ls, (ts.row? l.holder.path l.key).isSome = true ∧
      ∃ target, l.release.IsProper g target ∧ ts.Stored target.path l.id)
    (h : Assignment.Chain ls ts ts') : g.Consistent ts' := by
  induction h with
  | nil => exact hts
  | @cons l ls ts next ts' h _ ih =>
    obtain ⟨hrow, target, hl, hst⟩ := hls l List.mem_cons_self
    refine ih (hts.of_assignment hg hl hst hrow h) fun k hk => ?_
    obtain ⟨hkrow, t, hkl, hkst⟩ := hls k (List.mem_cons_of_mem _ hk)
    exact ⟨by rw [h.isSome_row?, hkrow], t, hkl, (h.stored_iff t.path k.id).mpr hkst⟩

theorem of_write (hts : g.Consistent ts) (hm : m ∈ g.models) (hfits : g.Fits m key record)
    (hrefs : ∀ r ∈ m.owning, ∀ target, g.get? r.target = some target →
      ∀ x ∈ (record.get r.name).references, ts.Stored target.path x)
    (h : (ts.put m.path key record).Rewrites ts' (Cut.applyAll (Service.claims m key record))) :
    g.Consistent ts' := by
  have hfit₁ := allFit_put hts.fits hm hfits
  have hproper : ∀ c ∈ Service.claims m key record, ∃ target, c.IsProper g target :=
    fun c hc => Service.isProper_of_mem_claims hg hm hfits hc
  refine (consistent_iff hg).mpr ⟨hfit₁.rewrites h fun _ hn _ _ hf => Cut.fits_applyAll hg hproper hn hf,
    fun n hn r hr target ht => ?_⟩
  refine (hfit₁.trims hg hproper h hn hr).consistentAt_of_put hg hm hn hr hfits
    (hts.consistentAt hn hr ht) ?_ fun _ _ => rfl
  rintro rfl
  exact hrefs r hr target ht

theorem erase (hts : g.Consistent ts) (hm : m ∈ g.models) (hid : m.IsIdentity id)
    (hk : RecordKey.of? id = some key)
    (hfree : ∀ n ∈ g.models, ∀ r ∈ n.owning, g.get? r.target = some m → ∀ k, ¬ts.Refers n k r id) :
    g.Consistent (ts.erase m.path key) := by
  refine (consistent_iff hg).mpr ⟨fun n hn k record h => hts.fits n hn k record (Tables.row?_of_erase h),
    fun n hn r hr target ht => ?_⟩
  refine hts.fits.consistentAt_erase hm hn hr ht hid hk (hts.consistentAt hn hr ht) ?_
  rintro rfl
  exact hfree n hn r hr ht

end Consistent

end Registry

end EntityGraph
