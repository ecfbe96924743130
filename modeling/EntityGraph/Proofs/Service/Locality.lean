import EntityGraph.Proofs.Service.Fitting

namespace EntityGraph

namespace Registry

variable {g : Registry} {ts ts' ts'' : Tables} {n : Model} {c : Relation} {cs ds : List Cut}
  {l : Assignment} {ls : List Assignment}

theorem AllFit.trims_self (hts : g.AllFit ts) : g.Trims n c [] ts ts :=
  ⟨hts, fun _ _ => rfl, fun _ _ => by simp⟩

theorem Trims.trans (h : g.Trims n c cs ts ts') (h' : g.Trims n c ds ts' ts'') :
    g.Trims n c (cs ++ ds) ts ts'' := by
  refine ⟨h'.fits, fun path key => (h'.isSome_row? path key).trans (h.isSome_row? path key),
    fun key x => ?_⟩
  rw [h'.refers_iff, h.refers_iff, and_assoc, List.forall_mem_append]

theorem Links.allFit (h : g.Links n c ls ts ts') (hts : g.AllFit ts) : g.AllFit ts' := by
  induction h with
  | nil => exact hts
  | cons h _ ih => exact ih h.fits

theorem Links.isSome_row? (h : g.Links n c ls ts ts') (path : String) (key : RecordKey) :
    (ts'.row? path key).isSome = (ts.row? path key).isSome := by
  induction h with
  | nil => rfl
  | cons h _ ih => exact ih.trans (h.isSome_row? path key)

namespace Refits

variable (h : g.Refits (.keeping n c) ts ts')

include h

theorem refers_iff (key : RecordKey) (x : Json) : ts'.Refers n key c x ↔ ts.Refers n key c x := by
  constructor
  · rintro ⟨new, hnew, hx⟩
    obtain ⟨record, hrow⟩ := Option.isSome_iff_exists.mp
      ((h.isSome_row? n.path key).symm.trans (by rw [hnew]; rfl))
    obtain ⟨_, hnew', hsame⟩ := h.exists_row hrow
    obtain rfl := Option.some.inj (hnew.symm.trans hnew')
    exact ⟨record, hrow, hsame rfl ▸ hx⟩
  · rintro ⟨record, hrow, hx⟩
    obtain ⟨new, hnew, hsame⟩ := h.exists_row hrow
    exact ⟨new, hnew, hsame rfl ▸ hx⟩

theorem trims (hcs : ∀ cut ∈ cs, cut.holder = n → cut.relation ≠ c) : g.Trims n c cs ts ts' :=
  ⟨h.fits, h.isSome_row?, fun key x => (h.refers_iff key x).trans
    ⟨fun hx => ⟨hx, fun cut hcut hr => hcs cut hcut hr.1 hr.2.1⟩, And.left⟩⟩

theorem assigns (hl : l.holder = n → l.relation ≠ c) : g.Assigns n c l ts ts' := by
  refine ⟨h.fits, h.isSome_row?, fun key x => (h.refers_iff key x).trans ?_⟩
  exact ⟨fun hx => .inr ⟨hx, fun hd => hl hd.1 hd.2.1⟩,
    fun hx => hx.elim (fun ha => absurd ha.2.1 (hl ha.1)) And.left⟩

end Refits

end Registry

namespace Service

open Registry UnitOfWork EntityInput

variable {s : Service} {ts ts' : Tables} {m n t target : Model} {r c : Relation} {l : Assignment}
  {id record bound saved holderId : Json} {key : RecordKey} {path : String} {raw : Json}

/-- A unit of work that succeeds with some tables succeeds with no others. -/
theorem leaves_of_run {α : Type} {u : UnitOfWork α} {a : α} {Q : α → Tables → Prop}
    (h : u.run ts = (.ok a, ts')) (hq : Q a ts') : u.Leaves ts Q := by
  intro b ts'' hrun
  obtain ⟨hb, rfl⟩ := Prod.mk.inj (h.symm.trans hrun)
  exact Except.ok.inj hb ▸ hq

section Steps

variable (hg : s.registry.Coherent) (hn : n ∈ s.registry.models) (hc : c ∈ n.owning)
  (hplain : c.IsPlain) (hts : s.registry.AllFit ts)

include hg hn hc hplain hts

theorem detach_trims (cut : Cut) (hcut : cut.IsProper s.registry target) {exempt : Json → Bool}
    (hst : cut.holder = n → cut.relation = c → ts.Stored target.path cut.id)
    (hexempt : ∀ key record, ts.row? cut.holder.path key = some record →
      exempt record = cut.spared key) :
    (s.detach cut.holder cut.relation cut.id exempt).Leaves ts fun _ =>
      s.registry.Trims n c [cut] ts := by
  by_cases hsame : cut.holder = n ∧ cut.relation = c
  · obtain ⟨rfl, rfl⟩ := hsame
    obtain ⟨next, hrun, hnext⟩ := run_cut hg hts hcut hplain (hst rfl rfl) hexempt
    refine leaves_of_run hrun (hts.trims hg (fun d hd => ⟨target, ?_⟩)
      (show ts.Rewrites next (Cut.applyAll [cut]) from hnext) hn hc)
    exact List.mem_singleton.mp hd ▸ hcut
  · -- a relation under another name may be cut or not: the one in question keeps its references
    have hne (h : cut.holder = n) : cut.relation ≠ c := fun hr => hsame ⟨h, hr⟩
    refine (detach_refits hg hts hcut.mem_models hcut.mem_owning cut.id exempt fun record _ =>
      (keeping_admits hg hcut.mem_models hn hcut.mem_owning hc hne).unlinked record cut.id).mono
        fun _ _ h => h.trims fun d hd => ?_
    exact List.mem_singleton.mp hd ▸ hne

theorem unshare_trims (hl : l.release.IsProper s.registry target)
    (hkind : l.relation.kind = .oneToOne)
    (hst : l.holder = n → l.relation = c → ts.Stored target.path l.id)
    (hholder : l.holder.IsIdentity holderId) (hkey : RecordKey.of? holderId = some l.key) :
    (s.unshare l.holder l.relation.name holderId l.id).Leaves ts fun _ =>
      s.registry.Trims n c [l.release] ts := by
  rw [unshare_eq (m := l.holder) (r := l.relation) hg hl.mem_models hl.mem_owning, if_pos hkind]
  exact detach_trims hg hn hc hplain hts l.release hl hst fun _ _ =>
    release_spared hts hl.mem_models hholder hkey

omit hg hn hc hplain in
/-- A loop of which each round makes a cut or does nothing. -/
theorem forM_trims {α : Type} {f : α → UnitOfWork Unit} {xs : List α} (cut? : α → Option Cut)
    (hnone : ∀ a ∈ xs, cut? a = none → f a = pure ())
    (hsome : ∀ a ∈ xs, ∀ cut, cut? a = some cut → ∀ next, s.registry.AllFit next →
      (∀ path x, next.Stored path x ↔ ts.Stored path x) →
        (f a).Leaves next fun _ => s.registry.Trims n c [cut] next) :
    (xs.forM f).Leaves ts fun _ => s.registry.Trims n c (xs.filterMap cut?) ts := by
  induction xs generalizing ts with
  | nil => exact .pure hts.trims_self
  | cons a rest ih =>
    have hnone' := fun b hb => hnone b (List.mem_cons_of_mem _ hb)
    refine .forM_cons ?_
    cases ha : cut? a with
    | none =>
      rw [hnone a List.mem_cons_self ha, List.filterMap_cons_none ha]
      exact ih hts hnone' fun b hb => hsome b (List.mem_cons_of_mem _ hb)
    | some cut =>
      rw [List.filterMap_cons_some ha]
      refine (hsome a List.mem_cons_self cut ha ts hts fun _ _ => Iff.rfl).bind fun _ next hnext => ?_
      refine (ih hnext.fits hnone' fun b hb d hd last hlast hst => ?_).mono fun _ _ => hnext.trans
      exact hsome b (List.mem_cons_of_mem _ hb) d hd last hlast fun path x =>
        (hst path x).trans (hnext.stored_iff path x)

theorem unshareAll_trims (hm : m ∈ s.registry.models) (h : s.registry.Fits m key record)
    (hholder : m.IsIdentity holderId) (hkey : RecordKey.of? holderId = some key)
    (ht : s.registry.get? c.target = some t)
    (hst : m = n → ∀ x ∈ (record.get c.name).references, ts.Stored t.path x) :
    (s.unshareAll m holderId record).Leaves ts fun _ =>
      s.registry.Trims n c (claims m key record) ts := by
  unfold unshareAll claims
  refine forM_trims hts _ (fun r _ hnone => ?_) fun r hr cut hcut next hnext hstored => ?_
  · rw [Option.map_eq_none_iff.mp hnone]
  · obtain ⟨x, hx, rfl⟩ := Option.map_eq_some_iff.mp hcut
    obtain ⟨hro, hkind⟩ := List.mem_filter.mp hr
    obtain ⟨target, htarget⟩ := hg.exists_target hm (List.mem_filter.mp hro).1
    have hmem := (present?_eq_some_iff_of_oneToOne h hro (beq_iff_eq.mp hkind) htarget).mp hx
    rw [hx]
    refine unshare_trims (l := ⟨m, key, r, x⟩) hg hn hc hplain hnext
      ⟨hm, hro, htarget, (h.slots r hro target htarget).isIdentity hmem⟩ (beq_iff_eq.mp hkind)
        ?_ hholder hkey
    rintro rfl rfl
    obtain rfl := Option.some.inj (ht.symm.trans htarget)
    exact (hstored t.path x).mpr (hst rfl x hmem)

theorem writeBackLink_assigns {link : BackLink} (hlink : StandsFor link l)
    (hl : l.release.IsProper s.registry target) (hst : ts.Stored target.path l.id)
    (hrow : (ts.row? l.holder.path l.key).isSome = true) :
    (s.writeBackLink l.id link).Leaves ts fun _ => s.registry.Assigns n c l ts := by
  obtain ⟨record, hrecord⟩ := Option.isSome_iff_exists.mp hrow
  by_cases hsame : l.holder = n ∧ l.relation = c
  · obtain ⟨rfl, rfl⟩ := hsame
    obtain ⟨next, hrun, hnext⟩ := run_writeBackLink hg hts hlink hl hplain hst hrecord
    exact leaves_of_run hrun (hts.assigns hg hl hrow hnext hn hc)
  · have hne (h : l.holder = n) : l.relation ≠ c := fun hr => hsame ⟨h, hr⟩
    have hback : LeadsBack s.registry target link l.holder l.relation :=
      ⟨hl.mem_models, hl.mem_owning, hl.get?_target, by rw [← hlink.model, ← hlink.field, ← hlink.many]⟩
    have hq := keeping_admits hg hl.mem_models hn hl.mem_owning hc hne
    exact (writeBackLink_refits hg hts hback hl.isIdentity
      (fun record hobject _ => hq.linked record l.id hobject) fun record => hq.unlinked record l.id).mono
        fun _ _ h => h.assigns hne

theorem writeBackLinks_links {links : List BackLink} {ls : List Assignment} {root : Json}
    (hlinks : List.Forall₂ StandsFor links ls)
    (hls : ∀ l ∈ ls, l.id = root ∧ (ts.row? l.holder.path l.key).isSome = true ∧
      ∃ target, l.release.IsProper s.registry target ∧ ts.Stored target.path root) :
    (s.writeBackLinks links root).Leaves ts fun _ => s.registry.Links n c ls ts := by
  unfold writeBackLinks
  induction hlinks generalizing ts with
  | nil => exact .pure (.nil ts)
  | @cons link l links ls hlink _ ih =>
    obtain ⟨rfl, hrow, target, hl, hst⟩ := hls l List.mem_cons_self
    refine .forM_cons ((writeBackLink_assigns hg hn hc hplain hts hlink hl hst hrow).bind
      fun _ next hnext => (ih hnext.fits fun k hk => ?_).mono fun _ _ => .cons hnext)
    obtain ⟨hid, hkrow, t, hkp, hkst⟩ := hls k (List.mem_cons_of_mem _ hk)
    exact ⟨hid, by rw [hnext.isSome_row?, hkrow], t, hkp, (hnext.stored_iff t.path l.id).mpr hkst⟩

theorem detachAll_trims (hm : m ∈ s.registry.models) (hid : m.IsIdentity id)
    (hst : ts.Stored m.path id) :
    ((s.ownersOf m).forM fun p => s.detach p.1 p.2 id fun _ => false).Leaves ts fun _ =>
      s.registry.Trims n c (s.referencesTo m id) ts := by
  rw [referencesTo, ← List.filterMap_eq_map']
  refine forM_trims hts _ (fun _ _ h => absurd h (Option.some_ne_none _)) fun p hp cut hcut next hnext hstored => ?_
  obtain rfl := Option.some.inj hcut
  have hproper := isProper_of_mem_referencesTo hm hid (List.mem_map.mpr ⟨p, hp, rfl⟩)
  exact detach_trims hg hn hc hplain hnext ⟨p.1, p.2, id, fun _ => false⟩ hproper
    (fun _ _ => (hstored m.path id).mpr hst) fun _ _ _ => rfl

/-- The references of one relation after a record has been written, its claims taken and its links
written. -/
def SettledAt (s : Service) (n : Model) (c : Relation) (start ts' : Tables) (m : Model)
    (key : RecordKey) (id saved bound : Json) : Prop :=
  ∃ next ls, s.registry.Trims n c (claims m key saved) start next ∧ s.registry.Links n c ls next ts' ∧
    List.Forall₂ StandsFor (m.relations.flatMap (s.registry.backLinks bound)) ls ∧
      ∀ l ∈ ls, s.Spreads next m id bound l

omit hg hn hc hplain hts in
theorem SettledAt.isSome_row? {start : Tables} (h : s.SettledAt n c start ts' m key id saved bound)
    (path : String) (k : RecordKey) : (ts'.row? path k).isSome = (start.row? path k).isSome := by
  obtain ⟨next, ls, htrims, hlinks, -⟩ := h
  rw [hlinks.isSome_row?, htrims.isSome_row?]

theorem settle_leaves (hm : m ∈ s.registry.models) (hfits : s.registry.Fits m key saved)
    (hid : m.identityOf saved = some id) (hrow : (ts.row? m.path key).isSome = true)
    (ht : s.registry.get? c.target = some t)
    (hst : m = n → ∀ x ∈ (saved.get c.name).references, ts.Stored t.path x)
    (hb : ∀ o ∈ m.relations, o.isOwning = false → s.registry.RelatedBy ts o bound)
    (answer : Tables → Except Error Json) (hook : Json → Except Error Json) :
    (s.unshareAll m id saved >>= fun _ =>
      s.writeBackLinks (m.relations.flatMap (s.registry.backLinks bound)) id >>= fun _ =>
        attempt answer >>= fun loaded => (liftM (hook loaded) : UnitOfWork Json)).Leaves ts fun _ ts' =>
          s.SettledAt n c ts ts' m key id saved bound := by
  obtain ⟨y, hy, hform, hk, -⟩ := hfits.identity
  obtain rfl := Option.some.inj (hid.symm.trans hy)
  refine (unshareAll_trims hg hn hc hplain hts hm hfits hform hk ht hst).bind fun _ next hnext => ?_
  have hrelated : ∀ o ∈ m.relations, o.isOwning = false → s.registry.RelatedBy next o bound := by
    intro o ho howning target htarget v hv
    obtain ⟨hv, hall⟩ := hb o ho howning target htarget v hv
    exact ⟨hv, fun x hx => (hnext.stored_iff target.path x).mpr (hall x hx)⟩
  have hself : next.Stored m.path id := by
    rw [hnext.stored_iff, Tables.stored_iff hk]
    exact hrow
  obtain ⟨ls, hlinks, hls⟩ := exists_assignments hg hm hrelated hform
  refine (writeBackLinks_links hg hn hc hplain hnext.fits hlinks fun l hl =>
    ⟨(hls l hl).id_eq, (hls l hl).isSome, m, (hls l hl).proper, hself⟩).bind fun _ ts' hts' => ?_
  exact .bind_attempt fun _ _ => .lift fun _ _ => ⟨next, ls, hnext, hts', hlinks, hls⟩

end Steps

section Revised

variable {members : List (String × Json)} {incoming entity x : Json}

theorem Prepared.revised (hg : s.registry.Coherent)
    (h : s.Prepared ts path raw (.fields members) m id key record incoming bound entity) :
    s.Revised ts path raw members m id key record incoming bound entity := by
  obtain ⟨y, hy, -, hk, -⟩ := h.fits.identity
  obtain rfl := Option.some.inj (h.identity.symm.trans hy)
  exact ⟨h.model, h.coerced, hk, (Tables.find?_eq_row? hk ts m.path).symm.trans h.found,
    describes_of_toEntity (hg.distinctNames m (mem_of_get? h.model).1) h.described, h.binds _ rfl,
    h.mirrors⟩

theorem Revised.stored_of_mem_references_saved (hg : s.registry.Coherent) (hts : s.registry.AllFit ts)
    (h : s.Revised ts path raw members m id key record incoming bound entity) (hc : c ∈ n.owning)
    (ht : s.registry.get? c.target = some t) (hold : ts.ConsistentAt n c t) (hnm : n = m)
    (hx : x ∈ ((s.registry.toRecord m entity).get c.name).references) : ts.Stored t.path x := by
  subst hnm
  have hcm := (List.mem_filter.mp hc).1
  have hbound := h.relatedBy_bound hg hts hcm (relatedBy_fromRecord hg hts h.mem_models h.row hcm
    fun target htarget _ y hy => Option.some.inj (ht.symm.trans htarget) ▸
      hold.closed key y ⟨record, h.row, hy⟩)
  exact (hbound.mirrors hcm h.mirrors).stored_of_mem_references hg h.mem_models hc ht hx

end Revised

section Calls

variable (hg : s.registry.Coherent) (hn : n ∈ s.registry.models) (hc : c ∈ n.owning)
  (hplain : c.IsPlain) (ht : s.registry.get? c.target = some t) (hts : s.registry.AllFit ts)
  (hold : ts.ConsistentAt n c t)

include hg hn hc ht in
theorem SettledAt.consistentAt {start : Tables} (hm : m ∈ s.registry.models)
    (hfits : s.registry.Fits m key saved) (hid : m.identityOf saved = some id)
    (hold : ts.ConsistentAt n c t)
    (hrefs : n = m → ∀ x ∈ (saved.get c.name).references, ts.Stored t.path x)
    (hput : ∀ path k, start.row? path k = (ts.put m.path key saved).row? path k)
    (h : s.SettledAt n c start ts' m key id saved bound) :
    s.registry.AllFit ts' ∧ ts'.ConsistentAt n c t := by
  obtain ⟨next, ls, htrims, hlinks, -, hspreads⟩ := h
  obtain ⟨y, hy, -, hk, -⟩ := hfits.identity
  obtain rfl := Option.some.inj (hid.symm.trans hy)
  have hnext := htrims.consistentAt_of_put hg hm hn hc hfits hold hrefs hput
  refine ⟨hlinks.allFit htrims.fits, hlinks.consistentAt hnext fun l hl hholder hrelation => ?_⟩
  have htarget := (hspreads l hl).proper.get?_target
  rw [show l.release.relation = c from hrelation, ht, Option.some.injEq] at htarget
  rw [(hspreads l hl).id_eq, htarget, htrims.stored_iff, Tables.stored_iff hk, hput,
    Tables.row?_put_self]
  rfl

include hg hn hc ht hts hold in
theorem Revised.consistentAt_of_settledAt {members : List (String × Json)} {incoming entity : Json}
    (h : s.Revised ts path raw members m id key record incoming bound entity)
    (hsettled : s.SettledAt n c (ts.put m.path key (s.registry.toRecord m entity)) ts' m key id
      (s.registry.toRecord m entity) bound) : s.registry.AllFit ts' ∧ ts'.ConsistentAt n c t :=
  hsettled.consistentAt hg hn hc ht h.mem_models (h.fits hg) (h.identityOf_eq hg) hold
    (fun hnm _ hx => h.stored_of_mem_references_saved hg hts hc ht hold hnm hx) fun _ _ => rfl

include hg hn hc hplain ht hts hold

theorem creation_consistentAt (hhooks : s.hooks = .none) (huuids : s.GivesUuids)
    {members : List (String × Json)} {u : UnitOfWork Json}
    (h : s.creation path (.fields members) = .ok u) :
    u.Leaves ts fun _ ts' => s.registry.AllFit ts' ∧ ts'.ConsistentAt n c t := by
  refine create_leaves hg hts hhooks huuids h
    fun m described bound agreed id saved key next hdrafted hadded => ?_
  have hm := (mem_of_get? hdrafted.model).1
  have hrelated := hdrafted.related hg hts
  have hstored {path : String} {x : Json} (hx : ts.Stored path x) : next.Stored path x :=
    (Tables.stored_congr (fun k => congrArg Option.isSome (hadded.rows path k)) x).mpr
      (stored_put hx m.path key saved)
  have hrefs (hnm : n = m) (x : Json) (hx : x ∈ (saved.get c.name).references) :
      ts.Stored t.path x := by
    subst hnm
    have hcm := (List.mem_filter.mp hc).1
    rw [hadded.saved_eq, Json.get_set_of_ne _ (hg.name_ne_identity hm hcm).symm] at hx
    exact ((hrelated c hcm).mirrors hcm hdrafted.mirrors).stored_of_mem_references hg hm hc ht hx
  have hrow : (next.row? m.path key).isSome = true := by
    rw [hadded.rows, Tables.row?_put_self]
    rfl
  refine (settle_leaves hg hn hc hplain hadded.allFit hm hadded.fits hadded.identity hrow ht
    (fun hmn x hx => hstored (hrefs hmn.symm x hx)) (fun o ho _ target htarget v hv => ?_) _ _).mono
      fun _ ts' hsettled => hsettled.consistentAt hg hn hc ht hm hadded.fits hadded.identity hold hrefs
        hadded.rows
  obtain ⟨hv, hall⟩ := hrelated o ho target htarget v hv
  exact ⟨hv, fun x hx => hstored (hall x hx)⟩

/-- An update with loose fields leaves one relation as its entity and the entities bound to it settle
it. -/
theorem revision_settles (hhooks : s.hooks = .none) {members : List (String × Json)} {u : UnitOfWork Json}
    (h : s.revision path raw (.fields members) = .ok u) :
    u.Leaves ts fun _ ts' => ∃ m id key record incoming bound entity,
      s.Revised ts path raw members m id key record incoming bound entity ∧
        s.SettledAt n c (ts.put m.path key (s.registry.toRecord m entity)) ts' m key id
          (s.registry.toRecord m entity) bound := by
  refine update_leaves hg hhooks h fun m id key record incoming bound entity hprepared => ?_
  have hrevised := hprepared.revised hg
  have hm := hrevised.mem_models
  have hrow : ((ts.put m.path key (s.registry.toRecord m entity)).row? m.path key).isSome = true := by
    rw [Tables.row?_put_self]
    rfl
  refine (settle_leaves hg hn hc hplain (allFit_put hts hm hprepared.fits) hm hprepared.fits
    hprepared.identity hrow ht (fun hmn x hx => ?_) (fun o ho howning target htarget v hv => ?_) _ _).mono
      fun _ ts' hsettled => ⟨m, id, key, record, incoming, bound, entity, hrevised, hsettled⟩
  · exact stored_put (hrevised.stored_of_mem_references_saved hg hts hc ht hold hmn.symm hx) _ _ _
  · obtain ⟨hv, hall⟩ := hrevised.relatedBy_bound hg hts ho
      (.of_none (hg.get?_fromRecord_inverse hm record ho howning)) target htarget v hv
    exact ⟨hv, fun x hx => stored_put (hall x hx) _ _ _⟩

theorem revision_consistentAt (hhooks : s.hooks = .none) {members : List (String × Json)}
    {u : UnitOfWork Json} (h : s.revision path raw (.fields members) = .ok u) :
    u.Leaves ts fun _ ts' => s.registry.AllFit ts' ∧ ts'.ConsistentAt n c t := by
  refine (revision_settles hg hn hc hplain ht hts hold hhooks h).mono fun _ ts' hsettled => ?_
  obtain ⟨m, id, key, record, incoming, bound, entity, hrevised, hsettled⟩ := hsettled
  exact hrevised.consistentAt_of_settledAt hg hn hc ht hts hold hsettled

theorem editSlot_consistentAt (hl : l.release.IsProper s.registry target)
    (hst : ts.Stored target.path l.id) (hrow : ts.row? l.holder.path l.key = some record)
    (hholder : l.holder.IsIdentity holderId) (hkey : RecordKey.of? holderId = some l.key) (link : Bool) :
    (s.editSlot link link l.holder record holderId l.relation.name l.relation.isCollection l.id).Leaves ts
      fun _ ts' => s.registry.AllFit ts' ∧ ts'.ConsistentAt n c t := by
  by_cases hsame : l.holder = n ∧ l.relation = c
  · obtain ⟨rfl, rfl⟩ := hsame
    obtain rfl : t = target := Option.some.inj (ht.symm.trans hl.get?_target)
    cases link with
    | true =>
      obtain ⟨changed, next, hrun, hsame | hnext⟩ :=
        run_editSlot_link hg hts hl hst hrow hplain hholder hkey
      · exact leaves_of_run hrun (hsame.2 ▸ ⟨hts, hold⟩)
      · have hassigns := hts.assigns hg hl (by rw [hrow]; rfl) hnext hn hc
        exact leaves_of_run hrun ⟨hassigns.fits, hassigns.consistentAt hold fun _ _ => hst⟩
    | false =>
      obtain ⟨changed, next, hrun, -, hnext⟩ := run_editSlot_unlink hg hts hl hrow holderId
      have hproper : ∀ cut ∈ [l.remove], ∃ target, cut.IsProper s.registry target :=
        fun cut hcut => List.mem_singleton.mp hcut ▸
          ⟨t, hl.mem_models, hl.mem_owning, hl.get?_target, hl.isIdentity⟩
      have htrims := hts.trims hg hproper (show ts.Rewrites next (Cut.applyAll [l.remove]) from hnext) hn hc
      exact leaves_of_run hrun ⟨htrims.fits, htrims.consistentAt hold⟩
  · have hq := keeping_admits hg hl.mem_models hn hl.mem_owning hc fun h hr => hsame ⟨h, hr⟩
    have hid := hts.identityOf_of_find? hl.mem_models hholder ((Tables.find?_eq_row? hkey _ _).trans hrow)
    refine (editSlot_refits hg hts hl.mem_models hl.mem_owning hl.get?_target hl.isIdentity hid hrow hq
      link).mono fun _ ts' h => ?_
    have htrims : s.registry.Trims n c [] ts ts' := h.2.2.trims fun _ hcut => absurd hcut List.not_mem_nil
    exact ⟨htrims.fits, htrims.consistentAt hold⟩

theorem relatedEdit_consistentAt {link : Bool} {related : Json} {name : String} {u : UnitOfWork Json}
    (h : s.relatedEdit link path raw name related = .ok u) :
    u.Leaves ts fun _ ts' => s.registry.AllFit ts' ∧ ts'.ConsistentAt n c t := by
  obtain ⟨m, r, target, id, relatedId, hrequested, rfl⟩ := relatedEdit_eq_ok_iff.mp h
  rw [editBetween_eq]
  refine .bind_attempt fun root hroot => .bind_attempt fun other hother => ?_
  obtain ⟨l, referred, holderId, record, hedited, hholder, hk, hrow, hside⟩ :=
    exists_editSide link hg hrequested.mem_models hrequested.mem_relations hrequested.target_eq
      (hrequested.isIdentity hg) (hrequested.isIdentity_related hg) (existing_eq_ok_iff.mp hroot)
        (existing_eq_ok_iff.mp hother)
  rw [hside]
  refine (editSlot_consistentAt hg hn hc hplain ht hts hold hedited.proper hedited.stored hrow hholder hk
    link).bind fun changed ts' hts' => ?_
  split
  · exact .throw _
  · exact .attempt fun _ _ => hts'

theorem deletion_consistentAt {u : UnitOfWork Unit} (h : s.deletion path raw = .ok u) :
    u.Leaves ts fun _ ts' => s.registry.AllFit ts' ∧ ts'.ConsistentAt n c t := by
  refine deletion_leaves h fun m id record hpath hcoerce hfound => ?_
  have hm := (mem_of_get? hpath).1
  have hid := (Model.isIdentity_of_coerceIdentity (hg.identityTypes m hm) hcoerce).1
  refine (detachAll_trims hg hn hc hplain hts hm hid (Tables.stored_of_find? hfound)).mono
    fun _ ts₁ hts₁ => ⟨⟨hts₁.fits, hts₁.consistentAt hold⟩, fun key hk => ?_⟩
  -- the entity goes only after every reference to it has been cut
  have hfree (htm : t = m) (k : RecordKey) : ¬ts₁.Refers n k c id := by
    intro hx
    have htarget := (hg.target_path hn (List.mem_filter.mp hc).1 ht).2
    refine ((hts₁.refers_iff k id).mp hx).2 _ (mem_referencesTo_iff.mpr ⟨n, hn, c, hc, ?_, rfl⟩)
      ⟨rfl, rfl, rfl, rfl⟩
    rw [← htarget, htm]
  exact ⟨hts₁.fits.of_rows fun _ _ _ => Tables.row?_of_erase,
    hts₁.fits.consistentAt_erase hm hn hc ht hid hk (hts₁.consistentAt hold) hfree⟩

end Calls

section Runs

variable (hg : s.registry.Coherent) (hhooks : s.hooks = .none) (huuids : s.GivesUuids)
  (hn : n ∈ s.registry.models) (hc : c ∈ n.owning) (hplain : c.IsPlain)
  (ht : s.registry.get? c.target = some t)

include hg hhooks huuids hn hc hplain ht

theorem perform_consistentAt {store : Store} {w : Write} (hw : w.IsLoose)
    (hts : s.registry.AllFit store.tables) (hold : store.tables.ConsistentAt n c t) :
    s.registry.AllFit (s.perform store w).tables ∧ (s.perform store w).tables.ConsistentAt n c t := by
  have hkept {α : Type} {work : Except Error (UnitOfWork α)}
      (h : ∀ u, work = .ok u → u.Leaves store.tables fun _ ts' =>
        s.registry.AllFit ts' ∧ ts'.ConsistentAt n c t) :
      s.registry.AllFit (store.run (committing work)).2.tables ∧
        (store.run (committing work)).2.tables.ConsistentAt n c t :=
    Store.run_keeps (P := fun ts => s.registry.AllFit ts ∧ ts.ConsistentAt n c t) ⟨hts, hold⟩
      fun u a ts' hplan hrun => h u hplan a ts' hrun
  cases w with
  | create path input =>
    cases input with
    | entity v => exact hw.elim
    | fields members =>
      exact hkept fun u => creation_consistentAt hg hn hc hplain ht hts hold hhooks huuids
  | update path raw input =>
    cases input with
    | entity v => exact hw.elim
    | fields members => exact hkept fun u => revision_consistentAt hg hn hc hplain ht hts hold hhooks
  | delete path raw => exact hkept fun u => deletion_consistentAt hg hn hc hplain ht hts hold
  | link path raw relation related =>
    exact hkept fun u => relatedEdit_consistentAt hg hn hc hplain ht hts hold
  | unlink path raw relation related =>
    exact hkept fun u => relatedEdit_consistentAt hg hn hc hplain ht hts hold

/-- After every run a relation under a plain name refers to stored records, and if it is one-to-one to each
of them once, whatever names the other relations have. -/
theorem consistentAt_after {writes : List Write} (hw : ∀ w ∈ writes, w.IsLoose) :
    (s.after writes).tables.ConsistentAt n c t := by
  have hempty := consistent_empty s.registry
  have hkept : s.registry.AllFit (s.after writes).tables ∧ (s.after writes).tables.ConsistentAt n c t := by
    rw [after_eq_afterCalls]
    refine afterCalls_induction
      (fun store => s.registry.AllFit store.tables ∧ store.tables.ConsistentAt n c t)
      ⟨hempty.fits, hempty.consistentAt hn hc ht⟩ fun call hcall store hstore => ?_
    obtain ⟨w, hmem, rfl⟩ := List.mem_map.mp hcall
    exact perform_consistentAt hg hhooks huuids hn hc hplain ht (hw w hmem) hstore.1 hstore.2
  exact hkept.2

end Runs

end Service

end EntityGraph
