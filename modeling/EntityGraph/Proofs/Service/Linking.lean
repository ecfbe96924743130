import EntityGraph.Proofs.Service.Detachment
import EntityGraph.Service.Related
import EntityGraph.Service.Writing

namespace EntityGraph

open Registry

/-- The record of the holder under a key refers to an identity through a relation. -/
structure Assignment where
  holder : Model
  key : RecordKey
  relation : Relation
  id : Json

namespace Assignment

variable {g : Registry} {l : Assignment} {m target : Model} {r : Relation} {key : RecordKey}
  {record x : Json}

def release (l : Assignment) : Cut :=
  ⟨l.holder, l.relation, l.id, fun key => decide (key = l.key)⟩

def remove (l : Assignment) : Cut :=
  ⟨l.holder, l.relation, l.id, fun key => decide (key ≠ l.key)⟩

def claim (l : Assignment) (path : String) (key : RecordKey) (record : Json) : Json :=
  if l.relation.kind = .oneToOne then l.release.apply path key record else record

def write (l : Assignment) : String → RecordKey → Json → Json :=
  Tables.within l.holder.path fun key record =>
    if key = l.key then record.linked l.relation.name l.id l.relation.isCollection else record

def apply (l : Assignment) (path : String) (key : RecordKey) (record : Json) : Json :=
  l.claim path key (l.write path key record)

inductive Chain : List Assignment → Tables → Tables → Prop
  | nil (ts : Tables) : Chain [] ts ts
  | cons {l : Assignment} {ls : List Assignment} {ts next ts' : Tables}
      (h : ts.Rewrites next l.apply) (hrest : Chain ls next ts') : Chain (l :: ls) ts ts'

theorem Chain.isSome_row? {ls : List Assignment} {ts ts' : Tables} (h : Chain ls ts ts')
    (path : String) (key : RecordKey) :
    (ts'.row? path key).isSome = (ts.row? path key).isSome := by
  induction h with
  | nil => rfl
  | cons h _ ih => exact ih.trans (h.isSome_row? path key)

def Adds (l : Assignment) (m : Model) (key : RecordKey) (r : Relation) (id : Json) : Prop :=
  l.holder = m ∧ l.relation = r ∧ key = l.key ∧ id = l.id

/-- The assignment takes the place of this reference: the record held another identity, or another record
held this one. -/
def Displaces (l : Assignment) (m : Model) (key : RecordKey) (r : Relation) (id : Json) : Prop :=
  l.holder = m ∧ l.relation = r ∧
    (key = l.key ∧ r.isCollection = false ∨ key ≠ l.key ∧ r.kind = .oneToOne ∧ id = l.id)

section Effect

variable (hg : g.Coherent) (hl : l.release.IsProper g target) (hm : m ∈ g.models)
  (h : g.Fits m key record)

include hg hl hm h

theorem fits_write : g.Fits m key (l.write m.path key record) := by
  simp only [write, Tables.within]
  split
  · next hp =>
    obtain rfl := eq_of_path hm hl.mem_models hp
    split
    · exact h.linked hg hm hl.mem_owning hl.get?_target hl.isIdentity
    · exact h
  · exact h

theorem fits_apply : g.Fits m key (l.apply m.path key record) := by
  have hw := fits_write hg hl hm h
  unfold apply claim
  split
  · exact Cut.fits_apply hg hl hm hw
  · exact hw

theorem mem_references_write (hr : r ∈ m.owning) :
    x ∈ ((l.write m.path key record).get r.name).references ↔
      l.Adds m key r x ∨ x ∈ (record.get r.name).references ∧
        ¬(l.holder = m ∧ l.relation = r ∧ key = l.key ∧ r.isCollection = false) := by
  have hrm := (List.mem_filter.mp hr).1
  have hlm := (List.mem_filter.mp hl.mem_owning).1
  have hsame (hne : ¬(l.holder = m ∧ l.relation = r ∧ key = l.key)) :
      x ∈ (record.get r.name).references ↔
        l.Adds m key r x ∨ x ∈ (record.get r.name).references ∧
          ¬(l.holder = m ∧ l.relation = r ∧ key = l.key ∧ r.isCollection = false) := by
    unfold Adds
    tauto
  simp only [write, Tables.within]
  split
  · next hp =>
    obtain rfl := eq_of_path hm hl.mem_models hp
    split
    · next hk =>
      by_cases hn : l.relation.name = r.name
      · obtain rfl := hg.eq_of_name hm hlm hrm hn
        have hslot := h.slots _ hr target hl.get?_target
        have hrefs := (Json.references_linked h.isObject hl.isIdentity hslot).2 x
        refine hrefs.trans ?_
        simp [Adds, hk, release, and_comm]
      · rw [Json.get_linked_of_ne h.isObject hn]
        exact hsame fun he => hn (by rw [he.2.1])
    · next hk => exact hsame fun he => hk he.2.2
  · next hp => exact hsame fun he => hp (by rw [he.1])

theorem mem_references_apply (hr : r ∈ m.owning) :
    x ∈ ((l.apply m.path key record).get r.name).references ↔
      l.Adds m key r x ∨ x ∈ (record.get r.name).references ∧ ¬l.Displaces m key r x := by
  have hwrite := mem_references_write (x := x) hg hl hm h hr
  unfold apply claim
  split
  · next hkind =>
    rw [Cut.mem_references_apply hg hl hm (fits_write hg hl hm h) hr, hwrite]
    unfold Adds Displaces Cut.Removes release
    simp only [decide_eq_false_iff_not]
    constructor
    · rintro ⟨ha | ⟨hx, hsingle⟩, hcut⟩
      · exact .inl ha
      · refine .inr ⟨hx, ?_⟩
        rintro ⟨hh, hre, hk | ⟨hk, -, hid⟩⟩
        · exact hsingle ⟨hh, hre, hk⟩
        · exact hcut ⟨hh, hre, hid.symm, hk⟩
    · rintro (ha | ⟨hx, hd⟩)
      · exact ⟨.inl ha, fun hcut => hcut.2.2.2 ha.2.2.1⟩
      · refine ⟨.inr ⟨hx, fun hs => hd ⟨hs.1, hs.2.1, .inl hs.2.2⟩⟩, fun hcut => ?_⟩
        exact hd ⟨hcut.1, hcut.2.1, .inr ⟨hcut.2.2.2, hcut.2.1 ▸ hkind, hcut.2.2.1.symm⟩⟩
  · next hkind =>
    rw [hwrite]
    unfold Displaces
    refine or_congr_right (and_congr_right fun _ => not_congr ?_)
    constructor
    · exact fun hs => ⟨hs.1, hs.2.1, .inl hs.2.2⟩
    · rintro ⟨hh, hre, hk | ⟨-, hone, -⟩⟩
      · exact ⟨hh, hre, hk⟩
      · exact absurd (hre ▸ hone) hkind

end Effect

end Assignment

namespace Service

variable {s : Service} {ts : Tables} {m target : Model} {r : Relation} {l : Assignment}
  {holderId record x : Json} {key : RecordKey} (hg : s.registry.Coherent)
  (hplain : s.registry.PlainReferences) (hts : s.registry.AllFit ts)

theorem unshare_eq (hg : s.registry.Coherent) (hm : m ∈ s.registry.models) (hr : r ∈ m.owning)
    (holder referenced : Json) :
    s.unshare m r.name holder referenced =
      if r.kind = .oneToOne then
        s.detach m r referenced fun other =>
          ((m.identityOf other).map (·.sameIdentity holder)).getD false
      else pure () := by
  obtain ⟨hrm, howning⟩ := List.mem_filter.mp hr
  unfold unshare
  rw [hg.relation?_name hm hrm]
  simp [howning]

include hts in
/-- Of all records of the holder's model, the one of the holder is spared. -/
theorem release_spared (hm : l.holder ∈ s.registry.models) (hholder : l.holder.IsIdentity holderId)
    (hkey : RecordKey.of? holderId = some l.key) {k : RecordKey} {other : Json}
    (hrow : ts.row? l.holder.path k = some other) :
    ((l.holder.identityOf other).map (·.sameIdentity holderId)).getD false = l.release.spared k := by
  obtain ⟨y, hy, hform, hyk, -⟩ := (hts l.holder hm k other hrow).identity
  rw [hy, Option.map_some, Option.getD_some, Bool.eq_iff_iff, hform.sameIdentity_iff hholder,
    Assignment.release, decide_eq_true_eq]
  constructor
  · rintro rfl
    exact Option.some.inj (hyk.symm.trans hkey)
  · rintro rfl
    exact hform.eq_of_key hholder (hyk.trans hkey.symm)

include hg hts in
theorem run_unshare (hl : l.release.IsProper s.registry target) (hplain : l.relation.IsPlain)
    (hst : ts.Stored target.path l.id) (hholder : l.holder.IsIdentity holderId)
    (hkey : RecordKey.of? holderId = some l.key) :
    ∃ ts', (s.unshare l.holder l.relation.name holderId l.id).run ts = (.ok (), ts') ∧
      ts.Rewrites ts' l.claim := by
  rw [unshare_eq (m := l.holder) (r := l.relation) hg hl.mem_models hl.mem_owning]
  unfold Assignment.claim
  split
  · exact run_cut (c := l.release) hg hts hl hplain hst fun _ _ =>
      release_spared hts hl.mem_models hholder hkey
  · exact ⟨ts, rfl, .refl ts⟩

def claims (m : Model) (key : RecordKey) (record : Json) : List Cut :=
  (m.owning.filter fun r => r.kind == .oneToOne).filterMap fun r =>
    (record.present? r.name).map fun x => (⟨m, key, r, x⟩ : Assignment).release

theorem mem_claims_iff {c : Cut} : c ∈ claims m key record ↔
    ∃ r ∈ m.owning, r.kind = .oneToOne ∧ ∃ x, record.present? r.name = some x ∧
      c = (⟨m, key, r, x⟩ : Assignment).release := by
  simp only [claims, List.mem_filterMap, List.mem_filter, beq_iff_eq, Option.map_eq_some_iff,
    and_assoc]
  constructor
  · rintro ⟨r, hr, hk, x, hx, rfl⟩
    exact ⟨r, hr, hk, x, hx, rfl⟩
  · rintro ⟨r, hr, hk, x, hx, rfl⟩
    exact ⟨r, hr, hk, x, hx, rfl⟩

theorem present?_eq_some_iff_of_oneToOne {g : Registry} (h : g.Fits m key record)
    (hr : r ∈ m.owning) (hk : r.kind = .oneToOne) (ht : g.get? r.target = some target) :
    record.present? r.name = some x ↔ x ∈ (record.get r.name).references := by
  have hslot := h.slots r hr target ht
  rw [Relation.isCollection, hk] at hslot
  rw [Json.present?_eq_some_iff]
  generalize hv : record.get r.name = slot at hslot
  constructor
  · rintro ⟨hx, hnull⟩
    rw [Json.get_of_get? hx] at hv
    subst hv
    cases hslot with
    | absent => exact absurd rfl hnull
    | one hform => rw [hform.references_eq]; exact List.mem_singleton_self x
  · intro hx
    cases hslot with
    | absent => exact absurd hx List.not_mem_nil
    | one hform =>
      rw [hform.references_eq, List.mem_singleton] at hx
      subst hx
      exact ⟨Json.get?_of_get hv hform.ne_null, hform.ne_null⟩

theorem isProper_of_mem_claims {g : Registry} (hg : g.Coherent) (hm : m ∈ g.models)
    (h : g.Fits m key record) {c : Cut} (hc : c ∈ claims m key record) :
    ∃ target, c.IsProper g target := by
  obtain ⟨r, hr, hk, x, hx, rfl⟩ := mem_claims_iff.mp hc
  obtain ⟨target, ht⟩ := hg.exists_target hm (List.mem_filter.mp hr).1
  have hmem := (present?_eq_some_iff_of_oneToOne h hr hk ht).mp hx
  exact ⟨target, hm, hr, ht, (h.slots r hr target ht).isIdentity hmem⟩

include hg hplain hts in
theorem run_unshareAll (hm : m ∈ s.registry.models) (h : s.registry.Fits m key record)
    (hholder : m.IsIdentity holderId) (hkey : RecordKey.of? holderId = some key)
    (hst : ∀ r ∈ m.owning, ∀ target, s.registry.get? r.target = some target →
      ∀ x ∈ (record.get r.name).references, ts.Stored target.path x) :
    ∃ ts', (s.unshareAll m holderId record).run ts = (.ok (), ts') ∧
      ts.Rewrites ts' (Cut.applyAll (claims m key record)) := by
  unfold unshareAll claims
  refine run_cuts hg _ (fun r _ hnone ts => ?_) (fun r hr c hc => ?_) hts
  · rw [Option.map_eq_none_iff] at hnone
    rw [hnone]
    rfl
  · obtain ⟨x, hx, rfl⟩ := Option.map_eq_some_iff.mp hc
    obtain ⟨hro, hkind⟩ := List.mem_filter.mp hr
    obtain ⟨target, ht⟩ := hg.exists_target hm (List.mem_filter.mp hro).1
    have hmem := (present?_eq_some_iff_of_oneToOne h hro (beq_iff_eq.mp hkind) ht).mp hx
    have hproper : (⟨m, key, r, x⟩ : Assignment).release.IsProper s.registry target :=
      ⟨hm, hro, ht, (h.slots r hro target ht).isIdentity hmem⟩
    refine ⟨target, hproper, hst r hro target ht x hmem, fun ts₁ hts₁ hst₁ => ?_⟩
    obtain ⟨ts', hrun, hts'⟩ := run_unshare hg hts₁ hproper (hplain m hm r hro) hst₁ hholder hkey
    refine ⟨ts', by rw [hx]; exact hrun, hts'.congr fun _ _ _ _ => ?_⟩
    rw [Assignment.claim, if_pos (beq_iff_eq.mp hkind)]

section Write

theorem rewrites_of_setReference_none (hrow : ts.row? l.holder.path l.key = some record)
    (hset : record.setReference l.relation.name l.id l.relation.isCollection = none) :
    ts.Rewrites ts l.write := by
  refine (Tables.Rewrites.unchanged hrow).congr fun path k old hold => ?_
  simp only [Assignment.write, Tables.within]
  split
  · next hp =>
    subst hp
    split
    · next hk =>
      subst hk
      obtain rfl := Option.some.inj (hrow.symm.trans hold)
      rw [Json.linked, hset, Option.getD_none]
    · rfl
  · rfl

include hg hts

theorem run_merge_linked (hl : l.release.IsProper s.registry target)
    (hrow : ts.row? l.holder.path l.key = some record) {changed : Json}
    (hset : record.setReference l.relation.name l.id l.relation.isCollection = some changed) :
    ∃ ts', (UnitOfWork.merge l.holder changed).run ts = (.ok changed, ts') ∧
      ts.Rewrites ts' l.write := by
  have hlinked := Json.linked_of_setReference hset
  have hfits := (hts l.holder hl.mem_models l.key record hrow).linked hg hl.mem_models
    hl.mem_owning hl.get?_target hl.isIdentity
  obtain ⟨y, hy, -, hk, -⟩ := hfits.identity
  refine ⟨_, UnitOfWork.run_merge (hlinked ▸ hy) hk ts, ?_⟩
  refine (Tables.Rewrites.put hrow changed).congr fun path k old hold => ?_
  simp only [Assignment.write, Tables.within]
  split
  · next hp =>
    subst hp
    split
    · next hk =>
      subst hk
      obtain rfl := Option.some.inj (hrow.symm.trans hold)
      exact hlinked.symm
    · rfl
  · rfl

theorem allFit_of_write (hl : l.release.IsProper s.registry target) {ts' : Tables}
    (h : ts.Rewrites ts' l.write) : s.registry.AllFit ts' :=
  hts.rewrites h fun _ hm _ _ hfits => Assignment.fits_write hg hl hm hfits

end Write

/-- The assignment that a link to the root stands for. -/
structure StandsFor (link : BackLink) (l : Assignment) : Prop where
  model : link.model = l.holder.path
  field : link.field = l.relation.name
  many : link.many = l.relation.isCollection
  isIdentity : l.holder.IsIdentity link.id
  key : RecordKey.of? link.id = some l.key

theorem writeBackLink_eq (root : Json) (link : BackLink) :
    s.writeBackLink root link =
      (liftM (s.registry.resolve link.model) : UnitOfWork Model) >>= fun target =>
        UnitOfWork.read (fun ts => ts.find? target.path link.id) >>= fun
          | none => pure ()
          | some record =>
              (match record.setReference link.field root link.many with
                | some changed => discard (UnitOfWork.merge target changed)
                | none => pure ()) >>= fun _ =>
                if link.many then pure () else s.unshare target link.field link.id root := by
  unfold writeBackLink
  congr 1
  funext target
  congr 1
  funext found
  cases found with
  | none => rfl
  | some record =>
    dsimp only
    cases record.setReference link.field root link.many <;> rfl

include hg hts in
theorem run_writeBackLink {link : BackLink} (hlink : StandsFor link l)
    (hl : l.release.IsProper s.registry target) (hplain : l.relation.IsPlain) (hst : ts.Stored target.path l.id)
    (hrow : ts.row? l.holder.path l.key = some record) :
    ∃ ts', (s.writeBackLink l.id link).run ts = (.ok (), ts') ∧ ts.Rewrites ts' l.apply := by
  have hwrite : ∃ ts₁, (match record.setReference link.field l.id link.many with
      | some changed => discard (UnitOfWork.merge l.holder changed)
      | none => pure () : UnitOfWork Unit).run ts = (.ok (), ts₁) ∧ ts.Rewrites ts₁ l.write := by
    rw [hlink.field, hlink.many]
    split
    · next changed hset =>
      obtain ⟨ts₁, hrun, hts₁⟩ := run_merge_linked hg hts hl hrow hset
      exact ⟨ts₁, UnitOfWork.run_discard_eq_ok_iff.mpr ⟨changed, hrun⟩, hts₁⟩
    · next hset => exact ⟨ts, rfl, rewrites_of_setReference_none hrow hset⟩
  obtain ⟨ts₁, hrun₁, hts₁⟩ := hwrite
  have hst₁ := (hts₁.stored_iff target.path l.id).mpr hst
  have hclaim : ∃ ts', (if link.many then pure ()
      else s.unshare l.holder link.field link.id l.id : UnitOfWork Unit).run ts₁ = (.ok (), ts') ∧
        ts₁.Rewrites ts' l.claim := by
    rw [hlink.field, hlink.many]
    split
    · next hmany =>
      refine ⟨ts₁, rfl, (Tables.Rewrites.refl ts₁).congr fun path k old _ => ?_⟩
      have hne : l.relation.kind ≠ .oneToOne := by
        intro hk
        rw [Relation.isCollection, hk] at hmany
        cases hmany
      rw [Assignment.claim, if_neg hne]
    · exact run_unshare hg (allFit_of_write hg hts hl hts₁) hl hplain hst₁ hlink.isIdentity
        hlink.key
  obtain ⟨ts', hrun', hts'⟩ := hclaim
  have hresolve : s.registry.resolve link.model = .ok l.holder := by
    rw [resolve_eq_ok_iff, hlink.model]
    exact get?_path hl.mem_models
  have hfind : ts.find? l.holder.path link.id = some record := by
    rw [Tables.find?_eq_row? hlink.key, hrow]
  refine ⟨ts', ?_, hts₁.trans hts'⟩
  rw [writeBackLink_eq, UnitOfWork.run_bind_of_ok (UnitOfWork.run_lift_eq_ok_iff.mpr ⟨hresolve, rfl⟩),
    UnitOfWork.run_bind_of_ok (UnitOfWork.run_read_eq_ok_iff.mpr ⟨hfind, rfl⟩)]
  exact (UnitOfWork.run_bind_of_ok hrun₁).trans hrun'

include hg hplain hts in
theorem run_writeBackLinks {links : List BackLink} {ls : List Assignment} {root : Json}
    (hlinks : List.Forall₂ StandsFor links ls)
    (hls : ∀ l ∈ ls, l.id = root ∧ (ts.row? l.holder.path l.key).isSome = true ∧
      ∃ target, l.release.IsProper s.registry target ∧ ts.Stored target.path root) :
    ∃ ts', (s.writeBackLinks links root).run ts = (.ok (), ts') ∧ Assignment.Chain ls ts ts' := by
  unfold writeBackLinks
  induction hlinks generalizing ts with
  | nil => exact ⟨ts, rfl, .nil ts⟩
  | @cons link l links ls hlink _ ih =>
    obtain ⟨rfl, hsome, target, hl, hst⟩ := hls l List.mem_cons_self
    obtain ⟨record, hrow⟩ := Option.isSome_iff_exists.mp hsome
    obtain ⟨ts₁, hrun₁, hts₁⟩ := run_writeBackLink hg hts hlink hl
      (hplain l.holder hl.mem_models l.relation hl.mem_owning) hst hrow
    have hfit₁ := hts.rewrites hts₁ fun _ hm _ _ h => Assignment.fits_apply hg hl hm h
    obtain ⟨ts', hrun', hts'⟩ := ih hfit₁ fun k hk => by
      obtain ⟨hid, hsome, t, hkp, hkst⟩ := hls k (List.mem_cons_of_mem _ hk)
      exact ⟨hid, by rw [hts₁.isSome_row?, hsome], t, hkp, (hts₁.stored_iff t.path l.id).mpr hkst⟩
    refine ⟨ts', ?_, .cons hts₁ hts'⟩
    rw [UnitOfWork.run_forM_cons, UnitOfWork.run_bind_of_ok hrun₁, hrun']

section Edit

include hg

theorem unshare_of_isCollection (hm : m ∈ s.registry.models) (hr : r ∈ m.relations)
    (hmany : r.isCollection = true) (holder referenced : Json) :
    s.unshare m r.name holder referenced = pure () := by
  have hkind : ¬(r.kind = .oneToOne ∧ r.isOwning = true) := by
    rintro ⟨hk, -⟩
    rw [Relation.isCollection, hk] at hmany
    cases hmany
  simp only [unshare, hg.relation?_name hm hr, if_neg hkind]

/-- An edit from the other side, which looks the owning relation up and leaves collections unclaimed, is
the edit of the owning relation. -/
theorem editSlot_of_inverse (hm : m ∈ s.registry.models) (hr : r ∈ m.relations) (link : Bool)
    (record holderId id : Json) :
    s.editSlot link (link && !((m.relation? r.name).map Relation.isCollection).getD false) m record
        holderId r.name (((m.relation? r.name).map Relation.isCollection).getD false) id =
      s.editSlot link link m record holderId r.name r.isCollection id := by
  simp only [hg.relation?_name hm hr, Option.map_some, Option.getD_some]
  cases hmany : r.isCollection with
  | false => rw [Bool.not_false, Bool.and_true]
  | true =>
    unfold editSlot
    split
    · rfl
    · cases link with
      | false => rfl
      | true =>
        simp only [unshare_of_isCollection hg hm hr hmany]
        rfl

omit hg

variable (hl : l.release.IsProper s.registry target) (hst : ts.Stored target.path l.id)
  (hrow : ts.row? l.holder.path l.key = some record)

include hg hts hl hst hrow in
theorem run_editSlot_link (hplain : l.relation.IsPlain) (hholder : l.holder.IsIdentity holderId)
    (hkey : RecordKey.of? holderId = some l.key) :
    ∃ changed ts', (s.editSlot true true l.holder record holderId l.relation.name
      l.relation.isCollection l.id).run ts = (.ok changed, ts') ∧
        (l.id ∈ (record.get l.relation.name).references ∧ ts' = ts ∨ ts.Rewrites ts' l.apply) := by
  have hfits := hts l.holder hl.mem_models l.key record hrow
  unfold editSlot
  simp only [Json.editReference, if_true]
  split
  · next hset =>
    have hslot := hfits.slots l.relation hl.mem_owning target hl.get?_target
    exact ⟨none, ts, rfl, .inl ⟨Json.mem_of_setReference_none hfits.isObject hl.isIdentity hslot hset, rfl⟩⟩
  · next changed hset =>
    obtain ⟨ts₁, hrun₁, hts₁⟩ := run_merge_linked hg hts hl hrow hset
    obtain ⟨ts', hrun', hts'⟩ := run_unshare hg (allFit_of_write hg hts hl hts₁) hl hplain
      ((hts₁.stored_iff target.path l.id).mpr hst) hholder hkey
    refine ⟨some changed, ts', ?_, .inr (hts₁.trans hts')⟩
    rw [UnitOfWork.run_bind_of_ok (UnitOfWork.run_discard_eq_ok_iff.mpr ⟨changed, hrun₁⟩),
      UnitOfWork.run_bind_of_ok hrun']
    rfl

include hg hts hl hrow in
theorem run_editSlot_unlink (holderId : Json) :
    ∃ changed ts', (s.editSlot false false l.holder record holderId l.relation.name
      l.relation.isCollection l.id).run ts = (.ok changed, ts') ∧
        (changed.isSome = true ↔ l.id ∈ (record.get l.relation.name).references) ∧
          ts.Rewrites ts' l.remove.apply := by
  have hfits := hts l.holder hl.mem_models l.key record hrow
  have hfound := Json.isSome_clearReference_iff hfits.isObject hl.isIdentity
    (hfits.slots l.relation hl.mem_owning target hl.get?_target)
  have hremove {changed : Json} (hc : record.unlinked l.relation.name l.id
      l.relation.isCollection = changed) {path k old} (hold : ts.row? path k = some old) :
      Tables.within l.holder.path (fun k old => if k = l.key then changed else old) path k old =
        l.remove.apply path k old := by
    simp only [Cut.apply, Assignment.remove, Tables.within]
    by_cases hp : path = l.holder.path
    · subst hp
      by_cases hk : k = l.key
      · subst hk
        obtain rfl := Option.some.inj (hrow.symm.trans hold)
        simp [hc]
      · simp [hk]
    · simp [hp]
  unfold editSlot
  simp only [Json.editReference, Bool.false_eq_true, if_false]
  split
  · next hclear =>
    refine ⟨none, ts, rfl, hclear ▸ hfound,
      (Tables.Rewrites.unchanged hrow).congr fun path k old hold => ?_⟩
    exact hremove (by rw [Json.unlinked, hclear, Option.getD_none]) hold
  · next changed hclear =>
    have hc := Json.unlinked_of_clearReference hclear
    have hunlinked := hfits.unlinked hg hl.mem_models hl.mem_owning l.id
    obtain ⟨y, hy, -, hk, -⟩ := hunlinked.identity
    refine ⟨some changed, ts.put l.holder.path l.key changed, ?_, hclear ▸ hfound,
      (Tables.Rewrites.put hrow changed).congr fun path k old hold => hremove hc hold⟩
    rw [UnitOfWork.run_bind_of_ok (UnitOfWork.run_discard_eq_ok_iff.mpr
      ⟨changed, UnitOfWork.run_merge (hc ▸ hy) hk ts⟩)]
    rfl

end Edit

theorem mem_ownersOf_iff {p : Model × Relation} : p ∈ s.ownersOf m ↔
    p.1 ∈ s.registry.models ∧ p.2 ∈ p.1.owning ∧ p.2.target = m.path := by
  simp only [ownersOf, List.mem_flatMap, List.mem_map, List.mem_filter, beq_iff_eq]
  constructor
  · rintro ⟨other, hother, r, hr, rfl⟩
    exact ⟨hother, hr⟩
  · rintro ⟨hother, hr⟩
    exact ⟨p.1, hother, p.2, hr, rfl⟩

def referencesTo (s : Service) (m : Model) (id : Json) : List Cut :=
  (s.ownersOf m).map fun p => ⟨p.1, p.2, id, fun _ => false⟩

theorem mem_referencesTo_iff {c : Cut} {id : Json} : c ∈ s.referencesTo m id ↔
    ∃ other ∈ s.registry.models, ∃ r ∈ other.owning, r.target = m.path ∧
      c = ⟨other, r, id, fun _ => false⟩ := by
  simp only [referencesTo, List.mem_map, mem_ownersOf_iff]
  constructor
  · rintro ⟨p, ⟨hother, hr, ht⟩, rfl⟩
    exact ⟨p.1, hother, p.2, hr, ht, rfl⟩
  · rintro ⟨other, hother, r, hr, ht, rfl⟩
    exact ⟨(other, r), ⟨hother, hr, ht⟩, rfl⟩

theorem isProper_of_mem_referencesTo {c : Cut} {id : Json} (hm : m ∈ s.registry.models)
    (hid : m.IsIdentity id) (hc : c ∈ s.referencesTo m id) : c.IsProper s.registry m := by
  obtain ⟨other, hother, r, hr, ht, rfl⟩ := mem_referencesTo_iff.mp hc
  exact ⟨hother, hr, ht ▸ get?_path hm, hid⟩

include hg hplain hts in
/-- Deletion takes all references to the identity away. -/
theorem run_detachAll {id : Json} (hm : m ∈ s.registry.models) (hid : m.IsIdentity id)
    (hst : ts.Stored m.path id) :
    ∃ ts', ((s.ownersOf m).forM fun (other, r) => s.detach other r id fun _ => false).run ts =
      (.ok (), ts') ∧ ts.Rewrites ts' (Cut.applyAll (s.referencesTo m id)) := by
  rw [referencesTo, ← List.filterMap_eq_map']
  refine run_cuts hg _ (fun _ _ h => nomatch h) (fun p hp c hc => ?_) hts
  obtain rfl := Option.some.inj hc
  have hproper := isProper_of_mem_referencesTo hm hid (List.mem_map.mpr ⟨p, hp, rfl⟩)
  exact ⟨m, hproper, hst, fun ts₁ hts₁ hst₁ =>
    run_cut (c := ⟨p.1, p.2, id, fun _ => false⟩) hg hts₁ hproper
      (hplain p.1 hproper.mem_models p.2 hproper.mem_owning) hst₁ fun _ _ _ => rfl⟩

end Service

end EntityGraph
