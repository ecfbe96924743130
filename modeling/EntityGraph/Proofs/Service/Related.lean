import EntityGraph.Proofs.Entity.Expansion
import EntityGraph.Proofs.Service.Writing
import EntityGraph.Proofs.Store.Assertions

namespace EntityGraph

namespace Service

open Registry

variable {s : Service} {ts ts' : Tables} {m target : Model} {r : Relation} {key : RecordKey}
  {id relatedId root other record raw related a : Json} {path name : String} {link : Bool}
  {l : Assignment} {u : UnitOfWork Json}

theorem relation_eq_ok_iff : relation m name = .ok r ↔ m.relation? name = some r := by
  unfold relation
  cases m.relation? name <;> simp

structure Requested (s : Service) (path : String) (raw : Json) (name : String) (related : Json)
    (m : Model) (r : Relation) (target : Model) (id relatedId : Json) : Prop where
  model : s.registry.get? path = some m
  relation : m.relation? name = some r
  target_eq : s.registry.get? r.target = some target
  coerced : m.coerceIdentity raw = .ok id
  related : relatedIdentity target related = .ok relatedId

theorem relatedEdit_eq_ok_iff : s.relatedEdit link path raw name related = .ok u ↔
    ∃ m r target id relatedId, s.Requested path raw name related m r target id relatedId ∧
      s.editBetween link m r target id relatedId = u := by
  unfold relatedEdit
  constructor
  · intro h
    obtain ⟨m, hmodel, h⟩ := bind_eq_ok_iff.mp h
    obtain ⟨r, hrelation, h⟩ := bind_eq_ok_iff.mp h
    obtain ⟨target, htarget, h⟩ := bind_eq_ok_iff.mp h
    obtain ⟨id, hcoerced, h⟩ := bind_eq_ok_iff.mp h
    obtain ⟨relatedId, hrelated, h⟩ := bind_eq_ok_iff.mp h
    exact ⟨m, r, target, id, relatedId, ⟨resolve_eq_ok_iff.mp hmodel, relation_eq_ok_iff.mp hrelation,
      resolve_eq_ok_iff.mp htarget, hcoerced, hrelated⟩, pure_eq_ok_iff.mp h⟩
  · rintro ⟨m, r, target, id, relatedId, h, rfl⟩
    rw [resolve_eq_ok_iff.mpr h.model, ok_bind, relation_eq_ok_iff.mpr h.relation, ok_bind,
      resolve_eq_ok_iff.mpr h.target_eq, ok_bind, h.coerced, ok_bind, h.related, ok_bind]
    rfl

theorem coerceIdentity_of_relatedIdentity
    (h : relatedIdentity target related = .ok relatedId) :
    ∃ raw, target.coerceIdentity raw = .ok relatedId := by
  unfold relatedIdentity at h
  split at h
  · exact ⟨_, h⟩
  · exact ⟨_, h⟩

namespace Requested

variable (h : s.Requested path raw name related m r target id relatedId)

include h

theorem mem_models : m ∈ s.registry.models :=
  (mem_of_get? h.model).1

theorem mem_relations : r ∈ m.relations :=
  (mem_of_relation? h.relation).1

theorem isIdentity (hg : s.registry.Coherent) : m.IsIdentity id :=
  (Model.isIdentity_of_coerceIdentity (hg.identityTypes m h.mem_models) h.coerced).1

theorem isIdentity_related (hg : s.registry.Coherent) : target.IsIdentity relatedId := by
  obtain ⟨v, hv⟩ := coerceIdentity_of_relatedIdentity h.related
  exact (Model.isIdentity_of_coerceIdentity
    (hg.identityTypes target (mem_of_get? h.target_eq).1) hv).1

end Requested

/-- The reference that relates two entities. -/
inductive Stores (m target : Model) (r : Relation) (id relatedId : Json) : Assignment → Prop
  | owning {key : RecordKey} (ho : r.mappedBy = none) (hk : RecordKey.of? id = some key) :
      Stores m target r id relatedId ⟨m, key, r, relatedId⟩
  | inverse {key : RecordKey} {counter : Relation} (ho : r.mappedBy = some counter.name)
      (hc : counter ∈ target.owning) (hk : RecordKey.of? relatedId = some key) :
      Stores m target r id relatedId ⟨target, key, counter, id⟩

structure Edited (s : Service) (ts : Tables) (m target : Model) (r : Relation) (id relatedId : Json)
    (l : Assignment) (referred : Model) : Prop where
  relation : r ∈ m.relations
  target_eq : s.registry.get? r.target = some target
  stores : Stores m target r id relatedId l
  proper : l.release.IsProper s.registry referred
  isSome : (ts.row? l.holder.path l.key).isSome = true
  stored : ts.Stored referred.path l.id

namespace Edited

variable {referred : Model} (h : s.Edited ts m target r id relatedId l referred)

include h

theorem consistent_link (hg : s.registry.Coherent) (hts : s.registry.Consistent ts)
    (hts' : l.Holds ts ∧ ts' = ts ∨ ts.Rewrites ts' l.apply) : s.registry.Consistent ts' := by
  rcases hts' with ⟨-, rfl⟩ | hts'
  · exact hts
  · exact hts.of_assignment hg h.proper h.stored h.isSome hts'

theorem isProper_remove : ∀ c ∈ [l.remove], ∃ target, c.IsProper s.registry target :=
  fun _ hc => List.mem_singleton.mp hc ▸
    ⟨referred, h.proper.mem_models, h.proper.mem_owning, h.proper.get?_target, h.proper.isIdentity⟩

theorem consistent_unlink (hg : s.registry.Coherent) (hts : s.registry.Consistent ts)
    (hts' : ts.Rewrites ts' l.remove.apply) : s.registry.Consistent ts' :=
  hts.of_cuts hg h.isProper_remove (show ts.Rewrites ts' (Cut.applyAll [l.remove]) from hts')

end Edited

theorem exists_loaded (hg : s.registry.Coherent) (hplain : s.registry.PlainReferences)
    (hm : m ∈ s.registry.models) (ts : Tables) (record : Json) :
    ∃ e, s.loaded ts m record = .ok e :=
  exists_load_total hg hplain ts s.settings.relationDepth hm (s.registry.fromRecord m record)

/-- The edit of a slot. Linking leaves everything as it is where the reference is there already, and
unlinking answers with a record just if it is there. -/
theorem run_editSlot (link : Bool) (hs : s.IsPlain) (hts : s.registry.AllFit ts) {referred : Model}
    {holderId : Json} (hl : l.release.IsProper s.registry referred)
    (hst : ts.Stored referred.path l.id) (hholder : l.holder.IsIdentity holderId)
    (hkey : RecordKey.of? holderId = some l.key) (hrow : ts.row? l.holder.path l.key = some record) :
    ∃ changed ts', (s.editSlot link link l.holder record holderId l.relation.name
        l.relation.isCollection l.id).run ts = (.ok changed, ts') ∧
      (link = true → l.Holds ts ∧ ts' = ts ∨ ts.Rewrites ts' l.apply) ∧
      (link = false → (changed.isSome = true ↔ l.Holds ts) ∧ ts.Rewrites ts' l.remove.apply) := by
  rw [Assignment.Holds, Tables.refers_iff hrow]
  cases link with
  | true =>
    obtain ⟨changed, ts', hrun, hts'⟩ :=
      run_editSlot_link hs.coherent hts hl hst hrow
        (hs.names l.holder hl.mem_models l.relation hl.mem_owning) hholder hkey
    exact ⟨changed, ts', hrun, fun _ => hts', fun h => absurd h.symm Bool.false_ne_true⟩
  | false =>
    obtain ⟨changed, ts', hrun, hts'⟩ := run_editSlot_unlink hs.coherent hts hl hrow holderId
    exact ⟨changed, ts', hrun, fun h => absurd h Bool.false_ne_true, fun _ => hts'⟩

/-- The edit of a relation on the side that stores it. -/
def editSide (s : Service) (link : Bool) (m : Model) (r : Relation) (target : Model)
    (root other id relatedId : Json) : UnitOfWork (Option Json) :=
  match r.mappedBy with
  | none => s.editSlot link link m root id r.name r.isCollection relatedId
  | some owner =>
      let many := ((target.relation? owner).map Relation.isCollection).getD false
      s.editSlot link (link && !many) target other relatedId owner many id

theorem editBetween_eq (s : Service) (link : Bool) (m : Model) (r : Relation) (target : Model)
    (id relatedId : Json) : s.editBetween link m r target id relatedId =
      (UnitOfWork.attempt fun ts => existing ts m id) >>= fun root =>
        (UnitOfWork.attempt fun ts => existing ts target relatedId) >>= fun other =>
          s.editSide link m r target root other id relatedId >>= fun changed =>
            if !link ∧ changed.isNone then throw (.entityNotFound target.path relatedId) else
              .attempt fun ts => s.loaded ts m (if r.isOwning then changed.getD root else root) := by
  unfold editBetween editSide
  congr 1
  funext root
  congr 1
  funext other
  cases r.mappedBy with
  | none =>
    refine bind_congr fun changed => ?_
    split <;> rfl
  | some owner =>
    refine bind_congr fun changed => ?_
    split <;> rfl

/-- An edit of a relation is one of the slot in which the relation is stored. -/
theorem exists_editSide (link : Bool) (hg : s.registry.Coherent) (hm : m ∈ s.registry.models)
    (hr : r ∈ m.relations) (ht : s.registry.get? r.target = some target) (hid : m.IsIdentity id)
    (hrelated : target.IsIdentity relatedId)
    (hroot : ts.find? m.path id = some root) (hother : ts.find? target.path relatedId = some other) :
    ∃ l referred holderId record, s.Edited ts m target r id relatedId l referred ∧
      l.holder.IsIdentity holderId ∧ RecordKey.of? holderId = some l.key ∧
      ts.row? l.holder.path l.key = some record ∧
      s.editSide link m r target root other id relatedId =
        s.editSlot link link l.holder record holderId l.relation.name l.relation.isCollection l.id := by
  obtain ⟨htm, hp⟩ := hg.target_path hm hr ht
  unfold editSide
  cases hmb : r.mappedBy with
  | none =>
    obtain ⟨key, hk⟩ := hid.exists_key
    have hrow : ts.row? m.path key = some root := by rw [← Tables.find?_eq_row? hk, hroot]
    exact ⟨⟨m, key, r, relatedId⟩, target, id, root,
      ⟨hr, ht, .owning hmb hk, ⟨hm, Model.mem_owning_iff.mpr ⟨hr, hmb⟩, ht, hrelated⟩, by rw [hrow]; rfl,
        Tables.stored_of_find? hother⟩, hid, hk, hrow, rfl⟩
  | some owner =>
    obtain ⟨counter, hco, rfl, hct, -⟩ := hg.owners m hm r hr owner hmb target htm hp
    obtain ⟨key, hk⟩ := hrelated.exists_key
    have hrow : ts.row? target.path key = some other := by rw [← Tables.find?_eq_row? hk, hother]
    exact ⟨⟨target, key, counter, id⟩, m, relatedId, other,
      ⟨hr, ht, .inverse hmb hco hk, ⟨htm, hco, hct ▸ get?_path hm, hid⟩, by rw [hrow]; rfl,
        Tables.stored_of_find? hroot⟩, hrelated, hk, hrow,
      editSlot_of_inverse hg htm (List.mem_filter.mp hco).1 link other relatedId id⟩

theorem run_existing_eq_ok_iff :
    (UnitOfWork.attempt fun ts => existing ts m id).run ts = (.ok record, ts') ↔
      ts.find? m.path id = some record ∧ ts = ts' := by
  rw [UnitOfWork.run_attempt_eq_ok_iff, existing_eq_ok_iff]

/-- An edit of a relation between two stored entities fails only where it is to unlink what is not
linked. -/
theorem run_editBetween (link : Bool) (hs : s.IsPlain) (hts : s.registry.AllFit ts)
    (hm : m ∈ s.registry.models) (hr : r ∈ m.relations)
    (ht : s.registry.get? r.target = some target) (hid : m.IsIdentity id)
    (hrelated : target.IsIdentity relatedId)
    (hroot : ts.find? m.path id = some root) (hother : ts.find? target.path relatedId = some other) :
    ∃ l referred ts', s.Edited ts m target r id relatedId l referred ∧
      (link = true → l.Holds ts ∧ ts' = ts ∨ ts.Rewrites ts' l.apply) ∧
      (link = false → ts.Rewrites ts' l.remove.apply) ∧
      (link = true ∨ l.Holds ts →
        ∃ a, (s.editBetween link m r target id relatedId).run ts = (.ok a, ts')) ∧
      (link = false → ¬l.Holds ts → (s.editBetween link m r target id relatedId).run ts =
        (.error (.entityNotFound target.path relatedId), ts')) := by
  obtain ⟨l, referred, holderId, record, hedited, hholder, hk, hrow, hside⟩ :=
    exists_editSide link hs.coherent hm hr ht hid hrelated hroot hother
  obtain ⟨changed, ts', hedit, hlink, hunlink⟩ :=
    run_editSlot link hs hts hedited.proper hedited.stored hholder hk hrow
  have hanswer (record : Json) : ∃ a, (UnitOfWork.attempt fun ts => s.loaded ts m record).run ts' =
      (.ok a, ts') :=
    (exists_loaded hs.coherent hs.names hm ts' record).imp fun _ h =>
      UnitOfWork.run_attempt_eq_ok_iff.mpr ⟨h, rfl⟩
  have hrun : (s.editBetween link m r target id relatedId).run ts =
      (if !link ∧ changed.isNone then throw (.entityNotFound target.path relatedId) else
        .attempt fun ts => s.loaded ts m (if r.isOwning then changed.getD root else root) :
          UnitOfWork Json).run ts' := by
    rw [editBetween_eq, UnitOfWork.run_bind_of_ok (run_existing_eq_ok_iff.mpr ⟨hroot, rfl⟩),
      UnitOfWork.run_bind_of_ok (run_existing_eq_ok_iff.mpr ⟨hother, rfl⟩), hside,
      UnitOfWork.run_bind_of_ok hedit]
  refine ⟨l, referred, ts', hedited, hlink, fun h => (hunlink h).2, fun h => ?_, fun h hfree => ?_⟩
  · rw [hrun, if_neg]
    · exact hanswer _
    · rintro ⟨hl, hnone⟩
      have hl : link = false := Bool.not_eq_true' link ▸ hl
      have hheld : l.Holds ts := h.resolve_left (by rw [hl]; exact Bool.false_ne_true)
      rw [Option.isNone_iff_eq_none.mp hnone] at hunlink
      exact absurd ((hunlink hl).1.mpr hheld) Bool.false_ne_true
  · subst h
    have hnone : changed = none := Option.not_isSome_iff_eq_none.mp (mt (hunlink rfl).1.mp hfree)
    rw [hrun, hnone, if_pos ⟨rfl, rfl⟩]
    rfl

theorem leaves_answer (link : Bool) {edit : UnitOfWork (Option Json)}
    {Q : Option Json → Tables → Prop} (hedit : edit.Leaves ts Q)
    (answer : Option Json → Tables → Except Error Json) (missing : Error) :
    (edit >>= fun changed =>
      if (!link) = true ∧ changed.isNone = true then
        (throw missing : UnitOfWork PUnit) >>= fun _ => .attempt (answer changed)
      else .attempt (answer changed)).Leaves ts fun e ts' =>
        ∃ changed, Q changed ts' ∧ answer changed ts' = .ok e := by
  refine hedit.bind fun changed ts' hts' => ?_
  split
  · exact .bind (.throw (Q := fun _ _ => False) _) fun _ _ => False.elim
  · exact .attempt fun e he => ⟨changed, hts', he⟩

theorem exists_edited (hs : s.IsPlain) (hts : s.registry.AllFit ts)
    (h : s.relatedEdit link path raw name related = .ok u) (hrun : u.run ts = (.ok a, ts')) :
    ∃ m r target id relatedId l referred, s.Requested path raw name related m r target id relatedId ∧
      s.Edited ts m target r id relatedId l referred ∧
        (link = true → l.Holds ts ∧ ts' = ts ∨ ts.Rewrites ts' l.apply) ∧
          (link = false → ts.Rewrites ts' l.remove.apply) := by
  have hg := hs.coherent
  obtain ⟨m, r, target, id, relatedId, hrequested, rfl⟩ := relatedEdit_eq_ok_iff.mp h
  obtain ⟨root, ts₁, hfound, hrun₁⟩ := UnitOfWork.run_bind_eq_ok_iff.mp hrun
  obtain ⟨hroot, rfl⟩ := run_existing_eq_ok_iff.mp hfound
  obtain ⟨other, ts₂, hfound', -⟩ := UnitOfWork.run_bind_eq_ok_iff.mp hrun₁
  obtain ⟨hother, rfl⟩ := run_existing_eq_ok_iff.mp hfound'
  obtain ⟨l, referred, next, hedited, hlink, hunlink, hdone, hrefused⟩ :=
    run_editBetween link hs hts hrequested.mem_models hrequested.mem_relations hrequested.target_eq
      (hrequested.isIdentity hg) (hrequested.isIdentity_related hg) hroot hother
  have hnext : ts' = next := by
    by_cases h : link = true ∨ l.Holds ts
    · obtain ⟨_, hdone⟩ := hdone h
      exact (Prod.ext_iff.mp (hrun.symm.trans hdone)).2
    · obtain ⟨hl, hfree⟩ := not_or.mp h
      rw [hrefused (Bool.not_eq_true _ ▸ hl) hfree] at hrun
      cases hrun
  subst hnext
  exact ⟨m, r, target, id, relatedId, l, referred, hrequested, hedited, hlink, hunlink⟩

/-- Edits keep tables consistent. -/
theorem edit_keeps (hs : s.IsPlain) (hts : s.registry.Consistent ts)
    (h : s.relatedEdit link path raw name related = .ok u) (hrun : u.run ts = (.ok a, ts')) :
    s.registry.Consistent ts' := by
  obtain ⟨m, r, target, id, relatedId, l, referred, -, hedited, hlink, hunlink⟩ :=
    exists_edited hs hts.fits h hrun
  cases link with
  | true => exact hedited.consistent_link hs.coherent hts (hlink rfl)
  | false => exact hedited.consistent_unlink hs.coherent hts (hunlink rfl)

end Service

end EntityGraph
