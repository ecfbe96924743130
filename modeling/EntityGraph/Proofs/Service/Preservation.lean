import EntityGraph.Proofs.Entity.Input
import EntityGraph.Proofs.Service.Run
import EntityGraph.Proofs.Store.Assertions

namespace EntityGraph

/-- What is required of records, of entities that are about to be written, and of the identities that
records may refer to. Identities and records may depend on how many identities have been used. -/
structure Requirement where
  identity : Tables → Model → Json → Prop
  entity : Model → Json → Prop
  record : Tables → Model → Json → Prop

def Registry.Meets (g : Registry) (q : Requirement) (ts : Tables) : Prop :=
  ∀ m ∈ g.models, ∀ key record, ts.row? m.path key = some record → q.record ts m record

/-- Later tables on which all stored records are as required. -/
structure Registry.Keeps (g : Registry) (q : Requirement) (ts ts' : Tables) : Prop where
  grows : ts.Grows ts'
  meets : g.Meets q ts'

theorem Registry.Meets.keeps_self {g : Registry} {q : Requirement} {ts : Tables}
    (h : g.Meets q ts) : g.Keeps q ts ts :=
  ⟨.refl ts, h⟩

theorem Registry.Keeps.trans {g : Registry} {q : Requirement} {ts ts' ts'' : Tables}
    (h : g.Keeps q ts ts') (h' : g.Keeps q ts' ts'') : g.Keeps q ts ts'' :=
  ⟨h.grows.trans h'.grows, h'.meets⟩

namespace Service

open Registry UnitOfWork EntityInput

structure Tolerates (s : Service) (q : Requirement) : Prop where
  growsIdentity {ts ts' : Tables} {m : Model} {id : Json} :
    ts.Grows ts' → q.identity ts m id → q.identity ts' m id
  growsRecord {ts ts' : Tables} {m : Model} {record : Json} :
    ts.Grows ts' → q.record ts m record → q.record ts' m record
  linked {ts : Tables} {m target : Model} {r : Relation} {record id : Json} :
    m ∈ s.registry.models → r ∈ m.owning → s.registry.get? r.target = some target →
      q.identity ts target id → q.record ts m record →
        q.record ts m (record.linked r.name id r.isCollection)
  unlinked {ts : Tables} {m : Model} {r : Relation} {record : Json} (id : Json) :
    m ∈ s.registry.models → r ∈ m.owning → q.record ts m record →
      q.record ts m (record.unlinked r.name id r.isCollection)

structure Upholds (s : Service) (q : Requirement) : Prop extends s.Tolerates q where
  accepted {m : Model} {raw id : Json} (ts : Tables) : m ∈ s.registry.models →
    m.coerceIdentity raw = .ok id → q.identity ts m id
  generated {ts ts' : Tables} {m : Model} {id : Json} : m ∈ s.registry.models →
    (nextIdentity s.fresh m).run ts = (.ok id, ts') → q.identity ts' m id
  described {m : Model} {input : EntityInput} {e : Json} (ts : Tables) : m ∈ s.registry.models →
    input.toEntity m = .ok e → q.entity m (s.registry.agree ts m e input).entity
  overlaid {ts : Tables} {m : Model} {input : EntityInput} {raw id record e : Json} :
    m ∈ s.registry.models → m.coerceIdentity raw = .ok id → q.record ts m record →
      input.toEntity m = .ok e →
        q.entity m (s.registry.agree ts m (s.merged m id record e) input).entity
  beforeCreate {m : Model} {e e' : Json} :
    q.entity m e → s.hooks.beforeCreate m e = .ok e' → q.entity m e'
  beforeUpdate {m : Model} {raw e e' : Json} :
    q.entity m e → s.hooks.beforeUpdate m raw e = .ok e' → q.entity m e'
  identified {m : Model} {e id : Json} (ts : Tables) : m ∈ s.registry.models → q.entity m e →
    m.identityOf e = some id → q.identity ts m id
  stored {ts : Tables} {m : Model} {e id : Json} : m ∈ s.registry.models →
    s.validate m e = .ok () → q.entity m e → q.identity ts m id →
      q.record ts m ((s.registry.toRecord m e).set m.identity id)

variable {s : Service} {q : Requirement} {ts ts' : Tables} {m target : Model} {r : Relation}
  {record id referenced e : Json} {key : RecordKey}

/-- A link names an owning relation that leads to a model. -/
structure LeadsBack (g : Registry) (m : Model) (link : BackLink) (target : Model) (r : Relation) :
    Prop where
  mem_models : target ∈ g.models
  mem_owning : r ∈ target.owning
  back : g.get? r.target = some m
  link_eq : link = ⟨target.path, link.id, r.name, r.isCollection⟩

theorem exists_origin (hg : s.registry.Coherent) (hm : m ∈ s.registry.models) {bound : Json}
    {link : BackLink} (h : link ∈ m.relations.flatMap (s.registry.backLinks bound)) :
    ∃ target r, LeadsBack s.registry m link target r ∧ ∃ o ∈ m.relations,
      o.mappedBy = some r.name ∧ s.registry.get? o.target = some target ∧
        link.id ∈ target.identitiesOf (bound.get o.name) := by
  obtain ⟨o, ho, hlink⟩ := List.mem_flatMap.mp h
  obtain ⟨target, ht⟩ := hg.exists_target hm ho
  obtain ⟨htm, hp⟩ := hg.target_path hm ho ht
  cases hmb : o.mappedBy with
  | none =>
    rw [backLinks_of_owning _ bound hmb] at hlink
    exact absurd hlink List.not_mem_nil
  | some owner =>
    obtain ⟨x, hx, rfl⟩ := (mem_backLinks_iff hmb ht).mp hlink
    obtain ⟨r, hr, rfl, hback, -⟩ := hg.owners m hm o ho owner hmb target htm hp
    refine ⟨target, r, ⟨htm, hr, hback ▸ get?_path hm, ?_⟩, o, ho, hmb, ht, hx⟩
    rw [hg.relation?_name htm (List.mem_filter.mp hr).1]
    rfl

theorem exists_leadsBack (hg : s.registry.Coherent) (hm : m ∈ s.registry.models) {bound : Json}
    {link : BackLink} (h : link ∈ m.relations.flatMap (s.registry.backLinks bound)) :
    ∃ target r, LeadsBack s.registry m link target r :=
  let ⟨target, r, hback, _⟩ := exists_origin hg hm h
  ⟨target, r, hback⟩

theorem record_of_find? (hts : s.registry.Meets q ts) (hm : m ∈ s.registry.models)
    (h : ts.find? m.path id = some record) : q.record ts m record := by
  obtain ⟨key, -, hrow⟩ := Option.bind_eq_some_iff.mp h
  exact hts m hm key record hrow

section Steps

variable (hq : s.Tolerates q)

include hq

theorem keeps_put (hts : s.registry.Meets q ts) (hm : m ∈ s.registry.models) (key : RecordKey)
    (h : q.record ts m record) : s.registry.Keeps q ts (ts.put m.path key record) := by
  have hgrows := ts.grows_put m.path key record
  refine ⟨hgrows, fun n hn k old hrow => ?_⟩
  rw [Tables.row?_put] at hrow
  split at hrow
  · next hp =>
    obtain rfl := eq_of_path hn hm hp.1
    obtain rfl := Option.some.inj hrow
    exact hq.growsRecord hgrows h
  · exact hq.growsRecord hgrows (hts n hn k old hrow)

theorem keeps_of_rows (hts : s.registry.Meets q ts) (hgrows : ts.Grows ts')
    (hrows : ∀ path key record, ts'.row? path key = some record → ts.row? path key = some record) :
    s.registry.Keeps q ts ts' :=
  ⟨hgrows, fun m hm key record hrow => hq.growsRecord hgrows (hts m hm key record (hrows _ _ _ hrow))⟩

theorem merge_keeps (hts : s.registry.Meets q ts) (hm : m ∈ s.registry.models)
    (h : q.record ts m record) : (merge m record).Leaves ts fun _ => s.registry.Keeps q ts := by
  refine (Leaves.merge m record ts).mono fun _ ts' hmerged => ?_
  obtain ⟨-, -, key, -, -, rfl⟩ := hmerged
  exact keeps_put hq hts hm key h

theorem detach_keeps (hts : s.registry.Meets q ts) (hm : m ∈ s.registry.models) (hr : r ∈ m.owning)
    (id : Json) (spared : Json → Bool) :
    (s.detach m r id spared).Leaves ts fun _ => s.registry.Keeps q ts := by
  refine .bind_attempt fun holders hfound => ?_
  have hholders (holder : Json) (h : holder ∈ holders) : q.record ts m holder := by
    cases hp : references s.registry m r.name id with
    | error e => rw [hp] at hfound; cases hfound
    | ok p =>
      rw [hp] at hfound
      obtain rfl := Except.ok.inj hfound
      obtain ⟨key, hrow⟩ := Tables.mem_records_iff.mp (List.mem_filter.mp h).1
      exact hts m hm key holder hrow
  refine .forM hts.keeps_self fun holder hholder ts₁ hts₁ => ?_
  split
  · exact .pure hts₁
  · split
    · next changed hchanged =>
      have hrecord := hq.unlinked id hm hr (hq.growsRecord hts₁.grows (hholders holder hholder))
      rw [Json.unlinked_of_clearReference hchanged] at hrecord
      exact ((merge_keeps hq hts₁.meets hm hrecord).mono fun _ _ => hts₁.trans).discard
    · exact .pure hts₁

theorem unshare_keeps (hts : s.registry.Meets q ts) (hm : m ∈ s.registry.models) (field : String)
    (holder referenced : Json) :
    (s.unshare m field holder referenced).Leaves ts fun _ => s.registry.Keeps q ts := by
  unfold unshare
  split
  · next r hr =>
    obtain ⟨hrm, rfl⟩ := mem_of_relation? hr
    split
    · next hkind =>
      exact detach_keeps hq hts hm (List.mem_filter.mpr ⟨hrm, hkind.2⟩) referenced _
    · exact .pure hts.keeps_self
  · exact .pure hts.keeps_self

theorem unshareAll_keeps (hts : s.registry.Meets q ts) (hm : m ∈ s.registry.models)
    (id record : Json) : (s.unshareAll m id record).Leaves ts fun _ => s.registry.Keeps q ts := by
  unfold unshareAll
  refine .forM hts.keeps_self fun r _ ts₁ hts₁ => ?_
  split
  · exact (unshare_keeps hq hts₁.meets hm r.name id _).mono fun _ _ => hts₁.trans
  · exact .pure hts₁

theorem writeBackLink_keeps (hts : s.registry.Meets q ts) {root : Json} {link : BackLink}
    (hlink : LeadsBack s.registry m link target r) (hroot : q.identity ts m root) :
    (s.writeBackLink root link).Leaves ts fun _ => s.registry.Keeps q ts := by
  rw [writeBackLink_eq]
  refine .bind_lift fun found hfound => .bind_read ?_
  rw [hlink.link_eq, resolve_eq_ok_iff, get?_path hlink.mem_models, Option.some.injEq] at hfound
  subst hfound
  rw [hlink.link_eq]
  cases hrow : ts.find? target.path link.id with
  | none => exact .pure hts.keeps_self
  | some record =>
    have hrecord := record_of_find? hts hlink.mem_models hrow
    refine Leaves.bind (Q := fun _ => s.registry.Keeps q ts) ?_ fun _ ts₁ hts₁ => ?_
    · split
      · next changed hchanged =>
        have hnew := hq.linked hlink.mem_models hlink.mem_owning hlink.back hroot hrecord
        rw [Json.linked_of_setReference hchanged] at hnew
        exact (merge_keeps hq hts hlink.mem_models hnew).discard
      · exact .pure hts.keeps_self
    · split
      · exact .pure hts₁
      · exact (unshare_keeps hq hts₁.meets hlink.mem_models _ _ _).mono fun _ _ => hts₁.trans

theorem writeBackLinks_keeps (hts : s.registry.Meets q ts) {root : Json} {links : List BackLink}
    (hlinks : ∀ link ∈ links, ∃ target r, LeadsBack s.registry m link target r)
    (hroot : q.identity ts m root) :
    (s.writeBackLinks links root).Leaves ts fun _ => s.registry.Keeps q ts := by
  unfold writeBackLinks
  refine .forM hts.keeps_self fun link hlink ts₁ hts₁ => ?_
  obtain ⟨target, r, hback⟩ := hlinks link hlink
  exact (writeBackLink_keeps hq hts₁.meets hback (hq.growsIdentity hts₁.grows hroot)).mono
    fun _ _ => hts₁.trans

/-- Once a record is written, its claims and the links to it are. -/
theorem settle_keeps (hts : s.registry.Meets q ts) (hm : m ∈ s.registry.models)
    (hid : q.identity ts m id) {links : List BackLink}
    (hlinks : ∀ link ∈ links, ∃ target r, LeadsBack s.registry m link target r) (saved : Json)
    (hook : Json → Except Error Json) :
    (s.unshareAll m id saved >>= fun _ => s.writeBackLinks links id >>= fun _ =>
      (attempt fun ts => s.loaded ts m saved) >>= fun loaded =>
        (liftM (hook loaded) : UnitOfWork Json)).Leaves ts fun _ => s.registry.Keeps q ts := by
  refine (unshareAll_keeps hq hts hm id saved).bind fun _ ts₁ hts₁ => ?_
  have hroot := hq.growsIdentity hts₁.grows hid
  refine (writeBackLinks_keeps hq hts₁.meets hlinks hroot).bind fun _ ts₂ hts₂ => ?_
  have hlast := hts₁.trans hts₂
  exact .bind_attempt fun _ _ => .lift fun _ _ => hlast

theorem editSlot_keeps (hts : s.registry.Meets q ts) (hm : m ∈ s.registry.models)
    (hr : r ∈ m.owning) (ht : s.registry.get? r.target = some target)
    (hid : q.identity ts target id) (hrecord : q.record ts m record) (link : Bool)
    (holderId : Json) :
    (s.editSlot link link m record holderId r.name r.isCollection id).Leaves ts
      fun _ => s.registry.Keeps q ts := by
  unfold editSlot
  split
  · exact .pure hts.keeps_self
  · next changed hchanged =>
    have hnew : q.record ts m changed := by
      cases link with
      | true => exact Json.linked_of_setReference hchanged ▸ hq.linked hm hr ht hid hrecord
      | false => exact Json.unlinked_of_clearReference hchanged ▸ hq.unlinked id hm hr hrecord
    refine (merge_keeps hq hts hm hnew).discard.bind fun _ ts₁ hts₁ => ?_
    split
    · exact ((unshare_keeps hq hts₁.meets hm r.name holderId id).mono fun _ _ => hts₁.trans).bind
        fun _ _ hlast => .pure hlast
    · exact .pure hts₁

end Steps

section Calls

variable {path : String} (hg : s.registry.Coherent) (hq : s.Upholds q)

include hg

theorem set_identity_toRecord (hm : m ∈ s.registry.models) (h : m.identityOf e = some id) :
    (s.registry.toRecord m e).set m.identity id = s.registry.toRecord m e := by
  have hget := (Model.identityOf_eq_some_iff.mp ((hg.identityOf_toRecord hm e).trans h)).1
  rw [toRecord_eq] at hget ⊢
  exact Json.set_ofPairs_of_get? hget

include hq

theorem stored_toRecord (hm : m ∈ s.registry.models) (hvalid : s.validate m e = .ok ())
    (he : q.entity m e) (hsome : (m.identityOf (s.registry.toRecord m e)).isSome = true) :
    q.record ts m (s.registry.toRecord m e) := by
  obtain ⟨id, h⟩ := Option.isSome_iff_exists.mp hsome
  rw [hg.identityOf_toRecord hm] at h
  rw [← set_identity_toRecord hg hm h]
  exact hq.stored hm hvalid he (hq.identified ts hm he h)

theorem create_upholds (hts : s.registry.Meets q ts) {input : EntityInput} {u : UnitOfWork Json}
    (h : s.creation path input = .ok u) : u.Leaves ts fun _ => s.registry.Keeps q ts := by
  obtain ⟨m, hresolve, h⟩ := bind_eq_ok_iff.mp h
  dsimp only at h
  generalize (if m.identityGenerated then input.without m.identity else input) = given at h
  obtain ⟨described, hentity, h⟩ := bind_eq_ok_iff.mp h
  rw [← pure_eq_ok_iff.mp h]
  have hm := (mem_of_get? (resolve_eq_ok_iff.mp hresolve)).1
  have hagreed := hq.described ts hm hentity
  obtain ⟨bound, agreed, hagree, -, -, -⟩ :=
    exists_agree hg hm ts given (isObject_of_toEntity hentity)
  rw [hagree] at hagreed
  refine .bind_read ?_
  rw [hagree]
  refine .bind_lift fun e he => .bind_lift fun _ hvalid => ?_
  have he := hq.beforeCreate hagreed he
  refine (Leaves.persist (isObject_toRecord s.registry m e)).bind fun saved ts₁ hpersist => ?_
  obtain ⟨id, next, key, hnew, rfl, -, -, rfl⟩ := hpersist
  have hnext : s.registry.Keeps q ts next ∧ q.identity next m id := by
    rcases hnew with ⟨hown, rfl⟩ | ⟨-, hrun⟩
    · rw [hg.identityOf_toRecord hm] at hown
      exact ⟨hts.keeps_self, hq.identified next hm he hown⟩
    · obtain ⟨hgrows, hrows⟩ := Leaves.nextIdentity s.fresh m ts id next hrun
      exact ⟨keeps_of_rows hq.toTolerates hts hgrows fun path key record => (hrows path key).symm.trans,
        hq.generated hm hrun⟩
  obtain ⟨hnext, hid⟩ := hnext
  have hput := keeps_put hq.toTolerates hnext.meets hm key (hq.stored hm hvalid he hid)
  split
  · exact .throw _
  · next x hx =>
    obtain rfl : id = x := Option.some.inj
      ((Json.get?_set_self (isObject_toRecord s.registry m e) m.identity id).symm.trans
        (Model.identityOf_eq_some_iff.mp hx).1)
    exact (settle_keeps hq.toTolerates hput.meets hm (hq.growsIdentity hput.grows hid)
      (fun _ => exists_leadsBack hg hm) _ (s.hooks.afterCreate m)).mono
        fun _ _ => (hnext.trans hput).trans

theorem update_upholds (hts : s.registry.Meets q ts) {raw : Json} {input : EntityInput}
    {u : UnitOfWork Json} (h : s.revision path raw input = .ok u) :
    u.Leaves ts fun _ => s.registry.Keeps q ts := by
  obtain ⟨m, hresolve, h⟩ := bind_eq_ok_iff.mp h
  obtain ⟨id, hcoerce, h⟩ := bind_eq_ok_iff.mp h
  obtain ⟨incoming, hentity, h⟩ := bind_eq_ok_iff.mp h
  rw [← pure_eq_ok_iff.mp h]
  have hm := (mem_of_get? (resolve_eq_ok_iff.mp hresolve)).1
  have hid := hq.accepted ts hm hcoerce
  refine .bind_attempt fun record hfound => .bind_read ?_
  have hagreed := hq.overlaid hm hcoerce (record_of_find? hts hm (existing_eq_ok_iff.mp hfound)) hentity
  obtain ⟨bound, agreed, hagree, -, -, -⟩ :=
    exists_agree hg hm ts (input.without m.identity) (isObject_merged s m id record incoming)
  rw [hagree] at hagreed ⊢
  refine .bind_lift fun e he => .bind_lift fun _ hvalid => ?_
  refine (Leaves.merge m (s.registry.toRecord m e) ts).bind fun saved ts₁ hmerge => ?_
  obtain ⟨rfl, x, key, hx, -, rfl⟩ := hmerge
  have hsome := Option.isSome_iff_exists.mpr ⟨x, hx⟩
  have hput := keeps_put hq.toTolerates hts hm key
    (stored_toRecord hg hq hm hvalid (hq.beforeUpdate hagreed he) hsome)
  exact (settle_keeps hq.toTolerates hput.meets hm (hq.growsIdentity hput.grows hid)
    (fun _ => exists_leadsBack hg hm) _ (s.hooks.afterUpdate m id)).mono fun _ _ => hput.trans

omit hg hq in
/-- What holds after a deletion that succeeds: what holds when nothing refers to the entity any more, with
the entity there or gone. -/
theorem deletion_leaves {raw : Json} {u : UnitOfWork Unit} {Q : Tables → Prop}
    (h : s.deletion path raw = .ok u)
    (hdetach : ∀ m id record, s.registry.get? path = some m → m.coerceIdentity raw = .ok id →
      ts.find? m.path id = some record →
        ((s.ownersOf m).forM fun p => s.detach p.1 p.2 id fun _ => false).Leaves ts fun _ ts₁ =>
          Q ts₁ ∧ ∀ key, RecordKey.of? id = some key → Q (ts₁.erase m.path key)) :
    u.Leaves ts fun _ => Q := by
  obtain ⟨m, hresolve, h⟩ := bind_eq_ok_iff.mp h
  obtain ⟨id, hcoerce, h⟩ := bind_eq_ok_iff.mp h
  rw [← pure_eq_ok_iff.mp h]
  have hfound : (discard (attempt fun ts => existing ts m id)).Leaves ts
      fun _ next => next = ts ∧ ∃ record, ts.find? m.path id = some record :=
    .discard (.attempt fun record hrecord => ⟨rfl, record, existing_eq_ok_iff.mp hrecord⟩)
  refine hfound.bind fun _ next hnext => ?_
  obtain ⟨rfl, record, hrecord⟩ := hnext
  refine (hdetach m id record (resolve_eq_ok_iff.mp hresolve) hcoerce hrecord).bind
    fun _ ts₁ hts₁ => ?_
  refine (Leaves.remove m id ts₁).bind fun present ts₂ hremove => ?_
  have hlast : Q ts₂ := by
    obtain ⟨key, hk, rfl | rfl⟩ := hremove
    · exact hts₁.1
    · exact hts₁.2 key hk
  split
  · exact .pure hlast
  · exact .throw _

omit hg in
theorem delete_upholds (hts : s.registry.Meets q ts) {raw : Json} {u : UnitOfWork Unit}
    (h : s.deletion path raw = .ok u) : u.Leaves ts fun _ => s.registry.Keeps q ts := by
  refine deletion_leaves h fun m id _ _ _ _ => ?_
  have hdetach : ((s.ownersOf m).forM fun p => s.detach p.1 p.2 id fun _ => false).Leaves ts
      fun _ => s.registry.Keeps q ts := by
    refine .forM hts.keeps_self fun p hp ts₁ hts₁ => ?_
    obtain ⟨hother, hr, -⟩ := mem_ownersOf_iff.mp hp
    exact (detach_keeps hq.toTolerates hts₁.meets hother hr id _).mono fun _ _ => hts₁.trans
  refine hdetach.mono fun _ ts₁ hts₁ => ⟨hts₁, fun key _ => hts₁.trans ?_⟩
  exact keeps_of_rows hq.toTolerates hts₁.meets (ts₁.grows_erase m.path key)
    fun _ _ _ => Tables.row?_of_erase

theorem edit_upholds (hts : s.registry.Meets q ts) {link : Bool} {raw related : Json} {name : String}
    {u : UnitOfWork Json} (h : s.relatedEdit link path raw name related = .ok u) :
    u.Leaves ts fun _ => s.registry.Keeps q ts := by
  obtain ⟨m, r, target, id, relatedId, hrequested, rfl⟩ := relatedEdit_eq_ok_iff.mp h
  have hm := hrequested.mem_models
  have hr := hrequested.mem_relations
  have ht := hrequested.target_eq
  obtain ⟨htm, hp⟩ := hg.target_path hm hr ht
  refine .bind_attempt fun root hroot => .bind_attempt fun other hother => ?_
  have hrootRecord := record_of_find? hts hm (existing_eq_ok_iff.mp hroot)
  have hotherRecord := record_of_find? hts htm (existing_eq_ok_iff.mp hother)
  have hanswer {edit : UnitOfWork (Option Json)} (answer : Option Json → Tables → Except Error Json)
      (hedit : edit.Leaves ts fun _ => s.registry.Keeps q ts) :=
    (leaves_answer link hedit answer (.entityNotFound target.path relatedId)).mono
      fun _ _ ⟨_, hkeeps, _⟩ => hkeeps
  cases hmb : r.mappedBy with
  | none =>
    have hid : q.identity ts target relatedId := by
      obtain ⟨raw, hraw⟩ := coerceIdentity_of_relatedIdentity hrequested.related
      exact hq.accepted ts htm hraw
    have hro := Model.mem_owning_iff.mpr ⟨hr, hmb⟩
    exact hanswer _ (editSlot_keeps hq.toTolerates hts hm hro ht hid hrootRecord link id)
  | some owner =>
    obtain ⟨counter, hco, rfl, hback, -⟩ := hg.owners m hm r hr owner hmb target htm hp
    have hid := hq.accepted ts hm hrequested.coerced
    dsimp only
    rw [editSlot_of_inverse hg htm (List.mem_filter.mp hco).1]
    exact hanswer _ (editSlot_keeps hq.toTolerates hts htm hco (hback ▸ get?_path hm) hid hotherRecord link
      relatedId)

/-- A call keeps all stored records as required. -/
theorem perform_upholds {store : Store} (hstore : s.registry.Meets q store.tables) (w : Write) :
    s.registry.Meets q (s.perform store w).tables := by
  cases w with
  | create path input =>
    exact Store.run_keeps hstore fun u a ts' hplan hrun =>
      (create_upholds hg hq hstore hplan a ts' hrun).meets
  | update path id input =>
    exact Store.run_keeps hstore fun u a ts' hplan hrun =>
      (update_upholds hg hq hstore hplan a ts' hrun).meets
  | delete path id =>
    exact Store.run_keeps hstore fun u a ts' hplan hrun =>
      (delete_upholds hq hstore hplan a ts' hrun).meets
  | link path id relation related =>
    exact Store.run_keeps hstore fun u a ts' hplan hrun =>
      (edit_upholds hg hq hstore hplan a ts' hrun).meets
  | unlink path id relation related =>
    exact Store.run_keeps hstore fun u a ts' hplan hrun =>
      (edit_upholds hg hq hstore hplan a ts' hrun).meets

end Calls

/-- The store after calls one after the other, of which the first finds it empty. Every call has a
service of its own: settings, hooks and the source of new identities may be others each time. -/
def afterCalls (calls : List (Service × Write)) : Store :=
  calls.foldl (fun store c => c.1.perform store c.2) .empty

theorem after_eq_afterCalls (s : Service) (writes : List Write) :
    s.after writes = afterCalls (writes.map (s, ·)) := by
  rw [afterCalls, List.foldl_map]
  rfl

/-- What holds of an empty store and is kept by each of the calls holds after them. -/
theorem afterCalls_induction (P : Store → Prop) {calls : List (Service × Write)} (hempty : P .empty)
    (hstep : ∀ c ∈ calls, ∀ store, P store → P (c.1.perform store c.2)) : P (afterCalls calls) := by
  have hfold (store : Store) (hstore : P store) :
      P (calls.foldl (fun store c => c.1.perform store c.2) store) := by
    induction calls generalizing store with
    | nil => exact hstore
    | cons c rest ih =>
      exact ih (fun d hd => hstep d (List.mem_cons_of_mem _ hd)) _
        (hstep c List.mem_cons_self store hstore)
  exact hfold .empty hempty

/-- After every run all stored records are as required. -/
theorem meets_afterCalls {g : Registry} (hg : g.Coherent) {calls : List (Service × Write)}
    (hcalls : ∀ c ∈ calls, c.1.registry = g ∧ c.1.Upholds q) :
    g.Meets q (afterCalls calls).tables := by
  refine afterCalls_induction (g.Meets q ·.tables) (fun _ _ _ _ hrow => nomatch hrow)
    fun c hc store hstore => ?_
  obtain ⟨rfl, hq⟩ := hcalls c hc
  exact perform_upholds hg hq hstore c.2

theorem consistent_afterCalls {g : Registry} {calls : List (Service × Write)}
    (hcalls : ∀ c ∈ calls, c.1.registry = g ∧ c.1.IsPlain ∧ c.2.IsLoose) :
    g.Consistent (afterCalls calls).tables := by
  refine afterCalls_induction (g.Consistent ·.tables) (consistent_empty g) fun c hc store hstore => ?_
  obtain ⟨rfl, hs, hw⟩ := hcalls c hc
  exact perform_keeps hs hw hstore

theorem outage_afterCalls (calls : List (Service × Write)) : (afterCalls calls).outage = none :=
  afterCalls_induction (·.outage = none) rfl fun c _ store hstore =>
    (outage_perform c.1 store c.2).trans hstore

end Service

namespace Household

def calls : List (Service × Write) :=
  writes.map (service, ·)

theorem calls_plain : ∀ c ∈ calls, c.1.registry = service.registry ∧ c.1.IsPlain ∧ c.2.IsLoose := by
  intro c hc
  obtain ⟨w, hw, rfl⟩ := List.mem_map.mp hc
  exact ⟨rfl, isPlain, writes_isLoose w hw⟩

end Household

namespace Club

def nameRule : Rule :=
  ⟨some true, none, none, some 20, none, none, none, none, none, none⟩

def definitions : List ModelDefinition :=
  [⟨"Member", "members", true, .standard, [⟨"name", .string⟩],
    [⟨"mentor", .manyToOne, "Member", none⟩, ⟨"mentees", .oneToMany, "Member", some "mentor"⟩,
      ⟨"friends", .manyToMany, "Member", none⟩], [("name", nameRule)]⟩]

def mentor : Relation :=
  ⟨"mentor", .manyToOne, "members", none, some "mentees"⟩

def mentees : Relation :=
  ⟨"mentees", .oneToMany, "members", some "mentor", none⟩

def friends : Relation :=
  ⟨"friends", .manyToMany, "members", none, none⟩

def member : Model :=
  ⟨"Member", "members", true, "id", .long, true, [⟨"name", .string⟩], [mentor, mentees, friends],
    [("name", nameRule)]⟩

def service : Service :=
  ⟨⟨[member], by decide +kernel⟩, .standard, .none, fun _ => ""⟩

end Club

end EntityGraph
