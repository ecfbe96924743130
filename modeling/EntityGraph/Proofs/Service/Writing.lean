import EntityGraph.Proofs.Entity.Input
import EntityGraph.Proofs.Service.Integrity

namespace EntityGraph

def Relation.NamedIn (r : Relation) (members : List (String × Json)) : Prop :=
  ∃ p ∈ members, p.1 = r.name ∨ p.1 = r.identityKey

theorem Relation.NamedIn.of_erase {r : Relation} {members : List (String × Json)} {key : String}
    (h : r.NamedIn (OrderedMap.erase members key)) : r.NamedIn members :=
  let ⟨p, hp, hn⟩ := h
  ⟨p, (List.mem_filter.mp hp).1, hn⟩

theorem Registry.bound?_of_not_namedIn {g : Registry} {ts : Tables} {target : Model} {r : Relation}
    {members : List (String × Json)} (h : ¬r.NamedIn members) :
    g.bound? ts target r (.obj members) = none := by
  have hnone {name : String} (hn : name = r.name ∨ name = r.identityKey) :
      (Json.obj members).get? name = none := by
    cases hget : (Json.obj members).get? name with
    | none => rfl
    | some x => exact absurd ⟨_, OrderedMap.mem_of_get? hget, hn⟩ h
  rw [bound?, hnone (.inl rfl), hnone (.inr rfl)]
  rfl

namespace Service

open Registry

/-- A service over resolved models whose relations have plain names, without hooks. Generated
identities that are no numbers have the form of their type. -/
structure IsPlain (s : Service) : Prop where
  resolved : ∃ definitions, Registry.ofDefinitions definitions = .ok s.registry
  names : s.registry.PlainReferences
  hooks : s.hooks = .none
  fresh : ∀ m ∈ s.registry.models, m.identityGenerated = true → m.identityType = .uuid →
    ∀ t, Uuid.canonical? (s.fresh t) = some (s.fresh t)

theorem fresh_of_no_uuids {s : Service} (h : ∀ m ∈ s.registry.models, m.identityType ≠ .uuid) :
    ∀ m ∈ s.registry.models, m.identityGenerated = true → m.identityType = .uuid →
      ∀ t, Uuid.canonical? (s.fresh t) = some (s.fresh t) :=
  fun m hm _ ht => absurd ht (h m hm)

theorem IsPlain.coherent {s : Service} (hs : s.IsPlain) : s.registry.Coherent :=
  let ⟨_, h⟩ := hs.resolved
  coherent_of_ofDefinitions h

variable {s : Service} {ts ts' : Tables} {m target : Model} {r : Relation} {key : RecordKey}
  {id saved bound e record a : Json} {path : String}

structure Spreads (s : Service) (ts : Tables) (m : Model) (id bound : Json) (l : Assignment) :
    Prop where
  id_eq : l.id = id
  isSome : (ts.row? l.holder.path l.key).isSome = true
  proper : l.release.IsProper s.registry m
  relation : ∃ r ∈ m.relations, r.mappedBy = some l.relation.name ∧
    s.registry.get? r.target = some l.holder ∧
      ∃ x ∈ l.holder.identitiesOf (bound.get r.name), RecordKey.of? x = some l.key

theorem exists_assignments (hg : s.registry.Coherent) (hm : m ∈ s.registry.models)
    (hb : ∀ r ∈ m.relations, r.isOwning = false → s.registry.RelatedBy ts r bound)
    (hid : m.IsIdentity id) :
    ∃ ls, List.Forall₂ StandsFor (m.relations.flatMap (s.registry.backLinks bound)) ls ∧
      ∀ l ∈ ls, s.Spreads ts m id bound l := by
  refine exists_forall₂ fun link hlink => ?_
  obtain ⟨r, hr, hlink⟩ := List.mem_flatMap.mp hlink
  obtain ⟨target, ht⟩ := hg.exists_target hm hr
  obtain ⟨htm, hp⟩ := hg.target_path hm hr ht
  cases hmb : r.mappedBy with
  | none =>
    rw [backLinks_of_owning _ bound hmb] at hlink
    exact absurd hlink List.not_mem_nil
  | some owner =>
    obtain ⟨x, hx, rfl⟩ := (mem_backLinks_iff hmb ht).mp hlink
    obtain ⟨counter, hco, hn, hct, -⟩ := hg.owners m hm r hr owner hmb target htm hp
    have hcm := (List.mem_filter.mp hco).1
    obtain ⟨hform, hst⟩ := (hb r hr (Relation.isOwning_of_some hmb)).of_mem ht hx
    obtain ⟨key, hk⟩ := hform.exists_key
    refine ⟨⟨target, key, counter, id⟩, ⟨rfl, hn.symm, ?_, hform, hk⟩, ⟨rfl, ?_, ?_, ?_⟩⟩
    · rw [← hn, hg.relation?_name htm hcm]
      rfl
    · exact (Tables.stored_iff hk).mp hst
    · exact ⟨htm, hco, hct ▸ get?_path hm, hid⟩
    · exact ⟨r, hr, by rw [hmb, hn], ht, x, hx, hk⟩

structure Settled (s : Service) (ts ts' : Tables) (m : Model) (key : RecordKey)
    (id saved bound : Json) : Prop where
  fits : s.registry.Fits m key saved
  identity : m.identityOf saved = some id
  consistent : s.registry.Consistent ts'
  steps : ∃ next ls, (ts.put m.path key saved).Rewrites next (Cut.applyAll (claims m key saved)) ∧
    s.registry.Consistent next ∧ Assignment.Chain ls next ts' ∧
      List.Forall₂ StandsFor (m.relations.flatMap (s.registry.backLinks bound)) ls ∧
        ∀ l ∈ ls, s.Spreads next m id bound l

/-- Once a record that refers to stored records stands under its key, its claims and the links to it
are written without fail, and the tables are consistent again. -/
theorem exists_settled (hs : s.IsPlain) (hts : s.registry.Consistent ts)
    (hm : m ∈ s.registry.models) (hfits : s.registry.Fits m key saved)
    (hid : m.identityOf saved = some id)
    (hrefs : ∀ r ∈ m.owning, ∀ target, s.registry.get? r.target = some target →
      ∀ x ∈ (saved.get r.name).references, ts.Stored target.path x)
    (hb : s.registry.Related ts m bound) :
    ∃ next ts', (s.unshareAll m id saved).run (ts.put m.path key saved) = (.ok (), next) ∧
      (s.writeBackLinks (m.relations.flatMap (s.registry.backLinks bound)) id).run next =
        (.ok (), ts') ∧ s.Settled ts ts' m key id saved bound := by
  have hg := hs.coherent
  obtain ⟨y, hy, hform, hk, -⟩ := hfits.identity
  obtain rfl := Option.some.inj (hid.symm.trans hy)
  have hput {n : Model} {x} (h : ts.Stored n.path x) :
      (ts.put m.path key saved).Stored n.path x :=
    stored_put h m.path key saved
  have hfit := allFit_put hts.fits hm hfits
  obtain ⟨next, hrun, hnext⟩ := run_unshareAll hg hs.names hfit hm hfits hform hk
    fun r hr target ht x hx => hput (hrefs r hr target ht x hx)
  have hcons := hts.of_write hg hm hfits hrefs hnext
  have hb' : s.registry.Related next m bound := by
    intro r hr target ht v hv
    obtain ⟨hv, hst⟩ := hb r hr target ht v hv
    exact ⟨hv, fun x hx => (hnext.stored_iff target.path x).mpr (hput (hst x hx))⟩
  have hself : next.Stored m.path id := by
    rw [hnext.stored_iff, Tables.stored_iff hk, Tables.row?_put_self]
    rfl
  obtain ⟨ls, hlinks, hls⟩ := exists_assignments hg hm (fun r hr _ => hb' r hr) hform
  obtain ⟨ts', hrun', hts'⟩ := run_writeBackLinks hg hs.names hcons.fits hlinks fun l hl =>
    ⟨(hls l hl).id_eq, (hls l hl).isSome, m, (hls l hl).proper, hself⟩
  have hcons' := hcons.of_chain hg (fun l hl =>
    ⟨(hls l hl).isSome, m, (hls l hl).proper, (hls l hl).id_eq ▸ hself⟩) hts'
  exact ⟨next, ts', hrun, hrun', hfits, hid, hcons', next, ls, hnext, hcons, hts', hlinks, hls⟩

theorem existing_eq_ok_iff : existing ts m id = .ok record ↔ ts.find? m.path id = some record := by
  unfold existing
  cases ts.find? m.path id <;> simp

theorem run_existing (h : (UnitOfWork.attempt fun ts => existing ts m id).run ts = (.ok record, ts'))
    (hk : RecordKey.of? id = some key) : ts.row? m.path key = some record ∧ ts' = ts := by
  obtain ⟨hfound, rfl⟩ := UnitOfWork.run_attempt_eq_ok_iff.mp h
  rw [existing_eq_ok_iff, Tables.find?_eq_row? hk] at hfound
  exact ⟨hfound, rfl⟩

theorem run_agreed {e : Json} {input : EntityInput} {agreed : Agreement}
    {hook : Json → Except Error Json} {rest : Agreement → Json → UnitOfWork Json}
    (hhook : ∀ entity, hook entity = .ok entity) (hagreed : s.registry.agree ts m e input = agreed)
    (h : ((UnitOfWork.read fun ts => s.registry.agree ts m e input) >>= fun agreed =>
      (liftM (hook agreed.entity) : UnitOfWork Json) >>= fun entity =>
        (liftM (s.validate m entity) : UnitOfWork Unit) >>= fun _ => rest agreed entity).run ts =
          (.ok a, ts')) : (rest agreed agreed.entity).run ts = (.ok a, ts') := by
  rw [UnitOfWork.run_bind_of_ok (UnitOfWork.run_read_eq_ok_iff.mpr ⟨hagreed, rfl⟩)] at h
  obtain ⟨entity, ts₁, hhooked, h₁⟩ := UnitOfWork.run_bind_eq_ok_iff.mp h
  rw [hhook] at hhooked
  obtain ⟨he, rfl⟩ := UnitOfWork.run_lift_eq_ok_iff.mp hhooked
  obtain rfl := Except.ok.inj he
  obtain ⟨⟨⟩, ts₂, hvalid, h₂⟩ := UnitOfWork.run_bind_eq_ok_iff.mp h₁
  obtain ⟨-, rfl⟩ := UnitOfWork.run_lift_eq_ok_iff.mp hvalid
  exact h₂

theorem run_answer {links : List BackLink} {hook : Json → Except Error Json}
    {start next last : Tables} (hhook : ∀ entity, hook entity = .ok entity)
    (hclaims : (s.unshareAll m id saved).run start = (.ok (), next))
    (hlinks : (s.writeBackLinks links id).run next = (.ok (), last))
    (h : (s.unshareAll m id saved >>= fun _ => s.writeBackLinks links id >>= fun _ =>
      (UnitOfWork.attempt fun ts => s.loaded ts m saved) >>= fun loaded =>
        (liftM (hook loaded) : UnitOfWork Json)).run start = (.ok a, ts')) :
    s.loaded last m saved = .ok a ∧ ts' = last := by
  rw [UnitOfWork.run_bind_of_ok hclaims, UnitOfWork.run_bind_of_ok hlinks] at h
  obtain ⟨b, ts₁, hattempt, h₁⟩ := UnitOfWork.run_bind_eq_ok_iff.mp h
  obtain ⟨hload, rfl⟩ := UnitOfWork.run_attempt_eq_ok_iff.mp hattempt
  rw [hhook] at h₁
  obtain ⟨ha, rfl⟩ := UnitOfWork.run_lift_eq_ok_iff.mp h₁
  obtain rfl := Except.ok.inj ha
  exact ⟨hload, rfl⟩

section Update

variable {members : List (String × Json)} {incoming : Json}

theorem isObject_merged (s : Service) (m : Model) (id record incoming : Json) :
    (s.merged m id record incoming).IsObject :=
  (Json.IsObject.foldl_set (isObject_fromRecord _ _ _) _).set _ _

theorem identityOf_merged (hid : id ≠ .null) :
    m.identityOf (s.merged m id record incoming) = some id := by
  rw [Model.identityOf_eq_some_iff]
  exact ⟨Json.get?_set_self (Json.IsObject.foldl_set (isObject_fromRecord _ _ _) _) _ _, hid⟩

theorem get?_merged (s : Service) (id record : Json) {incoming : Json} {name : String}
    (hincoming : ∃ pairs, incoming = .ofPairs pairs) (hne : m.identity ≠ name) :
    (s.merged m id record incoming).get? name =
      (incoming.get? name).or ((s.registry.fromRecord m record).get? name) := by
  obtain ⟨pairs, rfl⟩ := hincoming
  rw [merged, Json.get?_set_of_ne _ hne]
  exact Json.get?_foldl_set_of_nodup (OrderedMap.nodup_keys (OrderedMap.ascending_ofPairs pairs))
    (isObject_fromRecord _ _ _) name

theorem get?_merged_relation (hg : s.registry.Coherent) (hm : m ∈ s.registry.models)
    (h : EntityInput.Describes m members incoming) (hr : r ∈ m.relations) (id record : Json) :
    (s.merged m id record incoming).get? r.name = (s.registry.fromRecord m record).get? r.name := by
  rw [get?_merged s id record h.exists_pairs (hg.name_ne_identity hm hr).symm,
    h.get?_relation hg hm hr, Option.none_or]

theorem relatedBy_fromRecord (hg : s.registry.Coherent) (hts : s.registry.AllFit ts)
    (hm : m ∈ s.registry.models) (hrow : ts.row? m.path key = some record) (hr : r ∈ m.relations)
    (hclosed : ∀ target, s.registry.get? r.target = some target → r ∈ m.owning →
      ∀ x ∈ (record.get r.name).references, ts.Stored target.path x) :
    s.registry.RelatedBy ts r (s.registry.fromRecord m record) := by
  intro target ht v hv
  cases ho : r.isOwning with
  | false => exact nomatch (hg.get?_fromRecord_inverse hm record hr ho).symm.trans hv
  | true =>
    have hro := List.mem_filter.mpr ⟨hr, ho⟩
    rw [hg.get?_fromRecord hm record hro ht, Option.some.injEq] at hv
    subst hv
    obtain ⟨hfits, hids⟩ := Model.embed_of_fitsSlot ((hts m hm key record hrow).slots r hro target ht)
    exact ⟨hfits, fun x hx => hclosed target ht hro x (hids ▸ hx)⟩

theorem related_fromRecord (hg : s.registry.Coherent) (hts : s.registry.Consistent ts)
    (hm : m ∈ s.registry.models) (hrow : ts.row? m.path key = some record) :
    s.registry.Related ts m (s.registry.fromRecord m record) :=
  fun r hr => relatedBy_fromRecord hg hts.fits hm hrow hr fun target ht hro x hx =>
    hts.closed m hm r hro target ht key x ⟨record, hrow, hx⟩

/-- An update with loose fields up to what its entity and the entities that are bound to it agree
on. -/
structure Revised (s : Service) (ts : Tables) (path : String) (raw : Json)
    (members : List (String × Json)) (m : Model) (id : Json) (key : RecordKey)
    (record incoming bound entity : Json) : Prop where
  model : s.registry.get? path = some m
  coerced : m.coerceIdentity raw = .ok id
  key_eq : RecordKey.of? id = some key
  row : ts.row? m.path key = some record
  describes : EntityInput.Describes m (OrderedMap.erase members m.identity) incoming
  binds : s.registry.Binds ts m (.obj (OrderedMap.erase members m.identity))
    (s.merged m id record incoming) bound
  mirrors : s.registry.Mirrors m bound entity

namespace Revised

variable {bound entity v x : Json} (hg : s.registry.Coherent)
  (h : s.Revised ts path raw members m id key record incoming bound entity)

include h

theorem mem_models : m ∈ s.registry.models :=
  (mem_of_get? h.model).1

include hg

theorem isIdentity : m.IsIdentity id ∧ m.identity? id = some id :=
  Model.isIdentity_of_coerceIdentity (hg.identityTypes m h.mem_models) h.coerced

/-- What is bound embeds stored entities, if what was there before does. -/
theorem relatedBy_bound (hts : s.registry.AllFit ts) (hr : r ∈ m.relations)
    (hold : s.registry.RelatedBy ts r (s.registry.fromRecord m record)) :
    s.registry.RelatedBy ts r bound := by
  have hmerged : s.registry.RelatedBy ts r (s.merged m id record incoming) := by
    intro target ht v hv
    rw [get?_merged_relation hg h.mem_models h.describes hr] at hv
    exact hold target ht v hv
  exact hmerged.binds hg hts h.mem_models hr h.binds

theorem related_bound (hts : s.registry.Consistent ts) : s.registry.Related ts m bound :=
  fun r hr => h.relatedBy_bound hg hts.fits hr (related_fromRecord hg hts h.mem_models h.row r hr)

theorem get?_bound_of_none (hr : r ∈ m.relations) (ht : s.registry.get? r.target = some target)
    (hnone : s.registry.bound? ts target r (.obj (OrderedMap.erase members m.identity)) = none) :
    bound.get? r.name = (s.registry.fromRecord m record).get? r.name := by
  rw [h.binds.related r hr target ht, hnone, Option.none_or,
    get?_merged_relation hg h.mem_models h.describes hr]

theorem get?_bound_of_not_namedIn (hr : r ∈ m.relations) (hnamed : ¬r.NamedIn members) :
    bound.get? r.name = (s.registry.fromRecord m record).get? r.name := by
  obtain ⟨t, ht⟩ := hg.exists_target h.mem_models hr
  exact h.get?_bound_of_none hg hr ht (bound?_of_not_namedIn (mt Relation.NamedIn.of_erase hnamed))

omit hg in
theorem get_bound (hr : r ∈ m.relations) (ht : s.registry.get? r.target = some target)
    (hv : s.registry.bound? ts target r (.obj (OrderedMap.erase members m.identity)) = some v) :
    bound.get r.name = v := by
  rw [Json.get, h.binds.related r hr target ht, hv]
  rfl

theorem namedIn_of_mem_identitiesOf (hr : r ∈ m.relations) {owner : String}
    (hmb : r.mappedBy = some owner) (hx : x ∈ target.identitiesOf (bound.get r.name)) :
    r.NamedIn members := by
  by_contra hnamed
  have hnone := hg.get?_fromRecord_inverse h.mem_models record hr (Relation.isOwning_of_some hmb)
  rw [Json.get, h.get?_bound_of_not_namedIn hg hr hnamed, hnone] at hx
  exact absurd hx List.not_mem_nil

theorem mem_references_saved (hts : s.registry.AllFit ts) (hr : r ∈ m.owning)
    (ht : s.registry.get? r.target = some target) (hrelated : s.registry.RelatedBy ts r bound)
    (hkept : bound.get? r.name = (s.registry.fromRecord m record).get? r.name) :
    x ∈ ((s.registry.toRecord m entity).get r.name).references ↔
      x ∈ (record.get r.name).references ∧ target.identity? x = some x := by
  have hrm := (List.mem_filter.mp hr).1
  have hslot := (hts m h.mem_models key record h.row).slots r hr target ht
  rw [hg.get?_fromRecord h.mem_models record hr ht] at hkept
  rw [(hrelated.mirrors hrm h.mirrors).mem_references_toRecord hg h.mem_models hr ht,
    h.mirrors.identitiesOf_get hrm ht, Json.get_of_get? hkept, (Model.embed_of_fitsSlot hslot).2]

theorem identityOf_eq : m.identityOf (s.registry.toRecord m entity) = some id := by
  have hothers : ∀ r ∈ m.relations, r.name ≠ m.identity :=
    fun r hr => hg.name_ne_identity h.mem_models hr
  rw [hg.identityOf_toRecord h.mem_models, Model.identityOf_congr (h.mirrors.others m.identity hothers),
    Model.identityOf_congr (h.binds.others m.identity hothers),
    identityOf_merged (h.isIdentity hg).1.ne_null]

theorem fits : s.registry.Fits m key (s.registry.toRecord m entity) := by
  obtain ⟨hform, hself⟩ := h.isIdentity hg
  exact hg.fits_toRecord h.mem_models (hg.identityOf_toRecord h.mem_models entity ▸ h.identityOf_eq hg)
    hform h.key_eq fun _ => hself

end Revised

/-- A successful update with loose fields. -/
structure Updated (s : Service) (ts ts' : Tables) (path : String) (raw : Json)
    (members : List (String × Json)) (a : Json) (m : Model) (id : Json) (key : RecordKey)
    (record incoming bound entity : Json) : Prop extends
    Revised s ts path raw members m id key record incoming bound entity where
  settled : s.Settled ts ts' m key id (s.registry.toRecord m entity) bound
  answer : s.loaded ts' m (s.registry.toRecord m entity) = .ok a

theorem exists_updated (hs : s.IsPlain) (hts : s.registry.Consistent ts) {raw : Json}
    {u : UnitOfWork Json} (h : s.revision path raw (.fields members) = .ok u)
    (hrun : u.run ts = (.ok a, ts')) :
    ∃ m id key record incoming bound entity,
      s.Updated ts ts' path raw members a m id key record incoming bound entity := by
  have hg := hs.coherent
  obtain ⟨m, hresolve, h₁⟩ := bind_eq_ok_iff.mp h
  obtain ⟨id, hcoerce, h₂⟩ := bind_eq_ok_iff.mp h₁
  obtain ⟨incoming, hentity, h₃⟩ := bind_eq_ok_iff.mp h₂
  rw [← pure_eq_ok_iff.mp h₃] at hrun
  have hmodel := resolve_eq_ok_iff.mp hresolve
  have hm := (mem_of_get? hmodel).1
  obtain ⟨hform, hself⟩ := Model.isIdentity_of_coerceIdentity (hg.identityTypes m hm) hcoerce
  obtain ⟨key, hk⟩ := hform.exists_key
  have hdescribes := EntityInput.describes_of_toEntity (hg.distinctNames m hm) hentity
  obtain ⟨record, ts₁, hexisting, hrun₁⟩ := UnitOfWork.run_bind_eq_ok_iff.mp hrun
  obtain ⟨hrow, rfl⟩ := run_existing hexisting hk
  obtain ⟨bound, entity, hagreed, hbinds, hmirrors⟩ := exists_agree_fields hg hm ts₁
    (OrderedMap.erase members m.identity) (isObject_merged s m id record incoming)
  have hrun₂ := run_agreed (fun entity => by rw [hs.hooks]; rfl) hagreed hrun₁
  have hrevised : s.Revised ts₁ path raw members m id key record incoming bound entity :=
    ⟨hmodel, hcoerce, hk, hrow, hdescribes, hbinds, hmirrors⟩
  have hrelated := hrevised.related_bound hg hts
  have hsaved := hrevised.identityOf_eq hg
  obtain ⟨next, ts'', hspread₁, hspread₂, hsettled⟩ := exists_settled hs hts hm (hrevised.fits hg) hsaved
    (fun r hr target ht x hx => have hrm := (List.mem_filter.mp hr).1
      ((hrelated r hrm).mirrors hrm hmirrors).stored_of_mem_references hg hm hr ht hx) hrelated
  rw [UnitOfWork.run_bind_of_ok (UnitOfWork.run_merge hsaved hk _)] at hrun₂
  obtain ⟨hload, rfl⟩ := run_answer (fun entity => by rw [hs.hooks]; rfl) hspread₁ hspread₂ hrun₂
  exact ⟨m, id, key, record, incoming, bound, entity, hrevised, hsettled, hload⟩

end Update

section Create

variable {members : List (String × Json)}

theorem fits_set_identity (hg : s.registry.Coherent) (hm : m ∈ s.registry.models)
    (hform : m.IsIdentity id) (hk : RecordKey.of? id = some key)
    (hself : m.identityGenerated = false → m.identity? id = some id) (entity : Json) :
    s.registry.Fits m key ((s.registry.toRecord m entity).set m.identity id) := by
  have hobject := isObject_toRecord s.registry m entity
  refine ⟨hobject.set _ _, ⟨id, ?_, hform, hk, hself⟩, fun r hr target ht => ?_⟩
  · exact Model.identityOf_eq_some_iff.mpr ⟨Json.get?_set_self hobject _ _, hform.ne_null⟩
  · rw [Json.get_set_of_ne _ (hg.name_ne_identity hm (List.mem_filter.mp hr).1).symm]
    exact hg.fitsSlot_toRecord hm entity hr ht

def creationMembers (m : Model) (members : List (String × Json)) : List (String × Json) :=
  if m.identityGenerated then OrderedMap.erase members m.identity else members

structure Created (s : Service) (ts ts' : Tables) (path : String) (members : List (String × Json))
    (a : Json) (m : Model) (id : Json) (key : RecordKey) (described bound entity : Json) (next : Tables) :
    Prop where
  model : s.registry.get? path = some m
  key_eq : RecordKey.of? id = some key
  free : ts.row? m.path key = none
  describes : EntityInput.Describes m (creationMembers m members) described
  same : ∀ path key, next.row? path key = ts.row? path key
  binds : s.registry.Binds ts m (.obj (creationMembers m members)) described bound
  mirrors : s.registry.Mirrors m bound entity
  settled : s.Settled next ts' m key id ((s.registry.toRecord m entity).set m.identity id) bound
  answer : s.loaded ts' m ((s.registry.toRecord m entity).set m.identity id) = .ok a

theorem create_input (m : Model) (members : List (String × Json)) :
    (if m.identityGenerated then (EntityInput.fields members).without m.identity
      else .fields members) = .fields (creationMembers m members) := by
  unfold creationMembers
  split <;> rfl

theorem consistent_of_rows (hg : s.registry.Coherent) (hts : s.registry.Consistent ts)
    (h : ∀ path key, ts'.row? path key = ts.row? path key) : s.registry.Consistent ts' := by
  refine hts.of_cuts hg (fun c hc => absurd hc List.not_mem_nil) (fun path key => ?_)
  rw [h]
  exact Option.map_id'.symm

theorem stored_of_rows (h : ∀ path key, ts'.row? path key = ts.row? path key) {x : Json}
    (hst : ts.Stored path x) : ts'.Stored path x :=
  (Tables.stored_congr (fun key => congrArg Option.isSome (h path key)) x).mpr hst

theorem run_creation_identity (hs : s.IsPlain) (hm : m ∈ s.registry.models) {entity : Json}
    (hentity : ∀ x, m.identityOf entity = some x → m.IsIdentity x ∧ m.identity? x = some x)
    (h : (match m.identityOf entity with
      | some id => pure id
      | none => UnitOfWork.nextIdentity s.fresh m : UnitOfWork Json).run ts = (.ok id, ts')) :
    m.IsIdentity id ∧ (m.identityGenerated = false → m.identity? id = some id) ∧
      ∀ path key, ts'.row? path key = ts.row? path key := by
  split at h
  · next x hx =>
    obtain ⟨rfl, rfl⟩ := UnitOfWork.run_pure_eq_ok_iff.mp h
    exact ⟨(hentity x hx).1, fun _ => (hentity x hx).2, fun _ _ => rfl⟩
  · have hgenerated := (UnitOfWork.nextIdentity_cases h).1
    obtain ⟨-, hform, hrows⟩ := UnitOfWork.run_nextIdentity (hs.fresh m hm hgenerated) h
    exact ⟨hform, fun hfalse => (nomatch hgenerated.symm.trans hfalse), hrows⟩

theorem exists_created (hs : s.IsPlain) (hts : s.registry.Consistent ts) {u : UnitOfWork Json}
    (h : s.creation path (.fields members) = .ok u) (hrun : u.run ts = (.ok a, ts')) :
    ∃ m id key described bound entity next,
      s.Created ts ts' path members a m id key described bound entity next := by
  have hg := hs.coherent
  obtain ⟨m, hresolve, h₁⟩ := bind_eq_ok_iff.mp h
  dsimp only at h₁
  rw [create_input] at h₁
  obtain ⟨described, hentity, h₂⟩ := bind_eq_ok_iff.mp h₁
  rw [← pure_eq_ok_iff.mp h₂] at hrun
  have hmodel := resolve_eq_ok_iff.mp hresolve
  have hm := (mem_of_get? hmodel).1
  have hdescribes := EntityInput.describes_of_toEntity (hg.distinctNames m hm) hentity
  obtain ⟨bound, entity, hagreed, hbinds, hmirrors⟩ := exists_agree_fields hg hm ts
    (creationMembers m members) hdescribes.isObject
  have hrun₁ := run_agreed (fun entity => by rw [hs.hooks]; rfl) hagreed hrun
  obtain ⟨saved, ts₁, hpersist, hrun₂⟩ := UnitOfWork.run_bind_eq_ok_iff.mp hrun₁
  rw [UnitOfWork.persist_eq s.fresh m (isObject_toRecord s.registry m entity)] at hpersist
  obtain ⟨id, next, hid, hpersist⟩ := UnitOfWork.run_bind_eq_ok_iff.mp hpersist
  obtain ⟨rfl, key, hk, hfree, rfl⟩ := UnitOfWork.run_persistAs hpersist
  have hothers : ∀ r ∈ m.relations, r.name ≠ m.identity := fun r hr => hg.name_ne_identity hm hr
  have hidentityOf : m.identityOf (s.registry.toRecord m entity) = m.identityOf described := by
    rw [hg.identityOf_toRecord hm, Model.identityOf_congr (hmirrors.others m.identity hothers),
      Model.identityOf_congr (hbinds.others m.identity hothers)]
  obtain ⟨hform, hself, hrows⟩ := run_creation_identity hs hm (fun x hx => by
    obtain ⟨raw, -, hcoerce⟩ := hdescribes.identity x (hidentityOf ▸ hx)
    exact Model.isIdentity_of_coerceIdentity (hg.identityTypes m hm) hcoerce) hid
  have hfits := fits_set_identity hg hm hform hk hself entity
  have hsaved := Model.identityOf_eq_some_iff.mpr
    ⟨Json.get?_set_self (isObject_toRecord s.registry m entity) m.identity id, hform.ne_null⟩
  have hrelated : s.registry.Related ts m bound := fun r hr =>
    (RelatedBy.of_none (hdescribes.get?_relation hg hm hr)).binds hg hts.fits hm hr hbinds
  have hboundRelated : s.registry.Related next m bound := by
    intro r hr target ht v hv
    obtain ⟨hfits, hst⟩ := hrelated r hr target ht v hv
    exact ⟨hfits, fun x hx => stored_of_rows hrows (hst x hx)⟩
  obtain ⟨mid, ts'', hspread₁, hspread₂, hsettled⟩ := exists_settled hs
    (consistent_of_rows hg hts hrows) hm hfits hsaved (fun r hr target ht x hx => by
      have hrm := (List.mem_filter.mp hr).1
      rw [Json.get_set_of_ne _ (hothers r hrm).symm] at hx
      exact stored_of_rows hrows (((hrelated r hrm).mirrors hrm hmirrors).stored_of_mem_references
        hg hm hr ht hx)) hboundRelated
  rw [hsaved] at hrun₂
  obtain ⟨hload, rfl⟩ := run_answer (fun entity => by rw [hs.hooks]; rfl) hspread₁ hspread₂ hrun₂
  exact ⟨m, id, key, described, bound, entity, next, hmodel, hk, by rw [← hrows, hfree], hdescribes,
    hrows, hbinds, hmirrors, hsettled, hload⟩

end Create

section Delete

variable {raw : Json} {u : UnitOfWork Unit}

/-- A deletion succeeds only for an identity that is stored. -/
theorem stored_of_run_delete (h : s.deletion path raw = .ok u) (hrun : u.run ts = (.ok (), ts')) :
    ∃ m id, s.registry.get? path = some m ∧ m.coerceIdentity raw = .ok id ∧ ts.Stored m.path id := by
  obtain ⟨m, hresolve, h₁⟩ := bind_eq_ok_iff.mp h
  obtain ⟨id, hcoerce, h₂⟩ := bind_eq_ok_iff.mp h₁
  rw [← pure_eq_ok_iff.mp h₂] at hrun
  have hmodel := resolve_eq_ok_iff.mp hresolve
  obtain ⟨⟨⟩, ts₁, hdiscard, -⟩ := UnitOfWork.run_bind_eq_ok_iff.mp hrun
  obtain ⟨record, hexisting⟩ := UnitOfWork.run_discard_eq_ok_iff.mp hdiscard
  have hfound := existing_eq_ok_iff.mp (UnitOfWork.run_attempt_eq_ok_iff.mp hexisting).1
  exact ⟨m, id, hmodel, hcoerce, Tables.stored_of_find? hfound⟩

theorem run_delete (hs : s.IsPlain) (hts : s.registry.AllFit ts)
    (hpath : s.registry.get? path = some m) (hcoerce : m.coerceIdentity raw = .ok id)
    (hst : ts.Stored m.path id) :
    ∃ u key next, s.deletion path raw = .ok u ∧ RecordKey.of? id = some key ∧
      ((s.ownersOf m).forM fun (other, r) => s.detach other r id fun _ => false).run ts =
        (.ok (), next) ∧ ts.Rewrites next (Cut.applyAll (s.referencesTo m id)) ∧
          u.run ts = (.ok (), next.erase m.path key) := by
  have hg := hs.coherent
  have hm := (mem_of_get? hpath).1
  obtain ⟨hform, -⟩ := Model.isIdentity_of_coerceIdentity (hg.identityTypes m hm) hcoerce
  obtain ⟨key, hk⟩ := hform.exists_key
  obtain ⟨record, hfound⟩ := Option.isSome_iff_exists.mp hst
  obtain ⟨next, hdetach, hnext⟩ := run_detachAll hg hs.names hts hm hform hst
  have hpresent : (next.row? m.path key).isSome = true := by
    rw [hnext.isSome_row?, ← Tables.find?_eq_row? hk, hfound]
    rfl
  have hplan : s.deletion path raw = .ok (do
      discard (UnitOfWork.attempt fun ts => existing ts m id)
      (s.ownersOf m).forM fun (other, r) => s.detach other r id fun _ => false
      if ← UnitOfWork.remove m id then pure () else throw (.entityNotFound m.path id)) := by
    rw [deletion, resolve_eq_ok_iff.mpr hpath, ok_bind, hcoerce, ok_bind]
    rfl
  refine ⟨_, key, next, hplan, hk, hdetach, hnext, ?_⟩
  rw [UnitOfWork.run_bind_of_ok (UnitOfWork.run_discard_eq_ok_iff.mpr ⟨record,
      UnitOfWork.run_attempt_eq_ok_iff.mpr ⟨existing_eq_ok_iff.mpr hfound, rfl⟩⟩),
    UnitOfWork.run_bind_of_ok hdetach, UnitOfWork.run_bind_of_ok (UnitOfWork.run_remove hk next),
    hpresent]
  rfl

theorem delete_keeps (hs : s.IsPlain) (hts : s.registry.Consistent ts)
    (h : s.deletion path raw = .ok u) (hrun : u.run ts = (.ok (), ts')) :
    s.registry.Consistent ts' := by
  have hg := hs.coherent
  obtain ⟨m, id, hmodel, hcoerce, hst⟩ := stored_of_run_delete h hrun
  obtain ⟨u', key, next, hplan, hk, -, hnext, hdone⟩ := run_delete hs hts.fits hmodel hcoerce hst
  obtain rfl := Except.ok.inj (h.symm.trans hplan)
  rw [hdone, Prod.mk.injEq] at hrun
  rw [← hrun.2]
  have hm := (mem_of_get? hmodel).1
  obtain ⟨hform, -⟩ := Model.isIdentity_of_coerceIdentity (hg.identityTypes m hm) hcoerce
  have hproper : ∀ c ∈ s.referencesTo m id, ∃ target, c.IsProper s.registry target :=
    fun c hc => ⟨m, isProper_of_mem_referencesTo hm hform hc⟩
  refine (hts.of_cuts hg hproper hnext).erase hg hm hform hk fun n hn r hr ht k hx => ?_
  have htarget := (hg.target_path hn (List.mem_filter.mp hr).1 ht).2
  have hcut := ((hts.fits.refers_of_cuts hg hproper hnext hn hr).mp hx).2
  exact hcut _ (mem_referencesTo_iff.mpr ⟨n, hn, r, hr, htarget.symm, rfl⟩) ⟨rfl, rfl, rfl, rfl⟩

end Delete

end Service

end EntityGraph
