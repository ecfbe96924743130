import EntityGraph.Proofs.Service.Shape

namespace EntityGraph

/-- What may become of a record of a table, in one step or in several. -/
structure RowChange where
  allows : String → Json → Json → Prop
  refl : ∀ path record, allows path record record
  trans : ∀ path a b c, allows path a b → allows path b c → allows path a c

namespace RowChange

/-- Some records stay as they are. -/
def sparing (spared : String → Json → Prop) : RowChange where
  allows path old new := spared path old → new = old
  refl _ _ _ := rfl
  trans _ _ _ _ hab hbc ha := by
    obtain rfl := hab ha
    exact hbc ha

/-- The slot of one relation stays as it is. -/
def keeping (n : Model) (c : Relation) : RowChange where
  allows path old new := path = n.path → new.get c.name = old.get c.name
  refl _ _ _ := rfl
  trans _ _ _ _ hab hbc hp := (hbc hp).trans (hab hp)

/-- References may be written into a slot and taken from it. -/
structure Admits (q : RowChange) (m : Model) (r : Relation) : Prop where
  linked : ∀ record id, record.IsObject →
    q.allows m.path record (record.linked r.name id r.isCollection)
  unlinked : ∀ record id, q.allows m.path record (record.unlinked r.name id r.isCollection)

theorem sparing_admits (m : Model) (r : Relation) :
    (sparing fun path _ => path ≠ m.path).Admits m r :=
  ⟨fun _ _ _ h => absurd rfl h, fun _ _ h => absurd rfl h⟩

end RowChange

/-- Later tables with the same records, all of which fit, up to what may become of them. -/
structure Registry.Refits (g : Registry) (q : RowChange) (ts ts' : Tables) : Prop where
  fits : g.AllFit ts'
  rows : ∀ path key, Option.Rel (q.allows path) (ts.row? path key) (ts'.row? path key)

namespace Registry

variable {g : Registry} {q : RowChange} {ts ts' ts'' : Tables} {m n target : Model}
  {r c : Relation} {key : RecordKey} {record changed id : Json} {path : String}

theorem keeping_admits (hg : g.Coherent) (hm : m ∈ g.models) (hn : n ∈ g.models) (hr : r ∈ m.owning)
    (hc : c ∈ n.owning) (hne : m = n → r ≠ c) : (RowChange.keeping n c).Admits m r := by
  have hname (hp : m.path = n.path) : r.name ≠ c.name := by
    obtain rfl := eq_of_path hm hn hp
    exact fun h => hne rfl (hg.eq_of_name hm (List.mem_filter.mp hr).1 (List.mem_filter.mp hc).1 h)
  exact ⟨fun record id hobject hp => Json.get_linked_of_ne hobject (hname hp),
    fun record id hp => Json.get_unlinked_of_ne record (hname hp)⟩

theorem AllFit.refits_self (h : g.AllFit ts) : g.Refits q ts ts := by
  refine ⟨h, fun path key => ?_⟩
  cases ts.row? path key with
  | none => exact .none
  | some record => exact .some (q.refl path record)

namespace Refits

theorem trans (h : g.Refits q ts ts') (h' : g.Refits q ts' ts'') : g.Refits q ts ts'' := by
  refine ⟨h'.fits, fun path key => ?_⟩
  have hold := h.rows path key
  have hnew := h'.rows path key
  revert hold hnew
  generalize ts.row? path key = a
  generalize ts'.row? path key = b
  generalize ts''.row? path key = c
  rintro (hab | _) (hbc | _)
  · exact .some (q.trans path _ _ _ hab hbc)
  · exact .none

theorem mono {q' : RowChange} (h : g.Refits q ts ts')
    (hq : ∀ path old new, q.allows path old new → q'.allows path old new) : g.Refits q' ts ts' := by
  refine ⟨h.fits, fun path key => ?_⟩
  have hrows := h.rows path key
  revert hrows
  generalize ts.row? path key = a
  generalize ts'.row? path key = b
  rintro (hab | _)
  · exact .some (hq path _ _ hab)
  · exact .none

theorem isSome_row? (h : g.Refits q ts ts') (path : String) (key : RecordKey) :
    (ts'.row? path key).isSome = (ts.row? path key).isSome := by
  have hrows := h.rows path key
  revert hrows
  generalize ts.row? path key = a
  generalize ts'.row? path key = b
  rintro (_ | _) <;> rfl

theorem exists_row (h : g.Refits q ts ts') (hrow : ts.row? path key = some record) :
    ∃ new, ts'.row? path key = some new ∧ q.allows path record new := by
  have hrows := h.rows path key
  rw [hrow] at hrows
  cases hnew : ts'.row? path key with
  | none =>
    rw [hnew] at hrows
    cases hrows
  | some new =>
    rw [hnew, Option.rel_some_some] at hrows
    exact ⟨new, rfl, hrows⟩

theorem put (h : g.Refits q ts ts') (hm : m ∈ g.models) (hfits : g.Fits m key changed)
    (hrow : ts.row? m.path key = some record) (hq : q.allows m.path record changed) :
    g.Refits q ts (ts'.put m.path key changed) := by
  refine ⟨allFit_put h.fits hm hfits, fun path k => ?_⟩
  rw [Tables.row?_put]
  split
  · next hp =>
    obtain ⟨rfl, rfl⟩ := hp
    rw [hrow]
    exact .some hq
  · exact h.rows path k

end Refits

theorem AllFit.of_rows (hts : g.AllFit ts)
    (hrows : ∀ path key record, ts'.row? path key = some record → ts.row? path key = some record) :
    g.AllFit ts' :=
  fun m hm key record hrow => hts m hm key record (hrows m.path key record hrow)

theorem Fits.eq_of_identityOf {k : RecordKey} (h : g.Fits m key record)
    (hid : m.identityOf record = some id) (hk : RecordKey.of? id = some k) : key = k := by
  have hkey := h.key?_eq
  rw [Model.key?, hid, Option.bind_some, hk] at hkey
  exact (Option.some.inj hkey).symm

end Registry

namespace Service

open Registry UnitOfWork EntityInput

variable {s : Service} {q : RowChange} {ts : Tables} {m target : Model} {r : Relation}
  {record id root : Json} {key : RecordKey} {path : String}

section Steps

variable (hg : s.registry.Coherent) (hts : s.registry.AllFit ts) (hm : m ∈ s.registry.models)

include hm in
theorem merge_refits {ts₁ : Tables} (hts₁ : s.registry.Refits q ts ts₁)
    (h : s.registry.Fits m key record) {old : Json} (hrow : ts.row? m.path key = some old)
    (hq : q.allows m.path old record) :
    (merge m record).Leaves ts₁ fun _ => s.registry.Refits q ts := by
  refine (Leaves.merge m record ts₁).mono fun _ ts' hmerged => ?_
  obtain ⟨-, id, k, hid, hk, rfl⟩ := hmerged
  obtain rfl := h.eq_of_identityOf hid hk
  exact hts₁.put hm h hrow hq

include hg hts hm

theorem detach_refits (hr : r ∈ m.owning) (id : Json) (exempt : Json → Bool)
    (hq : ∀ record, exempt record = false →
      q.allows m.path record (record.unlinked r.name id r.isCollection)) :
    (s.detach m r id exempt).Leaves ts fun _ => s.registry.Refits q ts := by
  refine .bind_attempt fun holders hfound => ?_
  have hholders (holder : Json) (h : holder ∈ holders) :
      ∃ key, ts.row? m.path key = some holder := by
    cases hp : references s.registry m r.name id with
    | error e => rw [hp] at hfound; cases hfound
    | ok p =>
      rw [hp] at hfound
      obtain rfl := Except.ok.inj hfound
      exact Tables.mem_records_iff.mp (List.mem_filter.mp h).1
  refine .forM hts.refits_self fun holder hholder ts₁ hts₁ => ?_
  obtain ⟨key, hrow⟩ := hholders holder hholder
  split
  · exact .pure hts₁
  · next hexempt =>
    split
    · next changed hchanged =>
      have hunlinked := Json.unlinked_of_clearReference hchanged
      exact (merge_refits hm hts₁ (hunlinked ▸ (hts m hm key holder hrow).unlinked hg hm hr id) hrow
        (hunlinked ▸ hq holder (Bool.eq_false_iff.mpr hexempt))).discard
    · exact .pure hts₁

theorem unshare_refits (field : String) (holder referenced : Json)
    (hq : ∀ r ∈ m.owning, r.name = field → ∀ record,
      ((m.identityOf record).map (·.sameIdentity holder)).getD false = false →
        q.allows m.path record (record.unlinked r.name referenced r.isCollection)) :
    (s.unshare m field holder referenced).Leaves ts fun _ => s.registry.Refits q ts := by
  unfold unshare
  split
  · next r hr =>
    obtain ⟨hrm, rfl⟩ := mem_of_relation? hr
    split
    · next hkind =>
      have hro := List.mem_filter.mpr ⟨hrm, hkind.2⟩
      exact detach_refits hg hts hm hro referenced _ (hq r hro rfl)
    · exact .pure hts.refits_self
  · exact .pure hts.refits_self

/-- What a record claims is taken from other records only. -/
theorem unshareAll_refits (hid : m.IsIdentity id)
    (hq : ∀ r ∈ m.owning, ∀ old referenced, m.identityOf old ≠ some id →
      q.allows m.path old (old.unlinked r.name referenced r.isCollection)) (record : Json) :
    (s.unshareAll m id record).Leaves ts fun _ => s.registry.Refits q ts := by
  have hself : id.sameIdentity id = true := hid.sameIdentity_self
  unfold unshareAll
  refine .forM hts.refits_self fun r _ ts₁ hts₁ => ?_
  split
  · next referenced _ =>
    refine (unshare_refits hg hts₁.fits hm r.name id referenced fun o ho _ old hother => ?_).mono
      fun _ _ => hts₁.trans
    refine hq o ho old referenced fun hold => ?_
    rw [hold, Option.map_some, Option.getD_some, hself] at hother
    cases hother
  · exact .pure hts₁

omit hm in
/-- A link to the root is written into the record that it names, and into no other. -/
theorem writeBackLink_refits {link : BackLink} (hlink : LeadsBack s.registry m link target r)
    (hroot : m.IsIdentity root)
    (hlinked : ∀ record, record.IsObject → target.key? record = RecordKey.of? link.id →
      q.allows target.path record (record.linked r.name root r.isCollection))
    (hunlinked : ∀ record, q.allows target.path record (record.unlinked r.name root r.isCollection)) :
    (s.writeBackLink root link).Leaves ts fun _ => s.registry.Refits q ts := by
  have htm := hlink.mem_models
  rw [writeBackLink_eq]
  refine .bind_lift fun found hfound => .bind_read ?_
  rw [hlink.link_eq, resolve_eq_ok_iff, get?_path htm, Option.some.injEq] at hfound
  subst hfound
  rw [hlink.link_eq]
  cases hfind : ts.find? target.path link.id with
  | none => exact .pure hts.refits_self
  | some record =>
    obtain ⟨key, hk, hrow⟩ := Option.bind_eq_some_iff.mp hfind
    have hfits := hts target htm key record hrow
    refine Leaves.bind (Q := fun _ => s.registry.Refits q ts) ?_ fun _ ts₁ hts₁ => ?_
    · split
      · next changed hchanged =>
        have hnew := Json.linked_of_setReference hchanged
        exact (merge_refits htm hts.refits_self
          (hnew ▸ hfits.linked hg htm hlink.mem_owning hlink.back hroot) hrow
          (hnew ▸ hlinked record hfits.isObject (hfits.key?_eq.trans hk.symm))).discard
      · exact .pure hts.refits_self
    · split
      · exact .pure hts₁
      · refine (unshare_refits hg hts₁.fits htm _ _ _ fun o ho hn old _ => ?_).mono
          fun _ _ => hts₁.trans
        obtain rfl := hg.eq_of_name htm (Model.mem_owning_iff.mp ho).1
          (Model.mem_owning_iff.mp hlink.mem_owning).1 hn
        exact hunlinked old

omit hm in
theorem writeBackLinks_refits {links : List BackLink} (hroot : m.IsIdentity root)
    (hlinks : ∀ link ∈ links, ∃ target r, LeadsBack s.registry m link target r ∧
      (∀ record, record.IsObject → target.key? record = RecordKey.of? link.id →
        q.allows target.path record (record.linked r.name root r.isCollection)) ∧
      ∀ record, q.allows target.path record (record.unlinked r.name root r.isCollection)) :
    (s.writeBackLinks links root).Leaves ts fun _ => s.registry.Refits q ts := by
  unfold writeBackLinks
  refine .forM hts.refits_self fun link hlink ts₁ hts₁ => ?_
  obtain ⟨target, r, hback, hlinked, hunlinked⟩ := hlinks link hlink
  exact (writeBackLink_refits hg hts₁.fits hback hroot hlinked hunlinked).mono fun _ _ => hts₁.trans

end Steps

/-- What a call leaves behind that answers with the entity of a record: the record stands under its
identity, and if the answer is `current` it stands there as it was written. -/
structure Answered (s : Service) (current : Prop) (m : Model) (id saved e : Json) (ts : Tables) : Prop where
  fits : s.registry.AllFit ts
  isIdentity : m.IsIdentity id
  identity : m.identityOf saved = some id
  stored : ts.Stored m.path id
  same : current → ts.find? m.path id = some saved
  loaded : s.loaded ts m saved = .ok e

section Calls

variable (hg : s.registry.Coherent) (hts : s.registry.AllFit ts) {current : Prop} {saved : Json}

include hg hts

theorem settle_answers (hm : m ∈ s.registry.models) (hfits : s.registry.Fits m key saved)
    (hid : m.identityOf saved = some id) (hrow : ts.row? m.path key = some saved)
    {links : List BackLink} (hlinks : ∀ link ∈ links, ∃ target r,
      LeadsBack s.registry m link target r ∧ (current → target.path = m.path →
        RecordKey.of? link.id ≠ some key ∧ saved.clearReference r.name id r.isCollection = none))
    {hook : Json → Except Error Json} (hhook : ∀ e, hook e = .ok e) :
    (s.unshareAll m id saved >>= fun _ => s.writeBackLinks links id >>= fun _ =>
      (attempt fun ts => s.loaded ts m saved) >>= fun loaded =>
        (liftM (hook loaded) : UnitOfWork Json)).Leaves ts (s.Answered current m id saved) := by
  obtain ⟨x, hx, hform, hk, -⟩ := hfits.identity
  obtain rfl := Option.some.inj (hid.symm.trans hx)
  let q := RowChange.sparing fun path record => current ∧ path = m.path ∧ record = saved
  have hclaims : (s.unshareAll m id saved).Leaves ts fun _ => s.registry.Refits q ts := by
    refine unshareAll_refits hg hts hm hform (fun r _ old _ hother hs => ?_) saved
    exact absurd (hs.2.2 ▸ hid) hother
  have hlinked (ts₁ : Tables) (hts₁ : s.registry.AllFit ts₁) :
      (s.writeBackLinks links id).Leaves ts₁ fun _ => s.registry.Refits q ts₁ := by
    refine writeBackLinks_refits hg hts₁ hform fun link hlink => ?_
    obtain ⟨target, r, hback, hother⟩ := hlinks link hlink
    refine ⟨target, r, hback, fun record _ hkey hs => ?_, fun record hs => ?_⟩
    · obtain ⟨hcurrent, hp, rfl⟩ := hs
      obtain rfl := eq_of_path hback.mem_models hm hp
      exact absurd (hkey.symm.trans hfits.key?_eq) (hother hcurrent rfl).1
    · obtain ⟨hcurrent, hp, rfl⟩ := hs
      obtain rfl := eq_of_path hback.mem_models hm hp
      rw [Json.unlinked, (hother hcurrent rfl).2, Option.getD_none]
  refine hclaims.bind fun _ ts₁ hts₁ => (hlinked ts₁ hts₁.fits).bind fun _ ts₂ hts₂ => ?_
  have hlast := hts₁.trans hts₂
  refine .bind_attempt fun loaded hloaded => .lift fun e he => ?_
  rw [hhook, Except.ok.injEq] at he
  refine ⟨hlast.fits, hform, hid, (Tables.stored_iff hk).mpr ?_, fun hcurrent => ?_,
    he ▸ hloaded⟩
  · rw [hlast.isSome_row?, hrow]
    rfl
  · obtain ⟨new, hnew, hsame⟩ := hlast.exists_row hrow
    rw [Tables.find?_eq_row? hk, hnew, hsame ⟨hcurrent, rfl, rfl⟩]

omit hg hts in
theorem accepted_of_nextIdentity (huuids : s.GivesUuids) (hm : m ∈ s.registry.models)
    {next : Tables} (h : (nextIdentity s.fresh m).run ts = (.ok id, next))
    (hroom : m.identityType = .integer → (ts.table m.path).sequence < 0x7fffffff) :
    m.identity? id = some id := by
  obtain ⟨hgen, hform, -⟩ := run_nextIdentity (huuids m hm (nextIdentity_cases h).1) h
  refine hform.identity?_eq_self fun n hn => ?_
  obtain ⟨-, ⟨hint, hnumber⟩ | ⟨-, rfl, -⟩⟩ := nextIdentity_cases h
  · obtain ⟨⟨k, rfl, hvalue, hsmall⟩, -⟩ := run_nextNumber hnumber
    obtain rfl := Number.whole.inj (Json.num.inj hn)
    cases ht : m.identityType with
    | integer =>
      have := hroom ht
      simp only [FieldType.holds, Bool.and_eq_true, decide_eq_true_eq]
      omega
    | long =>
      simp only [FieldType.holds, Bool.and_eq_true, decide_eq_true_eq]
      omega
    | _ => rw [ht] at hint; cases hint
  · cases hn

/-- A record that has been added for an entity, under a key that was free. -/
structure Added (s : Service) (ts : Tables) (m : Model) (e id saved : Json) (key : RecordKey)
    (ts' : Tables) : Prop where
  saved_eq : saved = (s.registry.toRecord m e).set m.identity id
  identity : m.identityOf saved = some id
  key_eq : RecordKey.of? id = some key
  fits : s.registry.Fits m key saved
  allFit : s.registry.AllFit ts'
  free : ts.row? m.path key = none
  rows : ∀ path k, ts'.row? path k = (ts.put m.path key saved).row? path k
  accepted : (m.identityGenerated = true → m.identityType = .integer →
    (ts.table m.path).sequence < 0x7fffffff) → m.identity? id = some id

/-- The identity of a record that is added is its own, which has been accepted, or a new one. -/
theorem persist_adds (huuids : s.GivesUuids) (hm : m ∈ s.registry.models) {e : Json}
    (hown : ∀ id, m.identityOf e = some id → m.IsIdentity id ∧ m.identity? id = some id) :
    (persist s.fresh m (s.registry.toRecord m e)).Leaves ts fun saved ts' =>
      ∃ id key, s.Added ts m e id saved key ts' := by
  have hobject := isObject_toRecord s.registry m e
  refine (Leaves.persist hobject).mono fun saved ts₁ hpersist => ?_
  obtain ⟨id, next, key, hnew, rfl, hk, hfree, rfl⟩ := hpersist
  have hnext : m.IsIdentity id ∧ (m.identityGenerated = false → m.identity? id = some id) ∧
      ((m.identityGenerated = true → m.identityType = .integer →
        (ts.table m.path).sequence < 0x7fffffff) → m.identity? id = some id) ∧
      ∀ path key, next.row? path key = ts.row? path key := by
    rcases hnew with ⟨hid, rfl⟩ | ⟨-, hrun⟩
    · obtain ⟨hform, hself⟩ := hown id (hg.identityOf_toRecord hm e ▸ hid)
      exact ⟨hform, fun _ => hself, fun _ => hself, fun _ _ => rfl⟩
    · have hgen := (nextIdentity_cases hrun).1
      obtain ⟨-, hform, hrows⟩ := run_nextIdentity (huuids m hm hgen) hrun
      exact ⟨hform, fun hfalse => (nomatch hgen.symm.trans hfalse),
        fun hroom => accepted_of_nextIdentity huuids hm hrun (hroom hgen), hrows⟩
  obtain ⟨hform, hself, haccepted, hrows⟩ := hnext
  have hfits := fits_set_identity hg hm hform hk hself e
  exact ⟨id, key, rfl,
    Model.identityOf_eq_some_iff.mpr ⟨Json.get?_set_self hobject _ _, hform.ne_null⟩, hk, hfits,
    allFit_put (hts.of_rows fun path k record => (hrows path k ▸ ·)) hm hfits,
    hrows m.path key ▸ hfree, fun path k => by rw [Tables.row?_put, Tables.row?_put, hrows], haccepted⟩

omit hts in
theorem Added.apart_from_link {e bound : Json} {ts' : Tables} (h : s.Added ts m e id saved key ts')
    (hm : m ∈ s.registry.models) (hrelated : s.registry.Related ts m bound)
    (hmirrors : s.registry.Mirrors m bound e) {o : Relation} (ho : o ∈ m.relations)
    (ht : s.registry.get? o.target = some m) {link : BackLink}
    (hx : link.id ∈ m.identitiesOf (bound.get o.name)) (hback : LeadsBack s.registry m link m r) :
    RecordKey.of? link.id ≠ some key ∧ saved.clearReference r.name id r.isCollection = none := by
  have hthere {x : Json} (hst : ts.Stored m.path x) : RecordKey.of? x ≠ some key := by
    intro hx
    rw [Tables.stored_iff hx, h.free] at hst
    cases hst
  have hro := hback.mem_owning
  have hr := (List.mem_filter.mp hro).1
  refine ⟨hthere ((hrelated o ho).of_mem ht hx).2, ?_⟩
  obtain ⟨x, hx, hform, -⟩ := h.fits.identity
  obtain rfl := Option.some.inj (h.identity.symm.trans hx)
  refine Json.unlinked_of_not_mem hform (h.fits.slots r hro m hback.back) fun hmem => ?_
  rw [h.saved_eq, Json.get_set_of_ne _ (hg.name_ne_identity hm hr).symm] at hmem
  exact hthere (((hrelated r hr).mirrors hr hmirrors).stored_of_mem_references hg hm hro hback.back hmem)
    h.key_eq

/-- A creation up to the point where the record is added, with the entity that has been agreed on. -/
structure Drafted (s : Service) (ts : Tables) (path : String) (input : EntityInput) (m : Model)
    (described bound agreed : Json) : Prop where
  model : s.registry.get? path = some m
  mirrors : s.registry.Mirrors m bound agreed
  fields : ∀ members, input = .fields members →
    EntityInput.Describes m (creationMembers m members) described ∧
      s.registry.Binds ts m (.obj (creationMembers m members)) described bound

omit hts in
theorem Drafted.related {described bound agreed : Json} {members : List (String × Json)}
    (hts : s.registry.AllFit ts) (h : s.Drafted ts path (.fields members) m described bound agreed) :
    s.registry.Related ts m bound := by
  obtain ⟨hdescribes, hbinds⟩ := h.fields members rfl
  have hm := (mem_of_get? h.model).1
  exact fun o ho =>
    (RelatedBy.of_none (hdescribes.get?_relation hg hm ho)).binds hg hts hm ho hbinds

theorem create_leaves (hhooks : s.hooks = .none) (huuids : s.GivesUuids) {input : EntityInput}
    {u : UnitOfWork Json} (h : s.creation path input = .ok u) {Q : Json → Tables → Prop}
    (hQ : ∀ m described bound agreed id saved key next,
      s.Drafted ts path input m described bound agreed → s.Added ts m agreed id saved key next →
        (s.unshareAll m id saved >>= fun _ =>
          s.writeBackLinks (m.relations.flatMap (s.registry.backLinks bound)) id >>= fun _ =>
            (attempt fun ts => s.loaded ts m saved) >>= fun loaded =>
              (liftM (s.hooks.afterCreate m loaded) : UnitOfWork Json)).Leaves next Q) :
    u.Leaves ts Q := by
  obtain ⟨m, hresolve, h⟩ := bind_eq_ok_iff.mp h
  have hmodel := resolve_eq_ok_iff.mp hresolve
  have hm := (mem_of_get? hmodel).1
  dsimp only at h
  have hgiven (members : List (String × Json)) (hinput : input = .fields members) :
      (if m.identityGenerated then input.without m.identity else input) =
        .fields (creationMembers m members) := by
    rw [hinput, create_input]
  generalize (if m.identityGenerated then input.without m.identity else input) = given at h hgiven
  obtain ⟨described, hentity, h⟩ := bind_eq_ok_iff.mp h
  rw [← pure_eq_ok_iff.mp h]
  obtain ⟨bound, agreed, hagree, hidentity, hmirrors, hbinds⟩ :=
    exists_agree hg hm ts given (isObject_of_toEntity hentity)
  refine .bind_read ?_
  rw [hagree]
  refine .bind_lift fun e he => .bind_lift fun _ _ => ?_
  rw [hhooks] at he
  obtain rfl : agreed = e := Except.ok.inj he
  have hown (id : Json) (hid : m.identityOf agreed = some id) :
      m.IsIdentity id ∧ m.identity? id = some id := by
    obtain ⟨-, raw, -, -, hcoerce⟩ :=
      exists_coerceIdentity (hg.distinctNames m hm) hentity (hidentity ▸ hid)
    exact Model.isIdentity_of_coerceIdentity (hg.identityTypes m hm) hcoerce
  refine (persist_adds hg hts huuids hm hown).bind fun saved ts₁ hadded => ?_
  obtain ⟨id, key, hadded⟩ := hadded
  rw [hadded.identity]
  refine hQ m described bound agreed id saved key ts₁ ⟨hmodel, hmirrors, ?_⟩ hadded
  intro members hinput
  rw [hgiven members hinput] at hentity
  exact ⟨describes_of_toEntity (hg.distinctNames m hm) hentity, hbinds _ (hgiven members hinput)⟩

theorem create_answers (hhooks : s.hooks = .none) (huuids : s.GivesUuids) {input : EntityInput}
    {u : UnitOfWork Json} (h : s.creation path input = .ok u) :
    u.Leaves ts fun e ts' => ∃ m id saved, s.registry.get? path = some m ∧
      s.Answered (∃ members, input = .fields members) m id saved e ts' ∧
        ((m.identityGenerated = true → m.identityType = .integer →
          (ts.table m.path).sequence < 0x7fffffff) → m.identity? id = some id) := by
  refine create_leaves hg hts hhooks huuids h
    fun m described bound agreed id saved key next hdrafted hadded => ?_
  have hm := (mem_of_get? hdrafted.model).1
  have hlinks : ∀ link ∈ m.relations.flatMap (s.registry.backLinks bound), ∃ target r,
      LeadsBack s.registry m link target r ∧ ((∃ members, input = .fields members) →
        target.path = m.path → RecordKey.of? link.id ≠ some key ∧
          saved.clearReference r.name id r.isCollection = none) := by
    intro link hlink
    obtain ⟨target, r, hback, o, ho, -, ht, hx⟩ := exists_origin hg hm hlink
    refine ⟨target, r, hback, ?_⟩
    rintro ⟨members, rfl⟩ hp
    obtain rfl := eq_of_path hback.mem_models hm hp
    exact hadded.apart_from_link hg hm (hdrafted.related hg hts) hdrafted.mirrors ho ht hx hback
  have hrow : next.row? m.path key = some saved :=
    (hadded.rows m.path key).trans (Tables.row?_put_self _ _ _ _)
  exact (settle_answers hg hadded.allFit hm hadded.fits hadded.identity hrow hlinks
    fun e => by rw [hhooks]; rfl).mono fun e ts' h => ⟨m, id, _, hdrafted.model, h, hadded.accepted⟩

/-- An update up to the point where the record is written, with the entity that has been agreed on. -/
structure Prepared (s : Service) (ts : Tables) (path : String) (raw : Json) (input : EntityInput)
    (m : Model) (id : Json) (key : RecordKey) (record incoming bound agreed : Json) : Prop where
  model : s.registry.get? path = some m
  coerced : m.coerceIdentity raw = .ok id
  found : ts.find? m.path id = some record
  described : (input.without m.identity).toEntity m = .ok incoming
  agree_eq : s.registry.agree ts m (s.merged m id record incoming) (input.without m.identity) =
    ⟨agreed, m.relations.flatMap (s.registry.backLinks bound)⟩
  binds : ∀ members, input.without m.identity = .fields members →
    s.registry.Binds ts m (.obj members) (s.merged m id record incoming) bound
  mirrors : s.registry.Mirrors m bound agreed
  fits : s.registry.Fits m key (s.registry.toRecord m agreed)
  identity : m.identityOf (s.registry.toRecord m agreed) = some id

omit hts in
theorem update_leaves (hhooks : s.hooks = .none) {raw : Json} {input : EntityInput}
    {u : UnitOfWork Json} (h : s.revision path raw input = .ok u) {Q : Json → Tables → Prop}
    (hQ : ∀ m id key record incoming bound agreed,
      s.Prepared ts path raw input m id key record incoming bound agreed →
        (s.unshareAll m id (s.registry.toRecord m agreed) >>= fun _ =>
          s.writeBackLinks (m.relations.flatMap (s.registry.backLinks bound)) id >>= fun _ =>
            (attempt fun ts => s.loaded ts m (s.registry.toRecord m agreed)) >>= fun loaded =>
              (liftM (s.hooks.afterUpdate m id loaded) : UnitOfWork Json)).Leaves
                (ts.put m.path key (s.registry.toRecord m agreed)) Q) : u.Leaves ts Q := by
  obtain ⟨m, hresolve, h⟩ := bind_eq_ok_iff.mp h
  obtain ⟨id, hcoerce, h⟩ := bind_eq_ok_iff.mp h
  obtain ⟨incoming, hentity, h⟩ := bind_eq_ok_iff.mp h
  rw [← pure_eq_ok_iff.mp h]
  have hmodel := resolve_eq_ok_iff.mp hresolve
  have hm := (mem_of_get? hmodel).1
  obtain ⟨hform, hself⟩ := Model.isIdentity_of_coerceIdentity (hg.identityTypes m hm) hcoerce
  obtain ⟨key, hk⟩ := hform.exists_key
  refine .bind_attempt fun record hfound => .bind_read ?_
  obtain ⟨bound, agreed, hagree, hidentity, hmirrors, hbinds⟩ :=
    exists_agree hg hm ts (input.without m.identity) (isObject_merged s m id record incoming)
  rw [identityOf_merged hform.ne_null] at hidentity
  rw [hagree]
  refine .bind_lift fun e he => .bind_lift fun _ _ => ?_
  rw [hhooks] at he
  obtain rfl : agreed = e := Except.ok.inj he
  have hfits := hg.fits_toRecord hm hidentity hform hk fun _ => hself
  refine (Leaves.merge m (s.registry.toRecord m agreed) ts).bind fun saved ts₁ hmerged => ?_
  obtain ⟨rfl, x, k, hx, hxk, rfl⟩ := hmerged
  obtain rfl := hfits.eq_of_identityOf hx hxk
  exact hQ m id key record incoming bound agreed ⟨hmodel, hcoerce, existing_eq_ok_iff.mp hfound, hentity,
    hagree, hbinds, hmirrors, hfits, (hg.identityOf_toRecord hm agreed).trans hidentity⟩

/-- What is updated is answered as it stands, if it has been put together from loose fields, none of
which stands for an inverse relation of a model to itself. -/
theorem update_answers (hhooks : s.hooks = .none) {raw : Json} {input : EntityInput}
    {u : UnitOfWork Json} (h : s.revision path raw input = .ok u) :
    u.Leaves ts fun e ts' => ∃ m id key record incoming bound agreed,
      s.Prepared ts path raw input m id key record incoming bound agreed ∧
        s.Answered (∃ members, input = .fields members ∧
          ∀ o ∈ m.relations, o.isOwning = false → o.target = m.path → ¬o.NamedIn members)
            m id (s.registry.toRecord m agreed) e ts' := by
  refine update_leaves hg hhooks h fun m id key record incoming bound agreed hp => ?_
  have hm := (mem_of_get? hp.model).1
  have hlinks : ∀ link ∈ m.relations.flatMap (s.registry.backLinks bound), ∃ target r,
      LeadsBack s.registry m link target r ∧ ((∃ members, input = .fields members ∧
        ∀ o ∈ m.relations, o.isOwning = false → o.target = m.path → ¬o.NamedIn members) →
          target.path = m.path → RecordKey.of? link.id ≠ some key ∧
            (s.registry.toRecord m agreed).clearReference r.name id r.isCollection = none) := by
    intro link hlink
    obtain ⟨target, r, hback, o, ho, hmb, ht, hx⟩ := exists_origin hg hm hlink
    refine ⟨target, r, hback, ?_⟩
    rintro ⟨members, rfl, hnot⟩ hpath
    have howning := Relation.isOwning_of_some hmb
    have hnamed := hnot o ho howning ((hg.target_path hm ho ht).2.symm.trans hpath)
    -- what is not given for an inverse relation is not there, and leaves no links
    have hdescribes := describes_of_toEntity (hg.distinctNames m hm) hp.described
    have hnone := hg.get?_fromRecord_inverse hm record ho howning
    rw [← get?_merged_relation hg hm hdescribes ho id] at hnone
    have hbound := (hp.binds _ rfl).related o ho target ht
    rw [bound?_of_not_namedIn (mt Relation.NamedIn.of_erase hnamed), Option.none_or, hnone] at hbound
    rw [Json.get, hbound] at hx
    exact absurd hx List.not_mem_nil
  exact (settle_answers hg (allFit_put hts hm hp.fits) hm hp.fits hp.identity
    (Tables.row?_put_self _ _ _ _) hlinks fun e => by rw [hhooks]; rfl).mono
      fun e ts' h => ⟨m, id, key, record, incoming, bound, agreed, hp, h⟩

omit hts in
theorem fits_edited (hm : m ∈ s.registry.models) (hr : r ∈ m.owning)
    (ht : s.registry.get? r.target = some target) {holderId changed : Json} (hid : target.IsIdentity id)
    (hfits : s.registry.Fits m key record) (hholder : m.identityOf record = some holderId)
    (hq : q.Admits m r) {link : Bool}
    (h : record.editReference link r.name id r.isCollection = some changed) :
    s.registry.Fits m key changed ∧ m.identityOf changed = some holderId ∧
      q.allows m.path record changed := by
  have hne := hg.name_ne_identity hm (List.mem_filter.mp hr).1
  cases link with
  | true =>
    rw [← Json.linked_of_setReference h,
      Model.identityOf_congr (Json.get?_linked_of_ne hfits.isObject hne)]
    exact ⟨hfits.linked hg hm hr ht hid, hholder, hq.linked record id hfits.isObject⟩
  | false =>
    rw [← Json.unlinked_of_clearReference h, Model.identityOf_congr (Json.get?_unlinked_of_ne record hne)]
    exact ⟨hfits.unlinked hg hm hr id, hholder, hq.unlinked record id⟩

/-- What a holder takes over from others it keeps itself. -/
theorem unshare_spares (hm : m ∈ s.registry.models) (hr : r ∈ m.owning) {holderId : Json}
    (hholder : m.identityOf record = some holderId) (hrow : ts.row? m.path key = some record)
    (hq : q.Admits m r) :
    (s.unshare m r.name holderId id).Leaves ts fun _ ts' =>
      ts'.row? m.path key = some record ∧ s.registry.Refits q ts ts' := by
  have hself : holderId.sameIdentity holderId = true := by
    obtain ⟨x, hx, hform, -⟩ := (hts m hm key record hrow).identity
    obtain rfl := Option.some.inj (hholder.symm.trans hx)
    exact hform.sameIdentity_self
  have hspare : (s.unshare m r.name holderId id).Leaves ts fun _ =>
      s.registry.Refits (.sparing fun path old => path = m.path ∧ old = record) ts := by
    refine unshare_refits hg hts hm r.name holderId id fun o _ _ old hother hs => ?_
    rw [hs.2, hholder, Option.map_some, Option.getD_some, hself] at hother
    cases hother
  have hkeep : (s.unshare m r.name holderId id).Leaves ts fun _ => s.registry.Refits q ts := by
    refine unshare_refits hg hts hm r.name holderId id fun o ho hn old _ => ?_
    obtain rfl := hg.eq_of_name hm (List.mem_filter.mp ho).1 (List.mem_filter.mp hr).1 hn
    exact hq.unlinked old id
  intro a ts' hrun
  obtain ⟨new, hnew, hsame⟩ := (hspare a ts' hrun).exists_row hrow
  exact ⟨hsame ⟨rfl, rfl⟩ ▸ hnew, hkeep a ts' hrun⟩

theorem editSlot_refits (hm : m ∈ s.registry.models) (hr : r ∈ m.owning)
    (ht : s.registry.get? r.target = some target) {holderId : Json} (hid : target.IsIdentity id)
    (hholder : m.identityOf record = some holderId) (hrow : ts.row? m.path key = some record)
    (hq : q.Admits m r) (link : Bool) :
    (s.editSlot link link m record holderId r.name r.isCollection id).Leaves ts fun changed ts' =>
      m.identityOf (changed.getD record) = some holderId ∧
        ts'.row? m.path key = some (changed.getD record) ∧ s.registry.Refits q ts ts' := by
  unfold editSlot
  split
  · exact .pure ⟨hholder, hrow, hts.refits_self⟩
  · next changed hchanged =>
    obtain ⟨hnew, hidentity, hallowed⟩ :=
      fits_edited hg hm hr ht hid (hts m hm key record hrow) hholder hq hchanged
    refine Leaves.bind (Q := fun _ ts₁ => ts₁ = ts.put m.path key changed) ?_ fun _ ts₁ hts₁ => ?_
    · refine Leaves.discard ((Leaves.merge m changed ts).mono fun _ ts₁ hmerged => ?_)
      obtain ⟨-, x, k, hx, hk, rfl⟩ := hmerged
      rw [hnew.eq_of_identityOf hx hk]
    · subst hts₁
      have hrow₁ := Tables.row?_put_self ts m.path key changed
      have hput : s.registry.Refits q ts (ts.put m.path key changed) :=
        hts.refits_self.put hm hnew hrow hallowed
      split
      · exact (unshare_spares hg hput.fits hm hr hidentity hrow₁ hq).bind fun _ _ hspared =>
          .pure ⟨hidentity, hspared.1, hput.trans hspared.2⟩
      · exact .pure ⟨hidentity, hrow₁, hput⟩

omit hg hts in
theorem finish_answers (hid : m.IsIdentity id) {edit : UnitOfWork (Option Json)}
    (written : Option Json → Json) (hedit : edit.Leaves ts fun changed ts' =>
      s.registry.AllFit ts' ∧ m.identityOf (written changed) = some id ∧ ts'.Stored m.path id ∧
        (current → ts'.find? m.path id = some (written changed)))
    (link : Bool) (missing : Error) :
    (edit >>= fun changed =>
      if (!link) = true ∧ changed.isNone = true then
        (throw missing : UnitOfWork PUnit) >>= fun _ =>
          attempt fun ts => s.loaded ts m (written changed)
      else attempt fun ts => s.loaded ts m (written changed)).Leaves ts fun e ts' =>
        ∃ saved, s.Answered current m id saved e ts' := by
  refine (leaves_answer link hedit (fun changed ts => s.loaded ts m (written changed)) missing).mono ?_
  rintro e ts' ⟨changed, ⟨hfits, hidentity, hst, hsame⟩, he⟩
  exact ⟨_, hfits, hid, hidentity, hst, hsame, he⟩

theorem edit_answers {link : Bool} {raw related : Json} {name : String} {u : UnitOfWork Json}
    (h : s.relatedEdit link path raw name related = .ok u) :
    u.Leaves ts fun e ts' => ∃ m r id saved, s.registry.get? path = some m ∧
      m.relation? name = some r ∧ m.coerceIdentity raw = .ok id ∧
        s.Answered (r.isOwning = true ∨ r.target ≠ m.path) m id saved e ts' := by
  obtain ⟨m, r, target, id, relatedId, hrequested, rfl⟩ := relatedEdit_eq_ok_iff.mp h
  have hm := hrequested.mem_models
  have hr := hrequested.mem_relations
  have ht := hrequested.target_eq
  obtain ⟨htm, hp⟩ := hg.target_path hm hr ht
  have hform := hrequested.isIdentity hg
  have hformRelated := hrequested.isIdentity_related hg
  refine .bind_attempt fun root hroot => .bind_attempt fun other hother => ?_
  rw [existing_eq_ok_iff] at hroot hother
  obtain ⟨key, hk⟩ := hform.exists_key
  obtain ⟨keyRelated, hkRelated⟩ := hformRelated.exists_key
  have hrow := (Tables.find?_eq_row? hk ts m.path).symm.trans hroot
  have hrowRelated := (Tables.find?_eq_row? hkRelated ts target.path).symm.trans hother
  have hrootId := hts.identityOf_of_find? hm hform hroot
  have hotherId := hts.identityOf_of_find? htm hformRelated hother
  refine Leaves.mono (Q := fun e ts' => ∃ saved,
    s.Answered (r.isOwning = true ∨ r.target ≠ m.path) m id saved e ts') ?_
      fun e ts' ⟨saved, h⟩ =>
        ⟨m, r, id, saved, hrequested.model, hrequested.relation, hrequested.coerced, h⟩
  cases hmb : r.mappedBy with
  | none =>
    have hro := Model.mem_owning_iff.mpr ⟨hr, hmb⟩
    have howning := (List.mem_filter.mp hro).2
    refine finish_answers hform (fun changed => if r.isOwning then changed.getD root else root)
      ((editSlot_refits hg hts hm hro ht hformRelated hrootId hrow (RowChange.sparing_admits m r) link).mono
        fun changed ts₁ h => ?_) link _
    obtain ⟨hidentity, hrow₁, hts₁⟩ := h
    have hfind : ts₁.find? m.path id = some (changed.getD root) :=
      (Tables.find?_eq_row? hk ts₁ m.path).trans hrow₁
    rw [if_pos howning]
    exact ⟨hts₁.fits, hidentity, Tables.stored_of_find? hfind, fun _ => hfind⟩
  | some owner =>
    obtain ⟨counter, hco, rfl, hback, -⟩ := hg.owners m hm r hr owner hmb target htm hp
    have howning := Relation.isOwning_of_some hmb
    dsimp only
    rw [editSlot_of_inverse hg htm (List.mem_filter.mp hco).1]
    refine finish_answers hform (fun changed => if r.isOwning then changed.getD root else root)
      ((editSlot_refits hg hts htm hco (hback ▸ get?_path hm) hform hotherId hrowRelated
        (RowChange.sparing_admits target counter) link).mono fun changed ts₁ h => ?_) link _
    obtain ⟨-, -, hts₁⟩ := h
    rw [if_neg (by rw [howning]; exact Bool.false_ne_true)]
    refine ⟨hts₁.fits, hrootId, (Tables.stored_iff hk).mpr ?_, fun h => ?_⟩
    · rw [hts₁.isSome_row?, hrow]
      rfl
    · have hother : m.path ≠ target.path := by
        rcases h with h | h
        · exact nomatch howning.symm.trans h
        · exact fun he => h (hp.symm.trans he.symm)
      obtain ⟨new, hnew, hsame⟩ := hts₁.exists_row hrow
      rw [Tables.find?_eq_row? hk, hnew, hsame hother]

theorem delete_fits {raw : Json} {u : UnitOfWork Unit} (h : s.deletion path raw = .ok u) :
    u.Leaves ts fun _ => s.registry.AllFit := by
  refine deletion_leaves h fun m id _ _ _ _ => ?_
  have hdetach : ((s.ownersOf m).forM fun p => s.detach p.1 p.2 id fun _ => false).Leaves ts
      fun _ => s.registry.AllFit := by
    refine .forM hts fun p hp ts₁ hts₁ => ?_
    obtain ⟨hother, hr, -⟩ := mem_ownersOf_iff.mp hp
    have hcut : (s.detach p.1 p.2 id fun _ => false).Leaves ts₁
        fun _ => s.registry.Refits (.sparing fun _ _ => False) ts₁ :=
      detach_refits hg hts₁ hother hr id _ fun _ _ => False.elim
    exact hcut.mono fun _ _ h => h.fits
  exact hdetach.mono fun _ _ hts₁ => ⟨hts₁, fun _ _ => hts₁.of_rows fun _ _ _ => Tables.row?_of_erase⟩

end Calls

section Runs

variable (hg : s.registry.Coherent) (hhooks : s.hooks = .none) (huuids : s.GivesUuids)

include hg hhooks huuids

theorem perform_fits {store : Store} (hstore : s.registry.AllFit store.tables) (w : Write) :
    s.registry.AllFit (s.perform store w).tables := by
  cases w with
  | create path input =>
    refine Store.run_keeps hstore fun u e ts' hplan hrun => ?_
    obtain ⟨m, id, saved, -, h, -⟩ := create_answers hg hstore hhooks huuids hplan e ts' hrun
    exact h.fits
  | update path raw input =>
    refine Store.run_keeps hstore fun u e ts' hplan hrun => ?_
    obtain ⟨m, id, key, record, incoming, bound, agreed, -, h⟩ :=
      update_answers hg hstore hhooks hplan e ts' hrun
    exact h.fits
  | delete path raw =>
    exact Store.run_keeps hstore fun u e ts' hplan hrun => delete_fits hg hstore hplan e ts' hrun
  | link path raw relation related =>
    refine Store.run_keeps hstore fun u e ts' hplan hrun => ?_
    obtain ⟨m, r, id, saved, -, -, -, h⟩ := edit_answers hg hstore hplan e ts' hrun
    exact h.fits
  | unlink path raw relation related =>
    refine Store.run_keeps hstore fun u e ts' hplan hrun => ?_
    obtain ⟨m, r, id, saved, -, -, -, h⟩ := edit_answers hg hstore hplan e ts' hrun
    exact h.fits

end Runs

/-- After every run all records fit their models. -/
theorem allFit_afterCalls {g : Registry} (hg : g.Coherent) {calls : List (Service × Write)}
    (hcalls : ∀ c ∈ calls, c.1.registry = g ∧ c.1.hooks = .none ∧ c.1.GivesUuids) :
    g.AllFit (afterCalls calls).tables := by
  refine afterCalls_induction (g.AllFit ·.tables) (fun _ _ _ _ hrow => nomatch hrow)
    fun c hc store hstore => ?_
  obtain ⟨rfl, hhooks, huuids⟩ := hcalls c hc
  exact perform_fits hg hhooks huuids hstore c.2

theorem allFit_after (hg : s.registry.Coherent) (hhooks : s.hooks = .none) (huuids : s.GivesUuids)
    (writes : List Write) : s.registry.AllFit (s.after writes).tables := by
  rw [after_eq_afterCalls]
  refine allFit_afterCalls hg fun c hc => ?_
  obtain ⟨w, -, rfl⟩ := List.mem_map.mp hc
  exact ⟨rfl, hhooks, huuids⟩

end Service

end EntityGraph
