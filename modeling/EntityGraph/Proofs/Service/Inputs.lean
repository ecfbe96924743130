import EntityGraph.Proofs.Entity.Whole
import EntityGraph.Proofs.Service.Fitting
import EntityGraph.Proofs.Store.Loops

namespace EntityGraph

namespace Registry

/-- The identities that inverse relations embed lead to records as they are: those of a collection have
the key of the identity that they stand for, and a single one is that identity. -/
def EmbedsKeys (g : Registry) (m : Model) (members : List (String × Json)) : Prop :=
  ∀ r ∈ m.relations, r.isOwning = false → ∀ target, g.get? r.target = some target →
    ∀ v, (Json.obj members).get? r.name = some v → ∀ raw ∈ target.identitiesOf v,
      ∀ id, target.coerceIdentity raw = .ok id →
        if r.isCollection then RecordKey.of? raw = RecordKey.of? id else raw = id

theorem EmbedsKeys.erase {g : Registry} {m : Model} {members : List (String × Json)} {key : String}
    (h : g.EmbedsKeys m members) (hkey : ∀ r ∈ m.relations, r.name ≠ key) :
    g.EmbedsKeys m (OrderedMap.erase members key) := fun r hr howning target ht v hv =>
  h r hr howning target ht v ((OrderedMap.get?_erase_of_ne members (hkey r hr).symm).symm.trans hv)

end Registry

theorem Store.run_congr {α : Type} {store : Store} {u v : UnitOfWork α}
    (h : u.run store.tables = v.run store.tables) :
    store.run (committing (.ok u)) = store.run (committing (.ok v)) := by
  obtain ⟨ts, outage⟩ := store
  cases outage with
  | some e => rfl
  | none => rw [run_committing, run_committing, h]

namespace Service

open Registry UnitOfWork EntityInput

variable {s : Service} {ts : Tables} {m target : Model} {r : Relation} {root a b : Json}

section Shared

variable (hg : s.registry.Coherent) (htm : target ∈ s.registry.models) (hr : r ∈ target.owning)
  (hkind : r.kind ≠ .oneToOne)

include hg htm hr hkind

theorem run_writeBackLink_shared (root id : Json) (ts : Tables) :
    (s.writeBackLink root ⟨target.path, id, r.name, r.isCollection⟩).run ts =
      match (ts.find? target.path id).bind fun record =>
        record.setReference r.name root r.isCollection with
      | some changed => (discard (merge target changed)).run ts
      | none => (.ok (), ts) := by
  have hunshare : (if r.isCollection then pure () else s.unshare target r.name id root) =
      (pure () : UnitOfWork Unit) := by
    rw [unshare_eq hg htm hr, if_neg hkind, ite_self]
  rw [writeBackLink_eq, run_bind_of_ok (run_lift_eq_ok_iff.mpr
    ⟨resolve_eq_ok_iff.mpr (get?_path htm), rfl⟩), run_bind_of_ok (run_read _ ts)]
  dsimp only
  cases ts.find? target.path id with
  | none => rfl
  | some record =>
    dsimp only
    rw [hunshare, Option.bind_some]
    cases record.setReference r.name root r.isCollection with
    | none => rfl
    | some changed => exact run_bind_pure _ ts

theorem writeBackLink_congr (root : Json) (hkey : RecordKey.of? a = RecordKey.of? b) :
    s.writeBackLink root ⟨target.path, a, r.name, r.isCollection⟩ =
      s.writeBackLink root ⟨target.path, b, r.name, r.isCollection⟩ := by
  refine funext fun ts => ?_
  have hfind : ts.find? target.path a = ts.find? target.path b := by
    rw [Tables.find?, Tables.find?, hkey]
  have hrun := run_writeBackLink_shared hg htm hr hkind root
  exact (hrun a ts).trans (hfind ▸ (hrun b ts).symm)

/-- All links that lead to the record of an identity have been written. -/
def Linked (target : Model) (r : Relation) (root id : Json) (ts : Tables) : Prop :=
  (ts.find? target.path id).bind (fun record => record.setReference r.name root r.isCollection) = none

theorem exists_run_writeBackLink_shared (hts : s.registry.AllFit ts)
    (hback : s.registry.get? r.target = some m) (hroot : m.IsIdentity root) (id : Json) :
    ∃ ts', (s.writeBackLink root ⟨target.path, id, r.name, r.isCollection⟩).run ts = (.ok (), ts') ∧
      s.registry.AllFit ts' ∧ Linked target r root id ts' ∧
        ∀ other, Linked target r root other ts → Linked target r root other ts' := by
  rw [run_writeBackLink_shared hg htm hr hkind]
  cases hset : (ts.find? target.path id).bind fun record =>
      record.setReference r.name root r.isCollection with
  | none => exact ⟨ts, rfl, hts, hset, fun _ h => h⟩
  | some changed =>
    obtain ⟨record, hfind, hchanged⟩ := Option.bind_eq_some_iff.mp hset
    obtain ⟨key, hk, hrow⟩ := Option.bind_eq_some_iff.mp hfind
    have hfits := (hts target htm key record hrow).linked hg htm hr hback hroot
    rw [Json.linked_of_setReference hchanged] at hfits
    obtain ⟨x, hx, -, hxk, -⟩ := hfits.identity
    have hdone : changed.setReference r.name root r.isCollection = none :=
      Json.setReference_setReference hroot.sameIdentity_self hchanged
    have hlinked (other : Json) (h : RecordKey.of? other = some key ∨ Linked target r root other ts) :
        Linked target r root other (ts.put target.path key changed) := by
      unfold Linked at h ⊢
      cases ho : RecordKey.of? other with
      | none =>
        rw [Tables.find?, ho]
        rfl
      | some k =>
        rw [Tables.find?_eq_row? ho, Tables.row?_put]
        by_cases hkey : k = key
        · rw [if_pos ⟨rfl, hkey⟩]
          exact hdone
        · rw [if_neg fun h => hkey h.2, ← Tables.find?_eq_row? ho]
          exact h.resolve_left fun h => hkey (Option.some.inj (ho.symm.trans h))
    exact ⟨ts.put target.path key changed,
      run_discard_eq_ok_iff.mpr ⟨changed, run_merge hx hxk ts⟩,
      allFit_put hts htm hfits, hlinked id (.inl hk), fun other h => hlinked other (.inr h)⟩

/-- Each of such links has to be written only once. -/
theorem run_writeBackLinks_distinct (hts : s.registry.AllFit ts)
    (hback : s.registry.get? r.target = some m) (hroot : m.IsIdentity root) {ids : List Json}
    (hids : ∀ id ∈ ids, target.IsIdentity id) :
    (ids.forM fun id => s.writeBackLink root ⟨target.path, id, r.name, r.isCollection⟩).run ts =
      ((distinctBy Json.sameIdentity ids).forM fun id =>
        s.writeBackLink root ⟨target.path, id, r.name, r.isCollection⟩).run ts := by
  have hstep : ∀ id ∈ ids, ∀ ts, s.registry.AllFit ts → ∃ ts',
      (s.writeBackLink root ⟨target.path, id, r.name, r.isCollection⟩).run ts = (.ok (), ts') ∧
        s.registry.AllFit ts' ∧ Linked target r root id ts' ∧
          ∀ other ∈ ids, Linked target r root other ts → Linked target r root other ts' := by
    intro id _ ts hts
    obtain ⟨ts', hrun, hts', hself, hothers⟩ :=
      exists_run_writeBackLink_shared hg htm hr hkind hts hback hroot id
    exact ⟨ts', hrun, hts', hself, fun other _ => hothers other⟩
  refine run_forM_distinctBy hts hstep fun x hx y hy hsame ts hlinked => ?_
  obtain rfl := ((hids y hy).sameIdentity_iff (hids x hx)).mp hsame
  rw [run_writeBackLink_shared hg htm hr hkind, hlinked]

theorem run_writeBackLinks_accepted (hts : s.registry.AllFit ts)
    (hback : s.registry.get? r.target = some m) (hroot : m.IsIdentity root) {v : Json}
    (hkeys : ∀ raw ∈ target.identitiesOf v, ∃ id, target.coerceIdentity raw = .ok id ∧
      RecordKey.of? raw = RecordKey.of? id) :
    ((target.identitiesOf v).forM fun id =>
      s.writeBackLink root ⟨target.path, id, r.name, r.isCollection⟩).run ts =
      ((distinctBy Json.sameIdentity (target.acceptedIn v)).forM fun id =>
        s.writeBackLink root ⟨target.path, id, r.name, r.isCollection⟩).run ts := by
  have hform (id : Json) (hid : id ∈ target.acceptedIn v) : target.IsIdentity id := by
    obtain ⟨raw, -, hraw⟩ := List.mem_filterMap.mp hid
    exact (Model.isIdentity_of_coerceIdentity (hg.identityTypes target htm)
      (Model.identity?_eq_some_iff.mp hraw)).1
  have hraw : ((target.identitiesOf v).forM fun id =>
      s.writeBackLink root ⟨target.path, id, r.name, r.isCollection⟩) =
        (target.acceptedIn v).forM fun id =>
          s.writeBackLink root ⟨target.path, id, r.name, r.isCollection⟩ := by
    refine forM_filterMap fun raw hraw => ?_
    obtain ⟨id, hcoerce, hkey⟩ := hkeys raw hraw
    exact ⟨id, Model.identity?_eq_some_iff.mpr hcoerce,
      writeBackLink_congr hg htm hr hkind root hkey⟩
  rw [hraw]
  exact run_writeBackLinks_distinct hg htm hr hkind hts hback hroot hform

end Shared

section Links

variable (hg : s.registry.Coherent) (hm : m ∈ s.registry.models) {members : List (String × Json)}
  {start : Tables} {loose bound whole : Json} {o : Relation}

include hg hm

theorem run_backLinks_eq (hts : s.registry.AllFit ts) (hroot : m.IsIdentity root)
    (ho : o ∈ m.relations) (ht : s.registry.get? o.target = some target)
    (hembeds : (whole.get o.name).Embeds o.isCollection)
    (hkeys : o.isOwning = false → ∀ raw ∈ target.identitiesOf (whole.get o.name),
      ∃ id, target.coerceIdentity raw = .ok id ∧
        if o.isCollection then RecordKey.of? raw = RecordKey.of? id else raw = id)
    (hids : o.isOwning = false → target.identitiesOf (bound.get o.name) =
      distinctBy Json.sameIdentity (target.acceptedIn (whole.get o.name))) :
    (s.writeBackLinks (s.registry.backLinks whole o) root).run ts =
      (s.writeBackLinks (s.registry.backLinks bound o) root).run ts := by
  obtain ⟨htm, hp⟩ := hg.target_path hm ho ht
  cases hmb : o.mappedBy with
  | none => rw [backLinks_of_owning _ whole hmb, backLinks_of_owning _ bound hmb]
  | some owner =>
    have howning := Relation.isOwning_of_some hmb
    obtain ⟨r, hr, rfl, hback, hpairs⟩ := hg.owners m hm o ho owner hmb target htm hp
    have hlinks (e : Json) : s.registry.backLinks e o = (target.identitiesOf (e.get o.name)).map
        fun id => ⟨target.path, id, r.name, r.isCollection⟩ := by
      rw [backLinks, hmb, ht]
      dsimp only
      rw [hg.relation?_name htm (List.mem_filter.mp hr).1]
      rfl
    have hkeys := hkeys howning
    rw [hlinks, hlinks, hids howning]
    cases hmany : o.isCollection with
    | false =>
      simp only [hmany, Bool.false_eq_true, if_false] at hembeds hkeys
      rw [Model.distinctBy_acceptedIn_of_single hembeds fun raw hraw => ?_]
      obtain ⟨id, hcoerce, rfl⟩ := hkeys raw hraw
      exact Model.identity?_eq_some_iff.mpr hcoerce
    | true =>
      simp only [hmany, if_true] at hkeys
      have hkind : r.kind ≠ .oneToOne := fun hone =>
        Bool.false_ne_true (((kind_eq_oneToOne_iff hpairs).mp hone).symm.trans hmany)
      have hwrites (ids : List Json) : s.writeBackLinks (ids.map fun id =>
          ⟨target.path, id, r.name, r.isCollection⟩) root = ids.forM fun id =>
            s.writeBackLink root ⟨target.path, id, r.name, r.isCollection⟩ := List.forM_map
      rw [hwrites, hwrites]
      exact run_writeBackLinks_accepted hg htm hr hkind hts (hback ▸ get?_path hm) hroot hkeys

/-- All links are the same writes for both entities. -/
theorem run_writeBackLinks_eq (hstart : s.registry.AllFit start)
    (hgiven : s.registry.EmbedsStored start m members) (hkeys : s.registry.EmbedsKeys m members)
    (hbinds : s.registry.Binds start m (.obj members) loose bound)
    (hover : Overlays m (.obj members) loose whole)
    (hloose : ∀ r ∈ m.relations, ∀ v, loose.get? r.name = some v →
      r.isOwning = true ∧ v.Embeds r.isCollection)
    (hts : s.registry.AllFit ts) (hroot : m.IsIdentity root) :
    (s.writeBackLinks (m.relations.flatMap (s.registry.backLinks whole)) root).run ts =
      (s.writeBackLinks (m.relations.flatMap (s.registry.backLinks bound)) root).run ts := by
  refine run_forM_flatMap (P := s.registry.AllFit) hts (fun o ho ts hts => ?_) fun o ho ts hts => ?_
  · have hlinks : (s.writeBackLinks (s.registry.backLinks bound o) root).Leaves ts
        fun _ => s.registry.Refits (.sparing fun _ _ => False) ts := by
      refine writeBackLinks_refits hg hts hroot fun link hlink => ?_
      obtain ⟨target, r, hback⟩ := exists_leadsBack hg hm (List.mem_flatMap.mpr ⟨o, ho, hlink⟩)
      exact ⟨target, r, hback, fun _ _ _ => False.elim, fun _ => False.elim⟩
    exact hlinks.mono fun _ _ h => h.fits
  · obtain ⟨target, ht⟩ := hg.exists_target hm ho
    have hnone (howning : o.isOwning = false) : loose.get? o.name = none := by
      by_contra hne
      obtain ⟨v, hv⟩ := Option.ne_none_iff_exists'.mp hne
      exact nomatch (hloose o ho v hv).1.symm.trans howning
    refine run_backLinks_eq hg hm hts hroot ho ht ?_ (fun howning raw hraw => ?_) fun howning =>
      identitiesOf_eq_of_overlays hg hstart hm hgiven hbinds hover ho ht (hnone howning)
    · rcases overlaid_cases hg hstart hm hgiven hbinds hover ho ht with
        ⟨-, hwhole⟩ | ⟨v, w, hv, -, hembeds, -⟩
      · rw [Json.get, hwhole]
        cases hv : loose.get? o.name with
        | none => exact .none _
        | some v => exact (hloose o ho v hv).2
      · exact Json.get_of_get? hv ▸ hembeds
    · have hwhole := hover.related o ho
      rw [hnone howning, Option.or_none] at hwhole
      cases hv : (Json.obj members).get? o.name with
      | none =>
        rw [Json.get_of_get?_none (hwhole.trans hv)] at hraw
        exact absurd hraw List.not_mem_nil
      | some v =>
        rw [Json.get_of_get? (hwhole.trans hv)] at hraw
        obtain ⟨w, hw, hid⟩ := List.mem_filterMap.mp hraw
        obtain ⟨x, id, hx, hcoerce, -⟩ := hgiven.stored o ho target ht v hv w hw
        obtain rfl := Option.some.inj (hid.symm.trans hx)
        exact ⟨id, hcoerce, hkeys o ho howning target ht v hv raw hraw id hcoerce⟩

theorem run_unshareAll_congr (hts : s.registry.AllFit ts)
    (hroot : m.IsIdentity root) {links links' : List BackLink}
    (hlinks : ∀ ts, s.registry.AllFit ts →
      (s.writeBackLinks links root).run ts = (s.writeBackLinks links' root).run ts)
    (saved : Json) (k : Unit → UnitOfWork Json) :
    (s.unshareAll m root saved >>= fun _ => s.writeBackLinks links root >>= k).run ts =
      (s.unshareAll m root saved >>= fun _ => s.writeBackLinks links' root >>= k).run ts := by
  refine run_bind_congr fun _ next hnext => ?_
  have hclaims : s.registry.Refits (.sparing fun _ _ => False) ts next :=
    unshareAll_refits hg hts hm hroot (fun _ _ _ _ _ => False.elim) saved _ next hnext
  rw [run_bind, hlinks next hclaims.fits, ← run_bind]

end Links

theorem validate_congr (hoff : s.settings.validation = false) {e e' : Json}
    (h : m.identityOf e' = m.identityOf e) : s.validate m e' = s.validate m e := by
  have hfaults : s.faults m e' = s.faults m e := by
    simp only [faults, hoff, h, Bool.false_eq_true, false_and, if_false]
  rw [validate, validate, hfaults]

theorem overlays_merged (hg : s.registry.Coherent) (hm : m ∈ s.registry.models) {source loose whole : Json}
    (hover : Overlays m source loose whole) (hloose : ∃ pairs, loose = .ofPairs pairs)
    (hwhole : ∃ pairs, whole = .ofPairs pairs) (id record : Json) :
    Overlays m source (s.merged m id record loose) (s.merged m id record whole) := by
  refine ⟨isObject_merged s m id record whole, fun name hn => ?_, fun r hr => ?_⟩
  · by_cases hname : m.identity = name
    · subst hname
      rw [merged, merged, Json.get?_set_self ((isObject_fromRecord _ _ _).foldl_set _),
        Json.get?_set_self ((isObject_fromRecord _ _ _).foldl_set _)]
    · rw [get?_merged s id record hwhole hname, get?_merged s id record hloose hname,
        hover.others name hn]
  · have hne := (hg.name_ne_identity hm hr).symm
    rw [get?_merged s id record hwhole hne, get?_merged s id record hloose hne, hover.related r hr,
      Option.or_assoc]

/-- Both entities are written as the same record. What follows sees no difference but in the links. -/
theorem run_agreed_congr (hg : s.registry.Coherent) (hm : m ∈ s.registry.models)
    (hoff : s.settings.validation = false) (hts : s.registry.AllFit ts)
    {members : List (String × Json)} (hgiven : s.registry.EmbedsStored ts m members)
    {loose whole given : Json} (hover : Overlays m (.obj members) loose whole)
    (hloose : loose.IsObject)
    (hembeds : ∀ r ∈ m.relations, ∀ v, loose.get? r.name = some v → v.Embeds r.isCollection)
    {before : Json → Except Error Json} (hbefore : ∀ e, before e = .ok e)
    {write : Json → UnitOfWork Json} {finish : Agreement → Json → UnitOfWork Json}
    (hfinish : ∀ bound e e' saved next, s.registry.Binds ts m (.obj members) loose bound →
      m.identityOf e = m.identityOf loose →
      (write (s.registry.toRecord m e)).run ts = (.ok saved, next) →
        (finish ⟨e', m.relations.flatMap (s.registry.backLinks whole)⟩ saved).run next =
          (finish ⟨e, m.relations.flatMap (s.registry.backLinks bound)⟩ saved).run next) :
    (UnitOfWork.read (fun ts => s.registry.agree ts m whole (.entity given)) >>= fun agreed =>
      (liftM (before agreed.entity) : UnitOfWork Json) >>= fun e =>
        (liftM (s.validate m e) : UnitOfWork Unit) >>= fun _ =>
          write (s.registry.toRecord m e) >>= finish agreed).run ts =
    (UnitOfWork.read (fun ts => s.registry.agree ts m loose (.fields members)) >>= fun agreed =>
      (liftM (before agreed.entity) : UnitOfWork Json) >>= fun e =>
        (liftM (s.validate m e) : UnitOfWork Unit) >>= fun _ =>
          write (s.registry.toRecord m e) >>= finish agreed).run ts := by
  obtain ⟨bound, e, e', hagree, hagree', hbinds, hid, hrecord⟩ :=
    exists_agreements hg hts hm hgiven hover hloose hembeds given
  have hsame : m.identityOf e' = m.identityOf e := by
    rw [← hg.identityOf_toRecord hm, hrecord, hg.identityOf_toRecord hm]
  have hpure (e : Json) : (liftM (before e) : UnitOfWork Json) = pure e := by
    rw [hbefore]
    rfl
  rw [run_bind_of_ok (run_read _ _), run_bind_of_ok (run_read _ _), hagree, hagree', hpure, hpure,
    pure_bind, pure_bind, validate_congr hoff hsame, hrecord]
  refine run_bind_congr fun _ next hvalid => ?_
  obtain ⟨-, rfl⟩ := run_lift_eq_ok_iff.mp hvalid
  exact run_bind_congr fun saved next hwrite => hfinish bound e e' saved next hbinds hid hwrite

section Calls

variable (hg : s.registry.Coherent) (hhooks : s.hooks = .none) (hoff : s.settings.validation = false)
  {store : Store} (hts : s.registry.AllFit store.tables) {path : String}
  (hmodel : s.registry.get? path = some m) {members : List (String × Json)}
  (hgiven : s.registry.EmbedsStored store.tables m members)
  (hkeys : s.registry.EmbedsKeys m members)

include hg hhooks hoff hts hmodel hgiven hkeys

theorem create_entity_eq (huuids : s.GivesUuids) :
    store.run (s.create path (.entity (.obj members))) = store.run (s.create path (.fields members)) := by
  have hm := (mem_of_get? hmodel).1
  have hidentity : ∀ r ∈ m.relations, r.name ≠ m.identity := fun r hr => hg.name_ne_identity hm hr
  have hgiven' : s.registry.EmbedsStored store.tables m (creationMembers m members) ∧
      s.registry.EmbedsKeys m (creationMembers m members) := by
    unfold creationMembers
    split
    · exact ⟨hgiven.erase hidentity, hkeys.erase hidentity⟩
    · exact ⟨hgiven, hkeys⟩
  obtain ⟨hgiven, hkeys⟩ := hgiven'
  have hinput : (if m.identityGenerated then (EntityInput.entity (.obj members)).without m.identity
      else .entity (.obj members)) = .entity (.obj (creationMembers m members)) := by
    unfold creationMembers
    split <;> rfl
  change store.run (committing (s.creation path (.entity (.obj members)))) =
    store.run (committing (s.creation path (.fields members)))
  unfold creation
  rw [resolve_eq_ok_iff.mpr hmodel, ok_bind, ok_bind]
  dsimp only
  rw [hinput, create_input]
  cases hloose : (EntityInput.fields (creationMembers m members)).toEntity m with
  | error e =>
    rw [toEntity_entity, hloose]
    rfl
  | ok loose =>
    have hdescribes := describes_of_toEntity (hg.distinctNames m hm) hloose
    have hnone (r : Relation) (hr : r ∈ m.relations) (v : Json) (hv : loose.get? r.name = some v) :
        r.isOwning = true ∧ v.Embeds r.isCollection :=
      nomatch (hdescribes.get?_relation hg hm hr).symm.trans hv
    obtain ⟨whole, hwhole, hover⟩ := exists_overlays (hg.distinctNames m hm) hloose
    rw [hwhole, ok_bind, ok_bind]
    refine Store.run_congr (run_agreed_congr hg hm hoff hts hgiven hover hdescribes.isObject
      (fun r hr v hv => (hnone r hr v hv).2) (fun e => by rw [hhooks]; rfl)
      fun bound e e' saved next hbinds hid hpersist => ?_)
    have hown (id : Json) (h : m.identityOf e = some id) :
        m.IsIdentity id ∧ m.identity? id = some id := by
      obtain ⟨raw, -, hcoerce⟩ := hdescribes.identity id (hid ▸ h)
      exact Model.isIdentity_of_coerceIdentity (hg.identityTypes m hm) hcoerce
    obtain ⟨id, key, hadded⟩ := persist_adds hg hts huuids hm hown saved next hpersist
    obtain ⟨x, hx, hform, -⟩ := hadded.fits.identity
    rw [hx]
    exact run_unshareAll_congr hg hm hadded.allFit hform (fun ts hts₁ =>
      run_writeBackLinks_eq hg hm hts hgiven hkeys hbinds hover hnone hts₁ hform) saved _

theorem update_entity_eq (rawId : Json) :
    store.run (s.update path rawId (.entity (.obj members))) =
      store.run (s.update path rawId (.fields members)) := by
  have hm := (mem_of_get? hmodel).1
  have hidentity : ∀ r ∈ m.relations, r.name ≠ m.identity := fun r hr => hg.name_ne_identity hm hr
  have hgiven := hgiven.erase hidentity
  have hkeys := hkeys.erase hidentity
  change store.run (committing (s.revision path rawId (.entity (.obj members)))) =
    store.run (committing (s.revision path rawId (.fields members)))
  unfold revision
  rw [resolve_eq_ok_iff.mpr hmodel, ok_bind, ok_bind]
  cases hcoerce : m.coerceIdentity rawId with
  | error e => rfl
  | ok id =>
    obtain ⟨hform, hself⟩ := Model.isIdentity_of_coerceIdentity (hg.identityTypes m hm) hcoerce
    rw [ok_bind, ok_bind]
    dsimp only [EntityInput.without]
    cases hloose : (EntityInput.fields (OrderedMap.erase members m.identity)).toEntity m with
    | error e =>
      rw [toEntity_entity, hloose]
      rfl
    | ok loose =>
      obtain ⟨whole, hwhole, hover⟩ := exists_overlays (hg.distinctNames m hm) hloose
      have hdescribes := describes_of_toEntity (hg.distinctNames m hm) hloose
      rw [hwhole, ok_bind, ok_bind]
      refine Store.run_congr (run_bind_congr fun record next hexisting => ?_)
      obtain ⟨hfind, rfl⟩ := run_attempt_eq_ok_iff.mp hexisting
      obtain ⟨key, -, hrow⟩ := Option.bind_eq_some_iff.mp (existing_eq_ok_iff.mp hfind)
      have hofPairs {input : EntityInput} {e : Json} (h : input.toEntity m = .ok e) :
          ∃ pairs, e = .ofPairs pairs :=
        let ⟨_, _, _, _, _, he⟩ := toEntity_eq_ok h
        ⟨_, he⟩
      have hover := overlays_merged hg hm hover (hofPairs hloose) (hofPairs hwhole) id record
      -- the relations that are not given are those of the record
      have hstored (r : Relation) (hr : r ∈ m.relations) (v : Json)
          (hv : (s.merged m id record loose).get? r.name = some v) :
          r.isOwning = true ∧ v.Embeds r.isCollection := by
        rw [get?_merged_relation hg hm hdescribes hr] at hv
        cases howning : r.isOwning with
        | false => exact nomatch (hg.get?_fromRecord_inverse hm record hr howning).symm.trans hv
        | true =>
          have hro := List.mem_filter.mpr ⟨hr, howning⟩
          obtain ⟨target, ht⟩ := hg.exists_target hm hr
          rw [hg.get?_fromRecord hm record hro ht, Option.some.injEq] at hv
          have hslot := (hts m hm key record hrow).slots r hro target ht
          exact ⟨rfl, hv ▸ (Model.embed_of_fitsSlot hslot).1.embeds⟩
      refine run_agreed_congr hg hm hoff hts hgiven hover (isObject_merged s m id record loose)
        (fun r hr v hv => (hstored r hr v hv).2) (fun e => by rw [hhooks]; rfl)
        fun bound e e' saved next hbinds hid hmerge => ?_
      obtain ⟨rfl, x, k, hx, hk, rfl⟩ := Leaves.merge m _ _ saved next hmerge
      rw [identityOf_merged hform.ne_null] at hid
      obtain rfl : id = x := Option.some.inj (by rw [← hx, hg.identityOf_toRecord hm, hid])
      have hfits := hg.fits_toRecord hm hid hform hk fun _ => hself
      exact run_unshareAll_congr hg hm (allFit_put hts hm hfits) hform (fun ts hts₁ =>
        run_writeBackLinks_eq hg hm hts hgiven hkeys hbinds hover hstored hts₁ hform) _ _

end Calls

/-- An entity that embeds stored ones is written as the loose fields with the same members are: the call
answers the same and leaves the same store. Where an inverse relation embeds them, their identities must
lead to records as they are given, for these are not accepted in other forms first. -/
theorem entity_is_written_as_fields {definitions : List ModelDefinition}
    (hresolved : ofDefinitions definitions = .ok s.registry) (hhooks : s.hooks = .none)
    (huuids : s.GivesUuids) (hoff : s.settings.validation = false) {calls : List (Service × Write)}
    (hcalls : ∀ c ∈ calls, c.1.registry = s.registry ∧ c.1.hooks = .none ∧ c.1.GivesUuids)
    {path : String} (hmodel : s.registry.get? path = some m) {members : List (String × Json)}
    (hgiven : s.registry.EmbedsStored (afterCalls calls).tables m members)
    (hkeys : s.registry.EmbedsKeys m members) :
    (afterCalls calls).run (s.create path (.entity (.obj members))) =
        (afterCalls calls).run (s.create path (.fields members)) ∧
      ∀ id, (afterCalls calls).run (s.update path id (.entity (.obj members))) =
        (afterCalls calls).run (s.update path id (.fields members)) := by
  have hg := coherent_of_ofDefinitions hresolved
  have hts := allFit_afterCalls hg hcalls
  exact ⟨create_entity_eq hg hhooks hoff hts hmodel hgiven hkeys huuids,
    update_entity_eq hg hhooks hoff hts hmodel hgiven hkeys⟩

end Service

namespace Household

def lenient : Service :=
  { service with settings := { Settings.standard with validation := false } }

/-- A passport and two pets without an owner. -/
def orphans : List (Service × Write) :=
  [(lenient, .create "passports" (.fields [("number", .str "7")])),
    (lenient, .create "pets" (.fields [])), (lenient, .create "pets" (.fields []))]

theorem orphans_proper : ∀ c ∈ orphans, c.1.registry = lenient.registry ∧ c.1.hooks = .none ∧
    c.1.GivesUuids := by
  have huuids : lenient.GivesUuids := isPlain.fresh
  intro c hc
  simp only [orphans, List.mem_cons, List.not_mem_nil, or_false] at hc
  rcases hc with rfl | rfl | rfl <;> exact ⟨rfl, rfl, huuids⟩

theorem forall_relations {P : Relation → Prop} (hpassport : P passport) (hpets : P pets) :
    ∀ r ∈ person.relations, P r := by
  intro r hr
  rcases List.mem_cons.mp hr with rfl | hr
  · exact hpassport
  · exact List.mem_singleton.mp hr ▸ hpets

def ada : List (String × Json) :=
  [("name", .str "Ada"), ("passport", .ofPairs [("number", .ofNat 7)]),
    ("pets", .arr [.ofPairs [("id", .ofNat 2)], .ofPairs [("id", .ofNat 1)],
      .ofPairs [("id", .ofNat 2)]])]

theorem ada_embedsStored :
    lenient.registry.EmbedsStored (Service.afterCalls orphans).tables person ada := by
  refine ⟨forall_relations rfl rfl, forall_relations (fun v hv => ?_) fun v hv => ?_,
    forall_relations (fun target ht v hv w hw => ?_) fun target ht v hv w hw => ?_⟩
  · obtain rfl : .ofPairs [("number", .ofNat 7)] = v := Option.some.inj hv
    exact .one (Json.isObject_ofPairs _)
  · obtain rfl : .arr _ = v := Option.some.inj hv
    refine .list fun w hw => ?_
    simp only [List.mem_cons, List.not_mem_nil, or_false] at hw
    rcases hw with rfl | rfl | rfl <;> exact Json.isObject_ofPairs _
  · obtain rfl : document = target := Option.some.inj ht
    obtain rfl : .ofPairs [("number", .ofNat 7)] = v := Option.some.inj hv
    obtain rfl := List.mem_singleton.mp hw
    exact ⟨.ofNat 7, .str "7", rfl, rfl, rfl⟩
  · obtain rfl : pet = target := Option.some.inj ht
    obtain rfl : .arr _ = v := Option.some.inj hv
    simp only [Registry.embedded, List.mem_cons, List.not_mem_nil, or_false] at hw
    rcases hw with rfl | rfl | rfl
    · exact ⟨.ofNat 2, .ofNat 2, rfl, rfl, rfl⟩
    · exact ⟨.ofNat 1, .ofNat 1, rfl, rfl, rfl⟩
    · exact ⟨.ofNat 2, .ofNat 2, rfl, rfl, rfl⟩

theorem ada_embedsKeys : lenient.registry.EmbedsKeys person ada := by
  refine forall_relations nofun fun _ target ht v hv raw hraw id hid => ?_
  obtain rfl : pet = target := Option.some.inj ht
  obtain rfl : .arr _ = v := Option.some.inj hv
  have hraw : raw ∈ [Json.ofNat 2, .ofNat 1, .ofNat 2] := hraw
  simp only [List.mem_cons, List.not_mem_nil, or_false] at hraw
  rw [if_pos (show pets.isCollection = true from rfl)]
  rcases hraw with rfl | rfl | rfl <;> exact congrArg RecordKey.of? (Except.ok.inj hid)

def bo : List (String × Json) :=
  [("name", .str "Bo"), ("pets", .arr [.ofPairs [("id", .str "1")]])]

end Household

namespace Service

open Registry

theorem ada_is_written_as_fields :
    let created := (afterCalls Household.orphans).run
      (Household.lenient.create "people" (.entity (.obj Household.ada)))
    created.1.isOk = true ∧
      (created.2.tables.records "pets").map (·.get "owner") = [.ofNat 1, .ofNat 1] ∧
        created = (afterCalls Household.orphans).run
          (Household.lenient.create "people" (.fields Household.ada)) ∧
        ∀ id, (afterCalls Household.orphans).run
            (Household.lenient.update "people" id (.entity (.obj Household.ada))) =
          (afterCalls Household.orphans).run
            (Household.lenient.update "people" id (.fields Household.ada)) := by
  dsimp only
  have hresolved : ofDefinitions Household.definitions = .ok Household.lenient.registry := by rfl
  have huuids : Household.lenient.GivesUuids := (Household.orphans_proper _ (.head _)).2.2
  exact ⟨rfl, rfl, entity_is_written_as_fields hresolved rfl huuids rfl Household.orphans_proper rfl
    Household.ada_embedsStored Household.ada_embedsKeys⟩

/-- A pet that is embedded by its identity as a text is accepted and gets no owner. -/
theorem pet_named_by_text_gets_no_owner :
    let written := (afterCalls Household.orphans).run
      (Household.lenient.create "people" (.entity (.obj Household.bo)))
    let bound := (afterCalls Household.orphans).run
      (Household.lenient.create "people" (.fields Household.bo))
    Household.lenient.registry.EmbedsStored (afterCalls Household.orphans).tables Household.person
        Household.bo ∧
      written.1.isOk = true ∧ bound.1.isOk = true ∧
        (written.2.tables.find? "pets" (.ofNat 1)).map (·.get "owner") = some .null ∧
          (bound.2.tables.find? "pets" (.ofNat 1)).map (·.get "owner") = some (.ofNat 1) := by
  dsimp only
  refine ⟨⟨Household.forall_relations rfl rfl, Household.forall_relations nofun fun v hv => ?_,
    Household.forall_relations (fun _ _ => nofun) fun target ht v hv w hw => ?_⟩, rfl, rfl, rfl, rfl⟩
  · obtain rfl : .arr _ = v := Option.some.inj hv
    exact .list fun w hw => List.mem_singleton.mp hw ▸ Json.isObject_ofPairs _
  · obtain rfl : Household.pet = target := Option.some.inj ht
    obtain rfl : .arr _ = v := Option.some.inj hv
    obtain rfl := List.mem_singleton.mp hw
    exact ⟨.str "1", .ofNat 1, rfl, rfl, rfl⟩

end Service

end EntityGraph
