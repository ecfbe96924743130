import EntityGraph.Proofs.Entity.Rebinding
import EntityGraph.Proofs.Service.Answers
import EntityGraph.Proofs.Service.Frame
import EntityGraph.Proofs.Service.Slots

namespace EntityGraph

def Json.IsOrdered (v : Json) : Prop :=
  ∃ members, v = .obj members ∧ OrderedMap.Ascending members

namespace Json.IsOrdered

variable {v w : Json}

theorem ofPairs (pairs : List (String × Json)) : (Json.ofPairs pairs).IsOrdered :=
  ⟨_, rfl, OrderedMap.ascending_ofPairs pairs⟩

theorem isObject (h : v.IsOrdered) : v.IsObject :=
  let ⟨members, hv, _⟩ := h
  ⟨members, hv⟩

theorem set (h : v.IsOrdered) (key : String) (x : Json) : (v.set key x).IsOrdered := by
  obtain ⟨members, rfl, hm⟩ := h
  exact ⟨_, rfl, hm.insert key x⟩

theorem linked (h : v.IsOrdered) (field : String) (id : Json) (many : Bool) :
    (v.linked field id many).IsOrdered := by
  rcases linked_eq_or_set h.isObject field id many with he | ⟨x, he⟩
  · rwa [he]
  · exact he ▸ h.set field x

theorem unlinked (h : v.IsOrdered) (field : String) (id : Json) (many : Bool) :
    (v.unlinked field id many).IsOrdered := by
  rcases unlinked_eq_or_set v field id many with he | ⟨x, he⟩
  · rwa [he]
  · exact he ▸ h.set field x

theorem ext (h : v.IsOrdered) (h' : w.IsOrdered) (hsame : ∀ name, v.get? name = w.get? name) :
    v = w := by
  obtain ⟨members, rfl, hm⟩ := h
  obtain ⟨members', rfl, hm'⟩ := h'
  exact congrArg obj (OrderedMap.ext hm hm' hsame)

end Json.IsOrdered

def Requirement.ordered : Requirement where
  identity _ _ _ := True
  entity _ _ := True
  record _ _ := Json.IsOrdered

theorem Attribute.Takes.again {a : Attribute} {members : List (String × Json)}
    {before after last : Option Json} (h : a.Takes members before after)
    (h' : a.Takes members after last) : last = after := by
  unfold Takes at h h'
  split at h
  · next raw hraw =>
    rw [hraw] at h'
    obtain ⟨v, hv, rfl⟩ := h
    obtain ⟨w, hw, rfl⟩ := h'
    rw [Except.ok.inj (hv.symm.trans hw)]
  · next hnone =>
    rwa [hnone] at h'

namespace Service

open Registry

theorem upholds_ordered (s : Service) : s.Upholds .ordered where
  growsIdentity _ h := h
  growsRecord _ h := h
  linked _ _ _ _ h := h.linked _ _ _
  unlinked _ _ _ h := h.unlinked _ _ _
  accepted _ _ _ := trivial
  generated _ _ := trivial
  described _ _ _ := trivial
  overlaid _ _ _ _ := trivial
  beforeCreate _ _ := trivial
  beforeUpdate _ _ := trivial
  identified _ _ _ _ := trivial
  stored _ _ _ _ := (Json.IsOrdered.ofPairs _).set _ _

variable {s : Service} {ts ts' ts'' : Tables} {m n target : Model} {o r : Relation}
  {key k : RecordKey} {path : String} {raw a a' id record record' incoming incoming' bound bound' entity
  entity' after after' before : Json} {members : List (String × Json)} {ls : List Assignment}
  {calls : List (Service × Write)}

theorem claimed_congr {saved saved' : Json}
    (h : n.path = m.path → saved'.get? o.name = saved.get? o.name) :
    claimed m key saved' n k o = claimed m key saved n k o := by
  unfold claimed
  split
  · next hcut => rw [Json.present?, h hcut.1, ← Json.present?]
  · rfl

theorem edits_self (saved : Json) : edits m key saved ls m key o = .keep :: ls.map (·.edit m key o) :=
  congrArg (· :: _) (if_neg fun h => h.2.1 rfl)

namespace Updated

variable (hs : s.IsPlain) (hts : s.registry.Consistent ts)
  (h : s.Updated ts ts' path raw members a m id key record incoming bound entity)
  (h' : s.Updated ts' ts'' path raw members a' m id key record' incoming' bound' entity')

include hs hts h h'

theorem bound_again (hr : r ∈ m.relations) (ht : s.registry.get? r.target = some target) :
    (bound.get? r.name = (s.registry.fromRecord m record).get? r.name ∧
        bound'.get? r.name = (s.registry.fromRecord m record').get? r.name) ∨
      ∃ v v', bound.get? r.name = some v ∧ bound'.get? r.name = some v' ∧
        target.identitiesOf v' = target.identitiesOf v := by
  have hsame := map_identitiesOf_bound? hs.coherent hts.fits (mem_of_get? ht).1
    h.settled.consistent.fits (Tables.stored_congr (h.isSome_row?_eq target.path)) r
    (.obj (OrderedMap.erase members m.identity))
  cases hv : s.registry.bound? ts target r (.obj (OrderedMap.erase members m.identity)) with
  | none =>
    rw [hv] at hsame
    exact .inl ⟨h.get?_bound_of_none hs.coherent hr ht hv,
      h'.get?_bound_of_none hs.coherent hr ht (Option.map_eq_none_iff.mp hsame)⟩
  | some v =>
    rw [hv] at hsame
    obtain ⟨v', hv', hids⟩ := Option.map_eq_some_iff.mp hsame
    refine .inr ⟨v, v', ?_, ?_, hids⟩
    · rw [h.binds.related r hr target ht, hv, Option.some_or]
    · rw [h'.binds.related r hr target ht, hv', Option.some_or]

theorem backLinks_again : m.relations.flatMap (s.registry.backLinks bound') =
    m.relations.flatMap (s.registry.backLinks bound) := by
  refine List.flatMap_congr fun r hr => ?_
  obtain ⟨target, ht⟩ := hs.coherent.exists_target h.mem_models hr
  cases hmb : r.mappedBy with
  | none => rw [backLinks_of_owning _ _ hmb, backLinks_of_owning _ _ hmb]
  | some owner =>
    have hnone := fun record => hs.coherent.get?_fromRecord_inverse h.mem_models record hr
      (Relation.isOwning_of_some hmb)
    have hids : target.identitiesOf (bound'.get r.name) = target.identitiesOf (bound.get r.name) := by
      rcases h.bound_again hs hts h' hr ht with ⟨hb, hb'⟩ | ⟨v, v', hv, hv', hids⟩
      · rw [Json.get_of_get?_none (hb.trans (hnone record)),
          Json.get_of_get?_none (hb'.trans (hnone record'))]
      · rw [Json.get_of_get? hv, Json.get_of_get? hv', hids]
    rw [backLinks, backLinks, hmb, ht]
    dsimp only
    rw [hids]

theorem exists_edits_again : ∃ ls : List Assignment, (∀ l ∈ ls, l.id = id) ∧
    (∀ n ∈ s.registry.models, ∀ k before,
      (ts.put m.path key (s.registry.toRecord m entity)).row? n.path k = some before →
        ∃ after, ts'.row? n.path k = some after ∧
          SlotsEdited n (edits m key (s.registry.toRecord m entity) ls n k) before after) ∧
    ∀ n ∈ s.registry.models, ∀ k before,
      (ts'.put m.path key (s.registry.toRecord m entity')).row? n.path k = some before →
        ∃ after, ts''.row? n.path k = some after ∧
          SlotsEdited n (edits m key (s.registry.toRecord m entity') ls n k) before after := by
  have hg := hs.coherent
  obtain ⟨ls, hlinks, hrows⟩ := h.settled.exists_edits hg hts.fits h.mem_models
  obtain ⟨ls', hlinks', hrows'⟩ :=
    h'.settled.exists_edits hg h.settled.consistent.fits h.mem_models
  rw [h.backLinks_again hs hts h'] at hlinks'
  obtain rfl : ls = ls' := (leftUnique_linksBack hg m id).forall₂ hlinks hlinks'
  refine ⟨ls, fun l hl => ?_, hrows, hrows'⟩
  obtain ⟨link, -, hlink⟩ := exists_right_of_forall₂ hlinks hl
  exact hlink.1.1

section Root

variable (hedited : SlotsEdited m (edits m key (s.registry.toRecord m entity) ls m key)
  (s.registry.toRecord m entity) record')

include hedited

/-- The root is written with the slots of the first time. A slot that nothing is bound to is written as
the first time has left it. -/
theorem slot_again (hrange : s.registry.AllInRange ts) (hls : ∀ l ∈ ls, l.id = id) (ho : o ∈ m.owning) :
    (s.registry.toRecord m entity').get? o.name = (s.registry.toRecord m entity).get? o.name ∨
      bound'.get? o.name = (s.registry.fromRecord m record').get? o.name ∧
        (s.registry.toRecord m entity').get? o.name = record'.get? o.name := by
  have hm := h.mem_models
  have hts' := h.settled.consistent
  have hom := (List.mem_filter.mp ho).1
  obtain ⟨target, ht⟩ := hs.coherent.exists_target hm hom
  rcases h.bound_again hs hts h' hom ht with ⟨hb, hb'⟩ | ⟨v, v', hv, hv', hids⟩
  · refine .inr ⟨hb', ?_⟩
    obtain ⟨w, hw, hlist⟩ := SlotEdit.exists_applyAll
      (suits_edits hls m key (s.registry.toRecord m entity) m key o) fun hmany =>
        ⟨_, Model.slotOf_of_collection hmany (target.embed o (record.get o.name))⟩
    have hrecord : record'.get? o.name = some w := by
      rw [hedited.slots o ho, h.get?_saved_of_kept hs hts ho ht hb, hw]
    have hrange' : s.registry.AllInRange ts' := fun n hn hgen x hx =>
      hrange n hn hgen x (((h.overwritten hs hts hrange).identities n hn x).mp hx)
    rw [h'.get?_saved_of_kept hs hts' ho ht hb', hrecord, ← Json.get_of_get? hrecord,
      Model.slotOf_embed ((hts'.fits m hm key record' h'.row).slots o ho target ht)
        (hts'.identity?_of_mem_references hrange' hm ho ht h'.row)]
    intro hmany hnull
    obtain ⟨ids, rfl⟩ := hlist hmany
    exact nomatch (Json.get_of_get? hrecord).symm.trans hnull
  · refine .inl ?_
    have hembeds := (h.related_bound hs.coherent hts o hom target ht v hv).1.embeds
    have hembeds' := (h'.related_bound hs.coherent hts' o hom target ht v' hv').1.embeds
    rw [h.get?_saved hs hts ho ht, h'.get?_saved hs hts' ho ht, hv, hv', Option.map_some,
      Option.map_some, Model.slotOf_of_embeds hembeds, Model.slotOf_of_embeds hembeds',
      Model.acceptedIn, hids, ← Model.acceptedIn]

omit hts in
theorem member_again {name : String} (hname : ∀ o ∈ m.owning, o.name ≠ name) :
    (s.registry.toRecord m entity').get? name = (s.registry.toRecord m entity).get? name := by
  by_cases hdeclared : name ∈ m.identity :: m.attributes.map Attribute.name
  · rcases List.mem_cons.mp hdeclared with rfl | hscalar
    · rw [(Model.identityOf_eq_some_iff.mp h.settled.identity).1,
        (Model.identityOf_eq_some_iff.mp h'.settled.identity).1]
    · obtain ⟨b, hb, rfl⟩ := List.mem_map.mp hscalar
      have hsecond := h'.takes_saved hs hb
      rw [hedited.others b.name hname] at hsecond
      exact (h.takes_saved hs hb).again hsecond
  · have hnone (e : Json) : (s.registry.toRecord m e).get? name = none := by
      refine Option.not_isSome_iff_eq_none.mp fun hsome => ?_
      rcases List.mem_append.mp (declared_of_isSome_toRecord hsome) with hn | hn
      · exact hdeclared hn
      · obtain ⟨o, ho, hn⟩ := List.mem_map.mp hn
        exact hname o ho hn
    rw [hnone, hnone]

/-- The second time the root comes to the same members. -/
theorem root_again (hrange : s.registry.AllInRange ts) (hls : ∀ l ∈ ls, l.id = id)
    (hedited' : SlotsEdited m (edits m key (s.registry.toRecord m entity') ls m key)
      (s.registry.toRecord m entity') after') (name : String) :
    after'.get? name = record'.get? name := by
  by_cases hslot : ∃ o ∈ m.owning, o.name = name
  · obtain ⟨o, ho, rfl⟩ := hslot
    have hroot := (h.isIdentity hs.coherent).1.sameIdentity_self
    have hsuits := suits_edits hls m key (s.registry.toRecord m entity) m key o
    have hfirst := hedited.slots o ho
    have hsecond := hedited'.slots o ho
    rw [edits_self, ← edits_self (s.registry.toRecord m entity)] at hsecond
    rw [hsecond]
    rcases h.slot_again hs hts h' hedited hrange hls ho with hsame | ⟨-, hleft⟩
    · rw [hsame, hfirst]
    · rw [hleft, hfirst]
      exact SlotEdit.applyAll_applyAll hroot hsuits _
  · have hname : ∀ o ∈ m.owning, o.name ≠ name := fun o ho hn => hslot ⟨o, ho, hn⟩
    rw [hedited'.others name hname, h.member_again hs h' hedited hname, hedited.others name hname]

theorem claimed_again (hrange : s.registry.AllInRange ts) (hls : ∀ l ∈ ls, l.id = id)
    (hn : n ∈ s.registry.models) (hrow : ts'.row? n.path k = some after) (ho : o ∈ n.owning) :
    claimed m key (s.registry.toRecord m entity') n k o =
        claimed m key (s.registry.toRecord m entity) n k o ∨
      (claimed m key (s.registry.toRecord m entity') n k o).apply (after.get? o.name) =
        after.get? o.name := by
  have hg := hs.coherent
  have hts' := h.settled.consistent
  have hfits := h'.settled.fits
  by_cases hnm : n = m
  · subst hnm
    rcases h.slot_again hs hts h' hedited hrange hls ho with hsame | ⟨hkept, -⟩
    · exact .inl (claimed_congr fun _ => hsame)
    · refine .inr ?_
      rw [← get?_applyAll_claims hg hn hfits hn (hts'.fits n hn k after hrow) ho]
      refine Cut.get?_applyAll_of_not_mem hg (fun c hc => isProper_of_mem_claims hg hn hfits hc) hn
        (hts'.fits n hn k after hrow) fun c hc _ hname hspared => ?_
      obtain ⟨r, hr, hkind, x, hx, rfl⟩ := mem_claims_iff.mp hc
      obtain rfl : r = o :=
        hg.eq_of_name hn (List.mem_filter.mp hr).1 (List.mem_filter.mp ho).1 hname
      obtain ⟨target, ht⟩ := hg.exists_target hn (List.mem_filter.mp hr).1
      exact h'.not_claimed hs hts' hrow (of_decide_eq_false hspared) hr hkind hkept x
        ((present?_eq_some_iff_of_oneToOne hfits hr hkind ht).mp hx)
  · exact .inl (claimed_congr fun hp => absurd (eq_of_path hn h.mem_models hp) hnm)

theorem other_again (hrange : s.registry.AllInRange ts) (hls : ∀ l ∈ ls, l.id = id)
    (hn : n ∈ s.registry.models) (hrow : ts'.row? n.path k = some after)
    (hfirst : SlotsEdited n (edits m key (s.registry.toRecord m entity) ls n k) before after)
    (hsecond : SlotsEdited n (edits m key (s.registry.toRecord m entity') ls n k) after after')
    (name : String) : after'.get? name = after.get? name := by
  by_cases hslot : ∃ o ∈ n.owning, o.name = name
  · obtain ⟨o, ho, rfl⟩ := hslot
    have hroot := (h.isIdentity hs.coherent).1.sameIdentity_self
    have hsuits := suits_edits hls m key (s.registry.toRecord m entity) n k o
    rcases h.claimed_again hs hts h' hedited hrange hls hn hrow ho with hsame | hfree
    · rw [hsecond.slots o ho, edits, hsame, ← edits, hfirst.slots o ho]
      exact SlotEdit.applyAll_applyAll hroot hsuits _
    · rw [hsecond.slots o ho, edits, SlotEdit.applyAll, List.foldl_cons, hfree, hfirst.slots o ho]
      exact SlotEdit.applyAll_applyAll hroot (fun e he => hsuits e (List.mem_cons_of_mem _ he)) _
  · exact hsecond.others name fun o ho hname => hslot ⟨o, ho, hname⟩

end Root

theorem row?_again (hrange : s.registry.AllInRange ts) (hordered : s.registry.Meets .ordered ts')
    (hordered' : s.registry.Meets .ordered ts'') (hn : n ∈ s.registry.models) (k : RecordKey) :
    ts''.row? n.path k = ts'.row? n.path k := by
  have hm := h.mem_models
  obtain ⟨ls, hls, hrows, hrows'⟩ := h.exists_edits_again hs hts h'
  obtain ⟨root, hroot, hedited⟩ := hrows m hm key _ (ts.row?_put_self m.path key _)
  obtain rfl := Option.some.inj (h'.row.symm.trans hroot)
  have hsome : (ts''.row? n.path k).isSome = (ts'.row? n.path k).isSome := h'.isSome_row?_eq n.path k
  cases hafter : ts'.row? n.path k with
  | none =>
    rw [hafter] at hsome
    exact Option.not_isSome_iff_eq_none.mp (Bool.not_eq_true _ ▸ hsome)
  | some after =>
    have hsame {after' : Json} (hafter' : ts''.row? n.path k = some after')
        (hget : ∀ name, after'.get? name = after.get? name) : ts''.row? n.path k = some after := by
      rw [hafter', (hordered' n hn k after' hafter').ext (hordered n hn k after hafter) hget]
    by_cases hkey : n = m ∧ k = key
    · obtain ⟨rfl, rfl⟩ := hkey
      obtain rfl := Option.some.inj (hafter.symm.trans hroot)
      obtain ⟨after', hafter', hedited'⟩ := hrows' n hn k _ (ts'.row?_put_self n.path k _)
      exact hsame hafter' (h.root_again hs hts h' hedited hrange hls hedited')
    · have hput (ts : Tables) (saved : Json) :
          (ts.put m.path key saved).row? n.path k = ts.row? n.path k := by
        rw [Tables.row?_put, if_neg fun he => hkey ⟨eq_of_path hn hm he.1, he.2⟩]
      have hbefore : (ts.row? n.path k).isSome = true := by
        rw [← h.isSome_row?_eq, hafter]
        rfl
      obtain ⟨before, hbefore⟩ := Option.isSome_iff_exists.mp hbefore
      obtain ⟨x, hx, hfirst⟩ := hrows n hn k before ((hput ts _).trans hbefore)
      obtain rfl := Option.some.inj (hafter.symm.trans hx)
      obtain ⟨after', hafter', hsecond⟩ := hrows' n hn k after ((hput ts' _).trans hafter)
      exact hsame hafter' (h.other_again hs hts h' hedited hrange hls hn hafter hfirst hsecond)

end Updated

/-- An update that succeeds, and then succeeds once more with the same input, leaves the rows of all
models as the first time has left them. -/
theorem repeated_update_changes_no_rows (hs : s.IsPlain)
    (hcalls : ∀ c ∈ calls, c.1.registry = s.registry ∧ c.1.IsPlain ∧ c.2.IsLoose)
    (hrange : s.registry.AllInRange (afterCalls calls).tables) :
    let first := (afterCalls calls).run (s.update path raw (.fields members))
    let second := first.2.run (s.update path raw (.fields members))
    first.1.isOk = true → second.1.isOk = true → ∀ n ∈ s.registry.models,
      (second.2.tables.table n.path).rows = (first.2.tables.table n.path).rows := by
  intro first second hok hok' n hn
  have hts := consistent_afterCalls hcalls
  obtain ⟨u, a, hplan, hrun⟩ := Store.exists_of_isOk_run hok
  obtain ⟨m, id, key, record, incoming, bound, entity, h⟩ := exists_updated hs hts hplan hrun
  obtain ⟨u', a', hplan', hrun'⟩ := Store.exists_of_isOk_run hok'
  obtain ⟨m', id', key', record', incoming', bound', entity', h'⟩ :=
    exists_updated hs h.settled.consistent hplan' hrun'
  obtain rfl := Option.some.inj (h.model.symm.trans h'.model)
  obtain rfl := Except.ok.inj (h.coerced.symm.trans h'.coerced)
  obtain rfl := Option.some.inj (h.key_eq.symm.trans h'.key_eq)
  have hordered : s.registry.Meets .ordered (afterCalls calls).tables :=
    meets_afterCalls hs.coherent fun c hc => ⟨(hcalls c hc).1, upholds_ordered c.1⟩
  have hfirst : s.registry.Meets .ordered first.2.tables :=
    perform_upholds hs.coherent (upholds_ordered s) hordered (.update path raw (.fields members))
  have hsecond : s.registry.Meets .ordered second.2.tables :=
    perform_upholds hs.coherent (upholds_ordered s) hfirst (.update path raw (.fields members))
  exact Tables.rows_eq_of_row? (h.row?_again hs hts h' hrange hfirst hsecond hn)

end Service

namespace Club

theorem isPlain : service.IsPlain :=
  ⟨⟨definitions, by rfl⟩, by decide +kernel, rfl, Service.fresh_of_no_uuids (by decide)⟩

theorem pair_plain : ∀ c ∈ pair, c.1.registry = service.registry ∧ c.1.IsPlain ∧ c.2.IsLoose := by
  intro c hc
  simp only [pair, List.mem_cons, List.not_mem_nil, or_false] at hc
  rcases hc with rfl | rfl <;> exact ⟨rfl, isPlain, trivial⟩

theorem allInRange : service.registry.AllInRange (Service.afterCalls pair).tables := by
  have hmembers : (Service.afterCalls pair).tables.identities member = [.ofNat 1, .ofNat 2] := by rfl
  intro m hm _ id hid n hn
  obtain rfl := List.mem_singleton.mp hm
  rw [hmembers] at hid
  simp only [List.mem_cons, List.not_mem_nil, or_false] at hid
  rcases hid with rfl | rfl <;> cases hn <;> rfl

/-- Another member is named as mentor, but the first is among her own mentees. -/
def tangle : List (String × Json) :=
  [("friendsIds", .arr [.ofNat 2, .ofNat 1, .ofNat 2]), ("menteesIds", .arr [.ofNat 1, .ofNat 2]),
    ("mentorId", .ofNat 2)]

/-- The answer to an update of the first member and the store after it. -/
def tangled (store : Store) : Except Error Json × Store :=
  store.run (service.update "members" (.ofNat 1) (.fields tangle))

end Club

namespace Service

/-- The link to herself wins over the mentor that is given, both times. -/
theorem own_mentor_stays :
    (Club.tangled (afterCalls Club.pair)).1.isOk = true ∧
      (Club.tangled (Club.tangled (afterCalls Club.pair)).2).1.isOk = true ∧
      ((Club.tangled (afterCalls Club.pair)).2.tables.records "members").map (·.get "mentor") =
        [.ofNat 1, .ofNat 1] ∧
      ∀ n ∈ Club.service.registry.models,
        ((Club.tangled (Club.tangled (afterCalls Club.pair)).2).2.tables.table n.path).rows =
          ((Club.tangled (afterCalls Club.pair)).2.tables.table n.path).rows := by
  have hok : (Club.tangled (afterCalls Club.pair)).1.isOk = true := by rfl
  have hok' : (Club.tangled (Club.tangled (afterCalls Club.pair)).2).1.isOk = true := by rfl
  exact ⟨hok, hok', by rfl,
    repeated_update_changes_no_rows Club.isPlain Club.pair_plain Club.allInRange hok hok'⟩

end Service

end EntityGraph
