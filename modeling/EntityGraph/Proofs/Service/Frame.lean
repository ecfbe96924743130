import EntityGraph.Proofs.Service.Effects
import EntityGraph.Proofs.Service.Preservation
import EntityGraph.Proofs.Service.Visibility

namespace EntityGraph

theorem Attribute.takes_erase {a : Attribute} {members : List (String × Json)} {key : String}
    {before after : Option Json} (hne : key ≠ a.name) :
    a.Takes (OrderedMap.erase members key) before after ↔ a.Takes members before after := by
  unfold Takes
  rw [show (Json.obj (OrderedMap.erase members key)).get? a.name = (Json.obj members).get? a.name from
    OrderedMap.get?_erase_of_ne members hne]

namespace Model

/-- The input gives a relation of this model that is mapped by an owning relation of another one. -/
def GivesInverse (m : Model) (members : List (String × Json)) (n : Model) (o : Relation) : Prop :=
  ∃ q ∈ m.relations, q.NamedIn members ∧ q.mappedBy = some o.name ∧ q.target = n.path

/-- The slots of other records that an input may change when it is written to a record of this model. -/
def Frees (m : Model) (members : List (String × Json)) (n : Model) (o : Relation) : Prop :=
  m.GivesInverse members n o ∨ n = m ∧ o.kind = .oneToOne ∧ o.NamedIn members

/-- Both records have the same members, but for the slots of some relations. -/
def Retains (n : Model) (free : Relation → Prop) (before after : Json) : Prop :=
  ∀ name, (∀ o ∈ n.owning, free o → o.name ≠ name) → after.get? name = before.get? name

/-- A record before and after an input has been laid over it. -/
structure Rewritten (m : Model) (members : List (String × Json)) (before after : Json) : Prop where
  identity : m.identityOf after = m.identityOf before
  scalars : ∀ a ∈ m.attributes, a.Takes members (before.get? a.name) (after.get? a.name)
  references : ∀ o ∈ m.owning, ¬o.NamedIn members → ¬m.GivesInverse members m o →
    (after.get o.name).references = (before.get o.name).references

end Model

namespace Registry

def AllInRange (g : Registry) (ts : Tables) : Prop :=
  ∀ m ∈ g.models, m.identityGenerated = true → ∀ id ∈ ts.identities m, m.InRange id

/-- Tables before and after an input has been written to a record that was there. -/
structure Overwritten (g : Registry) (m : Model) (id : Json) (members : List (String × Json))
    (ts ts' : Tables) : Prop where
  identities : ∀ n ∈ g.models, ∀ x, x ∈ ts'.identities n ↔ x ∈ ts.identities n
  root : ∃ before after, ts.find? m.path id = some before ∧ ts'.find? m.path id = some after ∧
    m.Rewritten members before after
  others : ∀ n ∈ g.models, ∀ key before, ts.row? n.path key = some before →
    ¬(n = m ∧ RecordKey.of? id = some key) →
      ∃ after, ts'.row? n.path key = some after ∧ n.Retains (m.Frees members n) before after

/-- Tables before and after a record with the given members has been added. -/
structure Extended (g : Registry) (m : Model) (id : Json) (members : List (String × Json))
    (ts ts' : Tables) : Prop where
  fresh : id ∉ ts.identities m
  free : ts.find? m.path id = none
  rows : ∀ path key, (ts'.row? path key).isSome = true ↔
    (ts.row? path key).isSome = true ∨ path = m.path ∧ RecordKey.of? id = some key
  root : ∃ created, ts'.find? m.path id = some created ∧ m.identityOf created = some id ∧
    ∀ a ∈ m.attributes, a.Takes members none (created.get? a.name)
  others : ∀ n ∈ g.models, ∀ key before, ts.row? n.path key = some before →
    ∃ after, ts'.row? n.path key = some after ∧ n.Retains (m.Frees members n) before after

variable {g : Registry} {ts ts' : Tables} {m target : Model} {r : Relation} {key : RecordKey}
  {record id x : Json}

theorem AllFit.mem_identities_congr (hts : g.AllFit ts) (hts' : g.AllFit ts') (hm : m ∈ g.models)
    (hrows : ∀ key, (ts'.row? m.path key).isSome = (ts.row? m.path key).isSome) :
    x ∈ ts'.identities m ↔ x ∈ ts.identities m := by
  by_cases hx : m.IsIdentity x
  · obtain ⟨key, hk⟩ := hx.exists_key
    rw [hts'.mem_identities_iff hm hx, hts.mem_identities_iff hm hx, Tables.stored_iff hk,
      Tables.stored_iff hk, hrows]
  · exact ⟨fun h => absurd (hts'.isIdentity_of_mem_identities hm h) hx,
      fun h => absurd (hts.isIdentity_of_mem_identities hm h) hx⟩

theorem Coherent.get?_of_retains (hg : g.Coherent) (hm : m ∈ g.models) {free : Relation → Prop}
    {before after : Json} (h : m.Retains free before after) :
    m.identityOf after = m.identityOf before ∧
      ∀ a ∈ m.attributes, after.get? a.name = before.get? a.name :=
  ⟨Model.identityOf_congr (h m.identity fun _ ho _ => hg.name_ne_identity hm (List.mem_filter.mp ho).1),
    fun a ha => h a.name fun _ ho _ => hg.name_ne_attribute_name hm (List.mem_filter.mp ho).1 ha⟩

theorem AllFit.identity?_of_stored (hts : g.AllFit ts) (hrange : g.AllInRange ts) (hm : m ∈ g.models)
    (hid : m.IsIdentity id) (hst : ts.Stored m.path id) : m.identity? id = some id := by
  cases hgen : m.identityGenerated with
  | true => exact hid.identity?_eq_self (hrange m hm hgen id ((hts.mem_identities_iff hm hid).mpr hst))
  | false =>
    obtain ⟨key, hk⟩ := hid.exists_key
    obtain ⟨record, hrow⟩ := Option.isSome_iff_exists.mp ((Tables.stored_iff hk).mp hst)
    obtain ⟨y, -, hform, hyk, hself⟩ := (hts m hm key record hrow).identity
    exact hform.eq_of_key hid (hyk.trans hk.symm) ▸ hself hgen

theorem Consistent.identity?_of_mem_references (hts : g.Consistent ts) (hrange : g.AllInRange ts)
    (hm : m ∈ g.models) (hr : r ∈ m.owning) (ht : g.get? r.target = some target)
    (hrow : ts.row? m.path key = some record) :
    ∀ x ∈ (record.get r.name).references, target.identity? x = some x := fun x hx =>
  hts.fits.identity?_of_stored hrange (mem_of_get? ht).1
    (((hts.fits m hm key record hrow).slots r hr target ht).isIdentity hx)
    (hts.closed m hm r hr target ht key x ⟨record, hrow, hx⟩)

end Registry

namespace Household

def adoption : List (String × Json) :=
  [("name", .str "Bea"), ("petsIds", .arr [.ofNat 1])]

def newcomer : List (String × Json) :=
  ("id", .ofNat 9) :: adoption

theorem allInRange : service.registry.AllInRange (Service.afterCalls calls).tables := by
  have hpeople : (Service.afterCalls calls).tables.identities person = [.ofNat 1, .ofNat 2] := by rfl
  have hpets : (Service.afterCalls calls).tables.identities pet = [.ofNat 1] := by rfl
  intro m hm hgen id hid n hn
  simp only [service, List.mem_cons, List.not_mem_nil, or_false] at hm
  rcases hm with rfl | rfl | rfl
  · rw [hpeople] at hid
    simp only [List.mem_cons, List.not_mem_nil, or_false] at hid
    rcases hid with rfl | rfl <;> cases hn <;> rfl
  · cases hgen
  · rw [hpets, List.mem_singleton] at hid
    subst hid
    cases hn
    rfl

end Household

namespace Service

open Registry

variable {s : Service} {ts ts' next : Tables} {m n target : Model} {q r : Relation}
  {key k : RecordKey} {raw a id record incoming described bound entity saved x : Json} {path : String}
  {members : List (String × Json)} {calls : List (Service × Write)}

namespace Settled

/-- A record that is there once the root stands in its place keeps all members but some slots. Among
these are those that are linked to the root, and those where it loses to the claims of the root. -/
theorem exists_row (hg : s.registry.Coherent) (hts : s.registry.AllFit ts)
    (hm : m ∈ s.registry.models) (h : s.Settled ts ts' m key id saved bound)
    (hlinks : ∀ q ∈ m.relations, ∀ owner, q.mappedBy = some owner → ¬q.NamedIn members →
      ∀ t x, x ∉ Model.identitiesOf t (bound.get q.name))
    (hn : n ∈ s.registry.models) (hrow : (ts.put m.path key saved).row? n.path k = some record)
    (free : Relation → Prop) (hinverse : ∀ o, m.GivesInverse members n o → free o)
    (hclaims : n = m → k ≠ key → ∀ r ∈ m.owning, r.kind = .oneToOne → ¬free r →
      ∀ x ∈ (saved.get r.name).references, x ∉ (record.get r.name).references) :
    ∃ after, ts'.row? n.path k = some after ∧ n.Retains free record after := by
  obtain ⟨next, ls, hput, hcons, hchain, -, hls⟩ := h.steps
  have hfit := allFit_put hts hm h.fits
  have hnext : next.row? n.path k = some (Cut.applyAll (claims m key saved) n.path k record) := by
    rw [hput, hrow, Option.map_some]
  obtain ⟨after, hafter, hsame⟩ :=
    hchain.exists_row hg hcons.fits (fun l hl => ⟨m, (hls l hl).proper⟩) hn hnext
  refine ⟨after, hafter, fun name hname => ?_⟩
  have hunlinked : ∀ l ∈ ls, ¬(l.holder = n ∧ l.relation.name = name) := by
    rintro l hl ⟨rfl, rfl⟩
    obtain ⟨q, hq, hmb, ht, x, hx, -⟩ := (hls l hl).relation
    by_cases hnamed : q.NamedIn members
    · exact hname l.relation (hls l hl).proper.mem_owning
        (hinverse _ ⟨q, hq, hnamed, hmb, (hg.target_path hm hq ht).2.symm⟩) rfl
    · exact hlinks q hq _ hmb hnamed _ x hx
  have hunclaimed : ∀ c ∈ claims m key saved, c.holder = n → c.relation.name = name →
      c.spared k = false → c.id ∉ (record.get name).references := by
    intro c hc hholder hcn hs
    obtain ⟨r, hr, hkind, x, hx, rfl⟩ := mem_claims_iff.mp hc
    obtain ⟨target, ht⟩ := hg.exists_target hm (List.mem_filter.mp hr).1
    obtain rfl : m = n := hholder
    obtain rfl : r.name = name := hcn
    exact hclaims rfl (decide_eq_false_iff_not.mp hs) r hr hkind (fun hfree => hname r hr hfree rfl) x
      ((present?_eq_some_iff_of_oneToOne h.fits hr hkind ht).mp hx)
  rw [hsame name hunlinked, Cut.get?_applyAll_of_not_mem hg
    (fun c hc => isProper_of_mem_claims hg hm h.fits hc) hn (hfit n hn k record hrow) hunclaimed]

/-- The root keeps all that it was written with but the slots that are linked to itself. -/
theorem exists_root (hg : s.registry.Coherent) (hts : s.registry.AllFit ts)
    (hm : m ∈ s.registry.models) (h : s.Settled ts ts' m key id saved bound)
    (hlinks : ∀ q ∈ m.relations, ∀ owner, q.mappedBy = some owner → ¬q.NamedIn members →
      ∀ t x, x ∉ Model.identitiesOf t (bound.get q.name)) :
    ∃ after, ts'.row? m.path key = some after ∧ m.Retains (m.GivesInverse members m) saved after ∧
      m.identityOf after = some id ∧ ∀ a ∈ m.attributes, after.get? a.name = saved.get? a.name := by
  obtain ⟨after, hafter, hretains⟩ := h.exists_row hg hts hm hlinks hm
    (ts.row?_put_self m.path key saved) (m.GivesInverse members m) (fun _ hgiven => hgiven)
    fun _ hne => absurd rfl hne
  obtain ⟨hidentity, hscalars⟩ := hg.get?_of_retains hm hretains
  exact ⟨after, hafter, hretains, hidentity.trans h.identity, hscalars⟩

theorem isSome_row? (h : s.Settled ts ts' m key id saved bound) (path : String) (k : RecordKey) :
    (ts'.row? path k).isSome = ((ts.put m.path key saved).row? path k).isSome := by
  obtain ⟨next, ls, hput, -, hchain, -⟩ := h.steps
  rw [hchain.isSome_row?, hput.isSome_row?]

end Settled

section Update

variable (hs : s.IsPlain) (hts : s.registry.Consistent ts)
  (h : s.Updated ts ts' path raw members a m id key record incoming bound entity)

include hs h

namespace Updated

omit hs in
theorem isSome_row?_eq (path : String) (k : RecordKey) :
    (ts'.row? path k).isSome = (ts.row? path k).isSome := by
  rw [h.settled.isSome_row?, (Tables.Rewrites.put h.row _).isSome_row?]

theorem takes_saved {b : Attribute} (hb : b ∈ m.attributes) :
    b.Takes members (record.get? b.name) ((s.registry.toRecord m entity).get? b.name) := by
  have hg := hs.coherent
  have hm := h.mem_models
  have hne : m.identity ≠ b.name := (hg.attribute_name_ne_identity hm hb).symm
  have hothers : ∀ r ∈ m.relations, r.name ≠ b.name := fun r hr => hg.name_ne_attribute_name hm hr hb
  rw [hg.get?_toRecord_attribute hm entity hb, h.mirrors.others b.name hothers,
    h.binds.others b.name hothers, get?_merged s id record h.describes.exists_pairs hne,
    hg.get?_fromRecord_attribute hm record hb]
  have hscalars := (Attribute.takes_erase hne).mp (h.describes.scalars b hb)
  unfold Attribute.Takes at hscalars ⊢
  split at hscalars
  · obtain ⟨v, hv, hget⟩ := hscalars
    exact ⟨v, hv, by rw [hget, Option.some_or]⟩
  · rw [hscalars, Option.none_or]

include hts in
theorem get?_saved (hr : r ∈ m.owning) (ht : s.registry.get? r.target = some target) :
    (s.registry.toRecord m entity).get? r.name = (bound.get? r.name).map (target.slotOf r) := by
  rw [h.mirrors.toRecord_eq hs.coherent h.mem_models fun o ho v hv => ?_,
    hs.coherent.get?_toRecord h.mem_models bound hr ht]
  have hom := (List.mem_filter.mp ho).1
  obtain ⟨t, ht⟩ := hs.coherent.exists_target h.mem_models hom
  exact (h.related_bound hs.coherent hts o hom t ht v hv).1.embeds

include hts in
theorem get?_saved_of_kept (hr : r ∈ m.owning) (ht : s.registry.get? r.target = some target)
    (hkept : bound.get? r.name = (s.registry.fromRecord m record).get? r.name) :
    (s.registry.toRecord m entity).get? r.name =
      some (target.slotOf r (target.embed r (record.get r.name))) := by
  rw [h.get?_saved hs hts hr ht, hkept, hs.coherent.get?_fromRecord h.mem_models record hr ht,
    Option.map_some]

include hts in
/-- A slot that is not given is written as it was, if all that it refers to is accepted. -/
theorem references_saved (hrange : s.registry.AllInRange ts) (hr : r ∈ m.owning)
    (hnamed : ¬r.NamedIn members) :
    ((s.registry.toRecord m entity).get r.name).references = (record.get r.name).references := by
  have hrm := (List.mem_filter.mp hr).1
  obtain ⟨target, ht⟩ := hs.coherent.exists_target h.mem_models hrm
  have hkept := h.get?_bound_of_not_namedIn hs.coherent hrm hnamed
  rw [Json.get_of_get? (h.get?_saved_of_kept hs hts hr ht hkept)]
  exact Model.references_slotOf_embed ((hts.fits m h.mem_models key record h.row).slots r hr target ht)
    (hts.identity?_of_mem_references hrange h.mem_models hr ht h.row)

theorem not_mem_identitiesOf : ∀ q ∈ m.relations, ∀ owner, q.mappedBy = some owner →
    ¬q.NamedIn members → ∀ t x, x ∉ Model.identitiesOf t (bound.get q.name) :=
  fun _ hq _ hmb hnamed _ _ hx => hnamed (h.namedIn_of_mem_identitiesOf hs.coherent hq hmb hx)

include hts in
theorem not_claimed {other : Json} (hother : ts.row? m.path k = some other) (hk : k ≠ key)
    (hr : r ∈ m.owning) (hkind : r.kind = .oneToOne)
    (hkept : bound.get? r.name = (s.registry.fromRecord m record).get? r.name) :
    ∀ x ∈ ((s.registry.toRecord m entity).get r.name).references,
      x ∉ (other.get r.name).references := by
  intro x hx hmem
  obtain ⟨target, ht⟩ := hs.coherent.exists_target h.mem_models (List.mem_filter.mp hr).1
  have hown := ((h.mem_references_saved hs.coherent hts.fits hr ht
    (h.related_bound hs.coherent hts r (List.mem_filter.mp hr).1) hkept).mp hx).1
  exact hk (hts.single m h.mem_models r hr hkind k key x ⟨other, hother, hmem⟩ ⟨record, h.row, hown⟩)

include hts in
theorem overwritten (hrange : s.registry.AllInRange ts) :
    s.registry.Overwritten m id members ts ts' := by
  have hg := hs.coherent
  have hm := h.mem_models
  have hlinks := h.not_mem_identitiesOf hs
  have hkey (k : RecordKey) : RecordKey.of? id = some k ↔ k = key := by
    rw [h.key_eq, Option.some.injEq, eq_comm]
  refine ⟨fun n hn x => ?_, ?_, fun n hn k other hother hne => ?_⟩
  · exact hts.fits.mem_identities_congr h.settled.consistent.fits hn (h.isSome_row?_eq n.path)
  · have hfind (ts : Tables) : ts.find? m.path id = ts.row? m.path key :=
      Tables.find?_eq_row? h.key_eq ts m.path
    have hbefore : ts.find? m.path id = some record := (hfind ts).trans h.row
    obtain ⟨after, hafter, hretains, hidentity, hscalars⟩ := h.settled.exists_root hg hts.fits hm hlinks
    refine ⟨record, after, hbefore, (hfind ts').trans hafter, ?_, fun b hb => ?_,
      fun o ho hnamed hinverse => ?_⟩
    · rw [hidentity, hts.fits.identityOf_of_find? hm (h.isIdentity hs.coherent).1 hbefore]
    · rw [hscalars b hb]
      exact h.takes_saved hs hb
    · have hsame : after.get? o.name = (s.registry.toRecord m entity).get? o.name :=
        hretains o.name fun o' ho' hfree hname => hinverse (hg.eq_of_name hm
          (List.mem_filter.mp ho').1 (List.mem_filter.mp ho).1 hname ▸ hfree)
      rw [Json.get, hsame, ← Json.get, h.references_saved hs hts hrange ho hnamed]
  · rw [hkey] at hne
    have hput : (ts.put m.path key (s.registry.toRecord m entity)).row? n.path k = some other := by
      rw [Tables.row?_put, if_neg fun he => hne ⟨eq_of_path hn hm he.1, he.2⟩, hother]
    refine h.settled.exists_row hg hts.fits hm hlinks hn hput (m.Frees members n) (fun _ => .inl) ?_
    rintro rfl hk r hr hkind hfree
    exact h.not_claimed hs hts hother hk hr hkind (h.get?_bound_of_not_namedIn hs.coherent
      (List.mem_filter.mp hr).1 fun hnamed => hfree (.inr ⟨rfl, hkind, hnamed⟩))

end Updated

end Update

/-- An update leaves all identities as they are. The record keeps the scalars and the references that the
input does not give, and the others lose and gain references only where the input gives them. -/
theorem update_keeps_what_is_not_given (hs : s.IsPlain)
    (hcalls : ∀ c ∈ calls, c.1.registry = s.registry ∧ c.1.IsPlain ∧ c.2.IsLoose)
    (hrange : s.registry.AllInRange (afterCalls calls).tables) (hpath : s.registry.get? path = some m)
    (hok : ((afterCalls calls).run (s.update path raw (.fields members))).1.isOk = true) :
    ∃ id, m.coerceIdentity raw = .ok id ∧
      s.registry.Overwritten m id members (afterCalls calls).tables
        ((afterCalls calls).run (s.update path raw (.fields members))).2.tables := by
  have hts := consistent_afterCalls hcalls
  obtain ⟨u, a, hplan, hrun⟩ := Store.exists_of_isOk_run hok
  obtain ⟨m', id, key, record, incoming, bound, entity, h⟩ := exists_updated hs hts hplan hrun
  obtain rfl := Option.some.inj (hpath.symm.trans h.model)
  exact ⟨id, h.coerced, h.overwritten hs hts hrange⟩

theorem passport_is_kept_with_new_name :
    let updated := (afterCalls Household.calls).run
      (Household.service.update "people" (.str "2") (.fields Household.adoption))
    updated.1.isOk = true ∧ Household.service.registry.Overwritten Household.person (.ofNat 2)
      Household.adoption (afterCalls Household.calls).tables updated.2.tables := by
  intro updated
  have hok : updated.1.isOk = true := by rfl
  obtain ⟨id, hid, h⟩ := update_keeps_what_is_not_given Household.isPlain Household.calls_plain
    Household.allInRange (show Household.service.registry.get? "people" = some Household.person from rfl) hok
  cases hid
  exact ⟨hok, h⟩

section Create

theorem namedIn_of_creationMembers (h : r.NamedIn (creationMembers m members)) : r.NamedIn members := by
  unfold creationMembers at h
  split at h
  · exact h.of_erase
  · exact h

namespace Created

variable (hs : s.IsPlain) (hts : s.registry.Consistent ts)
  (h : s.Created ts ts' path members a m id key described bound entity next)

include h

theorem mem_models : m ∈ s.registry.models :=
  (mem_of_get? h.model).1

include hs

theorem get?_bound_of_not_namedIn (hq : q ∈ m.relations) (hnamed : ¬q.NamedIn members) :
    bound.get? q.name = none := by
  obtain ⟨t, ht⟩ := hs.coherent.exists_target h.mem_models hq
  rw [h.binds.related q hq t ht, bound?_of_not_namedIn (mt namedIn_of_creationMembers hnamed),
    h.describes.get?_relation hs.coherent h.mem_models hq, Option.or_none]

theorem references_saved (hr : r ∈ m.owning) (hnamed : ¬r.NamedIn members) :
    (((s.registry.toRecord m entity).set m.identity id).get r.name).references = [] := by
  have hg := hs.coherent
  have hrm := (List.mem_filter.mp hr).1
  obtain ⟨target, ht⟩ := hg.exists_target h.mem_models hrm
  obtain ⟨f, -, hentity⟩ := h.mirrors.related r hrm target ht
  rw [Json.get_set_of_ne _ (hg.name_ne_identity h.mem_models hrm).symm, Json.get,
    hg.get?_toRecord h.mem_models entity hr ht, hentity, h.get?_bound_of_not_namedIn hs hrm hnamed]
  rfl

theorem takes_saved {b : Attribute} (hb : b ∈ m.attributes) :
    b.Takes members none (((s.registry.toRecord m entity).set m.identity id).get? b.name) := by
  have hg := hs.coherent
  have hm := h.mem_models
  have hne : m.identity ≠ b.name := (hg.attribute_name_ne_identity hm hb).symm
  have hothers : ∀ r ∈ m.relations, r.name ≠ b.name := fun r hr => hg.name_ne_attribute_name hm hr hb
  rw [Json.get?_set_of_ne _ hne, hg.get?_toRecord_attribute hm entity hb,
    h.mirrors.others b.name hothers, h.binds.others b.name hothers]
  have hscalars := h.describes.scalars b hb
  unfold creationMembers at hscalars
  split at hscalars
  · exact (Attribute.takes_erase hne).mp hscalars
  · exact hscalars

theorem not_mem_identitiesOf : ∀ q ∈ m.relations, ∀ owner, q.mappedBy = some owner →
    ¬q.NamedIn members → ∀ t x, x ∉ Model.identitiesOf t (bound.get q.name) := by
  intro q hq _ _ hnamed t x hx
  rw [Json.get_of_get?_none (h.get?_bound_of_not_namedIn hs hq hnamed)] at hx
  exact absurd hx List.not_mem_nil

include hts in
theorem extended : s.registry.Extended m id members ts ts' := by
  have hg := hs.coherent
  have hm := h.mem_models
  have hlinks := h.not_mem_identitiesOf hs
  have hnext := consistent_of_rows hg hts h.same
  have hrows : ∀ path k, (ts'.row? path k).isSome =
      if path = m.path ∧ k = key then true else (ts.row? path k).isSome := by
    intro path k
    rw [h.settled.isSome_row?, Tables.row?_put, ← h.same]
    split <;> rfl
  obtain ⟨y, hy, hform, -⟩ := h.settled.fits.identity
  obtain rfl := Option.some.inj (hy.symm.trans h.settled.identity)
  have hfree : ts.find? m.path y = none := (Tables.find?_eq_row? h.key_eq ts m.path).trans h.free
  refine ⟨fun hmem => ?_, hfree, fun path k => ?_, ?_, fun n hn k other hother => ?_⟩
  · rw [hts.fits.mem_identities_iff hm hform, Tables.Stored, hfree] at hmem
    cases hmem
  · rw [hrows, h.key_eq, Option.some.injEq, eq_comm (a := key)]
    split
    · next he => simp [he]
    · next he => simp [he]
  · obtain ⟨after, hafter, -, hidentity, hscalars⟩ := h.settled.exists_root hg hnext.fits hm hlinks
    refine ⟨after, (Tables.find?_eq_row? h.key_eq ts' m.path).trans hafter, hidentity, fun b hb => ?_⟩
    rw [hscalars b hb]
    exact h.takes_saved hs hb
  · have hput : (next.put m.path key ((s.registry.toRecord m entity).set m.identity y)).row? n.path k =
        some other := by
      rw [Tables.row?_put, if_neg, h.same, hother]
      rintro ⟨hp, rfl⟩
      rw [hp, h.free] at hother
      cases hother
    refine h.settled.exists_row hg hnext.fits hm hlinks hn hput (m.Frees members n) (fun _ => .inl) ?_
    rintro rfl - r hr hkind hfree x hx
    have hnamed : ¬r.NamedIn members := fun hnamed => hfree (.inr ⟨rfl, hkind, hnamed⟩)
    rw [h.references_saved hs hr hnamed] at hx
    exact absurd hx List.not_mem_nil

end Created

theorem create_congr (hpath : s.registry.get? path = some m) (hgen : m.identityGenerated = true)
    {members' : List (String × Json)}
    (h : OrderedMap.erase members' m.identity = OrderedMap.erase members m.identity) :
    s.create path (.fields members') = s.create path (.fields members) := by
  have hgiven (members : List (String × Json)) :
      creationMembers m members = OrderedMap.erase members m.identity :=
    if_pos hgen
  simp only [create, creation, resolve_eq_ok_iff.mpr hpath, ok_bind, create_input, hgiven, h]

end Create

/-- A creation adds one record under an identity that none has had, with the scalars that are given. The
others lose and gain references only where the input gives them. An identity that is given does not matter
where it is generated. -/
theorem creation_adds_one_record (hs : s.IsPlain)
    (hcalls : ∀ c ∈ calls, c.1.registry = s.registry ∧ c.1.IsPlain ∧ c.2.IsLoose)
    (hpath : s.registry.get? path = some m) :
    (((afterCalls calls).run (s.create path (.fields members))).1.isOk = true →
      ∃ id, s.registry.Extended m id members (afterCalls calls).tables
        ((afterCalls calls).run (s.create path (.fields members))).2.tables) ∧
    (m.identityGenerated = true → ∀ members',
      OrderedMap.erase members' m.identity = OrderedMap.erase members m.identity →
        (afterCalls calls).run (s.create path (.fields members')) =
          (afterCalls calls).run (s.create path (.fields members))) := by
  have hts := consistent_afterCalls hcalls
  refine ⟨fun hok => ?_, fun hgen members' h => by rw [create_congr hpath hgen h]⟩
  obtain ⟨u, a, hplan, hrun⟩ := Store.exists_of_isOk_run hok
  obtain ⟨m', id, key, described, bound, entity, next, h⟩ := exists_created hs hts hplan hrun
  obtain rfl := Option.some.inj (hpath.symm.trans h.model)
  exact ⟨id, h.extended hs hts⟩

/-- A third person takes over a pet, and gets the next number. -/
theorem third_person_is_added :
    ((afterCalls Household.calls).run
        (Household.service.create "people" (.fields Household.newcomer))).1.isOk = true ∧
      (∃ id, Household.service.registry.Extended Household.person id Household.newcomer
        (afterCalls Household.calls).tables ((afterCalls Household.calls).run
          (Household.service.create "people" (.fields Household.newcomer))).2.tables) ∧
      (afterCalls Household.calls).run
          (Household.service.create "people" (.fields Household.adoption)) =
        (afterCalls Household.calls).run
          (Household.service.create "people" (.fields Household.newcomer)) :=
  have hpath : Household.service.registry.get? "people" = some Household.person := by rfl
  have hok : ((afterCalls Household.calls).run
      (Household.service.create "people" (.fields Household.newcomer))).1.isOk = true := by decide +kernel
  ⟨hok, (creation_adds_one_record Household.isPlain Household.calls_plain hpath).1 hok,
    (creation_adds_one_record Household.isPlain Household.calls_plain hpath).2 rfl Household.adoption
      (by rfl)⟩

end Service

end EntityGraph
