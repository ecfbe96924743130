import EntityGraph.Proofs.Entity.Agreement

namespace EntityGraph

theorem Json.get?_foldl_set {pairs : List (String × Json)} {name : String}
    (h : ∀ p ∈ pairs, p.1 ≠ name) (v : Json) :
    (pairs.foldl (fun v p => v.set p.1 p.2) v).get? name = v.get? name := by
  induction pairs generalizing v with
  | nil => rfl
  | cons p rest ih =>
    rw [List.foldl_cons, ih fun q hq => h q (List.mem_cons_of_mem _ hq),
      Json.get?_set_of_ne v (h p List.mem_cons_self)]

theorem Json.get?_foldl_set_of_nodup {pairs : List (String × Json)} (h : (pairs.map Prod.fst).Nodup)
    {v : Json} (hv : v.IsObject) (name : String) :
    (pairs.foldl (fun v p => v.set p.1 p.2) v).get? name =
      (OrderedMap.get? pairs name).or (v.get? name) := by
  induction pairs generalizing v with
  | nil => rfl
  | cons p rest ih =>
    obtain ⟨k, x⟩ := p
    obtain ⟨hk, hrest⟩ := List.nodup_cons.mp h
    rw [List.foldl_cons, ih hrest (hv.set k x), OrderedMap.get?]
    by_cases hn : k = name
    · subst hn
      have hnone : OrderedMap.get? rest k = none := by
        by_contra hne
        obtain ⟨y, hy⟩ := Option.ne_none_iff_exists'.mp hne
        exact hk (List.mem_map.mpr ⟨_, OrderedMap.mem_of_get? hy, rfl⟩)
      rw [hnone, Json.get?_set_self hv, if_pos rfl, Option.none_or, Option.some_or]
    · rw [Json.get?_set_of_ne v hn, if_neg hn]

theorem Json.IsObject.foldl_set {v : Json} (h : v.IsObject) (pairs : List (String × Json)) :
    (pairs.foldl (fun v p => v.set p.1 p.2) v).IsObject := by
  induction pairs generalizing v with
  | nil => exact h
  | cons p rest ih => exact ih (h.set p.1 p.2)

/-- The value of a scalar after members have been written: the one that is given, in the form of its type,
or else the one before. -/
def Attribute.Takes (a : Attribute) (members : List (String × Json)) (before after : Option Json) :
    Prop :=
  match (Json.obj members).get? a.name with
  | some raw => ∃ v, coerce a.type raw = .ok v ∧ after = some v
  | none => after = before

namespace EntityInput

variable {m : Model} {members : List (String × Json)} {e id : Json} {name : String}

/-- The entity of loose fields has the identity, if one is given, and the declared scalars that are. -/
structure Describes (m : Model) (members : List (String × Json)) (e : Json) : Prop where
  exists_pairs : ∃ pairs, e = .ofPairs pairs
  names : ∀ p ∈ e.members, p.1 ∈ m.identity :: m.attributes.map Attribute.name
  identity : ∀ id, m.identityOf e = some id →
    ∃ raw, m.identityOf (.obj members) = some raw ∧ m.coerceIdentity raw = .ok id
  scalars : ∀ a ∈ m.attributes, a.Takes members none (e.get? a.name)

theorem Describes.isObject (h : Describes m members e) : e.IsObject := by
  obtain ⟨pairs, rfl⟩ := h.exists_pairs
  exact Json.isObject_ofPairs pairs

theorem fst_mem_of_mem_identityPart {source : Json} {part : List (String × Json)}
    (h : identityPart m source = .ok part) {p : String × Json} (hp : p ∈ part) :
    p.1 = m.identity ∧ ∃ raw, m.identityOf source = some raw ∧ m.coerceIdentity raw = .ok p.2 := by
  unfold identityPart at h
  split at h
  · cases h
    exact absurd hp List.not_mem_nil
  · next raw hraw =>
    cases hc : m.coerceIdentity raw with
    | error e => rw [hc] at h; cases h
    | ok id =>
      rw [hc] at h
      cases h
      obtain rfl := List.mem_singleton.mp hp
      exact ⟨rfl, raw, hraw, hc⟩

theorem fst_mem_of_mem_scalarParts {source : Json} {p : String × Except CoercionError Json}
    (h : p ∈ scalarParts m source) : p.1 ∈ m.attributes.map Attribute.name := by
  obtain ⟨a, ha, hp⟩ := List.mem_filterMap.mp h
  obtain ⟨raw, -, rfl⟩ := Option.map_eq_some_iff.mp hp
  exact List.mem_map_of_mem ha

def scalar? : String × Except CoercionError Json → Option (String × Json)
  | (name, .ok v) => some (name, v)
  | (_, .error _) => none

theorem fst_mem_of_mem_scalars {source : Json} {p : String × Json}
    (h : p ∈ (scalarParts m source).filterMap scalar?) : p.1 ∈ m.attributes.map Attribute.name := by
  obtain ⟨⟨name, part⟩, hq, hp⟩ := List.mem_filterMap.mp h
  cases part with
  | error e => cases hp
  | ok v => exact Option.some.inj hp ▸ fst_mem_of_mem_scalarParts hq

theorem fst_mem_of_mem_relationPart {input : EntityInput} {source : Json} {p : String × Json}
    (h : p ∈ relationPart m source input) : p.1 ∈ m.relations.map Relation.name := by
  unfold relationPart at h
  split at h
  · exact absurd h List.not_mem_nil
  · obtain ⟨r, hr, hp⟩ := List.mem_filterMap.mp h
    obtain ⟨x, -, rfl⟩ := Option.map_eq_some_iff.mp hp
    exact List.mem_map_of_mem hr

theorem toEntity_eq_ok {input : EntityInput} (h : input.toEntity m = .ok e) :
    ∃ members identity, input.members m = .ok members ∧
      identityPart m (.obj members) = .ok identity ∧
        (∀ p ∈ scalarParts m (.obj members), ∃ v, p.2 = .ok v) ∧
          e = .ofPairs (identity ++ (scalarParts m (.obj members)).filterMap scalar? ++
            relationPart m (.obj members) input) := by
  obtain ⟨members, hmembers, h⟩ := bind_eq_ok_iff.mp h
  obtain ⟨identity, hidentity, h⟩ := bind_eq_ok_iff.mp h
  dsimp only at h
  split at h
  · next hnone =>
    refine ⟨members, identity, hmembers, hidentity, fun p hp => ?_, (pure_eq_ok_iff.mp h).symm⟩
    obtain ⟨name, part⟩ := p
    cases part with
    | ok v => exact ⟨v, rfl⟩
    | error e => exact nomatch List.filterMap_eq_nil_iff.mp (List.isEmpty_iff.mp hnone) _ hp
  · cases h

theorem isObject_of_toEntity {input : EntityInput} (h : input.toEntity m = .ok e) :
    e.IsObject := by
  obtain ⟨members, identity, -, -, -, rfl⟩ := toEntity_eq_ok h
  exact Json.isObject_ofPairs _

theorem exists_coerceIdentity {input : EntityInput} (hd : m.declaredNames.Nodup)
    (h : input.toEntity m = .ok e) (hid : m.identityOf e = some id) :
    ∃ members raw, input.members m = .ok members ∧ m.identityOf (.obj members) = some raw ∧
      m.coerceIdentity raw = .ok id := by
  obtain ⟨members, identity, hmembers, hidentity, -, rfl⟩ := toEntity_eq_ok h
  obtain ⟨hscalars, -, hdisjoint⟩ := List.nodup_append.mp hd
  have hp := Json.mem_of_get?_ofPairs (Model.identityOf_eq_some_iff.mp hid).1
  rcases List.mem_append.mp hp with hp | hp
  · rcases List.mem_append.mp hp with hp | hp
    · obtain ⟨-, raw, hraw, hcoerce⟩ := fst_mem_of_mem_identityPart hidentity hp
      exact ⟨members, raw, hmembers, hraw, hcoerce⟩
    · exact absurd (fst_mem_of_mem_scalars hp) (List.nodup_cons.mp hscalars).1
  · exact absurd rfl
      (hdisjoint m.identity List.mem_cons_self m.identity (fst_mem_of_mem_relationPart hp))

theorem keys_sublist {source : Json} {part : List (String × Json)}
    (h : identityPart m source = .ok part) :
    ((part ++ (scalarParts m source).filterMap scalar?).map Prod.fst).Sublist
      (m.identity :: m.attributes.map Attribute.name) := by
  have hscalars : (((scalarParts m source).filterMap scalar?).map Prod.fst).Sublist
      (m.attributes.map Attribute.name) := by
    rw [scalarParts, List.filterMap_filterMap]
    refine map_filterMap_sublist (fun a p hp => ?_) m.attributes
    obtain ⟨q, hq, hp⟩ := Option.bind_eq_some_iff.mp hp
    obtain ⟨raw, -, rfl⟩ := Option.map_eq_some_iff.mp hq
    cases hc : coerce a.type raw with
    | error e => rw [hc] at hp; cases hp
    | ok v => rw [hc] at hp; rw [← Option.some.inj hp]
  have hidentity : (part.map Prod.fst).Sublist [m.identity] := by
    unfold identityPart at h
    split at h
    · cases h
      exact List.nil_sublist _
    · next raw _ =>
      cases hc : m.coerceIdentity raw with
      | error e => rw [hc] at h; cases h
      | ok id => rw [hc] at h; cases h; exact List.Sublist.refl _
  rw [List.map_append]
  exact hidentity.append hscalars

theorem takes_of_scalarParts (hd : (m.identity :: m.attributes.map Attribute.name).Nodup)
    {part : List (String × Json)} (hpart : identityPart m (.obj members) = .ok part)
    (hok : ∀ p ∈ scalarParts m (.obj members), ∃ v, p.2 = .ok v) {a : Attribute}
    (ha : a ∈ m.attributes) :
    a.Takes members none ((Json.ofPairs
      (part ++ (scalarParts m (.obj members)).filterMap scalar?)).get? a.name) := by
  have hnodup := (keys_sublist hpart).nodup hd
  unfold Attribute.Takes
  split
  · next raw hraw =>
    have hmem : (a.name, coerce a.type raw) ∈ scalarParts m (.obj members) :=
      List.mem_filterMap.mpr ⟨a, ha, by rw [hraw]; rfl⟩
    obtain ⟨v, hv⟩ := hok _ hmem
    refine ⟨v, hv, (Json.get?_ofPairs hnodup a.name v).mpr (List.mem_append_right part ?_)⟩
    exact List.mem_filterMap.mpr ⟨_, hmem, by rw [show coerce a.type raw = .ok v from hv]; rfl⟩
  · next hnone =>
    refine Option.eq_none_iff_forall_not_mem.mpr fun x hx => ?_
    have hname := List.mem_map_of_mem (f := Attribute.name) ha
    rcases List.mem_append.mp (Json.mem_of_get?_ofPairs hx) with hp | hp
    · have hidentity := (fst_mem_of_mem_identityPart hpart hp).1
      exact (List.nodup_cons.mp hd).1 (hidentity ▸ hname)
    · obtain ⟨⟨name, part⟩, hq, hp⟩ := List.mem_filterMap.mp hp
      obtain ⟨b, -, hq⟩ := List.mem_filterMap.mp hq
      obtain ⟨raw, hraw, hq⟩ := Option.map_eq_some_iff.mp hq
      obtain ⟨rfl, rfl⟩ := Prod.mk.inj hq
      cases hc : coerce b.type raw with
      | error e => rw [hc] at hp; cases hp
      | ok v =>
        rw [hc] at hp
        rw [(Prod.mk.inj (Option.some.inj hp)).1, hnone] at hraw
        cases hraw

theorem describes_of_toEntity (hd : m.declaredNames.Nodup)
    (h : (EntityInput.fields members).toEntity m = .ok e) : Describes m members e := by
  obtain ⟨source, identity, hsource, hidentity, hok, he⟩ := toEntity_eq_ok h
  obtain rfl := Except.ok.inj hsource
  rw [relationPart, List.append_nil] at he
  refine ⟨⟨_, he⟩, fun p hp => ?_, fun id hid => ?_, fun a ha => ?_⟩
  · subst he
    rcases List.mem_append.mp (OrderedMap.mem_of_mem_ofPairs hp) with hp | hp
    · exact (fst_mem_of_mem_identityPart hidentity hp).1 ▸ List.mem_cons_self
    · exact List.mem_cons_of_mem _ (fst_mem_of_mem_scalars hp)
  · obtain ⟨source, raw, hsource, hraw, hcoerce⟩ := exists_coerceIdentity hd h hid
    obtain rfl := Except.ok.inj hsource
    exact ⟨raw, hraw, hcoerce⟩
  · exact he ▸ takes_of_scalarParts (List.nodup_append.mp hd).1 hidentity hok ha

theorem Describes.get?_relation (h : Describes m members e) {g : Registry} (hg : g.Coherent)
    (hm : m ∈ g.models) {r : Relation} (hr : r ∈ m.relations) : e.get? r.name = none := by
  obtain ⟨pairs, rfl⟩ := h.isObject
  have hdisjoint := (List.nodup_append.mp (hg.distinctNames m hm)).2.2
  cases hget : (Json.obj pairs).get? r.name with
  | none => rfl
  | some x =>
    have hname := h.names _ (OrderedMap.mem_of_get? hget)
    exact absurd rfl (hdisjoint r.name hname r.name (List.mem_map_of_mem hr))

structure Overlays (m : Model) (source loose whole : Json) : Prop where
  isObject : whole.IsObject
  others : ∀ name, (∀ r ∈ m.relations, r.name ≠ name) → whole.get? name = loose.get? name
  related : ∀ r ∈ m.relations, whole.get? r.name = (source.get? r.name).or (loose.get? r.name)

theorem toEntity_entity (m : Model) (members : List (String × Json)) :
    (EntityInput.entity (.obj members)).toEntity m =
      ((EntityInput.fields members).toEntity m).map fun e =>
        (relationPart m (.obj members) (.entity (.obj members))).foldl
          (fun v p => v.set p.1 p.2) e := by
  unfold toEntity
  simp only [EntityInput.members, ok_bind]
  cases identityPart m (.obj members) with
  | error e => rfl
  | ok identity =>
    rw [ok_bind, ok_bind]
    split
    · have hfold (pairs more : List (String × Json)) :
          Json.ofPairs (pairs ++ more) = more.foldl (fun v p => v.set p.1 p.2) (.ofPairs pairs) := by
        induction more generalizing pairs with
        | nil => rw [List.append_nil, List.foldl_nil]
        | cons p rest ih =>
          rw [List.append_cons, ih, List.foldl_cons]
          simp only [Json.ofPairs, OrderedMap.ofPairs, List.foldl_append, List.foldl_cons,
            List.foldl_nil, Json.set]
      rw [hfold]
      simp only [relationPart, List.append_nil]
      rfl
    · rfl

theorem overlays_foldl_set (hd : (m.relations.map Relation.name).Nodup) (source v : Json) {loose : Json}
    (h : loose.IsObject) : Overlays m source loose
      ((relationPart m source (.entity v)).foldl (fun v p => v.set p.1 p.2) loose) := by
  have hnames : ((relationPart m source (.entity v)).map Prod.fst).Nodup := by
    refine List.Sublist.nodup (map_filterMap_sublist (fun r p hp => ?_) m.relations) hd
    obtain ⟨x, -, rfl⟩ := Option.map_eq_some_iff.mp hp
    rfl
  refine ⟨h.foldl_set _, fun name hn => Json.get?_foldl_set (fun p hp => ?_) loose, fun r hr => ?_⟩
  · obtain ⟨o, ho, hname⟩ := List.mem_map.mp (fst_mem_of_mem_relationPart hp)
    exact hname ▸ hn o ho
  · rw [Json.get?_foldl_set_of_nodup hnames h]
    refine congrArg (Option.or · _) (Option.ext fun x => ?_)
    rw [OrderedMap.get?_eq_some_iff_of_nodup hnames]
    simp only [relationPart, List.mem_filterMap, Option.map_eq_some_iff, Prod.mk.injEq]
    constructor
    · rintro ⟨o, ho, y, hy, hn, rfl⟩
      exact hn ▸ hy
    · exact fun hx => ⟨r, hr, x, hx, rfl, rfl⟩

theorem takes_of_toEntity (hd : m.declaredNames.Nodup) {input : EntityInput}
    (h : input.toEntity m = .ok e) (hmembers : input.members m = .ok members) {a : Attribute}
    (ha : a ∈ m.attributes) : a.Takes members none (e.get? a.name) := by
  obtain ⟨-, hrelations, hdisjoint⟩ := List.nodup_append.mp hd
  cases input with
  | fields given =>
    obtain rfl := Except.ok.inj hmembers
    exact (describes_of_toEntity hd h).scalars a ha
  | entity v =>
    obtain rfl : v = .obj members := by
      cases v <;> first | cases hmembers; rfl | cases hmembers
    rw [toEntity_entity] at h
    cases hloose : (EntityInput.fields members).toEntity m with
    | error e => rw [hloose] at h; cases h
    | ok loose =>
      rw [hloose] at h
      obtain rfl := Except.ok.inj h
      have hname : ∀ r ∈ m.relations, r.name ≠ a.name := fun r hr hn =>
        hdisjoint a.name (List.mem_cons_of_mem _ (List.mem_map_of_mem ha)) r.name
          (List.mem_map_of_mem hr) hn.symm
      rw [(overlays_foldl_set hrelations (.obj members) (.obj members)
        (isObject_of_toEntity hloose)).others a.name hname]
      exact (describes_of_toEntity hd hloose).scalars a ha

theorem exists_overlays (hd : m.declaredNames.Nodup) {loose : Json}
    (h : (EntityInput.fields members).toEntity m = .ok loose) :
    ∃ whole, (EntityInput.entity (.obj members)).toEntity m = .ok whole ∧
      Overlays m (.obj members) loose whole := by
  refine ⟨_, ?_, overlays_foldl_set (List.nodup_append.mp hd).2.1 (.obj members) (.obj members)
    (isObject_of_toEntity h)⟩
  rw [toEntity_entity, h]
  rfl

end EntityInput

end EntityGraph
