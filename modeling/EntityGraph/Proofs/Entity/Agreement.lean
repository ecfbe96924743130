import EntityGraph.Proofs.Entity.Amendment
import EntityGraph.Proofs.Query.Holders

namespace EntityGraph

namespace Registry

variable {g : Registry} {ts : Tables} {m target : Model} {r : Relation} {raw e e' e'' v x : Json}

section Found

variable (hg : g.Coherent) (hts : g.AllFit ts) (htm : target ∈ g.models)

/-- A value that embeds existing records only. -/
structure Found (ts : Tables) (target : Model) (many : Bool) (v : Json) : Prop where
  fits : target.FitsValue many v
  stored : ∀ x ∈ target.identitiesOf v, ts.Stored target.path x
  accepted : ∀ x ∈ target.identitiesOf v, target.identity? x = some x

include hg hts htm in
theorem found_of_fetch? {reference : Json} (h : g.fetch? ts target reference = some v) :
    ∃ x, target.FitsEntity v ∧ target.identityOf v = some x ∧ ts.Stored target.path x ∧
      target.identity? x = some x := by
  obtain ⟨record, hrecord, rfl⟩ := Option.map_eq_some_iff.mp h
  obtain ⟨x, hx, hfind⟩ := Option.bind_eq_some_iff.mp hrecord
  obtain ⟨hform, hself⟩ := Model.isIdentity_of_referenceId? (hg.identityTypes target htm) hx
  have hid : target.identityOf (g.fromRecord target record) = some x := by
    rw [hg.identityOf_fromRecord htm, hts.identityOf_of_find? htm hform hfind]
  exact ⟨x, ⟨isObject_fromRecord g target record, x, hid, hform⟩, hid,
    Tables.stored_of_find? hfind, hself⟩

theorem found_empty (r : Relation) : Found ts target r.isCollection r.empty := by
  unfold Relation.empty
  split
  · next hr =>
    rw [hr]
    exact ⟨.list fun _ h => absurd h List.not_mem_nil, fun _ h => absurd h List.not_mem_nil,
      fun _ h => absurd h List.not_mem_nil⟩
  · next hr =>
    rw [Bool.eq_false_iff.mpr hr]
    exact ⟨.none, fun _ h => absurd h List.not_mem_nil, fun _ h => absurd h List.not_mem_nil⟩

include hg hts htm in
theorem found_one {reference : Json} (h : g.fetch? ts target reference = some v) :
    Found ts target false v := by
  obtain ⟨x, hv, hid, hst, hself⟩ := found_of_fetch? hg hts htm h
  have hids : target.identitiesOf v = [x] := by
    rw [Model.identitiesOf_of_isObject hv.1, hid]
    rfl
  refine ⟨.one hv, ?_, ?_⟩
  · simpa [hids] using hst
  · simpa [hids] using hself

include hg hts htm in
theorem found_fetchAll (references : List Json) :
    Found ts target true (g.fetchAll ts target references) := by
  have hmem {w} (hw : w ∈ distinctBy (sameEntity target)
      (references.filterMap (g.fetch? ts target))) : ∃ x, target.FitsEntity w ∧
        target.identityOf w = some x ∧ ts.Stored target.path x ∧ target.identity? x = some x := by
    obtain ⟨reference, -, hf⟩ := List.mem_filterMap.mp (mem_of_mem_distinctBy hw)
    exact found_of_fetch? hg hts htm hf
  have hids {x} (hx : x ∈ target.identitiesOf (g.fetchAll ts target references)) :
      ts.Stored target.path x ∧ target.identity? x = some x := by
    obtain ⟨w, hw, hi⟩ := List.mem_filterMap.mp hx
    obtain ⟨y, -, hy, hst, hself⟩ := hmem hw
    rw [hi, Option.some.injEq] at hy
    exact hy ▸ ⟨hst, hself⟩
  refine ⟨.list fun w hw => ?_, fun x hx => (hids hx).1, fun x hx => (hids hx).2⟩
  obtain ⟨x, hfits, -⟩ := hmem hw
  exact hfits

include hg hts htm in
theorem found_of_bound? (h : g.bound? ts target r raw = some v) :
    Found ts target r.isCollection v := by
  have hone {reference} (hr : r.isCollection = false)
      (hf : g.fetch? ts target reference = some v) : Found ts target r.isCollection v := by
    rw [hr]
    exact found_one hg hts htm hf
  have hall {references} (hr : r.isCollection = true)
      (hv : some (g.fetchAll ts target references) = some v) : Found ts target r.isCollection v := by
    rw [hr, ← Option.some.inj hv]
    exact found_fetchAll hg hts htm references
  have hempty (hv : some r.empty = some v) : Found ts target r.isCollection v := by
    rw [← Option.some.inj hv]
    exact found_empty r
  rcases Option.or_eq_some_iff.mp h with h | ⟨-, h⟩
  · obtain ⟨w, -, hw⟩ := Option.bind_eq_some_iff.mp h
    unfold boundByIdentity at hw
    split at hw
    · exact hempty hw
    · next hr => exact hall hr hw
    · next hr _ _ => exact hall hr hw
    · next hr _ => exact hone hr hw
  · obtain ⟨w, -, hw⟩ := Option.bind_eq_some_iff.mp h
    unfold boundByName at hw
    split at hw
    · exact hempty hw
    · next hr => exact hall hr hw
    · cases hw
    · next hr _ => exact hone hr hw

end Found

section Bind

structure Binds (g : Registry) (ts : Tables) (m : Model) (raw e e' : Json) : Prop where
  isObject : e'.IsObject
  others : ∀ name, (∀ r ∈ m.relations, r.name ≠ name) → e'.get? name = e.get? name
  related : ∀ r ∈ m.relations, ∀ target, g.get? r.target = some target →
    e'.get? r.name = (g.bound? ts target r raw).or (e.get? r.name)

theorem bindRelations_cons {rest : List Relation} (ht : g.get? r.target = some target)
    (ts : Tables) (raw e : Json) :
    g.bindRelations ts raw (r :: rest) e = g.bindRelations ts raw rest
      (match g.bound? ts target r raw with
        | some v => e.set r.name v
        | none => e) := by
  rw [bindRelations, target_eq_ok_iff.mpr ht]
  rfl

def binding? (g : Registry) (ts : Tables) (raw : Json) (r : Relation) : Option Json :=
  (g.get? r.target).bind fun target => g.bound? ts target r raw

theorem binding?_eq (ht : g.get? r.target = some target) (ts : Tables) (raw : Json) :
    g.binding? ts raw r = g.bound? ts target r raw := by
  rw [binding?, ht, Option.bind_some]

theorem bindRelations_eq {rs : List Relation}
    (hrs : ∀ r ∈ rs, ∃ target, g.get? r.target = some target) (ts : Tables) (raw e : Json) :
    g.bindRelations ts raw rs e = .ok (e.amendAll rs fun r _ => g.binding? ts raw r) := by
  induction rs generalizing e with
  | nil => rfl
  | cons r rest ih =>
    obtain ⟨target, ht⟩ := hrs r List.mem_cons_self
    rw [bindRelations_cons ht, ih fun o ho => hrs o (List.mem_cons_of_mem _ ho), Json.amendAll,
      Json.amendAll, List.foldl_cons, binding?_eq ht]
    rfl

theorem exists_binds (hg : g.Coherent) (hm : m ∈ g.models) (ts : Tables) (raw : Json)
    (he : e.IsObject) :
    ∃ e', g.bindRelations ts raw m.relations e = .ok e' ∧ g.Binds ts m raw e e' := by
  refine ⟨_, bindRelations_eq (fun r hr => hg.exists_target hm hr) ts raw e, he.amendAll _ _,
    fun name hn => e.get?_amendAll_of_ne hn _, fun r hr target ht => ?_⟩
  rw [Json.get?_amendAll_self (hg.nodup_relation_names hm) hr he, binding?_eq ht]

end Bind

section Mirror

structure KeepsIdentity (target : Model) (f : Json → Json) : Prop where
  isObject : ∀ w, w.IsObject → (f w).IsObject
  identityOf : ∀ w, target.identityOf (f w) = target.identityOf w

section Embedded

variable {f f' : Json → Json} {many : Bool}

theorem mapEmbedded_id (v : Json) : mapEmbedded id v = v := by
  cases v with
  | arr vs => rw [mapEmbedded, List.map_id]
  | _ => rfl

namespace KeepsIdentity

theorem comp (h' : KeepsIdentity target f') (h : KeepsIdentity target f) :
    KeepsIdentity target (f' ∘ f) :=
  ⟨fun w hw => h'.isObject _ (h.isObject w hw),
    fun w => (h'.identityOf (f w)).trans (h.identityOf w)⟩

theorem mapEmbedded_comp (h : KeepsIdentity target f) (f' : Json → Json) (v : Json) :
    mapEmbedded f' (mapEmbedded f v) = mapEmbedded (f' ∘ f) v := by
  cases v with
  | arr vs => rw [mapEmbedded, mapEmbedded, mapEmbedded, List.map_map]
  | obj members =>
    obtain ⟨changed, hchanged⟩ := h.isObject _ (Json.isObject_obj members)
    rw [mapEmbedded, mapEmbedded, Function.comp_apply, hchanged, mapEmbedded]
  | _ => rfl

theorem identitiesOf_mapEmbedded (h : KeepsIdentity target f) (v : Json) :
    target.identitiesOf (mapEmbedded f v) = target.identitiesOf v := by
  cases v with
  | arr vs =>
    rw [mapEmbedded, Model.identitiesOf_arr, Model.identitiesOf_arr, List.filterMap_map]
    exact List.filterMap_congr fun w _ => h.identityOf w
  | obj members =>
    have he := Json.isObject_obj members
    rw [mapEmbedded, Model.identitiesOf_of_isObject he,
      Model.identitiesOf_of_isObject (h.isObject _ he), h.identityOf]
  | _ => rfl

theorem embeds_mapEmbedded (h : KeepsIdentity target f) (hv : v.Embeds many) :
    (mapEmbedded f v).Embeds many := by
  cases hv with
  | none => exact .none many
  | one hobject =>
    obtain ⟨members, rfl⟩ := hobject
    exact .one (h.isObject _ (Json.isObject_obj members))
  | list hobjects =>
    refine .list fun w hw => ?_
    obtain ⟨u, hu, rfl⟩ := List.mem_map.mp hw
    exact h.isObject u (hobjects u hu)

theorem slotOf_mapEmbedded (h : KeepsIdentity target f) (hv : v.Embeds r.isCollection) :
    target.slotOf r (mapEmbedded f v) = target.slotOf r v := by
  rw [Model.slotOf_of_embeds hv, Model.slotOf_of_embeds (h.embeds_mapEmbedded hv), Model.acceptedIn,
    h.identitiesOf_mapEmbedded, ← Model.acceptedIn]

theorem fitsValue_mapEmbedded (h : KeepsIdentity target f) (hv : target.FitsValue many v) :
    target.FitsValue many (mapEmbedded f v) := by
  have hentity {w} (hw : target.FitsEntity w) : target.FitsEntity (f w) := by
    obtain ⟨he, x, hx, hform⟩ := hw
    exact ⟨h.isObject w he, x, by rw [h.identityOf, hx], hform⟩
  cases hv with
  | none => exact .none
  | one hv =>
    obtain ⟨members, rfl⟩ := hv.1
    exact .one (hentity hv)
  | list hv =>
    refine .list fun w hw => ?_
    obtain ⟨u, hu, rfl⟩ := List.mem_map.mp hw
    exact hentity (hv u hu)

end KeepsIdentity

end Embedded

/-- An entity that embeds the same entities, of which only the side that leads back may differ. -/
structure Mirrors (g : Registry) (m : Model) (e e' : Json) : Prop where
  isObject : e.IsObject → e'.IsObject
  others : ∀ name, (∀ r ∈ m.relations, r.name ≠ name) → e'.get? name = e.get? name
  related : ∀ r ∈ m.relations, ∀ target, g.get? r.target = some target →
    ∃ f, KeepsIdentity target f ∧ e'.get? r.name = (e.get? r.name).map (mapEmbedded f)

namespace Mirrors

theorem refl (e : Json) : g.Mirrors m e e :=
  ⟨id, fun _ _ => rfl, fun _ _ _ _ => ⟨id, ⟨fun _ h => h, fun _ => rfl⟩,
    ((Option.map_congr fun v _ => mapEmbedded_id v).trans Option.map_id').symm⟩⟩

theorem trans (h : g.Mirrors m e e') (h' : g.Mirrors m e' e'') : g.Mirrors m e e'' := by
  refine ⟨fun he => h'.isObject (h.isObject he),
    fun name hn => (h'.others name hn).trans (h.others name hn), fun r hr target ht => ?_⟩
  obtain ⟨f, hf, he⟩ := h.related r hr target ht
  obtain ⟨f', hf', he'⟩ := h'.related r hr target ht
  refine ⟨f' ∘ f, hf'.comp hf, ?_⟩
  rw [he', he, Option.map_map]
  exact Option.map_congr fun v _ => hf.mapEmbedded_comp f' v

variable (h : g.Mirrors m e e') (hr : r ∈ m.relations) (ht : g.get? r.target = some target)

include h hr ht

theorem identities :
    (e'.get? r.name).map target.identitiesOf = (e.get? r.name).map target.identitiesOf := by
  obtain ⟨f, hf, he⟩ := h.related r hr target ht
  rw [he, Option.map_map]
  exact Option.map_congr fun v _ => hf.identitiesOf_mapEmbedded v

theorem identitiesOf_get :
    target.identitiesOf (e'.get r.name) = target.identitiesOf (e.get r.name) := by
  have hi := h.identities hr ht
  rw [Json.get, Json.get]
  cases he : e.get? r.name <;> cases he' : e'.get? r.name <;> simp_all

theorem fits {many : Bool} (hv : ∀ v, e.get? r.name = some v → target.FitsValue many v) :
    ∀ v, e'.get? r.name = some v → target.FitsValue many v := by
  obtain ⟨f, hf, he⟩ := h.related r hr target ht
  intro v hget
  rw [he] at hget
  obtain ⟨w, hw, rfl⟩ := Option.map_eq_some_iff.mp hget
  exact hf.fitsValue_mapEmbedded (hv w hw)

omit hr ht in
theorem toRecord_eq (hg : g.Coherent) (hm : m ∈ g.models)
    (hv : ∀ r ∈ m.owning, ∀ v, e.get? r.name = some v → v.Embeds r.isCollection) :
    g.toRecord m e' = g.toRecord m e := by
  have hidentity : ∀ r ∈ m.relations, r.name ≠ m.identity := fun r hr => hg.name_ne_identity hm hr
  refine toRecord_congr (Model.identityOf_congr (h.others m.identity hidentity)) (fun a ha => ?_)
    fun r hr target ht => ?_
  · exact h.others a.name fun r hr => hg.name_ne_attribute_name hm hr ha
  · obtain ⟨f, hf, he⟩ := h.related r (List.mem_filter.mp hr).1 target ht
    rw [he, Option.map_map]
    exact Option.map_congr fun v hget => hf.slotOf_mapEmbedded (hv r hr v hget)

end Mirrors

theorem reflectInto_eq_or_set (m : Model) (field : String) (many : Bool) (snapshot other : Json) :
    reflectInto m field many snapshot other = other ∨
      ∃ x, reflectInto m field many snapshot other = other.set field x := by
  unfold reflectInto
  split
  · split
    · exact .inr ⟨_, rfl⟩
    · split
      · split
        · exact .inl rfl
        · exact .inr ⟨_, rfl⟩
      · exact .inr ⟨_, rfl⟩
  · exact .inl rfl

theorem reflectInto_of_not_isObject {other : Json} (ho : ¬other.IsObject) (m : Model) (field : String)
    (many : Bool) (snapshot : Json) : reflectInto m field many snapshot other = other := by
  cases other with
  | obj members => exact absurd (Json.isObject_obj members) ho
  | _ => rfl

def backLinks (g : Registry) (e : Json) (r : Relation) : List BackLink :=
  match r.mappedBy, g.get? r.target with
  | some owner, some target =>
      (target.identitiesOf (e.get r.name)).map fun id =>
        ⟨target.path, id, owner, ((target.relation? owner).map Relation.isCollection).getD false⟩
  | _, _ => []

theorem mem_backLinks_iff {link : BackLink} {owner : String} (ho : r.mappedBy = some owner)
    (ht : g.get? r.target = some target) : link ∈ g.backLinks e r ↔
      ∃ x ∈ target.identitiesOf (e.get r.name), link = ⟨target.path, x, owner,
        ((target.relation? owner).map Relation.isCollection).getD false⟩ := by
  rw [backLinks, ho, ht]
  simp only [List.mem_map, eq_comm]

theorem backLinks_of_owning (g : Registry) (e : Json) (ho : r.mappedBy = none) :
    g.backLinks e r = [] := by
  rw [backLinks, ho]

theorem Mirrors.backLinks_eq (h : g.Mirrors m e e') (hr : r ∈ m.relations) :
    g.backLinks e' r = g.backLinks e r := by
  unfold backLinks
  split
  · next target _ ht => rw [h.identitiesOf_get hr ht]
  · rfl

theorem exists_counter (hg : g.Coherent) (hm : m ∈ g.models) (hr : r ∈ m.relations)
    (ht : g.get? r.target = some target) {name : String} (hc : r.counterpart = some name) :
    ∃ counter, counterRelation target name = .ok counter ∧ counter ∈ target.relations ∧
      counter.name = name ∧ (counter.isOwning = true ↔ r.mappedBy = some name) := by
  obtain ⟨htm, hp⟩ := hg.target_path hm hr ht
  have hfound {counter : Relation} (hcm : counter ∈ target.relations) (hn : counter.name = name) :
      counterRelation target name = .ok counter := by
    rw [counterRelation, ← hn, hg.relation?_name htm hcm]
  cases hmb : r.mappedBy with
  | some owner =>
    rw [Relation.counterpart, hmb, Option.some_or, Option.some.injEq] at hc
    subst hc
    obtain ⟨counter, hco, hn, -⟩ := hg.owners m hm r hr owner hmb target htm hp
    obtain ⟨hcm, hcowning⟩ := List.mem_filter.mp hco
    exact ⟨counter, hfound hcm hn, hcm, hn, by simp [hcowning]⟩
  | none =>
    rw [Relation.counterpart, hmb, Option.none_or] at hc
    have hro : r ∈ m.owning := Model.mem_owning_iff.mpr ⟨hr, hmb⟩
    obtain ⟨counter, hcm, hn, hcmb, -⟩ := hg.inverses m hm r hro name hc target htm hp
    exact ⟨counter, hfound hcm hn, hcm, hn, by simp [Relation.isOwning, hcmb]⟩

section Step

variable {name : String} {counter : Relation} (hg : g.Coherent) (hm : m ∈ g.models)
  (hr : r ∈ m.relations) (ht : g.get? r.target = some target)

include hg in
theorem linksTo_eq_backLinks (htm : target ∈ g.models) (ht : g.get? r.target = some target)
    (hc : r.counterpart = some name) (hcm : counter ∈ target.relations) (hn : counter.name = name)
    (howning : counter.isOwning = true ↔ r.mappedBy = some name)
    (hv : target.identitiesOf v = target.identitiesOf (e.get r.name)) :
    linksTo target counter v = g.backLinks e r := by
  unfold linksTo
  split
  · next ho =>
    rw [backLinks, howning.mp ho, ht]
    dsimp only
    rw [← hv, ← hn, hg.relation?_name htm hcm, Option.map_some, Option.getD_some,
      Model.identitiesOf, List.map_filterMap]
  · next ho =>
    cases hmb : r.mappedBy with
    | none => rw [backLinks_of_owning g e hmb]
    | some owner =>
      rw [Relation.counterpart, hmb, Option.some_or] at hc
      exact absurd (howning.mpr (hmb.trans hc)) ho

include ht in
theorem reflectRelation_eq (hc : r.counterpart = some name)
    (hcounter : counterRelation target name = .ok counter) (snapshot e : Json)
    (pending : List BackLink) :
    g.reflectRelation m snapshot r ⟨e, pending⟩ =
      match (e.get? r.name).map
        (mapEmbedded (reflectInto m name counter.isCollection snapshot)) with
      | none => .ok ⟨e, pending⟩
      | some v => .ok ⟨e.set r.name v, pending ++ linksTo target counter v⟩ := by
  rw [reflectRelation, hc]
  dsimp only
  rw [target_eq_ok_iff.mpr ht, ok_bind, hcounter, ok_bind]
  cases e.get? r.name <;> rfl

include hg hm hr ht in
theorem mirrors_set {f : Json → Json} (he : e.IsObject) (hv : e.get? r.name = some v)
    (hf : KeepsIdentity target f) : g.Mirrors m e (e.set r.name (mapEmbedded f v)) := by
  refine ⟨fun he => he.set _ _, fun other ho => Json.get?_set_of_ne e (ho r hr) _,
    fun o ho t hto => ?_⟩
  by_cases hno : r.name = o.name
  · obtain rfl := hg.eq_of_name hm hr ho hno
    rw [ht, Option.some.injEq] at hto
    exact ⟨f, hto ▸ hf, by rw [Json.get?_set_self he, hv, Option.map_some]⟩
  · obtain ⟨f', hf', he'⟩ := (Mirrors.refl (g := g) (m := m) e).related o ho t hto
    exact ⟨f', hf', (Json.get?_set_of_ne e hno _).trans he'⟩

end Step

theorem exists_reflectRelation (hg : g.Coherent) (hm : m ∈ g.models) (hr : r ∈ m.relations)
    (snapshot e : Json) (pending : List BackLink) :
    ∃ e', g.reflectRelation m snapshot r ⟨e, pending⟩ = .ok ⟨e', pending ++ g.backLinks e r⟩ ∧
      g.Mirrors m e e' := by
  obtain ⟨target, ht⟩ := hg.exists_target hm hr
  obtain ⟨htm, hp⟩ := hg.target_path hm hr ht
  cases hc : r.counterpart with
  | none =>
    have hmb : r.mappedBy = none := (Option.or_eq_none_iff.mp hc).1
    refine ⟨e, ?_, .refl e⟩
    rw [reflectRelation, hc, backLinks_of_owning g e hmb, List.append_nil]
    rfl
  | some name =>
    obtain ⟨counter, hcounter, hcm, hn, howning⟩ := exists_counter hg hm hr ht hc
    have hlinks {v : Json} (hv : target.identitiesOf v = target.identitiesOf (e.get r.name)) :
        linksTo target counter v = g.backLinks e r :=
      linksTo_eq_backLinks hg htm ht hc hcm hn howning hv
    cases hv : e.get? r.name with
    | none =>
      refine ⟨e, ?_, .refl e⟩
      have hget := Json.get_of_get?_none hv
      have hnone : linksTo target counter .null = [] := by
        unfold linksTo
        split <;> rfl
      rw [reflectRelation_eq ht hc hcounter, hv, ← hlinks (v := .null) (by rw [hget]),
        hnone, List.append_nil]
      rfl
    | some v =>
      have hreflect : KeepsIdentity target
          (reflectInto m name counter.isCollection snapshot) := by
        refine ⟨fun w hw => ?_, fun w => ?_⟩ <;>
          rcases reflectInto_eq_or_set m name counter.isCollection snapshot w with h | ⟨x, h⟩
        · rwa [h]
        · rw [h]
          exact hw.set _ _
        · rw [h]
        · rw [h, Model.identityOf_set_of_ne w (hn ▸ (hg.name_ne_identity htm hcm))]
      refine ⟨_, ?_, mirrors_set hg hm hr ht (Json.isObject_of_get? hv) hv hreflect⟩
      rw [reflectRelation_eq ht hc hcounter, hv, Option.map_some,
        ← hlinks (by rw [hreflect.identitiesOf_mapEmbedded, Json.get_of_get? hv])]

theorem exists_foldlM_reflect (hg : g.Coherent) (hm : m ∈ g.models) (snapshot : Json)
    {rs : List Relation} (hrs : ∀ r ∈ rs, r ∈ m.relations) (e : Json) (pending : List BackLink) :
    ∃ e', rs.foldlM (fun s r => g.reflectRelation m snapshot r s) ⟨e, pending⟩ =
        .ok ⟨e', pending ++ rs.flatMap (g.backLinks e)⟩ ∧ g.Mirrors m e e' := by
  induction rs generalizing e pending with
  | nil => exact ⟨e, by rw [List.flatMap_nil, List.append_nil]; rfl, .refl e⟩
  | cons r rest ih =>
    obtain ⟨e₁, hstep, he₁⟩ :=
      exists_reflectRelation hg hm (hrs r List.mem_cons_self) snapshot e pending
    have hrest : ∀ o ∈ rest, o ∈ m.relations := fun o ho => hrs o (List.mem_cons_of_mem _ ho)
    obtain ⟨e', hrun, he'⟩ := ih hrest e₁ (pending ++ g.backLinks e r)
    refine ⟨e', ?_, he₁.trans he'⟩
    have hlinks : rest.flatMap (g.backLinks e₁) = rest.flatMap (g.backLinks e) :=
      List.flatMap_congr fun o ho => he₁.backLinks_eq (hrest o ho)
    rw [List.foldlM_cons, hstep, ok_bind, hrun, hlinks, List.flatMap_cons, List.append_assoc]

/-- Agreement never fails: every relation is mirrored, and the links of all inverse relations are
left to be written. -/
theorem exists_reflect (hg : g.Coherent) (hm : m ∈ g.models) (e : Json) :
    ∃ e', g.reflect m e = .ok ⟨e', m.relations.flatMap (g.backLinks e)⟩ ∧ g.Mirrors m e e' :=
  exists_foldlM_reflect hg hm (m.snapshot e) (fun _ h => h) e []

theorem agree_eq {input : EntityInput} {s : Agreement} (h : g.agreement ts m e input = .ok s) :
    g.agree ts m e input = s := by
  rw [agree, h]
  rfl

theorem exists_agree_fields (hg : g.Coherent) (hm : m ∈ g.models) (ts : Tables)
    (members : List (String × Json)) (he : e.IsObject) :
    ∃ bound e', g.agree ts m e (.fields members) =
        ⟨e', m.relations.flatMap (g.backLinks bound)⟩ ∧
      g.Binds ts m (.obj members) e bound ∧ g.Mirrors m bound e' := by
  obtain ⟨bound, hbind, hbound⟩ := exists_binds hg hm ts (.obj members) he
  obtain ⟨e', hreflect, he'⟩ := exists_reflect hg hm bound
  exact ⟨bound, e', agree_eq (bind_eq_ok_iff.mpr ⟨bound, hbind, hreflect⟩), hbound, he'⟩

theorem exists_agree_entity (hg : g.Coherent) (hm : m ∈ g.models) (ts : Tables) (e v : Json) :
    ∃ e', g.agree ts m e (.entity v) = ⟨e', m.relations.flatMap (g.backLinks e)⟩ ∧
      g.Mirrors m e e' := by
  obtain ⟨e', hreflect, he'⟩ := exists_reflect hg hm e
  exact ⟨e', agree_eq hreflect, he'⟩

/-- Whatever is written, the identity stays, and what is left to be written are links to entities that
inverse relations embed. Only loose fields are bound first; an entity is taken as it is. -/
theorem exists_agree (hg : g.Coherent) (hm : m ∈ g.models) (ts : Tables) (input : EntityInput)
    (he : e.IsObject) :
    ∃ bound e', g.agree ts m e input = ⟨e', m.relations.flatMap (g.backLinks bound)⟩ ∧
      m.identityOf e' = m.identityOf e ∧ g.Mirrors m bound e' ∧
        ∀ members, input = .fields members → g.Binds ts m (.obj members) e bound := by
  have hothers : ∀ r ∈ m.relations, r.name ≠ m.identity := fun r hr => hg.name_ne_identity hm hr
  cases input with
  | fields members =>
    obtain ⟨bound, e', hagree, hbinds, hmirrors⟩ := exists_agree_fields hg hm ts members he
    refine ⟨bound, e', hagree, ?_, hmirrors, fun _ h => EntityInput.fields.inj h ▸ hbinds⟩
    rw [Model.identityOf_congr (hmirrors.others m.identity hothers),
      Model.identityOf_congr (hbinds.others m.identity hothers)]
  | entity v =>
    obtain ⟨e', hagree, hmirrors⟩ := exists_agree_entity hg hm ts e v
    exact ⟨e, e', hagree, Model.identityOf_congr (hmirrors.others m.identity hothers), hmirrors,
      fun _ h => nomatch h⟩

theorem get?_agree (hg : g.Coherent) (hm : m ∈ g.models) (ts : Tables) (input : EntityInput)
    (he : e.IsObject) {name : String} (hn : ∀ r ∈ m.relations, r.name ≠ name) :
    (g.agree ts m e input).entity.get? name = e.get? name := by
  cases input with
  | fields members =>
    obtain ⟨bound, e', hagree, hbinds, hmirrors⟩ := exists_agree_fields hg hm ts members he
    rw [hagree, hmirrors.others name hn, hbinds.others name hn]
  | entity v =>
    obtain ⟨e', hagree, hmirrors⟩ := exists_agree_entity hg hm ts e v
    rw [hagree, hmirrors.others name hn]

end Mirror

section Related

/-- What an entity has under a relation embeds stored entities. -/
def RelatedBy (g : Registry) (ts : Tables) (r : Relation) (e : Json) : Prop :=
  ∀ target, g.get? r.target = some target → ∀ v, e.get? r.name = some v →
    target.FitsValue r.isCollection v ∧ ∀ x ∈ target.identitiesOf v, ts.Stored target.path x

def Related (g : Registry) (ts : Tables) (m : Model) (e : Json) : Prop :=
  ∀ r ∈ m.relations, g.RelatedBy ts r e

theorem RelatedBy.of_none (h : e.get? r.name = none) : g.RelatedBy ts r e :=
  fun _ _ _ hv => nomatch h.symm.trans hv

namespace RelatedBy

variable (h : g.RelatedBy ts r e)

include h

theorem binds (hg : g.Coherent) (hts : g.AllFit ts) (hm : m ∈ g.models) (hr : r ∈ m.relations)
    (hb : g.Binds ts m raw e e') : g.RelatedBy ts r e' := by
  intro target ht v hv
  rw [hb.related r hr target ht, Option.or_eq_some_iff] at hv
  rcases hv with hv | ⟨-, hv⟩
  · have hfound := found_of_bound? hg hts (hg.target_path hm hr ht).1 hv
    exact ⟨hfound.fits, hfound.stored⟩
  · exact h target ht v hv

theorem mirrors (hr : r ∈ m.relations) (hmirrors : g.Mirrors m e e') : g.RelatedBy ts r e' := by
  intro target ht v hv
  refine ⟨hmirrors.fits hr ht (fun w hw => (h target ht w hw).1) v hv, ?_⟩
  have hids := hmirrors.identities hr ht
  rw [hv, Option.map_some] at hids
  obtain ⟨w, hw, hwids⟩ := Option.map_eq_some_iff.mp hids.symm
  rw [← hwids]
  exact (h target ht w hw).2

theorem of_mem (ht : g.get? r.target = some target) (hx : x ∈ target.identitiesOf (e.get r.name)) :
    target.IsIdentity x ∧ ts.Stored target.path x := by
  cases hv : e.get? r.name with
  | none =>
    rw [Json.get, hv] at hx
    exact absurd hx List.not_mem_nil
  | some v =>
    rw [Json.get_of_get? hv] at hx
    obtain ⟨hfits, hst⟩ := h target ht v hv
    exact ⟨hfits.isIdentity hx, hst x hx⟩

theorem mem_references_toRecord (hg : g.Coherent) (hm : m ∈ g.models) (hr : r ∈ m.owning)
    (ht : g.get? r.target = some target) :
    x ∈ ((g.toRecord m e).get r.name).references ↔
      x ∈ target.identitiesOf (e.get r.name) ∧ target.identity? x = some x := by
  have hrm := (List.mem_filter.mp hr).1
  have htm := (hg.target_path hm hrm ht).1
  rw [Json.get, hg.get?_toRecord hm e hr ht]
  cases hv : e.get? r.name with
  | none =>
    rw [Json.get, hv]
    simp [Model.identitiesOf_null]
  | some v =>
    rw [Option.map_some, Option.getD_some, Json.get_of_get? hv]
    exact Model.mem_references_slotOf (hg.identityTypes target htm) (h target ht v hv).1

/-- What a record of the entity refers to is stored. -/
theorem stored_of_mem_references (hg : g.Coherent) (hm : m ∈ g.models) (hr : r ∈ m.owning)
    (ht : g.get? r.target = some target) (hx : x ∈ ((g.toRecord m e).get r.name).references) :
    ts.Stored target.path x :=
  (h.of_mem ht ((h.mem_references_toRecord hg hm hr ht).mp hx).1).2

end RelatedBy

end Related

end Registry

end EntityGraph
