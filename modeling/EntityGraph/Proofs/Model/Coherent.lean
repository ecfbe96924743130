import EntityGraph.Entity.Binding
import EntityGraph.Model.Resolve
import EntityGraph.Proofs.Outcome
import EntityGraph.Proofs.Text.Strip
import Mathlib.Data.List.Nodup

namespace EntityGraph

theorem barePath_barePath (path : String) : barePath (barePath path) = barePath path :=
  by simp [barePath, Text.strip, Text.stripList_stripList]

theorem Relation.isOwning_of_none {r : Relation} (h : r.mappedBy = none) : r.isOwning = true := by
  rw [isOwning, h]
  rfl

theorem Relation.isOwning_of_some {r : Relation} {owner : String} (h : r.mappedBy = some owner) :
    r.isOwning = false := by
  rw [isOwning, h]
  rfl

theorem Model.mem_owning_iff {m : Model} {r : Relation} :
    r ∈ m.owning ↔ r ∈ m.relations ∧ r.mappedBy = none := by
  rw [owning, List.mem_filter, Relation.isOwning, Option.isNone_iff_eq_none]

def Model.declaredNames (m : Model) : List String :=
  m.identity :: m.attributes.map Attribute.name ++ m.relations.map Relation.name

namespace Registry

structure Coherent (g : Registry) : Prop where
  barePaths : ∀ m ∈ g.models, barePath m.path = m.path
  identityTypes : ∀ m ∈ g.models, ModelDefinition.isIdentityType m.identityType = true
  distinctNames : ∀ m ∈ g.models, m.declaredNames.Nodup
  targets : ∀ m ∈ g.models, ∀ r ∈ m.relations, ∃ target ∈ g.models, target.path = r.target
  owningKinds : ∀ m ∈ g.models, ∀ r ∈ m.owning, r.kind ≠ .oneToMany
  owners : ∀ m ∈ g.models, ∀ r ∈ m.relations, ∀ name, r.mappedBy = some name →
    ∀ target ∈ g.models, target.path = r.target →
      ∃ owner ∈ target.owning, owner.name = name ∧ owner.target = m.path ∧
        r.kind.pairs owner.kind = true
  inverses : ∀ m ∈ g.models, ∀ r ∈ m.owning, ∀ name, r.inverse = some name →
    ∀ target ∈ g.models, target.path = r.target →
      ∃ i ∈ target.relations, i.name = name ∧ i.mappedBy = some r.name ∧ i.target = m.path

end Registry

namespace ModelDefinition

theorem checkDistinct_eq_ok {names paths : List String} {definitions : List ModelDefinition}
    (h : checkDistinct names paths definitions = .ok ()) :
    (definitions.map name).Nodup ∧ (definitions.map fun m => barePath m.path).Nodup ∧
      (∀ m ∈ definitions, m.name ∉ names) ∧ ∀ m ∈ definitions, barePath m.path ∉ paths := by
  induction definitions generalizing names paths with
  | nil => simp
  | cons m rest ih =>
    unfold checkDistinct at h
    split at h
    · cases h
    · next hname =>
      split at h
      · cases h
      · next hpath =>
        obtain ⟨hnames, hpaths, hn, hp⟩ := ih h
        simp only [List.mem_cons, not_or] at hn hp
        refine ⟨?_, ?_, ?_, ?_⟩
        · refine List.nodup_cons.mpr ⟨fun hm => ?_, hnames⟩
          obtain ⟨d, hd, he⟩ := List.mem_map.mp hm
          exact (hn d hd).1 he
        · refine List.nodup_cons.mpr ⟨fun hm => ?_, hpaths⟩
          obtain ⟨d, hd, he⟩ := List.mem_map.mp hm
          exact (hp d hd).1 he
        · exact List.forall_mem_cons.mpr ⟨hname, fun d hd => (hn d hd).2⟩
        · exact List.forall_mem_cons.mpr ⟨hpath, fun d hd => (hp d hd).2⟩

theorem nodup_of_firstRepeated {seen names : List String} (h : firstRepeated seen names = none) :
    names.Nodup ∧ ∀ name ∈ names, name ∉ seen := by
  induction names generalizing seen with
  | nil => simp
  | cons name rest ih =>
    unfold firstRepeated at h
    split at h
    · cases h
    · next hn =>
      obtain ⟨hrest, hseen⟩ := ih h
      refine ⟨List.nodup_cons.mpr ⟨fun hm => hseen name hm List.mem_cons_self, hrest⟩, ?_⟩
      exact List.forall_mem_cons.mpr ⟨hn, fun k hk => fun hs => hseen k hk (List.mem_cons_of_mem _ hs)⟩

variable {definitions : List ModelDefinition} {d t : ModelDefinition}

theorem named?_eq_some {name : String} (h : named? definitions name = some d) :
    d ∈ definitions ∧ d.name = name :=
  ⟨List.mem_of_find?_eq_some h, by simpa using List.find?_some h⟩

theorem named?_self (hn : (definitions.map name).Nodup) (hd : d ∈ definitions) :
    named? definitions d.name = some d := by
  cases h : named? definitions d.name with
  | none => exact absurd (List.find?_eq_none.mp h d hd) (by simp)
  | some t =>
    obtain ⟨ht, he⟩ := named?_eq_some h
    rw [List.inj_on_of_nodup_map hn ht hd he]

structure Checked (definitions : List ModelDefinition) : Prop where
  names : (definitions.map name).Nodup
  paths : (definitions.map fun m => barePath m.path).Nodup
  identities : ∀ d ∈ definitions, isIdentityType d.identity.type = true
  declared : ∀ d ∈ definitions, d.declaredNames.Nodup
  relations : ∀ d ∈ definitions, ∀ r ∈ d.relations, checkRelation definitions d r = .ok ()

theorem checked_of_check (h : check definitions = .ok ()) : Checked definitions := by
  obtain ⟨⟨⟩, hdistinct, hmodels⟩ := bind_eq_ok_iff.mp h
  obtain ⟨hnames, hpaths, -, -⟩ := checkDistinct_eq_ok hdistinct
  have hmodel (d) (hd : d ∈ definitions) : checkIdentity d = .ok () ∧ checkNames d = .ok () ∧
      ∀ r ∈ d.relations, checkRelation definitions d r = .ok () := by
    obtain ⟨⟨⟩, hidentity, hrest⟩ := bind_eq_ok_iff.mp (forM_eq_ok_iff.mp hmodels d hd)
    obtain ⟨⟨⟩, hdeclared, hrelations⟩ := bind_eq_ok_iff.mp hrest
    exact ⟨hidentity, hdeclared, forM_eq_ok_iff.mp hrelations⟩
  refine ⟨hnames, hpaths, fun d hd => ?_, fun d hd => ?_, fun d hd => (hmodel d hd).2.2⟩
  · have hi := (hmodel d hd).1
    unfold checkIdentity at hi
    split at hi
    · cases hi
    · next ht => simpa using ht
  · have hn := (hmodel d hd).2.1
    unfold checkNames at hn
    split at hn
    · cases hn
    · next hr => exact (nodup_of_firstRepeated hr).1

theorem resolveModel_eq_ok {m : Model} (h : resolveModel definitions d = .ok m) :
    m.path = barePath d.path ∧ m.identity = d.identity.name ∧ m.identityType = d.identity.type ∧
      m.attributes = d.attributes ∧
      List.Forall₂ (fun r s => resolveRelation definitions d r = .ok s) d.relations m.relations := by
  obtain ⟨relations, hr, he⟩ := bind_eq_ok_iff.mp h
  cases he
  exact ⟨rfl, rfl, rfl, rfl, mapM_eq_ok_iff.mp hr⟩

theorem resolveRelation_eq_ok {r : RelationDefinition} {s : Relation}
    (h : resolveRelation definitions d r = .ok s) :
    ∃ t, named? definitions r.target = some t ∧ s.name = r.name ∧ s.kind = r.kind ∧
      s.target = barePath t.path ∧ s.mappedBy = r.mappedBy ∧
      s.inverse = inverseOf? definitions d.name r.name := by
  unfold resolveRelation at h
  split at h
  · cases h
  · next t ht =>
    cases h
    exact ⟨t, ht, rfl, rfl, rfl, rfl, rfl⟩

theorem declaredNames_of_resolveModel {m : Model} (h : resolveModel definitions d = .ok m) :
    m.declaredNames = d.declaredNames := by
  obtain ⟨-, hi, -, ha, hr⟩ := resolveModel_eq_ok h
  have hnames : d.relations.map RelationDefinition.name = m.relations.map Relation.name := by
    refine map_eq_map_of_forall₂ hr fun r s hs => ?_
    obtain ⟨t, -, hn, -⟩ := resolveRelation_eq_ok hs
    exact hn.symm
  rw [Model.declaredNames, declaredNames, hi, ha, hnames]

theorem mem_inverses {model owner name : String} :
    ((model, owner), name) ∈ inverses definitions ↔
      ∃ d ∈ definitions, ∃ r ∈ d.relations, r.target = model ∧ r.mappedBy = some owner ∧
        r.name = name := by
  simp only [inverses, List.mem_flatMap, List.mem_filterMap, Option.map_eq_some_iff,
    Prod.mk.injEq]
  constructor
  · rintro ⟨d, hd, r, hr, o, ho, ⟨ht, rfl⟩, hn⟩
    exact ⟨d, hd, r, hr, ht, ho, hn⟩
  · rintro ⟨d, hd, r, hr, ht, ho, hn⟩
    exact ⟨d, hd, r, hr, owner, ho, ⟨ht, rfl⟩, hn⟩

theorem mem_inverses_of_inverseOf? {model owner name : String}
    (h : inverseOf? definitions model owner = some name) :
    ((model, owner), name) ∈ inverses definitions := by
  obtain ⟨e, he, rfl⟩ := Option.map_eq_some_iff.mp h
  have hm := List.mem_reverse.mp (List.mem_of_find?_eq_some he)
  have hk : e.1 = (model, owner) := by simpa using List.find?_some he
  rwa [← hk]

namespace Checked

variable (hc : Checked definitions)

include hc

theorem eq_of_path (hd : d ∈ definitions) (ht : t ∈ definitions)
    (h : barePath d.path = barePath t.path) : d = t :=
  List.inj_on_of_nodup_map hc.paths hd ht h

theorem eq_of_relation {r o : RelationDefinition} (hd : d ∈ definitions) (hr : r ∈ d.relations)
    (ho : o ∈ d.relations) (h : r.name = o.name) : r = o := by
  have hn := (List.nodup_append.mp (hc.declared d hd)).2.1
  exact List.inj_on_of_nodup_map hn hr ho h

theorem owning_kind {r : RelationDefinition} (hd : d ∈ definitions) (hr : r ∈ d.relations)
    (ho : r.mappedBy = none) : r.kind ≠ .oneToMany := by
  intro hk
  have h := hc.relations d hd r hr
  unfold checkRelation at h
  split at h
  · cases h
  · simp [hk, ho] at h

theorem owner {r : RelationDefinition} (hd : d ∈ definitions) (hr : r ∈ d.relations)
    {name : String} (ho : r.mappedBy = some name) (ht : named? definitions r.target = some t) :
    ∃ o ∈ t.relations, o.name = name ∧ o.mappedBy = none ∧ o.target = d.name ∧
      r.kind.pairs o.kind = true := by
  have h := hc.relations d hd r hr
  unfold checkRelation at h
  rw [ht] at h
  have h : checkOwner d t r name = .ok () := by
    rw [ho] at h
    cases hk : r.kind with
    | manyToOne => exact nomatch hk ▸ h
    | _ => simpa only [hk] using h
  unfold checkOwner at h
  split at h
  · cases h
  · next o hf =>
    split at h
    · next hp =>
      exact ⟨o, List.mem_of_find?_eq_some hf, by simpa using List.find?_some hf,
        Option.isNone_iff_eq_none.mp hp.2.1, hp.2.2, hp.1⟩
    · cases h

section Resolved

variable {m target : Model} {q : RelationDefinition} {r : Relation} {name : String}
  (hd : d ∈ definitions) (hm : resolveModel definitions d = .ok m) (hq : q ∈ d.relations)
  (hr : resolveRelation definitions d q = .ok r) (ht : t ∈ definitions)
  (htarget : resolveModel definitions t = .ok target) (hp : target.path = r.target)

include ht htarget hp hr in
theorem named?_of_resolved : named? definitions q.target = some t := by
  obtain ⟨t', hn, -, -, hpath, -⟩ := resolveRelation_eq_ok hr
  obtain rfl : t = t' := by
    refine hc.eq_of_path ht (named?_eq_some hn).1 ?_
    rw [← (resolveModel_eq_ok htarget).1, hp, hpath]
  exact hn

include hd hm hq hr ht htarget hp

theorem exists_owner (hmapped : r.mappedBy = some name) :
    ∃ owner ∈ target.owning, owner.name = name ∧ owner.target = m.path ∧
      r.kind.pairs owner.kind = true := by
  obtain ⟨-, -, -, hk, -, hmb, -⟩ := resolveRelation_eq_ok hr
  obtain ⟨o, ho, hon, hom, hot, hpairs⟩ :=
    hc.owner hd hq (hmb ▸ hmapped) (hc.named?_of_resolved hr ht htarget hp)
  obtain ⟨s, hs, hos⟩ := exists_right_of_forall₂ (resolveModel_eq_ok htarget).2.2.2.2 ho
  obtain ⟨d', hd', hsn, hsk, hst, hsm, -⟩ := resolveRelation_eq_ok hos
  obtain rfl : d = d' := by
    rw [hot, named?_self hc.names hd] at hd'
    exact Option.some.inj hd'
  refine ⟨s, Model.mem_owning_iff.mpr ⟨hs, hsm.trans hom⟩, hsn.trans hon, ?_, ?_⟩
  · rw [hst, (resolveModel_eq_ok hm).1]
  · rw [hk, hsk, hpairs]

theorem exists_inverse (hinverse : r.inverse = some name) :
    ∃ i ∈ target.relations, i.name = name ∧ i.mappedBy = some r.name ∧ i.target = m.path := by
  obtain ⟨-, -, hrn, -, -, -, hinv⟩ := resolveRelation_eq_ok hr
  obtain ⟨d₂, hd₂, q₂, hq₂, htarget₂, hmb₂, hname₂⟩ :=
    mem_inverses.mp (mem_inverses_of_inverseOf? (hinv ▸ hinverse))
  have hn₂ : named? definitions q₂.target = some d := by
    rw [htarget₂, named?_self hc.names hd]
  -- the relation that is mapped by this one belongs to the definition that this one leads to
  obtain ⟨o, ho, hon, -, hot, -⟩ := hc.owner hd₂ hq₂ hmb₂ hn₂
  obtain rfl : o = q := hc.eq_of_relation hd ho hq hon
  have ht₂ := hc.named?_of_resolved hr ht htarget hp
  rw [hot, named?_self hc.names hd₂] at ht₂
  obtain rfl := Option.some.inj ht₂
  obtain ⟨i, hi, hqi⟩ := exists_right_of_forall₂ (resolveModel_eq_ok htarget).2.2.2.2 hq₂
  obtain ⟨d', hd', hin, -, hit, him, -⟩ := resolveRelation_eq_ok hqi
  rw [hn₂] at hd'
  obtain rfl := Option.some.inj hd'
  exact ⟨i, hi, by rw [hin, hname₂], by rw [him, hmb₂, hrn], by rw [hit, (resolveModel_eq_ok hm).1]⟩

end Resolved

end Checked

end ModelDefinition

namespace Registry

variable {definitions : List ModelDefinition} {g : Registry}

theorem models_of_registerAll {models : List Model} {g' : Registry}
    (h : g.registerAll models = .ok g') : g'.models = g.models ++ models := by
  unfold registerAll at h
  induction models generalizing g with
  | nil => rw [List.append_nil, ← pure_eq_ok_iff.mp h]
  | cons m rest ih =>
    obtain ⟨g₁, h₁, h₂⟩ := bind_eq_ok_iff.mp h
    unfold register at h₁
    split at h₁
    · cases h₁
    · cases h₁
      rw [ih h₂, List.append_assoc]
      rfl

theorem checked_of_ofDefinitions (h : ofDefinitions definitions = .ok g) :
    ModelDefinition.Checked definitions ∧
      List.Forall₂ (fun d m => ModelDefinition.resolveModel definitions d = .ok m) definitions
        g.models := by
  obtain ⟨⟨⟩, hcheck, hrest⟩ := bind_eq_ok_iff.mp h
  obtain ⟨models, hmodels, hregister⟩ := bind_eq_ok_iff.mp hrest
  refine ⟨ModelDefinition.checked_of_check hcheck, ?_⟩
  rw [models_of_registerAll hregister]
  exact mapM_eq_ok_iff.mp hmodels

theorem coherent_of_ofDefinitions (h : ofDefinitions definitions = .ok g) : g.Coherent := by
  obtain ⟨hc, hall⟩ := checked_of_ofDefinitions h
  have hmodel (m) (hm : m ∈ g.models) :
      ∃ d ∈ definitions, ModelDefinition.resolveModel definitions d = .ok m :=
    exists_left_of_forall₂ hall hm
  have hrelation {m} (hm : m ∈ g.models) {r} (hr : r ∈ m.relations) :
      ∃ d ∈ definitions, ModelDefinition.resolveModel definitions d = .ok m ∧
        ∃ q ∈ d.relations, ModelDefinition.resolveRelation definitions d q = .ok r := by
    obtain ⟨d, hd, hdm⟩ := hmodel m hm
    obtain ⟨-, -, -, -, hrs⟩ := ModelDefinition.resolveModel_eq_ok hdm
    obtain ⟨q, hq, hqr⟩ := exists_left_of_forall₂ hrs hr
    exact ⟨d, hd, hdm, q, hq, hqr⟩
  have hpath {d m} (hdm : ModelDefinition.resolveModel definitions d = .ok m) :
      m.path = barePath d.path :=
    (ModelDefinition.resolveModel_eq_ok hdm).1
  refine ⟨fun m hm => ?_, fun m hm => ?_, fun m hm => ?_, fun m hm r hr => ?_, fun m hm r hr => ?_,
    fun m hm r hr name hname target ht he => ?_, fun m hm r hr name hname target ht he => ?_⟩
  · obtain ⟨d, hd, hdm⟩ := hmodel m hm
    rw [hpath hdm, barePath_barePath]
  · obtain ⟨d, hd, hdm⟩ := hmodel m hm
    rw [(ModelDefinition.resolveModel_eq_ok hdm).2.2.1]
    exact hc.identities d hd
  · obtain ⟨d, hd, hdm⟩ := hmodel m hm
    rw [ModelDefinition.declaredNames_of_resolveModel hdm]
    exact hc.declared d hd
  · obtain ⟨d, hd, hdm, q, hq, hqr⟩ := hrelation hm hr
    obtain ⟨t, hn, -, -, hp, -⟩ := ModelDefinition.resolveRelation_eq_ok hqr
    obtain ⟨target, ht, htm⟩ := exists_right_of_forall₂ hall (ModelDefinition.named?_eq_some hn).1
    exact ⟨target, ht, by rw [hpath htm, hp]⟩
  · obtain ⟨hr, ho⟩ := List.mem_filter.mp hr
    obtain ⟨d, hd, hdm, q, hq, hqr⟩ := hrelation hm hr
    obtain ⟨t, -, -, hk, -, hmb, -⟩ := ModelDefinition.resolveRelation_eq_ok hqr
    rw [hk]
    exact hc.owning_kind hd hq (by rw [← hmb]; exact Option.isNone_iff_eq_none.mp ho)
  · obtain ⟨d, hd, hdm, q, hq, hqr⟩ := hrelation hm hr
    obtain ⟨t, htd, htm⟩ := hmodel target ht
    exact hc.exists_owner hd hdm hq hqr htd htm he hname
  · obtain ⟨d, hd, hdm, q, hq, hqr⟩ := hrelation hm (List.mem_filter.mp hr).1
    obtain ⟨t, htd, htm⟩ := hmodel target ht
    exact hc.exists_inverse hd hdm hq hqr htd htm he hname

section Lookup

variable {m target : Model} {path : String}

theorem mem_of_get? (h : g.get? path = some m) : m ∈ g.models ∧ barePath m.path = barePath path :=
  ⟨List.mem_of_find?_eq_some h, by simpa using List.find?_some h⟩

theorem get?_eq_some (hm : m ∈ g.models) (h : barePath m.path = barePath path) :
    g.get? path = some m := by
  cases hf : g.get? path with
  | none => exact absurd (List.find?_eq_none.mp hf m hm) (by simp [h])
  | some t =>
    obtain ⟨ht, he⟩ := mem_of_get? hf
    rw [List.inj_on_of_nodup_map g.distinct ht hm (by rw [he, h])]

theorem get?_path (hm : m ∈ g.models) : g.get? m.path = some m :=
  get?_eq_some hm rfl

theorem eq_of_path (hm : m ∈ g.models) (ht : target ∈ g.models) (h : m.path = target.path) :
    m = target :=
  List.inj_on_of_nodup_map g.distinct hm ht (by rw [h])

theorem resolve_eq_ok_iff : g.resolve path = .ok m ↔ g.get? path = some m := by
  unfold resolve
  cases g.get? path <;> simp

theorem target_eq_ok_iff {r : Relation} : g.target r = .ok m ↔ g.get? r.target = some m := by
  unfold Registry.target
  cases g.get? r.target <;> simp

end Lookup

namespace Coherent

variable {m target : Model} {r o : Relation} (hg : g.Coherent)

include hg

theorem exists_target (hm : m ∈ g.models) (hr : r ∈ m.relations) :
    ∃ target, g.get? r.target = some target := by
  obtain ⟨target, ht, he⟩ := hg.targets m hm r hr
  exact ⟨target, he ▸ get?_path ht⟩

theorem target_path (hm : m ∈ g.models) (hr : r ∈ m.relations)
    (ht : g.get? r.target = some target) : target ∈ g.models ∧ target.path = r.target := by
  obtain ⟨t, htm, he⟩ := hg.targets m hm r hr
  rw [← he, get?_path htm, Option.some.injEq] at ht
  exact ht ▸ ⟨htm, he⟩

theorem nodup_relation_names (hm : m ∈ g.models) : (m.relations.map Relation.name).Nodup :=
  (List.nodup_append.mp (hg.distinctNames m hm)).2.1

theorem eq_of_name (hm : m ∈ g.models) (hr : r ∈ m.relations) (ho : o ∈ m.relations)
    (h : r.name = o.name) : r = o :=
  List.inj_on_of_nodup_map (hg.nodup_relation_names hm) hr ho h

theorem relation?_name (hm : m ∈ g.models) (hr : r ∈ m.relations) :
    m.relation? r.name = some r := by
  cases hf : m.relation? r.name with
  | none => exact absurd (List.find?_eq_none.mp hf r hr) (by simp)
  | some o =>
    have hn : o.name = r.name := by simpa using List.find?_some hf
    rw [hg.eq_of_name hm (List.mem_of_find?_eq_some hf) hr hn]

theorem name_ne_identity (hm : m ∈ g.models) (hr : r ∈ m.relations) : r.name ≠ m.identity :=
  fun h => (List.nodup_append.mp (hg.distinctNames m hm)).2.2 m.identity List.mem_cons_self r.name
    (List.mem_map_of_mem hr) h.symm

theorem attribute_name_ne_identity (hm : m ∈ g.models) {a : Attribute} (ha : a ∈ m.attributes) :
    a.name ≠ m.identity := by
  intro h
  have hscalars := (List.nodup_append.mp (hg.distinctNames m hm)).1
  exact (List.nodup_cons.mp hscalars).1 (h ▸ List.mem_map_of_mem ha)

theorem name_ne_attribute_name (hm : m ∈ g.models) (hr : r ∈ m.relations) {a : Attribute}
    (ha : a ∈ m.attributes) : r.name ≠ a.name :=
  fun h => (List.nodup_append.mp (hg.distinctNames m hm)).2.2 a.name
    (List.mem_cons_of_mem _ (List.mem_map_of_mem ha)) r.name (List.mem_map_of_mem hr) h.symm

theorem fieldType?_name (hm : m ∈ g.models) (hr : r ∈ m.relations) : m.fieldType? r.name = none := by
  rw [Model.fieldType?, if_neg (hg.name_ne_identity hm hr), Option.map_eq_none_iff,
    Model.attribute?, List.find?_eq_none]
  intro a ha
  simpa using (hg.name_ne_attribute_name hm hr ha).symm

end Coherent

theorem mem_of_relation? {m : Model} {r : Relation} {name : String}
    (h : m.relation? name = some r) : r ∈ m.relations ∧ r.name = name :=
  ⟨List.mem_of_find?_eq_some h, by simpa using List.find?_some h⟩

end Registry

end EntityGraph
