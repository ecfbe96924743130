import EntityGraph.Proofs.Model.Coherent

namespace EntityGraph

theorem RelationKind.mem_pairs {k l : RelationKind} (h : k.pairs l = true) :
    (k, l) ∈ [(oneToMany, manyToOne), (manyToMany, manyToMany), (oneToOne, oneToOne)] := by
  revert h
  cases k <;> cases l <;> decide

/-- The two sides of a pair: an inverse relation and the one that stores what it shows. -/
structure Relation.IsInverseOf (i o : Relation) : Prop where
  inverse : i.isOwning = false
  mappedBy : i.mappedBy = some o.name
  owning : o.isOwning = true
  kinds : (i.kind, o.kind) ∈
    [(.oneToMany, .manyToOne), (.manyToMany, .manyToMany), (.oneToOne, .oneToOne)]

structure RelationDefinition.ResolvesTo (g : Registry) (q : RelationDefinition) (r : Relation) : Prop where
  name : r.name = q.name
  kind : r.kind = q.kind
  mappedBy : r.mappedBy = q.mappedBy
  target : ∃ target ∈ g.models, target.typeName = q.target ∧ target.path = r.target

/-- A model is what its definition says, under the path without the slashes around it. -/
structure ModelDefinition.ResolvesTo (g : Registry) (d : ModelDefinition) (m : Model) : Prop where
  typeName : m.typeName = d.name
  path : m.path = barePath d.path
  validated : m.validated = d.validated
  identity : (⟨m.identity, m.identityType, m.identityGenerated⟩ : IdentityDefinition) = d.identity
  attributes : m.attributes = d.attributes
  relations : List.Forall₂ (RelationDefinition.ResolvesTo g) d.relations m.relations
  rules : m.rules = d.rules

namespace Registry

/-- Names are different within each model, every relation leads to a model of the registry, and the
counterpart of a relation leads back and is the other side of a pair. -/
structure Paired (g : Registry) : Prop where
  distinctNames : ∀ m ∈ g.models, m.declaredNames.Nodup
  targets : ∀ m ∈ g.models, ∀ r ∈ m.relations, ∃ target, g.get? r.target = some target
  counterparts : ∀ m ∈ g.models, ∀ r ∈ m.relations, ∀ target, g.get? r.target = some target →
    ∀ name, r.counterpart = some name →
      ∃ c, target.relation? name = some c ∧ g.get? c.target = some m ∧
        (r.IsInverseOf c ∨ c.IsInverseOf r)

end Registry

section Resolving

variable {definitions : List ModelDefinition} {d : ModelDefinition} {g : Registry}
  {models : List Model} {m : Model}

namespace Registry

theorem exists_register (h : barePath m.path ∉ g.models.map fun m => barePath m.path) :
    ∃ g', g.register m = .ok g' ∧ g'.models = g.models ++ [m] := by
  unfold register
  rw [dif_neg h]
  exact ⟨_, rfl, rfl⟩

theorem exists_registerAll (h : ((g.models ++ models).map fun m => barePath m.path).Nodup) :
    ∃ g', g.registerAll models = .ok g' := by
  induction models generalizing g with
  | nil => exact ⟨g, rfl⟩
  | cons m rest ih =>
    have hnew : barePath m.path ∉ g.models.map fun m => barePath m.path := by
      rw [List.map_append] at h
      exact fun hm => (List.nodup_append.mp h).2.2 _ hm _ List.mem_cons_self rfl
    obtain ⟨g₁, h₁, hmodels⟩ := exists_register hnew
    have hrest : ((g₁.models ++ rest).map fun m => barePath m.path).Nodup := by
      rwa [hmodels, List.append_assoc, List.singleton_append]
    obtain ⟨g', h'⟩ := ih hrest
    exact ⟨g', bind_eq_ok_iff.mpr ⟨g₁, h₁, h'⟩⟩

end Registry

namespace ModelDefinition

theorem Checked.exists_resolveRelation (hc : Checked definitions) (hd : d ∈ definitions)
    {q : RelationDefinition} (hq : q ∈ d.relations) :
    ∃ r, resolveRelation definitions d q = .ok r := by
  have hcheck := hc.relations d hd q hq
  unfold checkRelation at hcheck
  unfold resolveRelation
  cases ht : named? definitions q.target with
  | none =>
    rw [ht] at hcheck
    cases hcheck
  | some target => exact ⟨_, rfl⟩

theorem Checked.exists_resolveModel (hc : Checked definitions) (hd : d ∈ definitions) :
    ∃ m, resolveModel definitions d = .ok m := by
  obtain ⟨relations, hrelations⟩ := exists_mapM fun _ hq => hc.exists_resolveRelation hd hq
  exact ⟨_, bind_eq_ok_iff.mpr ⟨relations, hrelations, rfl⟩⟩

end ModelDefinition

namespace Registry

/-- Definitions that have been checked resolve. -/
theorem exists_ofDefinitions (h : ModelDefinition.check definitions = .ok ()) :
    ∃ g, ofDefinitions definitions = .ok g := by
  have hc := ModelDefinition.checked_of_check h
  obtain ⟨models, hmodels⟩ := exists_mapM fun _ hd => hc.exists_resolveModel hd
  have hpaths : (models.map fun m => barePath m.path).Nodup := by
    rw [← map_eq_map_of_forall₂ (mapM_eq_ok_iff.mp hmodels) fun d m hdm => ?_]
    · exact hc.paths
    · rw [(ModelDefinition.resolveModel_eq_ok hdm).1, barePath_barePath]
  obtain ⟨g, hg⟩ := exists_registerAll (g := .empty) hpaths
  exact ⟨g, bind_eq_ok_iff.mpr ⟨(), h, bind_eq_ok_iff.mpr ⟨models, hmodels, hg⟩⟩⟩

theorem resolvesTo_of_ofDefinitions (h : ofDefinitions definitions = .ok g) :
    List.Forall₂ (ModelDefinition.ResolvesTo g) definitions g.models := by
  obtain ⟨hc, hall⟩ := checked_of_ofDefinitions h
  refine hall.imp fun d m hdm => ?_
  have hrelations : List.Forall₂ (RelationDefinition.ResolvesTo g) d.relations m.relations := by
    refine (ModelDefinition.resolveModel_eq_ok hdm).2.2.2.2.imp fun q r hqr => ?_
    obtain ⟨t, ht, hname, hkind, htarget, hmapped, -⟩ := ModelDefinition.resolveRelation_eq_ok hqr
    obtain ⟨htd, htname⟩ := ModelDefinition.named?_eq_some ht
    obtain ⟨target, htm, hres⟩ := exists_right_of_forall₂ hall htd
    obtain ⟨_, -, he⟩ := bind_eq_ok_iff.mp hres
    cases he
    exact ⟨hname, hkind, hmapped, _, htm, htname, htarget.symm⟩
  obtain ⟨relations, hr, he⟩ := bind_eq_ok_iff.mp hdm
  cases he
  exact ⟨rfl, rfl, rfl, rfl, rfl, hrelations, rfl⟩

theorem Coherent.paired (hg : g.Coherent) : g.Paired := by
  refine ⟨hg.distinctNames, fun m hm r hr => hg.exists_target hm hr,
    fun m hm r hr target ht name hname => ?_⟩
  obtain ⟨htm, hpath⟩ := hg.target_path hm hr ht
  -- an inverse relation names its owner, an owner knows the inverse that was declared last
  cases hmapped : r.mappedBy with
  | some owner =>
    rw [Relation.counterpart, hmapped, Option.some_or, Option.some.injEq] at hname
    subst hname
    obtain ⟨o, ho, rfl, hback, hpairs⟩ := hg.owners m hm r hr _ hmapped target htm hpath
    obtain ⟨hor, howning⟩ := List.mem_filter.mp ho
    exact ⟨o, hg.relation?_name htm hor, hback ▸ get?_path hm,
      .inl ⟨Relation.isOwning_of_some hmapped, hmapped, howning, RelationKind.mem_pairs hpairs⟩⟩
  | none =>
    rw [Relation.counterpart, hmapped, Option.none_or] at hname
    have ho : r ∈ m.owning := Model.mem_owning_iff.mpr ⟨hr, hmapped⟩
    obtain ⟨i, hi, rfl, himapped, hback⟩ := hg.inverses m hm r ho name hname target htm hpath
    obtain ⟨o, hom, hon, -, hpairs⟩ := hg.owners target htm i hi r.name himapped m hm hback.symm
    obtain rfl := hg.eq_of_name hm (List.mem_filter.mp hom).1 hr hon
    exact ⟨i, hg.relation?_name htm hi, hback ▸ get?_path hm,
      .inr ⟨Relation.isOwning_of_some himapped, himapped, Relation.isOwning_of_none hmapped,
        RelationKind.mem_pairs hpairs⟩⟩

/-- Definitions resolve just if their check succeeds, and then the registry has a model for each of them,
and the relations of its models lead to each other. -/
theorem resolution_is_closed_and_paired (definitions : List ModelDefinition) :
    ((∃ g, ofDefinitions definitions = .ok g) ↔ ModelDefinition.check definitions = .ok ()) ∧
      ∀ g, ofDefinitions definitions = .ok g →
        List.Forall₂ (ModelDefinition.ResolvesTo g) definitions g.models ∧ g.Paired := by
  refine ⟨⟨fun ⟨g, hg⟩ => ?_, exists_ofDefinitions⟩, fun g hg =>
    ⟨resolvesTo_of_ofDefinitions hg, (coherent_of_ofDefinitions hg).paired⟩⟩
  obtain ⟨⟨⟩, hcheck, -⟩ := bind_eq_ok_iff.mp hg
  exact hcheck

end Registry

end Resolving

namespace School

/-- Students, each with a tutor among them, and their courses. The relation to the tutor has two
inverses. -/
def definitions : List ModelDefinition :=
  [⟨"Student", "/students/", true, .standard, [⟨"name", .string⟩],
    [⟨"tutor", .manyToOne, "Student", none⟩, ⟨"pupils", .oneToMany, "Student", some "tutor"⟩,
      ⟨"charges", .oneToMany, "Student", some "tutor"⟩, ⟨"courses", .manyToMany, "Course", none⟩], []⟩,
  ⟨"Course", "courses/", true, ⟨"code", .string, false⟩, [],
    [⟨"students", .manyToMany, "Student", some "courses"⟩], []⟩]

def tutor : Relation :=
  ⟨"tutor", .manyToOne, "students", none, some "charges"⟩

def courses : Relation :=
  ⟨"courses", .manyToMany, "courses", none, some "students"⟩

def students : Relation :=
  ⟨"students", .manyToMany, "students", some "courses", none⟩

def student : Model :=
  ⟨"Student", "students", true, "id", .long, true, [⟨"name", .string⟩],
    [tutor, ⟨"pupils", .oneToMany, "students", some "tutor", none⟩,
      ⟨"charges", .oneToMany, "students", some "tutor", none⟩, courses], []⟩

def course : Model :=
  ⟨"Course", "courses", true, "code", .string, false, [], [students], []⟩

def registry : Registry :=
  ⟨[student, course], by decide +kernel⟩

theorem resolved : Registry.ofDefinitions definitions = .ok registry := by rfl

end School

namespace Registry

/-- The definitions of a school resolve, those of the students alone do not. -/
theorem school_resolves_as_a_whole :
    (∃ g, ofDefinitions School.definitions = .ok g ∧
      List.Forall₂ (ModelDefinition.ResolvesTo g) School.definitions g.models ∧ g.Paired) ∧
    ¬∃ g, ofDefinitions (School.definitions.take 1) = .ok g := by
  constructor
  · have h := resolution_is_closed_and_paired School.definitions
    obtain ⟨g, hg⟩ := h.1.mpr (by rfl)
    exact ⟨g, hg, h.2 g hg⟩
  · intro hg
    have hcheck := (resolution_is_closed_and_paired (School.definitions.take 1)).1.mp hg
    exact nomatch hcheck

end Registry

end EntityGraph
