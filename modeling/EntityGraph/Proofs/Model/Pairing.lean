import EntityGraph.Proofs.Model.Resolution

namespace EntityGraph

def ModelDefinition.mappedTo (d : ModelDefinition) (model relation : String) : List RelationDefinition :=
  d.relations.filter fun r => decide (r.target = model ∧ r.mappedBy = some relation)

/-- The relations of a model that are mapped by the named relation of the model at a path, in their order. -/
def Model.mappedTo (m : Model) (path relation : String) : List Relation :=
  m.relations.filter fun r => decide (r.target = path ∧ r.mappedBy = some relation)

section Inverses

variable {definitions : List ModelDefinition} {d t : ModelDefinition} {model relation : String}

theorem getLast?_flatMap_of_mem {α β : Type} {f : α → List β} {x : α} {xs : List α} (hx : x ∈ xs)
    (h : ∀ y ∈ xs, y ≠ x → f y = []) : (xs.flatMap f).getLast? = (f x).getLast? := by
  induction xs with
  | nil => cases hx
  | cons y rest ih =>
    rw [List.flatMap_cons, List.getLast?_append]
    by_cases hrest : x ∈ rest
    · rw [ih hrest fun z hz => h z (List.mem_cons_of_mem y hz)]
      by_cases hy : y = x
      · rw [hy, Option.or_self]
      · rw [h y List.mem_cons_self hy, List.getLast?_nil, Option.or_none]
    · have hnone : rest.flatMap f = [] :=
        List.flatMap_eq_nil_iff.mpr fun z hz => h z (List.mem_cons_of_mem y hz) fun he => hrest (he ▸ hz)
      obtain rfl := (List.mem_cons.mp hx).resolve_right hrest
      rw [hnone, List.getLast?_nil, Option.none_or]

namespace ModelDefinition

theorem filter_inverses : (inverses definitions).filter (fun e => e.1 == (model, relation)) =
    (definitions.flatMap (mappedTo · model relation)).map fun r => ((model, relation), r.name) := by
  rw [inverses, List.filter_flatMap, List.map_flatMap]
  refine List.flatMap_congr fun d _ => ?_
  rw [List.filter_filterMap, mappedTo, ← List.filterMap_eq_filter, List.map_filterMap]
  refine List.filterMap_congr fun r _ => ?_
  cases hmapped : r.mappedBy with
  | none => simp [Option.guard, hmapped]
  | some owner =>
    by_cases h : r.target = model ∧ owner = relation
    · obtain ⟨rfl, rfl⟩ := h
      simp [Option.guard, Option.filter, hmapped]
    · have hkey : ((r.target, owner) == (model, relation)) = false := by simpa using h
      simp [Option.guard, Option.filter, hmapped, hkey, h]

theorem inverseOf?_eq : inverseOf? definitions model relation =
    (definitions.flatMap (mappedTo · model relation)).getLast?.map RelationDefinition.name := by
  rw [inverseOf?, ← List.head?_filter, List.filter_reverse, List.head?_reverse, filter_inverses,
    List.getLast?_map, Option.map_map]
  rfl

namespace Checked

variable (hc : Checked definitions)

include hc

/-- The relations that are mapped by an owner belong to the model that it leads to. -/
theorem mappedTo_eq_nil {o : RelationDefinition} (hd : d ∈ definitions) (ht : t ∈ definitions)
    (ho : o ∈ t.relations) (hne : o.target ≠ d.name) : d.mappedTo t.name o.name = [] := by
  refine List.filter_eq_nil_iff.mpr fun r hr h => ?_
  obtain ⟨htarget, hmapped⟩ := of_decide_eq_true h
  have hn : named? definitions r.target = some t := by rw [htarget, named?_self hc.names ht]
  obtain ⟨o', ho', hname, -, hback, -⟩ := hc.owner hd hr hmapped hn
  obtain rfl := hc.eq_of_relation ht ho' ho hname
  exact hne hback

theorem inverseOf?_eq {o : RelationDefinition} (hd : d ∈ definitions) (ht : t ∈ definitions)
    (ho : o ∈ t.relations) (hback : o.target = d.name) :
    inverseOf? definitions t.name o.name =
      (d.mappedTo t.name o.name).getLast?.map RelationDefinition.name := by
  rw [ModelDefinition.inverseOf?_eq, getLast?_flatMap_of_mem hd fun e he hne => ?_]
  refine hc.mappedTo_eq_nil he ht ho fun h => hne ?_
  exact List.inj_on_of_nodup_map hc.names he hd (h.symm.trans hback)

end Checked

end ModelDefinition

end Inverses

namespace Registry

variable {definitions : List ModelDefinition} {g : Registry} {m target : Model} {r o : Relation} {name : String}

/-- Of the relations that are mapped by an owner the last one is its inverse. -/
theorem inverse_eq (h : ofDefinitions definitions = .ok g) (hm : m ∈ g.models) (ht : target ∈ g.models)
    (ho : o ∈ target.relations) (hback : o.target = m.path) :
    o.inverse = (m.mappedTo target.path o.name).getLast?.map Relation.name := by
  obtain ⟨hc, hall⟩ := checked_of_ofDefinitions h
  obtain ⟨d, hd, hdm⟩ := exists_left_of_forall₂ hall hm
  obtain ⟨t, htd, htm⟩ := exists_left_of_forall₂ hall ht
  obtain ⟨q, hq, hqo⟩ := exists_left_of_forall₂ (ModelDefinition.resolveModel_eq_ok htm).2.2.2.2 ho
  obtain ⟨e, he, hname, -, hpath, -, hinverse⟩ := ModelDefinition.resolveRelation_eq_ok hqo
  obtain ⟨hed, hen⟩ := ModelDefinition.named?_eq_some he
  obtain rfl : e = d := by
    refine hc.eq_of_path hed hd ?_
    rw [← hpath, hback, (ModelDefinition.resolveModel_eq_ok hdm).1]
  -- to lead to one model is the same before and after references are resolved
  have hmapped : List.Forall₂ (fun a b => ModelDefinition.resolveRelation definitions e a = .ok b)
      (e.mappedTo t.name q.name) (m.mappedTo target.path q.name) := by
    refine List.rel_filter (fun a b hab => ?_) (ModelDefinition.resolveModel_eq_ok hdm).2.2.2.2
    obtain ⟨s, hs, -, -, hspath, hsmapped, -⟩ := ModelDefinition.resolveRelation_eq_ok hab
    obtain ⟨hsd, hsn⟩ := ModelDefinition.named?_eq_some hs
    have htarget : a.target = t.name ↔ b.target = target.path := by
      rw [hspath, (ModelDefinition.resolveModel_eq_ok htm).1, ← hsn]
      exact ⟨fun he => by rw [List.inj_on_of_nodup_map hc.names hsd htd he],
        fun he => by rw [hc.eq_of_path hsd htd he]⟩
    simp only [decide_eq_true_iff, htarget, hsmapped]
  have hnames := map_eq_map_of_forall₂ (f := RelationDefinition.name) (g := Relation.name) hmapped
    fun a b hab => by
      obtain ⟨s, -, hn, -⟩ := ModelDefinition.resolveRelation_eq_ok hab
      exact hn.symm
  rw [hinverse, hc.inverseOf?_eq hed htd hq hen.symm, ← List.getLast?_map, hnames, List.getLast?_map, hname]

/-- The counterpart of a relation is declared by the model that the relation leads to, and leads to the model of
the relation. The counterpart of that is the relation again, unless it is an inverse relation and another one
that is mapped by the same owner is declared behind it. -/
theorem counterpart_leads_back_iff (h : ofDefinitions definitions = .ok g) (hm : m ∈ g.models)
    (hr : r ∈ m.relations) (hname : r.counterpart = some name) :
    ∃ target c, g.get? r.target = some target ∧ target.relation? name = some c ∧
      g.get? c.target = some m ∧
      (c.counterpart = some r.name ↔
        r.isOwning = true ∨ (m.mappedTo r.target name).getLast? = some r) := by
  have hg := coherent_of_ofDefinitions h
  obtain ⟨target, ht⟩ := hg.exists_target hm hr
  obtain ⟨htm, hpath⟩ := hg.target_path hm hr ht
  obtain ⟨c, hc, hback, hpair⟩ := hg.paired.counterparts m hm r hr target ht name hname
  obtain ⟨hcr, hcn⟩ := mem_of_relation? hc
  refine ⟨target, c, ht, hc, hback, ?_⟩
  rcases hpair with ⟨hinverse, hmapped, howning, -⟩ | ⟨-, hmapped, howning, -⟩
  · have hlast := inverse_eq h hm htm hcr (hg.target_path htm hcr hback).2.symm
    have hcounterpart : c.counterpart = (m.mappedTo r.target name).getLast?.map Relation.name := by
      rw [Relation.counterpart, Option.isNone_iff_eq_none.mp howning, Option.none_or, hlast, hpath, hcn]
    rw [hcounterpart, hinverse, Option.map_eq_some_iff]
    constructor
    · rintro ⟨i, hi, he⟩
      have him : i ∈ m.relations := (List.mem_filter.mp (List.mem_of_getLast? hi)).1
      exact .inr (hi.trans (congrArg some (hg.eq_of_name hm him hr he)))
    · rintro (h | hi)
      · cases h
      · exact ⟨r, hi, rfl⟩
  · rw [Relation.counterpart, hmapped, Option.some_or]
    exact iff_of_true rfl (.inl howning)

end Registry

namespace School

def pupils : Relation :=
  ⟨"pupils", .oneToMany, "students", some "tutor", none⟩

def charges : Relation :=
  ⟨"charges", .oneToMany, "students", some "tutor", none⟩

end School

namespace Registry

open School

/-- The charges of a tutor are led back to, being the last inverse of the relation to the tutor. -/
theorem charges_are_led_back_to :
    ofDefinitions definitions = .ok registry ∧ student ∈ registry.models ∧ charges ∈ student.relations ∧
      charges.counterpart = some "tutor" ∧
      ∃ target c, registry.get? charges.target = some target ∧ target.relation? "tutor" = some c ∧
        registry.get? c.target = some student ∧ c.counterpart = some charges.name := by
  have hm : student ∈ registry.models := by exact .head _
  have hr : charges ∈ student.relations := by exact .tail _ (.tail _ (.head _))
  obtain ⟨target, c, ht, hc, hback, hiff⟩ := counterpart_leads_back_iff resolved hm hr rfl
  exact ⟨resolved, hm, hr, rfl, target, c, ht, hc, hback, hiff.mpr (.inr rfl)⟩

/-- The pupils of a tutor are shown by the same references, but the relation to the tutor does not lead back to
them. -/
theorem pupils_are_not_led_back_to :
    ofDefinitions definitions = .ok registry ∧ student ∈ registry.models ∧ pupils ∈ student.relations ∧
      pupils.counterpart = some tutor.name ∧ registry.get? pupils.target = some student ∧
      student.relation? tutor.name = some tutor ∧ tutor.counterpart = some charges.name ∧
      tutor.counterpart ≠ some pupils.name := by
  exact ⟨resolved, .head _, .tail _ (.head _), rfl, by rfl, by rfl, rfl, by decide⟩

end Registry

end EntityGraph
