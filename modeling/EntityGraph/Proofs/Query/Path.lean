import EntityGraph.Proofs.Entity.Record
import EntityGraph.Proofs.Model.Resolution
import EntityGraph.Query.Path

namespace EntityGraph

namespace Text

/-- The segments of a dotted text, without the blanks around them. -/
def segments (dotted : String) : List String :=
  (split '.' dotted).map trim

def IsSegment (name : String) : Prop :=
  '.' ∉ name.toList ∧ trim name = name

instance (name : String) : Decidable (IsSegment name) :=
  inferInstanceAs (Decidable (_ ∧ _))

theorem split_dotted (s t : String) :
    split '.' (s ++ "." ++ t) = split '.' s ++ split '.' t := by
  have hlist : (s ++ "." ++ t).toList = s.toList ++ '.' :: t.toList := by
    simp [String.toList_append]
  rw [split, hlist, List.splitOn_append_cons_self, List.map_append]
  rfl

theorem segments_dotted (s t : String) : segments (s ++ "." ++ t) = segments s ++ segments t := by
  rw [segments, split_dotted, List.map_append]
  rfl

theorem segments_ne_nil (s : String) : segments s ≠ [] :=
  fun h => List.splitOn_ne_nil '.' s.toList (List.map_eq_nil_iff.mp (List.map_eq_nil_iff.mp h))

theorem IsSegment.segments_eq {name : String} (h : IsSegment name) : segments name = [name] := by
  rw [segments, split, List.splitOn_eq_singleton h.1, List.map_singleton, String.ofList_toList,
    List.map_singleton, h.2]

theorem isSegment_of_head? {name : String} (h : (segments name).head? = some name) :
    IsSegment name := by
  have hdot : '.' ∉ name.toList := by
    intro hmem
    obtain ⟨front, rest, hname, hfront⟩ := List.eq_append_cons_of_mem hmem
    rw [segments, split, hname, List.splitOn_append_cons_self_of_not_mem hfront, List.map_cons,
      List.map_cons, List.head?_cons, Option.some.injEq] at h
    -- what stands before the first dot is shorter than the whole
    have hlist : stripList isBlank front = name.toList := by
      rw [← h, trim, strip, String.toList_ofList, String.toList_ofList]
    have hlength := (stripList_isInfix isBlank front).length_le
    rw [hlist, hname, List.length_append, List.length_cons] at hlength
    omega
  refine ⟨hdot, ?_⟩
  rwa [segments, split, List.splitOn_eq_singleton hdot, List.map_singleton, String.ofList_toList,
    List.map_singleton, List.head?_cons, Option.some.injEq] at h

end Text

/-- What it takes to cross a relation from one model to another. -/
def Relation.hop (n m : Model) (r : Relation) : Hop :=
  ⟨r.name, n.identity, m.path, m.identity, r.link⟩

def AccessPath.after (hops : List Hop) (path : AccessPath) : AccessPath :=
  { path with hops := hops ++ path.hops }

def Json.IsList (v : Json) : Prop :=
  ∃ items, v = .arr items

theorem FieldType.IsIdentity.not_isList {t : FieldType} {id : Json} (h : t.IsIdentity id) :
    ¬id.IsList := by
  cases h <;> rintro ⟨items, ⟨⟩⟩

namespace Registry

def Slots (g : Registry) (m : Model) (r : Relation) (many : Bool) : Prop :=
  ∀ entity, (entity.get? r.name).isSome = true →
    ∃ slot, (g.toRecord m entity).get? r.name = some slot ∧ (slot.IsList ↔ many = true)

/-- The names of relations that lead from one model to another. -/
inductive Route (g : Registry) : Model → List String → Model → Prop
  | here (m : Model) : Route g m [] m
  | across {m next last : Model} {r : Relation} {names : List String} (hr : r ∈ m.relations)
      (ht : g.get? r.target = some next) (h : Route g next names last) :
      Route g m (r.name :: names) last

end Registry

/-- Where the reference of a relation is stored: at the source, or at the target under the relation that
leads back. -/
inductive Link.Stores (g : Registry) (m : Model) (r : Relation) (next : Model) : Link → Prop
  | owned {many : Bool} (hr : r ∈ m.owning) (hslots : g.Slots m r many) : Stores g m r next (.owned many)
  | mapped {o : Relation} {many : Bool} (hr : r.mappedBy = some o.name) (ho : o ∈ next.owning)
      (hback : g.get? o.target = some m) (hslots : g.Slots next o many) :
      Stores g m r next (.mapped o.name many)

structure Hop.Crosses (g : Registry) (hop : Hop) (m : Model) (r : Relation) (next : Model) : Prop where
  mem : r ∈ m.relations
  leads : g.get? r.target = some next
  relation : hop.relation = r.name
  sourceIdentity : hop.sourceIdentity = m.identity
  target : hop.target = next.path
  targetIdentity : hop.targetIdentity = next.identity
  link : hop.link.Stores g m r next

/-- Hops that lead from one model to another. -/
inductive Registry.Connects (g : Registry) : Model → List Hop → Model → Prop
  | nil (m : Model) : Connects g m [] m
  | cons {m next last : Model} {r : Relation} {hop : Hop} {hops : List Hop}
      (h : hop.Crosses g m r next) (rest : Connects g next hops last) :
      Connects g m (hop :: hops) last

/-- A path ends at the identity of a model or at one of its scalars. -/
def Model.Ends (m : Model) (path : AccessPath) : Prop :=
  (path.field = m.identity ∧ path.type = m.identityType ∧ path.isIdentity = true) ∨
    ∃ a ∈ m.attributes, path.field = a.name ∧ path.type = a.type ∧ path.isIdentity = false

namespace Registry

variable {g : Registry} {m next last : Model} {r : Relation} {hop : Hop} {hops more : List Hop}
  {path : AccessPath} {dotted name : String} {names segments : List String}

theorem Connects.append (h : g.Connects m hops next) (h' : g.Connects next more last) :
    g.Connects m (hops ++ more) last := by
  induction h with
  | nil => exact h'
  | cons hhop _ ih => exact .cons hhop (ih h')

theorem pathOfSegments_cons (g : Registry) (dotted : String) (m : Model) (name : String)
    (hnames : names ≠ []) : g.pathOfSegments dotted m (name :: names) = (do
      let (hop, next) ← g.cross dotted m name
      let path ← g.pathOfSegments dotted next names
      return path.cons hop) := by
  cases names with
  | nil => exact absurd rfl hnames
  | cons => rfl

theorem pathOfSegments_of_fieldType? {type : FieldType} (h : m.fieldType? name = some type) :
    g.pathOfSegments dotted m [name] = .ok ⟨[], name, type, decide (name = m.identity)⟩ := by
  rw [pathOfSegments, h]

theorem ends_of_fieldType? {type : FieldType} (h : m.fieldType? name = some type) (hops : List Hop) :
    m.Ends ⟨hops, name, type, decide (name = m.identity)⟩ := by
  unfold Model.fieldType? at h
  split at h
  · next hname => exact .inl ⟨hname, (Option.some.inj h).symm, decide_eq_true hname⟩
  · next hname =>
    obtain ⟨a, ha, rfl⟩ := Option.map_eq_some_iff.mp h
    have hfound : a.name = name := by simpa using List.find?_some ha
    exact .inr ⟨a, List.mem_of_find?_eq_some ha, hfound.symm, rfl, decide_eq_false hname⟩

theorem exists_fieldType? (h : name ∈ m.identity :: m.attributes.map Attribute.name) :
    ∃ type, m.fieldType? name = some type := by
  unfold Model.fieldType?
  split
  · exact ⟨_, rfl⟩
  · next hname =>
    obtain ⟨a, ha, rfl⟩ := List.mem_map.mp ((List.mem_cons.mp h).resolve_left hname)
    cases hfind : m.attribute? a.name with
    | none => exact absurd (List.find?_eq_none.mp hfind a ha) (by simp)
    | some b => exact ⟨b.type, rfl⟩

namespace Coherent

variable (hg : g.Coherent) (hm : m ∈ g.models)

include hg hm

theorem slots (hr : r ∈ m.owning) : g.Slots m r r.isCollection := by
  intro entity hentity
  obtain ⟨target, ht⟩ := hg.exists_target hm (List.mem_filter.mp hr).1
  obtain ⟨v, hv⟩ := Option.isSome_iff_exists.mp hentity
  refine ⟨target.slotOf r v, by rw [hg.get?_toRecord hm entity hr ht, hv, Option.map_some], ?_⟩
  have htm := (hg.target_path hm (List.mem_filter.mp hr).1 ht).1
  have hfits := Model.fitsSlot_slotOf (hg.identityTypes target htm) r v
  cases hmany : r.isCollection with
  | true => simp [Model.slotOf_of_collection hmany, Json.IsList]
  | false =>
    rw [hmany] at hfits
    generalize target.slotOf r v = slot at hfits
    cases hfits with
    | absent => simp [Json.IsList]
    | one hid => exact iff_of_false hid.not_isList Bool.false_ne_true

theorem stores_link (hr : r ∈ m.relations) (ht : g.get? r.target = some next) :
    r.link.Stores g m r next := by
  unfold Relation.link
  cases hmapped : r.mappedBy with
  | none =>
    have hro := Model.mem_owning_iff.mpr ⟨hr, hmapped⟩
    exact .owned hro (hg.slots hm hro)
  | some owner =>
    obtain ⟨hnext, hpath⟩ := hg.target_path hm hr ht
    obtain ⟨o, ho, rfl, hback, hpairs⟩ := hg.owners m hm r hr owner hmapped next hnext hpath
    -- an owner is a collection only in a pair of many-to-many relations
    have hmany : (r.kind == .manyToMany) = o.isCollection := by
      unfold Relation.isCollection
      revert hpairs
      cases r.kind <;> cases o.kind <;> decide
    rw [hmany]
    exact .mapped hmapped ho (hback ▸ get?_path hm) (hg.slots hnext ho)

theorem crosses_hop (hr : r ∈ m.relations) (ht : g.get? r.target = some next) :
    (r.hop m next).Crosses g m r next :=
  ⟨hr, ht, rfl, rfl, rfl, rfl, hg.stores_link hm hr ht⟩

theorem cross_name (hr : r ∈ m.relations) (ht : g.get? r.target = some next) (dotted : String) :
    g.cross dotted m r.name = .ok (r.hop m next, next) := by
  rw [cross, hg.relation?_name hm hr]
  dsimp only
  rw [ht]
  rfl

theorem pathOfSegments_of_relation (hr : r ∈ m.relations) (ht : g.get? r.target = some next)
    (dotted : String) :
    g.pathOfSegments dotted m [r.name] = .ok ((AccessPath.toIdentity next).cons (r.hop m next)) := by
  rw [pathOfSegments, hg.fieldType?_name hm hr]
  dsimp only
  rw [hg.cross_name hm hr ht]
  rfl

theorem exists_end (hname : name ∈ m.declaredNames) :
    ∃ path last, (∀ dotted, g.pathOfSegments dotted m [name] = .ok path) ∧ g.Connects m path.hops last ∧
      last.Ends path ∧
        ([name] = path.hops.map Hop.relation ++ [path.field] ∨
          [name] = path.hops.map Hop.relation ∧ path.field = last.identity) := by
  rcases List.mem_append.mp hname with hname | hname
  · obtain ⟨type, htype⟩ := exists_fieldType? hname
    exact ⟨_, m, fun _ => pathOfSegments_of_fieldType? htype, .nil m, ends_of_fieldType? htype [], .inl rfl⟩
  · obtain ⟨r, hr, rfl⟩ := List.mem_map.mp hname
    obtain ⟨next, ht⟩ := hg.exists_target hm hr
    exact ⟨_, next, hg.pathOfSegments_of_relation hm hr ht, .cons (hg.crosses_hop hm hr ht) (.nil next),
      .inl ⟨rfl, rfl, rfl⟩, .inr ⟨rfl, rfl⟩⟩

end Coherent

/-- A route is crossed hop by hop, and what follows it is resolved where it leads. -/
theorem Route.exists_hops (h : g.Route m names last) (hg : g.Coherent) (hm : m ∈ g.models) :
    last ∈ g.models ∧ ∃ hops, g.Connects m hops last ∧ hops.map Hop.relation = names ∧
      ∀ dotted segments, segments ≠ [] → g.pathOfSegments dotted m (names ++ segments) =
        (g.pathOfSegments dotted last segments).map (AccessPath.after hops) := by
  induction h with
  | here m =>
    refine ⟨hm, [], .nil m, rfl, fun dotted segments _ => ?_⟩
    rw [List.nil_append]
    cases g.pathOfSegments dotted m segments <;> rfl
  | @across m next last r names hr ht _ ih =>
    obtain ⟨hlast, hops, hconnects, hnames, hrest⟩ := ih (hg.target_path hm hr ht).1
    refine ⟨hlast, r.hop m next :: hops, .cons (hg.crosses_hop hm hr ht) hconnects, ?_,
      fun dotted segments hsegments => ?_⟩
    · rw [List.map_cons, hnames]
      rfl
    · have hne : names ++ segments ≠ [] := fun h => hsegments (List.append_eq_nil_iff.mp h).2
      rw [List.cons_append, pathOfSegments_cons g dotted m r.name hne, hg.cross_name hm hr ht, ok_bind]
      dsimp only
      rw [hrest dotted segments hsegments]
      cases g.pathOfSegments dotted last segments <;> rfl

theorem cross_eq_ok (h : g.cross dotted m name = .ok (hop, next)) :
    ∃ r ∈ m.relations, r.name = name ∧ g.get? r.target = some next ∧ hop = r.hop m next := by
  unfold cross at h
  split at h
  · cases h
  · next r hr =>
    split at h
    · cases h
    · next ht =>
      cases h
      exact ⟨r, (mem_of_relation? hr).1, (mem_of_relation? hr).2, ht, rfl⟩

theorem exists_route (hg : g.Coherent) (hm : m ∈ g.models)
    (h : g.pathOfSegments dotted m segments = .ok path) :
    ∃ names name last, segments = names ++ [name] ∧ g.Route m names last ∧ name ∈ last.declaredNames := by
  induction segments generalizing m path with
  | nil => cases h
  | cons name rest ih =>
    cases rest with
    | nil =>
      refine ⟨[], name, m, rfl, .here m, ?_⟩
      unfold pathOfSegments at h
      split at h
      · next type htype =>
        rcases ends_of_fieldType? htype [] with ⟨rfl, -⟩ | ⟨a, ha, rfl, -⟩
        · exact List.mem_append_left _ List.mem_cons_self
        · exact List.mem_append_left _ (List.mem_cons_of_mem _ (List.mem_map_of_mem ha))
      · obtain ⟨⟨hop, next⟩, hstep, -⟩ := bind_eq_ok_iff.mp h
        obtain ⟨r, hr, rfl, -⟩ := cross_eq_ok hstep
        exact List.mem_append_right _ (List.mem_map_of_mem hr)
    | cons second rest =>
      rw [pathOfSegments_cons g dotted m name (List.cons_ne_nil second rest)] at h
      obtain ⟨⟨hop, next⟩, hstep, h⟩ := bind_eq_ok_iff.mp h
      obtain ⟨tail, htail, -⟩ := bind_eq_ok_iff.mp h
      obtain ⟨r, hr, rfl, ht, -⟩ := cross_eq_ok hstep
      obtain ⟨names, last, target, hsegments, hroute, hlast⟩ := ih (hg.target_path hm hr ht).1 htail
      exact ⟨r.name :: names, last, target, by rw [hsegments]; rfl, .across hr ht hroute, hlast⟩

theorem accessPath_eq (g : Registry) (m : Model) (dotted : String) :
    g.accessPath m dotted = g.pathOfSegments dotted m (Text.segments dotted) :=
  rfl

theorem Route.exists_path (h : g.Route m names last) (hg : g.Coherent) (hm : m ∈ g.models)
    (hname : name ∈ last.declaredNames) :
    ∃ path target, (∀ dotted, g.pathOfSegments dotted m (names ++ [name]) = .ok path) ∧
      g.Connects m path.hops target ∧ target.Ends path ∧
        (names ++ [name] = path.hops.map Hop.relation ++ [path.field] ∨
          names ++ [name] = path.hops.map Hop.relation ∧ path.field = target.identity) := by
  obtain ⟨hlast, hops, hconnects, hnames, hrest⟩ := h.exists_hops hg hm
  obtain ⟨path, target, hpath, hmore, hends, hspelled⟩ := hg.exists_end hlast hname
  refine ⟨path.after hops, target, fun dotted => ?_, hconnects.append hmore, hends, ?_⟩
  · rw [hrest dotted [name] (List.cons_ne_nil _ _), hpath]
    rfl
  · rw [AccessPath.after, List.map_append, hnames, List.append_assoc]
    exact hspelled.imp (congrArg _) fun ⟨hname, hfield⟩ => ⟨congrArg _ hname, hfield⟩

/-- The hops of what resolves cross the relations that the segments name. -/
theorem exists_connects (hg : g.Coherent) (hm : m ∈ g.models)
    (h : g.pathOfSegments dotted m segments = .ok path) :
    ∃ last, g.Connects m path.hops last ∧ last.Ends path ∧
      (segments = path.hops.map Hop.relation ++ [path.field] ∨
        segments = path.hops.map Hop.relation ∧ path.field = last.identity) := by
  obtain ⟨names, name, last, rfl, hroute, hname⟩ := exists_route hg hm h
  obtain ⟨path', target, hpath, hresolved⟩ := hroute.exists_path hg hm hname
  obtain rfl : path' = path := Except.ok.inj ((hpath dotted).symm.trans h)
  exact ⟨target, hresolved⟩

theorem pathOfSegments_eq_ok (hg : g.Coherent) (hm : m ∈ g.models)
    (h : g.pathOfSegments dotted m segments = .ok path) (other : String) :
    g.pathOfSegments other m segments = .ok path := by
  obtain ⟨names, name, last, rfl, hroute, hname⟩ := exists_route hg hm h
  obtain ⟨path', -, hpath, -⟩ := hroute.exists_path hg hm hname
  rw [hpath, ← hpath dotted, h]

/-- A path to a relation may as well name the identity of the target. -/
theorem Route.accessPath_identity (h : g.Route m names last) (hg : g.Coherent) (hm : m ∈ g.models)
    (hr : r ∈ last.relations) (ht : g.get? r.target = some next)
    (hsegments : Text.segments dotted = names ++ [r.name]) (hplain : Text.IsSegment next.identity) :
    g.accessPath m (dotted ++ "." ++ next.identity) = g.accessPath m dotted := by
  obtain ⟨hlast, hops, -, -, hrest⟩ := h.exists_hops hg hm
  have hidentity : next.fieldType? next.identity = some next.identityType := if_pos rfl
  rw [accessPath_eq, accessPath_eq, Text.segments_dotted, hplain.segments_eq, hsegments, List.append_assoc,
    List.singleton_append, hrest _ _ (List.cons_ne_nil _ _), hrest _ _ (List.cons_ne_nil _ _),
    hg.pathOfSegments_of_relation hlast hr ht,
    pathOfSegments_cons g _ last r.name (List.cons_ne_nil _ _), hg.cross_name hlast hr ht, ok_bind]
  dsimp only
  rw [pathOfSegments_of_fieldType? hidentity, decide_eq_true rfl]
  rfl

/-- A dotted text resolves just if its segments follow relations to a model that declares the last of
them. The hops then connect the models on the way, the path ends at a field of the last one, and where
the last segment is a relation its target's identity may be added. -/
theorem paths_resolve_as_named {definitions : List ModelDefinition}
    (hg : ofDefinitions definitions = .ok g) (hm : m ∈ g.models) (dotted : String) :
    ((∃ path, g.accessPath m dotted = .ok path) ↔
      ∃ names name last, Text.segments dotted = names ++ [name] ∧ g.Route m names last ∧
        name ∈ last.declaredNames) ∧
    (∀ path, g.accessPath m dotted = .ok path → ∃ last, g.Connects m path.hops last ∧ last.Ends path ∧
      (Text.segments dotted = path.hops.map Hop.relation ++ [path.field] ∨
        Text.segments dotted = path.hops.map Hop.relation ∧ path.field = last.identity)) ∧
    ∀ names r last target, Text.segments dotted = names ++ [r.name] → g.Route m names last →
      r ∈ last.relations → g.get? r.target = some target → Text.IsSegment target.identity →
        g.accessPath m (dotted ++ "." ++ target.identity) = g.accessPath m dotted := by
  have hg := coherent_of_ofDefinitions hg
  refine ⟨⟨fun ⟨path, hpath⟩ => exists_route hg hm hpath, ?_⟩,
    fun path hpath => exists_connects hg hm hpath,
    fun names r last target hsegments hroute hr ht hplain =>
      hroute.accessPath_identity hg hm hr ht hsegments hplain⟩
  rintro ⟨names, name, last, hsegments, hroute, hname⟩
  obtain ⟨path, -, hpath, -⟩ := hroute.exists_path hg hm hname
  exact ⟨path, by rw [accessPath_eq, hsegments, hpath]⟩

end Registry

namespace School

/-- From a student across the courses to the tutors of all who take them. -/
def toTutors : AccessPath :=
  (AccessPath.toIdentity student).after
    [courses.hop student course, students.hop course student, tutor.hop student student]

end School

namespace Registry

open School

/-- The tutors of those who take the same courses, by name and by identity. -/
theorem tutors_of_others_resolve :
    registry.accessPath student "courses . students. tutor" = .ok toTutors ∧
      (∃ last, registry.Connects student toTutors.hops last ∧ last.Ends toTutors) ∧
      registry.accessPath student "courses . students. tutor.id" = .ok toTutors := by
  obtain ⟨-, hsound, hidentity⟩ :=
    paths_resolve_as_named resolved (.head _) "courses . students. tutor"
  have hroute : registry.Route student ["courses", "students"] student :=
    .across (r := courses) (.tail _ (.tail _ (.tail _ (.head _)))) rfl
      (.across (r := students) (.head _) rfl (.here student))
  have hsegments :
      Text.segments "courses . students. tutor" = ["courses", "students"] ++ [tutor.name] := by
    decide +kernel
  have htutors : registry.accessPath student "courses . students. tutor" = .ok toTutors := by
    rw [accessPath_eq, hsegments]
    rfl
  obtain ⟨last, hconnects, hends, -⟩ := hsound _ htutors
  refine ⟨htutors, ⟨last, hconnects, hends⟩, ?_⟩
  exact (hidentity _ tutor _ student hsegments hroute (.head _) rfl (by decide +kernel)).trans htutors

end Registry

end EntityGraph
