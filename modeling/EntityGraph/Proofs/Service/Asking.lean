import EntityGraph.Proofs.Entity.Expansion
import EntityGraph.Proofs.Service.Run
import EntityGraph.Proofs.Store.Failures

namespace EntityGraph

namespace Registry

variable {g : Registry} {m target : Model} {r : Relation} {id : Json}

/-- The reference predicate of a relation is made from its name just if the name is plain. -/
theorem references_eq_iff (hg : g.Coherent) (hm : m ∈ g.models) (hr : r ∈ m.owning)
    (ht : g.get? r.target = some target) :
    references g m r.name id = .ok (.compare (referencePath m target r) .eq id) ↔ r.IsPlain := by
  refine ⟨fun h => ?_, fun hplain => references_eq hg hplain hm hr ht id⟩
  obtain ⟨path, hpath, h⟩ := bind_eq_ok_iff.mp h
  obtain rfl : path = referencePath m target r := by
    cases pure_eq_ok_iff.mp h
    rfl
  obtain ⟨last, -, -, hsegments⟩ := exists_connects hg hm hpath
  rw [Relation.isPlain_iff]
  refine Text.isSegment_of_head? ?_
  rcases hsegments with hsegments | ⟨hsegments, -⟩ <;> exact congrArg List.head? hsegments

theorem eval_reference_congr (ts : Tables) {record other : Json}
    (h : record.get r.name = other.get r.name) :
    (Predicate.compare (referencePath m target r) .eq id).eval ts record =
      (Predicate.compare (referencePath m target r) .eq id).eval ts other := by
  rw [Predicate.eval, Predicate.eval, reached_reference, reached_reference, h]

end Registry

def Error.ApartFromFilters : Error → Prop
  | .invalidFilter _ => False
  | _ => True

theorem Registry.apart_of_resolve_error {g : Registry} {path : String} {e : Error}
    (h : g.resolve path = .error e) : e.ApartFromFilters := by
  unfold resolve at h
  split at h
  · cases h
  · obtain rfl := Except.error.inj h
    trivial

theorem Model.apart_of_coerceIdentity_error {m : Model} {raw : Json} {e : Error}
    (h : m.coerceIdentity raw = .error e) : e.ApartFromFilters := by
  unfold coerceIdentity at h
  split at h
  · obtain rfl := Except.error.inj h
    trivial
  · cases h
  · obtain rfl := Except.error.inj h
    trivial

theorem Service.apart_of_existing_error {ts : Tables} {m : Model} {id : Json} {e : Error}
    (h : existing ts m id = .error e) : e.ApartFromFilters := by
  unfold existing at h
  split at h
  · cases h
  · obtain rfl := Except.error.inj h
    trivial

namespace Service

open Registry

variable {s : Service} {m : Model} {r : Relation} (hg : s.registry.Coherent)
  (hplain : s.registry.PlainReferences)

include hg hplain

theorem detach_failsWith (hm : m ∈ s.registry.models) (hr : r ∈ m.owning) (id : Json)
    (spared : Json → Bool) : (s.detach m r id spared).FailsWith Error.ApartFromFilters := by
  obtain ⟨target, ht⟩ := hg.exists_target hm (List.mem_filter.mp hr).1
  refine .bind (.attempt fun ts e he => ?_) fun holders => .forM fun holder _ => ?_
  · rw [references_eq hg (hplain m hm r hr) hm hr ht] at he
    cases he
  · split
    · exact .pure ()
    · split
      · exact .discard (.merge (fun _ => trivial) _)
      · exact .pure ()

theorem unshare_failsWith (hm : m ∈ s.registry.models) (field : String) (holder referenced : Json) :
    (s.unshare m field holder referenced).FailsWith Error.ApartFromFilters := by
  unfold unshare
  split
  · next r hr =>
    split
    · next hone =>
      exact detach_failsWith hg hplain hm
        (List.mem_filter.mpr ⟨(mem_of_relation? hr).1, hone.2⟩) referenced _
    · exact .pure ()
  · exact .pure ()

theorem unshareAll_failsWith (hm : m ∈ s.registry.models) (id record : Json) :
    (s.unshareAll m id record).FailsWith Error.ApartFromFilters := by
  refine .forM fun r _ => ?_
  split
  · exact unshare_failsWith hg hplain hm r.name id _
  · exact .pure ()

/-- Deletion asks for the holders of every owning relation that leads to the model. -/
theorem delete_failsWith {path : String} {id : Json} {u : UnitOfWork Unit}
    (h : s.deletion path id = .ok u) : u.FailsWith Error.ApartFromFilters := by
  obtain ⟨m, -, h⟩ := bind_eq_ok_iff.mp h
  obtain ⟨id, -, h⟩ := bind_eq_ok_iff.mp h
  obtain rfl := pure_eq_ok_iff.mp h
  refine .bind (.discard (.attempt fun _ _ he => apart_of_existing_error he)) fun _ =>
    .bind (.forM fun p hp => ?_) fun _ => .bind (.remove (fun _ => trivial) id) fun removed => ?_
  · obtain ⟨hother, hr, -⟩ := mem_ownersOf_iff.mp hp
    exact detach_failsWith hg hplain hother hr id _
  · cases removed with
    | true => exact .pure ()
    | false => exact .throw trivial

omit hg hplain

theorem apart_of_deletion_error {path : String} {id : Json} {e : Error}
    (h : s.deletion path id = .error e) : e.ApartFromFilters := by
  rcases bind_eq_error_iff.mp h with hm | ⟨m, -, h⟩
  · exact apart_of_resolve_error hm
  rcases bind_eq_error_iff.mp h with hid | ⟨id', -, h⟩
  · exact Model.apart_of_coerceIdentity_error hid
  · cases h

/-- A question for the records that refer to an identity is about their owning relation just if the name
of the relation is plain. Where the names of all owning relations are, neither a deletion nor a claim of
a one-to-one reference fails because of a filter, and every entity is loaded. -/
theorem references_are_asked_for_by_plain_names {definitions : List ModelDefinition}
    (hresolved : ofDefinitions definitions = .ok s.registry) :
    (∀ m ∈ s.registry.models, ∀ r ∈ m.owning, ∃ target, s.registry.get? r.target = some target ∧
      ∀ id, (references s.registry m r.name id =
          .ok (.compare (referencePath m target r) .eq id) ↔ r.IsPlain) ∧
        ∀ ts record other, record.get r.name = other.get r.name →
          (Predicate.compare (referencePath m target r) .eq id).eval ts record =
            (Predicate.compare (referencePath m target r) .eq id).eval ts other) ∧
    (s.registry.PlainReferences →
      (∀ path id ts fault,
        ((⟨ts, none⟩ : Store).run (s.delete path id)).1 ≠ .error (.invalidFilter fault)) ∧
      ∀ m ∈ s.registry.models,
        (∀ field holder referenced ts fault,
          ((s.unshare m field holder referenced).run ts).1 ≠ .error (.invalidFilter fault)) ∧
        (∀ id record ts fault,
          ((s.unshareAll m id record).run ts).1 ≠ .error (.invalidFilter fault)) ∧
        ∀ ts depth entity, ∃ e, s.registry.load ts depth m entity = .ok e) := by
  have hg := coherent_of_ofDefinitions hresolved
  refine ⟨fun m hm r hr => ?_, fun hplain => ⟨fun path id ts fault h => ?_, fun m hm =>
    ⟨fun field holder referenced ts fault h => ?_, fun id record ts fault h => ?_,
      fun ts depth entity => exists_load_total hg hplain ts depth hm entity⟩⟩⟩
  · obtain ⟨target, ht⟩ := hg.exists_target hm (List.mem_filter.mp hr).1
    exact ⟨target, ht, fun id => ⟨references_eq_iff hg hm hr ht, fun ts _ _ => eval_reference_congr ts⟩⟩
  · exact Store.run_failsWith (fun _ => apart_of_deletion_error)
      (fun _ hu => delete_failsWith hg hplain hu) ts h
  · exact unshare_failsWith hg hplain hm field holder referenced ts _ _ (Prod.ext h rfl)
  · exact unshareAll_failsWith hg hplain hm id record ts _ _ (Prod.ext h rfl)

/-- The holders of an owner are asked for by the path of the relation, and a person is deleted. -/
theorem owners_of_pets_are_asked_for :
    references Household.service.registry Household.pet "owner" (.ofNat 1) =
        .ok (.compare (referencePath Household.pet Household.person Household.owner) .eq (.ofNat 1)) ∧
      ∀ ts fault, ((⟨ts, none⟩ : Store).run (Household.service.delete "people" (.ofNat 1))).1 ≠
        .error (.invalidFilter fault) := by
  have hresolved : ofDefinitions Household.definitions = .ok Household.service.registry := by rfl
  have hplain : Household.service.registry.PlainReferences :=
    Household.isPlain.names
  obtain ⟨hasked, hfree⟩ := references_are_asked_for_by_plain_names hresolved
  obtain ⟨target, ht, hiff⟩ :=
    hasked Household.pet (.tail _ (.tail _ (.head _))) Household.owner (.head _)
  obtain rfl : Household.person = target := Option.some.inj ht
  exact ⟨(hiff (.ofNat 1)).1.mpr (by decide +kernel), (hfree hplain).1 "people" (.ofNat 1)⟩

end Service

namespace Kennel

/-- Pets with the name of an owner. One relation to an owner has a name that reads as a path, the name of
the other ends in a blank. -/
def definitions : List ModelDefinition :=
  [⟨"Person", "people", true, .standard, [], [], []⟩,
  ⟨"Pet", "pets", true, .standard, [⟨"owner", .string⟩],
    [⟨"first.owner", .manyToOne, "Person", none⟩, ⟨"owner ", .manyToOne, "Person", none⟩], []⟩]

def first : Relation :=
  ⟨"first.owner", .manyToOne, "people", none, none⟩

def second : Relation :=
  ⟨"owner ", .manyToOne, "people", none, none⟩

def person : Model :=
  ⟨"Person", "people", true, "id", .long, true, [], [], []⟩

def pet : Model :=
  ⟨"Pet", "pets", true, "id", .long, true, [⟨"owner", .string⟩], [first, second], []⟩

def service : Service :=
  ⟨⟨[person, pet], by decide +kernel⟩, .standard, .none, fun _ => ""⟩

end Kennel

namespace Service

open Registry

/-- With a dot or a blank in its name an owning relation is read as a path to nothing or to something
else, and then no person can be deleted. -/
theorem owners_under_paths_are_not_asked_for :
    ofDefinitions Kennel.definitions = .ok Kennel.service.registry ∧
      Kennel.first ∈ Kennel.pet.owning ∧ Kennel.second ∈ Kennel.pet.owning ∧
      (∀ id, references Kennel.service.registry Kennel.pet "first.owner" id =
        .error (.invalidFilter (.unknownField "first" "pets" "first.owner"))) ∧
      (∀ id, references Kennel.service.registry Kennel.pet "owner " id =
        .ok (.compare ⟨[], "owner", .string, false⟩ .eq id)) ∧
      ((Kennel.service.after [.create "people" (.fields [])]).run
          (Kennel.service.delete "people" (.ofNat 1))).1 =
        .error (.invalidFilter (.unknownField "first" "pets" "first.owner")) :=
  ⟨by rfl, .head _, .tail _ (.head _), fun _ => rfl, fun _ => rfl, by rfl⟩

end Service

end EntityGraph
