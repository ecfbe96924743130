import EntityGraph.Proofs.Entity.Expansion
import EntityGraph.Proofs.Service.Preservation
import EntityGraph.Proofs.Service.Visibility

namespace EntityGraph

structure Registry.HeldBy (ts : Tables) (target : Model) (owner : String) (id : Json) (ids : List Json) :
    Prop where
  mem : ∀ x, x ∈ ids ↔ ∃ key row, ts.row? target.path key = some row ∧
    id ∈ (row.get owner).references ∧ target.identityOf row = some x
  ascending : ids.Pairwise fun a b => ∃ k l, RecordKey.of? a = some k ∧ RecordKey.of? b = some l ∧ k < l

/-- What a relation shows that leads to these identities: a list of entities with just them, or a single
entity. -/
inductive Model.Displays (target : Model) : Bool → List Json → Json → Prop
  | none : Displays target false [] .null
  | one {id v : Json} (h : v.IsObject) (hid : target.identityOf v = some id) :
      Displays target false [id] v
  | many {ids vs : List Json}
      (h : List.Forall₂ (fun id v => v.IsObject ∧ target.identityOf v = some id) ids vs) :
      Displays target true ids (.arr vs)

namespace Registry

variable {g : Registry} {ts : Tables} {m target : Model} {r : Relation} {e id record v : Json}
  {ids : List Json} {many : Bool}

/-- An entity as it has been loaded for a record. -/
structure Portrays (g : Registry) (ts : Tables) (m : Model) (id record e : Json) : Prop where
  isObject : e.IsObject
  identity : m.identityOf e = m.identityOf record
  scalars : ∀ a ∈ m.attributes, e.get? a.name = record.get? a.name
  owning : ∀ r ∈ m.owning, ∃ target, g.get? r.target = some target ∧
    target.Displays r.isCollection (record.get r.name).references (e.get r.name)
  inverse : ∀ r ∈ m.relations, ∀ owner, r.mappedBy = some owner → ∃ target ids,
    g.get? r.target = some target ∧ HeldBy ts target owner id ids ∧
      target.Displays r.isCollection (if r.isCollection then ids else ids.take 1) (e.get r.name)

theorem Shows.displays (h : Shows target many ids v) : target.Displays many ids v := by
  obtain ⟨hfits, rfl⟩ := h
  cases hfits with
  | none => exact .none
  | one h =>
    obtain ⟨x, hx, -⟩ := h.2
    rw [Model.identitiesOf_of_isObject h.1, hx]
    exact .one h.1 hx
  | @list vs h =>
    refine .many ?_
    rw [Model.identitiesOf_arr]
    induction vs with
    | nil => exact .nil
    | cons w rest ih =>
      obtain ⟨hobject, x, hx, -⟩ := h w List.mem_cons_self
      rw [List.filterMap_cons_some hx]
      exact .cons ⟨hobject, hx⟩ (ih fun u hu => h u (List.mem_cons_of_mem _ hu))

theorem AllFit.heldBy_holders (hts : g.AllFit ts) (hm : m ∈ g.models) (hr : r ∈ m.owning)
    (ht : g.get? r.target = some target) (hid : target.IsIdentity id) :
    HeldBy ts m r.name id ((holders ts m r.name id).filterMap m.identityOf) := by
  refine ⟨fun x => ?_, ?_⟩
  · simp only [List.mem_filterMap, hts.mem_holders_iff hm hr ht hid]
    constructor
    · rintro ⟨row, ⟨key, hrow, hmem⟩, hx⟩
      exact ⟨key, row, hrow, hmem, hx⟩
    · rintro ⟨key, row, hrow, hmem, hx⟩
      exact ⟨row, ⟨key, hrow, hmem⟩, hx⟩
  · have hkey {k row x} (hrow : ts.row? m.path k = some row) (hx : m.identityOf row = some x) :
        RecordKey.of? x = some k := by
      obtain ⟨y, hy, -, hk, -⟩ := (hts m hm k row hrow).identity
      exact Option.some.inj (hx.symm.trans hy) ▸ hk
    refine List.Pairwise.filterMap m.identityOf ?_ ((ts.pairwise_keys m.path).filter _)
    rintro a b ⟨k, l, hlt, ha, hb⟩ x hx y hy
    exact ⟨k, l, hkey ha hx, hkey hb hy, hlt⟩

/-- An expanded record shows what is stored. -/
theorem Expanded.portrays (hg : g.Coherent) (hplain : g.PlainReferences) (hts : g.AllFit ts)
    (hm : m ∈ g.models) (hid : m.IsIdentity id) (h : Expanded g ts m id record e) :
    Portrays g ts m id record e := by
  refine ⟨h.isObject, h.identityOf_eq hg hm, fun a ha => ?_, fun r hr => ?_, fun r hr owner hmb => ?_⟩
  · rw [h.others a.name fun r hr => hg.name_ne_attribute_name hm hr ha,
      hg.get?_fromRecord_attribute hm record ha]
  · obtain ⟨target, ht⟩ := hg.exists_target hm (List.mem_filter.mp hr).1
    obtain ⟨v, hv, hshows⟩ := h.related r (List.mem_filter.mp hr).1 target ht
    have hshows := hshows (hplain.plainOwner (mem_of_get? ht).1 r)
    rw [leadsTo_of_owning hr] at hshows
    exact ⟨target, ht, Json.get_of_get? hv ▸ hshows.displays⟩
  · obtain ⟨target, ht⟩ := hg.exists_target hm hr
    obtain ⟨v, hv, hshows⟩ := h.related r hr target ht
    obtain ⟨htm, hp⟩ := hg.target_path hm hr ht
    obtain ⟨counter, hco, rfl, hct, -⟩ := hg.owners m hm r hr owner hmb target htm hp
    have hshows := hshows (hplain.plainOwner htm r)
    rw [leadsTo, hmb] at hshows
    exact ⟨target, _, ht, hts.heldBy_holders htm hco (hct ▸ get?_path hm) hid,
      Json.get_of_get? hv ▸ hshows.displays⟩

/-- Loading does not fail on stored records, and it shows their identities, their scalars and all that
they are related to, whatever else the entity has from which loading starts. -/
theorem loading_shows_what_is_stored {definitions : List ModelDefinition}
    (hresolved : ofDefinitions definitions = .ok g) (hplain : g.PlainReferences) (hts : g.AllFit ts)
    (hm : m ∈ g.models) (hid : (m.identityOf e).bind m.identity? = some id)
    (hfind : ts.find? m.path id = some record) (depth : Nat) :
    ∃ loaded, g.load ts (depth + 1) m e = .ok loaded ∧ Portrays g ts m id record loaded := by
  have hg := coherent_of_ofDefinitions hresolved
  obtain ⟨loaded, hload⟩ := exists_load_total hg hplain ts (depth + 1) hm e
  obtain ⟨raw, -, hraw⟩ := Option.bind_eq_some_iff.mp hid
  have hform := (Model.isIdentity_of_coerceIdentity (hg.identityTypes m hm)
    (Model.identity?_eq_some_iff.mp hraw)).1
  exact ⟨loaded, hload, (expanded_of_load hg hts hm hid hfind hload).portrays hg hplain hts hm hform⟩

/-- The first person, given by a text and with a pet that is none. -/
theorem first_person_is_portrayed :
    let ts := (Service.afterCalls Household.calls).tables
    let record := Json.ofPairs [("id", .ofNat 1), ("name", .str "Ada"), ("passport", .null)]
    ∃ loaded, Household.service.registry.load ts 3 Household.person
        (.ofPairs [("id", .str "1"), ("pets", .arr [.ofNat 7])]) = .ok loaded ∧
      Household.service.registry.Portrays ts Household.person (.ofNat 1) record loaded :=
  have hresolved : ofDefinitions Household.definitions = .ok Household.service.registry := by rfl
  loading_shows_what_is_stored hresolved Household.isPlain.names
    (Service.consistent_afterCalls Household.calls_plain).fits (.head _) (by rfl) (by rfl) 2

end Registry

end EntityGraph
