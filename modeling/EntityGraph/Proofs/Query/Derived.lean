import EntityGraph.Proofs.Query.Combination

namespace EntityGraph

def Comparison.operator : Comparison → FilterOperator
  | .eq => .eq
  | .neq => .neq
  | .gt => .gt
  | .gte => .gte
  | .lt => .lt
  | .lte => .lte

namespace FilterSpec

def anyOf (field : String) (items : List Json) : FilterSpec :=
  ⟨items.map fun x => ⟨field, .eq, x, none⟩, .or⟩

def bounds (field : String) (low high : Json) : FilterSpec :=
  ⟨[⟨field, .gte, low, none⟩, ⟨field, .lte, high, none⟩], .and⟩

end FilterSpec

section Derived

variable {g : Registry} {ts : Tables} {m : Model} {f : Filter} {field : String} {path : AccessPath}
  {items : List Json} {low high record : Json} {logic : FilterLogic} {second : Option Json}

theorem Tables.reached_of_no_hops (hhops : path.hops = []) :
    ts.reached path record = [record.get path.field] := by
  rw [reached, hhops]
  rfl

namespace Predicate

/-- Which value is reached and which of the given ones it is equal to may be asked in either order. -/
theorem eval_among_iff (values : List Json) : (among path values).eval ts record = true ↔
    ∃ x ∈ values, (compare path .eq x).eval ts record = true := by
  simp only [eval, List.any_eq_true]
  constructor
  · rintro ⟨v, hv, x, hx, h⟩
    exact ⟨x, hx, v, hv, h⟩
  · rintro ⟨x, hx, v, hv, h⟩
    exact ⟨v, hv, x, hx, h⟩

theorem eval_bounds_of_between (h : (between path low high).eval ts record = true) :
    (compare path .gte low).eval ts record = true ∧ (compare path .lte high).eval ts record = true := by
  obtain ⟨v, hv, hboth⟩ := List.any_eq_true.mp h
  obtain ⟨hlow, hhigh⟩ := Bool.and_eq_true_iff.mp hboth
  exact ⟨List.any_eq_true.mpr ⟨v, hv, hlow⟩, List.any_eq_true.mpr ⟨v, hv, hhigh⟩⟩

theorem eval_between_iff (hhops : path.hops = []) : (between path low high).eval ts record = true ↔
    (compare path .gte low).eval ts record = true ∧ (compare path .lte high).eval ts record = true := by
  simp only [eval, Tables.reached_of_no_hops hhops, List.any_cons, List.any_nil, Bool.or_false,
    Bool.and_eq_true]

end Predicate

namespace Filter

theorem condition?_of_path (hpath : g.accessPath m f.field = .ok path) :
    f.condition? g m = f.predicate? path := by
  rw [condition?, hpath]
  rfl

theorem predicate?_comparison (op : Comparison) {x : Json} (hx : coerceOrKeep path.type x ≠ .null) :
    predicate? path ⟨field, op.operator, x, second⟩ =
      some (.compare path op (coerceOrKeep path.type x)) := by
  have hnull := Json.isNull_eq_false_iff.mpr hx
  cases op <;> simp [predicate?, comparison, Comparison.operator, hnull]

theorem condition?_comparison (hpath : g.accessPath m field = .ok path) (op : Comparison) {x : Json}
    (hx : coerceOrKeep path.type x ≠ .null) :
    condition? g m ⟨field, op.operator, x, second⟩ = some (.compare path op (coerceOrKeep path.type x)) :=
  (condition?_of_path hpath).trans (predicate?_comparison op hx)

theorem predicate?_among (h : items ≠ []) : predicate? path ⟨field, .among, .arr items, second⟩ =
    some (.among path (items.map (coerceOrKeep path.type))) := by
  cases items with
  | nil => exact absurd rfl h
  | cons x rest => rfl

theorem predicate?_between (hlow : coerceOrKeep path.type low ≠ .null)
    (hhigh : coerceOrKeep path.type high ≠ .null) :
    predicate? path ⟨field, .between, low, some high⟩ =
      some (.between path (coerceOrKeep path.type low) (coerceOrKeep path.type high)) := by
  simp [predicate?, Json.isNull_eq_false_iff.mpr hlow, Json.isNull_eq_false_iff.mpr hhigh]

end Filter

namespace FilterSpec

theorem resolves_of_path {s : FilterSpec} (hpath : g.accessPath m field = .ok path)
    (hs : ∀ f ∈ s.filters, f.field = field) : s.Resolves g m :=
  fun f hf => ⟨path, (hs f hf).symm ▸ hpath⟩

theorem conditions_anyOf (hpath : g.accessPath m field = .ok path)
    (hitems : ∀ x ∈ items, coerceOrKeep path.type x ≠ .null) :
    (anyOf field items).conditions g m =
      items.map fun x => .compare path .eq (coerceOrKeep path.type x) := by
  rw [conditions, anyOf, List.filterMap_map]
  refine List.filterMap_eq_map_iff_forall_eq_some.mpr fun x hx => ?_
  exact Filter.condition?_comparison hpath .eq (hitems x hx)

theorem conditions_bounds (hpath : g.accessPath m field = .ok path)
    (hlow : coerceOrKeep path.type low ≠ .null) (hhigh : coerceOrKeep path.type high ≠ .null) :
    (bounds field low high).conditions g m =
      [.compare path .gte (coerceOrKeep path.type low), .compare path .lte (coerceOrKeep path.type high)] := by
  have hgte : Filter.condition? g m ⟨field, .gte, low, none⟩ = _ :=
    Filter.condition?_comparison hpath .gte hlow
  have hlte : Filter.condition? g m ⟨field, .lte, high, none⟩ = _ :=
    Filter.condition?_comparison hpath .lte hhigh
  rw [conditions, bounds, List.filterMap_cons_some hgte, List.filterMap_cons_some hlte, List.filterMap_nil]

/-- A choice among values selects what the alternative of the equalities with them does. A range selects
what both of its bounds together do where the path has no hops, and otherwise no more than that. -/
theorem derived_operators_agree (hpath : g.accessPath m field = .ok path) (ts : Tables)
    (logic : FilterLogic) :
    (∀ items second, items ≠ [] → (∀ x ∈ items, coerceOrKeep path.type x ≠ .null) → ∃ rows,
      ((⟨field, .among, .arr items, second⟩ : Filter).alone logic).selected g ts m = .ok rows ∧
        (anyOf field items).selected g ts m = .ok rows) ∧
    ∀ low high, coerceOrKeep path.type low ≠ .null → coerceOrKeep path.type high ≠ .null →
      ∃ within both,
        ((⟨field, .between, low, some high⟩ : Filter).alone logic).selected g ts m = .ok within ∧
          (bounds field low high).selected g ts m = .ok both ∧ within.Sublist both ∧
          (path.hops = [] → within = both) := by
  constructor
  · intro items second hne hitems
    have hresolves : (anyOf field items).Resolves g m := resolves_of_path hpath fun f hf => by
      obtain ⟨x, -, rfl⟩ := List.mem_map.mp hf
      rfl
    have hamong := (Filter.condition?_of_path (f := ⟨field, .among, .arr items, second⟩) hpath).trans
      (Filter.predicate?_among hne)
    refine ⟨_, selected_alone hamong ts, ?_⟩
    rw [selected_eq hresolves, conditions_anyOf hpath hitems]
    refine congrArg Except.ok (List.filter_congr fun record _ => ?_)
    rw [Bool.eq_iff_iff, Tables.meets_combine, Predicate.eval_among_iff]
    simp [anyOf, hne]
  · intro low high hlow hhigh
    have hresolves : (bounds field low high).Resolves g m := resolves_of_path hpath fun f hf => by
      rcases List.mem_cons.mp hf with rfl | hf
      · rfl
      · obtain rfl := List.mem_singleton.mp hf
        rfl
    have hbetween := (Filter.condition?_of_path (f := ⟨field, .between, low, some high⟩) hpath).trans
      (Filter.predicate?_between hlow hhigh)
    have hmeets (record : Json) : ts.meets (combine (bounds field low high).logic
        ((bounds field low high).conditions g m)) record = true ↔
          (Predicate.compare path .gte (coerceOrKeep path.type low)).eval ts record = true ∧
            (Predicate.compare path .lte (coerceOrKeep path.type high)).eval ts record = true := by
      rw [conditions_bounds hpath hlow hhigh, Tables.meets_combine]
      simp [bounds]
    refine ⟨_, _, selected_alone hbetween ts, selected_eq hresolves ts, ?_, fun hhops => ?_⟩
    · refine List.monotone_filter_right _ fun record h => ?_
      exact (hmeets record).mpr (Predicate.eval_bounds_of_between h)
    · refine List.filter_congr fun record _ => ?_
      rw [Bool.eq_iff_iff, hmeets, Predicate.eval_between_iff hhops]

end FilterSpec

end Derived

namespace Household

def kennel : Tables :=
  let people := Table.empty.put (.int 1) firstPerson
  let pets := (Table.empty.put (.int 1) (.ofPairs [("id", .ofNat 1), ("owner", .ofNat 1)])).put
    (.int 9) (.ofPairs [("id", .ofNat 9), ("owner", .ofNat 1)])
  (Tables.empty.set "people" people).set "pets" pets

def toPets : AccessPath :=
  ⟨[⟨"pets", "id", "pets", "id", .mapped "owner" false⟩], "id", .long, true⟩

end Household

namespace FilterSpec

open Household

/-- The person has one of the pets 5 and 9, but no pet between 4 and 6, although the one of the pets lies
above 4 and the other one below 6. -/
theorem pets_around_range_are_no_pet_in_it :
    service.registry.accessPath person "pets.id" = .ok toPets ∧
      (∃ rows, ((⟨"pets.id", .among, .arr [.str "5", .ofNat 9], none⟩ : Filter).alone .and).selected
          service.registry kennel person = .ok rows ∧
        (anyOf "pets.id" [.str "5", .ofNat 9]).selected service.registry kennel person = .ok rows ∧
        rows = [firstPerson]) ∧
      ∃ within both, ((⟨"pets.id", .between, .ofNat 4, some (.ofNat 6)⟩ : Filter).alone .and).selected
          service.registry kennel person = .ok within ∧
        (bounds "pets.id" (.ofNat 4) (.ofNat 6)).selected service.registry kennel person = .ok both ∧
        within.Sublist both ∧ within = [] ∧ both = [firstPerson] := by
  have hpath : service.registry.accessPath person "pets.id" = .ok toPets := by rfl
  obtain ⟨hamong, hbetween⟩ := derived_operators_agree hpath kennel .and
  have hitems : ∀ x ∈ [Json.str "5", .ofNat 9], coerceOrKeep toPets.type x ≠ .null :=
    List.forall_mem_cons.mpr ⟨Json.isNull_eq_false_iff.mp (by decide +kernel),
      List.forall_mem_singleton.mpr (Json.isNull_eq_false_iff.mp (by decide +kernel))⟩
  obtain ⟨rows, hrows, hany⟩ := hamong [.str "5", .ofNat 9] none nofun hitems
  obtain ⟨within, both, hwithin, hboth, hsub, -⟩ := hbetween (.ofNat 4) (.ofNat 6) nofun nofun
  have hselected {s : FilterSpec} (hs : ∀ f ∈ s.filters, f.field = "pets.id") {b : Bool}
      (h : kennel.meets (combine s.logic (s.conditions service.registry person)) firstPerson = b) :
      s.selected service.registry kennel person = .ok (if b then [firstPerson] else []) := by
    have hrecords : kennel.records person.path = [firstPerson] := by rfl
    rw [selected_eq (resolves_of_path hpath hs), hrecords, List.filter_cons, h, List.filter_nil]
  have hone := hselected (s := anyOf "pets.id" [.str "5", .ofNat 9]) (b := true)
    (List.forall_mem_cons.mpr ⟨rfl, List.forall_mem_singleton.mpr rfl⟩) (by decide +kernel)
  have hnone := hselected (s := (⟨"pets.id", .between, .ofNat 4, some (.ofNat 6)⟩ : Filter).alone .and)
    (b := false) (List.forall_mem_singleton.mpr rfl) (by decide +kernel)
  have hother := hselected (s := bounds "pets.id" (.ofNat 4) (.ofNat 6)) (b := true)
    (List.forall_mem_cons.mpr ⟨rfl, List.forall_mem_singleton.mpr rfl⟩) (by decide +kernel)
  exact ⟨hpath, ⟨rows, hrows, hany, Except.ok.inj (hany.symm.trans hone)⟩, within, both, hwithin, hboth,
    hsub, Except.ok.inj (hwithin.symm.trans hnone), Except.ok.inj (hboth.symm.trans hother)⟩

end FilterSpec

end EntityGraph
