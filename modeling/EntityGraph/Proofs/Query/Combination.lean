import EntityGraph.Proofs.Service.Run

namespace EntityGraph

def Filter.alone (f : Filter) (logic : FilterLogic) : FilterSpec :=
  ⟨[f], logic⟩

def Filter.condition? (g : Registry) (m : Model) (f : Filter) : Option Predicate :=
  (g.accessPath m f.field).toOption.bind fun path => f.predicate? path

/-- A filter that puts a condition on records. -/
def Filter.IsEffective (g : Registry) (m : Model) (f : Filter) : Prop :=
  ∃ path p, g.accessPath m f.field = .ok path ∧ f.predicate? path = some p

namespace FilterSpec

def Resolves (g : Registry) (m : Model) (s : FilterSpec) : Prop :=
  ∀ f ∈ s.filters, ∃ path, g.accessPath m f.field = .ok path

def conditions (g : Registry) (m : Model) (s : FilterSpec) : List Predicate :=
  s.filters.filterMap (Filter.condition? g m)

def selected (g : Registry) (ts : Tables) (m : Model) (s : FilterSpec) : Except Error (List Json) := do
  ts.query m (← s.compile g m) none .all

end FilterSpec

def Filter.Selects (g : Registry) (ts : Tables) (m : Model) (logic : FilterLogic) (f : Filter)
    (record : Json) : Prop :=
  ∃ rows, (f.alone logic).selected g ts m = .ok rows ∧ record ∈ rows

/-- Each effective filter selects the record, or one of them does. Where none is effective, all records
are admitted. -/
def FilterSpec.Admits (g : Registry) (ts : Tables) (m : Model) (s : FilterSpec) (record : Json) : Prop :=
  (∀ f ∈ s.filters, ¬f.IsEffective g m) ∨
    match s.logic with
    | .and => ∀ f ∈ s.filters, f.IsEffective g m → f.Selects g ts m s.logic record
    | .or => ∃ f ∈ s.filters, f.IsEffective g m ∧ f.Selects g ts m s.logic record

section Combining

variable {g : Registry} {ts : Tables} {m : Model} {f : Filter} {s : FilterSpec} {logic : FilterLogic}
  {p : Predicate} {ps qs : List Predicate} {record : Json}

namespace Predicate

theorem evalAll_eq (ts : Tables) (record : Json) (ps : List Predicate) :
    evalAll ts record ps = ps.all (eval ts record) := by
  induction ps with
  | nil => rfl
  | cons p rest ih => rw [evalAll, ih, List.all_cons]

theorem evalAny_eq (ts : Tables) (record : Json) (ps : List Predicate) :
    evalAny ts record ps = ps.any (eval ts record) := by
  induction ps with
  | nil => rfl
  | cons p rest ih => rw [evalAny, ih, List.any_cons]

end Predicate

namespace Tables

def meets (ts : Tables) (p : Option Predicate) (record : Json) : Bool :=
  p.elim true (Predicate.eval ts record)

theorem query_all (ts : Tables) (m : Model) (p : Option Predicate) :
    ts.query m p none .all = .ok ((ts.records m.path).filter (ts.meets p)) := by
  cases p with
  | none => exact congrArg Except.ok (List.filter_true _).symm
  | some p => rfl

/-- However many conditions there are, their combination means what its name says, except that no
alternative at all is no condition. -/
theorem meets_combine (ts : Tables) (logic : FilterLogic) (ps : List Predicate) (record : Json) :
    ts.meets (FilterSpec.combine logic ps) record = true ↔
      ps = [] ∨ match logic with
        | .and => ∀ p ∈ ps, p.eval ts record = true
        | .or => ∃ p ∈ ps, p.eval ts record = true := by
  -- one condition stands for itself, only from two on there is a node that combines them
  match ps with
  | [] => simp [FilterSpec.combine, meets]
  | [p] => cases logic <;> simp [FilterSpec.combine, meets]
  | p :: q :: rest =>
    cases logic with
    | and => simp [FilterSpec.combine, meets, Predicate.eval, Predicate.evalAll_eq]
    | or => simp [FilterSpec.combine, meets, Predicate.eval, Predicate.evalAny_eq]

/-- The order of the conditions does not matter, nor how often each of them occurs. -/
theorem meets_combine_congr (h : ∀ p, p ∈ ps ↔ p ∈ qs) :
    ts.meets (FilterSpec.combine logic ps) record = ts.meets (FilterSpec.combine logic qs) record := by
  rw [Bool.eq_iff_iff]
  simp only [meets_combine, List.eq_nil_iff_forall_not_mem, h]

end Tables

namespace Filter

theorem condition?_eq_some_iff : f.condition? g m = some p ↔
    ∃ path, g.accessPath m f.field = .ok path ∧ f.predicate? path = some p := by
  rw [condition?]
  cases g.accessPath m f.field with
  | error e => simp [Except.toOption]
  | ok path => simp [Except.toOption]

theorem isEffective_iff : f.IsEffective g m ↔ ∃ p, f.condition? g m = some p := by
  simp only [IsEffective, condition?_eq_some_iff]
  exact exists_comm

end Filter

namespace FilterSpec

theorem mem_conditions_iff : p ∈ s.conditions g m ↔
    ∃ f ∈ s.filters, f.IsEffective g m ∧ f.condition? g m = some p := by
  rw [conditions, List.mem_filterMap]
  exact exists_congr fun f => and_congr_right fun _ =>
    ⟨fun hp => ⟨Filter.isEffective_iff.mpr ⟨p, hp⟩, hp⟩, fun h => h.2⟩

theorem compile_eq (hs : s.Resolves g m) :
    s.compile g m = .ok (combine s.logic (s.conditions g m)) := by
  refine bind_eq_ok_iff.mpr ⟨s.filters.map (Filter.condition? g m), mapM_eq_ok_iff.mpr ?_, ?_⟩
  · refine List.forall₂_map_right_iff.mpr (List.forall₂_same.mpr fun f hf => ?_)
    obtain ⟨path, hpath⟩ := hs f hf
    rw [Filter.condition?, hpath]
    rfl
  · rw [List.filterMap_map, conditions]
    rfl

theorem selected_eq (hs : s.Resolves g m) (ts : Tables) :
    s.selected g ts m = .ok
      ((ts.records m.path).filter (ts.meets (combine s.logic (s.conditions g m)))) := by
  rw [selected, compile_eq hs, ← Tables.query_all]
  rfl

theorem selected_alone (hp : f.condition? g m = some p) (ts : Tables) :
    (f.alone logic).selected g ts m = .ok ((ts.records m.path).filter (p.eval ts)) := by
  obtain ⟨path, hpath, -⟩ := Filter.condition?_eq_some_iff.mp hp
  have hs : (f.alone logic).Resolves g m := fun f' hf => by
    obtain rfl := List.mem_singleton.mp hf
    exact ⟨path, hpath⟩
  rw [selected_eq hs, conditions, Filter.alone, List.filterMap_cons_some hp]
  rfl

theorem selects_iff (hp : f.condition? g m = some p) (hrecord : record ∈ ts.records m.path) :
    f.Selects g ts m logic record ↔ p.eval ts record = true := by
  simp [Filter.Selects, selected_alone hp, hrecord]

/-- A record of the model meets the combined conditions just if the specification admits it. -/
theorem meets_iff_admits (hrecord : record ∈ ts.records m.path) :
    ts.meets (combine s.logic (s.conditions g m)) record = true ↔ s.Admits g ts m record := by
  rw [Tables.meets_combine, Admits]
  refine or_congr ?_ ?_
  · simp [conditions, List.filterMap_eq_nil_iff, Filter.isEffective_iff, Option.eq_none_iff_forall_ne_some]
  · cases s.logic with
    | and =>
      constructor
      · intro h f hf he
        obtain ⟨p, hp⟩ := Filter.isEffective_iff.mp he
        exact (selects_iff hp hrecord).mpr (h p (mem_conditions_iff.mpr ⟨f, hf, he, hp⟩))
      · intro h p hp
        obtain ⟨f, hf, he, hp⟩ := mem_conditions_iff.mp hp
        exact (selects_iff hp hrecord).mp (h f hf he)
    | or =>
      constructor
      · rintro ⟨p, hp, h⟩
        obtain ⟨f, hf, he, hp⟩ := mem_conditions_iff.mp hp
        exact ⟨f, hf, he, (selects_iff hp hrecord).mpr h⟩
      · rintro ⟨f, hf, he, h⟩
        obtain ⟨p, hp⟩ := Filter.isEffective_iff.mp he
        exact ⟨p, mem_conditions_iff.mpr ⟨f, hf, he, hp⟩, (selects_iff hp hrecord).mp h⟩

/-- A specification selects the records that it admits, each entry once and in the order of the keys.
Other filters, of which the effective ones are the same in any order, select the same records. -/
theorem filters_combine_as_sets (hs : s.Resolves g m) (ts : Tables) :
    (∃ entries, s.selected g ts m = .ok (entries.map Prod.snd) ∧
      entries.Sublist (ts.table m.path).rows ∧ OrderedMap.Ascending entries ∧
      ∀ e ∈ (ts.table m.path).rows, e ∈ entries ↔ s.Admits g ts m e.2) ∧
    ∀ filters, (⟨filters, s.logic⟩ : FilterSpec).Resolves g m →
      (∀ f, f.IsEffective g m → (f ∈ filters ↔ f ∈ s.filters)) →
        (⟨filters, s.logic⟩ : FilterSpec).selected g ts m = s.selected g ts m := by
  constructor
  · let entries := (ts.table m.path).rows.filter fun e =>
      ts.meets (combine s.logic (s.conditions g m)) e.2
    have hsub : entries.Sublist (ts.table m.path).rows := List.filter_sublist
    refine ⟨entries, ?_, hsub, (ts.table m.path).ascending.sublist hsub, fun e he => ?_⟩
    · rw [selected_eq hs, Tables.records, Table.records, List.filter_map]
      rfl
    · have hrecord : e.2 ∈ ts.records m.path := List.mem_map_of_mem he
      rw [← meets_iff_admits hrecord, List.mem_filter]
      exact and_iff_right he
  · intro filters hfilters hsame
    have hmem (p : Predicate) : p ∈ (⟨filters, s.logic⟩ : FilterSpec).conditions g m ↔
        p ∈ s.conditions g m := by
      rw [mem_conditions_iff, mem_conditions_iff]
      exact exists_congr fun f => and_congr_left fun h => hsame f h.1
    rw [selected_eq hfilters, selected_eq hs]
    exact congrArg Except.ok (List.filter_congr fun record _ => Tables.meets_combine_congr hmem)

end FilterSpec

end Combining

namespace Household

def hints : List Filter :=
  [⟨"pets.id", .eq, .ofNat 1, none⟩, ⟨"passport.number", .among, .arr [], none⟩,
    ⟨"name", .like, .null, none⟩]

def firstPerson : Json :=
  .ofPairs [("id", .ofNat 1), ("name", .str "Ada"), ("passport", .null)]

def secondPerson : Json :=
  .ofPairs [("id", .ofNat 2), ("name", .str "Bo"), ("passport", .str "P1")]

def tables : Tables :=
  let people := (Table.empty.put (.int 1) firstPerson).put (.int 2) secondPerson
  let passports := Table.empty.put (.text "P1") (.ofPairs [("number", .str "P1")])
  let pets := Table.empty.put (.int 1) (.ofPairs [("id", .ofNat 1), ("owner", .ofNat 1)])
  ((Tables.empty.set "people" people).set "passports" passports).set "pets" pets

end Household

namespace FilterSpec

open Household

/-- The owner of the pet is found, and nobody else, although no passport is one of none. The pattern that
is missing may as well be left out. -/
theorem owner_is_selected_by_one_of_the_hints :
    let s : FilterSpec := ⟨hints, .or⟩
    s.Resolves service.registry person ∧
      s.selected service.registry tables person = .ok [firstPerson] ∧
      ¬s.Admits service.registry tables person secondPerson ∧
      (⟨(hints.take 2).reverse, .or⟩ : FilterSpec).selected service.registry tables person =
        .ok [firstPerson] := by
  intro s
  have hs : s.Resolves service.registry person :=
    List.forall_mem_cons.mpr ⟨⟨_, rfl⟩, List.forall_mem_cons.mpr ⟨⟨_, rfl⟩,
      List.forall_mem_singleton.mpr ⟨_, rfl⟩⟩⟩
  have hrecords : tables.records person.path = [firstPerson, secondPerson] := by rfl
  have hfirst : tables.meets (combine .or (conditions service.registry person ⟨hints, .or⟩)) firstPerson =
      true := by
    decide +kernel
  have hsecond : tables.meets (combine .or (conditions service.registry person ⟨hints, .or⟩)) secondPerson =
      false := by
    decide +kernel
  have hselected : s.selected service.registry tables person = .ok [firstPerson] := by
    rw [selected_eq hs, hrecords]
    simp only [s, List.filter_cons, hfirst, hsecond, List.filter_nil, if_true, Bool.false_eq_true, if_false]
  obtain ⟨⟨entries, hentries, -, -, hadmits⟩, hsame⟩ := filters_combine_as_sets hs tables
  refine ⟨hs, hselected, fun hother => ?_, (hsame (hints.take 2).reverse ?_ ?_).trans hselected⟩
  · have hmem := List.mem_map_of_mem (f := Prod.snd)
      ((hadmits (.int 2, secondPerson) (.tail _ (.head _))).mpr hother)
    rw [← Except.ok.inj (hselected.symm.trans hentries), List.mem_singleton] at hmem
    exact nomatch hmem
  · exact fun f hf => hs f (List.mem_of_mem_take (List.mem_reverse.mp hf))
  · intro f hf
    rw [List.mem_reverse]
    refine ⟨List.mem_of_mem_take, fun hmem => ?_⟩
    have hlike : f ≠ ⟨"name", .like, .null, none⟩ := by
      rintro rfl
      obtain ⟨path, p, -, hp⟩ := hf
      cases hp
    simpa [s, hints, hlike] using hmem

end FilterSpec

end EntityGraph
