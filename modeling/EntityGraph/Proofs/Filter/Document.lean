import EntityGraph.Proofs.Filter.Check
import EntityGraph.Proofs.Json.Record

namespace EntityGraph

open Json (Document Reader member?)

namespace Filter

variable {f : Filter} {n : Nat} {v : Json} {d : Document}

/-- The values of a filter fit into the depth that a document leaves for them, and a second value is not
null. -/
structure Fits (n : Nat) (f : Filter) : Prop where
  value : Reader.Fits n f.value
  second : ∀ v, f.second = some v → v ≠ .null ∧ Reader.Fits n v

theorem fits_of_read? (h : read? (Reader.ofDocuments n) d = some f) : f.Fits n := by
  obtain ⟨record, -, h⟩ := Option.bind_eq_some_iff.mp h
  obtain ⟨field, -, h⟩ := Option.bind_eq_some_iff.mp h
  obtain ⟨operator, -, h⟩ := Option.bind_eq_some_iff.mp h
  obtain ⟨value, hvalue, h⟩ := Option.bind_eq_some_iff.mp h
  obtain ⟨second, hsecond, h⟩ := Option.bind_eq_some_iff.mp h
  obtain rfl := Option.some.inj h
  constructor
  · rcases Json.exists_of_member?_eq_some hvalue with habsent | ⟨d, -, hd⟩
    · obtain rfl := Option.some.inj habsent
      exact Reader.fits_null
    · exact Reader.fits_of_value? hd
  · rintro v rfl
    rcases Json.exists_of_member?_eq_some hsecond with habsent | ⟨d, -, hd⟩
    · cases habsent
    · obtain ⟨w, hw, hsome⟩ := Option.map_eq_some_iff.mp hd
      obtain ⟨hnull, hsome⟩ := Option.ite_none_left_eq_some.mp hsome
      obtain rfl := Option.some.inj hsome
      exact ⟨Json.isNull_eq_false_iff.mp (Bool.not_eq_true _ ▸ hnull), Reader.fits_of_value? hw⟩

def doubles (f : Filter) : List Double :=
  f.value.doubles ++ (f.second.getD .null).doubles

/-- A filter as an object, with its members in some order. -/
def IsWrittenAs (f : Filter) (v : Json) : Prop :=
  ∃ members, members.Perm f.members ∧ v = .obj members

theorem mem_members_iff {p : String × Json} : p ∈ f.members ↔
    p = ("field", .str f.field) ∨ p = ("operator", .str f.operator.code) ∨ p = ("value", f.value) ∨
      ∃ v, f.second = some v ∧ ("secondValue", v) = p := by
  simp [members]

theorem nodup_members (f : Filter) : (f.members.map Prod.fst).Nodup := by
  rw [members]
  cases f.second <;> simp

theorem isWrittenAs_obj (f : Filter) : f.IsWrittenAs (.obj f.members) :=
  ⟨f.members, .refl _, rfl⟩

theorem isWrittenAs_toJson (f : Filter) : f.IsWrittenAs f.toJson :=
  ⟨_, OrderedMap.ofPairs_perm f.nodup_members, rfl⟩

theorem mem_doubles_of_isWrittenAs (h : f.IsWrittenAs v) {x : Double} (hx : x ∈ v.doubles) :
    x ∈ f.doubles := by
  obtain ⟨members, hperm, rfl⟩ := h
  obtain ⟨p, hp, hx⟩ := Json.mem_memberDoubles_iff.mp hx
  rcases mem_members_iff.mp (hperm.mem_iff.mp hp) with rfl | rfl | rfl | ⟨w, hw, rfl⟩
  · cases hx
  · cases hx
  · exact List.mem_append_left _ hx
  · exact List.mem_append_right _ (by rwa [hw])

def fieldNames : List (List String) :=
  [["field"], ["operator", "operation"], ["value"], ["secondValue", "second_value"]]

theorem find?_fieldNames {p : String × Json} (hp : p ∈ f.members) :
    (fieldNames.find? fun names => names.contains p.1).bind List.head? = some p.1 := by
  have hown : ∀ k ∈ ["field", "operator", "value", "secondValue"],
      (fieldNames.find? fun names => names.contains k).bind List.head? = some k := by
    decide
  refine hown p.1 ?_
  rcases mem_members_iff.mp hp with rfl | rfl | rfl | ⟨w, -, rfl⟩ <;> simp

theorem read?_document (hf : f.Fits n) (hplain : ∀ x ∈ f.doubles, x.ReadsBack) (h : f.IsWrittenAs v) :
    read? (Reader.ofDocuments n) v.document = some f := by
  obtain ⟨written, hperm, rfl⟩ := h
  obtain ⟨record, hrecord, hmembers⟩ := Reader.exists_record_of_perm (n := n) hperm f.nodup_members
    fun p => find?_fieldNames
  have hfield : member? record "field" none (Reader.ofDocuments n).string? = some f.field :=
    hmembers.present (mem_members_iff.mpr (.inl rfl)) _ _
  have hoperator : member? record "operator" none (FilterOperator.read? (Reader.ofDocuments n)) =
      some f.operator := by
    rw [hmembers.present (mem_members_iff.mpr (.inr (.inl rfl))), FilterOperator.read?,
      Reader.string?_document, Option.bind_some]
    exact (FilterSpec.ofName?_code f.operator).2
  have hvalue : member? record "value" (some .null) (Reader.ofDocuments n).value? = some f.value := by
    rw [hmembers.present (mem_members_iff.mpr (.inr (.inr (.inl rfl))))]
    exact Reader.value?_document hf.value fun x hx => hplain x (List.mem_append_left _ hx)
  have hsecond : member? record "secondValue" (some none) (Reader.ofDocuments n).present? =
      some f.second := by
    cases hw : f.second with
    | none =>
      refine hmembers.missing (fun hk => ?_) _ _
      obtain ⟨p, hp, hname⟩ := List.mem_map.mp hk
      rcases mem_members_iff.mp hp with rfl | rfl | rfl | ⟨w, hsome, -⟩
      · simp at hname
      · simp at hname
      · simp at hname
      · cases hw.symm.trans hsome
    | some w =>
      obtain ⟨hnull, hfits⟩ := hf.second w hw
      rw [hmembers.present (mem_members_iff.mpr (.inr (.inr (.inr ⟨w, hw, rfl⟩))))]
      refine Reader.present?_document hfits hnull fun x hx => hplain x (List.mem_append_right _ ?_)
      rwa [hw]
  unfold read?
  change ((Reader.ofDocuments n).record? fieldNames (Json.obj written).document).bind _ = _
  rw [hrecord]
  simp only [Option.bind_eq_bind, Option.bind_some, hfield, hoperator, hvalue, hsecond, Option.pure_def]

end Filter

namespace FilterSpec

variable {s : FilterSpec} {t : String} {v : Json} {items : List Json}

def doubles (s : FilterSpec) : List Double :=
  s.filters.flatMap Filter.doubles

def IsWrittenAs (s : FilterSpec) (v : Json) : Prop :=
  ∃ items members, List.Forall₂ Filter.IsWrittenAs s.filters items ∧ members.Perm (s.members items) ∧
    v = .obj members

theorem nodup_members (s : FilterSpec) (items : List Json) : ((s.members items).map Prod.fst).Nodup := by
  simp [members]

theorem mem_doubles_of_isWrittenAs (h : s.IsWrittenAs v) {x : Double} (hx : x ∈ v.doubles) :
    x ∈ s.doubles := by
  obtain ⟨items, members, hitems, hperm, rfl⟩ := h
  obtain ⟨p, hp, hx⟩ := Json.mem_memberDoubles_iff.mp hx
  rcases List.mem_cons.mp (hperm.mem_iff.mp hp) with rfl | hp
  · obtain ⟨item, hitem, hx⟩ := Json.mem_itemDoubles_iff.mp hx
    obtain ⟨f, hf, hwritten⟩ := exists_left_of_forall₂ hitems hitem
    exact List.mem_flatMap.mpr ⟨f, hf, Filter.mem_doubles_of_isWrittenAs hwritten hx⟩
  · obtain rfl := List.mem_singleton.mp hp
    cases hx

theorem ofName?_name (logic : FilterLogic) : FilterLogic.ofName? logic.name = some logic := by
  cases logic <;> decide +kernel

theorem find?_names {p : String × Json} (hp : p ∈ s.members items) :
    ([["filters"], ["logic"]].find? fun names => names.contains p.1).bind List.head? = some p.1 := by
  have hown : ∀ k ∈ ["filters", "logic"],
      ([["filters"], ["logic"]].find? fun names => names.contains k).bind List.head? = some k := by
    decide
  exact hown p.1 (List.mem_map_of_mem hp)

theorem read?_document {n : Nat} (hfits : ∀ f ∈ s.filters, f.Fits n)
    (hplain : ∀ x ∈ s.doubles, x.ReadsBack) (h : s.IsWrittenAs v) :
    read? (Reader.ofDocuments n) v.document = some s := by
  obtain ⟨items, written, hitems, hperm, rfl⟩ := h
  obtain ⟨record, hrecord, hmembers⟩ := Reader.exists_record_of_perm (n := n) hperm (s.nodup_members items)
    fun p => find?_names
  have hread : ∀ f ∈ s.filters, f.Fits n ∧ ∀ x ∈ f.doubles, x.ReadsBack := fun f hf =>
    ⟨hfits f hf, fun x hx => hplain x (List.mem_flatMap.mpr ⟨f, hf, hx⟩)⟩
  have hfilters : member? record "filters" (some [])
      ((Reader.ofDocuments n).list? (Filter.read? (Reader.ofDocuments n))) = some s.filters := by
    rw [hmembers.present (.head _)]
    refine Reader.list?_document (((List.forall₂_and_left _ _).mpr ⟨hread, hitems⟩).flip.imp ?_)
    rintro item f ⟨⟨hf, hdoubles⟩, hwritten⟩
    exact Filter.read?_document hf hdoubles hwritten
  have hlogic : member? record "logic" (some .and) (FilterLogic.read? (Reader.ofDocuments n)) =
      some s.logic := by
    rw [hmembers.present (.tail _ (.head _)), FilterLogic.read?, Reader.string?_document, Option.bind_some,
      ofName?_name]
  unfold read?
  rw [hrecord]
  simp only [Option.bind_eq_bind, Option.bind_some, hfilters, hlogic, Option.pure_def]

theorem fits_of_ofText (h : ofText t = .ok s) {f : Filter} (hf : f ∈ s.filters) : f.Fits valueDepth := by
  unfold ofText at h
  split at h
  · obtain rfl := Except.ok.inj h
    cases hf
  split at h
  · cases h
  · next spec hread =>
    split at h
    · cases h
    obtain rfl := Except.ok.inj h
    obtain ⟨d, -, hread⟩ := Option.bind_eq_some_iff.mp hread
    obtain ⟨record, -, hread⟩ := Option.bind_eq_some_iff.mp hread
    obtain ⟨filters, hfilters, hread⟩ := Option.bind_eq_some_iff.mp hread
    obtain ⟨logic, -, hread⟩ := Option.bind_eq_some_iff.mp hread
    obtain rfl := Option.some.inj hread
    rcases Json.exists_of_member?_eq_some hfilters with habsent | ⟨d, -, hd⟩
    · obtain rfl := Option.some.inj habsent
      cases hf
    · obtain ⟨item, hitem⟩ := Reader.exists_of_mem_list? hd hf
      exact Filter.fits_of_read? hitem

/-- A specification is read back in whatever order its members are written. -/
theorem ofText_text (hfits : ∀ f ∈ s.filters, f.Fits valueDepth) (hcheck : ∀ f ∈ s.filters, f.check = .ok ())
    (hplain : ∀ x ∈ s.doubles, x.ReadsBack) (h : s.IsWrittenAs v) : ofText v.text = .ok s := by
  have hblank : ¬Text.isAllBlank v.text = true := by
    obtain ⟨items, members, -, -, rfl⟩ := h
    rw [Text.isAllBlank, Json.text, String.toList_ofList]
    exact Bool.false_ne_true
  have hread := read?_document hfits hplain h
  have hdocument := Json.Document.ofText?_text fun x hx => hplain x (mem_doubles_of_isWrittenAs h hx)
  have hchecks : s.filters.forM Filter.check = .ok () := forM_eq_ok_iff.mpr hcheck
  rw [ofText, if_neg hblank, hdocument, Option.bind_some, hread]
  simp only [hchecks]

/-- Whatever the way in which a specification was written, its own text reads as the same specification,
with the members in the order of the fields or of their names. -/
theorem written_documents_are_read_back (h : ofText t = .ok s) (hplain : ∀ x ∈ s.doubles, x.ReadsBack) :
    ofText s.text = .ok s ∧ ofText s.toJson.text = .ok s := by
  have hread {v : Json} : s.IsWrittenAs v → ofText v.text = .ok s :=
    ofText_text (fun f hf => fits_of_ofText h hf) (fun f hf => check_of_ofText h hf) hplain
  constructor
  · refine hread ⟨_, _, List.forall₂_map_right_iff.mpr ?_, .refl _, rfl⟩
    exact List.forall₂_same.mpr fun f _ => f.isWrittenAs_obj
  · refine hread ⟨_, _, List.forall₂_map_right_iff.mpr ?_, OrderedMap.ofPairs_perm (nodup_members s _), rfl⟩
    exact List.forall₂_same.mpr fun f _ => f.isWrittenAs_toJson

/-- A filter as a list, with the long name of its operator and a zero too much, and one with other names of
its fields and without a value. -/
def offers : String :=
  "\x7b\"filters\":[[\"price\",\"GREATER_THAN\",12.50]," ++
    "\x7b\"operation\":\"Like\",\"field\":\"name\",\"second_value\":null\x7d],\"logic\":\"or\"\x7d"

/-- The text that is written for them has one form. -/
theorem offers_are_read_back : ∃ s, ofText offers = .ok s ∧ s.doubles.length = 1 ∧
    (∀ x ∈ s.doubles, x.ReadsBack) ∧
    s.text = "\x7b\"filters\":[\x7b\"field\":\"price\",\"operator\":\"gt\",\"value\":12.5\x7d," ++
      "\x7b\"field\":\"name\",\"operator\":\"like\",\"value\":null\x7d],\"logic\":\"OR\"\x7d" ∧
    ofText s.text = .ok s ∧ ofText s.toJson.text = .ok s := by
  have hs : ofText offers = .ok ((ofText offers).toOption.getD empty) := by
    have hok : (ofText offers).isOk = true := by decide +kernel
    cases hread : ofText offers with
    | error e =>
      rw [hread] at hok
      cases hok
    | ok s => rfl
  have hplain : ∀ x ∈ ((ofText offers).toOption.getD empty).doubles, x.ReadsBack := by decide +kernel
  exact ⟨_, hs, by decide +kernel, hplain, by decide +kernel, written_documents_are_read_back hs hplain⟩

end FilterSpec

end EntityGraph
