import EntityGraph.Filter.Document
import EntityGraph.Proofs.Filter.Parameters
import EntityGraph.Proofs.Outcome

namespace EntityGraph.FilterSpec

variable {key field : String} {op : FilterOperator} {values : List String} {filters : List Filter}
  {f : Filter}

theorem check_of_standFor (h : StandFor field op values filters) (hf : f ∈ filters) : f.field = field ∧
    f.check = if Text.isAllBlank field then .error .emptyField else .ok () := by
  cases h with
  | @each op hbetween hamong values =>
    obtain ⟨v, -, rfl⟩ := List.mem_map.mp hf
    cases op with
    | between => exact absurd rfl hbetween
    | among => exact absurd rfl hamong
    | _ => exact ⟨rfl, rfl⟩
  | members | parts | bounds | halves =>
    obtain rfl := List.mem_singleton.mp hf
    exact ⟨rfl, rfl⟩
  | noMember | noHalves | noBound => exact absurd hf List.not_mem_nil

theorem exists_names_of_mem_ofEntry (h : f ∈ ofEntry key values) : ∃ op, Names key f.field op ∧
    f.check = if Text.isAllBlank f.field then .error .emptyField else .ok () := by
  cases hparts : keyParts? key with
  | none =>
    rw [ofEntry, hparts] at h
    exact absurd h List.not_mem_nil
  | some p =>
    obtain ⟨field, op⟩ := p
    have hnames := keyParts?_eq_some_iff.mp hparts
    obtain ⟨rfl, hcheck⟩ := check_of_standFor ((standFor_iff hnames).mpr rfl) h
    exact ⟨op, hnames, hcheck⟩

theorem check_of_ofText {s : String} {spec : FilterSpec} (h : ofText s = .ok spec) (hf : f ∈ spec.filters) :
    f.check = .ok () := by
  unfold ofText at h
  split at h
  · obtain rfl := Except.ok.inj h
    exact absurd hf List.not_mem_nil
  · split at h
    · cases h
    · split at h
      · cases h
      · next hcheck =>
        obtain rfl := Except.ok.inj h
        exact forM_eq_ok_iff.mp hcheck f hf

/-- All filters that parameters stand for pass their check unless a key with values for a filter names a
field of blanks; nothing else is ever wrong with them. Those of documents pass their check anyway. -/
theorem filters_pass_check_iff (ps : Parameters) :
    ((∀ f ∈ (ofParameters ps).filters, f.check = .ok ()) ↔
      ∀ p ∈ ps, ∀ field op, Names p.1 field op → Text.isAllBlank field = true → StandFor field op p.2 []) ∧
    (∀ f ∈ (ofParameters ps).filters, f.check = .ok () ∨ f.check = .error .emptyField) ∧
    ∀ s spec, ofText s = .ok spec → ∀ f ∈ spec.filters, f.check = .ok () := by
  have hmem {f : Filter} : f ∈ (ofParameters ps).filters ↔ ∃ p ∈ ps, f ∈ ofEntry p.1 p.2 := List.mem_flatMap
  refine ⟨⟨fun h p hp field op hnames hblank => ?_, fun h f hf => ?_⟩, fun f hf => ?_,
    fun s spec hspec f hf => check_of_ofText hspec hf⟩
  · rw [standFor_iff hnames, List.eq_nil_iff_forall_not_mem]
    intro f hf
    obtain ⟨-, hcheck⟩ := check_of_standFor ((standFor_iff hnames).mpr rfl) hf
    rw [h f (hmem.mpr ⟨p, hp, hf⟩), if_pos hblank] at hcheck
    cases hcheck
  · obtain ⟨p, hp, hfp⟩ := hmem.mp hf
    obtain ⟨op, hnames, hcheck⟩ := exists_names_of_mem_ofEntry hfp
    rw [hcheck, if_neg]
    intro hblank
    rw [(standFor_iff hnames).mp (h p hp f.field op hnames hblank)] at hfp
    exact absurd hfp List.not_mem_nil
  · obtain ⟨p, hp, hfp⟩ := hmem.mp hf
    obtain ⟨op, -, hcheck⟩ := exists_names_of_mem_ofEntry hfp
    rw [hcheck]
    split
    · exact .inr rfl
    · exact .inl rfl

/-- A range of prices passes its check, and a range without an end at a field of blanks does no harm. -/
theorem range_of_prices_passes_check :
    let ps : Parameters := [("filter_ _between", ["1"]), ("filter_price_between", ["10, 20"])]
    (∀ p ∈ ps, ∀ field op, Names p.1 field op → Text.isAllBlank field = true → StandFor field op p.2 []) ∧
      (ofParameters ps).filters = [⟨"price", .between, .str "10", some (.str "20")⟩] ∧
      ∀ f ∈ (ofParameters ps).filters, f.check = .ok () := by
  intro ps
  have hblank : ∀ p ∈ ps, ∀ field op, Names p.1 field op → Text.isAllBlank field = true →
      StandFor field op p.2 [] := by
    refine List.forall_mem_cons.mpr ⟨fun field op hnames _ => ?_, List.forall_mem_singleton.mpr
      fun field op hnames hfield => ?_⟩
    · exact (standFor_iff hnames).mpr (by rfl)
    · have hparts := (keyParts?_eq_some_iff.mpr hnames).symm.trans
        (by decide +kernel : _ = some ("price", FilterOperator.between))
      obtain ⟨rfl, rfl⟩ := Prod.mk.inj (Option.some.inj hparts)
      exact absurd hfield (by decide)
  exact ⟨hblank, by rfl, (filters_pass_check_iff ps).1.mpr hblank⟩

/-- The key that names a blank as its field is not skipped, and its filter fails its check. -/
theorem filter_of_blank_field_fails_check :
    ¬∀ ps : Parameters, ∀ f ∈ (ofParameters ps).filters, f.check = .ok () := by
  intro h
  have hcheck := h [("filter_ _eq", ["x"])] ⟨" ", .eq, .str "x", none⟩ (by
    rw [show (ofParameters [("filter_ _eq", ["x"])]).filters = [⟨" ", .eq, .str "x", none⟩] by rfl]
    exact List.mem_singleton_self _)
  cases hcheck

end EntityGraph.FilterSpec
