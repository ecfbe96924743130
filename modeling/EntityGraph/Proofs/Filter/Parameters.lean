import EntityGraph.Filter.Parameters
import EntityGraph.Proofs.Store.Rows
import EntityGraph.Proofs.Text.Split

namespace EntityGraph

namespace Parameters

variable {pairs : List (String × String)} {key : String} {values : List String}

def valuesOf (pairs : List (String × String)) (key : String) : List String :=
  (pairs.filter fun p => p.1 = key).map Prod.snd

theorem get?_foldl (pairs : List (String × String)) (ps : Parameters) (key : String) :
    (OrderedMap.get? (pairs.foldl (fun ps p => OrderedMap.modify ps p.1 [] (· ++ [p.2])) ps) key).getD [] =
      (OrderedMap.get? ps key).getD [] ++ valuesOf pairs key := by
  induction pairs generalizing ps with
  | nil => simp [valuesOf]
  | cons p rest ih =>
    rw [List.foldl_cons, ih]
    by_cases hp : p.1 = key
    · simp [OrderedMap.modify, valuesOf, hp]
    · simp [OrderedMap.modify, valuesOf, hp, OrderedMap.get?_insert_of_ne _ hp]

theorem foldl_ne_nil (pairs : List (String × String)) {ps : Parameters}
    (h : ∀ key, OrderedMap.get? ps key ≠ some []) (key : String) :
    OrderedMap.get? (pairs.foldl (fun ps p => OrderedMap.modify ps p.1 [] (· ++ [p.2])) ps) key ≠ some [] := by
  induction pairs generalizing ps with
  | nil => exact h key
  | cons p rest ih =>
    refine ih fun k => ?_
    by_cases hk : p.1 = k
    · simp [OrderedMap.modify, hk]
    · simp only [OrderedMap.modify, OrderedMap.get?_insert_of_ne _ hk]
      exact h k

theorem get?_ofPairs (pairs : List (String × String)) (key : String) :
    OrderedMap.get? (ofPairs pairs) key =
      if valuesOf pairs key = [] then none else some (valuesOf pairs key) := by
  have hget : (OrderedMap.get? (ofPairs pairs) key).getD [] = valuesOf pairs key := get?_foldl pairs [] key
  have hne : OrderedMap.get? (ofPairs pairs) key ≠ some [] :=
    foldl_ne_nil pairs (by simp [OrderedMap.get?]) key
  cases h : OrderedMap.get? (ofPairs pairs) key with
  | none => simp [← hget, h]
  | some values =>
    rw [h, Option.getD_some] at hget
    rw [h] at hne
    subst hget
    rw [if_neg fun he => hne (congrArg some he)]

theorem ascending_ofPairs (pairs : List (String × String)) : OrderedMap.Ascending (ofPairs pairs) := by
  have hfold (ps : Parameters) (h : OrderedMap.Ascending ps) : OrderedMap.Ascending
      (pairs.foldl (fun ps p => OrderedMap.modify ps p.1 [] (· ++ [p.2])) ps) := by
    induction pairs generalizing ps with
    | nil => exact h
    | cons p rest ih => exact ih _ (h.insert p.1 _)
  exact hfold [] .nil

theorem mem_ofPairs_iff : (key, values) ∈ ofPairs pairs ↔ values = valuesOf pairs key ∧ values ≠ [] := by
  rw [← OrderedMap.get?_eq_some_iff (ascending_ofPairs pairs), get?_ofPairs]
  split
  · next h => simp [h]
  · next h =>
    rw [Option.some.injEq, eq_comm]
    exact ⟨fun he => ⟨he, he ▸ h⟩, And.left⟩

theorem ofPairs_of_key (h : ∀ p ∈ pairs, p.1 = key) : ofPairs pairs =
    if valuesOf pairs key = [] then [] else [(key, valuesOf pairs key)] := by
  have hother {k : String} (hk : k ≠ key) : valuesOf pairs k = [] := by
    rw [valuesOf, List.map_eq_nil_iff, List.filter_eq_nil_iff]
    intro p hp he
    exact hk ((of_decide_eq_true he).symm.trans (h p hp))
  refine OrderedMap.ext (ascending_ofPairs pairs) ?_ fun k => ?_
  · split
    · exact .nil
    · exact List.pairwise_singleton _ _
  · rw [get?_ofPairs]
    by_cases hk : k = key
    · subst hk
      split <;> simp [OrderedMap.get?, *]
    · rw [if_pos (hother hk)]
      split <;> simp [OrderedMap.get?, Ne.symm hk]

end Parameters

namespace FilterSpec

variable {pairs : List (String × String)} {key field code : String} {op : FilterOperator}
  {values : List String} {filters : List Filter}

/-- A key names a field that is not empty, and an operator by one of its names. -/
def Names (key field : String) (op : FilterOperator) : Prop :=
  field ≠ "" ∧ ∃ code, '_' ∉ code.toList ∧ FilterOperator.ofName? code = some op ∧
    key = keyStart ++ field ++ "_" ++ code

/-- What values stand for, given the field and the operator that their key names. -/
inductive StandFor (field : String) : FilterOperator → List String → List Filter → Prop
  | each {op : FilterOperator} (hbetween : op ≠ .between) (hamong : op ≠ .among) (values : List String) :
      StandFor field op values (values.map fun v => ⟨field, op, .str (Text.trim v), none⟩)
  | members {values : List String} (h : 1 < values.length) :
      StandFor field .among values [⟨field, .among, .arr (values.map fun v => .str (Text.trim v)), none⟩]
  | parts {parts : List String} (hne : parts ≠ []) (h : ∀ p ∈ parts, ',' ∉ p.toList) :
      StandFor field .among [",".intercalate parts]
        [⟨field, .among, .arr (parts.map fun v => .str (Text.trim v)), none⟩]
  | noMember : StandFor field .among [] []
  | bounds (low high : String) (rest : List String) :
      StandFor field .between (low :: high :: rest)
        [⟨field, .between, .str (Text.trim low), some (.str (Text.trim high))⟩]
  | halves {low high : String} (hlow : ',' ∉ low.toList) (hhigh : ',' ∉ high.toList) :
      StandFor field .between [low ++ "," ++ high]
        [⟨field, .between, .str (Text.trim low), some (.str (Text.trim high))⟩]
  | noHalves {single : String} (h : single.toList.count ',' ≠ 1) : StandFor field .between [single] []
  | noBound : StandFor field .between [] []

section Keys

theorem ofName?_code (op : FilterOperator) :
    '_' ∉ op.code.toList ∧ FilterOperator.ofName? op.code = some op := by
  cases op <;> decide +kernel

theorem names_code (hfield : field ≠ "") (op : FilterOperator) :
    Names (keyStart ++ field ++ "_" ++ op.code) field op :=
  ⟨hfield, op.code, (ofName?_code op).1, (ofName?_code op).2, rfl⟩

theorem logicKey_eq : logicKey = keyStart ++ "logic" := by
  decide

theorem keyParts?_eq_of_cut : keyParts? key = some (field, op) ↔
    (key ≠ logicKey ∧ keyStart.toList <+: key.toList) ∧ ∃ front rest,
      Text.cutLast '_' (key.toList.drop keyStart.length) = some (front, rest) ∧ front ≠ [] ∧
        String.ofList front = field ∧ FilterOperator.ofName? (String.ofList rest) = some op := by
  simp only [keyParts?, bind, Option.bind_none, Option.ite_none_left_eq_some, Option.bind_eq_some_iff,
    Prod.exists, pure, Option.some.injEq, Prod.mk.injEq, not_or, not_not, List.isEmpty_iff,
    ← List.isPrefixOf_iff_prefix, exists_eq_right_right, and_comm (b := String.ofList _ = field), ne_eq]

theorem keyParts?_eq_some_iff : keyParts? key = some (field, op) ↔ Names key field op := by
  rw [keyParts?_eq_of_cut]
  simp only [Text.cutLast_eq_some_iff]
  constructor
  · rintro ⟨⟨-, suffix, hkey⟩, front, rest, ⟨hdrop, hrest⟩, hfront, rfl, hop⟩
    refine ⟨fun h => hfront (by simpa using h), String.ofList rest, by rwa [String.toList_ofList], hop, ?_⟩
    rw [← hkey, List.drop_left' String.length_toList] at hdrop
    rw [← String.toList_inj, ← hkey, hdrop]
    simp
  · rintro ⟨hfield, code, hcode, hop, rfl⟩
    have hlist : (keyStart ++ field ++ "_" ++ code).toList =
        keyStart.toList ++ (field.toList ++ '_' :: code.toList) := by
      simp
    refine ⟨⟨fun h => ?_, hlist ▸ List.prefix_append _ _⟩, field.toList, code.toList, ⟨?_, hcode⟩, ?_,
      String.ofList_toList, ?_⟩
    · -- nothing divides the word `logic` into a field and an operator
      rw [h, logicKey_eq, String.toList_append] at hlist
      have hlogic := List.append_cancel_left hlist
      have hmem : '_' ∈ "logic".toList := by
        rw [hlogic]
        simp
      exact absurd hmem (by decide)
    · rw [hlist, List.drop_left' String.length_toList]
    · simpa using hfield
    · exact (congrArg FilterOperator.ofName? String.ofList_toList).trans hop

theorem starts_of_names (h : Names key field op) : key ≠ logicKey ∧ keyStart.toList <+: key.toList :=
  (keyParts?_eq_of_cut.mp (keyParts?_eq_some_iff.mpr h)).1

end Keys

section Values

theorem bounds?_of_split {single low high : String} (h : Text.split ',' single = [low, high]) :
    bounds? [single] = some (trimmed low, trimmed high) := by
  simp only [bounds?, h]

theorem bounds?_of_count {single : String} (h : single.toList.count ',' ≠ 1) : bounds? [single] = none := by
  rw [bounds?]
  split
  · next low high hsplit => exact absurd (Text.count_eq_one_iff.mpr ⟨low, high, hsplit⟩) h
  · rfl

theorem standFor_between_iff : StandFor field .between values filters ↔
    ((bounds? values).map fun (low, high) => (⟨field, .between, low, some high⟩ : Filter)).toList =
      filters := by
  constructor
  · intro h
    cases h with
    | each h => exact absurd rfl h
    | bounds | noBound => rfl
    | @halves low high hlow hhigh =>
      have hsplit : Text.split ',' (low ++ "," ++ high) = [low, high] :=
        Text.split_eq_iff.mpr ⟨List.cons_ne_nil _ _, by simp [hlow, hhigh],
          (Text.singleton_intercalate_pair (c := ',') low high).symm⟩
      rw [bounds?_of_split hsplit]
      rfl
    | noHalves h =>
      rw [bounds?_of_count h]
      rfl
  · rintro rfl
    match values with
    | [] => exact .noBound
    | low :: high :: rest => exact .bounds low high rest
    | [single] =>
      by_cases h : single.toList.count ',' = 1
      · obtain ⟨low, high, hsplit⟩ := Text.count_eq_one_iff.mp h
        obtain ⟨-, hparts, hsingle⟩ := Text.split_eq_iff.mp hsplit
        rw [bounds?_of_split hsplit, hsingle, Text.singleton_intercalate_pair]
        exact .halves (hparts low (by simp)) (hparts high (by simp))
      · rw [bounds?_of_count h]
        exact .noHalves h

theorem standFor_among_iff : StandFor field .among values filters ↔
    (if values.isEmpty then [] else [(⟨field, .among, .arr (listed values), none⟩ : Filter)]) = filters := by
  constructor
  · intro h
    cases h with
    | each _ h => exact absurd rfl h
    | noMember => rfl
    | members h =>
      match values, h with
      | _ :: _ :: _, _ => rfl
    | @parts parts hne h =>
      have hsplit : Text.split ',' (",".intercalate parts) = parts := Text.split_eq_iff.mpr ⟨hne, h, rfl⟩
      rw [listed, hsplit]
      rfl
  · rintro rfl
    match values with
    | [] => exact .noMember
    | low :: high :: rest => exact .members (by simp)
    | [single] =>
      obtain ⟨hne, hparts, hsingle⟩ := Text.split_eq_iff.mp (rfl : Text.split ',' single = _)
      have hparts : StandFor field .among _ _ := .parts hne hparts
      rwa [← show single = ",".intercalate _ from hsingle] at hparts

/-- The values of a key stand for just the filters that are made of them. -/
theorem standFor_iff (h : Names key field op) :
    StandFor field op values filters ↔ ofEntry key values = filters := by
  rw [ofEntry, keyParts?_eq_some_iff.mpr h]
  cases op with
  | between => exact standFor_between_iff
  | among => exact standFor_among_iff
  | _ =>
    constructor
    · rintro ⟨⟩
      rfl
    · rintro rfl
      exact .each (by decide) (by decide) values

theorem ofEntry_of_not_names (h : ∀ field op, ¬Names key field op) (values : List String) :
    ofEntry key values = [] := by
  have hnone : keyParts? key = none :=
    Option.eq_none_iff_forall_ne_some.mpr fun p hp => h p.1 p.2 (keyParts?_eq_some_iff.mp hp)
  rw [ofEntry, hnone]

theorem ofEntry_nil (key : String) : ofEntry key [] = [] := by
  rw [ofEntry]
  split
  · rfl
  · split <;> rfl

end Values

def ofPairs (pairs : List (String × String)) : FilterSpec :=
  ofParameters (.ofPairs pairs)

section Grouping

open Parameters (valuesOf)

theorem flatMap_filter {α β : Type} {f : α → List β} {p : α → Bool} {xs : List α}
    (h : ∀ x ∈ xs, p x = false → f x = []) : (xs.filter p).flatMap f = xs.flatMap f := by
  induction xs with
  | nil => rfl
  | cons x rest ih =>
    have hrest := ih fun y hy => h y (List.mem_cons_of_mem x hy)
    cases hx : p x with
    | true => rw [List.filter_cons_of_pos hx, List.flatMap_cons, List.flatMap_cons, hrest]
    | false =>
      rw [List.filter_cons_of_neg (by simp [hx]), List.flatMap_cons, h x List.mem_cons_self hx,
        List.nil_append, hrest]

theorem filters_of_key (h : ∀ p ∈ pairs, p.1 = key) :
    (ofPairs pairs).filters = ofEntry key (valuesOf pairs key) := by
  rw [ofPairs, ofParameters, Parameters.ofPairs_of_key h]
  split
  · next hnil => rw [hnil, ofEntry_nil, List.flatMap_nil]
  · rw [List.flatMap_cons, List.flatMap_nil, List.append_nil]

theorem filters_alone (pairs : List (String × String)) (key : String) :
    (ofPairs (pairs.filter fun p => p.1 = key)).filters = ofEntry key (valuesOf pairs key) := by
  have hkey : ∀ p ∈ pairs.filter fun p => p.1 = key, p.1 = key := fun p hp =>
    of_decide_eq_true (List.mem_filter.mp hp).2
  rw [filters_of_key hkey, valuesOf, List.filter_filter]
  simp only [Bool.and_self, valuesOf]

def isNamed (p : String × List String) : Bool :=
  (keyParts? p.1).isSome

theorem ofEntry_of_not_isNamed {p : String × List String} (h : isNamed p = false) : ofEntry p.1 p.2 = [] := by
  refine ofEntry_of_not_names (fun field op hp => ?_) p.2
  rw [isNamed, keyParts?_eq_some_iff.mpr hp] at h
  cases h

/-- Only the values of keys that name something matter. -/
theorem filters_congr {others : List (String × String)}
    (h : ∀ key field op, Names key field op → valuesOf others key = valuesOf pairs key) :
    (ofPairs others).filters = (ofPairs pairs).filters := by
  have hnamed (ps : List (String × String)) : (ofPairs ps).filters =
      ((Parameters.ofPairs ps).filter isNamed).flatMap fun p => ofEntry p.1 p.2 :=
    (flatMap_filter fun p _ hp => ofEntry_of_not_isNamed hp).symm
  have hsame : (Parameters.ofPairs others).filter isNamed = (Parameters.ofPairs pairs).filter isNamed := by
    have hascending (ps : List (String × String)) :
        OrderedMap.Ascending ((Parameters.ofPairs ps).filter isNamed) :=
      (Parameters.ascending_ofPairs ps).filter _
    refine OrderedMap.ext (hascending others) (hascending pairs) fun key => Option.ext fun values => ?_
    rw [OrderedMap.get?_eq_some_iff (hascending others), OrderedMap.get?_eq_some_iff (hascending pairs),
      List.mem_filter, List.mem_filter, Parameters.mem_ofPairs_iff, Parameters.mem_ofPairs_iff]
    refine and_congr_left fun hkey => ?_
    obtain ⟨⟨field, op⟩, hparts⟩ := Option.isSome_iff_exists.mp hkey
    rw [h key field op (keyParts?_eq_some_iff.mp hparts)]
  rw [hnamed, hnamed, hsame]

theorem exists_filterKeys (pairs : List (String × String)) : ∃ keys : List String,
    keys.Pairwise (· < ·) ∧
      (∀ key, key ∈ keys ↔ (∃ value, (key, value) ∈ pairs) ∧ key ≠ logicKey ∧
        keyStart.toList <+: key.toList) ∧
      (ofPairs pairs).filters = keys.flatMap fun key => ofEntry key (valuesOf pairs key) := by
  let ps := Parameters.ofPairs pairs
  let starts (p : String × List String) : Bool :=
    p.1 ≠ logicKey ∧ keyStart.toList <+: p.1.toList
  have hvalues (key : String) : (∃ value, (key, value) ∈ pairs) ↔ valuesOf pairs key ≠ [] := by
    simp [valuesOf, List.filter_eq_nil_iff]
  refine ⟨(ps.filter starts).map Prod.fst, ?_, fun key => ?_, ?_⟩
  · exact List.pairwise_map.mpr ((Parameters.ascending_ofPairs pairs).filter _)
  · simp only [List.mem_map, List.mem_filter, Prod.exists, exists_and_right, exists_eq_right, ps, starts,
      Parameters.mem_ofPairs_iff, decide_eq_true_eq, hvalues]
    exact and_congr_left fun _ => ⟨fun ⟨_, h, hne⟩ => h ▸ hne, fun h => ⟨_, rfl, h⟩⟩
  · have hfilter : (ps.filter starts).flatMap (fun p => ofEntry p.1 p.2) =
        ps.flatMap fun p => ofEntry p.1 p.2 := by
      refine flatMap_filter fun p _ hp => ofEntry_of_not_names (fun field op h => ?_) p.2
      exact absurd (starts_of_names h) (of_decide_eq_false hp)
    rw [ofPairs, ofParameters, ← hfilter, List.flatMap_map]
    refine List.flatMap_congr fun p hp => ?_
    rw [(Parameters.mem_ofPairs_iff.mp (List.mem_filter.mp hp).1).1]

end Grouping

open Parameters (valuesOf)

/-- The filters of all keys are those of each key alone, one key after the other in their order, whatever
else is given and in whatever order. A key that is made of a field and the code of an operator stands for
what its values stand for, and for nothing else. -/
theorem parameters_are_read_key_by_key (pairs : List (String × String)) :
    (∃ keys : List String, keys.Pairwise (· < ·) ∧
      (∀ key, key ∈ keys ↔ (∃ value, (key, value) ∈ pairs) ∧ key ≠ "filter_logic" ∧
        "filter_".toList <+: key.toList) ∧
      (ofPairs pairs).filters =
        keys.flatMap fun key => (ofPairs (pairs.filter fun p => p.1 = key)).filters) ∧
    (∀ others, (∀ key field op, Names key field op → valuesOf others key = valuesOf pairs key) →
      (ofPairs others).filters = (ofPairs pairs).filters) ∧
    ∀ field op, field ≠ "" → ∀ values filters,
      (ofPairs (values.map fun v => ("filter_" ++ field ++ "_" ++ op.code, v))).filters = filters ↔
        StandFor field op values filters := by
  refine ⟨?_, fun others h => filters_congr h, fun field op hfield values filters => ?_⟩
  · obtain ⟨keys, hkeys, hmem, hfilters⟩ := exists_filterKeys pairs
    refine ⟨keys, hkeys, hmem, hfilters.trans ?_⟩
    exact List.flatMap_congr fun key _ => (filters_alone pairs key).symm
  · have hvalues : valuesOf (values.map fun v => ("filter_" ++ field ++ "_" ++ op.code, v))
        ("filter_" ++ field ++ "_" ++ op.code) = values := by
      simp [valuesOf, List.filter_map, Function.comp_def]
    have hkey : ∀ p ∈ values.map fun v => ("filter_" ++ field ++ "_" ++ op.code, v),
        p.1 = "filter_" ++ field ++ "_" ++ op.code := by
      intro p hp
      obtain ⟨v, -, rfl⟩ := List.mem_map.mp hp
      rfl
    rw [standFor_iff (names_code hfield op), filters_of_key hkey, hvalues]
    rfl

/-- A day of entry from which on to look is read alone as it is among parameters that stand for no filter. -/
theorem day_of_entry_is_read_alone :
    let pairs := [("page", "0"), ("filter_entry_day_gte", " 2024-01-01 "), ("filter_bad", "x")]
    let others := [("filter_entry_day_gte", " 2024-01-01 "), ("filter_logic", "or")]
    let filter : Filter := ⟨"entry_day", .gte, .str "2024-01-01", none⟩
    (∀ key field op, Names key field op → valuesOf others key = valuesOf pairs key) ∧
      (ofPairs others).filters = [filter] ∧ (ofPairs pairs).filters = [filter] ∧
      "entry_day" ≠ "" ∧
      (ofPairs ([" 2024-01-01 "].map fun v => ("filter_" ++ "entry_day" ++ "_" ++ "gte", v))).filters =
        [filter] := by
  intro pairs others filter
  obtain ⟨-, hsame, hkey⟩ := parameters_are_read_key_by_key pairs
  have hvalues : ∀ key field op, Names key field op → valuesOf others key = valuesOf pairs key := by
    intro key field op hnames
    by_cases hday : key = "filter_entry_day_gte"
    · subst hday
      rfl
    have hpage : key ≠ "page" := by
      rintro rfl
      exact absurd (starts_of_names hnames).2 (by decide)
    have hbad : key ≠ "filter_bad" := by
      rintro rfl
      exact nomatch (keyParts?_eq_some_iff.mpr hnames).symm.trans (by decide +kernel : _ = none)
    have hlogic : key ≠ "filter_logic" := (starts_of_names hnames).1
    simp [pairs, others, valuesOf, Ne.symm hday, Ne.symm hpage, Ne.symm hbad, Ne.symm hlogic]
  have hothers : (ofPairs others).filters = [filter] := by rfl
  have htrim : Text.trim " 2024-01-01 " = "2024-01-01" := by decide +kernel
  refine ⟨hvalues, hothers, (hsame others hvalues).symm.trans hothers, by decide,
    (hkey "entry_day" .gte (by decide) _ _).mpr ?_⟩
  have hstand : StandFor "entry_day" .gte _ _ := .each (by decide) (by decide) [" 2024-01-01 "]
  rwa [List.map_singleton, htrim] at hstand

end FilterSpec

end EntityGraph
