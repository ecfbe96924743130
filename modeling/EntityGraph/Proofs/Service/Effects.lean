import EntityGraph.Proofs.Service.Integrity

namespace EntityGraph

open Registry

namespace Cut

variable {g : Registry} {c : Cut} {cs : List Cut} {m target : Model} {r : Relation}
  {key : RecordKey} {record id : Json} {name : String}

theorem get?_apply_of_not (hc : c.IsProper g target) (hm : m ∈ g.models)
    (h : ¬(c.holder = m ∧ c.relation.name = name ∧ c.spared key = false)) :
    (c.apply m.path key record).get? name = record.get? name := by
  simp only [apply, Tables.within]
  split
  · next hp =>
    have hholder := (eq_of_path hm hc.mem_models hp).symm
    split
    · rfl
    · next hs =>
      exact Json.get?_unlinked_of_ne record fun hn =>
        h ⟨hholder, hn, Bool.not_eq_true _ ▸ hs⟩
  · rfl

theorem get?_apply_self (hc : c.IsProper g target) (h : g.Fits c.holder key record)
    (hs : c.spared key = false) :
    (c.apply c.holder.path key record).get? c.relation.name =
      (record.get? c.relation.name).map (·.without c.id) := by
  simp only [apply, Tables.within, if_true, hs, Bool.false_eq_true, if_false]
  exact Json.get?_unlinked_self h.isObject (h.slots c.relation hc.mem_owning target hc.get?_target)

theorem apply_of_not_mem (hc : c.IsProper g target) (hm : m ∈ g.models) (h : g.Fits m key record)
    (hfree : c.holder = m → c.spared key = false → c.id ∉ (record.get c.relation.name).references) :
    c.apply m.path key record = record := by
  simp only [apply, Tables.within]
  split
  · next hp =>
    obtain rfl := eq_of_path hm hc.mem_models hp
    split
    · rfl
    · next hs =>
      have hslot := h.slots c.relation hc.mem_owning target hc.get?_target
      rw [Json.unlinked, Json.unlinked_of_not_mem hc.isIdentity hslot
        (hfree rfl (Bool.not_eq_true _ ▸ hs)), Option.getD_none]
  · rfl

theorem applyAll_of_not_mem (hcs : ∀ c ∈ cs, ∃ target, c.IsProper g target) (hm : m ∈ g.models)
    (h : g.Fits m key record) (hfree : ∀ c ∈ cs, c.holder = m → c.spared key = false →
      c.id ∉ (record.get c.relation.name).references) : applyAll cs m.path key record = record := by
  unfold applyAll
  induction cs with
  | nil => rfl
  | cons c rest ih =>
    obtain ⟨target, hc⟩ := hcs c List.mem_cons_self
    rw [List.foldl_cons, apply_of_not_mem hc hm h (hfree c List.mem_cons_self)]
    exact ih (fun d hd => hcs d (List.mem_cons_of_mem _ hd)) fun d hd =>
      hfree d (List.mem_cons_of_mem _ hd)

theorem get?_applyAll_of_not_mem (hg : g.Coherent) (hcs : ∀ c ∈ cs, ∃ target, c.IsProper g target)
    (hm : m ∈ g.models) (h : g.Fits m key record)
    (hfree : ∀ c ∈ cs, c.holder = m → c.relation.name = name → c.spared key = false →
      c.id ∉ (record.get name).references) :
    (applyAll cs m.path key record).get? name = record.get? name := by
  unfold applyAll
  induction cs generalizing record with
  | nil => rfl
  | cons c rest ih =>
    obtain ⟨target, hc⟩ := hcs c List.mem_cons_self
    have hsame : (c.apply m.path key record).get? name = record.get? name := by
      by_cases hn : c.relation.name = name
      · subst hn
        rw [apply_of_not_mem hc hm h fun hholder => hfree c List.mem_cons_self hholder rfl]
      · exact get?_apply_of_not hc hm fun hcut => hn hcut.2.1
    rw [List.foldl_cons, ih (fun d hd => hcs d (List.mem_cons_of_mem _ hd)) (fits_apply hg hc hm h),
      hsame]
    intro d hd hholder hn hs
    rw [Json.get, hsame, ← Json.get]
    exact hfree d (List.mem_cons_of_mem _ hd) hholder hn hs

theorem get?_applyAll_of_mem (hg : g.Coherent) (hcs : ∀ c ∈ cs, ∃ target, c.IsProper g target)
    (hm : m ∈ g.models) (h : g.Fits m key record)
    (hid : ∀ c ∈ cs, c.holder = m → c.relation.name = name → c.id = id)
    (hcut : ∃ c ∈ cs, c.holder = m ∧ c.relation.name = name ∧ c.spared key = false) :
    (applyAll cs m.path key record).get? name = (record.get? name).map (·.without id) := by
  have htwice (slot : Option Json) : (slot.map (·.without id)).map (·.without id) =
      slot.map (·.without id) := by
    rw [Option.map_map]
    exact Option.map_congr fun x _ => Json.without_without x id
  induction cs generalizing record with
  | nil => exact absurd hcut fun ⟨_, hc, _⟩ => List.not_mem_nil hc
  | cons c rest ih =>
    obtain ⟨target, hc⟩ := hcs c List.mem_cons_self
    have hrest := fun d hd => hcs d (List.mem_cons_of_mem c hd)
    have hfits := fits_apply hg hc hm h
    have hlater (hcut : ∃ d ∈ rest, d.holder = m ∧ d.relation.name = name ∧ d.spared key = false) :=
      ih hrest hfits (fun d hd => hid d (List.mem_cons_of_mem _ hd)) hcut
    change (applyAll rest m.path key (c.apply m.path key record)).get? name = _
    by_cases hhead : c.holder = m ∧ c.relation.name = name ∧ c.spared key = false
    · obtain ⟨rfl, rfl, hs⟩ := hhead
      obtain rfl := hid c List.mem_cons_self rfl rfl
      have hself := get?_apply_self hc h hs
      by_cases hcut : ∃ d ∈ rest, d.holder = c.holder ∧ d.relation.name = c.relation.name ∧
          d.spared key = false
      · rw [hlater hcut, hself, htwice]
      · rw [get?_applyAll_of_not_mem hg hrest hm hfits fun d hd hholder hn hs =>
          absurd ⟨d, hd, hholder, hn, hs⟩ hcut, hself]
    · obtain ⟨d, hd, hremoves⟩ := hcut
      rcases List.mem_cons.mp hd with rfl | hd
      · exact absurd hremoves hhead
      · rw [hlater ⟨d, hd, hremoves⟩, get?_apply_of_not hc hm hhead]

end Cut

namespace Assignment

variable {g : Registry} {l : Assignment} {ls : List Assignment} {ts ts' : Tables} {m target : Model}
  {key : RecordKey} {record : Json} {name : String}

theorem get?_apply_of_not (hl : l.release.IsProper g target) (hm : m ∈ g.models)
    (h : record.IsObject) (hne : ¬(l.holder = m ∧ l.relation.name = name)) :
    (l.apply m.path key record).get? name = record.get? name := by
  have hwrite : (l.write m.path key record).get? name = record.get? name := by
    simp only [write, Tables.within]
    split
    · next hp =>
      split
      · exact Json.get?_linked_of_ne h fun hn => hne ⟨(eq_of_path hm hl.mem_models hp).symm, hn⟩
      · rfl
    · rfl
  unfold apply claim
  split
  · rw [Cut.get?_apply_of_not hl hm fun hcut => hne ⟨hcut.1, hcut.2.1⟩, hwrite]
  · exact hwrite

/-- Assignments rewrite all records in their places, and change no members but the slots that they are
about. -/
theorem Chain.exists_row (hg : g.Coherent) (hts : g.AllFit ts) (h : Chain ls ts ts')
    (hls : ∀ l ∈ ls, ∃ target, l.release.IsProper g target) (hm : m ∈ g.models)
    (hrow : ts.row? m.path key = some record) :
    ∃ after, ts'.row? m.path key = some after ∧
      ∀ name, (∀ l ∈ ls, ¬(l.holder = m ∧ l.relation.name = name)) →
        after.get? name = record.get? name := by
  induction h generalizing record with
  | nil => exact ⟨record, hrow, fun _ _ => rfl⟩
  | @cons l rest ts next ts' h _ ih =>
    obtain ⟨target, hl⟩ := hls l List.mem_cons_self
    have hnext : next.row? m.path key = some (l.apply m.path key record) := by
      rw [h, hrow, Option.map_some]
    obtain ⟨after, hafter, hsame⟩ := ih
      (hts.rewrites h fun _ hn _ _ hfits => fits_apply hg hl hn hfits)
      (fun k hk => hls k (List.mem_cons_of_mem _ hk)) hnext
    refine ⟨after, hafter, fun name hn => ?_⟩
    rw [hsame name fun k hk => hn k (List.mem_cons_of_mem _ hk),
      get?_apply_of_not hl hm (hts m hm key record hrow).isObject (hn l List.mem_cons_self)]

end Assignment

end EntityGraph
