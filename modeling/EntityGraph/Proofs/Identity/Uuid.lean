import EntityGraph.Proofs.Text.Strip
import EntityGraph.Uuid

namespace EntityGraph

namespace Text

theorem toNat_toLower (c : Char) :
    c.toLower.toNat = if 65 ≤ c.toNat ∧ c.toNat ≤ 90 then c.toNat + 32 else c.toNat := by
  have hval : (c.val ≥ 'A'.val ∧ c.val ≤ 'Z'.val) ↔ (65 ≤ c.toNat ∧ c.toNat ≤ 90) := by
    simp only [ge_iff_le, UInt32.le_iff_toNat_le]
    exact Iff.rfl
  unfold Char.toLower
  split
  · next h =>
    have hn := hval.mp h
    rw [if_pos hn, Char.toNat_mk, UInt32.toNat_add]
    exact Nat.mod_eq_of_lt (by change c.toNat + 32 < 2 ^ 32; omega)
  · next h => rw [if_neg fun hn => h (hval.mpr hn)]

end Text

namespace Uuid

theorem isHex_iff {c : Char} : isHex c = true ↔
    (48 ≤ c.toNat ∧ c.toNat ≤ 57) ∨ (97 ≤ c.toNat ∧ c.toNat ≤ 102) ∨
      (65 ≤ c.toNat ∧ c.toNat ≤ 70) := by
  simp only [isHex, Bool.or_eq_true, Bool.and_eq_true, decide_eq_true_eq, Char.le_def,
    UInt32.le_iff_toNat_le, or_assoc]
  rfl

def IsLowerHex (c : Char) : Prop :=
  (48 ≤ c.toNat ∧ c.toNat ≤ 57) ∨ (97 ≤ c.toNat ∧ c.toNat ≤ 102)

theorem isLowerHex_toLower {c : Char} (h : isHex c = true) : IsLowerHex c.toLower := by
  rw [isHex_iff] at h
  unfold IsLowerHex
  rw [Text.toNat_toLower]
  split <;> omega

theorem IsLowerHex.isHex {c : Char} (h : IsLowerHex c) : Uuid.isHex c = true := by
  rw [isHex_iff]
  unfold IsLowerHex at h
  omega

theorem IsLowerHex.toLower {c : Char} (h : IsLowerHex c) : c.toLower = c := by
  unfold IsLowerHex at h
  apply Char.toNat_inj.mp
  rw [Text.toNat_toLower, if_neg (by omega)]

theorem IsLowerHex.ne_hyphen {c : Char} (h : IsLowerHex c) : c ≠ '-' := by
  rintro rfl
  unfold IsLowerHex at h
  exact absurd h (by decide)

theorem IsLowerHex.not_blank {c : Char} (h : IsLowerHex c) : Text.isBlank c = false := by
  unfold IsLowerHex at h
  simp only [Text.isBlank, Bool.or_eq_false_iff, Bool.and_eq_false_iff, decide_eq_false_iff_not,
    beq_eq_false_iff_ne]
  omega

theorem mem_hyphenate {ds : List Char} {c : Char} (h : c ∈ hyphenate ds) : c ∈ ds ∨ c = '-' := by
  simp only [hyphenate, List.append_assoc, List.cons_append, List.mem_append, List.mem_cons] at h
  rcases h with h | h | h | h | h | h | h | h | h
  · exact .inl (List.mem_of_mem_take h)
  · exact .inr h
  · exact .inl (List.mem_of_mem_drop (List.mem_of_mem_take h))
  · exact .inr h
  · exact .inl (List.mem_of_mem_drop (List.mem_of_mem_take h))
  · exact .inr h
  · exact .inl (List.mem_of_mem_drop (List.mem_of_mem_take h))
  · exact .inr h
  · exact .inl (List.mem_of_mem_drop h)

theorem length_hyphenate {ds : List Char} (h : ds.length = 32) : (hyphenate ds).length = 36 := by
  simp [hyphenate, h]

theorem filter_hyphenate {ds : List Char} (h : ∀ c ∈ ds, c ≠ '-') :
    (hyphenate ds).filter (· != '-') = ds := by
  have hall (cs : List Char) (hcs : cs ⊆ ds) : cs.filter (· != '-') = cs :=
    List.filter_eq_self.mpr fun c hc => by simpa using h c (hcs hc)
  have ht (n k : Nat) : (ds.drop n).take k ⊆ ds :=
    fun c hc => List.mem_of_mem_drop (List.mem_of_mem_take hc)
  simp only [hyphenate, List.append_assoc, List.cons_append, List.filter_append,
    List.filter_cons, bne_self_eq_false, Bool.false_eq_true, ↓reduceIte]
  rw [hall _ (fun c hc => List.mem_of_mem_take hc), hall _ (ht 8 4), hall _ (ht 12 4),
    hall _ (ht 16 4), hall _ (fun c hc => List.mem_of_mem_drop hc)]
  have hd (n : Nat) : (ds.drop n).take 4 ++ ds.drop (n + 4) = ds.drop n := by
    rw [← List.drop_drop, List.take_append_drop]
  rw [hd 16, hd 12, hd 8, List.take_append_drop]

theorem hyphenated?_hyphenate {ds : List Char} (hl : ds.length = 32) (h : ∀ c ∈ ds, IsLowerHex c) :
    hyphenated? (hyphenate ds) = some ds := by
  have hf := filter_hyphenate fun c hc => (h c hc).ne_hyphen
  have hx : ds.all isHex = true := List.all_eq_true.mpr fun c hc => (h c hc).isHex
  simp [hyphenated?, hf, hl, hx]

theorem digits?_eq_some {cs ds : List Char} (h : digits? cs = some ds) :
    ds.length = 32 ∧ ∀ c ∈ ds, isHex c = true := by
  have hh {cs ds : List Char} (h : hyphenated? cs = some ds) :
      ds.length = 32 ∧ ∀ c ∈ ds, isHex c = true := by
    simp only [hyphenated?, Option.ite_none_right_eq_some, Option.some.injEq] at h
    obtain ⟨⟨hl, hx, -⟩, rfl⟩ := h
    exact ⟨hl, List.all_eq_true.mp hx⟩
  unfold digits? at h
  split at h
  · next hl =>
    simp only [Option.ite_none_right_eq_some, Option.some.injEq] at h
    obtain ⟨hx, rfl⟩ := h
    exact ⟨hl, List.all_eq_true.mp hx⟩
  · split at h
    · exact hh (Option.ite_none_right_eq_some.mp h).2
    · split at h
      · exact hh (Option.ite_none_right_eq_some.mp h).2
      · exact hh h

theorem canonical?_eq_some {s t : String} (h : canonical? s = some t) :
    ∃ ds, ds.length = 32 ∧ (∀ c ∈ ds, IsLowerHex c) ∧ t = String.ofList (hyphenate ds) := by
  obtain ⟨ds, hds, rfl⟩ := Option.map_eq_some_iff.mp h
  obtain ⟨hl, hx⟩ := digits?_eq_some hds
  refine ⟨ds.map Char.toLower, by rw [List.length_map, hl], ?_, rfl⟩
  intro c hc
  obtain ⟨d, hd, rfl⟩ := List.mem_map.mp hc
  exact isLowerHex_toLower (hx d hd)

theorem canonical?_ofList_hyphenate {ds : List Char} (hl : ds.length = 32)
    (h : ∀ c ∈ ds, IsLowerHex c) :
    canonical? (String.ofList (hyphenate ds)) = some (String.ofList (hyphenate ds)) := by
  have hd : digits? (hyphenate ds) = some ds := by
    simp [digits?, length_hyphenate hl, hyphenated?_hyphenate hl h]
  have hm : ds.map Char.toLower = ds :=
    (List.map_congr_left fun c hc => (h c hc).toLower).trans (List.map_id ds)
  simp [canonical?, hd, hm]

theorem canonical?_idempotent {s t : String} (h : canonical? s = some t) :
    canonical? t = some t := by
  obtain ⟨ds, hl, hx, rfl⟩ := canonical?_eq_some h
  exact canonical?_ofList_hyphenate hl hx

theorem trim_of_canonical? {s t : String} (h : canonical? s = some t) :
    Text.trim t = t ∧ t.isEmpty = false := by
  obtain ⟨ds, hl, hx, rfl⟩ := canonical?_eq_some h
  constructor
  · rw [Text.trim, Text.strip, String.toList_ofList, Text.stripList_eq_self]
    intro c hc
    rcases mem_hyphenate hc with hc | rfl
    · exact (hx c hc).not_blank
    · decide
  · have hne : hyphenate ds ≠ [] := List.ne_nil_of_length_pos (by rw [length_hyphenate hl]; omega)
    rw [Bool.eq_false_iff]
    intro he
    exact hne (by simpa using he)

end Uuid

end EntityGraph
