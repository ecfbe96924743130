import EntityGraph.Text
import Mathlib.Data.List.Basic

namespace EntityGraph.Text

variable {c : Char} {cs front rest part : List Char}

theorem cutFirst_eq_some_iff : cutFirst c cs = some (front, rest) ↔ cs = front ++ c :: rest ∧ c ∉ front := by
  induction cs generalizing front rest with
  | nil => simp [cutFirst]
  | cons x xs ih =>
    by_cases hx : x = c
    · subst hx
      cases front with
      | nil => simp [cutFirst]
      | cons y ys =>
        simp only [cutFirst, if_true, Option.some.injEq, Prod.mk.injEq, reduceCtorEq, false_and,
          List.cons_append, List.cons.injEq, List.mem_cons, not_or, false_iff, not_and]
        rintro ⟨rfl, -⟩ h
        exact absurd rfl h
    · simp only [cutFirst, if_neg hx, Option.map_eq_some_iff, Prod.exists, ih, Prod.mk.injEq]
      cases front with
      | nil => simp [hx]
      | cons y ys =>
        simp only [List.cons_append, List.cons.injEq, List.mem_cons, not_or]
        constructor
        · rintro ⟨a, b, ⟨rfl, ha⟩, ⟨rfl, rfl⟩, rfl⟩
          exact ⟨⟨rfl, rfl⟩, Ne.symm hx, ha⟩
        · rintro ⟨⟨rfl, rfl⟩, -, ha⟩
          exact ⟨ys, rest, ⟨rfl, ha⟩, ⟨rfl, rfl⟩, rfl⟩

theorem cutLast_eq_some_iff : cutLast c cs = some (front, rest) ↔ cs = front ++ c :: rest ∧ c ∉ rest := by
  simp only [cutLast, Option.map_eq_some_iff, Prod.exists, cutFirst_eq_some_iff, Prod.mk.injEq]
  constructor
  · rintro ⟨a, b, ⟨hcs, ha⟩, rfl, rfl⟩
    refine ⟨?_, fun h => ha (List.mem_reverse.mp h)⟩
    rw [← List.reverse_reverse cs, hcs]
    simp
  · rintro ⟨rfl, h⟩
    exact ⟨rest.reverse, front.reverse, ⟨by simp, fun hm => h (List.mem_reverse.mp hm)⟩, by simp, by simp⟩

theorem cutFirst_eq_none_iff : cutFirst c cs = none ↔ c ∉ cs := by
  induction cs with
  | nil => simp [cutFirst]
  | cons x xs ih =>
    by_cases hx : x = c
    · simp [cutFirst, hx]
    · simp [cutFirst, hx, ih, Ne.symm hx]

theorem cutLast_eq_none_iff : cutLast c cs = none ↔ c ∉ cs := by
  rw [cutLast, Option.map_eq_none_iff, cutFirst_eq_none_iff, List.mem_reverse]

theorem not_mem_of_mem_splitOn (h : part ∈ cs.splitOn c) : c ∉ part := by
  induction cs generalizing part with
  | nil =>
    rw [List.splitOn_nil, List.mem_singleton] at h
    exact h ▸ List.not_mem_nil
  | cons x xs ih =>
    rw [List.splitOn_cons_eq_if_modifyHead] at h
    split at h
    · rcases List.mem_cons.mp h with rfl | h
      · exact List.not_mem_nil
      · exact ih h
    · next hx =>
      cases hs : xs.splitOn c with
      | nil => exact absurd hs (List.splitOn_ne_nil c xs)
      | cons y ys =>
        rw [hs, List.modifyHead_cons] at h
        rcases List.mem_cons.mp h with rfl | h
        · have hne : x ≠ c := by simpa using hx
          exact List.not_mem_cons_of_ne_of_not_mem hne.symm (ih (hs ▸ List.mem_cons_self))
        · exact ih (hs ▸ List.mem_cons_of_mem y h)

/-- A text falls into just those parts without the character of which it is made by putting the character
between them. -/
theorem split_eq_iff {s : String} {parts : List String} : split c s = parts ↔
    parts ≠ [] ∧ (∀ p ∈ parts, c ∉ p.toList) ∧ s = (String.singleton c).intercalate parts := by
  constructor
  · rintro rfl
    refine ⟨fun h => List.splitOn_ne_nil c s.toList (List.map_eq_nil_iff.mp h), fun p hp => ?_, ?_⟩
    · obtain ⟨cs, hcs, rfl⟩ := List.mem_map.mp hp
      rw [String.toList_ofList]
      exact not_mem_of_mem_splitOn hcs
    · rw [← String.toList_inj, String.toList_intercalate, split, List.map_map]
      simp [Function.comp_def, List.intercalate_splitOn]
  · rintro ⟨hne, hparts, rfl⟩
    have hlists : ∀ cs ∈ parts.map String.toList, c ∉ cs := fun cs hcs => by
      obtain ⟨p, hp, rfl⟩ := List.mem_map.mp hcs
      exact hparts p hp
    rw [split, String.toList_intercalate, String.toList_singleton,
      List.splitOn_intercalate c hlists (fun h => hne (List.map_eq_nil_iff.mp h)), List.map_map]
    simp [Function.comp_def]

theorem singleton_intercalate_pair (a b : String) :
    (String.singleton c).intercalate [a, b] = a ++ String.singleton c ++ b := by
  rw [← String.toList_inj, String.toList_intercalate]
  simp

theorem count_eq_one_iff {s : String} : s.toList.count c = 1 ↔ ∃ low high, split c s = [low, high] := by
  constructor
  · intro h
    obtain ⟨low, high, hs, hlow⟩ := List.eq_append_cons_of_mem
      (List.count_pos_iff.mp (Nat.lt_of_lt_of_eq Nat.one_pos h.symm))
    have hhigh : c ∉ high := by
      rw [hs, List.count_append, List.count_eq_zero_of_not_mem hlow, List.count_cons_self] at h
      exact List.count_eq_zero.mp (by omega)
    refine ⟨String.ofList low, String.ofList high, ?_⟩
    rw [split, hs, List.splitOn_append_cons_self_of_not_mem hlow, List.splitOn_eq_singleton hhigh]
    rfl
  · rintro ⟨low, high, h⟩
    obtain ⟨-, hparts, rfl⟩ := split_eq_iff.mp h
    have hlow := List.count_eq_zero_of_not_mem (hparts low (by simp))
    have hhigh := List.count_eq_zero_of_not_mem (hparts high (by simp))
    simp [hlow, hhigh]

end EntityGraph.Text
