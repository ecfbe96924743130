import EntityGraph.Pattern.Basic

namespace EntityGraph.Pattern

variable {text : List Char} {before : Option Char} {i k n : Nat}

theorem getElem?_placesFrom (h : i ≤ text.length) :
    (placesFrom before text)[i]? = some ⟨if i = 0 then before else text[i - 1]?, text[i]?⟩ := by
  induction text generalizing before i with
  | nil =>
    obtain rfl := Nat.le_zero.mp h
    rfl
  | cons c text ih =>
    cases i with
    | zero => rfl
    | succ i =>
      rw [placesFrom, List.getElem?_cons_succ, ih (Nat.le_of_succ_le_succ h)]
      cases i <;> simp

theorem length_placesFrom (before : Option Char) (text : List Char) :
    (placesFrom before text).length = text.length + 1 := by
  induction text generalizing before with
  | nil => rfl
  | cons c text ih => rw [placesFrom, List.length_cons, ih, List.length_cons]

theorem length_places (text : List Char) : (places text).length = text.length + 1 :=
  length_placesFrom none text

namespace Positions

/-- The positions of a text of so many characters at which a condition holds. -/
structure Marks (n : Nat) (P : Nat → Prop) (s : Positions) : Prop where
  length_eq : s.length = n + 1
  known : ∀ i ≤ n, ∃ b, s[i]? = some b ∧ (b = true ↔ P i)

variable {P Q : Nat → Prop} {s t : Positions}

theorem Marks.congr (h : Marks n P s) (hPQ : ∀ i ≤ n, P i ↔ Q i) : Marks n Q s := by
  refine ⟨h.length_eq, fun i hi => ?_⟩
  obtain ⟨b, hb, hP⟩ := h.known i hi
  exact ⟨b, hb, hP.trans (hPQ i hi)⟩

theorem Marks.contains_iff (h : Marks n P s) : s.contains true = true ↔ ∃ i ≤ n, P i := by
  rw [List.contains_iff_mem, List.mem_iff_getElem?]
  constructor
  · rintro ⟨i, hi⟩
    have hin : i < s.length := (List.getElem?_eq_some_iff.mp hi).1
    have hle : i ≤ n := by
      rw [h.length_eq] at hin
      omega
    obtain ⟨b, hb, hP⟩ := h.known i hle
    exact ⟨i, hle, hP.mp (Option.some.inj (hb.symm.trans hi))⟩
  · rintro ⟨i, hi, hPi⟩
    obtain ⟨b, hb, hP⟩ := h.known i hi
    exact ⟨i, hb.trans (congrArg some (hP.mpr hPi))⟩

theorem marks_all (text : List Char) : Marks text.length (fun _ => True) (all (places text)) := by
  refine ⟨by rw [all, List.length_map, length_places], fun i hi => ⟨true, ?_, by simp⟩⟩
  rw [all, List.getElem?_map, places, getElem?_placesFrom hi]
  rfl

theorem Marks.keep (h : Marks text.length P s) (holds : Option Char → Option Char → Bool) :
    Marks text.length
      (fun i => P i ∧ holds (if i = 0 then Option.none else text[i - 1]?) text[i]? = true)
      (s.keep (places text) holds) := by
  refine ⟨by rw [Positions.keep, List.length_zipWith, length_places, h.length_eq, Nat.min_self],
    fun i hi => ?_⟩
  obtain ⟨b, hb, hP⟩ := h.known i hi
  rw [Positions.keep, List.getElem?_zipWith, places, getElem?_placesFrom hi, hb]
  exact ⟨_, rfl, by rw [Bool.and_eq_true, hP]⟩

theorem Marks.advance (h : Marks text.length P s) (accepts : Char → Bool) :
    Marks text.length (fun i => ∃ j c, i = j + 1 ∧ P j ∧ text[j]? = some c ∧ accepts c = true)
      (s.advance (places text) accepts) := by
  have hlength : (List.zipWith (fun p b => b && p.after.any accepts) (places text) s).length =
      text.length + 1 := by
    rw [List.length_zipWith, length_places, h.length_eq, Nat.min_self]
  refine ⟨by rw [Positions.advance, List.length_cons, List.length_dropLast, hlength, Nat.add_sub_cancel],
    fun i hi => ?_⟩
  cases i with
  | zero => exact ⟨false, rfl, by simp⟩
  | succ j =>
    have hj : j ≤ text.length := Nat.le_of_succ_le hi
    obtain ⟨b, hb, hP⟩ := h.known j hj
    rw [Positions.advance, List.getElem?_cons_succ, List.getElem?_dropLast, if_pos (by omega),
      List.getElem?_zipWith, places, getElem?_placesFrom hj, hb]
    refine ⟨_, rfl, ?_⟩
    simp [hP, Option.any_eq_true]

theorem Marks.union (h : Marks n P s) (h' : Marks n Q t) : Marks n (fun i => P i ∨ Q i) (s.union t) := by
  refine ⟨by rw [Positions.union, List.length_zipWith, h.length_eq, h'.length_eq, Nat.min_self],
    fun i hi => ?_⟩
  obtain ⟨b, hb, hP⟩ := h.known i hi
  obtain ⟨b', hb', hQ⟩ := h'.known i hi
  rw [Positions.union, List.getElem?_zipWith, hb, hb']
  exact ⟨_, rfl, by rw [Bool.or_eq_true, hP, hQ]⟩

theorem Marks.iff_of_marks (h : Marks n P s) (h' : Marks n Q s) (hi : i ≤ n) : P i ↔ Q i := by
  obtain ⟨b, hb, hP⟩ := h.known i hi
  obtain ⟨b', hb', hQ⟩ := h'.known i hi
  obtain rfl := Option.some.inj (hb.symm.trans hb')
  exact hP.symm.trans hQ

theorem Marks.close (h : Marks text.length P s) (k : Nat) :
    Marks text.length (fun i => ∃ j ≤ i, i ≤ j + k ∧ P j)
      (s.close (Positions.advance (places text) fun _ => true) k) := by
  induction k generalizing P s with
  | zero =>
    refine h.congr fun i _ => ⟨fun hi => ⟨i, Nat.le_refl i, Nat.le_refl i, hi⟩, ?_⟩
    rintro ⟨j, hji, hij, hj⟩
    exact Nat.le_antisymm hij hji ▸ hj
  | succ k ih =>
    have hunion : Marks text.length (fun i => P i ∨ ∃ j, i = j + 1 ∧ P j)
        (s.union (s.advance (places text) fun _ => true)) := by
      refine (h.union (h.advance fun _ => true)).congr fun i hi => or_congr_right ⟨?_, ?_⟩
      · rintro ⟨j, -, hij, hj, -⟩
        exact ⟨j, hij, hj⟩
      · rintro ⟨j, rfl, hj⟩
        exact ⟨j, text[j], rfl, hj, List.getElem?_eq_getElem hi, rfl⟩
    rw [Positions.close]
    split
    · next hfix =>
      -- nothing is new, so the condition holds of all that follows a position where it holds
      rw [hfix] at hunion
      refine h.congr fun i hi => ⟨fun hPi => ⟨i, Nat.le_refl i, Nat.le_add_right i _, hPi⟩, ?_⟩
      rintro ⟨j, hji, -, hj⟩
      induction hji with
      | refl => exact hj
      | @step m _ ihm => exact (h.iff_of_marks hunion hi).mpr (.inr ⟨m, rfl, ihm (Nat.le_of_succ_le hi)⟩)
    · refine (ih hunion).congr fun i _ => ⟨?_, ?_⟩
      · rintro ⟨j, hji, hij, hj | ⟨j', rfl, hj⟩⟩
        · exact ⟨j, hji, by omega, hj⟩
        · exact ⟨j', by omega, by omega, hj⟩
      · rintro ⟨j, hji, hij, hj⟩
        by_cases hk : i ≤ j + k
        · exact ⟨j, hji, hk, .inl hj⟩
        · exact ⟨j + 1, by omega, by omega, .inr ⟨j, rfl, hj⟩⟩

end Positions

end EntityGraph.Pattern
