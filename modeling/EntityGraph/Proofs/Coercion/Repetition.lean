import EntityGraph.Proofs.Query.Bindable

namespace EntityGraph

namespace Calendar

variable {t : DateTime}

theorem writeDateTime_truncated (t : DateTime) : writeDateTime (truncated t) =
    writeDate t.date ++ 'T' :: (padded 2 (t.second / 3600) ++ ':' ::
      (padded 2 (t.second / 60 % 60) ++ ':' ::
        (padded 2 (t.second % 60 + t.nano / 1000000000) ++
          if t.nano < 1000000 then [] else '.' :: padded 3 (t.nano % 1000000000 / 1000000)))) := by
  have hseconds : t.nano / 1000000 * 1000000 / (1000 * 1000000) = t.nano / (1000 * 1000000) := by
    rw [Nat.mul_div_mul_right _ _ (by decide), Nat.div_div_eq_div_mul, Nat.mul_comm 1000000]
  have hmillis (n : Nat) : n % (1000000 * 1000) / 1000000 = n / 1000000 % 1000 :=
    Nat.mod_mul_right_div_self n 1000000 1000
  have hfraction : t.nano / 1000000 * 1000000 % (1000000 * 1000) / 1000000 =
      t.nano % (1000000 * 1000) / 1000000 := by
    rw [hmillis, hmillis, Nat.mul_div_cancel _ (by decide)]
  have hnone : t.nano / 1000000 * 1000000 = 0 ↔ t.nano < 1000000 := by
    rw [Nat.mul_eq_zero, Nat.div_eq_zero_iff]
    simp
  rw [writeDateTime_eq]
  simp only [truncated, hnone]
  rw [show t.nano / 1000000 * 1000000 / 1000000000 = t.nano / 1000000000 from hseconds,
    show t.nano / 1000000 * 1000000 % 1000000000 / 1000000 = t.nano % 1000000000 / 1000000 from hfraction]

/-- A moment is written as it is read again, unless it has a fraction that is less than a
millisecond. -/
theorem writeDateTime_truncated_eq_iff :
    writeDateTime (truncated t) = writeDateTime t ↔ ¬(0 < t.nano ∧ t.nano < 1000000) := by
  rw [writeDateTime_truncated, writeDateTime_eq]
  by_cases hsmall : t.nano < 1000000
  · by_cases hzero : t.nano = 0
    · simp [hzero]
    · simp [hsmall, hzero, Nat.pos_of_ne_zero hzero]
  · have hzero : t.nano ≠ 0 := by omega
    simp [hsmall, hzero]

end Calendar

namespace FieldType

open Calendar

variable {t : FieldType} {v w : Json}

/-- The text of a moment with a fraction of a second that is less than a millisecond. It ends in
zeros. -/
def EndsInZeros (t : FieldType) (w : Json) : Prop :=
  t = .datetime ∧ ∃ u, IsProper u ∧ 0 < u.nano ∧ u.nano < 1000000 ∧
    w = .str (String.ofList (writeDateTime u))

theorem coerce?_moment_eq_self_iff {u : DateTime} (h : IsProper u) :
    coerce? .datetime (.str (String.ofList (writeDateTime u))) =
        some (.str (String.ofList (writeDateTime u))) ↔ ¬(0 < u.nano ∧ u.nano < 1000000) := by
  rw [coerce?_moment h, Option.some.injEq, Json.str.injEq, String.ofList_inj,
    writeDateTime_truncated_eq_iff]

theorem coerce?_eq_self_iff (h : coerce? t v = some w) :
    coerce? t w = some w ↔ ¬t.EndsInZeros w := by
  by_cases ht : t = .datetime
  · subst ht
    rcases exists_moment_of_coerce? h with rfl | ⟨u, hu, rfl⟩
    · exact iff_of_true rfl fun ⟨_, _, _, _, _, hw⟩ => nomatch hw
    · rw [coerce?_moment_eq_self_iff hu]
      refine not_congr ⟨fun hn => ⟨rfl, u, hu, hn.1, hn.2, rfl⟩, ?_⟩
      rintro ⟨-, z, hz, hpos, hlt, hw⟩
      -- of two moments that are written alike both stay as they are or none does
      by_contra hn
      refine (coerce?_moment_eq_self_iff hz).mp ?_ ⟨hpos, hlt⟩
      rw [← hw]
      exact (coerce?_moment_eq_self_iff hu).mpr hn
  · exact iff_of_true (coerce?_fixed ht h) fun hz => ht hz.1

end FieldType

theorem coerce_eq_ok_iff {t : FieldType} {v w : Json} : coerce t v = .ok w ↔ coerce? t v = some w := by
  unfold coerce
  cases coerce? t v <;> simp

namespace Predicate

def values : Predicate → List Json
  | .compare _ _ v => [v]
  | .among _ vs => vs
  | .between _ low high => [low, high]
  | _ => []

theorem Converted.exists_raw {path : AccessPath} {p : Predicate} (h : p.Converted path) {w : Json}
    (hw : w ∈ p.values) : ∃ raw, w = coerceOrKeep path.type raw := by
  cases p with
  | compare q op v => exact List.mem_singleton.mp hw ▸ h.2
  | among q vs => exact h.2 w hw
  | between q low high =>
    rcases List.mem_cons.mp hw with rfl | hw
    · exact h.2.1
    · exact List.mem_singleton.mp hw ▸ h.2.2
  | _ => exact absurd hw List.not_mem_nil

end Predicate

namespace Sql

variable {t : FieldType} {w : Json}

theorem bindable_of_coerce? (h : coerce? t w = some w) (hw : w ≠ .null) : bindable w t = true := by
  rw [bindable, coerce, h, Json.isNull_eq_false_iff.mpr hw]
  exact beq_self_eq_true w

theorem exists_coerce?_of_bindable (h : bindable w t = true) :
    ∃ x, coerce? t w = some x ∧ (x == w) = true := by
  rw [bindable, coerce] at h
  cases hc : coerce? t w with
  | none =>
    rw [hc] at h
    simp [Except.toOption] at h
  | some x =>
    rw [hc] at h
    exact ⟨x, rfl, by simpa [Except.toOption] using (Bool.and_eq_true_iff.mp h).2⟩

/-- A value that a filter brings along is bindable just if it has been converted and does not end in
zeros. -/
theorem bindable_iff {path : AccessPath} {f : Filter} {p : Predicate} (hp : f.predicate? path = some p)
    (hw : w ∈ p.values) (hnull : w ≠ .null) :
    bindable w path.type = true ↔
      (∃ raw, coerce? path.type raw = some w) ∧ ¬path.type.EndsInZeros w := by
  obtain ⟨raw, hraw⟩ := (Predicate.converted_of_predicate? hp).exists_raw hw
  constructor
  · intro hb
    obtain ⟨x, hx, hsame⟩ := exists_coerce?_of_bindable hb
    have hconverted : coerce? path.type raw = some w := by
      cases hc : coerce? path.type raw with
      | some y => rw [hraw, coerceOrKeep, hc, Option.getD_some]
      | none =>
        rw [coerceOrKeep, hc, Option.getD_none] at hraw
        rw [hraw, hc] at hx
        cases hx
    refine ⟨⟨raw, hconverted⟩, fun hz => ?_⟩
    obtain ⟨ht, u, hu, hpos, hlt, rfl⟩ := id hz
    rw [ht, FieldType.coerce?_moment hu, Option.some.injEq] at hx
    subst hx
    have htext : String.ofList (Calendar.writeDateTime (Calendar.truncated u)) =
        String.ofList (Calendar.writeDateTime u) := beq_iff_eq.mp hsame
    exact Calendar.writeDateTime_truncated_eq_iff.mp (String.ofList_inj.mp htext) ⟨hpos, hlt⟩
  · rintro ⟨⟨raw, hc⟩, hz⟩
    exact bindable_of_coerce? ((FieldType.coerce?_eq_self_iff hc).mpr hz) hnull

end Sql

end EntityGraph
