import EntityGraph.Proofs.Double.Nearest
import EntityGraph.Proofs.Store.Rows

namespace EntityGraph

theorem RecordKey.of?_whole (k : Whole) :
    of? (.num (.whole k)) = some (.int (min k.value 0x7FFFFFFFFFFFFFFF)) := by
  by_cases hk : k.value < 0x8000000000000000
  · have hmin : min k.value 0x7FFFFFFFFFFFFFFF = k.value := by omega
    rw [of?, Number.signed?, if_pos hk, hmin]
  · have hpos : ¬k.value < 0 := by omega
    have hge : 2 ^ 63 ≤ k.value.natAbs := by omega
    have hwhole : (Number.whole k).toDouble.isWhole = true := by
      refine beq_iff_eq.mpr (Nat.mod_eq_zero_of_dvd (Double.unit_dvd_nearest ?_))
      exact Nat.le_trans (by decide) hge
    have hquotient : 2 ^ 63 ≤ Double.nearest k.value.natAbs 1 / Double.unit :=
      (Nat.le_div_iff_mul_le Double.unit_pos).mpr (Double.two_pow_le_nearest hge)
    have htruncate : (Number.whole k).toDouble.truncate =
        (Double.nearest k.value.natAbs 1 / Double.unit : Nat) := by
      rw [Double.truncate, Number.toDouble, Double.ofNatural, decide_eq_false hpos]
      rfl
    have hclamp : clamp (Number.whole k).toDouble.truncate = min k.value 0x7FFFFFFFFFFFFFFF := by
      rw [htruncate, clamp]
      omega
    rw [of?, Number.signed?, if_neg hk]
    dsimp only
    rw [if_pos hwhole, hclamp]

namespace Table

theorem le_reach (n : Nat) (key : RecordKey) : n ≤ reach n key := by
  cases key with
  | int i => exact Nat.le_max_left _ _
  | text s => exact Nat.le_refl _

theorem reach_eq_self_mono {n n' : Nat} {key : RecordKey} (h : reach n key = n) (hle : n ≤ n') :
    reach n' key = n' := by
  cases key with
  | int i =>
    have hi : i.toNat ≤ n := Nat.le_trans (Nat.le_max_right n i.toNat) (Nat.le_of_eq h)
    exact Nat.max_eq_left (Nat.le_trans hi hle)
  | text s => rfl

theorem reach_reach (n : Nat) (key : RecordKey) : reach (reach n key) key = reach n key := by
  cases key with
  | int i => exact Nat.max_eq_left (Nat.le_max_right _ _)
  | text s => rfl

end Table

namespace Tables

variable {ts next : Tables} {path other : String} {key : RecordKey}

/-- The numbers that records stand under have been counted as used. -/
def Counted (ts : Tables) : Prop :=
  ∀ path key, (ts.row? path key).isSome = true →
    Table.reach (ts.table path).sequence key = (ts.table path).sequence

theorem counted_empty : Tables.empty.Counted :=
  fun _ _ h => nomatch h

theorem Counted.row?_eq_none (h : ts.Counted) {i : Int} (hlt : (ts.table path).sequence < i) :
    ts.row? path (.int i) = none := by
  rw [← Option.not_isSome_iff_eq_none]
  intro hrow
  have hreach : max (ts.table path).sequence i.toNat = (ts.table path).sequence := h path _ hrow
  omega

/-- A table in which fewer records stand than in one before, and that has counted no less. -/
theorem Counted.set {t : Table} (h : ts.Counted)
    (hle : (ts.table path).sequence ≤ t.sequence)
    (hrows : ∀ k, (t.get? k).isSome = true → (ts.row? path k).isSome = true ∨
      Table.reach t.sequence k = t.sequence) : (ts.set path t).Counted := by
  intro other k hk
  by_cases hp : path = other
  · subst hp
    rw [row?, table_set_self] at hk
    rw [table_set_self]
    exact (hrows k hk).elim (fun hold => Table.reach_eq_self_mono (h path k hold) hle) id
  · rw [row?, table_set_of_ne ts hp] at hk
    rw [table_set_of_ne ts hp]
    exact h other k hk

theorem Counted.put (h : ts.Counted) (path : String) (key : RecordKey) (record : Json) :
    (ts.put path key record).Counted := by
  refine h.set (Table.le_reach _ key) fun k hk => ?_
  by_cases he : key = k
  · subst he
    exact .inr (Table.reach_reach _ key)
  · rw [Table.get?, Table.put, OrderedMap.get?_insert_of_ne _ he] at hk
    exact .inl hk

theorem Counted.erase (h : ts.Counted) (path : String) (key : RecordKey) :
    (ts.erase path key).Counted := by
  refine h.set (Nat.le_refl _) fun k hk => .inl ?_
  by_cases he : key = k
  · subst he
    rw [Table.get?, Table.erase, OrderedMap.get?_erase_self] at hk
    cases hk
  · rwa [Table.get?, Table.erase, OrderedMap.get?_erase_of_ne _ he] at hk

theorem Counted.advance (h : ts.Counted) (path : String) :
    (ts.set path (ts.table path).advance).Counted :=
  h.set (Nat.le_succ _) fun _ hk => .inl hk

theorem sequence_put (ts : Tables) (path : String) (key : RecordKey) (record : Json) (other : String) :
    ((ts.put path key record).table other).sequence =
      if other = path then Table.reach (ts.table other).sequence key else (ts.table other).sequence := by
  by_cases hp : path = other
  · subst hp
    rw [put, table_set_self, if_pos rfl]
    rfl
  · rw [put, table_set_of_ne ts hp, if_neg (Ne.symm hp)]

end Tables

end EntityGraph
