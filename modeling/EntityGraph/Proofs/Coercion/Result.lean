import EntityGraph.Proofs.Calendar.Text
import EntityGraph.Proofs.Double.Nearest
import EntityGraph.Proofs.Identity.Form

namespace EntityGraph

namespace Json

inductive Kind
  | null
  | bool
  | num
  | str
  | arr
  | obj
  deriving DecidableEq

def kind : Json → Kind
  | .null => .null
  | .bool _ => .bool
  | .num _ => .num
  | .str _ => .str
  | .arr _ => .arr
  | .obj _ => .obj

theorem compare?_eq_none {a b : Json} (h : a.kind ≠ b.kind) : a.compare? b = none := by
  cases a <;> cases b <;> first | rfl | exact absurd rfl h

theorem compare?_null (a : Json) : a.compare? .null = none := by
  cases a <;> rfl

mutual

theorem same_self (a : Json) : same a a = true := by
  match a with
  | .null => rfl
  | .bool b => exact beq_self_eq_true b
  | .num (.whole n) => exact beq_self_eq_true n
  | .num (.double x) => exact beq_self_eq_true x.units
  | .str s => exact beq_self_eq_true s
  | .arr items => exact sameItems_self items
  | .obj members => exact sameMembers_self members

theorem sameItems_self (xs : List Json) : sameItems xs xs = true := by
  match xs with
  | [] => rfl
  | x :: rest => rw [sameItems, same_self x, sameItems_self rest, Bool.true_and]

theorem sameMembers_self (xs : List (String × Json)) : sameMembers xs xs = true := by
  match xs with
  | [] => rfl
  | (k, x) :: rest =>
    rw [sameMembers, same_self x, sameMembers_self rest, beq_self_eq_true, Bool.true_and,
      Bool.true_and]

end

instance : ReflBEq Json := ⟨same_self _⟩

end Json

namespace Calendar

theorem trim_of_written {cs : List Char} (h : ∀ c ∈ cs, Text.isBlank c = false) (hne : cs ≠ []) :
    Text.trim (String.ofList cs) = String.ofList cs ∧ (String.ofList cs).isEmpty = false := by
  constructor
  · rw [Text.trim, Text.strip, String.toList_ofList, Text.stripList_eq_self h]
  · rw [Bool.eq_false_iff]
    intro he
    exact hne (by simpa using he)

theorem not_blank_of_mem_padded {w n : Nat} {c : Char} (h : c ∈ padded w n) :
    Text.isBlank c = false :=
  isBlank_of_isDigit (isDigit_of_mem_padded h)

theorem not_blank_of_mem_writeDate {d : Date} {c : Char} (h : c ∈ writeDate d) :
    Text.isBlank c = false := by
  simp only [writeDate, List.mem_append, List.mem_cons] at h
  rcases h with (hyear | rfl | hmonth) | rfl | hday
  · unfold writeYear at hyear
    split at hyear
    · exact not_blank_of_mem_padded hyear
    · rcases List.mem_cons.mp hyear with rfl | hyear
      · split <;> decide
      · exact not_blank_of_mem_padded hyear
  · decide
  · exact not_blank_of_mem_padded hmonth
  · decide
  · exact not_blank_of_mem_padded hday

theorem not_blank_of_mem_writeDateTime {t : DateTime} {c : Char} (h : c ∈ writeDateTime t) :
    Text.isBlank c = false := by
  rw [writeDateTime_eq] at h
  simp only [List.mem_append, List.mem_cons] at h
  rcases h with hdate | rfl | hhour | rfl | hminute | rfl | hsecond | hfraction
  · exact not_blank_of_mem_writeDate hdate
  · decide
  · exact not_blank_of_mem_padded hhour
  · decide
  · exact not_blank_of_mem_padded hminute
  · decide
  · exact not_blank_of_mem_padded hsecond
  · split at hfraction
    · cases hfraction
    · rcases List.mem_cons.mp hfraction with rfl | hfraction
      · decide
      · exact not_blank_of_mem_padded hfraction

theorem writeDate_ne_nil (d : Date) : writeDate d ≠ [] := by
  simp [writeDate]

theorem writeDateTime_ne_nil (t : DateTime) : writeDateTime t ≠ [] := by
  simp [writeDateTime_eq]

end Calendar

namespace FieldType

open Calendar

variable {t : FieldType} {v w raw : Json} {s : String}

def kind? : FieldType → Option Json.Kind
  | boolean => some .bool
  | integer | long | float | double => some .num
  | string | date | datetime | uuid => some .str
  | json => none

theorem coerce?_of_text (ht : t ≠ .string) (ht' : t ≠ .json) (s : String) :
    coerce? t (.str s) =
      if (Text.trim s).isEmpty then some .null else t.ofText? (Text.trim s) := by
  cases t <;> first | contradiction | rfl

theorem null_or_ofText?_of_coerce? (ht : t ≠ .string) (ht' : t ≠ .json)
    (h : coerce? t (.str s) = some w) : w = .null ∨ t.ofText? (Text.trim s) = some w := by
  rw [coerce?_of_text ht ht'] at h
  split at h
  · exact .inl (Option.some.inj h).symm
  · exact .inr h

theorem coerce?_date_written (d : Date) : coerce? .date (.str (String.ofList (writeDate d))) =
    some (.str (String.ofList (writeDate d))) := by
  obtain ⟨htrim, hne⟩ := trim_of_written (fun _ => not_blank_of_mem_writeDate) (writeDate_ne_nil d)
  rw [coerce?_of_text (by decide) (by decide), htrim, hne]
  simp [ofText?, dateOf?_writeDate]

theorem exists_date_of_coerce? (h : coerce? .date v = some w) :
    w = .null ∨ ∃ d, w = .str (String.ofList (writeDate d)) := by
  cases v with
  | null => exact .inl (Option.some.inj h).symm
  | str s =>
    refine (null_or_ofText?_of_coerce? (by decide) (by decide) h).imp_right fun h => ?_
    simp only [ofText?] at h
    obtain ⟨d, -, rfl⟩ := Option.map_eq_some_iff.mp h
    exact ⟨d, rfl⟩
  | _ => cases h

theorem exists_moment_of_coerce? (h : coerce? .datetime v = some w) :
    w = .null ∨ ∃ u, IsProper u ∧ w = .str (String.ofList (writeDateTime u)) := by
  cases v with
  | null => exact .inl (Option.some.inj h).symm
  | str s =>
    refine (null_or_ofText?_of_coerce? (by decide) (by decide) h).imp_right fun h => ?_
    simp only [ofText?] at h
    obtain ⟨u, hu, rfl⟩ := Option.map_eq_some_iff.mp h
    refine ⟨u, ?_, rfl⟩
    rcases Option.or_eq_some_iff.mp hu with hu | ⟨-, hu⟩
    · exact isProper_of_dateTimeOf? hu
    · obtain ⟨d, -, rfl⟩ := Option.map_eq_some_iff.mp hu
      exact isProper_midnight d
  | _ => cases h

theorem coerce?_moment {u : DateTime} (h : IsProper u) :
    coerce? .datetime (.str (String.ofList (writeDateTime u))) =
      some (.str (String.ofList (writeDateTime (truncated u)))) := by
  obtain ⟨htrim, hne⟩ :=
    trim_of_written (fun _ => not_blank_of_mem_writeDateTime) (writeDateTime_ne_nil u)
  rw [coerce?_of_text (by decide) (by decide), htrim, hne]
  simp [ofText?, dateTimeOf?_writeDateTime h]

theorem exists_double_of_coerce? (ht : t = .float ∨ t = .double) (h : coerce? t v = some w) :
    w = .null ∨ ∃ x, w = .num (.double x) := by
  have hvalue : coerce? .double v = some w := by
    rcases ht with rfl | rfl
    · cases v <;> exact h
    · exact h
  cases v with
  | null => exact .inl (Option.some.inj hvalue).symm
  | num n => exact .inr ⟨n.toDouble, (Option.some.inj hvalue).symm⟩
  | str s =>
    refine (null_or_ofText?_of_coerce? (by decide) (by decide) hvalue).imp_right fun h => ?_
    simp only [ofText?] at h
    obtain ⟨x, -, rfl⟩ := Option.map_eq_some_iff.mp h
    exact ⟨x, rfl⟩
  | _ => cases hvalue

theorem exists_bool_of_coerce? (h : coerce? .boolean v = some w) :
    w = .null ∨ ∃ b, w = .bool b := by
  cases v with
  | null => exact .inl (Option.some.inj h).symm
  | bool b => exact .inr ⟨b, (Option.some.inj h).symm⟩
  | num n => exact .inr ⟨_, (Option.some.inj h).symm⟩
  | str s =>
    exact (null_or_ofText?_of_coerce? (by decide) (by decide) h).imp_right
      fun h => ⟨_, (Option.some.inj h).symm⟩
  | _ => cases h

theorem coerce?_fixed (ht : t ≠ .datetime) (h : coerce? t v = some w) : coerce? t w = some w := by
  have hidentity (hi : ModelDefinition.isIdentityType t = true) : coerce? t w = some w := by
    by_cases hw : w = .null
    · subst hw
      cases t <;> rfl
    · exact (isIdentity_of_coerce? hi h hw).2
  cases t with
  | integer | long | string | uuid => exact hidentity rfl
  | boolean =>
    rcases exists_bool_of_coerce? h with rfl | ⟨b, rfl⟩
    · rfl
    · rfl
  | float =>
    rcases exists_double_of_coerce? (.inl rfl) h with rfl | ⟨x, rfl⟩
    · rfl
    · rfl
  | double =>
    rcases exists_double_of_coerce? (.inr rfl) h with rfl | ⟨x, rfl⟩
    · rfl
    · rfl
  | date =>
    rcases exists_date_of_coerce? h with rfl | ⟨d, rfl⟩
    · rfl
    · exact coerce?_date_written d
  | datetime => exact absurd rfl ht
  | json =>
    cases w <;> rfl

/-- What a type makes of a value it can convert again. -/
theorem isSome_coerce? (h : coerce? t v = some w) : (coerce? t w).isSome = true := by
  by_cases ht : t = .datetime
  · subst ht
    rcases exists_moment_of_coerce? h with rfl | ⟨u, hu, rfl⟩
    · rfl
    · rw [coerce?_moment hu]
      rfl
  · rw [coerce?_fixed ht h]
    rfl

theorem kind_of_coerce? (h : coerce? t v = some w) {k : Json.Kind} (hk : t.kind? = some k) :
    w = .null ∨ w.kind = k := by
  have hidentity (hi : t.isIntegral = true) (hnum : Json.Kind.num = k) : w = .null ∨ w.kind = k := by
    by_cases hw : w = .null
    · exact .inl hw
    · obtain ⟨i, hi'⟩ := exists_integral?_of_coerce? hi h hw
      obtain ⟨-, n, -, rfl⟩ := integral?_eq_some_iff.mp hi'
      exact .inr hnum
  cases t with
  | integer | long => exact hidentity rfl (Option.some.inj hk)
  | boolean =>
    exact (exists_bool_of_coerce? h).imp_right fun ⟨b, hb⟩ => hb ▸ Option.some.inj hk
  | float =>
    exact (exists_double_of_coerce? (.inl rfl) h).imp_right fun ⟨x, hx⟩ => hx ▸ Option.some.inj hk
  | double =>
    exact (exists_double_of_coerce? (.inr rfl) h).imp_right fun ⟨x, hx⟩ => hx ▸ Option.some.inj hk
  | date => exact (exists_date_of_coerce? h).imp_right fun ⟨d, hd⟩ => hd ▸ Option.some.inj hk
  | datetime =>
    exact (exists_moment_of_coerce? h).imp_right fun ⟨u, _, hu⟩ => hu ▸ Option.some.inj hk
  | string =>
    by_cases hw : w = .null
    · exact .inl hw
    · cases (isIdentity_of_coerce? rfl h hw).1 with
      | text s => exact .inr (Option.some.inj hk)
      | whole ht => cases ht
  | uuid =>
    by_cases hw : w = .null
    · exact .inl hw
    · cases (isIdentity_of_coerce? rfl h hw).1 with
      | uuid hs => exact .inr (Option.some.inj hk)
      | whole ht => cases ht
  | json => cases hk

end FieldType

end EntityGraph
