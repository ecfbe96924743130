import EntityGraph.Proofs.Calendar.Order
import EntityGraph.Proofs.Coercion.Repetition
import Mathlib.Data.String.Basic

namespace EntityGraph

namespace Calendar

def dayOf? (s : String) : Option Date :=
  (dateOf? (Text.trim s)).or ((dateTimeOf? (Text.trim s)).map DateTime.date)

/-- The moment that a text denotes; a day alone denotes its first moment. -/
def momentOf? (s : String) : Option DateTime :=
  (dateTimeOf? (Text.trim s)).or ((dateOf? (Text.trim s)).map DateTime.midnight)

def millisecond (t : DateTime) : Date × Nat × Nat :=
  (t.date, t.second, t.nano / 1000000)

variable {s : String} {a b : Date} {t u : DateTime}

theorem isProper_of_momentOf? (h : momentOf? s = some t) : IsProper t := by
  rcases Option.or_eq_some_iff.mp h with h | ⟨-, h⟩
  · exact isProper_of_dateTimeOf? h
  · obtain ⟨d, -, rfl⟩ := Option.map_eq_some_iff.mp h
    exact isProper_midnight d

theorem ofList_lt_ofList {cs ds : List Char} : String.ofList cs < String.ofList ds ↔ cs < ds := by
  rw [String.lt_iff_toList_lt, String.toList_ofList, String.toList_ofList]

theorem ofList_writeDate_lt_iff (ha : HasPlainYear a) (hb : HasPlainYear b) :
    String.ofList (writeDate a) < String.ofList (writeDate b) ↔ a < b := by
  have h : writeDate a ++ [] < writeDate b ++ [] ↔ a < b ∨ a = b ∧ [] < [] := writeDate_append_lt_iff ha hb
  rw [ofList_lt_ofList]
  simpa using h

theorem ofList_writeDate_eq_iff : String.ofList (writeDate a) = String.ofList (writeDate b) ↔ a = b := by
  refine ⟨fun h => ?_, fun h => by rw [h]⟩
  have hread := dateOf?_writeDate a
  rw [h, dateOf?_writeDate] at hread
  exact (Option.some.inj hread).symm

theorem ofList_writeDateTime_le (ht : IsProper t) (hu : IsProper u) (hty : HasPlainYear t.date)
    (huy : HasPlainYear u.date) (h : t ≤ u) :
    String.ofList (writeDateTime t) ≤ String.ofList (writeDateTime u) := by
  rw [← not_lt, ofList_lt_ofList, writeDateTime_lt_iff hu ht huy hty]
  rw [← not_lt, DateTime.lt_iff] at h
  refine fun hlt => h (hlt.imp_right (And.imp_right (Or.imp_right (And.imp_right fun hnano => ?_))))
  omega

theorem ofList_writeDateTime_lt (ht : IsProper t) (hu : IsProper u) (hty : HasPlainYear t.date)
    (huy : HasPlainYear u.date) (h : t < u) (hne : millisecond t ≠ millisecond u) :
    String.ofList (writeDateTime t) < String.ofList (writeDateTime u) := by
  rw [ofList_lt_ofList, writeDateTime_lt_iff ht hu hty huy]
  rw [DateTime.lt_iff] at h
  rcases h with hdate | ⟨hdate, hsecond | ⟨hsecond, hnano⟩⟩
  · exact .inl hdate
  · exact .inr ⟨hdate, .inl hsecond⟩
  · have hmillis : t.nano / 1000000 ≠ u.nano / 1000000 :=
      fun heq => hne (by rw [millisecond, millisecond, hdate, hsecond, heq])
    exact .inr ⟨hdate, .inr ⟨hsecond, .inl (by omega)⟩⟩

end Calendar

namespace FieldType

open Calendar

variable {t : FieldType} {s : String} {v : Json}

/-- What is compared, if it is not null, is what the type makes of the text. -/
theorem ofText?_of_coerce (ht : t ≠ .string) (ht' : t ≠ .json) (h : coerce t (.str s) = .ok v) (hv : v ≠ .null) :
    t.ofText? (Text.trim s) = some v ∧ coerceOrKeep t (.str s) = v := by
  rw [coerce_eq_ok_iff] at h
  exact ⟨(null_or_ofText?_of_coerce? ht ht' h).resolve_left hv, by rw [coerceOrKeep, h, Option.getD_some]⟩

theorem exists_dayOf? (h : coerce .date (.str s) = .ok v) (hv : v ≠ .null) :
    ∃ a, dayOf? s = some a ∧ coerceOrKeep .date (.str s) = .str (String.ofList (writeDate a)) := by
  obtain ⟨htext, hkeep⟩ := ofText?_of_coerce (by decide) (by decide) h hv
  obtain ⟨a, ha, rfl⟩ := Option.map_eq_some_iff.mp htext
  exact ⟨a, ha, hkeep⟩

theorem exists_momentOf? (h : coerce .datetime (.str s) = .ok v) (hv : v ≠ .null) :
    ∃ u, momentOf? s = some u ∧
      coerceOrKeep .datetime (.str s) = .str (String.ofList (writeDateTime u)) := by
  obtain ⟨htext, hkeep⟩ := ofText?_of_coerce (by decide) (by decide) h hv
  obtain ⟨u, hu, rfl⟩ := Option.map_eq_some_iff.mp htext
  exact ⟨u, hu, hkeep⟩

/-- Texts of days are compared as the days are, and texts of moments as the moments are, but for moments in one
millisecond, which may be written alike. -/
theorem comparison_follows_calendar (s s' : String) :
    (∀ v w, coerce .date (.str s) = .ok v → v ≠ .null → coerce .date (.str s') = .ok w → w ≠ .null →
      ∃ a b, dayOf? s = some a ∧ dayOf? s' = some b ∧ (HasPlainYear a → HasPlainYear b →
        ∃ o, compareAs .date (.str s) (.str s') = some o ∧
          (a ≤ b → o.isLE = true) ∧ (o = .eq ↔ a = b))) ∧
    ∀ v w, coerce .datetime (.str s) = .ok v → v ≠ .null → coerce .datetime (.str s') = .ok w → w ≠ .null →
      ∃ t u, momentOf? s = some t ∧ momentOf? s' = some u ∧ (HasPlainYear t.date → HasPlainYear u.date →
        ∃ o, compareAs .datetime (.str s) (.str s') = some o ∧
          (t ≤ u → o.isLE = true) ∧ (t < u → millisecond t ≠ millisecond u → o = .lt)) := by
  constructor
  · intro v w hv hvnull hw hwnull
    obtain ⟨a, ha, hs⟩ := exists_dayOf? hv hvnull
    obtain ⟨b, hb, hs'⟩ := exists_dayOf? hw hwnull
    refine ⟨a, b, ha, hb, fun hay hby => ⟨_, by rw [compareAs, hs, hs', Json.compare?], fun hle => ?_, ?_⟩⟩
    · rw [Std.LawfulBCmp.isLE_iff_le, ← not_lt, ofList_writeDate_lt_iff hby hay]
      exact not_lt.mpr hle
    · rw [compare_eq_iff_eq, ofList_writeDate_eq_iff]
  · intro v w hv hvnull hw hwnull
    obtain ⟨t, ht, hs⟩ := exists_momentOf? hv hvnull
    obtain ⟨u, hu, hs'⟩ := exists_momentOf? hw hwnull
    have htp := isProper_of_momentOf? ht
    have hup := isProper_of_momentOf? hu
    refine ⟨t, u, ht, hu, fun hty huy => ⟨_, by rw [compareAs, hs, hs', Json.compare?], fun hle => ?_,
      fun hlt hne => ?_⟩⟩
    · exact Std.LawfulBCmp.isLE_iff_le.mpr (ofList_writeDateTime_le htp hup hty huy hle)
    · exact compare_lt_iff_lt.mpr (ofList_writeDateTime_lt htp hup hty huy hlt hne)

def lastDay : Date :=
  ⟨2016, 12, 31, by decide, by decide⟩

def newYear : Date :=
  ⟨2017, 1, 1, by decide, by decide⟩

/-- The leap second at the end of a year, in local time of the next one, and that next year's first day. -/
theorem leap_second_is_before_new_year :
    coerce .date (.str "2017-01-01T00:59:60.5+01:00") = .ok (.str "2016-12-31") ∧
      coerce .datetime (.str "2017-01-01T00:59:60.5+01:00") = .ok (.str "2016-12-31T23:59:60.500") ∧
      compareAs .date (.str "2017-01-01T00:59:60.5+01:00") (.str "1/1/2017") = some .lt ∧
      compareAs .datetime (.str "2017-01-01T00:59:60.5+01:00") (.str "1/1/2017") = some .lt := by
  have hdate : coerce .date (.str "2017-01-01T00:59:60.5+01:00") = .ok (.str "2016-12-31") := rfl
  have hmoment : coerce .datetime (.str "2017-01-01T00:59:60.5+01:00") =
    .ok (.str "2016-12-31T23:59:60.500") := rfl
  have hnewDate : coerce .date (.str "1/1/2017") = .ok (.str "2017-01-01") := rfl
  have hnewMoment : coerce .datetime (.str "1/1/2017") = .ok (.str "2017-01-01T00:00:00") := rfl
  obtain ⟨hdays, hmoments⟩ := comparison_follows_calendar "2017-01-01T00:59:60.5+01:00" "1/1/2017"
  refine ⟨hdate, hmoment, ?_, ?_⟩
  · obtain ⟨a, b, ha, hb, h⟩ := hdays _ _ hdate nofun hnewDate nofun
    have ha' : dayOf? "2017-01-01T00:59:60.5+01:00" = some lastDay := by decide +kernel
    have hb' : dayOf? "1/1/2017" = some newYear := by decide +kernel
    obtain rfl := Option.some.inj (ha.symm.trans ha')
    obtain rfl := Option.some.inj (hb.symm.trans hb')
    obtain ⟨o, ho, hle, heq⟩ := h (by decide) (by decide)
    have hlast : o.isLE = true := hle (by decide)
    have hne : o ≠ .eq := fun he => absurd (heq.mp he) (by decide)
    rw [ho]
    cases o with
    | lt => rfl
    | eq => exact absurd rfl hne
    | gt => cases hlast
  · obtain ⟨t, u, ht, hu, h⟩ := hmoments _ _ hmoment nofun hnewMoment nofun
    have ht' : momentOf? "2017-01-01T00:59:60.5+01:00" = some ⟨lastDay, 86399, 1500000000⟩ := by
      decide +kernel
    have hu' : momentOf? "1/1/2017" = some ⟨newYear, 0, 0⟩ := by decide +kernel
    obtain rfl := Option.some.inj (ht.symm.trans ht')
    obtain rfl := Option.some.inj (hu.symm.trans hu')
    obtain ⟨o, ho, -, hlt⟩ := h (by decide) (by decide)
    rw [ho, hlt (by decide) (by decide)]

end FieldType

end EntityGraph
