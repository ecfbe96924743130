import EntityGraph.Model.Resolve
import EntityGraph.Proofs.Identity.Uuid
import EntityGraph.Proofs.Json.Members
import EntityGraph.Store.RecordKey

namespace EntityGraph

/-- Values of the form that identities of a type have. Whole numbers need not be in the range of the
type: the next number of a sequence may lie beyond it. -/
inductive FieldType.IsIdentity : FieldType → Json → Prop
  | whole {t : FieldType} (ht : t.isIntegral = true) (n : Whole)
      (hn : n.value < 0x8000000000000000) : IsIdentity t (.num (.whole n))
  | text (s : String) : IsIdentity .string (.str s)
  | uuid {s : String} (hs : Uuid.canonical? s = some s) : IsIdentity .uuid (.str s)

theorem Whole.eq_of_value {n k : Whole} (h : n.value = k.value) : n = k := by
  cases n
  cases k
  simpa using h

theorem Number.compare_whole {n k : Whole} (hn : n.value < 0x8000000000000000)
    (hk : k.value < 0x8000000000000000) :
    (Number.whole n).compare (.whole k) = Ord.compare n.value k.value := by
  simp only [compare, signed?, hn, hk, if_true]

namespace FieldType

theorem integral?_eq_some_iff {t : FieldType} {i : Int} {v : Json} :
    t.integral? i = some v ↔
      t.holds i = true ∧ ∃ n : Whole, n.value = i ∧ v = .num (.whole n) := by
  simp only [integral?, Option.ite_none_right_eq_some, Option.map_eq_some_iff]
  apply and_congr_right
  intro
  constructor
  · rintro ⟨k, hk, rfl⟩
    unfold Number.ofInt? at hk
    split at hk
    · next hi => exact ⟨⟨i, hi.1, hi.2⟩, rfl, by rw [Option.some.inj hk]⟩
    · cases hk
  · rintro ⟨n, rfl, rfl⟩
    exact ⟨.whole n, dif_pos ⟨n.low, n.high⟩, rfl⟩

theorem lt_of_holds {t : FieldType} {i : Int} (h : t.holds i = true) : i < 0x8000000000000000 := by
  cases t <;> simp only [holds, Bool.and_eq_true, decide_eq_true_eq] at h <;> omega

theorem coerce?_uuid (s : String) : coerce? .uuid (.str s) =
    if (Text.trim s).isEmpty then some .null else (Uuid.canonical? (Text.trim s)).map .str :=
  rfl

theorem coerce?_uuid_of_canonical {s t : String} (h : Uuid.canonical? s = some t) :
    coerce? .uuid (.str t) = some (.str t) := by
  obtain ⟨htrim, hne⟩ := Uuid.trim_of_canonical? h
  rw [coerce?_uuid, htrim, hne, Uuid.canonical?_idempotent h]
  rfl

theorem coerce?_num {t : FieldType} (ht : t.isIntegral = true) (n : Number) :
    coerce? t (.num n) =
      match n.signed? with
      | some i => t.integral? i
      | none => (wholePart? n.toDouble).bind t.integral? := by
  cases t with
  | integer | long => rfl
  | _ => cases ht

theorem coerce?_str {t : FieldType} (ht : t.isIntegral = true) (s : String) :
    coerce? t (.str s) =
      if (Text.trim s).isEmpty then some .null else t.integralOfText? (Text.trim s) := by
  cases t with
  | integer | long => rfl
  | _ => cases ht

theorem coerce?_whole {t : FieldType} (ht : t.isIntegral = true) {n : Whole}
    (hn : n.value < 0x8000000000000000) : coerce? t (.num (.whole n)) = t.integral? n.value := by
  rw [coerce?_num ht, Number.signed?, if_pos hn]

theorem isIdentity_of_integral? {t : FieldType} (ht : t.isIntegral = true) {i : Int} {v : Json}
    (h : t.integral? i = some v) : t.IsIdentity v ∧ coerce? t v = some v := by
  obtain ⟨hi, n, rfl, rfl⟩ := integral?_eq_some_iff.mp h
  have hn := lt_of_holds hi
  exact ⟨.whole ht n hn, by rw [coerce?_whole ht hn, h]⟩

theorem exists_integral?_of_coerce? {t : FieldType} (ht : t.isIntegral = true) {raw id : Json}
    (h : coerce? t raw = some id) (hid : id ≠ .null) : ∃ i, t.integral? i = some id := by
  have hbind {o : Option Int} (h : o.bind t.integral? = some id) : ∃ i, t.integral? i = some id :=
    let ⟨i, _, hi⟩ := Option.bind_eq_some_iff.mp h
    ⟨i, hi⟩
  cases raw with
  | num n =>
    rw [coerce?_num ht] at h
    split at h
    · exact ⟨_, h⟩
    · exact hbind h
  | str s =>
    rw [coerce?_str ht] at h
    split at h
    · exact absurd (Option.some.inj h).symm hid
    · unfold integralOfText? at h
      split at h
      · exact ⟨_, h⟩
      · exact hbind h
  | null => exact absurd (by simpa [coerce?] using h.symm) hid
  | _ => cases t <;> simp_all [coerce?, isIntegral]

theorem isIdentity_of_coerce? {t : FieldType} (ht : ModelDefinition.isIdentityType t = true)
    {raw id : Json} (h : coerce? t raw = some id) (hid : id ≠ .null) :
    t.IsIdentity id ∧ coerce? t id = some id := by
  have hint (hi : t.isIntegral = true) : t.IsIdentity id ∧ coerce? t id = some id := by
    obtain ⟨i, hi'⟩ := exists_integral?_of_coerce? hi h hid
    exact isIdentity_of_integral? hi hi'
  cases t with
  | integer => exact hint rfl
  | long => exact hint rfl
  | string =>
    have hs : ∃ s, id = .str s := by
      cases raw with
      | null => exact absurd (Option.some.inj h).symm hid
      | _ => exact ⟨_, (Option.some.inj h).symm⟩
    obtain ⟨s, rfl⟩ := hs
    exact ⟨.text s, rfl⟩
  | uuid =>
    cases raw with
    | str s =>
      rw [coerce?_uuid] at h
      split at h
      · exact absurd (Option.some.inj h).symm hid
      · obtain ⟨u, hu, rfl⟩ := Option.map_eq_some_iff.mp h
        exact ⟨.uuid (Uuid.canonical?_idempotent hu), coerce?_uuid_of_canonical hu⟩
    | null => exact absurd (Option.some.inj h).symm hid
    | num n => simp [coerce?, ofNumber?] at h
    | _ => simp [coerce?] at h
  | _ => cases ht

namespace IsIdentity

variable {t u : FieldType} {a b : Json}

theorem ne_null (h : t.IsIdentity a) : a ≠ .null := by
  cases h <;> exact fun h => nomatch h

theorem exists_key (h : t.IsIdentity a) : ∃ key, RecordKey.of? a = some key := by
  cases h with
  | whole _ n hn => exact ⟨.int n.value, by simp [RecordKey.of?, Number.signed?, hn]⟩
  | text s => exact ⟨.text s, rfl⟩
  | uuid _ => exact ⟨.text _, rfl⟩

theorem eq_of_key (ha : t.IsIdentity a) (hb : u.IsIdentity b)
    (h : RecordKey.of? a = RecordKey.of? b) : a = b := by
  have key {n : Whole} (hn : n.value < 0x8000000000000000) :
      RecordKey.of? (.num (.whole n)) = some (.int n.value) := by
    simp [RecordKey.of?, Number.signed?, hn]
  cases ha with
  | whole _ n hn =>
    cases hb with
    | whole _ k hk =>
      rw [key hn, key hk] at h
      rw [Whole.eq_of_value (RecordKey.int.inj (Option.some.inj h))]
    | _ => rw [key hn] at h; cases h
  | _ =>
    cases hb with
    | whole _ k hk => rw [key hk] at h; cases h
    | _ => exact congrArg Json.str (RecordKey.text.inj (Option.some.inj h))

theorem sameIdentity_iff (ha : t.IsIdentity a) (hb : u.IsIdentity b) :
    a.sameIdentity b = true ↔ a = b := by
  rw [Json.sameIdentity, beq_iff_eq]
  cases ha with
  | whole _ n hn =>
    cases hb with
    | whole _ k hk =>
      simp only [Json.compare?, Number.compare, Number.signed?, hn, hk, if_true, Option.some.injEq,
        Std.LawfulEqCmp.compare_eq_iff_eq, Json.num.injEq, Number.whole.injEq]
      exact ⟨Whole.eq_of_value, fun h => h ▸ rfl⟩
    | _ => simp [Json.compare?]; rfl
  | _ =>
    cases hb with
    | whole _ k hk => simp [Json.compare?]; rfl
    | _ => simp [Json.compare?]

theorem sameIdentity_self (h : t.IsIdentity a) : a.sameIdentity a = true :=
  (h.sameIdentity_iff h).mpr rfl

theorem coerceOrKeep_eq (ha : t.IsIdentity a) : coerceOrKeep t a = a := by
  cases ha with
  | whole ht n hn =>
    rw [coerceOrKeep, coerce?_whole ht hn]
    cases h : t.integral? n.value with
    | none => rfl
    | some v =>
      obtain ⟨-, k, hk, rfl⟩ := integral?_eq_some_iff.mp h
      rw [Whole.eq_of_value hk]
      rfl
  | text s => rfl
  | uuid hs => rw [coerceOrKeep, coerce?_uuid_of_canonical hs, Option.getD_some]

theorem compareAs_iff (ha : t.IsIdentity a) (hb : t.IsIdentity b) :
    compareAs t a b = some .eq ↔ a = b := by
  rw [compareAs, ha.coerceOrKeep_eq, hb.coerceOrKeep_eq, ← ha.sameIdentity_iff hb,
    Json.sameIdentity, beq_iff_eq]

end IsIdentity

end FieldType

namespace Model

variable {m : Model}

def IsIdentity (m : Model) (id : Json) : Prop :=
  m.identityType.IsIdentity id

theorem coerceIdentity_eq_ok_iff {raw id : Json} :
    m.coerceIdentity raw = .ok id ↔ coerce? m.identityType raw = some id ∧ id ≠ .null := by
  unfold coerceIdentity coerce
  cases h : coerce? m.identityType raw with
  | none => simp
  | some w => cases w <;> simp +contextual [eq_comm]

theorem identity?_eq_some_iff {raw id : Json} :
    m.identity? raw = some id ↔ m.coerceIdentity raw = .ok id := by
  unfold identity?
  cases m.coerceIdentity raw <;> simp [Except.toOption]

/-- Accepted identities have the right form and are accepted once more, unchanged. -/
theorem isIdentity_of_coerceIdentity (ht : ModelDefinition.isIdentityType m.identityType = true)
    {raw id : Json} (h : m.coerceIdentity raw = .ok id) :
    m.IsIdentity id ∧ m.identity? id = some id := by
  obtain ⟨hc, hid⟩ := coerceIdentity_eq_ok_iff.mp h
  obtain ⟨hform, hself⟩ := FieldType.isIdentity_of_coerce? ht hc hid
  exact ⟨hform, identity?_eq_some_iff.mpr (coerceIdentity_eq_ok_iff.mpr ⟨hself, hid⟩)⟩

theorem IsIdentity.eq_of_identity? {id other : Json} (h : m.IsIdentity id)
    (ho : m.identity? id = some other) : other = id := by
  obtain ⟨hc, -⟩ := coerceIdentity_eq_ok_iff.mp (identity?_eq_some_iff.mp ho)
  have hk := h.coerceOrKeep_eq
  rwa [coerceOrKeep, hc, Option.getD_some] at hk

end Model

end EntityGraph
