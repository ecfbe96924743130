import EntityGraph.Proofs.Store.Rows
import EntityGraph.Store.Basic

namespace EntityGraph

namespace UnitOfWork

variable {α β : Type} {u : UnitOfWork α} {f : α → UnitOfWork β} {ts ts' : Tables} {a : α} {b : β}

theorem run_bind_eq_ok_iff : (u >>= f).run ts = (.ok b, ts') ↔
    ∃ a next, u.run ts = (.ok a, next) ∧ (f a).run next = (.ok b, ts') := by
  rw [run_bind]
  rcases u.run ts with ⟨e | a, next⟩ <;> simp

theorem run_bind_of_ok {next : Tables} (h : u.run ts = (.ok a, next)) :
    (u >>= f).run ts = (f a).run next := by
  rw [run_bind, h]

theorem run_pure_eq_ok_iff {c : α} : (pure a : UnitOfWork α).run ts = (.ok c, ts') ↔
    a = c ∧ ts = ts' := by
  simp

theorem run_attempt_eq_ok_iff {g : Tables → Except Error α} :
    (attempt g).run ts = (.ok a, ts') ↔ g ts = .ok a ∧ ts = ts' := by
  simp

theorem run_read_eq_ok_iff {g : Tables → α} :
    (read g).run ts = (.ok a, ts') ↔ g ts = a ∧ ts = ts' := by
  simp

theorem run_lift (r : Except Error α) (ts : Tables) :
    (liftM r : UnitOfWork α).run ts = (r, ts) :=
  rfl

theorem run_lift_eq_ok_iff {r : Except Error α} :
    (liftM r : UnitOfWork α).run ts = (.ok a, ts') ↔ r = .ok a ∧ ts = ts' := by
  simp [run_lift]

theorem run_discard (u : UnitOfWork α) (ts : Tables) : (discard u).run ts =
    match u.run ts with
    | (.ok _, next) => (.ok (), next)
    | (.error e, next) => (.error e, next) :=
  rfl

theorem run_discard_eq_ok_iff :
    (discard u).run ts = (.ok (), ts') ↔ ∃ a, u.run ts = (.ok a, ts') := by
  rw [run_discard]
  rcases u.run ts with ⟨e | a, next⟩ <;> simp

theorem run_forM_cons (g : α → UnitOfWork Unit) (x : α) (rest : List α) (ts : Tables) :
    (List.forM (x :: rest) g).run ts = (g x >>= fun _ => rest.forM g).run ts :=
  rfl

section Records

variable {m : Model} {record id : Json} {key : RecordKey}

theorem keyOf_eq_ok_iff : keyOf m id = .ok key ↔ RecordKey.of? id = some key := by
  unfold keyOf
  cases RecordKey.of? id <;> simp

/-- Merging puts a record under the key of its identity. -/
theorem run_merge (hi : m.identityOf record = some id) (hk : RecordKey.of? id = some key)
    (ts : Tables) : (merge m record).run ts = (.ok record, ts.put m.path key record) := by
  unfold merge
  rw [hi]
  exact run_bind_of_ok (run_lift_eq_ok_iff.mpr ⟨keyOf_eq_ok_iff.mpr hk, rfl⟩)

theorem run_remove (hk : RecordKey.of? id = some key) (ts : Tables) : (remove m id).run ts =
    (.ok (ts.row? m.path key).isSome,
      if (ts.row? m.path key).isSome then ts.erase m.path key else ts) := by
  unfold remove
  exact run_bind_of_ok (run_lift_eq_ok_iff.mpr ⟨keyOf_eq_ok_iff.mpr hk, rfl⟩)

theorem run_nextNumber (h : (nextNumber m).run ts = (.ok id, ts')) :
    (∃ n : Whole, id = .num (.whole n) ∧ n.value = (ts.table m.path).sequence + 1 ∧
      n.value < 0x8000000000000000) ∧ ts' = ts.set m.path (ts.table m.path).advance := by
  unfold nextNumber at h
  obtain ⟨next, ts₁, hread, h⟩ := run_bind_eq_ok_iff.mp h
  obtain ⟨rfl, rfl⟩ := run_read_eq_ok_iff.mp hread
  split at h
  · cases h
  · next n hn =>
    obtain ⟨⟨⟩, ts₂, hmodify, h⟩ := run_bind_eq_ok_iff.mp h
    rw [run_modify, Prod.mk.injEq] at hmodify
    obtain ⟨rfl, rfl⟩ := run_pure_eq_ok_iff.mp h
    refine ⟨?_, hmodify.2.symm⟩
    obtain ⟨hof, hsigned⟩ := Option.filter_eq_some_iff.mp hn
    unfold Number.ofInt? at hof
    split at hof
    · next hi =>
      obtain rfl := Option.some.inj hof
      refine ⟨⟨_, hi.1, hi.2⟩, rfl, rfl, ?_⟩
      simpa [Number.signed?] using hsigned
    · cases hof

theorem row?_of_run_nextNumber (h : (nextNumber m).run ts = (.ok id, ts')) (path : String)
    (key : RecordKey) : ts'.row? path key = ts.row? path key := by
  obtain ⟨-, rfl⟩ := run_nextNumber h
  by_cases hp : m.path = path
  · rw [Tables.row?, ← hp, Tables.table_set_self]
    rfl
  · rw [Tables.row?, Tables.table_set_of_ne ts hp, ← Tables.row?]

theorem nextIdentity_cases {fresh : Table → String}
    (h : (nextIdentity fresh m).run ts = (.ok id, ts')) : m.identityGenerated = true ∧
      (m.identityType.isIntegral = true ∧ (nextNumber m).run ts = (.ok id, ts') ∨
        m.identityType = .uuid ∧ id = .str (fresh (ts.table m.path)) ∧ ts' = ts) := by
  unfold nextIdentity at h
  cases hgen : m.identityGenerated with
  | false =>
    rw [hgen] at h
    cases h
  | true =>
    rw [hgen] at h
    refine ⟨rfl, ?_⟩
    simp only [Bool.not_true, Bool.false_eq_true, if_false] at h
    split at h
    · next ht => exact .inl ⟨by rw [ht]; rfl, h⟩
    · next ht => exact .inl ⟨by rw [ht]; rfl, h⟩
    · next ht =>
      obtain ⟨rfl, rfl⟩ := run_read_eq_ok_iff.mp h
      exact .inr ⟨ht, rfl, rfl⟩
    · cases h

theorem run_nextIdentity {fresh : Table → String}
    (hfresh : m.identityType = .uuid → ∀ t, Uuid.canonical? (fresh t) = some (fresh t))
    (h : (nextIdentity fresh m).run ts = (.ok id, ts')) :
    m.identityGenerated = true ∧ m.IsIdentity id ∧
      ∀ path key, ts'.row? path key = ts.row? path key := by
  obtain ⟨hgen, ⟨hi, h⟩ | ⟨ht, rfl, rfl⟩⟩ := nextIdentity_cases h
  · obtain ⟨⟨n, rfl, -, hn⟩, -⟩ := run_nextNumber h
    exact ⟨hgen, .whole hi n hn, row?_of_run_nextNumber h⟩
  · refine ⟨hgen, ?_, fun _ _ => rfl⟩
    rw [Model.IsIdentity, ht]
    exact .uuid (hfresh ht _)

def persistAs (m : Model) (record id : Json) : UnitOfWork Json := do
  let key ← keyOf m id
  if ← read fun ts => ((ts.table m.path).get? key).isSome then
    throw (.storage (.conflict (.alreadyExists m.path id)))
  write m key (record.set m.identity id)
  return record.set m.identity id

theorem persist_eq (fresh : Table → String) (m : Model) (h : record.IsObject) :
    persist fresh m record =
      (match m.identityOf record with
        | some id => pure id
        | none => nextIdentity fresh m) >>= persistAs m record := by
  obtain ⟨members, rfl⟩ := h
  unfold persist
  cases m.identityOf (.obj members) <;> rfl

theorem run_persistAs {saved : Json} (h : (persistAs m record id).run ts = (.ok saved, ts')) :
    saved = record.set m.identity id ∧ ∃ key, RecordKey.of? id = some key ∧
      ts.row? m.path key = none ∧ ts' = ts.put m.path key saved := by
  unfold persistAs at h
  obtain ⟨key, ts₁, hkey, h⟩ := run_bind_eq_ok_iff.mp h
  obtain ⟨hk, rfl⟩ := run_lift_eq_ok_iff.mp hkey
  obtain ⟨taken, ts₂, hread, h⟩ := run_bind_eq_ok_iff.mp h
  obtain ⟨htaken, rfl⟩ := run_read_eq_ok_iff.mp hread
  cases taken with
  | true => cases h
  | false =>
    obtain ⟨⟨⟩, ts₃, hwrite, h⟩ := run_bind_eq_ok_iff.mp h
    obtain ⟨rfl, rfl⟩ := run_pure_eq_ok_iff.mp h
    refine ⟨rfl, key, keyOf_eq_ok_iff.mp hk, ?_, (Prod.mk.inj hwrite).2.symm⟩
    rwa [Option.isSome_eq_false_iff, Option.isNone_iff_eq_none] at htaken

end Records

end UnitOfWork

end EntityGraph
