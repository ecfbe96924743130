import EntityGraph.Proofs.Store.Steps

namespace EntityGraph

namespace Tables

variable {ts ts' ts'' : Tables} {path : String} {t : Table} {key : RecordKey} {record : Json}

/-- No table has used fewer numbers than before. -/
def Grows (ts ts' : Tables) : Prop :=
  ∀ path, (ts.table path).sequence ≤ (ts'.table path).sequence

theorem Grows.refl (ts : Tables) : ts.Grows ts :=
  fun _ => Nat.le_refl _

theorem Grows.trans (h : ts.Grows ts') (h' : ts'.Grows ts'') : ts.Grows ts'' :=
  fun path => Nat.le_trans (h path) (h' path)

theorem grows_set (h : (ts.table path).sequence ≤ t.sequence) : ts.Grows (ts.set path t) := by
  intro other
  by_cases hp : path = other
  · subst hp
    rwa [table_set_self]
  · exact Nat.le_of_eq (by rw [table_set_of_ne ts hp])

theorem grows_put (ts : Tables) (path : String) (key : RecordKey) (record : Json) :
    ts.Grows (ts.put path key record) := by
  refine grows_set ?_
  cases key with
  | int i => exact Nat.le_max_left _ _
  | text s => exact Nat.le_refl _

theorem grows_erase (ts : Tables) (path : String) (key : RecordKey) :
    ts.Grows (ts.erase path key) :=
  grows_set (Nat.le_refl _)

theorem grows_advance (ts : Tables) (path : String) :
    ts.Grows (ts.set path (ts.table path).advance) :=
  grows_set (Nat.le_succ _)

end Tables

namespace UnitOfWork

variable {α β : Type}

/-- If the unit of work succeeds on these tables, its answer and the tables afterwards satisfy `Q`. -/
def Leaves (u : UnitOfWork α) (ts : Tables) (Q : α → Tables → Prop) : Prop :=
  ∀ a ts', u.run ts = (.ok a, ts') → Q a ts'

namespace Leaves

variable {u : UnitOfWork α} {f : α → UnitOfWork β} {ts : Tables} {a : α}
  {Q : α → Tables → Prop} {R : β → Tables → Prop}

theorem mono {Q' : α → Tables → Prop} (h : u.Leaves ts Q) (hq : ∀ a ts', Q a ts' → Q' a ts') :
    u.Leaves ts Q' :=
  fun a ts' hrun => hq a ts' (h a ts' hrun)

theorem bind (h : u.Leaves ts Q) (hf : ∀ a next, Q a next → (f a).Leaves next R) :
    (u >>= f).Leaves ts R := by
  intro b ts' hrun
  obtain ⟨a, next, hu, hfa⟩ := run_bind_eq_ok_iff.mp hrun
  exact hf a next (h a next hu) b ts' hfa

theorem pure (h : Q a ts) : (Pure.pure a : UnitOfWork α).Leaves ts Q := by
  intro b ts' hrun
  obtain ⟨rfl, rfl⟩ := run_pure_eq_ok_iff.mp hrun
  exact h

theorem attempt {g : Tables → Except Error α} (h : ∀ a, g ts = .ok a → Q a ts) :
    (UnitOfWork.attempt g).Leaves ts Q := by
  intro b ts' hrun
  obtain ⟨hb, rfl⟩ := run_attempt_eq_ok_iff.mp hrun
  exact h b hb

theorem lift {r : Except Error α} (h : ∀ a, r = .ok a → Q a ts) :
    (liftM r : UnitOfWork α).Leaves ts Q := by
  intro b ts' hrun
  obtain ⟨hb, rfl⟩ := run_lift_eq_ok_iff.mp hrun
  exact h b hb

theorem bind_read {g : Tables → α} (h : (f (g ts)).Leaves ts R) :
    (UnitOfWork.read g >>= f).Leaves ts R :=
  h

theorem bind_attempt {g : Tables → Except Error α} (h : ∀ a, g ts = .ok a → (f a).Leaves ts R) :
    (UnitOfWork.attempt g >>= f).Leaves ts R := by
  intro b ts' hrun
  obtain ⟨a, next, hattempt, hf⟩ := run_bind_eq_ok_iff.mp hrun
  obtain ⟨ha, rfl⟩ := run_attempt_eq_ok_iff.mp hattempt
  exact h a ha b ts' hf

theorem bind_lift {r : Except Error α} (h : ∀ a, r = .ok a → (f a).Leaves ts R) :
    ((liftM r : UnitOfWork α) >>= f).Leaves ts R := by
  intro b ts' hrun
  obtain ⟨a, next, hlift, hf⟩ := run_bind_eq_ok_iff.mp hrun
  obtain ⟨ha, rfl⟩ := run_lift_eq_ok_iff.mp hlift
  exact h a ha b ts' hf

theorem throw (e : Error) : (MonadExcept.throw e : UnitOfWork α).Leaves ts Q :=
  fun _ _ hrun => nomatch hrun

theorem discard {P : Tables → Prop} (h : u.Leaves ts fun _ => P) :
    (discard u).Leaves ts fun _ => P := by
  intro _ ts' hrun
  obtain ⟨a, ha⟩ := run_discard_eq_ok_iff.mp hrun
  exact h a ts' ha

theorem forM_cons {g : α → UnitOfWork Unit} {x : α} {rest : List α} {P : Tables → Prop}
    (h : (g x >>= fun _ => rest.forM g).Leaves ts fun _ => P) :
    ((x :: rest).forM g).Leaves ts fun _ => P :=
  fun b ts' hrun => h b ts' (run_forM_cons g x rest ts ▸ hrun)

theorem forM {g : α → UnitOfWork Unit} {xs : List α} {P : Tables → Prop} (hts : P ts)
    (h : ∀ x ∈ xs, ∀ ts, P ts → (g x).Leaves ts fun _ => P) : (xs.forM g).Leaves ts fun _ => P := by
  induction xs generalizing ts with
  | nil => exact pure hts
  | cons x rest ih =>
    exact forM_cons <| bind (h x List.mem_cons_self ts hts) fun _ _ hnext =>
      ih hnext fun y hy => h y (List.mem_cons_of_mem _ hy)

section Records

variable {m : Model} {record id : Json} {fresh : Table → String}

theorem merge (m : Model) (record : Json) (ts : Tables) :
    (UnitOfWork.merge m record).Leaves ts fun saved ts' => saved = record ∧
      ∃ id key, m.identityOf record = some id ∧ RecordKey.of? id = some key ∧
        ts' = ts.put m.path key record := by
  intro saved ts' hrun
  unfold UnitOfWork.merge at hrun
  split at hrun
  · cases hrun
  · next id hid =>
    obtain ⟨key, next, hkey, hwrite⟩ := run_bind_eq_ok_iff.mp hrun
    obtain ⟨hk, rfl⟩ := run_lift_eq_ok_iff.mp hkey
    obtain ⟨⟨⟩, last, hput, hpure⟩ := run_bind_eq_ok_iff.mp hwrite
    obtain ⟨rfl, rfl⟩ := run_pure_eq_ok_iff.mp hpure
    exact ⟨rfl, id, key, hid, keyOf_eq_ok_iff.mp hk, (Prod.mk.inj hput).2.symm⟩

theorem nextIdentity (fresh : Table → String) (m : Model) (ts : Tables) :
    (UnitOfWork.nextIdentity fresh m).Leaves ts fun _ ts' =>
      ts.Grows ts' ∧ ∀ path key, ts'.row? path key = ts.row? path key := by
  intro id ts' hrun
  obtain ⟨-, ⟨-, hnumber⟩ | ⟨-, -, rfl⟩⟩ := nextIdentity_cases hrun
  · refine ⟨?_, row?_of_run_nextNumber hnumber⟩
    rw [(run_nextNumber hnumber).2]
    exact ts.grows_advance m.path
  · exact ⟨.refl ts', fun _ _ => rfl⟩

/-- A record is put under its own identity or a new one, whose key is free. -/
theorem persist (h : record.IsObject) :
    (UnitOfWork.persist fresh m record).Leaves ts fun saved ts' => ∃ id next key,
      (m.identityOf record = some id ∧ next = ts ∨
        m.identityOf record = none ∧ (UnitOfWork.nextIdentity fresh m).run ts = (.ok id, next)) ∧
      saved = record.set m.identity id ∧ RecordKey.of? id = some key ∧
        next.row? m.path key = none ∧ ts' = next.put m.path key saved := by
  intro saved ts' hrun
  rw [persist_eq fresh m h] at hrun
  obtain ⟨id, next, hid, hadd⟩ := run_bind_eq_ok_iff.mp hrun
  obtain ⟨rfl, key, hk, hfree, rfl⟩ := run_persistAs hadd
  refine ⟨id, next, key, ?_, rfl, hk, hfree, rfl⟩
  split at hid
  · next x hx =>
    obtain ⟨rfl, rfl⟩ := run_pure_eq_ok_iff.mp hid
    exact .inl ⟨hx, rfl⟩
  · next hx => exact .inr ⟨hx, hid⟩

theorem remove (m : Model) (id : Json) (ts : Tables) :
    (UnitOfWork.remove m id).Leaves ts fun _ ts' =>
      ∃ key, RecordKey.of? id = some key ∧ (ts' = ts ∨ ts' = ts.erase m.path key) := by
  intro present ts' hrun
  obtain ⟨key, next, hkey, -⟩ := run_bind_eq_ok_iff.mp hrun
  have hk := keyOf_eq_ok_iff.mp (run_lift_eq_ok_iff.mp hkey).1
  rw [run_remove hk] at hrun
  refine ⟨key, hk, ?_⟩
  rw [← (Prod.mk.inj hrun).2]
  split
  · exact .inr rfl
  · exact .inl rfl

end Records

end Leaves

end UnitOfWork

end EntityGraph
