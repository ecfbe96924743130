import EntityGraph.Proofs.Store.Session
import EntityGraph.Proofs.Store.Steps

namespace EntityGraph

namespace UnitOfWork

variable {α β : Type}

/-- All errors that the unit of work can fail with satisfy `E`. -/
def FailsWith (u : UnitOfWork α) (E : Error → Prop) : Prop :=
  ∀ ts e ts', u.run ts = (.error e, ts') → E e

namespace FailsWith

variable {u : UnitOfWork α} {f : α → UnitOfWork β} {E : Error → Prop}

theorem pure (a : α) : (Pure.pure a : UnitOfWork α).FailsWith E :=
  fun _ _ _ hrun => nomatch hrun

theorem bind (h : u.FailsWith E) (hf : ∀ a, (f a).FailsWith E) : (u >>= f).FailsWith E := by
  intro ts e ts' hrun
  rw [run_bind] at hrun
  rcases hu : u.run ts with ⟨e' | a, next⟩
  · rw [hu] at hrun
    obtain rfl := Except.error.inj (Prod.mk.inj hrun).1
    exact h ts e' next hu
  · rw [hu] at hrun
    exact hf a next e ts' hrun

theorem read (g : Tables → α) : (UnitOfWork.read g).FailsWith E :=
  fun _ _ _ hrun => nomatch hrun

theorem modify (g : Tables → Tables) : (UnitOfWork.modify g).FailsWith E :=
  fun _ _ _ hrun => nomatch hrun

theorem attempt {g : Tables → Except Error α} (h : ∀ ts e, g ts = .error e → E e) :
    (UnitOfWork.attempt g).FailsWith E :=
  fun ts e _ hrun => h ts e (Prod.mk.inj hrun).1

theorem lift {r : Except Error α} (h : ∀ e, r = .error e → E e) :
    (liftM r : UnitOfWork α).FailsWith E :=
  fun _ e _ hrun => h e (Prod.mk.inj hrun).1

theorem throw {e : Error} (h : E e) : (MonadExcept.throw e : UnitOfWork α).FailsWith E := by
  intro ts e' ts' hrun
  exact Except.error.inj (Prod.mk.inj hrun).1 ▸ h

theorem discard (h : u.FailsWith E) : (discard u).FailsWith E := by
  intro ts e ts' hrun
  rw [run_discard] at hrun
  rcases hu : u.run ts with ⟨e' | a, next⟩
  · rw [hu] at hrun
    obtain rfl := Except.error.inj (Prod.mk.inj hrun).1
    exact h ts e' next hu
  · rw [hu] at hrun
    cases hrun

theorem forM {g : α → UnitOfWork Unit} {xs : List α} (h : ∀ x ∈ xs, (g x).FailsWith E) :
    (xs.forM g).FailsWith E := by
  induction xs with
  | nil => exact pure ()
  | cons x rest ih =>
    exact bind (h x List.mem_cons_self) fun _ => ih fun y hy => h y (List.mem_cons_of_mem _ hy)

section Records

variable {m : Model} (h : ∀ e, E (.storage e))

include h

theorem keyOf (id : Json) : (liftM (UnitOfWork.keyOf m id) : UnitOfWork RecordKey).FailsWith E := by
  refine lift fun e he => ?_
  unfold UnitOfWork.keyOf at he
  split at he
  · cases he
  · exact Except.error.inj he ▸ h _

theorem merge (record : Json) : (UnitOfWork.merge m record).FailsWith E := by
  unfold UnitOfWork.merge
  split
  · exact throw (h _)
  · exact bind (keyOf h _) fun _ => bind (modify _) fun _ => pure _

theorem remove (id : Json) : (UnitOfWork.remove m id).FailsWith E :=
  bind (keyOf h id) fun _ => bind (read _) fun _ => bind (modify _) fun _ => pure _

end Records

end FailsWith

end UnitOfWork

theorem Store.run_failsWith {α : Type} {E : Error → Prop} {plan : Except Error (UnitOfWork α)}
    (hplan : ∀ e, plan = .error e → E e) (hunit : ∀ u, plan = .ok u → u.FailsWith E) (ts : Tables)
    {e : Error} (h : ((⟨ts, none⟩ : Store).run (committing plan)).1 = .error e) : E e := by
  cases plan with
  | error e' => exact Except.error.inj h ▸ hplan e' rfl
  | ok u =>
    rw [run_committing] at h
    rcases hu : u.run ts with ⟨e' | a, ts'⟩
    · rw [hu] at h
      exact Except.error.inj h ▸ hunit u rfl ts e' ts' hu
    · rw [hu] at h
      cases h

end EntityGraph
