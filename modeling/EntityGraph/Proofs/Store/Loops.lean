import EntityGraph.Proofs.Store.Assertions
import Mathlib.Data.List.Induction

namespace EntityGraph.UnitOfWork

variable {α β ι : Type} {u : UnitOfWork α} {f : α → UnitOfWork Unit} {P : Tables → Prop} {ts : Tables}
  {xs ys : List α}

theorem run_bind_congr {k k' : α → UnitOfWork β}
    (h : ∀ a next, u.run ts = (.ok a, next) → (k a).run next = (k' a).run next) :
    (u >>= k).run ts = (u >>= k').run ts := by
  rw [run_bind, run_bind]
  rcases hu : u.run ts with ⟨e | a, next⟩
  · rfl
  · exact h a next hu

theorem run_bind_assoc {γ : Type} (u : UnitOfWork α) (f : α → UnitOfWork β) (g : β → UnitOfWork γ)
    (ts : Tables) : (u >>= f >>= g).run ts = (u >>= fun a => f a >>= g).run ts := by
  rw [run_bind, run_bind, run_bind]
  rcases u.run ts with ⟨e | a, next⟩ <;> rfl

theorem run_bind_pure (u : UnitOfWork α) (ts : Tables) : (u >>= pure).run ts = u.run ts := by
  rw [run_bind]
  rcases u.run ts with ⟨e | a, next⟩ <;> rfl

instance : LawfulMonad UnitOfWork :=
  .mk' UnitOfWork (fun u => funext (run_bind_pure u)) (fun _ _ => rfl)
    fun u f g => funext (run_bind_assoc u f g)

theorem run_forM_append (f : α → UnitOfWork Unit) (xs ys : List α) (ts : Tables) :
    ((xs ++ ys).forM f).run ts = (xs.forM f >>= fun _ => ys.forM f).run ts :=
  congrArg (run · ts) List.forM_append

theorem forM_filterMap {g : β → UnitOfWork Unit} {h : β → Option α} {zs : List β}
    (hsame : ∀ z ∈ zs, ∃ x, h z = some x ∧ g z = f x) : zs.forM g = (zs.filterMap h).forM f := by
  induction zs with
  | nil => rfl
  | cons z rest ih =>
    obtain ⟨x, hx, hz⟩ := hsame z List.mem_cons_self
    rw [List.filterMap_cons_some hx]
    change (g z >>= fun _ => rest.forM g) = (f x >>= fun _ => (rest.filterMap h).forM f)
    rw [hz, ih fun y hy => hsame y (List.mem_cons_of_mem _ hy)]

theorem run_forM_flatMap {is : List ι} {a b : ι → List α} (hts : P ts)
    (hkeeps : ∀ i ∈ is, ∀ ts, P ts → ((b i).forM f).Leaves ts fun _ => P)
    (h : ∀ i ∈ is, ∀ ts, P ts → ((a i).forM f).run ts = ((b i).forM f).run ts) :
    ((is.flatMap a).forM f).run ts = ((is.flatMap b).forM f).run ts := by
  induction is generalizing ts with
  | nil => rfl
  | cons i rest ih =>
    have hrest (next : Tables) (hnext : P next) :
        ((rest.flatMap a).forM f).run next = ((rest.flatMap b).forM f).run next :=
      ih hnext (fun j hj => hkeeps j (List.mem_cons_of_mem _ hj))
        fun j hj => h j (List.mem_cons_of_mem _ hj)
    rw [List.flatMap_cons, List.flatMap_cons, run_forM_append, run_forM_append, run_bind,
      h i List.mem_cons_self ts hts, ← run_bind]
    exact run_bind_congr fun _ next hnext =>
      hrest next (hkeeps i List.mem_cons_self ts hts _ next hnext)

/-- Rounds that find nothing to do once they have been made need to be made only for one of any elements
that are the same. -/
theorem run_forM_distinctBy {same : α → α → Bool} {Done : α → Tables → Prop} (hts : P ts)
    (hstep : ∀ x ∈ xs, ∀ ts, P ts → ∃ ts', (f x).run ts = (.ok (), ts') ∧ P ts' ∧ Done x ts' ∧
      ∀ y ∈ xs, Done y ts → Done y ts')
    (hidle : ∀ x ∈ xs, ∀ y ∈ xs, same y x = true → ∀ ts, Done y ts → (f x).run ts = (.ok (), ts)) :
    (xs.forM f).run ts = ((distinctBy same xs).forM f).run ts := by
  obtain ⟨ts', hall, hdistinct, -, -⟩ : ∃ ts', (xs.forM f).run ts = (.ok (), ts') ∧
      ((distinctBy same xs).forM f).run ts = (.ok (), ts') ∧ P ts' ∧
        ∀ y ∈ distinctBy same xs, Done y ts' := by
    -- what has been done stays done, so the induction runs from the end of the list
    induction xs using List.reverseRecOn with
    | nil => exact ⟨ts, rfl, rfl, hts, fun _ h => absurd h List.not_mem_nil⟩
    | append_singleton xs x ih =>
      have hmem {y : α} (hy : y ∈ xs) : y ∈ xs ++ [x] := List.mem_append_left _ hy
      have hlast : x ∈ xs ++ [x] := List.mem_append_right _ (List.mem_singleton_self x)
      obtain ⟨ts₁, hall, hdistinct, hts₁, hdone⟩ := ih (fun y hy ts hts => by
          obtain ⟨ts', hrun, hP, hself, hothers⟩ := hstep y (hmem hy) ts hts
          exact ⟨ts', hrun, hP, hself, fun z hz => hothers z (hmem hz)⟩)
        fun y hy z hz => hidle y (hmem hy) z (hmem hz)
      have hone (next : Tables) : (List.forM [x] f).run next = (f x).run next := by
        change (f x >>= fun _ => pure ()).run next = _
        rw [run_bind]
        rcases (f x).run next with ⟨e | ⟨⟩, next'⟩ <;> rfl
      have hsplit : distinctBy same (xs ++ [x]) = insertNew same (distinctBy same xs) x := by
        rw [distinctBy, List.foldl_append]
        rfl
      rw [run_forM_append, run_bind_of_ok hall, hone, hsplit]
      unfold insertNew
      split
      · next hany =>
        obtain ⟨y, hy, hsame⟩ := List.any_eq_true.mp hany
        have hrun := hidle x hlast y (hmem (mem_of_mem_distinctBy hy)) hsame ts₁ (hdone y hy)
        exact ⟨ts₁, hrun, hdistinct, hts₁, hdone⟩
      · obtain ⟨ts', hrun, hts', hself, hothers⟩ := hstep x hlast ts₁ hts₁
        refine ⟨ts', hrun, ?_, hts', fun y hy => ?_⟩
        · rw [run_forM_append, run_bind_of_ok hdistinct, hone, hrun]
        · rcases List.mem_append.mp hy with hy | hy
          · exact hothers y (hmem (mem_of_mem_distinctBy hy)) (hdone y hy)
          · exact List.mem_singleton.mp hy ▸ hself
  rw [hall, hdistinct]

end EntityGraph.UnitOfWork
