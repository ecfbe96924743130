import EntityGraph.Text
import Mathlib.Data.List.TakeWhile

namespace EntityGraph.Text

variable {p : Char → Bool} {before cs after : List Char}

theorem dropWhile_eq_self (h : ∀ c ∈ cs, p c = false) : cs.dropWhile p = cs :=
  List.dropWhile_eq_self_iff.mpr fun hl => by simp [h _ (List.getElem_mem hl)]

theorem stripList_eq_self (h : ∀ c ∈ cs, p c = false) : stripList p cs = cs := by
  have hr : ∀ c ∈ cs.reverse, p c = false := fun c hc => h c (List.mem_reverse.mp hc)
  rw [stripList, dropWhile_eq_self h, dropWhile_eq_self hr, List.reverse_reverse]

theorem stripList_between (hbefore : ∀ c ∈ before, p c = true) (hafter : ∀ c ∈ after, p c = true) :
    stripList p (before ++ cs ++ after) = stripList p cs := by
  have hback : ∀ c ∈ after.reverse, p c = true := fun c hc => hafter c (List.mem_reverse.mp hc)
  rw [stripList, List.append_assoc, List.dropWhile_append_of_pos hbefore, List.dropWhile_append]
  cases hcs : cs.dropWhile p with
  | nil =>
    rw [List.isEmpty_nil, if_pos rfl, List.dropWhile_eq_nil_iff.mpr hafter, stripList, hcs]
  | cons x rest =>
    rw [List.isEmpty_cons, if_neg Bool.false_ne_true, List.reverse_append,
      List.dropWhile_append_of_pos hback, stripList, hcs]

theorem exists_around_stripList (p : Char → Bool) (cs : List Char) : ∃ before after,
    cs = before ++ stripList p cs ++ after ∧ (∀ c ∈ before, p c = true) ∧ ∀ c ∈ after, p c = true := by
  refine ⟨cs.takeWhile p, ((cs.dropWhile p).reverse.takeWhile p).reverse, ?_,
    fun c hc => List.mem_takeWhile_imp hc, fun c hc => List.mem_takeWhile_imp (List.mem_reverse.mp hc)⟩
  have hback : stripList p cs ++ ((cs.dropWhile p).reverse.takeWhile p).reverse = cs.dropWhile p := by
    rw [stripList, ← List.reverse_append, List.takeWhile_append_dropWhile, List.reverse_reverse]
  rw [List.append_assoc, hback, List.takeWhile_append_dropWhile]

theorem stripList_stripList (p : Char → Bool) (cs : List Char) :
    stripList p (stripList p cs) = stripList p cs := by
  obtain ⟨before, after, hcs, hbefore, hafter⟩ := exists_around_stripList p cs
  exact (stripList_between hbefore hafter).symm.trans (congrArg (stripList p) hcs.symm)

theorem stripList_isInfix (p : Char → Bool) (cs : List Char) : stripList p cs <:+: cs := by
  obtain ⟨before, after, hcs, -, -⟩ := exists_around_stripList p cs
  exact ⟨before, after, hcs.symm⟩

end EntityGraph.Text
