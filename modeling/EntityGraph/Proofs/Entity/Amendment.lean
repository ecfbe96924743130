import EntityGraph.Proofs.Json.Members
import Mathlib.Data.List.Nodup

namespace EntityGraph

namespace Json

variable {v : Json} {key other : String} {f f' : Option Json → Option Json}

/-- Give an object the member that its present one leads to, if it leads to one. -/
def amend (v : Json) (key : String) (f : Option Json → Option Json) : Json :=
  match f (v.get? key) with
  | some x => v.set key x
  | none => v

def follow (f f' : Option Json → Option Json) (prior : Option Json) : Option Json :=
  (f' ((f prior).or prior)).or (f prior)

theorem amend_of_not_isObject (hv : ¬v.IsObject) (key : String) (f : Option Json → Option Json) :
    v.amend key f = v := by
  unfold amend
  split
  · cases v with
    | obj members => exact absurd (isObject_obj members) hv
    | _ => rfl
  · rfl

theorem get?_amend_of_ne (v : Json) (h : key ≠ other) (f : Option Json → Option Json) :
    (v.amend key f).get? other = v.get? other := by
  unfold amend
  split
  · exact get?_set_of_ne v h _
  · rfl

theorem get?_amend_self (h : v.IsObject) (key : String) (f : Option Json → Option Json) :
    (v.amend key f).get? key = (f (v.get? key)).or (v.get? key) := by
  unfold amend
  cases f (v.get? key) with
  | none => rw [Option.none_or]
  | some x => rw [Option.some_or, get?_set_self h]

theorem IsObject.amend (h : v.IsObject) (key : String) (f : Option Json → Option Json) :
    (v.amend key f).IsObject := by
  unfold Json.amend
  split
  · exact h.set key _
  · exact h

theorem amend_comm (v : Json) (h : key ≠ other) (f f' : Option Json → Option Json) :
    (v.amend key f).amend other f' = (v.amend other f').amend key f := by
  have hleft : (v.amend key f).amend other f' = match f' (v.get? other) with
      | some y => (v.amend key f).set other y
      | none => v.amend key f := by
    rw [← get?_amend_of_ne v h f]
    rfl
  have hright : (v.amend other f').amend key f = match f (v.get? key) with
      | some x => (v.amend other f').set key x
      | none => v.amend other f' := by
    rw [← get?_amend_of_ne v h.symm f']
    rfl
  rw [hleft, hright]
  unfold amend
  cases f (v.get? key) with
  | none => rfl
  | some x =>
    cases f' (v.get? other) with
    | none => rfl
    | some y => exact set_comm v h x y

theorem amend_amend (v : Json) (key : String) (f f' : Option Json → Option Json) :
    (v.amend key f).amend key f' = v.amend key (follow f f') := by
  by_cases hv : v.IsObject
  · cases hf : f (v.get? key) with
    | none =>
      have hsame : v.amend key f = v := by rw [amend, hf]
      rw [hsame, amend, amend, follow, hf, Option.none_or, Option.or_none]
    | some x =>
      have hset : v.amend key f = v.set key x := by rw [amend, hf]
      rw [hset, amend, amend, follow, hf, Option.some_or, get?_set_self hv]
      cases f' (some x) with
      | none => rfl
      | some y => exact set_set_self v key x y
  · rw [amend_of_not_isObject hv, amend_of_not_isObject hv, amend_of_not_isObject hv]

section Stable

/-- What a change leads to is changed no more. -/
def Stable (f : Option Json → Option Json) : Prop :=
  ∀ prior v, f prior = some v → (f (some v)).or (some v) = some v

theorem Stable.follow_self (h : Stable f) : follow f f = f := by
  funext prior
  unfold follow
  cases hf : f prior with
  | none => rw [Option.none_or, hf, Option.or_none]
  | some x => rw [Option.some_or, h prior x hf]

theorem follow_const_none (f : Option Json → Option Json) : follow (fun _ => none) f = f := by
  funext prior
  rw [follow, Option.none_or, Option.or_none]

theorem follow_const_some (x : Json) (f : Option Json → Option Json) :
    follow (fun _ => some x) f = fun _ => (f (some x)).or (some x) := rfl

theorem Stable.follow_const (h : Stable f) (b : Option Json) : Stable (follow (fun _ => b) f) := by
  cases b with
  | none => rwa [follow_const_none]
  | some x =>
    intro prior v hv
    rw [follow_const_some] at hv ⊢
    rw [hv, Option.some_or]

theorem Stable.follow_const_self (h : Stable f) (b : Option Json) :
    follow (follow (fun _ => b) f) f = follow (fun _ => b) f := by
  cases b with
  | none => rw [follow_const_none, h.follow_self]
  | some x =>
    rw [follow_const_some]
    funext prior
    unfold follow
    cases hf : f (some x) with
    | none => rw [Option.none_or, Option.some_or, hf, Option.none_or]
    | some y => rw [Option.some_or, Option.some_or, h _ y hf]

end Stable

section All

variable {rs : List Relation} {r : Relation} {change change' : Relation → Option Json → Option Json}

def amendAll (v : Json) (rs : List Relation) (change : Relation → Option Json → Option Json) : Json :=
  rs.foldl (fun v r => v.amend r.name (change r)) v

theorem amendAll_none (v : Json) (rs : List Relation) : v.amendAll rs (fun _ _ => none) = v :=
  List.foldl_fixed rs

theorem amendAll_of_not_isObject (hv : ¬v.IsObject) (rs : List Relation)
    (change : Relation → Option Json → Option Json) : v.amendAll rs change = v := by
  induction rs with
  | nil => rfl
  | cons r rest ih =>
    rw [amendAll, List.foldl_cons, amend_of_not_isObject hv]
    exact ih

theorem IsObject.amendAll (h : v.IsObject) (rs : List Relation)
    (change : Relation → Option Json → Option Json) : (v.amendAll rs change).IsObject := by
  induction rs generalizing v with
  | nil => exact h
  | cons r rest ih => exact ih (h.amend r.name (change r))

theorem amendAll_congr (h : ∀ r ∈ rs, change r = change' r) (v : Json) :
    v.amendAll rs change = v.amendAll rs change' :=
  List.foldl_ext _ _ v fun _ r hr => by rw [h r hr]

theorem get?_amendAll_of_ne (v : Json) (h : ∀ r ∈ rs, r.name ≠ other)
    (change : Relation → Option Json → Option Json) :
    (v.amendAll rs change).get? other = v.get? other := by
  induction rs generalizing v with
  | nil => rfl
  | cons r rest ih =>
    exact (ih _ fun o ho => h o (List.mem_cons_of_mem _ ho)).trans
      (v.get?_amend_of_ne (h r List.mem_cons_self) _)

theorem get?_amendAll_self (hd : (rs.map Relation.name).Nodup) (hr : r ∈ rs) (h : v.IsObject)
    (change : Relation → Option Json → Option Json) :
    (v.amendAll rs change).get? r.name = (change r (v.get? r.name)).or (v.get? r.name) := by
  induction rs generalizing v with
  | nil => exact absurd hr List.not_mem_nil
  | cons o rest ih =>
    obtain ⟨ho, hrest⟩ := List.nodup_cons.mp hd
    have hne : ∀ p ∈ rest, p.name ≠ o.name := fun p hp he => ho (List.mem_map.mpr ⟨p, hp, he⟩)
    rcases List.mem_cons.mp hr with rfl | hr
    · exact (get?_amendAll_of_ne _ hne change).trans (get?_amend_self h r.name _)
    · have hrelated := ih hrest hr (h.amend o.name (change o))
      rwa [get?_amend_of_ne v (hne r hr).symm] at hrelated

theorem amendAll_amend (v : Json) (h : ∀ r ∈ rs, r.name ≠ other)
    (change : Relation → Option Json → Option Json) (f : Option Json → Option Json) :
    (v.amend other f).amendAll rs change = (v.amendAll rs change).amend other f := by
  induction rs generalizing v with
  | nil => rfl
  | cons r rest ih =>
    have hrest := ih (v.amend r.name (change r)) fun o ho => h o (List.mem_cons_of_mem _ ho)
    rw [amend_comm v (h r List.mem_cons_self)] at hrest
    exact hrest

/-- Relations with different names may be changed twice each instead of all of them twice. -/
theorem amendAll_amendAll (hd : (rs.map Relation.name).Nodup) (v : Json) :
    (v.amendAll rs change).amendAll rs change' =
      v.amendAll rs fun r => follow (change r) (change' r) := by
  induction rs generalizing v with
  | nil => rfl
  | cons r rest ih =>
    obtain ⟨hr, hrest⟩ := List.nodup_cons.mp hd
    have hne : ∀ o ∈ rest, o.name ≠ r.name := fun o ho he => hr (List.mem_map.mpr ⟨o, ho, he⟩)
    calc (v.amendAll (r :: rest) change).amendAll (r :: rest) change'
        = (((v.amend r.name (change r)).amendAll rest change).amend r.name (change' r)).amendAll
            rest change' := rfl
      _ = ((v.amend r.name (follow (change r) (change' r))).amendAll rest change).amendAll
            rest change' := by
          rw [← amendAll_amend _ hne, amend_amend]
      _ = _ := ih hrest _

end All

end Json

end EntityGraph
