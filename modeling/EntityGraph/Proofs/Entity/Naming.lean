import EntityGraph.Proofs.Coercion.Result
import EntityGraph.Proofs.Entity.Record

namespace EntityGraph

section First

variable {α : Type} {same : α → α → Bool} {xs ys acc : List α}

/-- The elements of a list in their order, of those that are the same only the first. Whatever the list
begins with, the result begins with elements of it that are the same as all of these. -/
structure FirstOfEach (same : α → α → Bool) (xs ys : List α) : Prop where
  sublist : ys.Sublist xs
  distinct : ys.Pairwise fun a b => same a b = false
  first : ∀ front, front <+: xs → ∃ chosen, chosen <+: ys ∧ chosen.Sublist front ∧
    ∀ x ∈ front, ∃ y ∈ chosen, same y x = true

theorem foldl_insertNew_sublist (same : α → α → Bool) (xs acc : List α) :
    (xs.foldl (insertNew same) acc).Sublist (acc ++ xs) := by
  induction xs generalizing acc with
  | nil => exact List.sublist_append_left acc []
  | cons x rest ih =>
    have hinsert : (insertNew same acc x).Sublist (acc ++ [x]) := by
      unfold insertNew
      split
      · exact List.sublist_append_left acc [x]
      · exact List.Sublist.refl _
    rw [List.foldl_cons, List.append_cons]
    exact (ih _).trans (hinsert.append_right rest)

theorem firstOfEach_distinctBy (h : ∀ x ∈ xs, same x x = true) :
    FirstOfEach same xs (distinctBy same xs) := by
  refine ⟨foldl_insertNew_sublist same xs [], pairwise_distinctBy same xs, ?_⟩
  rintro front ⟨back, rfl⟩
  -- what the front gives is settled before the rest is looked at
  refine ⟨distinctBy same front, ?_, foldl_insertNew_sublist same front [], fun x hx => ?_⟩
  · rw [distinctBy, distinctBy, List.foldl_append]
    exact prefix_foldl_insertNew same back _
  · exact exists_same_distinctBy hx (h x (List.mem_append_left back hx))

end First

theorem Json.sameIdentity_self {v : Json} (h : v ≠ .null) : v.sameIdentity v = true := by
  rw [sameIdentity, beq_iff_eq]
  cases v with
  | null => exact absurd rfl h
  | num n =>
    refine congrArg some ?_
    unfold Number.compare
    cases n.signed? with
    | some i =>
      change Ord.compare i i = .eq
      exact Std.ReflCmp.compare_self
    | none =>
      change Ord.compare n.toDouble.units n.toDouble.units = .eq
      exact Std.ReflCmp.compare_self
  | str s => exact congrArg some (Std.ReflCmp.compare_self)
  | bool b => exact congrArg some (Std.ReflCmp.compare_self)
  | arr items => exact if_pos (beq_self_eq_true _)
  | obj members => exact if_pos (beq_self_eq_true _)

theorem Registry.sameEntity_self (m : Model) (v : Json) : sameEntity m v v = true := by
  unfold sameEntity
  cases hid : m.identityOf v with
  | none => exact beq_self_eq_true v
  | some id => exact Json.sameIdentity_self (Model.identityOf_eq_some_iff.mp hid).2

/-- The references that a payload lists for a collection: those under the key of identities, where one
that is no list stands for itself, or else those in a list under the name. Null lists none. -/
inductive Relation.Lists (r : Relation) (payload : Json) : List Json → Prop
  | identities {v : Json} (h : payload.get? r.idsKey = some v) : Lists r payload v.references
  | items {references : List Json} (hkey : payload.get? r.idsKey = none)
      (h : payload.get? r.name = some (.arr references)) : Lists r payload references
  | null (hkey : payload.get? r.idsKey = none) (h : payload.get? r.name = some .null) :
      Lists r payload []

namespace Registry

section Specification

variable (g : Registry) (ts : Tables) (target : Model) (r : Relation) (payload : Json)

/-- The entity of the stored record that a reference names. -/
def Names (reference v : Json) : Prop :=
  ∃ id record, target.referenceId? reference = some id ∧ ts.find? target.path id = some record ∧
    v = g.fromRecord target record

inductive NamesAmong : List Json → List Json → Prop
  | nil : NamesAmong [] []
  | skip {reference : Json} {rest vs : List Json} (h : ∀ v, ¬g.Names ts target reference v)
      (hrest : NamesAmong rest vs) : NamesAmong (reference :: rest) vs
  | take {reference v : Json} {rest vs : List Json} (h : g.Names ts target reference v)
      (hrest : NamesAmong rest vs) : NamesAmong (reference :: rest) (v :: vs)

/-- What a source gives: null by an explicit null, or the entity that it names. -/
inductive Gives : Option Json → Json → Prop
  | null : Gives (some .null) .null
  | named {reference v : Json} (h : g.Names ts target reference v) : Gives (some reference) v

/-- What a to-one relation is bound to: what the key of the identity gives, or else what the name gives,
or else what it had before. -/
inductive BindsOne (prior : Option Json) : Option Json → Prop
  | identity {v : Json} (h : g.Gives ts target (payload.get? r.idKey) v) : BindsOne prior (some v)
  | name {v : Json} (hkey : ∀ w, ¬g.Gives ts target (payload.get? r.idKey) w)
      (h : g.Gives ts target (payload.get? r.name) v) : BindsOne prior (some v)
  | prior (hkey : ∀ w, ¬g.Gives ts target (payload.get? r.idKey) w)
      (hname : ∀ w, ¬g.Gives ts target (payload.get? r.name) w) : BindsOne prior prior

/-- What a collection is bound to: what is named among the references that are listed, each entity once,
or else what it had before. -/
inductive BindsMany (prior : Option Json) : Option Json → Prop
  | listed {references found vs : List Json} (h : r.Lists payload references)
      (hfound : g.NamesAmong ts target references found)
      (hvs : FirstOfEach (sameEntity target) found vs) : BindsMany prior (some (.arr vs))
  | prior (h : ∀ references, ¬r.Lists payload references) : BindsMany prior prior

end Specification

variable {g : Registry} {ts : Tables} {target : Model} {r : Relation} {payload v : Json}
  {source : Option Json}

theorem fetch?_eq_some_iff {reference : Json} :
    g.fetch? ts target reference = some v ↔ g.Names ts target reference v := by
  simp only [fetch?, Option.map_eq_some_iff, Option.bind_eq_some_iff, Names]
  constructor
  · rintro ⟨record, ⟨id, hid, hfind⟩, rfl⟩
    exact ⟨id, record, hid, hfind, rfl⟩
  · rintro ⟨id, record, hid, hfind, rfl⟩
    exact ⟨record, ⟨id, hid, hfind⟩, rfl⟩

theorem namesAmong_filterMap (g : Registry) (ts : Tables) (target : Model) (references : List Json) :
    g.NamesAmong ts target references (references.filterMap (g.fetch? ts target)) := by
  induction references with
  | nil => exact .nil
  | cons reference rest ih =>
    cases hfetch : g.fetch? ts target reference with
    | none =>
      rw [List.filterMap_cons_none hfetch]
      refine .skip (fun v hv => ?_) ih
      rw [fetch?_eq_some_iff.mpr hv] at hfetch
      cases hfetch
    | some v =>
      rw [List.filterMap_cons_some hfetch]
      exact .take (fetch?_eq_some_iff.mp hfetch) ih

theorem exists_fetchAll_eq (g : Registry) (ts : Tables) (target : Model) (references : List Json) :
    ∃ found vs, g.fetchAll ts target references = .arr vs ∧ g.NamesAmong ts target references found ∧
      FirstOfEach (sameEntity target) found vs :=
  ⟨_, _, rfl, namesAmong_filterMap g ts target references,
    firstOfEach_distinctBy fun v _ => sameEntity_self target v⟩

section One

variable (hr : r.isCollection = false)

include hr

theorem boundByIdentity_of_single (hv : v ≠ .null) :
    g.boundByIdentity ts target r v = g.fetch? ts target v := by
  unfold boundByIdentity
  rw [hr]
  cases v with
  | null => exact absurd rfl hv
  | _ => rfl

theorem boundByName_of_single (v : Json) :
    g.boundByName ts target r v = g.boundByIdentity ts target r v := by
  unfold boundByName boundByIdentity
  rw [hr]
  cases v <;> rfl

theorem boundByIdentity_null : g.boundByIdentity ts target r .null = some .null := by
  rw [boundByIdentity, Relation.empty, hr, if_neg Bool.false_ne_true]

theorem bind_boundByIdentity_iff :
    source.bind (g.boundByIdentity ts target r) = some v ↔ g.Gives ts target source v := by
  constructor
  · intro hbound
    obtain ⟨reference, rfl, h⟩ := Option.bind_eq_some_iff.mp hbound
    by_cases hnull : reference = .null
    · rw [hnull, boundByIdentity_null hr] at h
      exact hnull ▸ Option.some.inj h ▸ .null
    · rw [boundByIdentity_of_single hr hnull] at h
      exact .named (fetch?_eq_some_iff.mp h)
  · intro h
    cases h with
    | null => rw [Option.bind_some, boundByIdentity_null hr]
    | @named reference _ h =>
      have hnull : reference ≠ .null := by
        rintro rfl
        obtain ⟨id, record, hid, -⟩ := h
        rw [Model.referenceId?_null] at hid
        cases hid
      rw [Option.bind_some, boundByIdentity_of_single hr hnull, fetch?_eq_some_iff.mpr h]

theorem bindsOne_bound? (prior : Option Json) :
    g.BindsOne ts target r payload prior ((g.bound? ts target r payload).or prior) := by
  have hkey : r.identityKey = r.idKey := by
    rw [Relation.identityKey, hr, if_neg Bool.false_ne_true]
  have hnot {source : Option Json} (h : source.bind (g.boundByIdentity ts target r) = none)
      (w : Json) : ¬g.Gives ts target source w := by
    intro hw
    rw [(bind_boundByIdentity_iff hr).mpr hw] at h
    cases h
  have hbyName : g.boundByName ts target r = g.boundByIdentity ts target r :=
    funext (boundByName_of_single hr)
  rw [bound?, hkey, hbyName]
  cases hid : (payload.get? r.idKey).bind (g.boundByIdentity ts target r) with
  | some v => exact .identity ((bind_boundByIdentity_iff hr).mp hid)
  | none =>
    cases hname : (payload.get? r.name).bind (g.boundByIdentity ts target r) with
    | some v => exact .name (hnot hid) ((bind_boundByIdentity_iff hr).mp hname)
    | none => exact .prior (hnot hid) (hnot hname)

end One

section Many

variable (hr : r.isCollection = true)

include hr

theorem boundByIdentity_of_collection (v : Json) :
    g.boundByIdentity ts target r v = some (g.fetchAll ts target v.references) := by
  unfold boundByIdentity
  rw [hr]
  cases v with
  | null =>
    rw [Relation.empty, hr]
    rfl
  | _ => rfl

theorem boundByName_null : g.boundByName ts target r .null = some (g.fetchAll ts target []) := by
  rw [boundByName, Relation.empty, hr]
  rfl

theorem boundByName_arr (references : List Json) :
    g.boundByName ts target r (.arr references) = some (g.fetchAll ts target references) := by
  unfold boundByName
  rw [hr]

theorem boundByName_eq_none (hnull : v ≠ .null) (hitems : ∀ references, v ≠ .arr references) :
    g.boundByName ts target r v = none := by
  unfold boundByName
  rw [hr]
  cases v with
  | null => exact absurd rfl hnull
  | arr references => exact absurd rfl (hitems references)
  | _ => rfl

theorem bindsMany_bound? (prior : Option Json) :
    g.BindsMany ts target r payload prior ((g.bound? ts target r payload).or prior) := by
  have hkey : r.identityKey = r.idsKey := by rw [Relation.identityKey, if_pos hr]
  have hlisted {references : List Json} (h : r.Lists payload references) :
      g.BindsMany ts target r payload prior (some (g.fetchAll ts target references)) := by
    obtain ⟨found, vs, heq, hfound, hvs⟩ := exists_fetchAll_eq g ts target references
    exact heq ▸ .listed h hfound hvs
  rw [bound?, hkey]
  cases hids : payload.get? r.idsKey with
  | some v =>
    rw [Option.bind_some, boundByIdentity_of_collection hr]
    exact hlisted (.identities hids)
  | none =>
    have hnone (h : ∀ v, payload.get? r.name = some v → v ≠ .null ∧ ∀ items, v ≠ .arr items)
        (references : List Json) : ¬r.Lists payload references := by
      rintro (⟨hv⟩ | ⟨-, hv⟩ | ⟨-, hv⟩)
      · rw [hids] at hv
        cases hv
      · exact (h _ hv).2 _ rfl
      · exact (h _ hv).1 rfl
    cases hname : payload.get? r.name with
    | none => exact .prior (hnone fun v hv => nomatch hname.symm.trans hv)
    | some v =>
      rw [Option.bind_none, Option.none_or, Option.bind_some]
      by_cases hnull : v = .null
      · rw [hnull] at hname ⊢
        rw [boundByName_null hr]
        exact hlisted (.null hids hname)
      by_cases hitems : ∃ references, v = .arr references
      · obtain ⟨references, rfl⟩ := hitems
        rw [boundByName_arr hr]
        exact hlisted (.items hids hname)
      · rw [boundByName_eq_none hr hnull fun references h => hitems ⟨references, h⟩]
        refine .prior (hnone fun w hw => ?_)
        obtain rfl := Option.some.inj (hname.symm.trans hw)
        exact ⟨hnull, fun references h => hitems ⟨references, h⟩⟩

end Many

end Registry

end EntityGraph
