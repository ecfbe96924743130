import EntityGraph.Proofs.Service.Run

namespace EntityGraph

/-- Two outcomes are both failures, or both successes that leave the same state. -/
def SameEffect {α β σ : Type} (r : Except Error α × σ) (r' : Except Error β × σ) : Prop :=
  r.1.isOk = r'.1.isOk ∧ (r.1.isOk = true → r.2 = r'.2)

namespace SameEffect

variable {α β γ σ : Type} {r : Except Error α × σ} {r' : Except Error β × σ}
  {r'' : Except Error γ × σ}

theorem refl (r : Except Error α × σ) : SameEffect r r :=
  ⟨rfl, fun _ => rfl⟩

theorem trans (h : SameEffect r r') (h' : SameEffect r' r'') : SameEffect r r'' :=
  ⟨h.1.trans h'.1, fun hok => (h.2 hok).trans (h'.2 (h.1 ▸ hok))⟩

theorem errors (e e' : Error) (s s' : σ) :
    SameEffect ((.error e, s) : Except Error α × σ) ((.error e', s') : Except Error β × σ) :=
  ⟨rfl, fun h => nomatch h⟩

end SameEffect

namespace UnitOfWork

variable {α β γ δ : Type}

theorem run_bind_attempt (f : Tables → Except Error α) (k : α → UnitOfWork β) (ts : Tables) :
    (attempt f >>= k).run ts =
      match f ts with
      | .ok a => (k a).run ts
      | .error e => (.error e, ts) := by
  rw [run_bind, run_attempt]
  cases f ts <;> rfl

def Alike (u : UnitOfWork α) (v : UnitOfWork β) : Prop :=
  ∀ ts, SameEffect (u.run ts) (v.run ts)

namespace Alike

theorem trans {u : UnitOfWork α} {v : UnitOfWork β} {w : UnitOfWork γ} (h : u.Alike v)
    (h' : v.Alike w) : u.Alike w :=
  fun ts => (h ts).trans (h' ts)

theorem throw (e e' : Error) :
    (MonadExcept.throw e : UnitOfWork α).Alike (MonadExcept.throw e' : UnitOfWork β) :=
  fun ts => SameEffect.errors e e' ts ts

theorem bind (u : UnitOfWork α) {f : α → UnitOfWork β} {g : α → UnitOfWork γ}
    (h : ∀ a, (f a).Alike (g a)) : (u >>= f).Alike (u >>= g) := by
  intro ts
  rw [run_bind, run_bind]
  rcases u.run ts with ⟨e | a, next⟩
  · exact SameEffect.errors e e next next
  · exact h a next

theorem attempt {f : Tables → Except Error α} {g : Tables → Except Error β}
    (h : ∀ ts, (f ts).isOk = (g ts).isOk) :
    (UnitOfWork.attempt f).Alike (UnitOfWork.attempt g) :=
  fun ts => ⟨h ts, fun _ => rfl⟩

theorem attempt_comm (f : Tables → Except Error α) (g : Tables → Except Error β)
    (k : α → β → UnitOfWork γ) :
    (UnitOfWork.attempt f >>= fun a => UnitOfWork.attempt g >>= fun b => k a b).Alike
      (UnitOfWork.attempt g >>= fun b => UnitOfWork.attempt f >>= fun a => k a b) := by
  intro ts
  simp only [run_bind_attempt]
  cases f ts with
  | error e =>
    cases g ts with
    | error e' => exact SameEffect.errors e e' ts ts
    | ok b => exact SameEffect.refl _
  | ok a =>
    cases g ts with
    | error e' => exact SameEffect.refl _
    | ok b => exact SameEffect.refl _

end Alike

end UnitOfWork

namespace Store

variable {α β : Type}

theorem sameEffect_committing {u : UnitOfWork α} {v : UnitOfWork β} (h : u.Alike v) (store : Store) :
    SameEffect (store.run (committing (.ok u))) (store.run (committing (.ok v))) := by
  obtain ⟨start, outage⟩ := store
  cases outage with
  | some e => exact SameEffect.errors e e _ _
  | none =>
    rw [run_committing, run_committing]
    obtain ⟨hok, hts⟩ := h start
    rcases hu : u.run start with ⟨e | a, ts⟩ <;>
      rcases hv : v.run start with ⟨e' | b, ts'⟩ <;> rw [hu, hv] at hok hts
    · exact SameEffect.errors e e' _ _
    · cases hok
    · cases hok
    · obtain rfl : ts = ts' := hts rfl
      exact ⟨rfl, fun _ => rfl⟩

theorem sameEffect_run {ι κ : Type} {p : Except Error ι} {q : Except Error κ}
    {f : ι → κ → UnitOfWork α} {g : κ → ι → UnitOfWork β} (h : ∀ x y, (f x y).Alike (g y x))
    (store : Store) :
    SameEffect (store.run (committing do let x ← p; let y ← q; return f x y))
      (store.run (committing do let y ← q; let x ← p; return g y x)) := by
  cases p with
  | error e =>
    cases q with
    | error e' => exact SameEffect.errors e e' store store
    | ok y => exact SameEffect.errors e e store store
  | ok x =>
    cases q with
    | error e' => exact SameEffect.errors e' e' store store
    | ok y => exact sameEffect_committing (h x y) store

end Store

namespace Service

open Registry UnitOfWork

variable {s : Service} {m n : Model} {o i : Relation} {path : String} {a b : Json}

theorem relatedIdentity_of_bare {target : Model} {v : Json} (h : ¬v.IsObject) :
    relatedIdentity target v = target.coerceIdentity v := by
  cases v with
  | obj members => exact absurd (Json.isObject_obj members) h
  | _ => rfl

/-- An edit of a relation of a model that is there comes down to accepting both identities. -/
theorem relatedEdit_eq (hg : s.registry.Coherent) (hpath : s.registry.get? path = some m)
    (hr : o ∈ m.relations) (ht : s.registry.get? o.target = some n) (link : Bool) (a b : Json) :
    s.relatedEdit link path a o.name b = do
      let id ← m.coerceIdentity a
      let relatedId ← relatedIdentity n b
      return s.editBetween link m o n id relatedId := by
  have hm : s.registry.resolve path = .ok m := resolve_eq_ok_iff.mpr hpath
  have hr' : relation m o.name = .ok o :=
    relation_eq_ok_iff.mpr (hg.relation?_name (mem_of_get? hpath).1 hr)
  have ht' : s.registry.resolve o.target = .ok n := resolve_eq_ok_iff.mpr ht
  unfold relatedEdit
  rw [hm, ok_bind, hr', ok_bind, ht', ok_bind]

theorem editBetween_alike (hg : s.registry.Coherent) (hplain : s.registry.PlainReferences)
    (hm : m ∈ s.registry.models) (hn : n ∈ s.registry.models) (ho : o ∈ m.owning)
    (hi : i.mappedBy = some o.name) (link : Bool) (id relatedId : Json) :
    (s.editBetween link m o n id relatedId).Alike (s.editBetween link n i m relatedId id) := by
  have hmapped : o.mappedBy = none := (Model.mem_owning_iff.mp ho).2
  have hloaded {k : Model} (hk : k ∈ s.registry.models) (record : Json) (ts : Tables) :
      (s.loaded ts k record).isOk = true := by
    obtain ⟨e, he⟩ := exists_loaded hg hplain hk ts record
    rw [he]
    rfl
  unfold editBetween
  rw [hmapped, hi]
  refine (Alike.attempt_comm _ _ _).trans ?_
  refine .bind _ fun other => .bind _ fun root => ?_
  dsimp only
  rw [editSlot_of_inverse hg hm (Model.mem_owning_iff.mp ho).1]
  refine .bind _ fun changed => ?_
  split
  · exact .throw _ _
  · exact .attempt fun ts => (hloaded hm _ ts).trans (hloaded hn _ ts).symm

/-- Edits from either side are refused alike, and have the same effect otherwise. -/
theorem editRelated_sameEffect (hg : s.registry.Coherent) (hplain : s.registry.PlainReferences)
    (hm : m ∈ s.registry.models) (hn : n ∈ s.registry.models) (ho : o ∈ m.owning)
    (hi : i ∈ n.relations) (hmapped : i.mappedBy = some o.name) (htarget : i.target = m.path)
    (ha : ¬a.IsObject) (hb : ¬b.IsObject) (link : Bool) (store : Store) :
    SameEffect (store.run (s.editRelated link m.path a o.name b))
      (store.run (s.editRelated link n.path b i.name a)) := by
  obtain ⟨owner, howner, hname, hback, -⟩ := hg.owners n hn i hi o.name hmapped m hm htarget.symm
  have hom := (Model.mem_owning_iff.mp ho).1
  obtain rfl := hg.eq_of_name hm (Model.mem_owning_iff.mp howner).1 hom hname
  change SameEffect (store.run (committing (s.relatedEdit link m.path a owner.name b)))
    (store.run (committing (s.relatedEdit link n.path b i.name a)))
  rw [relatedEdit_eq hg (get?_path hm) hom (hback ▸ get?_path hn), relatedIdentity_of_bare hb,
    relatedEdit_eq hg (get?_path hn) hi (htarget ▸ get?_path hm), relatedIdentity_of_bare ha]
  exact Store.sameEffect_run (editBetween_alike hg hplain hm hn ho hmapped link) store

/-- Linking and unlinking is the same from either side of a pair of relations: both calls fail, or both
succeed and leave the same store, whatever the store holds. -/
theorem linking_is_same_from_either_side {definitions : List ModelDefinition}
    (hresolved : ofDefinitions definitions = .ok s.registry) (hplain : s.registry.PlainReferences)
    (hm : m ∈ s.registry.models) (hn : n ∈ s.registry.models) (ho : o ∈ m.owning)
    (hi : i ∈ n.relations) (hmapped : i.mappedBy = some o.name) (htarget : i.target = m.path)
    (ha : ¬a.IsObject) (hb : ¬b.IsObject) (store : Store) :
    SameEffect (store.run (s.addRelated m.path a o.name b))
        (store.run (s.addRelated n.path b i.name a)) ∧
      SameEffect (store.run (s.removeRelated m.path a o.name b))
        (store.run (s.removeRelated n.path b i.name a)) := by
  have hg := coherent_of_ofDefinitions hresolved
  exact ⟨editRelated_sameEffect hg hplain hm hn ho hi hmapped htarget ha hb true store,
    editRelated_sameEffect hg hplain hm hn ho hi hmapped htarget ha hb false store⟩

/-- The passport of one person is given to another, by either of the two; then it is given back. -/
theorem passport_is_handed_over_from_either_side :
    let store := Household.service.after Household.writes
    let given := store.run (Household.service.addRelated "people" (.ofNat 1) "passport" (.str "P1"))
    given.1.isOk = true ∧
      (given.2.tables.records "people").map (·.get "passport") = [.str "P1", .null] ∧
      SameEffect given
        (store.run (Household.service.addRelated "passports" (.str "P1") "holder" (.ofNat 1))) ∧
      SameEffect (given.2.run
          (Household.service.removeRelated "people" (.ofNat 1) "passport" (.str "P1")))
        (given.2.run
          (Household.service.removeRelated "passports" (.str "P1") "holder" (.ofNat 1))) := by
  obtain ⟨definitions, hresolved⟩ := Household.isPlain.resolved
  have hsame := linking_is_same_from_either_side (m := Household.person) (n := Household.document)
    (o := Household.passport) (i := Household.holder) (a := .ofNat 1) (b := .str "P1") hresolved
    Household.isPlain.names (.head _) (.tail _ (.head _)) (.head _) (.head _) rfl rfl nofun nofun
  exact ⟨rfl, rfl, (hsame _).1, (hsame _).2⟩

end Service

end EntityGraph
