import EntityGraph.Proofs.Service.Preservation
import EntityGraph.Proofs.Store.Counting

namespace EntityGraph

namespace Tables

variable {ts next : Tables}

inductive Puts (ts : Tables) : Tables → Prop
  | refl : Puts ts ts
  | put {next : Tables} (h : Puts ts next) (path : String) (key : RecordKey) (record : Json) :
      Puts ts (next.put path key record)

theorem Puts.sequence_eq (h : ts.Puts next) (hts : ts.Counted)
    (htaken : ∀ path key, (next.row? path key).isSome = true → (ts.row? path key).isSome = true)
    (path : String) : (next.table path).sequence = (ts.table path).sequence := by
  induction h with
  | refl => rfl
  | @put next _ path' key record ih =>
    have hput : ∀ path k, (next.row? path k).isSome = true →
        ((next.put path' key record).row? path k).isSome = true := by
      intro path k hk
      rw [row?_put]
      split
      · rfl
      · exact hk
    have hseq := ih fun path k hk => htaken path k (hput path k hk)
    rw [sequence_put]
    split
    · next hp =>
      subst hp
      rw [hseq]
      exact hts path key (htaken path key (by rw [row?_put_self]; rfl))
    · exact hseq

end Tables

namespace UnitOfWork

variable {α β : Type} {P : Tables → Prop}

def Maintains (P : Tables → Prop) (u : UnitOfWork α) : Prop :=
  ∀ ts, P ts → u.Leaves ts fun _ => P

namespace Maintains

variable {u : UnitOfWork α} {f : α → UnitOfWork β}

theorem bind (h : Maintains P u) (hf : ∀ a, Maintains P (f a)) : Maintains P (u >>= f) :=
  fun ts hts => (h ts hts).bind fun a next hnext => hf a next hnext

theorem pure (a : α) : Maintains P (Pure.pure a : UnitOfWork α) :=
  fun _ hts => .pure hts

theorem attempt (g : Tables → Except Error α) : Maintains P (UnitOfWork.attempt g) :=
  fun _ hts => .attempt fun _ _ => hts

theorem read (g : Tables → α) : Maintains P (UnitOfWork.read g) :=
  attempt fun ts => .ok (g ts)

theorem lift (r : Except Error α) : Maintains P (liftM r : UnitOfWork α) :=
  fun _ hts => .lift fun _ _ => hts

theorem throw (e : Error) : Maintains P (MonadExcept.throw e : UnitOfWork α) :=
  fun _ _ => .throw e

theorem discard (h : Maintains P u) : Maintains P (discard u) :=
  fun ts hts => (h ts hts).discard

theorem forM {g : α → UnitOfWork Unit} {xs : List α} (h : ∀ x ∈ xs, Maintains P (g x)) :
    Maintains P (xs.forM g) :=
  fun _ hts => .forM hts h

section Records

variable (hput : ∀ ts path key record, P ts → P (Tables.put ts path key record))

include hput

theorem merge (m : Model) (record : Json) : Maintains P (UnitOfWork.merge m record) := by
  refine fun ts hts => (Leaves.merge m record ts).mono fun saved ts' h => ?_
  obtain ⟨-, id, key, -, -, rfl⟩ := h
  exact hput ts m.path key record hts

theorem persist (hadvance : ∀ ts path, P ts → P (Tables.set ts path (ts.table path).advance))
    (fresh : Table → String) (m : Model) {record : Json} (h : record.IsObject) :
    Maintains P (UnitOfWork.persist fresh m record) := by
  refine fun ts hts => (Leaves.persist h).mono fun saved ts' hsaved => ?_
  obtain ⟨id, next, key, hnew, rfl, -, -, rfl⟩ := hsaved
  refine hput next m.path key _ ?_
  rcases hnew with ⟨-, rfl⟩ | ⟨-, hrun⟩
  · exact hts
  · obtain ⟨-, ⟨-, hnumber⟩ | ⟨-, -, rfl⟩⟩ := nextIdentity_cases hrun
    · rw [(run_nextNumber hnumber).2]
      exact hadvance ts m.path hts
    · exact hts

end Records

end Maintains

end UnitOfWork

namespace Service

open Registry UnitOfWork

variable {s : Service} {P : Tables → Prop} {path : String}

section Puts

variable (hput : ∀ ts path key record, P ts → P (Tables.put ts path key record))

include hput

theorem detach_maintains (m : Model) (r : Relation) (id : Json) (spared : Json → Bool) :
    Maintains P (s.detach m r id spared) := by
  unfold detach
  refine .bind (.attempt _) fun holders => .forM fun holder _ => ?_
  split
  · exact .pure _
  · split
    · exact (Maintains.merge hput m _).discard
    · exact .pure _

theorem unshare_maintains (m : Model) (field : String) (holder referenced : Json) :
    Maintains P (s.unshare m field holder referenced) := by
  unfold unshare
  split
  · split
    · exact detach_maintains hput m _ referenced _
    · exact .pure _
  · exact .pure _

theorem unshareAll_maintains (m : Model) (id record : Json) :
    Maintains P (s.unshareAll m id record) := by
  refine .forM fun r _ => ?_
  split
  · exact unshare_maintains hput m r.name id _
  · exact .pure _

theorem writeBackLink_maintains (root : Json) (link : BackLink) :
    Maintains P (s.writeBackLink root link) := by
  rw [writeBackLink_eq]
  refine .bind (.lift _) fun target => .bind (.read _) fun found => ?_
  cases found with
  | none => exact .pure _
  | some record =>
    refine .bind ?_ fun _ => ?_
    · split
      · exact (Maintains.merge hput target _).discard
      · exact .pure _
    · split
      · exact .pure _
      · exact unshare_maintains hput target link.field link.id root

theorem settle_maintains (m : Model) (id saved : Json) (links : List BackLink)
    (hook : Json → Except Error Json) :
    Maintains P (s.unshareAll m id saved >>= fun _ => s.writeBackLinks links id >>= fun _ =>
      (attempt fun ts => s.loaded ts m saved) >>= fun loaded =>
        (liftM (hook loaded) : UnitOfWork Json)) :=
  .bind (unshareAll_maintains hput m id saved) fun _ =>
    .bind (.forM fun link _ => writeBackLink_maintains hput id link) fun _ =>
      .bind (.attempt _) fun loaded => .lift (hook loaded)

theorem detachAll_maintains (owners : List (Model × Relation)) (id : Json) :
    Maintains P (owners.forM fun (other, r) => s.detach other r id fun _ => false) :=
  .forM fun p _ => detach_maintains hput p.1 p.2 id _

theorem editSlot_maintains (link claims : Bool) (holder : Model) (record holderId : Json)
    (field : String) (many : Bool) (id : Json) :
    Maintains P (s.editSlot link claims holder record holderId field many id) := by
  unfold editSlot
  split
  · exact .pure _
  · next changed _ =>
    refine .bind (Maintains.merge hput holder changed).discard fun _ => ?_
    split
    · exact .bind (unshare_maintains hput holder field holderId id) fun _ => .pure _
    · exact .pure _

theorem update_maintains {raw : Json} {input : EntityInput} {u : UnitOfWork Json}
    (h : s.revision path raw input = .ok u) : Maintains P u := by
  obtain ⟨m, -, h⟩ := bind_eq_ok_iff.mp h
  obtain ⟨id, -, h⟩ := bind_eq_ok_iff.mp h
  obtain ⟨incoming, -, h⟩ := bind_eq_ok_iff.mp h
  rw [← pure_eq_ok_iff.mp h]
  exact .bind (.attempt _) fun _ => .bind (.read _) fun agreed => .bind (.lift _) fun entity =>
    .bind (.lift _) fun _ => .bind (Maintains.merge hput m _) fun saved =>
      settle_maintains hput m id saved agreed.pending _

theorem edit_maintains {link : Bool} {raw related : Json} {name : String} {u : UnitOfWork Json}
    (h : s.relatedEdit link path raw name related = .ok u) : Maintains P u := by
  obtain ⟨m, r, target, id, relatedId, -, rfl⟩ := relatedEdit_eq_ok_iff.mp h
  refine .bind (.attempt _) fun root => .bind (.attempt _) fun other => fun ts hts => ?_
  have hanswer {edit : UnitOfWork (Option Json)} (hedit : Maintains P edit)
      (answer : Option Json → Tables → Except Error Json) :=
    (leaves_answer link (hedit ts hts) answer (.entityNotFound target.path relatedId)).mono
      fun _ _ ⟨_, h, _⟩ => h
  cases r.mappedBy with
  | none => exact hanswer (editSlot_maintains hput _ _ _ _ _ _ _ _) _
  | some owner => exact hanswer (editSlot_maintains hput _ _ _ _ _ _ _ _) _

theorem create_maintains
    (hadvance : ∀ ts path, P ts → P (Tables.set ts path (ts.table path).advance))
    {input : EntityInput} {u : UnitOfWork Json} (h : s.creation path input = .ok u) : Maintains P u := by
  obtain ⟨m, -, h⟩ := bind_eq_ok_iff.mp h
  dsimp only at h
  obtain ⟨described, -, h⟩ := bind_eq_ok_iff.mp h
  rw [← pure_eq_ok_iff.mp h]
  refine .bind (.read _) fun agreed => .bind (.lift _) fun entity => .bind (.lift _) fun _ =>
    .bind (Maintains.persist hput hadvance s.fresh m (isObject_toRecord s.registry m entity))
      fun saved => ?_
  split
  · exact .throw _
  · exact settle_maintains hput m _ saved agreed.pending _

theorem delete_maintains (herase : ∀ ts path key, P ts → P (Tables.erase ts path key)) {raw : Json}
    {u : UnitOfWork Unit} (h : s.deletion path raw = .ok u) : Maintains P u := fun ts hts =>
  deletion_leaves h fun m id _ _ _ _ => (detachAll_maintains hput (s.ownersOf m) id ts hts).mono
    fun _ ts₁ hts₁ => ⟨hts₁, fun key _ => herase ts₁ m.path key hts₁⟩

end Puts

/-- Whatever is called and whatever the hooks do, all numbers that records stand under are counted. -/
theorem counted_perform {store : Store} (h : store.tables.Counted) (w : Write) :
    (s.perform store w).tables.Counted := by
  have hput : ∀ (ts : Tables) path key record, ts.Counted → (ts.put path key record).Counted :=
    fun _ path key record hts => hts.put path key record
  have herase : ∀ (ts : Tables) path key, ts.Counted → (ts.erase path key).Counted :=
    fun _ path key hts => hts.erase path key
  have hadvance : ∀ (ts : Tables) path, ts.Counted → (ts.set path (ts.table path).advance).Counted :=
    fun _ path hts => hts.advance path
  cases w with
  | create path input =>
    exact Store.run_keeps h fun u a ts' hplan hrun =>
      create_maintains hput hadvance hplan store.tables h a ts' hrun
  | update path id input =>
    exact Store.run_keeps h fun u a ts' hplan hrun =>
      update_maintains hput hplan store.tables h a ts' hrun
  | delete path id =>
    exact Store.run_keeps h fun u a ts' hplan hrun =>
      delete_maintains hput herase hplan store.tables h a ts' hrun
  | link path id relation related =>
    exact Store.run_keeps h fun u a ts' hplan hrun =>
      edit_maintains hput hplan store.tables h a ts' hrun
  | unlink path id relation related =>
    exact Store.run_keeps h fun u a ts' hplan hrun =>
      edit_maintains hput hplan store.tables h a ts' hrun

theorem counted_afterCalls (calls : List (Service × Write)) : (afterCalls calls).tables.Counted :=
  afterCalls_induction (·.tables.Counted) Tables.counted_empty fun _ _ _ hstore =>
    counted_perform hstore _

end Service

end EntityGraph
