import EntityGraph.Entity.Expansion
import EntityGraph.Proofs.Query.Holders

namespace EntityGraph

/-- Whenever the traversal succeeds, what it gives has a property. -/
def Traversal.Gives {α : Type} (t : Traversal α) (P : α → Prop) : Prop :=
  ∀ visited a next, t.run visited = .ok (a, next) → P a

/-- The traversal does not fail, whatever has been visited. -/
def Traversal.Total {α : Type} (t : Traversal α) : Prop :=
  ∀ visited, ∃ a next, t.run visited = .ok (a, next)

namespace Traversal

variable {α β : Type} {t : Traversal α} {f : α → Traversal β}

namespace Gives

variable {P : α → Prop} {Q : β → Prop}

theorem pure {a : α} (h : P a) : Gives (Pure.pure a) P := by
  rintro visited _ _ hrun
  exact (Prod.mk.inj (Except.ok.inj hrun)).1 ▸ h

theorem bind (h : t.Gives P) (hf : ∀ a, P a → (f a).Gives Q) : (t >>= f).Gives Q := by
  intro visited b last hrun
  rw [StateT.run_bind] at hrun
  obtain ⟨⟨a, next⟩, ht, hb⟩ := bind_eq_ok_iff.mp hrun
  exact hf a (h visited a next ht) next b last hb

theorem bind_lift {r : Except Error α} (hf : ∀ a, r = .ok a → (f a).Gives Q) :
    ((liftM r : Traversal α) >>= f).Gives Q := by
  intro visited b last hrun
  cases r with
  | error e => cases hrun
  | ok a => exact hf a rfl visited b last hrun

theorem mapM {R : α → β → Prop} {xs : List α} (h : ∀ x ∈ xs, (f x).Gives (R x)) :
    (xs.mapM f).Gives (List.Forall₂ R xs) := by
  induction xs with
  | nil => exact pure .nil
  | cons x rest ih =>
    rw [List.mapM_cons]
    exact (h x List.mem_cons_self).bind fun y hy =>
      (ih fun z hz => h z (List.mem_cons_of_mem _ hz)).bind fun ys hys => pure (.cons hy hys)

theorem foldlM_set {f : Json → Relation → Traversal Json} {P : Relation → Json → Prop}
    {rs : List Relation} {e : Json} (hd : (rs.map Relation.name).Nodup) (he : e.IsObject)
    (h : ∀ r ∈ rs, ∀ loaded, loaded.get? r.name = e.get? r.name → (f loaded r).Gives (P r)) :
    (rs.foldlM (fun loaded r => do return loaded.set r.name (← f loaded r)) e).Gives fun e' =>
      e'.IsObject ∧ (∀ name, (∀ r ∈ rs, r.name ≠ name) → e'.get? name = e.get? name) ∧
        ∀ r ∈ rs, ∃ v, e'.get? r.name = some v ∧ P r v := by
  induction rs generalizing e with
  | nil => exact pure ⟨he, fun _ _ => rfl, fun _ hr => absurd hr List.not_mem_nil⟩
  | cons r rest ih =>
    obtain ⟨hr, hrest⟩ := List.nodup_cons.mp hd
    have hne : ∀ o ∈ rest, o.name ≠ r.name := fun o ho heq => hr (List.mem_map.mpr ⟨o, ho, heq⟩)
    have hstep : (do return e.set r.name (← f e r) : Traversal Json).Gives fun e₁ =>
        ∃ v, e₁ = e.set r.name v ∧ P r v :=
      (h r List.mem_cons_self e rfl).bind fun v hv => pure ⟨v, rfl, hv⟩
    rw [List.foldlM_cons]
    refine hstep.bind fun e₁ he₁ visited e' next hrun => ?_
    obtain ⟨v, rfl, hv⟩ := he₁
    have hlater : ∀ o ∈ rest, ∀ loaded, loaded.get? o.name = (e.set r.name v).get? o.name →
        (f loaded o).Gives (P o) := by
      intro o ho loaded hl
      rw [Json.get?_set_of_ne e (hne o ho).symm] at hl
      exact h o (List.mem_cons_of_mem _ ho) loaded hl
    obtain ⟨hobject, hothers, hrelated⟩ := ih hrest (he.set r.name v) hlater visited e' next hrun
    refine ⟨hobject, fun name hn => ?_, fun o ho => ?_⟩
    · rw [hothers name fun o ho => hn o (List.mem_cons_of_mem _ ho),
        Json.get?_set_of_ne e (hn r List.mem_cons_self)]
    · rcases List.mem_cons.mp ho with rfl | ho
      · exact ⟨v, by rw [hothers o.name hne, Json.get?_set_self he], hv⟩
      · exact hrelated o ho

end Gives

namespace Total

theorem pure (a : α) : Total (Pure.pure a) :=
  fun visited => ⟨a, visited, rfl⟩

theorem bind (h : t.Total) (hf : ∀ a, (f a).Total) : (t >>= f).Total := by
  intro visited
  obtain ⟨a, next, ht⟩ := h visited
  obtain ⟨b, last, hb⟩ := hf a next
  refine ⟨b, last, ?_⟩
  rw [StateT.run_bind, ht]
  exact hb

theorem bind_lift {r : Except Error α} {a : α} (hr : r = .ok a) (hf : (f a).Total) :
    ((liftM r : Traversal α) >>= f).Total := by
  subst hr
  exact hf

theorem mapM {xs : List α} (h : ∀ x ∈ xs, (f x).Total) : (xs.mapM f).Total := by
  induction xs with
  | nil => exact pure _
  | cons x rest ih =>
    rw [List.mapM_cons]
    exact (h x List.mem_cons_self).bind fun y =>
      (ih fun z hz => h z (List.mem_cons_of_mem _ hz)).bind fun ys => pure _

theorem foldlM {f : β → α → Traversal β} {xs : List α} (h : ∀ x ∈ xs, ∀ b, (f b x).Total) (b : β) :
    (xs.foldlM f b).Total := by
  induction xs generalizing b with
  | nil => exact pure b
  | cons x rest ih =>
    rw [List.foldlM_cons]
    exact (h x List.mem_cons_self b).bind fun c => ih (fun y hy => h y (List.mem_cons_of_mem _ hy)) c

end Total

end Traversal

/-- If the relation is stored by its target, it is stored under a plain name. -/
def Relation.PlainOwner (target : Model) (r : Relation) : Prop :=
  ∀ o ∈ target.owning, r.mappedBy = some o.name → o.IsPlain

namespace Registry

variable {g : Registry} {ts : Tables} {m target : Model} {r : Relation} {depth : Nat}
  {e e' v w x id record : Json} {visited next : Visited}

theorem PlainReferences.plainOwner (h : g.PlainReferences) (ht : target ∈ g.models) (r : Relation) :
    r.PlainOwner target :=
  fun o ho _ => h target ht o ho

/-- The same entity, perhaps with more of it. -/
structure Stays (m : Model) (e e' : Json) : Prop where
  fits : m.FitsEntity e'
  identityOf_eq : m.identityOf e' = m.identityOf e

theorem filterMap_identityOf_of_stays {vs ws : List Json} (h : List.Forall₂ (Stays target) vs ws) :
    ws.filterMap target.identityOf = vs.filterMap target.identityOf := by
  induction h with
  | nil => rfl
  | cons hv _ ih => rw [List.filterMap_cons, List.filterMap_cons, hv.identityOf_eq, ih]

theorem fitsEntity_of_stays {vs ws : List Json} (h : List.Forall₂ (Stays target) vs ws) :
    ∀ w ∈ ws, target.FitsEntity w := by
  intro w hw
  obtain ⟨v, -, hv⟩ := exists_left_of_forall₂ h hw
  exact hv.fits

/-- What an entity has under a relation, and the identities of what is embedded there. -/
def Shows (target : Model) (many : Bool) (ids : List Json) (v : Json) : Prop :=
  target.FitsValue many v ∧ target.identitiesOf v = ids

/-- The identities that a relation of a stored record leads to: those in its slot, or those of the
records that refer to it, of which a single relation shows the first. -/
def leadsTo (ts : Tables) (target : Model) (r : Relation) (id record : Json) : List Json :=
  match r.mappedBy with
  | none => (record.get r.name).references
  | some owner =>
      let ids := (holders ts target owner id).filterMap target.identityOf
      if r.isCollection then ids else ids.take 1

structure Expanded (g : Registry) (ts : Tables) (m : Model) (id record e : Json) : Prop where
  isObject : e.IsObject
  others : ∀ name, (∀ r ∈ m.relations, r.name ≠ name) →
    e.get? name = (g.fromRecord m record).get? name
  related : ∀ r ∈ m.relations, ∀ target, g.get? r.target = some target →
    ∃ v, e.get? r.name = some v ∧
      (r.PlainOwner target → Shows target r.isCollection (leadsTo ts target r id record) v)

theorem AllFit.referring_eq (hts : g.AllFit ts) (hg : g.Coherent) (hplain : r.IsPlain)
    (hm : m ∈ g.models) (hr : r ∈ m.owning) (ht : g.get? r.target = some target)
    (hid : target.IsIdentity id) (hst : ts.Stored target.path id) :
    g.referring ts m r.name id = .ok ((holders ts m r.name id).map (g.fromRecord m)) := by
  rw [referring, references_eq hg hplain hm hr ht, ok_bind,
    hts.query_reference hg hm hr ht hid hst]
  rfl

theorem exists_records_of_referring {owner : String} {found : List Json}
    (h : g.referring ts target owner id = .ok found) :
    ∃ records : List Json, found = records.map (g.fromRecord target) ∧
      ∀ x ∈ records, x ∈ ts.records target.path := by
  obtain ⟨p, -, h⟩ := bind_eq_ok_iff.mp h
  refine ⟨_, (Except.ok.inj h).symm, fun x hx => ?_⟩
  exact List.mem_of_mem_filter hx

theorem Expanded.identityOf_eq (hg : g.Coherent) (hm : m ∈ g.models)
    (h : Expanded g ts m id record e) : m.identityOf e = m.identityOf record := by
  rw [Model.identityOf_congr (h.others m.identity fun r hr => hg.name_ne_identity hm hr),
    hg.identityOf_fromRecord hm]

theorem expand_succ (g : Registry) (ts : Tables) (depth : Nat) (m : Model) (e : Json) :
    g.expand ts (depth + 1) m e =
      match (m.identityOf e).bind m.identity? with
      | none => pure e
      | some id => visit m id >>= fun new =>
          if !new then pure e
          else
            match ts.find? m.path id with
            | none => pure e
            | some record =>
                m.relations.foldlM (fun loaded r => do
                  return loaded.set r.name
                    (← g.expandRelation ts (g.expand ts depth) id loaded r)) (g.fromRecord m record) :=
  rfl

theorem of_foldlM_set {f : Json → Relation → Traversal Json} {rs : List Relation} {P : Json → Prop}
    (hset : ∀ e, P e → ∀ r ∈ rs, ∀ v, P (e.set r.name v)) (he : P e) {visited next : Visited}
    (h : (rs.foldlM (fun loaded r => do return loaded.set r.name (← f loaded r)) e).run visited =
      .ok (e', next)) : P e' := by
  induction rs generalizing e visited with
  | nil =>
    cases h
    exact he
  | cons r rest ih =>
    rw [List.foldlM_cons, StateT.run_bind] at h
    obtain ⟨⟨e₁, visited₁⟩, hstep, hrest⟩ := bind_eq_ok_iff.mp h
    rw [StateT.run_bind] at hstep
    obtain ⟨⟨v, visited₂⟩, -, hv⟩ := bind_eq_ok_iff.mp hstep
    obtain ⟨rfl, rfl⟩ := Prod.mk.inj (Except.ok.inj hv)
    exact ih (fun e he o ho => hset e he o (List.mem_cons_of_mem _ ho))
      (hset e he r List.mem_cons_self v) hrest

theorem get?_of_foldlM_set {f : Json → Relation → Traversal Json} {rs : List Relation} {name : String}
    (hname : ∀ r ∈ rs, r.name ≠ name) {visited next : Visited}
    (h : (rs.foldlM (fun loaded r => do return loaded.set r.name (← f loaded r)) e).run visited =
      .ok (e', next)) : e'.get? name = e.get? name :=
  of_foldlM_set (P := fun v => v.get? name = e.get? name)
    (fun v hv r hr w => by rw [Json.get?_set_of_ne v (hname r hr), hv]) rfl h

/-- A record that is found is loaded the same, whatever entity of its identity loading starts from. -/
theorem load_succ {depth : Nat} (hid : (m.identityOf e).bind m.identity? = some id)
    (hfind : ts.find? m.path id = some record) :
    g.load ts (depth + 1) m e = (do
      return (← (m.relations.foldlM (fun loaded r => do
        return loaded.set r.name (← g.expandRelation ts (g.expand ts depth) id loaded r))
          (g.fromRecord m record)).run [(m.path, id.text)]).1) := by
  have hnew : (visit m id).run [] = .ok (true, [(m.path, id.text)]) := rfl
  rw [load, expand_succ, hid]
  dsimp only
  rw [StateT.run_bind, hnew, ok_bind, if_neg (by simp), hfind]

theorem run_visit (m : Model) (id : Json) (visited : Visited) : (visit m id).run visited =
    if (m.path, id.text) ∈ visited then .ok (false, visited)
    else .ok (true, (m.path, id.text) :: visited) := by
  change visit m id visited = _
  simp only [visit, List.contains_iff_mem]

/-- An entity stays as it is, because it is at the last level, has been visited or is not stored, or it is
what the relations of its record make of that. -/
theorem run_expand_inv (h : (g.expand ts depth m e).run visited = .ok (w, next)) :
    (w = e ∧ ∀ d x, depth = d + 1 → (m.identityOf e).bind m.identity? = some x →
      (m.path, x.text) ∈ visited ∨ ts.find? m.path x = none) ∨
    ∃ d x row, depth = d + 1 ∧ (m.identityOf e).bind m.identity? = some x ∧
      (m.path, x.text) ∉ visited ∧ ts.find? m.path x = some row ∧
      (m.relations.foldlM (fun loaded r => do
        return loaded.set r.name (← g.expandRelation ts (g.expand ts d) x loaded r))
          (g.fromRecord m row)).run ((m.path, x.text) :: visited) = .ok (w, next) := by
  cases depth with
  | zero => exact .inl ⟨(Prod.mk.inj (Except.ok.inj h)).1.symm, nofun⟩
  | succ d =>
    rw [expand_succ] at h
    cases hid : (m.identityOf e).bind m.identity? with
    | none =>
      rw [hid] at h
      exact .inl ⟨(Prod.mk.inj (Except.ok.inj h)).1.symm, nofun⟩
    | some x =>
      rw [hid] at h
      dsimp only at h
      rw [StateT.run_bind, run_visit] at h
      split at h
      · next hmem =>
        refine .inl ⟨(Prod.mk.inj (Except.ok.inj h)).1.symm, fun _ y _ hy => .inl ?_⟩
        exact Option.some.inj hy ▸ hmem
      · next hmem =>
        rw [ok_bind] at h
        cases hfind : ts.find? m.path x with
        | none =>
          rw [hfind] at h
          refine .inl ⟨(Prod.mk.inj (Except.ok.inj h)).1.symm, fun _ y _ hy => .inr ?_⟩
          exact Option.some.inj hy ▸ hfind
        | some row =>
          rw [hfind] at h
          exact .inr ⟨d, x, row, rfl, rfl, hmem, hfind, h⟩

section Shows

variable (hg : g.Coherent) (hts : g.AllFit ts)

include hg hts

theorem gives_expand (hm : m ∈ g.models) (he : m.FitsEntity e) :
    (g.expand ts depth m e).Gives (Stays m e) := by
  intro visited w next h
  rcases run_expand_inv h with ⟨rfl, -⟩ | ⟨d, x, row, -, hid, -, hfind, hrun⟩
  · exact ⟨he, rfl⟩
  · obtain ⟨y, hy, hform⟩ := he.2
    rw [hy, Option.bind_some] at hid
    obtain rfl := hform.eq_of_identity? hid
    have hobject : w.IsObject := of_foldlM_set (P := Json.IsObject) (fun v hv r _ u => hv.set r.name u)
      (isObject_fromRecord g m row) hrun
    have hidentity : m.identityOf w = some x := by
      rw [Model.identityOf_congr (get?_of_foldlM_set (fun r hr => hg.name_ne_identity hm hr) hrun),
        hg.identityOf_fromRecord hm, hts.identityOf_of_find? hm hform hfind]
    exact ⟨⟨hobject, x, hidentity, hform⟩, hidentity.trans hy.symm⟩

theorem gives_embedded (htm : target ∈ g.models) (many : Bool) (v : Json) :
    target.FitsValue many v →
      (match v with
        | .arr items => do return .arr (← items.mapM (g.expand ts depth target))
        | .null => return .null
        | v => g.expand ts depth target v : Traversal Json).Gives
          (Shows target many (target.identitiesOf v)) := by
  intro h
  cases h with
  | none => exact .pure ⟨.none, rfl⟩
  | list h =>
    refine (Traversal.Gives.mapM fun w hw => gives_expand hg hts htm (h w hw)).bind fun ws hws => ?_
    exact .pure ⟨.list (fitsEntity_of_stays hws), filterMap_identityOf_of_stays hws⟩
  | one h =>
    obtain ⟨members, rfl⟩ := h.1
    intro visited w next hrun
    have hw := gives_expand hg hts htm h visited w next hrun
    refine ⟨.one hw.fits, ?_⟩
    rw [Model.identitiesOf_of_isObject hw.fits.1, Model.identitiesOf_of_isObject h.1,
      hw.identityOf_eq]

theorem gives_referring (htm : target ∈ g.models) {records : List Json} {many : Bool}
    (h : ∀ record ∈ records, target.FitsEntity (g.fromRecord target record)) :
    (do
      let related ← (records.map (g.fromRecord target)).mapM (g.expand ts depth target)
      return if many then .arr related else related.head?.getD .null : Traversal Json).Gives
        (Shows target many (if many then records.filterMap target.identityOf
          else (records.filterMap target.identityOf).take 1)) := by
  have hall : ∀ v ∈ records.map (g.fromRecord target), target.FitsEntity v := by
    simpa using h
  refine (Traversal.Gives.mapM fun w hw => gives_expand hg hts htm (hall w hw)).bind fun ws hws => ?_
  have hsame : ws.filterMap target.identityOf = records.filterMap target.identityOf := by
    rw [filterMap_identityOf_of_stays hws, List.filterMap_map]
    exact List.filterMap_congr fun record _ => hg.identityOf_fromRecord htm record
  have hfits := fitsEntity_of_stays hws
  refine .pure ?_
  cases many with
  | true => exact ⟨.list hfits, hsame⟩
  | false =>
    rw [← hsame]
    cases ws with
    | nil => exact ⟨.none, rfl⟩
    | cons w rest =>
      have hw := hfits w List.mem_cons_self
      obtain ⟨x, hx, -⟩ := hw.2
      refine ⟨.one hw, (Model.identitiesOf_of_isObject hw.1).trans ?_⟩
      rw [hx, List.filterMap_cons_some hx]
      rfl

/-- Under a relation stands what the relation leads to. -/
theorem gives_expandRelation (hm : m ∈ g.models) (hr : r ∈ m.relations)
    (ht : g.get? r.target = some target) (hplain : r.PlainOwner target) (hid : m.IsIdentity id)
    (hst : ts.Stored m.path id) {key : RecordKey} (hfits : g.Fits m key record) {loaded : Json}
    (hloaded : loaded.get? r.name = (g.fromRecord m record).get? r.name) :
    (g.expandRelation ts (g.expand ts depth) id loaded r).Gives
      (Shows target r.isCollection (leadsTo ts target r id record)) := by
  obtain ⟨htm, hp⟩ := hg.target_path hm hr ht
  unfold expandRelation leadsTo
  refine .bind_lift fun t ht' => ?_
  obtain rfl : t = target := Option.some.inj ((resolve_eq_ok_iff.mp ht').symm.trans ht)
  cases hmb : r.mappedBy with
  | none =>
    have hro : r ∈ m.owning := Model.mem_owning_iff.mpr ⟨hr, hmb⟩
    obtain ⟨hvalue, hids⟩ := Model.embed_of_fitsSlot (hfits.slots r hro t ht)
    rw [hg.get?_fromRecord hm record hro ht] at hloaded
    rw [← Json.get_of_get? hloaded] at hvalue hids
    rw [← hids]
    exact gives_embedded hg hts htm r.isCollection _ hvalue
  | some owner =>
    obtain ⟨counter, hco, rfl, hct, -⟩ := hg.owners m hm r hr owner hmb t htm hp
    have hreferring := hts.referring_eq hg (hplain counter hco hmb) htm hco (hct ▸ get?_path hm) hid hst
    refine .bind_lift fun related hrelated => ?_
    obtain rfl := Except.ok.inj (hreferring.symm.trans hrelated)
    refine gives_referring hg hts htm fun record hrecord => ?_
    obtain ⟨k, hrow⟩ := Tables.mem_records_iff.mp (List.mem_filter.mp hrecord).1
    obtain ⟨x, hx, hform, -⟩ := (hts t htm k record hrow).identity
    exact ⟨isObject_fromRecord g t record, x, by rw [hg.identityOf_fromRecord htm, hx], hform⟩

/-- Whenever an entity of a stored record is loaded, under each relation stands what it leads to. -/
theorem expanded_of_load (hm : m ∈ g.models)
    (hid : (m.identityOf e).bind m.identity? = some id) (hfind : ts.find? m.path id = some record)
    (hload : g.load ts (depth + 1) m e = .ok e') : Expanded g ts m id record e' := by
  obtain ⟨raw, -, hraw⟩ := Option.bind_eq_some_iff.mp hid
  obtain ⟨hform, -⟩ := Model.isIdentity_of_coerceIdentity (hg.identityTypes m hm)
    (Model.identity?_eq_some_iff.mp hraw)
  obtain ⟨key, hk⟩ := hform.exists_key
  have hfits := hts m hm key record (by rw [← Tables.find?_eq_row? hk, hfind])
  rw [load_succ hid hfind] at hload
  obtain ⟨⟨_, next⟩, hrun, hpure⟩ := bind_eq_ok_iff.mp hload
  obtain rfl := Except.ok.inj hpure
  obtain ⟨hobject, hothers, hrelated⟩ := Traversal.Gives.foldlM_set (hg.nodup_relation_names hm)
    (isObject_fromRecord g m record)
    (P := fun r v => ∀ target, g.get? r.target = some target → r.PlainOwner target →
      Shows target r.isCollection (leadsTo ts target r id record) v)
    (fun r hr loaded hloaded visited v next hv target ht hplain => gives_expandRelation hg hts hm hr ht
      hplain hform (Tables.stored_of_find? hfind) hfits hloaded visited v next hv) _ _ _ hrun
  refine ⟨hobject, hothers, fun r hr target ht => ?_⟩
  obtain ⟨v, hv, hshows⟩ := hrelated r hr
  exact ⟨v, hv, hshows target ht⟩

end Shows

section Total

variable (hg : g.Coherent) (hplain : g.PlainReferences)

include hg hplain

omit hg hplain in
theorem total_visit (m : Model) (id : Json) : (visit m id).Total := by
  intro visited
  rw [run_visit]
  split
  · exact ⟨_, _, rfl⟩
  · exact ⟨_, _, rfl⟩

theorem total_expandRelation {descend : Model → Json → Traversal Json}
    (hdescend : ∀ m ∈ g.models, ∀ e, (descend m e).Total) (hm : m ∈ g.models)
    (hr : r ∈ m.relations) (id loaded : Json) : (g.expandRelation ts descend id loaded r).Total := by
  obtain ⟨target, ht⟩ := hg.exists_target hm hr
  obtain ⟨htm, hp⟩ := hg.target_path hm hr ht
  have hall (vs : List Json) : (vs.mapM (descend target)).Total := .mapM fun v _ => hdescend target htm v
  unfold expandRelation
  refine .bind_lift (resolve_eq_ok_iff.mpr ht) ?_
  cases hmb : r.mappedBy with
  | none =>
    dsimp only
    split
    · exact (hall _).bind fun _ => .pure _
    · exact .pure _
    · exact hdescend target htm _
  | some owner =>
    obtain ⟨counter, hco, rfl, hct, -⟩ := hg.owners m hm r hr owner hmb target htm hp
    obtain ⟨vs, hvs⟩ : ∃ vs, g.referring ts target counter.name id = .ok vs := by
      have hmodel : g.get? counter.target = some m := hct ▸ get?_path hm
      rw [referring, references_eq hg (hplain target htm counter hco) htm hco hmodel]
      exact ⟨_, rfl⟩
    exact .bind_lift hvs ((hall vs).bind fun _ => .pure _)

theorem total_expand (ts : Tables) (depth : Nat) (hm : m ∈ g.models) (e : Json) :
    (g.expand ts depth m e).Total := by
  induction depth generalizing m e with
  | zero => exact .pure _
  | succ depth ih =>
    rw [expand_succ]
    cases (m.identityOf e).bind m.identity? with
    | none => exact .pure _
    | some id =>
      refine (total_visit m id).bind fun new => ?_
      split
      · exact .pure _
      · cases ts.find? m.path id with
        | none => exact .pure _
        | some record =>
          refine .foldlM (fun r hr loaded => ?_) _
          exact (total_expandRelation hg hplain (fun n hn v => ih hn v) hm hr id loaded).bind
            fun _ => .pure _

theorem exists_load_total (ts : Tables) (depth : Nat) (hm : m ∈ g.models) (e : Json) :
    ∃ v, g.load ts depth m e = .ok v := by
  obtain ⟨v, visited, hrun⟩ := total_expand hg hplain ts depth hm e []
  refine ⟨v, ?_⟩
  rw [load, hrun]
  rfl

end Total

end Registry

end EntityGraph
