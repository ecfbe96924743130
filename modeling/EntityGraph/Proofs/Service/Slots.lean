import EntityGraph.Proofs.Service.Effects
import EntityGraph.Proofs.Service.Writing

namespace EntityGraph

/-- Clearing takes an identity away, wherever it stands. A single slot is occupied by an identity, and a
list is extended by one that is not in it. -/
inductive SlotEdit
  | keep
  | clear (id : Json)
  | occupy (id : Json)
  | extend (id : Json)

namespace Json

theorem without_without_without (slot a b : Json) :
    ((slot.without a).without b).without a = (slot.without b).without a := by
  have hsingle (x : Json) (hx : ∀ id, x.without id = if x.sameIdentity id then .null else x) :
      ((x.without a).without b).without a = (x.without b).without a := by
    rw [hx a, hx b]
    split
    · split <;> simp only [without_null, hx, if_pos ‹x.sameIdentity a = true›]
    · rw [hx b]
  cases slot with
  | arr ids =>
    simp only [without, List.filter_filter]
    refine congrArg arr (List.filter_congr fun x _ => ?_)
    cases x.sameIdentity a <;> cases x.sameIdentity b <;> rfl
  | _ => exact hsingle _ fun _ => rfl

end Json

namespace SlotEdit

variable {root : Json} {many : Bool} {e e' : SlotEdit} {es before : List SlotEdit}
  {slot a b : Option Json}

def apply : SlotEdit → Option Json → Option Json
  | keep, slot => slot
  | clear id, slot => slot.map (·.without id)
  | occupy id, _ => some id
  | extend id, slot =>
      if (slot.getD .null).items.any (·.sameIdentity id) then slot
      else some (.arr ((slot.getD .null).items ++ [id]))

def applyAll (es : List SlotEdit) (slot : Option Json) : Option Json :=
  es.foldl (fun slot e => e.apply slot) slot

/-- The edits of one slot when a record with the identity `root` is written. -/
inductive Suits (root : Json) : Bool → SlotEdit → Prop
  | keep (many : Bool) : Suits root many .keep
  | clear (id : Json) : Suits root false (.clear id)
  | occupy : Suits root false (.occupy root)
  | extend : Suits root true (.extend root)

section Repetition

variable (hroot : root.sameIdentity root = true)

include hroot

theorem apply_apply (h : e.Suits root many) (slot : Option Json) :
    e.apply (e.apply slot) = e.apply slot := by
  cases h with
  | keep => rfl
  | occupy => rfl
  | clear id =>
    simp only [apply, Option.map_map]
    exact Option.map_congr fun x _ => Json.without_without x id
  | extend =>
    by_cases hany : (slot.getD .null).items.any (·.sameIdentity root) = true
    · have hkept : (extend root).apply slot = slot := if_pos hany
      rw [hkept, hkept]
    · have hgrown : (extend root).apply slot = some (.arr ((slot.getD .null).items ++ [root])) :=
        if_neg hany
      rw [hgrown]
      exact if_pos (by rw [Option.getD_some, Json.items_arr, List.any_append, List.any_cons, hroot,
        Bool.true_or, Bool.or_true])

theorem apply_apply_apply (h : e.Suits root many) (h' : e'.Suits root many) (slot : Option Json) :
    e.apply (e'.apply (e.apply slot)) = e.apply (e'.apply slot) := by
  cases h with
  | keep => rfl
  | occupy => rfl
  | clear id =>
    cases h' with
    | keep => exact apply_apply hroot (.clear id) slot
    | occupy => rfl
    | clear id' =>
      simp only [apply, Option.map_map]
      exact Option.map_congr fun x _ => Json.without_without_without x id id'
  | extend =>
    cases h' with
    | keep => exact apply_apply hroot .extend slot
    | extend => rw [apply_apply hroot .extend]

theorem apply_applyAll_congr (h : e.Suits root many) (hes : ∀ e ∈ es, e.Suits root many)
    (hab : e.apply a = e.apply b) : e.apply (applyAll es a) = e.apply (applyAll es b) := by
  induction es generalizing a b with
  | nil => exact hab
  | cons e' rest ih =>
    have h' := hes e' List.mem_cons_self
    refine ih (fun d hd => hes d (List.mem_cons_of_mem _ hd)) ?_
    rw [← apply_apply_apply hroot h h' a, hab, apply_apply_apply hroot h h' b]

theorem applyAll_apply (hes : ∀ e ∈ es, e.Suits root many) (he : e ∈ es) (slot : Option Json) :
    applyAll es (e.apply slot) = applyAll es slot := by
  have h := hes e he
  obtain ⟨before, after, rfl⟩ := List.append_of_mem he
  simp only [applyAll, List.foldl_append, List.foldl_cons]
  refine congrArg (applyAll after) ?_
  exact apply_applyAll_congr hroot h (fun d hd => hes d (List.mem_append_left _ hd))
    (apply_apply hroot h slot)

/-- Edits that are all made again later need not have been made before. -/
theorem applyAll_applyAll_of_subset (hes : ∀ e ∈ es, e.Suits root many) (h : before ⊆ es)
    (slot : Option Json) : applyAll es (applyAll before slot) = applyAll es slot := by
  induction before generalizing slot with
  | nil => rfl
  | cons e rest ih =>
    obtain ⟨he, hrest⟩ := List.cons_subset.mp h
    exact (ih hrest (e.apply slot)).trans (applyAll_apply hroot hes he slot)

theorem applyAll_applyAll (hes : ∀ e ∈ es, e.Suits root many) (slot : Option Json) :
    applyAll es (applyAll es slot) = applyAll es slot :=
  applyAll_applyAll_of_subset hroot hes (List.Subset.refl es) slot

end Repetition

theorem exists_applyAll (hes : ∀ e ∈ es, e.Suits root many) {v : Json}
    (hv : many = true → ∃ ids, v = .arr ids) :
    ∃ w, applyAll es (some v) = some w ∧ (many = true → ∃ ids, w = .arr ids) := by
  induction es generalizing v with
  | nil => exact ⟨v, rfl, hv⟩
  | cons e rest ih =>
    have hrest := fun d hd => hes d (List.mem_cons_of_mem e hd)
    obtain ⟨w, hw, hlist⟩ : ∃ w, e.apply (some v) = some w ∧ (many = true → ∃ ids, w = .arr ids) := by
      cases hes e List.mem_cons_self with
      | keep => exact ⟨v, rfl, hv⟩
      | clear id => exact ⟨v.without id, rfl, fun h => nomatch h⟩
      | occupy => exact ⟨root, rfl, fun h => nomatch h⟩
      | extend =>
        by_cases hany : v.items.any (·.sameIdentity root) = true
        · exact ⟨v, if_pos hany, hv⟩
        · exact ⟨_, if_neg hany, fun _ => ⟨_, rfl⟩⟩
    obtain ⟨u, hu, hlast⟩ := ih hrest hlist
    exact ⟨u, by rw [applyAll, List.foldl_cons, hw]; exact hu, hlast⟩

end SlotEdit

open Registry

variable {g : Registry} {ts ts' : Tables} {m n target : Model} {o r : Relation} {key k : RecordKey}
  {record id saved bound : Json} {name : String}

/-- Linking occupies a single slot and extends a list. -/
theorem Json.get?_linked_self {many : Bool} {field : String} (h : record.IsObject)
    (hid : target.IsIdentity id) (hs : target.FitsSlot many (record.get field)) :
    (record.linked field id many).get? field =
      (if many then SlotEdit.extend id else .occupy id).apply (record.get? field) := by
  rw [linked_eq h]
  cases many with
  | true =>
    rw [if_pos rfl, if_pos rfl]
    change _ = if (record.get field).items.any (·.sameIdentity id) then record.get? field
      else some (.arr ((record.get field).items ++ [id]))
    split
    · rfl
    · exact get?_set_self h _ _
  | false =>
    rw [if_neg Bool.false_ne_true, if_neg Bool.false_ne_true]
    change _ = some id
    split
    · next hsame =>
      generalize hslot : record.get field = slot at hs hsame
      cases hs with
      | absent => exact nomatch hsame.symm.trans (FieldType.IsIdentity.not_sameIdentity_null id)
      | one hone => exact get?_of_get (hslot.trans ((hone.sameIdentity_iff hid).mp hsame)) hid.ne_null
    · exact get?_set_self h _ _

namespace Assignment

variable {l : Assignment} {ls : List Assignment}

def edit (l : Assignment) (n : Model) (k : RecordKey) (o : Relation) : SlotEdit :=
  if l.holder.path = n.path ∧ l.relation.name = o.name then
    if k = l.key then if o.isCollection then .extend l.id else .occupy l.id
    else if o.kind = .oneToOne then .clear l.id else .keep
  else .keep

theorem suits_edit (l : Assignment) (n : Model) (k : RecordKey) (o : Relation) :
    (l.edit n k o).Suits l.id o.isCollection := by
  unfold edit
  split
  · split
    · cases o.isCollection with
      | true => exact .extend
      | false => exact .occupy
    · split
      · next hkind =>
        rw [Relation.isCollection, hkind]
        exact .clear l.id
      · exact .keep _
  · exact .keep _

theorem get?_apply (hg : g.Coherent) (hl : l.release.IsProper g target) (hn : n ∈ g.models)
    (h : g.Fits n k record) (ho : o ∈ n.owning) :
    (l.apply n.path k record).get? o.name = (l.edit n k o).apply (record.get? o.name) := by
  by_cases hsame : l.holder.path = n.path ∧ l.relation.name = o.name
  · obtain rfl : l.holder = n := eq_of_path hl.mem_models hn hsame.1
    obtain rfl : l.relation = o := hg.eq_of_name hn (List.mem_filter.mp hl.mem_owning).1
      (List.mem_filter.mp ho).1 hsame.2
    unfold edit
    rw [if_pos hsame]
    by_cases hk : k = l.key
    · have hwrite : l.write l.holder.path k record =
          record.linked l.relation.name l.id l.relation.isCollection := by
        simp only [write, Tables.within, if_true, if_pos hk]
      have hspared : (l.apply l.holder.path k record).get? l.relation.name =
          (l.write l.holder.path k record).get? l.relation.name := by
        unfold apply claim
        split
        · refine Cut.get?_apply_of_not hl hn fun hcut => ?_
          exact of_decide_eq_false hcut.2.2 hk
        · rfl
      rw [hspared, hwrite, if_pos hk]
      exact Json.get?_linked_self h.isObject hl.isIdentity (h.slots _ ho target hl.get?_target)
    · have hwrite : l.write l.holder.path k record = record := by
        simp only [write, Tables.within, if_true, if_neg hk]
      rw [if_neg hk, apply, hwrite, claim]
      split
      · exact Cut.get?_apply_self hl h (decide_eq_false hk)
      · rfl
  · have hne : ¬(l.holder = n ∧ l.relation.name = o.name) :=
      fun he => hsame ⟨congrArg Model.path he.1, he.2⟩
    rw [get?_apply_of_not hl hn h.isObject hne, edit, if_neg hsame]
    rfl

theorem Chain.get?_slot (hg : g.Coherent) (hts : g.AllFit ts) (h : Chain ls ts ts')
    (hls : ∀ l ∈ ls, ∃ target, l.release.IsProper g target) (hn : n ∈ g.models)
    (hrow : ts.row? n.path k = some record) {after : Json} (hafter : ts'.row? n.path k = some after)
    (ho : o ∈ n.owning) : after.get? o.name =
      SlotEdit.applyAll (ls.map (·.edit n k o)) (record.get? o.name) := by
  induction h generalizing record with
  | nil =>
    rw [← Option.some.inj (hrow.symm.trans hafter)]
    rfl
  | @cons l rest ts next ts' h _ ih =>
    obtain ⟨target, hl⟩ := hls l List.mem_cons_self
    have hnext : next.row? n.path k = some (l.apply n.path k record) := by
      rw [h, hrow, Option.map_some]
    rw [ih (hts.rewrites h fun _ hm _ _ hfits => fits_apply hg hl hm hfits)
      (fun j hj => hls j (List.mem_cons_of_mem _ hj)) hnext hafter,
      get?_apply hg hl hn (hts n hn k record hrow) ho]
    rfl

end Assignment

namespace Service

variable {s : Service} {ls ls' : List Assignment}

def claimed (m : Model) (key : RecordKey) (saved : Json) (n : Model) (k : RecordKey) (o : Relation) :
    SlotEdit :=
  if n.path = m.path ∧ k ≠ key ∧ o.kind = .oneToOne then
    match saved.present? o.name with
    | some x => .clear x
    | none => .keep
  else .keep

theorem suits_claimed (m : Model) (key : RecordKey) (root saved : Json) (n : Model) (k : RecordKey)
    (o : Relation) : (claimed m key saved n k o).Suits root o.isCollection := by
  unfold claimed
  split
  · next h =>
    rw [Relation.isCollection, h.2.2]
    split
    · exact .clear _
    · exact .keep _
  · exact .keep _

theorem get?_applyAll_claims (hg : g.Coherent) (hm : m ∈ g.models) (hsaved : g.Fits m key saved)
    (hn : n ∈ g.models) (h : g.Fits n k record) (ho : o ∈ n.owning) :
    (Cut.applyAll (claims m key saved) n.path k record).get? o.name =
      (claimed m key saved n k o).apply (record.get? o.name) := by
  have hproper : ∀ c ∈ claims m key saved, ∃ target, c.IsProper g target :=
    fun c hc => isProper_of_mem_claims hg hm hsaved hc
  have hcut {c : Cut} (hc : c ∈ claims m key saved) (hholder : c.holder = n)
      (hname : c.relation.name = o.name) : n = m ∧ o.kind = .oneToOne ∧
        saved.present? o.name = some c.id ∧ c.spared = fun k => decide (k = key) := by
    obtain ⟨r, hr, hkind, x, hx, rfl⟩ := mem_claims_iff.mp hc
    obtain rfl : m = n := hholder
    obtain rfl := hg.eq_of_name hm (List.mem_filter.mp hr).1 (List.mem_filter.mp ho).1 hname
    exact ⟨rfl, hkind, hx, rfl⟩
  by_cases hfound : ∃ c ∈ claims m key saved, c.holder = n ∧ c.relation.name = o.name ∧
      c.spared k = false
  · obtain ⟨c, hc, hholder, hname, hs⟩ := id hfound
    obtain ⟨rfl, hkind, hx, hspared⟩ := hcut hc hholder hname
    have hk : k ≠ key := of_decide_eq_false ((congrFun hspared k).symm.trans hs)
    rw [claimed, if_pos ⟨rfl, hk, hkind⟩, hx]
    refine Cut.get?_applyAll_of_mem hg hproper hn h (fun d hd hdh hdn => ?_) hfound
    obtain ⟨-, -, hd, -⟩ := hcut hd hdh hdn
    exact Option.some.inj (hd.symm.trans hx)
  · have hkeep : claimed m key saved n k o = .keep := by
      unfold claimed
      split
      · next hc =>
        obtain rfl := eq_of_path hn hm hc.1
        split
        · next x hx =>
          refine absurd ⟨_, mem_claims_iff.mpr ⟨o, ho, hc.2.2, x, hx, rfl⟩, rfl, rfl, ?_⟩ hfound
          exact decide_eq_false hc.2.1
        · rfl
      · rfl
    rw [hkeep, Cut.get?_applyAll_of_not_mem hg hproper hn h fun c hc hholder hname hs =>
      absurd ⟨c, hc, hholder, hname, hs⟩ hfound]
    rfl

def LinksBack (g : Registry) (m : Model) (id : Json) (l : Assignment) (link : BackLink) : Prop :=
  (l.id = id ∧ l.release.IsProper g m) ∧ StandsFor link l

theorem leftUnique_linksBack (hg : g.Coherent) (m : Model) (id : Json) :
    Relator.LeftUnique (LinksBack g m id) := by
  rintro ⟨holder, key, relation, x⟩ ⟨holder', key', relation', x'⟩ link ⟨⟨hid, hl⟩, h⟩
    ⟨⟨hid', hl'⟩, h'⟩
  obtain rfl : holder = holder' :=
    eq_of_path hl.mem_models hl'.mem_models (h.model.symm.trans h'.model)
  obtain rfl : relation = relation' := hg.eq_of_name hl.mem_models (List.mem_filter.mp hl.mem_owning).1
    (List.mem_filter.mp hl'.mem_owning).1 (h.field.symm.trans h'.field)
  obtain rfl : key = key' := Option.some.inj (h.key.symm.trans h'.key)
  obtain rfl : x = x' := hid.trans hid'.symm
  rfl

def edits (m : Model) (key : RecordKey) (saved : Json) (ls : List Assignment) (n : Model) (k : RecordKey)
    (o : Relation) : List SlotEdit :=
  claimed m key saved n k o :: ls.map (·.edit n k o)

theorem suits_edits (hls : ∀ l ∈ ls, l.id = id) (m : Model) (key : RecordKey) (saved : Json) (n : Model)
    (k : RecordKey) (o : Relation) : ∀ e ∈ edits m key saved ls n k o, e.Suits id o.isCollection := by
  intro e he
  rcases List.mem_cons.mp he with rfl | he
  · exact suits_claimed m key id saved n k o
  · obtain ⟨l, hl, rfl⟩ := List.mem_map.mp he
    exact hls l hl ▸ l.suits_edit n k o

structure SlotsEdited (n : Model) (edits : Relation → List SlotEdit) (before after : Json) : Prop where
  others : ∀ name, (∀ o ∈ n.owning, o.name ≠ name) → after.get? name = before.get? name
  slots : ∀ o ∈ n.owning, after.get? o.name = SlotEdit.applyAll (edits o) (before.get? o.name)

/-- Once a record stands in its place, its claims and the links to it edit the slots of all records, and
which links there are depends on what its inverse relations are bound to. -/
theorem Settled.exists_edits (hg : s.registry.Coherent) (hts : s.registry.AllFit ts)
    (hm : m ∈ s.registry.models) (h : s.Settled ts ts' m key id saved bound) :
    ∃ ls, List.Forall₂ (LinksBack s.registry m id) ls
        (m.relations.flatMap (s.registry.backLinks bound)) ∧
      ∀ n ∈ s.registry.models, ∀ k before, (ts.put m.path key saved).row? n.path k = some before →
        ∃ after, ts'.row? n.path k = some after ∧
          SlotsEdited n (edits m key saved ls n k) before after := by
  obtain ⟨next, ls, hput, hcons, hchain, hlinks, hls⟩ := h.steps
  have hproper : ∀ l ∈ ls, ∃ target, l.release.IsProper s.registry target :=
    fun l hl => ⟨m, (hls l hl).proper⟩
  refine ⟨ls, ?_, fun n hn k before hbefore => ?_⟩
  · exact (List.forall₂_and_left ls _).mpr
      ⟨fun l hl => ⟨(hls l hl).id_eq, (hls l hl).proper⟩, hlinks.flip⟩
  have hfits := allFit_put hts hm h.fits n hn k before hbefore
  have hnext : next.row? n.path k = some (Cut.applyAll (claims m key saved) n.path k before) := by
    rw [hput, hbefore, Option.map_some]
  obtain ⟨after, hafter, hsame⟩ := hchain.exists_row hg hcons.fits hproper hn hnext
  refine ⟨after, hafter, fun name hname => ?_, fun o ho => ?_⟩
  · rw [hsame name]
    · refine Cut.get?_applyAll_of_not_mem hg (fun c hc => isProper_of_mem_claims hg hm h.fits hc) hn hfits ?_
      intro c hc hholder hcn
      obtain ⟨target, hproper⟩ := isProper_of_mem_claims hg hm h.fits hc
      exact absurd hcn (hname c.relation (hholder ▸ hproper.mem_owning))
    · rintro l hl ⟨rfl, hln⟩
      exact hname l.relation (hls l hl).proper.mem_owning hln
  · rw [hchain.get?_slot hg hcons.fits hproper hn hnext hafter ho,
      get?_applyAll_claims hg hm h.fits hn hfits ho]
    rfl

end Service

end EntityGraph
