import EntityGraph.Proofs.Entity.Loading
import EntityGraph.Proofs.Service.Frame

namespace EntityGraph

namespace Traversal

open Registry

variable {α β : Type} {f : α → Traversal β} {visited next : Visited}

theorem run_mapM_getElem? {xs : List α} {ys : List β} (h : (xs.mapM f).run visited = .ok (ys, next))
    {i : Nat} {y : β} (hy : ys[i]? = some y) : ∃ x before after, xs[i]? = some x ∧
      ((xs.take i).mapM f).run visited = .ok (ys.take i, before) ∧ (f x).run before = .ok (y, after) := by
  induction xs generalizing visited ys i with
  | nil =>
    cases h
    cases hy
  | cons x rest ih =>
    rw [List.mapM_cons, StateT.run_bind] at h
    obtain ⟨⟨z, visited₁⟩, hx, h⟩ := bind_eq_ok_iff.mp h
    rw [StateT.run_bind] at h
    obtain ⟨⟨zs, visited₂⟩, hrest, h⟩ := bind_eq_ok_iff.mp h
    obtain ⟨rfl, rfl⟩ := Prod.mk.inj (Except.ok.inj h)
    cases i with
    | zero =>
      obtain rfl := Option.some.inj hy
      exact ⟨x, visited, visited₁, rfl, rfl, hx⟩
    | succ i =>
      obtain ⟨w, before, after, hw, htake, hf⟩ := ih hrest hy
      refine ⟨w, before, after, hw, ?_, hf⟩
      rw [List.take_succ_cons, List.mapM_cons, StateT.run_bind, hx, ok_bind, StateT.run_bind, htake]
      rfl

theorem run_foldlM_set {f : Json → Relation → Traversal Json} {rs : List Relation} {e e' : Json}
    (hd : (rs.map Relation.name).Nodup) (he : e.IsObject)
    (h : (rs.foldlM (fun loaded r => do return loaded.set r.name (← f loaded r)) e).run visited =
      .ok (e', next)) {r : Relation} (hr : r ∈ rs) : ∃ loaded v before after,
        ((rs.takeWhile fun o : Relation => o.name != r.name).foldlM
          (fun loaded r => do return loaded.set r.name (← f loaded r)) e).run visited =
            .ok (loaded, before) ∧
          loaded.get? r.name = e.get? r.name ∧ (f loaded r).run before = .ok (v, after) ∧
            e'.get? r.name = some v := by
  induction rs generalizing e visited with
  | nil => exact absurd hr List.not_mem_nil
  | cons o rest ih =>
    obtain ⟨ho, hrest⟩ := List.nodup_cons.mp hd
    rw [List.foldlM_cons, StateT.run_bind] at h
    obtain ⟨⟨e₁, visited₁⟩, hstep, h⟩ := bind_eq_ok_iff.mp h
    have hset := hstep
    rw [StateT.run_bind] at hset
    obtain ⟨⟨v, visited₂⟩, hv, hset⟩ := bind_eq_ok_iff.mp hset
    obtain ⟨rfl, rfl⟩ := Prod.mk.inj (Except.ok.inj hset)
    rcases List.mem_cons.mp hr with rfl | hr
    · have hlater : ∀ q ∈ rest, q.name ≠ r.name := fun q hq hn => ho (hn ▸ List.mem_map_of_mem hq)
      refine ⟨e, v, visited, visited₂, ?_, rfl, hv, ?_⟩
      · rw [List.takeWhile_cons_of_neg (by simp)]
        rfl
      · rw [get?_of_foldlM_set hlater h, Json.get?_set_self he]
    · have hne : o.name ≠ r.name := fun hn => ho (hn ▸ List.mem_map_of_mem hr)
      obtain ⟨loaded, w, before, after, hbefore, hloaded, hw, hget⟩ := ih hrest (he.set o.name v) h hr
      refine ⟨loaded, w, before, after, ?_, by rw [hloaded, Json.get?_set_of_ne e hne], hw, hget⟩
      rw [List.takeWhile_cons_of_pos (by simpa using hne), List.foldlM_cons, StateT.run_bind, hstep, ok_bind]
      exact hbefore

end Traversal

/-- An entity has all scalars of a record. -/
def Model.Carries (m : Model) (row e : Json) : Prop :=
  ∀ a ∈ m.attributes, e.get? a.name = row.get? a.name

namespace Registry

variable {g : Registry} {ts : Tables} {m target : Model} {r : Relation} {depth : Nat}
  {e e' id record row v w x : Json} {key : RecordKey} {visited next : Visited}

/-- What the traversal that loads a record has expanded when it comes to one of the references of an owning
relation. Relations that are declared before have been expanded, and references before this one. -/
def expandedBefore (g : Registry) (ts : Tables) (depth : Nat) (m : Model) (id record : Json)
    (r : Relation) (target : Model) (i : Nat) : Except Error Visited := do
  let (_, visited) ← ((m.relations.takeWhile fun o : Relation => o.name != r.name).foldlM (fun loaded o => do
    return loaded.set o.name (← g.expandRelation ts (g.expand ts depth) id loaded o))
      (g.fromRecord m record)).run [(m.path, id.text)]
  let (_, visited) ← (((record.get r.name).references.take i).mapM fun x =>
    g.expand ts depth target (target.stub x)).run visited
  return visited

theorem carries_of_foldlM (hg : g.Coherent) (hm : m ∈ g.models) {f : Json → Relation → Traversal Json}
    (h : (m.relations.foldlM (fun loaded r => do return loaded.set r.name (← f loaded r))
      (g.fromRecord m row)).run visited = .ok (w, next)) : m.Carries row w := by
  intro a ha
  rw [get?_of_foldlM_set (fun r hr => hg.name_ne_attribute_name hm hr ha) h,
    hg.get?_fromRecord_attribute hm row ha]

/-- An entity that has been expanded before stays as it is; otherwise it gets what is stored. -/
theorem run_expand_cases (hg : g.Coherent) (hm : m ∈ g.models)
    (hid : (m.identityOf e).bind m.identity? = some x) (hfind : ts.find? m.path x = some row)
    (h : (g.expand ts (depth + 1) m e).run visited = .ok (w, next)) :
    if (m.path, x.text) ∈ visited then w = e else m.Carries row w := by
  rcases run_expand_inv h with ⟨rfl, hstays⟩ | ⟨d, y, other, -, hy, hnew, hother, hrun⟩
  · rw [if_pos ((hstays depth x rfl hid).resolve_right (by simp [hfind]))]
  · obtain rfl : x = y := Option.some.inj (hid.symm.trans hy)
    obtain rfl : row = other := Option.some.inj (hfind.symm.trans hother)
    rw [if_neg hnew]
    exact carries_of_foldlM hg hm hrun

theorem carries_of_run_expand (hg : g.Coherent) (hts : g.AllFit ts) (hm : m ∈ g.models)
    (hrow : ts.row? m.path key = some row)
    (h : (g.expand ts depth m (g.fromRecord m row)).run visited = .ok (w, next)) : m.Carries row w := by
  rcases run_expand_inv h with ⟨rfl, -⟩ | ⟨d, x, other, -, hid, -, hother, hrun⟩
  · exact fun a ha => hg.get?_fromRecord_attribute hm row ha
  · obtain ⟨y, hy, hform, hk, -⟩ := (hts m hm key row hrow).identity
    rw [hg.identityOf_fromRecord hm, hy, Option.bind_some] at hid
    obtain rfl := hform.eq_of_identity? hid
    rw [Tables.find?_eq_row? hk, hrow, Option.some.injEq] at hother
    subst hother
    exact carries_of_foldlM hg hm hrun

section Relation

variable (hg : g.Coherent) (hts : g.AllFit ts)

include hg hts

/-- What an owning relation shows comes, reference by reference, from identities. -/
theorem exists_run_of_owning (hm : m ∈ g.models) (hr : r ∈ m.owning)
    (ht : g.get? r.target = some target) (hrow : g.Fits m key record) {loaded : Json}
    (hloaded : loaded.get? r.name = (g.fromRecord m record).get? r.name)
    (h : (g.expandRelation ts (g.expand ts depth) id loaded r).run visited = .ok (v, next)) {i : Nat}
    (hw : (embedded v)[i]? = some w) : ∃ x ws before after, target.IsIdentity x ∧
      (((record.get r.name).references.take i).mapM fun x =>
        g.expand ts depth target (target.stub x)).run visited = .ok (ws, before) ∧
      (g.expand ts depth target (target.stub x)).run before = .ok (w, after) := by
  obtain ⟨hrm, howning⟩ := List.mem_filter.mp hr
  have htm := (hg.target_path hm hrm ht).1
  have hslot := hrow.slots r hr target ht
  rw [hg.get?_fromRecord hm record hr ht, Model.embed_eq_of_fitsSlot hslot] at hloaded
  unfold expandRelation at h
  rw [resolve_eq_ok_iff.mpr ht, Option.isNone_iff_eq_none.mp howning, Json.get_of_get? hloaded] at h
  by_cases hmany : r.isCollection = true
  · rw [if_pos hmany] at h
    change ((do return .arr (← ((record.get r.name).references.map target.stub).mapM
      (g.expand ts depth target)) : Traversal Json)).run visited = _ at h
    rw [StateT.run_bind, List.mapM_map] at h
    obtain ⟨⟨ws, last⟩, hall, h⟩ := bind_eq_ok_iff.mp h
    rw [← (Prod.mk.inj (Except.ok.inj h)).1] at hw
    obtain ⟨x, before, after, hx, htake, hrun⟩ := Traversal.run_mapM_getElem? hall hw
    exact ⟨x, _, before, after, hslot.isIdentity (List.mem_of_getElem? hx), htake, hrun⟩
  · rw [if_neg hmany] at h
    cases hfirst : (record.get r.name).references.head? with
    | none =>
      rw [hfirst] at h
      rw [← (Prod.mk.inj (Except.ok.inj h)).1] at hw
      cases hw
    | some x =>
      rw [hfirst] at h
      change (g.expand ts depth target (target.stub x)).run visited = _ at h
      have hform := hslot.isIdentity (List.mem_of_head? hfirst)
      obtain ⟨members, rfl⟩ := (gives_expand hg hts htm (Model.fitsEntity_stub hform) _ _ _ h).fits.1
      -- a single entity is the first and only one
      obtain ⟨rfl, rfl⟩ : i = 0 ∧ w = .obj members := by
        cases i with
        | zero => exact ⟨rfl, (Option.some.inj hw).symm⟩
        | succ i => cases hw
      exact ⟨x, [], visited, next, hform, rfl, h⟩

theorem exists_run_of_inverse (hm : m ∈ g.models) (hr : r ∈ m.relations) {owner : String}
    (hmb : r.mappedBy = some owner) (ht : g.get? r.target = some target) {loaded : Json}
    (h : (g.expandRelation ts (g.expand ts depth) id loaded r).run visited = .ok (v, next))
    (hw : w ∈ embedded v) : ∃ key row before after, ts.row? target.path key = some row ∧
      (g.expand ts depth target (g.fromRecord target row)).run before = .ok (w, after) := by
  have htm := (hg.target_path hm hr ht).1
  unfold expandRelation at h
  rw [resolve_eq_ok_iff.mpr ht, hmb] at h
  change ((liftM (g.referring ts target owner id) : Traversal (List Json)) >>= fun rows =>
    rows.mapM (g.expand ts depth target) >>= fun related =>
      pure (if r.isCollection then .arr related else related.head?.getD .null)).run visited = _ at h
  cases hreferring : g.referring ts target owner id with
  | error fault =>
    rw [hreferring] at h
    cases h
  | ok found =>
    obtain ⟨records, rfl, hrecords⟩ := exists_records_of_referring hreferring
    rw [hreferring] at h
    change ((records.map (g.fromRecord target)).mapM (g.expand ts depth target) >>= fun related =>
      pure (if r.isCollection then .arr related else related.head?.getD .null)).run visited = _ at h
    rw [StateT.run_bind, List.mapM_map] at h
    obtain ⟨⟨ws, last⟩, hall, h⟩ := bind_eq_ok_iff.mp h
    have hrun {u : Json} (hu : u ∈ ws) : ∃ key row before after, ts.row? target.path key = some row ∧
        (g.expand ts depth target (g.fromRecord target row)).run before = .ok (u, after) := by
      obtain ⟨i, hi⟩ := List.mem_iff_getElem?.mp hu
      obtain ⟨row, before, after, hrow, -, hrun⟩ := Traversal.run_mapM_getElem? hall hi
      obtain ⟨key, hkey⟩ := Tables.mem_records_iff.mp (hrecords row (List.mem_of_getElem? hrow))
      exact ⟨key, row, before, after, hkey, hrun⟩
    rw [← (Prod.mk.inj (Except.ok.inj h)).1] at hw
    split at hw
    · exact hrun hw
    · cases hfirst : ws.head? with
      | none =>
        rw [hfirst] at hw
        cases hw
      | some u =>
        have hu := List.mem_of_head? hfirst
        obtain ⟨key, row, before, after, hrow, hu'⟩ := hrun hu
        obtain ⟨y, hy, hform, -⟩ := (hts target htm key row hrow).identity
        obtain ⟨members, rfl⟩ := (gives_expand hg hts htm
          ⟨isObject_fromRecord g target row, y, by rw [hg.identityOf_fromRecord htm, hy], hform⟩
          _ _ _ hu').fits.1
        rw [hfirst] at hw
        exact List.mem_singleton.mp hw ▸ hrun hu

end Relation

/-- Where relations have plain names a stored entity is loaded without fail. In what is loaded, an instance
that is shown under a relation has all scalars of its record, unless it is shown for a reference and the
traversal has expanded it before. In that case it is left with its identity. -/
theorem shared_instances_keep_their_identity {definitions : List ModelDefinition}
    (hresolved : ofDefinitions definitions = .ok g) (hts : g.AllFit ts) (hrange : g.AllInRange ts)
    (hm : m ∈ g.models) (hid : (m.identityOf e).bind m.identity? = some id)
    (hfind : ts.find? m.path id = some record) (depth : Nat) :
    (g.PlainReferences → ∃ loaded, g.load ts (depth + 2) m e = .ok loaded) ∧
      ∀ loaded, g.load ts (depth + 2) m e = .ok loaded → ∀ r ∈ m.relations,
        ∃ target, g.get? r.target = some target ∧ ∀ i w, (embedded (loaded.get r.name))[i]? = some w →
          ∀ x row, target.identityOf w = some x → ts.find? target.path x = some row →
            (r.isOwning = false → target.Carries row w) ∧
            (r.isOwning = true → ∃ visited,
              g.expandedBefore ts (depth + 1) m id record r target i = .ok visited ∧
                if (target.path, x.text) ∈ visited then w = target.stub x
                else target.Carries row w) := by
  have hg := coherent_of_ofDefinitions hresolved
  refine ⟨fun hplain => exists_load_total hg hplain ts (depth + 2) hm e, fun loaded hload r hr => ?_⟩
  obtain ⟨target, ht⟩ := hg.exists_target hm hr
  refine ⟨target, ht, fun i w hw x row hx hrow => ?_⟩
  obtain ⟨raw, -, hraw⟩ := Option.bind_eq_some_iff.mp hid
  obtain ⟨hform, -⟩ := Model.isIdentity_of_coerceIdentity (hg.identityTypes m hm)
    (Model.identity?_eq_some_iff.mp hraw)
  obtain ⟨key, hk⟩ := hform.exists_key
  have hfits := hts m hm key record ((Tables.find?_eq_row? hk ts m.path).symm.trans hfind)
  have htm := (hg.target_path hm hr ht).1
  rw [load_succ hid hfind] at hload
  obtain ⟨⟨e', next⟩, hrun, hpure⟩ := bind_eq_ok_iff.mp hload
  obtain rfl := Except.ok.inj hpure
  obtain ⟨partly, v, before, after, hbefore, hpartly, hv, hget⟩ := Traversal.run_foldlM_set
    (hg.nodup_relation_names hm) (isObject_fromRecord g m record) hrun hr
  rw [Json.get_of_get? hget] at hw
  refine ⟨fun howning => ?_, fun howning => ?_⟩
  · obtain ⟨owner, hmb⟩ : ∃ owner, r.mappedBy = some owner := by
      cases hmb : r.mappedBy with
      | none => exact nomatch howning.symm.trans (Relation.isOwning_of_none hmb)
      | some owner => exact ⟨owner, rfl⟩
    obtain ⟨k, other, start, last, hother, hexpand⟩ :=
      exists_run_of_inverse hg hts hm hr hmb ht hv (List.mem_of_getElem? hw)
    obtain ⟨y, hy, hyform, hyk, -⟩ := (hts target htm k other hother).identity
    have hstays := gives_expand hg hts htm
      ⟨isObject_fromRecord g target other, y, by rw [hg.identityOf_fromRecord htm, hy], hyform⟩ _ _ _ hexpand
    rw [hstays.identityOf_eq, hg.identityOf_fromRecord htm, hy, Option.some.injEq] at hx
    rw [← hx, Tables.find?_eq_row? hyk, hother, Option.some.injEq] at hrow
    exact hrow ▸ carries_of_run_expand hg hts htm hother hexpand
  · obtain ⟨y, ws, start, last, hy, htake, hexpand⟩ :=
      exists_run_of_owning hg hts hm (List.mem_filter.mpr ⟨hr, howning⟩) ht hfits hpartly hv hw
    have hstub := Model.identityOf_stub (m := target) hy.ne_null
    have hstays := gives_expand hg hts htm (Model.fitsEntity_stub hy) _ _ _ hexpand
    rw [hstays.identityOf_eq, hstub, Option.some.injEq] at hx
    subst hx
    have haccepted := hts.identity?_of_stored hrange htm hy (Tables.stored_of_find? hrow)
    refine ⟨start, ?_, run_expand_cases hg htm (by rw [hstub, Option.bind_some, haccepted]) hrow hexpand⟩
    rw [expandedBefore, hbefore, ok_bind]
    dsimp only
    rw [htake]
    rfl

end Registry

namespace Press

/-- Books with an author and an editor, who may be one and the same person. -/
def definitions : List ModelDefinition :=
  [⟨"Person", "people", true, .standard, [⟨"name", .string⟩], [], []⟩,
    ⟨"Book", "books", true, .standard, [],
      [⟨"author", .manyToOne, "Person", none⟩, ⟨"editor", .manyToOne, "Person", none⟩], []⟩]

def author : Relation :=
  ⟨"author", .manyToOne, "people", none, none⟩

def editor : Relation :=
  ⟨"editor", .manyToOne, "people", none, none⟩

def person : Model :=
  ⟨"Person", "people", true, "id", .long, true, [⟨"name", .string⟩], [], []⟩

def book : Model :=
  ⟨"Book", "books", true, "id", .long, true, [], [author, editor], []⟩

def service : Service :=
  ⟨⟨[person, book], by decide +kernel⟩, .standard, .none, fun _ => ""⟩

theorem resolved : Registry.ofDefinitions definitions = .ok service.registry := by
  rfl

theorem isPlain : service.IsPlain :=
  ⟨⟨definitions, resolved⟩, by decide +kernel, rfl, Service.fresh_of_no_uuids (by decide)⟩

def calls : List (Service × Write) :=
  [(service, .create "people" (.fields [("name", .str "Ada")])),
    (service, .create "books" (.fields [("authorId", .ofNat 1), ("editorId", .ofNat 1)]))]

theorem calls_plain : ∀ c ∈ calls, c.1.registry = service.registry ∧ c.1.IsPlain ∧ c.2.IsLoose := by
  intro c hc
  simp only [calls, List.mem_cons, List.not_mem_nil, or_false] at hc
  rcases hc with rfl | rfl <;> exact ⟨rfl, isPlain, trivial⟩

theorem allInRange : service.registry.AllInRange (Service.afterCalls calls).tables := by
  have hpeople : (Service.afterCalls calls).tables.identities person = [.ofNat 1] := by rfl
  have hbooks : (Service.afterCalls calls).tables.identities book = [.ofNat 1] := by rfl
  intro m hm _ id hid n hn
  simp only [service, List.mem_cons, List.not_mem_nil, or_false] at hm
  rcases hm with rfl | rfl
  · rw [hpeople, List.mem_singleton] at hid
    subst hid
    cases hn
    rfl
  · rw [hbooks, List.mem_singleton] at hid
    subst hid
    cases hn
    rfl

end Press

namespace Registry

theorem editor_of_book_keeps_identity :
    let ts := (Service.afterCalls Press.calls).tables
    ∃ loaded, Press.service.registry.load ts 2 Press.book (.ofPairs [("id", .ofNat 1)]) = .ok loaded ∧
      ∀ r ∈ Press.book.relations, ∃ target, Press.service.registry.get? r.target = some target ∧
        ∀ i w, (embedded (loaded.get r.name))[i]? = some w →
          ∀ x row, target.identityOf w = some x → ts.find? target.path x = some row →
            (r.isOwning = false → target.Carries row w) ∧
            (r.isOwning = true → ∃ visited, Press.service.registry.expandedBefore ts 1 Press.book
                (.ofNat 1) (.ofPairs [("author", .ofNat 1), ("editor", .ofNat 1), ("id", .ofNat 1)])
                r target i = .ok visited ∧
              if (target.path, x.text) ∈ visited then w = target.stub x else target.Carries row w) := by
  obtain ⟨hloads, hshown⟩ := shared_instances_keep_their_identity Press.resolved
    (Service.consistent_afterCalls Press.calls_plain).fits Press.allInRange
    (m := Press.book) (e := .ofPairs [("id", .ofNat 1)]) (.tail _ (.head _)) (by rfl) (by rfl) 0
  obtain ⟨loaded, hload⟩ := hloads Press.isPlain.names
  exact ⟨loaded, hload, hshown loaded hload⟩

/-- The editor of a book is left with the identity where the same person has been shown as the author. -/
theorem editor_of_own_book_is_cut :
    let ts := (Service.afterCalls Press.calls).tables
    let ada := Json.ofPairs [("id", .ofNat 1), ("name", .str "Ada")]
    ∃ loaded, Press.service.registry.load ts 2 Press.book (.ofPairs [("id", .ofNat 1)]) = .ok loaded ∧
      ts.find? "people" (.ofNat 1) = some ada ∧ loaded.get "author" = ada ∧
        loaded.get "editor" = Press.person.stub (.ofNat 1) ∧
          ¬Press.person.Carries ada (loaded.get "editor") := by
  refine ⟨.ofPairs [("author", .ofPairs [("id", .ofNat 1), ("name", .str "Ada")]),
    ("editor", .ofPairs [("id", .ofNat 1)]), ("id", .ofNat 1)], by rfl, by rfl, by rfl, by rfl, ?_⟩
  intro h
  exact nomatch (h ⟨"name", .string⟩ (.head _) : none = some (Json.str "Ada"))

end Registry

end EntityGraph
