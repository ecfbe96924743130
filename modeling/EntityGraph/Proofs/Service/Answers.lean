import EntityGraph.Proofs.Service.Fitting
import EntityGraph.Service.Listing

namespace EntityGraph

namespace Registry

variable {g : Registry} {ts : Tables} {m : Model} {depth : Nat} {id e e' record : Json}

theorem identityOf_of_load (hg : g.Coherent) (hm : m ∈ g.models)
    (hid : m.identityOf e = some id) (hself : m.identity? id = some id)
    (hfind : ts.find? m.path id = some record) (hrecord : m.identityOf record = some id)
    (h : g.load ts depth m e = .ok e') : m.identityOf e' = some id := by
  cases depth with
  | zero =>
    obtain rfl := Except.ok.inj h
    exact hid
  | succ depth =>
    rw [load_succ (by rw [hid, Option.bind_some, hself]) hfind] at h
    obtain ⟨⟨loaded, next⟩, hrun, hpure⟩ := bind_eq_ok_iff.mp h
    obtain rfl := Except.ok.inj hpure
    have hothers : ∀ r ∈ m.relations, r.name ≠ m.identity := fun r hr => hg.name_ne_identity hm hr
    rw [Model.identityOf_congr (get?_of_foldlM_set hothers hrun), hg.identityOf_fromRecord hm, hrecord]

end Registry

def Write.path : Write → String
  | .create path _ | .update path _ _ | .delete path _ | .link path _ _ _ | .unlink path _ _ _ => path

def Write.id? : Write → Option Json
  | .create _ _ => none
  | .update _ id _ | .delete _ id | .link _ id _ _ | .unlink _ id _ _ => some id

/-- The call gives or edits an inverse relation of a model to itself: what it links may be the very entity
that it answers with. -/
def Write.TurnsBack (g : Registry) : Write → Prop
  | .update path _ (.fields members) => ∃ m, g.get? path = some m ∧
      ∃ r ∈ m.relations, r.isOwning = false ∧ r.target = m.path ∧ r.NamedIn members
  | .link path _ relation _ | .unlink path _ relation _ => ∃ m, g.get? path = some m ∧
      ∃ r, m.relation? relation = some r ∧ r.isOwning = false ∧ r.target = m.path
  | _ => False

namespace Service

open Registry UnitOfWork

inductive Answers (s : Service) (store : Store) : Write → Json → Prop
  | create {path : String} {input : EntityInput} {e : Json}
      (h : (store.run (s.create path input)).1 = .ok e) : Answers s store (.create path input) e
  | update {path : String} {id : Json} {input : EntityInput} {e : Json}
      (h : (store.run (s.update path id input)).1 = .ok e) : Answers s store (.update path id input) e
  | link {path : String} {id : Json} {relation : String} {related e : Json}
      (h : (store.run (s.addRelated path id relation related)).1 = .ok e) :
      Answers s store (.link path id relation related) e
  | unlink {path : String} {id : Json} {relation : String} {related e : Json}
      (h : (store.run (s.removeRelated path id relation related)).1 = .ok e) :
      Answers s store (.unlink path id relation related) e

variable {s : Service} {store : Store} {ts : Tables} {m : Model} {id saved e : Json} {path : String}
  {current : Prop}

theorem Answered.read (h : s.Answered current m id saved e ts) (hg : s.registry.Coherent)
    (hmodel : s.registry.get? path = some m) (hself : m.identity? id = some id)
    (hcurrent : s.settings.relationDepth = 0 → current) :
    m.identityOf e = some id ∧ (⟨ts, none⟩ : Store).run (s.get path id) = (.ok e, ⟨ts, none⟩) := by
  have hm := (mem_of_get? hmodel).1
  obtain ⟨record, hfind⟩ := Option.isSome_iff_exists.mp h.stored
  have hrecord := h.fits.identityOf_of_find? hm h.isIdentity hfind
  have hroot {saved : Json} (hsaved : m.identityOf saved = some id) :
      m.identityOf (s.registry.fromRecord m saved) = some id :=
    (hg.identityOf_fromRecord hm saved).trans hsaved
  have hloaded : s.loaded ts m record = .ok e := by
    rw [← h.loaded]
    unfold Service.loaded Service.expanded
    cases hdepth : s.settings.relationDepth with
    | zero => rw [Option.some.inj (hfind.symm.trans (h.same (hcurrent hdepth)))]
    | succ depth =>
      rw [load_succ (by rw [hroot hrecord, Option.bind_some, hself]) hfind,
        load_succ (by rw [hroot h.identity, Option.bind_some, hself]) hfind]
  refine ⟨identityOf_of_load hg hm (hroot h.identity) hself hfind hrecord h.loaded, ?_⟩
  have hplan : s.lookup path id =
      .ok (UnitOfWork.attempt fun ts => do s.loaded ts m (← existing ts m id)) := by
    rw [lookup, resolve_eq_ok_iff.mpr hmodel, ok_bind, Model.identity?_eq_some_iff.mp hself, ok_bind]
    rfl
  refine Store.run_of_ok rfl hplan (run_attempt_eq_ok_iff.mpr ⟨?_, rfl⟩)
  rw [existing_eq_ok_iff.mpr hfind, ok_bind, hloaded]

/-- The entity is what is read from the store by its identity, and if a call has named an identity, it
has named this one. -/
def Reads (s : Service) (store : Store) (path : String) (named : Option Json) (e : Json) : Prop :=
  ∃ m id, s.registry.get? path = some m ∧ m.identityOf e = some id ∧
    (∀ raw, named = some raw → m.coerceIdentity raw = .ok id) ∧
      store.run (s.get path id) = (.ok e, store)

section Calls

variable (hg : s.registry.Coherent) (hts : s.registry.AllFit store.tables)

include hg hts

theorem create_reads (hhooks : s.hooks = .none) (huuids : s.GivesUuids)
    {members : List (String × Json)} (h : (store.run (s.create path (.fields members))).1 = .ok e)
    (hroom : ∀ m, s.registry.get? path = some m → m.identityGenerated = true →
      m.identityType = .integer → (store.tables.table m.path).sequence < 0x7fffffff) :
    s.Reads (store.run (s.create path (.fields members))).2 path none e := by
  obtain ⟨u, ts, hu, hrun, hstore⟩ := Store.exists_of_run_eq_ok h
  change (store.run (s.create path (.fields members))).2 = _ at hstore
  obtain ⟨m, id, saved, hmodel, hanswered, haccepted⟩ :=
    create_answers hg hts hhooks huuids hu e ts hrun
  obtain ⟨hid, hget⟩ := hanswered.read hg hmodel (haccepted (hroom m hmodel)) fun _ => ⟨members, rfl⟩
  rw [hstore]
  exact ⟨m, id, hmodel, hid, nofun, hget⟩

theorem update_reads (hhooks : s.hooks = .none) {raw : Json} {members : List (String × Json)}
    (h : (store.run (s.update path raw (.fields members))).1 = .ok e)
    (hdepth : s.settings.relationDepth = 0 →
      ¬(Write.update path raw (.fields members)).TurnsBack s.registry) :
    s.Reads (store.run (s.update path raw (.fields members))).2 path (some raw) e := by
  obtain ⟨u, ts, hu, hrun, hstore⟩ := Store.exists_of_run_eq_ok h
  change (store.run (s.update path raw (.fields members))).2 = _ at hstore
  obtain ⟨m, id, key, record, incoming, bound, agreed, hp, hanswered⟩ :=
    update_answers hg hts hhooks hu e ts hrun
  obtain ⟨hmodel, hcoerce⟩ := And.intro hp.model hp.coerced
  have hm := (mem_of_get? hmodel).1
  have hself := (Model.isIdentity_of_coerceIdentity (hg.identityTypes m hm) hcoerce).2
  obtain ⟨hid, hget⟩ := hanswered.read hg hmodel hself fun hzero =>
    ⟨members, rfl, fun o ho howning ht hnamed =>
      hdepth hzero ⟨m, hmodel, o, ho, howning, ht, hnamed⟩⟩
  rw [hstore]
  exact ⟨m, id, hmodel, hid, fun v hv => Option.some.inj hv ▸ hcoerce, hget⟩

theorem edit_reads {link : Bool} {raw related : Json} {name : String}
    (h : (store.run (s.editRelated link path raw name related)).1 = .ok e)
    (hdepth : s.settings.relationDepth = 0 →
      ¬(Write.link path raw name related).TurnsBack s.registry) :
    s.Reads (store.run (s.editRelated link path raw name related)).2 path (some raw) e := by
  obtain ⟨u, ts, hu, hrun, hstore⟩ := Store.exists_of_run_eq_ok h
  change (store.run (s.editRelated link path raw name related)).2 = _ at hstore
  obtain ⟨m, r, id, saved, hmodel, hname, hcoerce, hanswered⟩ := edit_answers hg hts hu e ts hrun
  have hm := (mem_of_get? hmodel).1
  have hself := (Model.isIdentity_of_coerceIdentity (hg.identityTypes m hm) hcoerce).2
  obtain ⟨hid, hget⟩ := hanswered.read hg hmodel hself fun hzero => by
    by_contra hother
    rw [not_or, Bool.not_eq_true, not_not] at hother
    exact hdepth hzero ⟨m, hmodel, r, hname, hother⟩
  rw [hstore]
  exact ⟨m, id, hmodel, hid, fun v hv => Option.some.inj hv ▸ hcoerce, hget⟩

end Calls

/-- What a call answers with is what is read right after it by its identity, whatever has been called
before. Only where nothing is expanded may the answer be older than the links that the call writes from
the other side of a relation of a model to itself. -/
theorem answers_are_stored {definitions : List ModelDefinition}
    (hresolved : ofDefinitions definitions = .ok s.registry) (hhooks : s.hooks = .none)
    (huuids : s.GivesUuids) {calls : List (Service × Write)}
    (hcalls : ∀ c ∈ calls, c.1.registry = s.registry ∧ c.1.hooks = .none ∧ c.1.GivesUuids)
    {w : Write} (hw : w.IsLoose) (h : s.Answers (afterCalls calls) w e)
    (hdepth : s.settings.relationDepth = 0 → ¬w.TurnsBack s.registry)
    (hroom : ∀ path input, w = .create path input → ∀ m, s.registry.get? path = some m →
      m.identityGenerated = true → m.identityType = .integer →
        ((afterCalls calls).tables.table m.path).sequence < 0x7fffffff) :
    s.Reads (s.perform (afterCalls calls) w) w.path w.id? e := by
  have hg := coherent_of_ofDefinitions hresolved
  have hts := allFit_afterCalls hg hcalls
  cases h with
  | @create path input e h =>
    cases input with
    | entity v => exact hw.elim
    | fields members => exact create_reads hg hts hhooks huuids h (hroom path _ rfl)
  | @update path raw input e h =>
    cases input with
    | entity v => exact hw.elim
    | fields members => exact update_reads hg hts hhooks h hdepth
  | link h => exact edit_reads hg hts h hdepth
  | unlink h => exact edit_reads hg hts h hdepth

end Service

namespace Club

def pair : List (Service × Write) :=
  [(service, .create "members" (.fields [("name", .str "Ada")])),
    (service, .create "members" (.fields [("name", .str "Bo")]))]

theorem pair_proper : ∀ c ∈ pair, c.1.registry = service.registry ∧ c.1.hooks = .none ∧
    c.1.GivesUuids := by
  have huuids : service.GivesUuids := Service.fresh_of_no_uuids (by decide)
  intro c hc
  simp only [pair, List.mem_cons, List.not_mem_nil, or_false] at hc
  rcases hc with rfl | rfl <;> exact ⟨rfl, rfl, huuids⟩

end Club

namespace Service

/-- A member becomes the mentor of herself and of another one, and is answered as she is read. -/
theorem mentor_of_both_is_read :
    let w := Write.update "members" (.str "1") (.fields [("menteesIds", .arr [.ofNat 1, .ofNat 2])])
    ∃ e, Club.service.Answers (afterCalls Club.pair) w e ∧
      e.get "mentor" = .ofPairs [("id", .ofNat 1)] ∧
        (e.get "mentees").items.map (·.get "name") = [.str "Ada", .str "Bo"] ∧
          Club.service.Reads (Club.service.perform (afterCalls Club.pair) w) w.path w.id? e := by
  intro w
  obtain ⟨e, he, hmentor, hmentees⟩ : ∃ e, ((afterCalls Club.pair).run (Club.service.update "members"
      (.str "1") (.fields [("menteesIds", .arr [.ofNat 1, .ofNat 2])]))).1 = .ok e ∧
        e.get "mentor" = .ofPairs [("id", .ofNat 1)] ∧
          (e.get "mentees").items.map (·.get "name") = [.str "Ada", .str "Bo"] :=
    ⟨_, rfl, rfl, rfl⟩
  have hresolved : Registry.ofDefinitions Club.definitions = .ok Club.service.registry := by rfl
  have hanswers : Club.service.Answers (afterCalls Club.pair) w e := .update he
  have hloose : w.IsLoose := trivial
  have hupdate : ∀ path input, w ≠ .create path input := nofun
  -- the call is no longer looked into
  clear_value w
  have hdepth : Club.service.settings.relationDepth = 0 → ¬w.TurnsBack Club.service.registry := nofun
  exact ⟨e, hanswers, hmentor, hmentees, answers_are_stored hresolved rfl
    (Club.pair_proper _ (.head _)).2.2 Club.pair_proper hloose hanswers hdepth
    fun path input hw => absurd hw (hupdate path input)⟩

/-- Where nothing is expanded, a member who becomes her own mentor is answered without one. -/
theorem own_mentor_is_missing_from_answer :
    let s : Service := { Club.service with settings := { Settings.standard with relationDepth := 0 } }
    let w := Write.update "members" (.ofNat 1) (.fields [("menteesIds", .arr [.ofNat 1])])
    ∃ e e', s.Answers (afterCalls Club.pair) w e ∧ Club.member.identityOf e = some (.ofNat 1) ∧
      ((s.perform (afterCalls Club.pair) w).run (s.get "members" (.ofNat 1))).1 = .ok e' ∧
        e.get "mentor" = .null ∧ e'.get "mentor" = .ofPairs [("id", .ofNat 1)] :=
  ⟨_, _, .update rfl, rfl, rfl, rfl, rfl⟩

end Service

end EntityGraph
