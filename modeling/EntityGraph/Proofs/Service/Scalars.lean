import EntityGraph.Proofs.Coercion.Repetition
import EntityGraph.Proofs.Service.Fitting
import EntityGraph.Proofs.Service.Frame
import EntityGraph.Proofs.Service.Rules

namespace EntityGraph

def Model.Converted (m : Model) (v : Json) : Prop :=
  ∀ a ∈ m.attributes, ∀ w, v.get? a.name = some w → ∃ raw, coerce a.type raw = .ok w

def Requirement.converted : Requirement :=
  .scalars Model.Converted Model.Converted

theorem Model.Converted.congr {m : Model} {v w : Json} (h : m.Converted v)
    (hvw : ∀ a ∈ m.attributes, w.get? a.name = v.get? a.name) : m.Converted w :=
  fun a ha x hx => h a ha x (hvw a ha ▸ hx)

theorem Attribute.Takes.exists_raw {a : Attribute} {members : List (String × Json)}
    {before after : Option Json} (h : a.Takes members before after)
    (hbefore : ∀ w, before = some w → ∃ raw, coerce a.type raw = .ok w) {w : Json}
    (hw : after = some w) : ∃ raw, coerce a.type raw = .ok w := by
  unfold Takes at h
  split at h
  · next raw _ =>
    obtain ⟨v, hv, hafter⟩ := h
    obtain rfl := Option.some.inj (hafter.symm.trans hw)
    exact ⟨raw, hv⟩
  · exact hbefore w (h ▸ hw)

namespace EntityInput

variable {m : Model} {input : EntityInput} {members : List (String × Json)} {e : Json}

theorem members_without (h : input.members m = .ok members) (key : String) :
    (input.without key).members m = .ok (OrderedMap.erase members key) := by
  cases input with
  | fields given => exact congrArg (Except.ok <| OrderedMap.erase · key) (Except.ok.inj h)
  | entity v =>
    cases v <;> first | cases h; rfl | cases h

theorem converted_of_toEntity (hd : m.declaredNames.Nodup) (h : input.toEntity m = .ok e) :
    m.Converted e := by
  obtain ⟨members, -, hmembers, -⟩ := toEntity_eq_ok h
  exact fun a ha w hw =>
    (takes_of_toEntity hd h hmembers ha).exists_raw (fun _ hnone => nomatch hnone) hw

end EntityInput

namespace Service

open Registry UnitOfWork EntityInput

variable {s : Service} {ts ts' : Tables} {m : Model} {key : RecordKey}
  {raw id record incoming saved w : Json} {input : EntityInput} {members : List (String × Json)}
  {path : String} {a : Attribute} {calls : List (Service × Write)}

/-- What is laid over a record has the scalars that are given, and those of the record. -/
theorem takes_merged (hg : s.registry.Coherent) (hm : m ∈ s.registry.models)
    (h : input.toEntity m = .ok incoming) (hmembers : input.members m = .ok members)
    (ha : a ∈ m.attributes) (id record : Json) :
    a.Takes members (record.get? a.name) ((s.merged m id record incoming).get? a.name) := by
  obtain ⟨_, _, -, -, -, hpairs⟩ := toEntity_eq_ok h
  have htakes := takes_of_toEntity (hg.distinctNames m hm) h hmembers ha
  rw [get?_merged s id record ⟨_, hpairs⟩ (hg.attribute_name_ne_identity hm ha).symm,
    hg.get?_fromRecord_attribute hm record ha]
  unfold Attribute.Takes at htakes ⊢
  split at htakes
  · obtain ⟨v, hv, hget⟩ := htakes
    exact ⟨v, hv, by rw [hget, Option.some_or]⟩
  · rw [htakes, Option.none_or]

theorem upholds_converted (hg : s.registry.Coherent) (hhooks : s.hooks = .none) :
    s.Upholds .converted where
  toTolerates := tolerates_scalars hg fun _ _ _ _ _ hscalars h => h.congr hscalars
  accepted _ _ _ := trivial
  generated _ _ := trivial
  described {m input e} ts hm h := by
    refine (converted_of_toEntity (hg.distinctNames m hm) h).congr fun a ha => ?_
    exact get?_agree hg hm ts input (isObject_of_toEntity h)
      fun r hr => hg.name_ne_attribute_name hm hr ha
  overlaid {ts m input raw id record incoming} hm _ hrecord h := by
    have hmerged : m.Converted (s.merged m id record incoming) := by
      obtain ⟨members, -, hmembers, -⟩ := toEntity_eq_ok h
      exact fun a ha w hw => (takes_merged hg hm h hmembers ha id record).exists_raw (hrecord.2 a ha) hw
    exact hmerged.congr fun a ha => get?_agree hg hm ts input (isObject_merged s m id record incoming)
      fun r hr => hg.name_ne_attribute_name hm hr ha
  beforeCreate {m e e'} h hrun := by
    rw [hhooks] at hrun
    exact Except.ok.inj hrun ▸ h
  beforeUpdate {m raw e e'} h hrun := by
    rw [hhooks] at hrun
    exact Except.ok.inj hrun ▸ h
  identified _ _ _ _ := trivial
  stored {ts m e id} hm _ h _ := by
    refine ⟨(isObject_toRecord s.registry m e).set m.identity id, h.congr fun a ha => ?_⟩
    rw [Json.get?_set_of_ne _ (hg.attribute_name_ne_identity hm ha).symm,
      hg.get?_toRecord_attribute hm e ha]

/-- The record that stands under one identity has the scalars of another record. -/
def sameScalars (m : Model) (id saved : Json) : Requirement :=
  .scalars (fun _ _ => True) fun n v => n = m → m.identityOf v = some id →
    ∀ a ∈ m.attributes, v.get? a.name = saved.get? a.name

/-- When an update has taken its course, the record has the scalars that it was written with, whatever has
been linked since. -/
theorem settle_keeps_scalars (hg : s.registry.Coherent) (hts : s.registry.AllFit ts)
    (hm : m ∈ s.registry.models) (hfits : s.registry.Fits m key saved)
    (hid : m.identityOf saved = some id) {links : List BackLink}
    (hlinks : ∀ link ∈ links, ∃ target r, LeadsBack s.registry m link target r)
    (hook : Json → Except Error Json) :
    (s.unshareAll m id saved >>= fun _ => s.writeBackLinks links id >>= fun _ =>
      (attempt fun ts => s.loaded ts m saved) >>= fun loaded =>
        (liftM (hook loaded) : UnitOfWork Json)).Leaves (ts.put m.path key saved)
          fun _ => s.registry.Meets (sameScalars m id saved) := by
  have hput := allFit_put hts hm hfits
  have htolerates : s.Tolerates (sameScalars m id saved) := by
    refine tolerates_scalars hg ?_
    rintro n hn v w hidentity hscalars h rfl hw b hb
    rw [hscalars b hb, h rfl ((Model.identityOf_congr hidentity).symm.trans hw) b hb]
  have hmeets : s.registry.Meets (sameScalars m id saved) (ts.put m.path key saved) := by
    intro n hn k v hrow
    refine ⟨(hput n hn k v hrow).isObject, ?_⟩
    rintro rfl hv b -
    -- no other record stands under this identity
    obtain ⟨x, hx, -, hk, -⟩ := hfits.identity
    obtain rfl := Option.some.inj (hid.symm.trans hx)
    obtain rfl := (hput n hn k v hrow).eq_of_identityOf hv hk
    rw [Tables.row?_put_self, Option.some.injEq] at hrow
    rw [hrow]
  exact (settle_keeps htolerates hmeets hm trivial hlinks saved hook).mono fun _ _ h => h.meets

structure Retaken (s : Service) (ts ts' : Tables) (path : String) (raw : Json) (input : EntityInput)
    (m : Model) (id before after : Json) : Prop where
  model : s.registry.get? path = some m
  coerced : m.coerceIdentity raw = .ok id
  found : ts.find? m.path id = some before
  left : ts'.find? m.path id = some after
  scalars : ∀ members, input.members m = .ok members →
    ∀ a ∈ m.attributes, a.Takes members (before.get? a.name) (after.get? a.name)

theorem update_takes (hg : s.registry.Coherent) (hhooks : s.hooks = .none)
    (hts : s.registry.AllFit ts) {u : UnitOfWork Json} (h : s.revision path raw input = .ok u) :
    u.Leaves ts fun _ ts' => ∃ m id before after, s.Retaken ts ts' path raw input m id before after := by
  have hwritten : u.Leaves ts fun _ ts' => ∃ m id key record incoming bound agreed,
      s.Prepared ts path raw input m id key record incoming bound agreed ∧
        s.registry.Meets (sameScalars m id (s.registry.toRecord m agreed)) ts' := by
    refine update_leaves hg hhooks h fun m id key record incoming bound agreed hp => ?_
    have hm := (mem_of_get? hp.model).1
    exact (settle_keeps_scalars hg hts hm hp.fits hp.identity (fun _ => exists_leadsBack hg hm) _).mono
      fun _ _ hmeets => ⟨m, id, key, record, incoming, bound, agreed, hp, hmeets⟩
  intro e ts' hrun
  obtain ⟨m, id, key, record, incoming, bound, agreed, hp, hmeets⟩ := hwritten e ts' hrun
  obtain ⟨n, x, _, _, _, _, _, hp', hanswered⟩ := update_answers hg hts hhooks h e ts' hrun
  obtain rfl := Option.some.inj (hp.model.symm.trans hp'.model)
  obtain rfl := Except.ok.inj (hp.coerced.symm.trans hp'.coerced)
  have hm := (mem_of_get? hp.model).1
  obtain ⟨after, hafter⟩ := Option.isSome_iff_exists.mp hanswered.stored
  have hown := hanswered.fits.identityOf_of_find? hm hanswered.isIdentity hafter
  refine ⟨m, id, record, after, hp.model, hp.coerced, hp.found, hafter, fun members hmembers a ha => ?_⟩
  have hagreed := get?_agree hg hm ts (input.without m.identity)
    (isObject_merged s m id record incoming) fun r hr => hg.name_ne_attribute_name hm hr ha
  rw [hp.agree_eq] at hagreed
  rw [(record_of_find? hmeets hm hafter).2 rfl hown a ha, hg.get?_toRecord_attribute hm agreed ha, hagreed]
  exact (Attribute.takes_erase (hg.attribute_name_ne_identity hm ha).symm).mp
    (takes_merged hg hm hp.described (members_without hmembers m.identity) ha id record)

/-- An update gives a scalar back to the record that has it. -/
structure GivesBack (s : Service) (ts : Tables) (path : String) (raw : Json) (input : EntityInput)
    (m : Model) (id : Json) (a : Attribute) (w : Json) : Prop where
  model : s.registry.get? path = some m
  coerced : m.coerceIdentity raw = .ok id
  mem_attributes : a ∈ m.attributes
  stored : ∃ record, ts.find? m.path id = some record ∧ record.get? a.name = some w
  given : ∃ members, input.members m = .ok members ∧ (Json.obj members).get? a.name = some w

/-- A scalar that is given back is converted once more. -/
theorem GivesBack.coerce_left (hg : s.registry.Coherent) (hhooks : s.hooks = .none)
    (hts : s.registry.AllFit ts) (h : s.GivesBack ts path raw input m id a w) {u : UnitOfWork Json}
    (hplan : s.revision path raw input = .ok u) {e : Json} (hrun : u.run ts = (.ok e, ts')) :
    ∃ after x, ts'.find? m.path id = some after ∧ after.get? a.name = some x ∧ coerce a.type w = .ok x := by
  obtain ⟨n, y, before, after, hretaken⟩ := update_takes hg hhooks hts hplan e ts' hrun
  obtain rfl := Option.some.inj (h.model.symm.trans hretaken.model)
  obtain rfl := Except.ok.inj (h.coerced.symm.trans hretaken.coerced)
  obtain ⟨members, hmembers, hw⟩ := h.given
  have htakes := hretaken.scalars members hmembers a h.mem_attributes
  simp only [Attribute.Takes, hw] at htakes
  obtain ⟨x, hx, hafter⟩ := htakes
  exact ⟨after, x, hretaken.left, hafter, hx⟩

/-- A converted value is converted to itself, is bindable where a filter brings it along, and stays as it is
in a record to which an update gives it back, just if it does not end in zeros. -/
theorem conversion_repeats_unless_ends_in_zeros {definitions : List ModelDefinition} {g : Registry}
    (hresolved : Registry.ofDefinitions definitions = .ok g)
    (hcalls : ∀ c ∈ calls, c.1.registry = g ∧ c.1.hooks = .none ∧ c.1.GivesUuids) :
    (∀ t v w, coerce t v = .ok w → (coerce t w = .ok w ↔ ¬t.EndsInZeros w)) ∧
    (∀ (f : Filter) path p, f.predicate? path = some p → ∀ w ∈ p.values, w ≠ .null →
      ∀ raw, coerce path.type raw = .ok w →
        (Sql.bindable w path.type = true ↔ ¬path.type.EndsInZeros w)) ∧
    ∀ s : Service, s.registry = g → s.hooks = .none → ∀ path raw input m id a w,
      s.GivesBack (afterCalls calls).tables path raw input m id a w →
        ((afterCalls calls).run (s.update path raw input)).1.isOk = true →
          ∃ after, ((afterCalls calls).run (s.update path raw input)).2.tables.find? m.path id =
              some after ∧ (after.get? a.name = some w ↔ ¬a.type.EndsInZeros w) := by
  have hself {t : FieldType} {v w : Json} (h : coerce t v = .ok w) :
      coerce t w = .ok w ↔ ¬t.EndsInZeros w := by
    rw [coerce_eq_ok_iff]
    exact FieldType.coerce?_eq_self_iff (coerce_eq_ok_iff.mp h)
  refine ⟨fun t v w h => hself h, fun f path p hp w hw hnull raw hraw => ?_, ?_⟩
  · rw [Sql.bindable_iff hp hw hnull]
    exact and_iff_right ⟨raw, coerce_eq_ok_iff.mp hraw⟩
  · rintro s rfl hhooks path raw input m id a w h hok
    have hg := coherent_of_ofDefinitions hresolved
    have hts := allFit_afterCalls hg hcalls
    have hconverted : s.registry.Meets .converted (afterCalls calls).tables :=
      meets_afterCalls hg fun c hc => ⟨(hcalls c hc).1,
        upholds_converted ((hcalls c hc).1 ▸ hg) (hcalls c hc).2.1⟩
    have hm := (mem_of_get? h.model).1
    obtain ⟨record, hrecord, hw⟩ := h.stored
    obtain ⟨v, hv⟩ := (record_of_find? hconverted hm hrecord).2 a h.mem_attributes w hw
    obtain ⟨u, e, hplan, hrun⟩ := Store.exists_of_isOk_run hok
    obtain ⟨after, x, hafter, hget, hx⟩ := h.coerce_left hg hhooks hts hplan hrun
    refine ⟨after, hafter, ?_⟩
    rw [← hself hv, hx, hget, Option.some.injEq, Except.ok.injEq]

end Service

namespace Diary

def definitions : List ModelDefinition :=
  [⟨"Event", "events", true, .standard, [⟨"at", .datetime⟩], [], []⟩]

def start : Attribute :=
  ⟨"at", .datetime⟩

def event : Model :=
  ⟨"Event", "events", true, "id", .long, true, [start], [], []⟩

def service : Service :=
  ⟨⟨[event], by decide +kernel⟩, .standard, .none, fun _ => ""⟩

def whole : Json :=
  .str "2024-03-09T10:15:00"

def zeros : Json :=
  .str "2024-03-09T10:15:00.000"

def calls : List (Service × Write) :=
  [(service, .create "events" (.fields [("at", .str "2024-03-09 10:15:00")])),
    (service, .create "events" (.entity (.obj [("at", .str "2024-03-09T10:15:00.0005")])))]

def path : AccessPath :=
  ⟨[], "at", .datetime, false⟩

def filter : Filter :=
  ⟨"at", .eq, .str "2024-03-09T10:15:00.0005", none⟩

theorem calls_proper : ∀ c ∈ calls, c.1.registry = service.registry ∧ c.1.hooks = .none ∧
    c.1.GivesUuids := by
  have huuids : service.GivesUuids := Service.fresh_of_no_uuids (by decide)
  intro c hc
  simp only [calls, List.mem_cons, List.not_mem_nil, or_false] at hc
  rcases hc with rfl | rfl <;> exact ⟨rfl, rfl, huuids⟩

end Diary

namespace Service

theorem starts_of_events_are_given_back :
    let updated := (afterCalls Diary.calls).run
      (Diary.service.update "events" (.ofNat 2) (.fields [("at", Diary.zeros)]))
    (coerce .datetime Diary.whole = .ok Diary.whole ↔ ¬FieldType.datetime.EndsInZeros Diary.whole) ∧
      (Sql.bindable Diary.zeros .datetime = true ↔ ¬FieldType.datetime.EndsInZeros Diary.zeros) ∧
      updated.1.isOk = true ∧ ∃ after, updated.2.tables.find? "events" (.ofNat 2) = some after ∧
        (after.get? "at" = some Diary.zeros ↔ ¬FieldType.datetime.EndsInZeros Diary.zeros) := by
  have hresolved : Registry.ofDefinitions Diary.definitions = .ok Diary.service.registry := by rfl
  obtain ⟨hcoerce, hbindable, hupdate⟩ :=
    conversion_repeats_unless_ends_in_zeros hresolved Diary.calls_proper
  have hgiven : Diary.service.GivesBack (afterCalls Diary.calls).tables "events" (.ofNat 2)
      (.fields [("at", Diary.zeros)]) Diary.event (.ofNat 2) Diary.start Diary.zeros :=
    ⟨rfl, rfl, .head _, ⟨.ofPairs [("at", Diary.zeros), ("id", .ofNat 2)], by rfl, by rfl⟩,
      [("at", Diary.zeros)], rfl, by rfl⟩
  have hok : ((afterCalls Diary.calls).run (Diary.service.update "events" (.ofNat 2)
      (.fields [("at", Diary.zeros)]))).1.isOk = true := by rfl
  exact ⟨hcoerce .datetime (.str "2024-03-09 10:15:00") Diary.whole (by rfl),
    hbindable Diary.filter Diary.path (.compare Diary.path .eq Diary.zeros) (by rfl) Diary.zeros
      (.head _) nofun (.str "2024-03-09T10:15:00.0005") (by rfl),
    hok, hupdate Diary.service rfl rfl _ _ _ Diary.event (.ofNat 2) Diary.start Diary.zeros hgiven hok⟩

/-- Half a millisecond is written as zeros. These are gone when the start is converted once more, so that
it is not bindable, and an update that gives it back changes it. -/
theorem zeros_of_event_are_gone :
    let updated := (afterCalls Diary.calls).run
      (Diary.service.update "events" (.ofNat 2) (.fields [("at", Diary.zeros)]))
    coerce .datetime (.str "2024-03-09T10:15:00.0005") = .ok Diary.zeros ∧
      coerce .datetime Diary.zeros = .ok Diary.whole ∧ Diary.zeros ≠ Diary.whole ∧
      Diary.filter.predicate? Diary.path = some (.compare Diary.path .eq Diary.zeros) ∧
      Sql.bindable Diary.zeros .datetime = false ∧
      (afterCalls Diary.calls).tables.find? "events" (.ofNat 2) =
        some (.ofPairs [("at", Diary.zeros), ("id", .ofNat 2)]) ∧
      updated.1.isOk = true ∧ updated.2.tables.find? "events" (.ofNat 2) =
        some (.ofPairs [("at", Diary.whole), ("id", .ofNat 2)]) :=
  have hne : Diary.zeros ≠ Diary.whole := fun h => absurd (Json.str.inj h) (by decide)
  ⟨by rfl, by rfl, hne, by rfl, by decide +kernel, by rfl, by rfl, by rfl⟩

end Service

end EntityGraph
