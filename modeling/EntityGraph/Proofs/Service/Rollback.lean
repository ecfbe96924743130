import EntityGraph.Proofs.Service.Run
import EntityGraph.Proofs.Store.Session
import EntityGraph.Service.Listing

namespace EntityGraph

inductive Read
  | list (path : String) (request : PageRequest) (spec : FilterSpec)
  | get (path : String) (id : Json)
  | related (path : String) (id : Json) (relation : String)

def Write.Answer : Write → Type
  | .delete .. => Unit
  | _ => Json

def Read.Answer : Read → Type
  | .list .. => Listing
  | _ => Json

namespace Service

variable {s : Service} {store : Store}

def plan (s : Service) : (w : Write) → Except Error (Transaction w.Answer)
  | .create path input => s.create path input
  | .update path id input => s.update path id input
  | .delete path id => s.delete path id
  | .link path id relation related => s.addRelated path id relation related
  | .unlink path id relation related => s.removeRelated path id relation related

def query (s : Service) : (q : Read) → Except Error (Transaction q.Answer)
  | .list path request spec => s.list path request spec
  | .get path id => s.get path id
  | .related path id relation => s.getRelated path id relation

theorem perform_eq (s : Service) (store : Store) (w : Write) :
    s.perform store w = (store.run (s.plan w)).2 := by
  cases w <;> rfl

/-- Every exit of a call that writes lies before its only commit. -/
theorem exists_plan_eq (s : Service) (w : Write) : ∃ work, s.plan w = committing work := by
  cases w with
  | create path input => exact ⟨s.creation path input, rfl⟩
  | update path id input => exact ⟨s.revision path id input, rfl⟩
  | delete path id => exact ⟨s.deletion path id, rfl⟩
  | link path id relation related => exact ⟨s.relatedEdit true path id relation related, rfl⟩
  | unlink path id relation related => exact ⟨s.relatedEdit false path id relation related, rfl⟩

theorem exists_attempt_of_query {q : Read} {t : Transaction q.Answer} (h : s.query q = .ok t) :
    ∃ f, t = (UnitOfWork.attempt f).committed := by
  cases q with
  | list path request spec =>
    obtain ⟨work, hwork, h⟩ := bind_eq_ok_iff.mp h
    obtain ⟨m, -, hwork⟩ := bind_eq_ok_iff.mp hwork
    obtain ⟨predicate, -, hwork⟩ := bind_eq_ok_iff.mp hwork
    obtain ⟨order, -, hwork⟩ := bind_eq_ok_iff.mp hwork
    obtain rfl := pure_eq_ok_iff.mp hwork
    exact ⟨_, (pure_eq_ok_iff.mp h).symm⟩
  | get path id =>
    obtain ⟨work, hwork, h⟩ := bind_eq_ok_iff.mp h
    obtain ⟨m, -, hwork⟩ := bind_eq_ok_iff.mp hwork
    obtain ⟨id, -, hwork⟩ := bind_eq_ok_iff.mp hwork
    obtain rfl := pure_eq_ok_iff.mp hwork
    exact ⟨_, (pure_eq_ok_iff.mp h).symm⟩
  | related path id relation =>
    obtain ⟨work, hwork, h⟩ := bind_eq_ok_iff.mp h
    obtain ⟨m, -, hwork⟩ := bind_eq_ok_iff.mp hwork
    obtain ⟨r, -, hwork⟩ := bind_eq_ok_iff.mp hwork
    obtain ⟨id, -, hwork⟩ := bind_eq_ok_iff.mp hwork
    obtain rfl := pure_eq_ok_iff.mp hwork
    exact ⟨_, (pure_eq_ok_iff.mp h).symm⟩

theorem open_of_committing {α : Type} {work : Except Error (UnitOfWork α)} {t : Transaction α}
    (ht : committing work = .ok t) (ts : Tables) {e : Error}
    (h : (t.run (.begin ts)).1 = .error e) : Session.Open ts (t.run (.begin ts)).2 := by
  obtain ⟨u, -, hu⟩ := bind_eq_ok_iff.mp ht
  obtain rfl := pure_eq_ok_iff.mp hu
  have hopen := (Session.Open.begin : Session.Open ts (.begin ts)).perform u
  rw [UnitOfWork.run_committed] at h ⊢
  rcases hperform : (Session.begin ts).perform u with ⟨e' | a, next⟩
  · rw [hperform] at hopen
    exact hopen
  · rw [hperform] at h
    cases h

/-- A call that fails leaves the committed records and sequences as they were, for however far it came it
has not been committed; a call that reads does so in any case, and writes nothing meanwhile. -/
theorem failed_calls_leave_no_trace (s : Service) (store : Store) :
    (∀ w e, (store.run (s.plan w)).1 = .error e → s.perform store w = store) ∧
      (∀ w t, s.plan w = .ok t → ∀ ts e, (t.run (.begin ts)).1 = .error e →
        Session.Open ts (t.run (.begin ts)).2) ∧
      ∀ q, (store.run (s.query q)).2 = store ∧
        ∀ t, s.query q = .ok t → ∀ session, (t.run session).2.current = session.current := by
  have hreads {q : Read} {t : Transaction q.Answer} (h : s.query q = .ok t) (session : Session) :
      (t.run session).2.current = session.current := by
    obtain ⟨f, rfl⟩ := exists_attempt_of_query h
    rw [UnitOfWork.run_committed, Session.perform, UnitOfWork.run_attempt]
    cases f session.current <;> rfl
  refine ⟨fun w e h => ?_, fun w t ht ts e h => ?_, fun q => ⟨?_, fun t ht => hreads ht⟩⟩
  · obtain ⟨work, hwork⟩ := exists_plan_eq s w
    rw [perform_eq]
    rw [hwork] at h ⊢
    rcases Store.run_cases store work with ⟨e', he⟩ | ⟨u, a, ts, -, -, -, hok⟩
    · rw [he]
    · rw [hok] at h
      cases h
  · obtain ⟨work, hwork⟩ := exists_plan_eq s w
    exact open_of_committing (hwork.symm.trans ht) ts h
  · obtain ⟨ts, outage⟩ := store
    cases hq : s.query q with
    | error e => rfl
    | ok t =>
      cases outage with
      | some e => rfl
      | none =>
        obtain ⟨f, rfl⟩ := exists_attempt_of_query hq
        change ((⟨ts, none⟩ : Store).run (committing (.ok (UnitOfWork.attempt f)))).2 = _
        rw [Store.run_committing, UnitOfWork.run_attempt]
        cases f ts <;> rfl

end Service

namespace Household

/-- The service with a hook that refuses what has been created. -/
def strict : Service :=
  { service with hooks := { Hooks.none with afterCreate := fun _ _ => .error (.badRequest .bodyShape) } }

/-- A further person, who takes the passport over. -/
def takeover : Write :=
  .create "people" (.fields [("passportId", .str "P1")])

end Household

namespace Service

/-- The person that is refused has been numbered and written, and the passport has been taken from the
one that had it. -/
theorem refused_person_leaves_no_trace :
    let store := Household.service.after Household.writes
    (∃ t session, Household.strict.plan Household.takeover = .ok t ∧
      t.run (.begin store.tables) = (.error (.badRequest .bodyShape), session) ∧
        (session.current.table "people").sequence = 3 ∧
        (session.current.records "people").map (·.get "passport") = [.null, .null, .str "P1"] ∧
        Session.Open store.tables session) ∧
      (store.tables.table "people").sequence = 2 ∧
      (store.tables.records "people").map (·.get "passport") = [.null, .str "P1"] ∧
      Household.strict.perform store Household.takeover = store ∧
      (store.run (Household.strict.query (.get "people" (.ofNat 3)))).2 = store := by
  obtain ⟨hfails, hopen, hreads⟩ :=
    failed_calls_leave_no_trace Household.strict (Household.service.after Household.writes)
  exact ⟨⟨_, _, rfl, rfl, rfl, rfl, hopen Household.takeover _ rfl _ (.badRequest .bodyShape) rfl⟩, rfl,
    rfl, hfails _ (.badRequest .bodyShape) rfl, (hreads _).1⟩

end Service

end EntityGraph
