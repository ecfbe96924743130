import EntityGraph.Proofs.Model.Resolution
import Mathlib.Data.List.Induction

namespace EntityGraph

/-- Paths that are the same but for the slashes around them. -/
def SamePath (p q : String) : Prop :=
  ∃ core a b c d, p.toList = List.replicate a '/' ++ core ++ List.replicate b '/' ∧
    q.toList = List.replicate c '/' ++ core ++ List.replicate d '/'

theorem exists_slashes_barePath (p : String) : ∃ a b,
    p.toList = List.replicate a '/' ++ (barePath p).toList ++ List.replicate b '/' := by
  obtain ⟨before, after, hp, hbefore, hafter⟩ := Text.exists_around_stripList (· == '/') p.toList
  refine ⟨before.length, after.length, ?_⟩
  rw [← List.eq_replicate_iff.mpr ⟨rfl, fun c hc => beq_iff_eq.mp (hbefore c hc)⟩,
    ← List.eq_replicate_iff.mpr ⟨rfl, fun c hc => beq_iff_eq.mp (hafter c hc)⟩, barePath, Text.strip,
    String.toList_ofList]
  exact hp

theorem samePath_iff {p q : String} : SamePath p q ↔ barePath p = barePath q := by
  constructor
  · rintro ⟨core, a, b, c, d, hp, hq⟩
    have hslash (n : Nat) : ∀ c ∈ List.replicate n '/', (c == '/') = true :=
      fun c hc => beq_iff_eq.mpr (List.eq_of_mem_replicate hc)
    rw [barePath, barePath, Text.strip, Text.strip, hp, hq,
      Text.stripList_between (hslash a) (hslash b), Text.stripList_between (hslash c) (hslash d)]
  · intro h
    obtain ⟨a, b, hp⟩ := exists_slashes_barePath p
    obtain ⟨c, d, hq⟩ := exists_slashes_barePath q
    exact ⟨_, a, b, c, d, hp, h ▸ hq⟩

namespace Registry

variable {g next : Registry} {m k : Model} {path : String}

def attempt (g : Registry) (m : Model) : Registry :=
  match g.register m with
  | .ok next => next
  | .error _ => g

def afterCalls (calls : List Model) : Registry :=
  calls.foldl attempt empty

/-- The models of those calls that succeed when they are made, in the order of the calls. -/
def accepted (calls : List Model) : List Model :=
  (calls.zipIdx.filter fun c => ((afterCalls (calls.take c.2)).register c.1).isOk).map Prod.fst

structure Lists (g : Registry) (models : List Model) : Prop where
  listed : g.models = models
  distinct : models.Pairwise fun k m => ¬SamePath k.path m.path
  get?_eq_some_iff : ∀ path m, g.get? path = some m ↔ m ∈ models ∧ SamePath m.path path
  resolve_eq_ok_iff : ∀ path m, g.resolve path = .ok m ↔ m ∈ models ∧ SamePath m.path path
  resolve_eq_error_iff : ∀ path e, g.resolve path = .error e ↔
    (∀ m ∈ models, ¬SamePath m.path path) ∧ e = .modelNotFound path
  register_eq_error_iff : ∀ m e, g.register m = .error e ↔
    (∃ k ∈ models, SamePath k.path m.path) ∧ e = .duplicatePath (barePath m.path)

theorem get?_eq_some_iff_samePath : g.get? path = some m ↔ m ∈ g.models ∧ SamePath m.path path := by
  rw [samePath_iff]
  exact ⟨mem_of_get?, fun ⟨hm, h⟩ => get?_eq_some hm h⟩

theorem mem_barePaths_iff : barePath path ∈ (g.models.map fun m => barePath m.path) ↔
    ∃ k ∈ g.models, SamePath k.path path := by
  simp only [List.mem_map, samePath_iff]

theorem register_cases (g : Registry) (m : Model) :
    ((∃ k ∈ g.models, SamePath k.path m.path) ∧
      g.register m = .error (.duplicatePath (barePath m.path))) ∨
    ((∀ k ∈ g.models, ¬SamePath k.path m.path) ∧
      ∃ next, g.register m = .ok next ∧ next.models = g.models ++ [m]) := by
  by_cases h : barePath m.path ∈ g.models.map fun m => barePath m.path
  · refine .inl ⟨mem_barePaths_iff.mp h, ?_⟩
    unfold register
    rw [dif_pos h]
  · refine .inr ⟨fun k hk hsame => h (mem_barePaths_iff.mpr ⟨k, hk, hsame⟩), exists_register h⟩

theorem lists_models (g : Registry) : g.Lists g.models := by
  refine ⟨rfl, ?_, fun path m => get?_eq_some_iff_samePath, fun path m => ?_, fun path e => ?_, fun m e => ?_⟩
  · exact (List.pairwise_map.mp g.distinct).imp fun hne hsame => hne (samePath_iff.mp hsame)
  · exact resolve_eq_ok_iff.trans get?_eq_some_iff_samePath
  · unfold resolve
    cases hget : g.get? path with
    | some m =>
      obtain ⟨hm, hsame⟩ := get?_eq_some_iff_samePath.mp hget
      exact ⟨nofun, fun h => absurd hsame (h.1 m hm)⟩
    | none =>
      have hnone : ∀ m ∈ g.models, ¬SamePath m.path path := fun m hm hsame => by
        rw [get?_eq_some_iff_samePath.mpr ⟨hm, hsame⟩] at hget
        cases hget
      exact ⟨fun h => ⟨hnone, (Except.error.inj h).symm⟩, fun h => h.2 ▸ rfl⟩
  · rcases g.register_cases m with ⟨hsame, h⟩ | ⟨hnew, next, h, -⟩
    · rw [h]
      exact ⟨fun he => ⟨hsame, (Except.error.inj he).symm⟩, fun he => he.2 ▸ rfl⟩
    · rw [h]
      exact ⟨nofun, fun ⟨⟨k, hk, hsame⟩, _⟩ => absurd hsame (hnew k hk)⟩

theorem attempt_of_error {e : ConfigError} (h : g.register m = .error e) : g.attempt m = g := by
  rw [attempt, h]

theorem models_attempt (g : Registry) (m : Model) :
    (g.attempt m).models = g.models ++ if (g.register m).isOk then [m] else [] := by
  rcases g.register_cases m with ⟨-, h⟩ | ⟨-, next, h, hmodels⟩
  · rw [attempt_of_error h, h]
    exact (List.append_nil _).symm
  · rw [attempt, h]
    exact hmodels

theorem afterCalls_concat (calls : List Model) (m : Model) :
    afterCalls (calls ++ [m]) = (afterCalls calls).attempt m :=
  List.foldl_concat _ _ _ _

/-- Whether a call has succeeded does not depend on those after it. -/
theorem accepted_concat (calls : List Model) (m : Model) : accepted (calls ++ [m]) =
    accepted calls ++ if ((afterCalls calls).register m).isOk then [m] else [] := by
  have hearlier : ∀ c ∈ calls.zipIdx, (calls ++ [m]).take c.2 = calls.take c.2 := fun c hc =>
    List.take_append_of_le_length (Nat.le_of_lt (by simpa using (List.mem_zipIdx hc).2.1))
  rw [accepted, List.zipIdx_append, List.filter_append, List.map_append, Nat.zero_add,
    List.zipIdx_singleton, List.filter_singleton, List.take_left]
  congr 1
  · exact congrArg _ (List.filter_congr fun c hc => by rw [hearlier c hc])
  · cases ((afterCalls calls).register m).isOk <;> rfl

theorem models_afterCalls (calls : List Model) : (afterCalls calls).models = accepted calls := by
  induction calls using List.reverseRecOn with
  | nil => rfl
  | append_singleton calls m ih => rw [afterCalls_concat, models_attempt, accepted_concat, ih]

end Registry

/-- Models in a row, and an index that gives the place of each by its bare path. -/
structure IndexedModels where
  models : List Model
  places : List (String × Nat)

namespace IndexedModels

def empty : IndexedModels :=
  ⟨[], []⟩

def register (x : IndexedModels) (m : Model) : Except ConfigError Unit × IndexedModels :=
  if OrderedMap.contains x.places (barePath m.path) then
    (.error (.duplicatePath (barePath m.path)), x)
  else
    (.ok (), ⟨x.models ++ [m], OrderedMap.insert x.places (barePath m.path) x.models.length⟩)

def get? (x : IndexedModels) (path : String) : Option Model :=
  (OrderedMap.get? x.places (barePath path)).bind fun i => x.models[i]?

def afterCalls (calls : List Model) : IndexedModels :=
  calls.foldl (fun x m => (x.register m).2) empty

/-- The row has the models of the registry, and the index gives for every path the place of the first model
that has it. -/
structure InStep (x : IndexedModels) (g : Registry) : Prop where
  models : x.models = g.models
  places : ∀ path, OrderedMap.get? x.places path = g.models.findIdx? fun m => barePath m.path == path

namespace InStep

variable {x : IndexedModels} {g : Registry} {m : Model}

theorem empty : IndexedModels.empty.InStep .empty :=
  ⟨rfl, fun _ => rfl⟩

theorem get?_eq (h : x.InStep g) (path : String) : x.get? path = g.get? path := by
  rw [IndexedModels.get?, h.places, h.models, Registry.get?, List.find?_eq_bind_findIdx?_getElem?]

theorem add (h : x.InStep g) (hnew : ∀ k ∈ g.models, ¬SamePath k.path m.path) {next : Registry}
    (hnext : next.models = g.models ++ [m]) :
    InStep ⟨x.models ++ [m], OrderedMap.insert x.places (barePath m.path) x.models.length⟩ next := by
  refine ⟨by rw [hnext, h.models], fun path => ?_⟩
  rw [hnext, List.findIdx?_append, ← h.places, h.models]
  by_cases hp : barePath m.path = path
  · subst hp
    have hnone : OrderedMap.get? x.places (barePath m.path) = none := by
      rw [h.places, List.findIdx?_eq_none_iff]
      exact fun k hk => beq_eq_false_iff_ne.mpr fun he => hnew k hk (samePath_iff.mpr he)
    rw [OrderedMap.get?_insert_self, hnone]
    simp
  · rw [OrderedMap.get?_insert_of_ne _ hp]
    simp [hp]

theorem register (h : x.InStep g) (m : Model) :
    (x.register m).1 = (g.register m).map (fun _ => ()) ∧ (x.register m).2.InStep (g.attempt m) := by
  have hcontains : OrderedMap.contains x.places (barePath m.path) = true ↔
      ∃ k ∈ g.models, SamePath k.path m.path := by
    rw [OrderedMap.contains, h.places, List.findIdx?_isSome, List.any_eq_true]
    simp only [beq_iff_eq, samePath_iff]
  unfold IndexedModels.register
  rcases g.register_cases m with ⟨hsame, he⟩ | ⟨hnew, next, hok, hnext⟩
  · rw [if_pos (hcontains.mpr hsame), Registry.attempt_of_error he, he]
    exact ⟨rfl, h⟩
  · rw [if_neg fun hc => absurd (hcontains.mp hc) fun ⟨k, hk, hs⟩ => hnew k hk hs, Registry.attempt, hok]
    exact ⟨rfl, h.add hnew hnext⟩

theorem foldl (h : x.InStep g) (calls : List Model) :
    (calls.foldl (fun x m => (x.register m).2) x).InStep (calls.foldl Registry.attempt g) := by
  induction calls generalizing x g with
  | nil => exact h
  | cons m rest ih => exact ih (h.register m).2

end InStep

theorem inStep_afterCalls (calls : List Model) : (afterCalls calls).InStep (Registry.afterCalls calls) :=
  InStep.empty.foldl calls

end IndexedModels

namespace Registry

/-- After any calls a registry lists and finds the models of those that have succeeded, and the next call fails
just if one of them has its path. A call that fails changes nothing. The index answers all of this alike. -/
theorem registrations_are_found_by_path (calls : List Model) :
    (afterCalls calls).Lists (accepted calls) ∧
    (∀ m e, (afterCalls calls).register m = .error e → afterCalls (calls ++ [m]) = afterCalls calls) ∧
    (IndexedModels.afterCalls calls).models = accepted calls ∧
    (∀ path, (IndexedModels.afterCalls calls).get? path = (afterCalls calls).get? path) ∧
    ∀ m, ((IndexedModels.afterCalls calls).register m).1 =
      ((afterCalls calls).register m).map fun _ => () := by
  have hstep := IndexedModels.inStep_afterCalls calls
  refine ⟨models_afterCalls calls ▸ lists_models _, fun m e he => ?_,
    hstep.models.trans (models_afterCalls calls), hstep.get?_eq, fun m => (hstep.register m).1⟩
  rw [afterCalls_concat, attempt_of_error he]

end Registry

namespace School

def enrolments : List Model :=
  [{ student with path := "/students/" }, course, { student with path := "students//" }]

theorem accepted_enrolments :
    Registry.accepted enrolments = [{ student with path := "/students/" }, course] := by rfl

end School

namespace Registry

open School

/-- The second registration of the students has failed, and a third one would. -/
theorem students_are_registered_once :
    (afterCalls enrolments).models = [{ student with path := "/students/" }, course] ∧
    (afterCalls enrolments).get? "students" = some { student with path := "/students/" } ∧
    (IndexedModels.afterCalls enrolments).get? "//courses" = some course ∧
    (afterCalls enrolments).register student = .error (.duplicatePath "students") ∧
    afterCalls (enrolments ++ [student]) = afterCalls enrolments := by
  obtain ⟨hlists, hkeeps, -, hindex, -⟩ := registrations_are_found_by_path enrolments
  rw [accepted_enrolments] at hlists
  have hbare : barePath student.path = "students" := by decide +kernel
  have hfails : (afterCalls enrolments).register student = .error (.duplicatePath "students") :=
    (hlists.register_eq_error_iff _ _).mpr
      ⟨⟨_, List.mem_cons_self, samePath_iff.mpr (by decide +kernel)⟩, by rw [hbare]⟩
  refine ⟨hlists.listed, ?_, ?_, hfails, hkeeps _ _ hfails⟩
  · exact (hlists.get?_eq_some_iff _ _).mpr ⟨List.mem_cons_self, samePath_iff.mpr (by decide +kernel)⟩
  · rw [hindex]
    exact (hlists.get?_eq_some_iff _ _).mpr
      ⟨List.mem_cons_of_mem _ List.mem_cons_self, samePath_iff.mpr (by decide +kernel)⟩

end Registry

end EntityGraph
