import EntityGraph.Proofs.Coercion.Result
import EntityGraph.Proofs.Entity.Sharing
import EntityGraph.Proofs.Json.Reading
import EntityGraph.Proofs.Model.Resolution
import Mathlib.Data.List.TFAE

namespace EntityGraph

namespace FieldType.IsIdentity

variable {t u : FieldType} {a b : Json}

theorem ofText?_text (h : t.IsIdentity a) : Json.ofText? a.text = some a := by
  have hdoubles : ∀ x ∈ a.doubles, x.ReadsBack := by
    cases h <;> nofun
  rw [Json.ofText?, Json.Document.ofText?_text hdoubles, Option.bind_some]
  cases h with
  | whole _ n _ =>
    have hread := (Number.scan_text (n := .whole n) nofun).2
    exact congrArg (Option.map Json.num) hread
  | text s => rfl
  | uuid _ => rfl

theorem text_eq_iff (ha : t.IsIdentity a) (hb : u.IsIdentity b) : a.text = b.text ↔ a = b := by
  refine ⟨fun h => Option.some.inj ?_, congrArg Json.text⟩
  rw [← ha.ofText?_text, ← hb.ofText?_text, h]

theorem key_eq_iff (ha : t.IsIdentity a) (hb : u.IsIdentity b) :
    RecordKey.of? a = RecordKey.of? b ↔ a = b :=
  ⟨ha.eq_of_key hb, congrArg RecordKey.of?⟩

theorem beq_iff (ha : t.IsIdentity a) (hb : u.IsIdentity b) : (a == b) = true ↔ a = b := by
  refine ⟨fun h => ?_, fun h => h ▸ Json.same_self a⟩
  cases ha with
  | whole _ n _ =>
    cases hb with
    | whole _ k _ =>
      have hnk : (n == k) = true := h
      rw [eq_of_beq hnk]
    | _ => cases h
  | _ =>
    cases hb with
    | whole _ k _ => cases h
    | _ => exact congrArg Json.str (eq_of_beq h)

end FieldType.IsIdentity

namespace Registry

variable {m : Model} {x y raw raw' : Json}

/-- A traversal that has come to one entity of a model has come to another one just if it has the text of its
identity. -/
theorem run_visit_visited_iff : (visit m y).run [(m.path, x.text)] = .ok (false, [(m.path, x.text)]) ↔
    x.text = y.text := by
  rw [run_visit]
  by_cases h : x.text = y.text
  · rw [if_pos (by simp [h])]
    exact iff_of_true rfl h
  · rw [if_neg (by simpa using Ne.symm h)]
    exact iff_of_false (fun he => nomatch he) h

/-- What is accepted as identities of a model has keys, and is the same as values, in comparisons, as keys and
in texts, and so for a traversal, in the same cases. -/
theorem notions_of_identity_agree (htype : ModelDefinition.isIdentityType m.identityType = true)
    (hx : m.coerceIdentity raw = .ok x) (hy : m.coerceIdentity raw' = .ok y) :
    (∃ key, RecordKey.of? x = some key) ∧ (∃ key, RecordKey.of? y = some key) ∧
      [x = y, (x == y) = true, x.sameIdentity y = true, RecordKey.of? x = RecordKey.of? y,
        x.text = y.text,
        (visit m y).run [(m.path, x.text)] = .ok (false, [(m.path, x.text)])].TFAE := by
  have hxform := (Model.isIdentity_of_coerceIdentity htype hx).1
  have hyform := (Model.isIdentity_of_coerceIdentity htype hy).1
  refine ⟨hxform.exists_key, hyform.exists_key, List.tfae_of_forall (x = y) _ ?_⟩
  simp only [List.forall_mem_cons, List.not_mem_nil, false_imp_iff, implies_true, and_true,
    true_and]
  exact ⟨hxform.beq_iff hyform, hxform.sameIdentity_iff hyform, hxform.key_eq_iff hyform,
    hxform.text_eq_iff hyform, run_visit_visited_iff.trans (hxform.text_eq_iff hyform)⟩

end Registry

namespace School

def withBlanks : Json :=
  .str " 12 "

def withSign : Json :=
  .str "+12"

end School

namespace Registry

open School

/-- Two ways to write a number are one student, whichever notion is asked. -/
theorem student_is_same_in_both_forms :
    ModelDefinition.isIdentityType student.identityType = true ∧
    student.coerceIdentity withBlanks = .ok (.ofNat 12) ∧
    student.coerceIdentity withSign = .ok (.ofNat 12) ∧
    student.coerceIdentity (.ofNat 13) = .ok (.ofNat 13) ∧
    (Json.ofNat 12).sameIdentity (.ofNat 12) = true ∧ (Json.ofNat 12).text ≠ (Json.ofNat 13).text := by
  have hwords : student.coerceIdentity withBlanks = .ok (.ofNat 12) := by rfl
  have hsign : student.coerceIdentity withSign = .ok (.ofNat 12) := by rfl
  have hnext : student.coerceIdentity (.ofNat 13) = .ok (.ofNat 13) := by rfl
  have hsame := (notions_of_identity_agree rfl hwords hsign).2.2
  have hother := (notions_of_identity_agree rfl hwords hnext).2.2
  refine ⟨rfl, hwords, hsign, hnext, (hsame.out 0 2).mp rfl, fun htext => ?_⟩
  have hkey := (hother.out 4 3).mp htext
  exact absurd hkey (by decide)

end Registry

end EntityGraph
