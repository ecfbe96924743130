import EntityGraph.Pattern.Reader
import EntityGraph.Proofs.Pattern.Positions
import EntityGraph.Proofs.Text.Like
import Mathlib.Tactic.FinCases

namespace EntityGraph.Pattern

open Text (Matches isSign likePiece likeExpression)

/-- What a character of the pattern is read as. -/
def likePart (c : Char) : Pattern :=
  if c = '%' then .repetition (.char fun _ => true) 0 none
  else if c = '_' then .char fun _ => true
  else .char fun x => x == c

def ofLike (pattern : List Char) : Pattern :=
  .sequence (.assertion (fun before _ => before.isNone) :: (pattern.map likePart ++
    [.assertion fun _ after => after.isNone]))

namespace Reader

def likeFlags : Flags :=
  { Flags.standard with dotAll := true }

variable {s : GroupState} {c : Char} {cs rest : List Char} {n : Nat}

theorem skip_likeFlags (hs : s.flags = likeFlags) (cs : List Char) : skip s.flags cs = cs := by
  rw [hs]
  rfl

theorem group?_primitive (hs : s.flags = likeFlags) (hc : c ∉ [')', '|', '*', '+', '?', '\x7b', '[', '(']) :
    group? (n + 1) s (c :: rest) =
      (primitive? likeFlags (c :: rest)).bind fun (p, tail) => group? n (s.add p) tail := by
  rw [group?, skip_likeFlags hs]
  split
  case h_10 => rw [hs]
  all_goals
    next heq => cases heq <;> simp at hc

theorem primitive?_literal (hc : isSign c = false) (rest : List Char) :
    primitive? likeFlags (c :: rest) = some (.char fun x => x == c, rest) := by
  unfold primitive?
  split
  case h_6 heq =>
    obtain ⟨rfl, rfl⟩ := List.cons.inj heq
    rfl
  all_goals
    next heq => cases heq <;> exact absurd hc (by decide)

theorem primitive?_sign (hc : isSign c = true) (rest : List Char) :
    primitive? likeFlags ('\\' :: c :: rest) = some (.char fun x => x == c, rest) := by
  have hmem := List.contains_iff_mem.mp hc
  fin_cases hmem <;> rfl

theorem skipLazy_eq (h : rest.head? ≠ some '?') : skipLazy rest = rest := by
  unfold skipLazy
  split
  · exact absurd rfl h
  · rfl

theorem group?_star (hs : s.flags = likeFlags) (h : rest.head? ≠ some '?') (p : Pattern) :
    group? (n + 1) (s.add p) ('*' :: rest) = group? n (s.add (.repetition p 0 none)) rest := by
  rw [group?, skip_likeFlags (s := s.add p) hs]
  change group? n (s.add (.repetition p 0 none)) (skipLazy rest) = _
  rw [skipLazy_eq h]

/-- What stands for a character is read as its part, whatever follows but a question mark. -/
theorem group?_likePiece (hs : s.flags = likeFlags) (c : Char) (h : rest.head? ≠ some '?') (n : Nat) :
    ∃ m, n ≤ m ∧ group? (n + (likePiece c).length) s (likePiece c ++ rest) =
      group? m (s.add (likePart c)) rest := by
  by_cases hpercent : c = '%'
  · subst hpercent
    refine ⟨n, Nat.le_refl n, ?_⟩
    change group? (n + 1 + 1) s ('.' :: '*' :: rest) = _
    rw [group?_primitive hs (by decide)]
    exact group?_star hs h _
  by_cases hline : c = '_'
  · subst hline
    refine ⟨n, Nat.le_refl n, ?_⟩
    change group? (n + 1) s ('.' :: rest) = _
    rw [group?_primitive hs (by decide)]
    rfl
  rw [likePiece, likePart, if_neg hpercent, if_neg hpercent, if_neg hline, if_neg hline]
  cases hsign : isSign c with
  | true =>
    refine ⟨n + 1, Nat.le_succ n, ?_⟩
    change group? (n + 1 + 1) s ('\\' :: c :: rest) = _
    rw [group?_primitive hs (by decide), primitive?_sign hsign]
    rfl
  | false =>
    refine ⟨n, Nat.le_refl n, ?_⟩
    change group? (n + 1) s (c :: rest) = _
    rw [group?_primitive hs, primitive?_literal hsign]
    · rfl
    · intro hmem
      fin_cases hmem <;> exact absurd hsign (by decide)

theorem head?_likePiece (c : Char) (rest : List Char) : (likePiece c ++ rest).head? ≠ some '?' := by
  unfold likePiece
  split
  · exact fun h => absurd (Option.some.inj h) (by decide)
  split
  · exact fun h => absurd (Option.some.inj h) (by decide)
  split
  · exact fun h => absurd (Option.some.inj h) (by decide)
  · next hsign =>
    intro h
    obtain rfl : c = '?' := Option.some.inj h
    exact hsign rfl

theorem head?_likePieces (cs : List Char) : (cs.flatMap likePiece ++ ['$']).head? ≠ some '?' := by
  cases cs with
  | nil => exact fun h => absurd (Option.some.inj h) (by decide)
  | cons c cs =>
    rw [List.flatMap_cons, List.append_assoc]
    exact head?_likePiece c _

theorem group?_likePieces (hs : s.flags = likeFlags) (cs : List Char)
    (hn : (cs.flatMap likePiece ++ ['$']).length ≤ n) :
    group? (n + 1) s (cs.flatMap likePiece ++ ['$']) =
      some ({ s with parts := some (.assertion fun _ after => after.isNone) ::
        ((cs.map fun c => some (likePart c)).reverse ++ s.parts) }, []) := by
  induction cs generalizing s n with
  | nil =>
    obtain ⟨m, rfl⟩ := Nat.exists_eq_add_of_le' hn
    change group? (m + 1 + 1) s ['$'] = _
    rw [group?_primitive hs (by decide)]
    change group? (m + 1) (s.add (.assertion fun _ after => after.isNone)) [] = _
    rw [group?, skip_likeFlags (s := s.add _) hs]
    rfl
  | cons c cs ih =>
    rw [List.flatMap_cons, List.append_assoc] at hn ⊢
    rw [List.length_append] at hn
    obtain ⟨k, rfl⟩ := Nat.exists_eq_add_of_le' (Nat.le_of_add_right_le hn)
    obtain ⟨m, hm, hgroup⟩ := group?_likePiece hs c (head?_likePieces cs) (k + 1)
    obtain ⟨m', rfl⟩ := Nat.exists_eq_add_of_le' (Nat.le_of_add_left_le hm)
    rw [Nat.add_right_comm, hgroup, ih (s := s.add (likePart c)) hs (by omega), List.map_cons,
      List.reverse_cons, List.append_assoc]
    rfl

end Reader

theorem depthAll_le {d : Nat} {ps : List Pattern} (h : ∀ p ∈ ps, p.depth ≤ d) : depthAll ps ≤ d := by
  induction ps with
  | nil => exact Nat.zero_le d
  | cons p ps ih =>
    obtain ⟨hp, hps⟩ := List.forall_mem_cons.mp h
    exact Nat.max_le.mpr ⟨hp, ih hps⟩

theorem sizeAll_le {k : Nat} {ps : List Pattern} (h : ∀ p ∈ ps, p.size ≤ k) :
    sizeAll ps ≤ k * ps.length := by
  induction ps with
  | nil => exact Nat.zero_le _
  | cons p ps ih =>
    obtain ⟨hp, hps⟩ := List.forall_mem_cons.mp h
    rw [sizeAll, List.length_cons, Nat.mul_succ, Nat.add_comm]
    exact Nat.add_le_add (ih hps) hp

theorem small_likePart (c : Char) : (likePart c).depth ≤ 1 ∧ (likePart c).size ≤ 2 := by
  unfold likePart
  split
  · decide
  split
  · decide
  · exact ⟨Nat.zero_le 1, Nat.le_succ 1⟩

theorem depth_ofLike (pattern : List Char) : (ofLike pattern).depth ≤ levelLimit := by
  have hparts : depthAll (.assertion (fun before _ => before.isNone) :: (pattern.map likePart ++
      [.assertion fun _ after => after.isNone])) ≤ 1 := by
    refine depthAll_le (List.forall_mem_cons.mpr ⟨Nat.zero_le 1, fun p hp => ?_⟩)
    rcases List.mem_append.mp hp with hp | hp
    · obtain ⟨c, -, rfl⟩ := List.mem_map.mp hp
      exact (small_likePart c).1
    · obtain rfl := List.mem_singleton.mp hp
      exact Nat.zero_le 1
  rw [ofLike, depth]
  split
  · exact Nat.le_trans (Nat.add_le_add_right hparts 0) (by decide)
  · exact Nat.le_trans (Nat.add_le_add_right hparts 1) (by decide)

theorem size_ofLike (pattern : List Char) : (ofLike pattern).size ≤ 2 * (pattern.length + 2) := by
  rw [ofLike, size]
  refine Nat.le_trans (sizeAll_le (k := 2) (List.forall_mem_cons.mpr ⟨Nat.le_succ 1, fun p hp => ?_⟩)) ?_
  · rcases List.mem_append.mp hp with hp | hp
    · obtain ⟨c, -, rfl⟩ := List.mem_map.mp hp
      exact (small_likePart c).2
    · obtain rfl := List.mem_singleton.mp hp
      exact Nat.le_succ 1
  · simp

theorem toList_likeExpression (pattern : String) : (likeExpression pattern).toList =
    ['(', '?', 's', ')', '^'] ++ (pattern.toList.flatMap likePiece ++ ['$']) := by
  have hopening : "(?s)^".toList = ['(', '?', 's', ')', '^'] := by simp
  unfold likeExpression
  rw [hopening, String.toList_ofList, List.append_assoc]

def likeState (pattern : List Char) : Reader.GroupState where
  flags := Reader.likeFlags
  names := []
  choices := []
  parts := some (.assertion fun _ after => after.isNone) ::
    ((pattern.map fun c => some (likePart c)).reverse ++
      [some (.assertion fun before _ => before.isNone), none])

theorem group?_likeExpression (pattern : String) :
    Reader.group? ((likeExpression pattern).toList.length + 1) ⟨.standard, [], [], []⟩
      (likeExpression pattern).toList = some (likeState pattern.toList, []) := by
  rw [toList_likeExpression]
  generalize hbody : pattern.toList.flatMap likePiece ++ ['$'] = body
  change Reader.group? (body.length + 4 + 1) ⟨Reader.likeFlags, [], [], [none]⟩ ('^' :: body) = _
  rw [Reader.group?_primitive rfl (by decide), ← hbody]
  exact Reader.group?_likePieces (s := ⟨Reader.likeFlags, [], [], _⟩) rfl pattern.toList
    (Nat.le_add_right _ 3)

theorem finish_likeState (pattern : List Char) : (likeState pattern).finish = ofLike pattern := by
  have hparts : (likeState pattern).parts.reverse.filterMap id =
      .assertion (fun before _ => before.isNone) ::
        (pattern.map likePart ++ [.assertion fun _ after => after.isNone]) := by
    simp [likeState]
  change (likeState pattern).branch = _
  rw [Reader.GroupState.branch, hparts]
  cases pattern <;> rfl

/-- The expression of a pattern is read as its parts, unless there are too many of them. -/
theorem ofText?_likeExpression (pattern : String) : ofText? (likeExpression pattern) =
    if (ofLike pattern.toList).size ≤ sizeLimit then some (ofLike pattern.toList) else none := by
  rw [ofText?, group?_likeExpression]
  change (if true = true ∧ (likeState _).finish.depth ≤ levelLimit ∧ (likeState _).finish.size ≤ sizeLimit
    then some (likeState _).finish else none) = _
  simp only [finish_likeState, depth_ofLike, true_and]

section Search

variable {text read : List Char} {c : Char} {s : Positions} {i : Nat}

theorem matches_snoc_take_iff {accepts : Char → Bool} (hi : i ≤ text.length)
    (hc : ∀ rest, Matches [c] rest ↔ ∃ x, rest = [x] ∧ accepts x = true) :
    Matches (read ++ [c]) (text.take i) ↔
      ∃ j x, i = j + 1 ∧ Matches read (text.take j) ∧ text[j]? = some x ∧ accepts x = true := by
  simp only [Text.matches_append_iff, hc]
  constructor
  · rintro ⟨first, _, htake, hread, x, rfl, hx⟩
    obtain rfl : i = first.length + 1 := by
      simpa [List.length_take_of_le hi] using congrArg List.length htake
    rw [List.take_add_one, List.getElem?_eq_getElem hi] at htake
    obtain ⟨hfirst, hlast⟩ := List.append_inj' htake rfl
    refine ⟨first.length, x, rfl, by rwa [hfirst], ?_, hx⟩
    rw [List.getElem?_eq_getElem hi]
    exact congrArg some (List.cons.inj hlast).1
  · rintro ⟨j, x, rfl, hread, hget, hx⟩
    refine ⟨text.take j, [x], ?_, hread, x, rfl, hx⟩
    rw [List.take_add_one, hget]
    rfl

/-- One more character of the pattern has been read at the positions to which its part leads. -/
theorem marks_ends_likePart (read : List Char) (c : Char)
    (h : s.Marks text.length fun i => Matches read (text.take i)) :
    Positions.Marks text.length (fun i => Matches (read ++ [c]) (text.take i))
      (ends (places text) (likePart c) s) := by
  unfold likePart
  split
  · next hpercent =>
    subst hpercent
    refine (h.close (places text).length).congr fun i hi => ?_
    rw [Text.matches_append_iff]
    constructor
    · rintro ⟨j, hji, -, hread⟩
      refine ⟨text.take j, (text.take i).drop j, ?_, hread, Text.matches_percent _⟩
      have htake : text.take j = (text.take i).take j := by rw [List.take_take, Nat.min_eq_left hji]
      rw [htake, List.take_append_drop]
    · rintro ⟨first, rest, htake, hread, -⟩
      have hfirst : first.length ≤ i := by
        have hlength := congrArg List.length htake
        rw [List.length_take_of_le hi, List.length_append] at hlength
        exact Nat.le.intro hlength.symm
      refine ⟨first.length, hfirst, ?_, ?_⟩
      · rw [length_places]
        omega
      · rw [← Nat.min_eq_left hfirst, ← List.take_take, htake, List.take_left]
        exact hread
  split
  · next hline =>
    subst hline
    refine (h.advance fun _ => true).congr fun i hi => (matches_snoc_take_iff hi fun rest => ?_).symm
    simp [Text.matches_line_only_iff]
  · next hpercent hline =>
    refine (h.advance fun x => x == c).congr fun i hi => (matches_snoc_take_iff hi fun rest => ?_).symm
    rw [Text.matches_iff_eq (by simp [hpercent, hline])]
    simp

theorem marks_endsAll_likeParts (read pattern : List Char) (rest : List Pattern)
    (h : s.Marks text.length fun i => Matches read (text.take i)) :
    ∃ t, Positions.Marks text.length (fun i => Matches (read ++ pattern) (text.take i)) t ∧
      endsAll (places text) (pattern.map likePart ++ rest) s = endsAll (places text) rest t := by
  induction pattern generalizing read s with
  | nil => exact ⟨s, by simpa using h, rfl⟩
  | cons c pattern ih =>
    obtain ⟨t, ht, hends⟩ := ih (read ++ [c]) (marks_ends_likePart read c h)
    exact ⟨t, by simpa using ht, hends⟩

end Search

/-- The expression is found in just the texts that the pattern matches. -/
theorem occursIn_ofLike {pattern text : String} :
    (ofLike pattern.toList).occursIn text = true ↔ Matches pattern.toList text.toList := by
  have hstart : Positions.Marks text.toList.length (fun i => Matches [] (text.toList.take i))
      ((Positions.all (places text.toList)).keep (places text.toList) fun before _ => before.isNone) := by
    refine ((Positions.marks_all text.toList).keep fun before _ => before.isNone).congr fun i hi => ?_
    rw [Text.matches_nil_iff]
    simp only [true_and, List.take_eq_nil_iff]
    cases i with
    | zero => simp
    | succ i => simpa [List.ne_nil_of_length_pos (Nat.zero_lt_of_lt hi)] using Nat.lt_of_succ_le hi
  obtain ⟨t, ht, hends⟩ :=
    marks_endsAll_likeParts [] pattern.toList [.assertion fun _ after => after.isNone] hstart
  change (endsAll (places text.toList) (pattern.toList.map likePart ++ _)
    (Positions.keep _ _ (Positions.all _))).contains true = true ↔ _
  rw [hends]
  refine (ht.keep fun _ after => after.isNone).contains_iff.trans ?_
  simp only [List.nil_append, Option.isNone_iff_eq_none, List.getElem?_eq_none_iff]
  constructor
  · rintro ⟨i, -, hmatches, hi⟩
    rwa [List.take_of_length_le hi] at hmatches
  · intro h
    exact ⟨text.toList.length, Nat.le_refl _, by rwa [List.take_length], Nat.le_refl _⟩

end EntityGraph.Pattern
