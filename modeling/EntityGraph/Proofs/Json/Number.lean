import EntityGraph.Json.Document
import EntityGraph.Proofs.Json.Scanning
import Mathlib.Tactic.FinCases

namespace EntityGraph

open Json (Literal Token)

theorem Json.Document.ofText?_eq_some_iff {s : String} {d : Document} :
    ofText? s = some d ↔ read (Token.scan s.toList) .value [] = some (d, []) := by
  unfold ofText?
  split
  · next d' hread =>
    rw [hread]
    simp
  · next hread => exact iff_of_false nofun (hread d)

/-- The number is what its text is read as. -/
def Double.ReadsBack (x : Double) : Prop :=
  Json.ofText? (Json.num (.double x)).text = some (.num (.double x))

instance (x : Double) : Decidable x.ReadsBack :=
  match h : Json.ofText? (Json.num (.double x)).text with
  | some (.num (.double y)) =>
      if hy : y = x then .isTrue (h.trans (hy ▸ rfl))
      else .isFalse fun hx => hy (by cases h.symm.trans hx; rfl)
  | some (.num (.whole n)) => .isFalse fun hx => nomatch h.symm.trans hx
  | some .null | some (.bool _) | some (.str _) | some (.arr _) | some (.obj _) | none =>
      .isFalse fun hx => nomatch h.symm.trans hx

namespace Number

section Whole

theorem eq_zero_of_head?_toDigits {n : Nat} (h : (Nat.toDigits 10 n).head? = some '0') : n = 0 := by
  induction n using Nat.strongRecOn with
  | ind n ih =>
    by_cases hn : n < 10
    · have hdigit : ∀ m < 10, Nat.digitChar m = '0' → m = 0 := by decide
      rw [Nat.toDigits_of_lt_base hn] at h
      exact hdigit n hn (Option.some.inj h)
    · have hfront := Nat.toDigits_ne_nil (b := 10) (n := n / 10)
      rw [Nat.toDigits_of_base_le (by decide) (Nat.not_lt.mp hn), List.head?_append,
        Option.or_of_isSome (List.isSome_head?.mpr hfront)] at h
      have := ih (n / 10) (by omega) h
      omega

theorem unsigned?_toDigits (negative : Bool) (n : Nat) : Token.unsigned? negative (Nat.toDigits 10 n) =
    some (⟨negative, Nat.toDigits 10 n, [], none⟩, []) := by
  have hdigits : Token.digits (Nat.toDigits 10 n) = (Nat.toDigits 10 n, []) := by
    obtain ⟨htake, hdrop⟩ := Calendar.takeWhile_isDigit_append
      (fun c hc => Nat.isDigit_of_mem_toDigits (b := 10) (n := n) (by decide) (by decide) hc) [] rfl
    rw [List.append_nil] at htake hdrop
    exact Prod.ext htake hdrop
  rw [Token.unsigned?_eq_some_iff, hdigits]
  refine ⟨⟨Nat.toDigits_ne_nil, ?_⟩, [], [], none, rfl, rfl, rfl⟩
  rintro ⟨hhead, hlength⟩
  rw [eq_zero_of_head?_toDigits hhead] at hlength
  exact absurd hlength (by decide)

theorem digitsValue_toDigits (n : Nat) : Text.digitsValue (Nat.toDigits 10 n) = n := by
  have hpadded := Calendar.digitsValue_padded 0 n
  rwa [Calendar.padded, Nat.zero_sub, List.replicate_zero, List.nil_append] at hpadded

theorem scan_toDigits (n : Nat) :
    Token.scan (Nat.toDigits 10 n) = [.number ⟨false, Nat.toDigits 10 n, [], none⟩] := by
  have hnext := Token.next_eq_number_iff.mpr (.inr (unsigned?_toDigits false n))
  obtain ⟨c, cs, hcs⟩ := List.exists_cons_of_ne_nil (Nat.toDigits_ne_nil (b := 10) (n := n))
  have hc : c.isDigit = true :=
    Nat.isDigit_of_mem_toDigits (b := 10) (n := n) (by decide) (by decide) (hcs ▸ List.mem_cons_self)
  rw [hcs] at hnext ⊢
  rw [Token.scan_cons (Token.isSpace_of_isDigit hc), hnext]
  rfl

theorem scan_minus_toDigits (n : Nat) :
    Token.scan ('-' :: Nat.toDigits 10 n) = [.number ⟨true, Nat.toDigits 10 n, [], none⟩] := by
  have hnext := Token.next_eq_number_iff.mpr (.inl ⟨_, rfl, unsigned?_toDigits true n⟩)
  rw [Token.scan_cons rfl, hnext]
  rfl

theorem ofInt?_value (n : Whole) : ofInt? n.value = some (.whole n) :=
  dif_pos ⟨n.low, n.high⟩

theorem toNumber?_toDigits {n : Whole} {negative : Bool} {m : Nat}
    (hvalue : (if negative then -(m : Int) else m) = n.value) (hzero : ¬(negative = true ∧ m = 0)) :
    Literal.toNumber? ⟨negative, Nat.toDigits 10 m, [], none⟩ = some (.whole n) := by
  rw [Literal.toNumber?]
  dsimp only
  rw [digitsValue_toDigits, if_pos ⟨rfl, rfl, hzero⟩, hvalue, ofInt?_value]

theorem exists_literal_whole (n : Whole) :
    ∃ l, Token.scan (whole n).text.toList = [.number l] ∧ l.toNumber? = some (.whole n) := by
  cases hvalue : n.value with
  | ofNat m =>
    have htext : (whole n).text.toList = Nat.toDigits 10 m := by
      rw [text, hvalue]
      exact Nat.toList_repr
    refine ⟨_, (congrArg Token.scan htext).trans (scan_toDigits m), toNumber?_toDigits ?_ nofun⟩
    exact hvalue.symm
  | negSucc m =>
    have htext : (whole n).text.toList = '-' :: Nat.toDigits 10 (m + 1) := by
      rw [text, hvalue]
      change ("-" ++ Nat.repr (m + 1)).toList = _
      rw [String.toList_append, Nat.toList_repr]
      rfl
    refine ⟨_, (congrArg Token.scan htext).trans (scan_minus_toDigits (m + 1)),
      toNumber?_toDigits ?_ nofun⟩
    exact hvalue.symm

end Whole

section Binary

variable {x : Double} {c : Char}

def IsNumeric (c : Char) : Prop :=
  c.isDigit = true ∨ c ∈ ['-', '+', '.', 'e']

theorem isNumeric_of_mem_toDigits {n : Nat} (hc : c ∈ Nat.toDigits 10 n) : IsNumeric c :=
  .inl (Nat.isDigit_of_mem_toDigits (by decide) (by decide) hc)

theorem isNumeric_of_mem_zeros {n : Nat} (hc : c ∈ DecimalStyle.zeros n) : IsNumeric c := by
  obtain rfl := List.eq_of_mem_replicate hc
  exact .inl rfl

section Styles

variable {digits : List Char}

theorem isNumeric_of_mem_point (hdigits : ∀ c ∈ digits, IsNumeric c) (n : Int)
    (hc : c ∈ DecimalStyle.point ".0" digits n) : IsNumeric c := by
  have hpoint : ∀ c ∈ ['0', '.'], IsNumeric c := by
    simp [IsNumeric]
  unfold DecimalStyle.point at hc
  split at hc
  · rcases List.mem_append.mp hc with hc | hc
    · rcases List.mem_append.mp (show c ∈ ['0', '.'] ++ _ from hc) with hc | hc
      · exact hpoint c hc
      · exact isNumeric_of_mem_zeros hc
    · exact hdigits c hc
  split at hc
  · rcases List.mem_append.mp hc with hc | hc
    · rcases List.mem_append.mp hc with hc | hc
      · exact hdigits c hc
      · exact isNumeric_of_mem_zeros hc
    · exact hpoint c (by simpa [or_comm] using hc)
  · rcases List.mem_append.mp hc with hc | hc
    · exact hdigits c (List.mem_of_mem_take hc)
    · rcases List.mem_cons.mp hc with rfl | hc
      · exact hpoint _ (by simp)
      · exact hdigits c (List.mem_of_mem_drop hc)

theorem isNumeric_of_mem_scientific (hdigits : ∀ c ∈ digits, IsNumeric c) (decade : Int)
    (hc : c ∈ DecimalStyle.scientific digits decade) : IsNumeric c := by
  unfold DecimalStyle.scientific at hc
  dsimp only at hc
  rcases List.mem_append.mp hc with hc | hc
  · rcases List.mem_append.mp hc with hc | hc
    · exact hdigits c (List.mem_of_mem_take hc)
    · split at hc
      · cases hc
      · rcases List.mem_cons.mp hc with rfl | hc
        · exact .inr (by simp)
        · exact hdigits c (List.mem_of_mem_drop hc)
  · rcases List.mem_cons.mp hc with rfl | hc
    · exact .inr (by simp)
    rcases List.mem_cons.mp hc with rfl | hc
    · split
      · exact .inr (by simp)
      · exact .inr (by simp)
    · rw [Nat.toList_repr] at hc
      exact isNumeric_of_mem_toDigits hc

end Styles

theorem isNumeric_of_mem_write (hc : c ∈ (DecimalStyle.json.write x).toList) : IsNumeric c := by
  rw [DecimalStyle.write, String.toList_ofList] at hc
  rcases List.mem_append.mp hc with hc | hc
  · split at hc
    · obtain rfl := List.mem_singleton.mp hc
      exact .inr (by simp)
    · cases hc
  split at hc
  · have hzero : ∀ c ∈ ['0', '.', '0'], IsNumeric c := by simp [IsNumeric]
    exact hzero c (by simpa [DecimalStyle.json] using hc)
  · unfold DecimalStyle.writeDecimal at hc
    have hdigits (n : Nat) :
        ∀ c ∈ ((Nat.toDigits 10 n).reverse.dropWhile (· == '0')).reverse, IsNumeric c := fun c hc =>
      isNumeric_of_mem_toDigits
        (List.mem_reverse.mp ((List.dropWhile_subset _) (List.mem_reverse.mp hc)))
    dsimp only at hc
    split at hc
    · exact isNumeric_of_mem_point (hdigits _) _ hc
    · exact isNumeric_of_mem_scientific (hdigits _) _ hc

/-- A text of such characters starts with a number, or with nothing that could be read. -/
theorem next_of_isNumeric (hc : IsNumeric c) (cs : List Char) :
    (∃ l, (Token.next (c :: cs)).1 = .number l) ∨ (Token.next (c :: cs)).1 = .bad := by
  have hother : c ∉ ['[', ']', '\x7b', '\x7d', ',', ':', 'n', 't', 'f', '"'] := by
    intro hmem
    fin_cases hmem <;> exact absurd hc (by simp [IsNumeric])
  unfold Token.next
  split
  case h_11 => split <;> simp
  case h_12 => split <;> simp
  all_goals
    next heq =>
      obtain ⟨rfl, -⟩ := List.cons.inj heq
      exact absurd (by simp) hother

theorem exists_literal_of_readsBack (h : x.ReadsBack) :
    ∃ l, Token.scan (double x).text.toList = [.number l] ∧ l.toNumber? = some (.double x) := by
  obtain ⟨d, hd, hvalue⟩ := Option.bind_eq_some_iff.mp h
  obtain ⟨-, hvalue⟩ := Option.ite_none_right_eq_some.mp hvalue
  have htext : (Json.num (.double x)).text.toList = (double x).text.toList := String.toList_ofList
  rw [Json.Document.ofText?_eq_some_iff, htext, Token.scan_eq] at hd
  rw [Token.scan_eq]
  split at hd
  · cases hd
  · next c rest hdrop =>
    have hc : IsNumeric c :=
      isNumeric_of_mem_write (List.dropWhile_subset _ (hdrop ▸ List.mem_cons_self))
    rcases next_of_isNumeric hc rest with ⟨l, hl⟩ | hbad
    · rw [hl] at hd ⊢
      obtain ⟨rfl, hrest⟩ := Prod.mk.inj (Option.some.inj hd)
      obtain ⟨n, hn, hx⟩ := Option.map_eq_some_iff.mp hvalue
      exact ⟨l, congrArg (List.cons _) hrest, hn.trans (congrArg some (Json.num.inj hx))⟩
    · rw [hbad] at hd
      cases hd

end Binary

def literal (n : Number) : Literal :=
  match Token.scan n.text.toList with
  | [.number l] => l
  | _ => ⟨false, [], [], none⟩

theorem scan_text {n : Number} (h : ∀ x, n = .double x → x.ReadsBack) :
    Token.scan n.text.toList = [.number n.literal] ∧ n.literal.toNumber? = some n := by
  have hliteral : ∃ l, Token.scan n.text.toList = [.number l] ∧ l.toNumber? = some n := by
    cases n with
    | whole n => exact exists_literal_whole n
    | double x => exact exists_literal_of_readsBack (h x rfl)
  obtain ⟨l, hscan, hl⟩ := hliteral
  obtain rfl : n.literal = l := by rw [literal, hscan]
  exact ⟨hscan, hl⟩

end Number

end EntityGraph
