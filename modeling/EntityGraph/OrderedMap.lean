namespace EntityGraph.OrderedMap

class KeyOrder (κ : Type) [LT κ] : Prop where
  irrefl : ∀ a : κ, ¬a < a
  trans : ∀ {a b c : κ}, a < b → b < c → a < c
  connected : ∀ {a b : κ}, a ≠ b → ¬a < b → b < a

instance : KeyOrder String where
  irrefl := String.lt_irrefl
  trans := String.lt_trans
  connected hne h :=
    String.not_le.mp fun hle => hne (String.le_antisymm hle (String.not_lt.mp h))

variable {κ α : Type} [DecidableEq κ]

def get? : List (κ × α) → κ → Option α
  | [], _ => none
  | (k, v) :: rest, key => if k = key then some v else get? rest key

def erase (m : List (κ × α)) (key : κ) : List (κ × α) :=
  m.filter fun p => decide (p.1 ≠ key)

def contains (m : List (κ × α)) (key : κ) : Bool :=
  (get? m key).isSome

variable [LT κ] [DecidableLT κ]

def insert : List (κ × α) → κ → α → List (κ × α)
  | [], key, value => [(key, value)]
  | (k, v) :: rest, key, value =>
      if k = key then (key, value) :: rest
      else if key < k then (key, value) :: (k, v) :: rest
      else (k, v) :: insert rest key value

/-- Of several pairs with one key the last counts. -/
def ofPairs (pairs : List (κ × α)) : List (κ × α) :=
  pairs.foldl (fun m p => insert m p.1 p.2) []

/-- Replace the value at `key`, or the given one where there is none. -/
def modify (m : List (κ × α)) (key : κ) (absent : α) (f : α → α) : List (κ × α) :=
  insert m key (f ((get? m key).getD absent))

/-- Keys ascend from pair to pair. -/
def Ascending (m : List (κ × α)) : Prop :=
  m.Pairwise fun p q => p.1 < q.1

@[simp]
theorem get?_insert_self (m : List (κ × α)) (key : κ) (value : α) :
    get? (insert m key value) key = some value := by
  induction m with
  | nil => simp [insert, get?]
  | cons p rest ih =>
    obtain ⟨k, v⟩ := p
    by_cases hk : k = key
    · simp [insert, get?, hk]
    · by_cases hlt : key < k <;> simp [insert, get?, hk, hlt, ih]

theorem get?_insert_of_ne (m : List (κ × α)) {key other : κ} (h : key ≠ other) (value : α) :
    get? (insert m key value) other = get? m other := by
  induction m with
  | nil => simp [insert, get?, h]
  | cons p rest ih =>
    obtain ⟨k, v⟩ := p
    by_cases hk : k = key
    · subst hk
      simp [insert, get?, h]
    · by_cases hlt : key < k <;> simp [insert, get?, hk, hlt, ih, h]

omit [LT κ] [DecidableLT κ] in
@[simp]
theorem get?_erase_self (m : List (κ × α)) (key : κ) : get? (erase m key) key = none := by
  induction m with
  | nil => rfl
  | cons p rest ih =>
    obtain ⟨k, v⟩ := p
    by_cases hk : k = key
    · simpa [erase, hk] using ih
    · simpa [erase, get?, hk] using ih

omit [LT κ] [DecidableLT κ] in
theorem get?_erase_of_ne (m : List (κ × α)) {key other : κ} (h : key ≠ other) :
    get? (erase m key) other = get? m other := by
  induction m with
  | nil => rfl
  | cons p rest ih =>
    obtain ⟨k, v⟩ := p
    by_cases hk : k = key
    · subst hk
      simpa [erase, get?, h] using ih
    · by_cases ho : k = other
      · simp [erase, get?, ho, h.symm]
      · simpa [erase, get?, hk, ho] using ih

theorem mem_insert {m : List (κ × α)} {key : κ} {value : α} {p : κ × α}
    (h : p ∈ insert m key value) : p = (key, value) ∨ p ∈ m := by
  induction m with
  | nil => simpa [insert] using h
  | cons q rest ih =>
    obtain ⟨k, v⟩ := q
    unfold insert at h
    split at h
    · rcases List.mem_cons.mp h with h | h
      · exact .inl h
      · exact .inr (List.mem_cons_of_mem _ h)
    · split at h
      · exact List.mem_cons.mp h
      · rcases List.mem_cons.mp h with h | h
        · exact .inr (h ▸ List.mem_cons_self)
        · exact (ih h).imp id (List.mem_cons_of_mem _)

theorem Ascending.insert [KeyOrder κ] {m : List (κ × α)} (h : Ascending m) (key : κ) (value : α) :
    Ascending (insert m key value) := by
  induction m with
  | nil => simp [OrderedMap.insert, Ascending]
  | cons q rest ih =>
    obtain ⟨k, v⟩ := q
    obtain ⟨hhead, hrest⟩ := List.pairwise_cons.mp h
    unfold OrderedMap.insert
    split
    · next hk =>
      subst hk
      exact List.pairwise_cons.mpr ⟨hhead, hrest⟩
    · split
      · next hlt =>
        refine List.pairwise_cons.mpr ⟨fun p hp => ?_, h⟩
        rcases List.mem_cons.mp hp with rfl | hp
        · exact hlt
        · exact KeyOrder.trans hlt (hhead p hp)
      · next hne hlt =>
        refine List.pairwise_cons.mpr ⟨fun p hp => ?_, ih hrest⟩
        rcases mem_insert hp with rfl | hp
        · exact KeyOrder.connected (Ne.symm hne) hlt
        · exact hhead p hp

omit [DecidableLT κ] in
theorem Ascending.erase {m : List (κ × α)} (h : Ascending m) (key : κ) :
    Ascending (erase m key) :=
  List.Pairwise.filter _ h

end EntityGraph.OrderedMap
