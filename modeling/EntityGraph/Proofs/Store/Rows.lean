import EntityGraph.Proofs.Entity.Record
import EntityGraph.Store.Tables

namespace EntityGraph

namespace Tables

variable {ts ts' ts'' : Tables} {path other : String} {key k : RecordKey} {record : Json}

def row? (ts : Tables) (path : String) (key : RecordKey) : Option Json :=
  (ts.table path).get? key

theorem rows_eq_of_row? (h : ∀ key, ts'.row? path key = ts.row? path key) :
    (ts'.table path).rows = (ts.table path).rows :=
  OrderedMap.ext (ts'.table path).ascending (ts.table path).ascending h

def put (ts : Tables) (path : String) (key : RecordKey) (record : Json) : Tables :=
  ts.set path ((ts.table path).put key record)

def erase (ts : Tables) (path : String) (key : RecordKey) : Tables :=
  ts.set path ((ts.table path).erase key)

theorem find?_eq_row? {id : Json} (h : RecordKey.of? id = some key) (ts : Tables) (path : String) :
    ts.find? path id = ts.row? path key := by
  rw [find?, h, Option.bind_some, row?]

theorem mem_records_iff : record ∈ ts.records path ↔ ∃ key, ts.row? path key = some record := by
  simp only [records, Table.records, List.mem_map, row?, Table.get?,
    OrderedMap.get?_eq_some_iff (ts.table path).ascending]
  constructor
  · rintro ⟨⟨key, r⟩, hm, rfl⟩
    exact ⟨key, hm⟩
  · rintro ⟨key, hm⟩
    exact ⟨(key, record), hm, rfl⟩

theorem pairwise_keys (ts : Tables) (path : String) : (ts.records path).Pairwise fun a b =>
    ∃ k l, k < l ∧ ts.row? path k = some a ∧ ts.row? path l = some b := by
  have hascending := (ts.table path).ascending
  refine List.pairwise_map.mpr (hascending.imp_of_mem fun {p q} hp hq hlt => ?_)
  exact ⟨p.1, q.1, hlt, (OrderedMap.get?_eq_some_iff hascending).mpr hp,
    (OrderedMap.get?_eq_some_iff hascending).mpr hq⟩

theorem row?_put_self (ts : Tables) (path : String) (key : RecordKey) (record : Json) :
    (ts.put path key record).row? path key = some record := by
  rw [row?, put, table_set_self, Table.get?, Table.put, OrderedMap.get?_insert_self]

theorem row?_put_of_path_ne (h : path ≠ other) (ts : Tables) (key : RecordKey) (record : Json)
    (k : RecordKey) : (ts.put path key record).row? other k = ts.row? other k := by
  rw [row?, put, table_set_of_ne ts h, ← row?]

theorem row?_put_of_key_ne (h : key ≠ k) (ts : Tables) (path : String) (record : Json) :
    (ts.put path key record).row? path k = ts.row? path k := by
  rw [row?, put, table_set_self, Table.get?, Table.put, OrderedMap.get?_insert_of_ne _ h]
  rfl

theorem row?_put (ts : Tables) (path : String) (key : RecordKey) (record : Json) (other : String)
    (k : RecordKey) : (ts.put path key record).row? other k =
      if other = path ∧ k = key then some record else ts.row? other k := by
  by_cases hp : other = path
  · subst hp
    by_cases hk : k = key
    · rw [hk, row?_put_self, if_pos ⟨rfl, rfl⟩]
    · rw [row?_put_of_key_ne (Ne.symm hk), if_neg fun h => hk h.2]
  · rw [row?_put_of_path_ne (Ne.symm hp), if_neg fun h => hp h.1]

theorem row?_erase (ts : Tables) (path : String) (key : RecordKey) (other : String)
    (k : RecordKey) : (ts.erase path key).row? other k =
      if other = path ∧ k = key then none else ts.row? other k := by
  by_cases hp : other = path
  · subst hp
    rw [row?, erase, table_set_self, Table.get?, Table.erase]
    by_cases hk : k = key
    · rw [hk, OrderedMap.get?_erase_self, if_pos ⟨rfl, rfl⟩]
    · rw [OrderedMap.get?_erase_of_ne _ (Ne.symm hk), if_neg fun h => hk h.2]
      rfl
  · rw [row?, erase, table_set_of_ne ts (Ne.symm hp), if_neg fun h => hp h.1, ← row?]

theorem row?_of_erase {ts : Tables} {path other : String} {key k : RecordKey} {record : Json}
    (h : (ts.erase path key).row? other k = some record) : ts.row? other k = some record := by
  rw [row?_erase] at h
  split at h
  · cases h
  · exact h

/-- Every record is rewritten under its key, and no key appears or disappears. -/
def Rewrites (ts ts' : Tables) (f : String → RecordKey → Json → Json) : Prop :=
  ∀ path key, ts'.row? path key = (ts.row? path key).map (f path key)

def within (path : String) (f : RecordKey → Json → Json) : String → RecordKey → Json → Json :=
  fun other key record => if other = path then f key record else record

namespace Rewrites

variable {f g : String → RecordKey → Json → Json}

theorem refl (ts : Tables) : ts.Rewrites ts fun _ _ record => record :=
  fun _ _ => Option.map_id'.symm

theorem trans (h : ts.Rewrites ts' f) (h' : ts'.Rewrites ts'' g) :
    ts.Rewrites ts'' fun path key record => g path key (f path key record) := by
  intro path key
  rw [h', h, Option.map_map]
  rfl

theorem congr (h : ts.Rewrites ts' f)
    (hfg : ∀ path key record, ts.row? path key = some record → f path key record = g path key record) :
    ts.Rewrites ts' g := by
  intro path key
  rw [h path key]
  exact Option.map_congr fun record hr => hfg path key record hr

theorem put (h : ts.row? path key = some record) (changed : Json) :
    ts.Rewrites (ts.put path key changed)
      (within path fun k old => if k = key then changed else old) := by
  intro other k
  rw [row?_put]
  unfold within
  by_cases hp : other = path
  · subst hp
    by_cases hk : k = key
    · subst hk
      simp [h]
    · simp [hk]
  · simp [hp]

theorem isSome_row? (h : ts.Rewrites ts' f) (path : String) (key : RecordKey) :
    (ts'.row? path key).isSome = (ts.row? path key).isSome := by
  rw [h path key, Option.isSome_map]

end Rewrites

end Tables

end EntityGraph
