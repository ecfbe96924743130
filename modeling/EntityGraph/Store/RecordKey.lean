import EntityGraph.Json.Basic

namespace EntityGraph

/-- What an identity is stored under: a signed whole number of 64 bits or a text. -/
inductive RecordKey
  | int (n : Int)
  | text (s : String)
  deriving DecidableEq

namespace RecordKey

def before : RecordKey → RecordKey → Prop
  | int a, int b => a < b
  | int _, text _ => True
  | text _, int _ => False
  | text a, text b => a < b

instance : LT RecordKey := ⟨before⟩

instance : DecidableLT RecordKey
  | int a, int b => inferInstanceAs (Decidable (a < b))
  | int _, text _ => inferInstanceAs (Decidable True)
  | text _, int _ => inferInstanceAs (Decidable False)
  | text a, text b => inferInstanceAs (Decidable (a < b))

theorem before_trans : ∀ {a b c : RecordKey}, a < b → b < c → a < c
  | int _, int _, int _, hab, hbc => Int.lt_trans hab hbc
  | int _, int _, text _, _, _ => trivial
  | int _, text _, text _, _, _ => trivial
  | text _, text _, text _, hab, hbc => String.lt_trans hab hbc
  | text _, int _, _, hab, _ => False.elim hab
  | _, text _, int _, _, hbc => False.elim hbc

theorem before_connected : ∀ {a b : RecordKey}, a ≠ b → ¬a < b → b < a
  | int _, int _, hne, h =>
      Int.lt_iff_le_and_ne.mpr ⟨Int.not_lt.mp h, fun e => hne (congrArg int e.symm)⟩
  | int _, text _, _, h => absurd trivial h
  | text _, int _, _, _ => trivial
  | text a, text b, hne, h =>
      have hab : a ≠ b := fun e => hne (congrArg text e)
      have hba : b < a := OrderedMap.KeyOrder.connected hab h
      hba

instance : OrderedMap.KeyOrder RecordKey where
  irrefl
    | int a => Int.lt_irrefl a
    | text a => String.lt_irrefl a
  trans := before_trans
  connected := before_connected

def clamp (i : Int) : Int :=
  max (-0x8000000000000000) (min i 0x7FFFFFFFFFFFFFFF)

/-- The key of an identity. Numbers without a fraction that are too large go to the end of the
range; numbers with a fraction, truth values, lists, objects and null are no keys. -/
def of? : Json → Option RecordKey
  | .num n =>
      match n.signed? with
      | some i => some (int i)
      | none => if n.toDouble.isWhole then some (int (clamp n.toDouble.truncate)) else none
  | .str s => some (text s)
  | _ => none

end RecordKey

end EntityGraph
