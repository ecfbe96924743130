namespace EntityGraph

inductive Pattern
  | char (accepts : Char → Bool)
  /-- A test of the characters before and after a position. -/
  | assertion (holds : Option Char → Option Char → Bool)
  | group (body : Pattern)
  | sequence (parts : List Pattern)
  | choice (parts : List Pattern)
  | repetition (body : Pattern) (least : Nat) (most : Option Nat)

namespace Pattern

/-- The characters before and after a position. -/
structure Place where
  before : Option Char
  after : Option Char

def placesFrom (before : Option Char) : List Char → List Place
  | [] => [⟨before, none⟩]
  | c :: rest => ⟨before, some c⟩ :: placesFrom (some c) rest

def places (text : List Char) : List Place :=
  placesFrom none text

abbrev Positions := List Bool

namespace Positions

def union (a b : Positions) : Positions :=
  List.zipWith (· || ·) a b

def none (places : List Place) : Positions :=
  places.map fun _ => false

def all (places : List Place) : Positions :=
  places.map fun _ => true

def advance (places : List Place) (accepts : Char → Bool) (s : Positions) : Positions :=
  false :: (List.zipWith (fun p b => b && p.after.any accepts) places s).dropLast

def keep (places : List Place) (holds : Option Char → Option Char → Bool) (s : Positions) :
    Positions :=
  List.zipWith (fun p b => b && holds p.before p.after) places s

/-- Add what a step leads to, so many times or until nothing is new. -/
def close (step : Positions → Positions) : Nat → Positions → Positions
  | 0, s => s
  | n + 1, s => if union s (step s) = s then s else close step n (union s (step s))

def iterate (step : Positions → Positions) : Nat → Positions → Positions
  | 0, s => s
  | n + 1, s => iterate step n (step s)

end Positions

mutual

def ends (places : List Place) : Pattern → Positions → Positions
  | .char accepts, s => s.advance places accepts
  | .assertion holds, s => s.keep places holds
  | .group body, s => ends places body s
  | .sequence parts, s => endsAll places parts s
  | .choice parts, s => endsAny places parts s
  | .repetition body least most, s =>
      (Positions.iterate (ends places body) least s).close (ends places body)
        ((most.map (· - least)).getD places.length)
termination_by structural p => p

def endsAll (places : List Place) : List Pattern → Positions → Positions
  | [], s => s
  | p :: rest, s => endsAll places rest (ends places p s)
termination_by structural ps => ps

def endsAny (places : List Place) : List Pattern → Positions → Positions
  | [], _ => .none places
  | p :: rest, s => (ends places p s).union (endsAny places rest s)
termination_by structural ps => ps

end

def occursIn (p : Pattern) (text : String) : Bool :=
  let ps := places text.toList
  (p.ends ps (.all ps)).contains true

mutual

def depth : Pattern → Nat
  | .char _ | .assertion _ => 0
  | .group body => depth body + 1
  | .repetition body _ _ => depth body + 1
  | .sequence parts => depthAll parts + (if parts.length < 2 then 0 else 1)
  | .choice parts => depthAll parts + 1
termination_by structural p => p

def depthAll : List Pattern → Nat
  | [] => 0
  | p :: rest => max (depth p) (depthAll rest)
termination_by structural ps => ps

end

mutual

def size : Pattern → Nat
  | .char _ | .assertion _ => 1
  | .group body => size body
  | .repetition body least most => (size body + 1) * max 1 (most.getD least)
  | .sequence parts => sizeAll parts
  | .choice parts => sizeAll parts
termination_by structural p => p

def sizeAll : List Pattern → Nat
  | [] => 0
  | p :: rest => size p + sizeAll rest
termination_by structural ps => ps

end

end Pattern

end EntityGraph
