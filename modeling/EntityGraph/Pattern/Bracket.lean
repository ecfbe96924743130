import EntityGraph.Pattern.Escape

namespace EntityGraph.Pattern.Reader

def classRange? (f : Flags) (cs : List Char) : Option (CharClass × List Char) := do
  let (first, rest) ← classItem? f cs
  let rest := skip f rest
  let single : Option (CharClass × List Char) := match first with
    | .literal c => (classChar? f c).map fun c => (fun x => x == c, rest)
    | .charClass p => some (p, rest)
    | .test _ => none
  match rest with
  | [] => none
  | '-' :: more =>
      match skip f more with
      | [] => none
      | ']' :: _ => single
      | '-' :: _ => single
      | more =>
          match first, ← classItem? f more with
          | .literal low, (.literal high, tail) =>
              let low ← classChar? f low
              let high ← classChar? f high
              if high < low then none else return (.range low high, tail)
          | _, _ => none
  | _ => single

def namedClass? (f : Flags) : List Char → Option (CharClass × List Char)
  | '[' :: ':' :: rest => do
      let (negative, rest) := match rest with
        | '^' :: more => (true, more)
        | rest => (false, rest)
      let (name, tail) ← Text.cutFirst ':' rest
      let p ← CharClass.named? (String.ofList name)
      match tail with
      | ']' :: tail => return (if negative then (f.fold p).negate else p, tail)
      | _ => none
  | _ => none

inductive SetOperation
  | intersection
  | difference
  | symmetric

def SetOperation.apply : SetOperation → CharClass → CharClass → CharClass
  | .intersection, p, q => fun c => p c && q c
  | .difference, p, q => fun c => p c && !q c
  | .symmetric, p, q => fun c => p c != q c

/-- What has been read of a class: the operation that waits for its second operand, and the union
of the elements since. -/
structure ClassState where
  waiting : Option (SetOperation × CharClass)
  union : CharClass

def ClassState.finish (f : Flags) (s : ClassState) : CharClass :=
  match s.waiting with
  | none => s.union
  | some (op, p) => op.apply (f.fold p) (f.fold s.union)

def classStart (f : Flags) (cs : List Char) : Bool × ClassState × List Char :=
  let (negative, cs) := match skip f cs with
    | '^' :: rest => (true, skip f rest)
    | cs => (false, cs)
  match cs with
  | '-' :: rest => (negative, ⟨none, fun c => c == '-'⟩, (skip f rest).dropWhile (· == '-'))
  | ']' :: rest => (negative, ⟨none, fun c => c == ']'⟩, rest)
  | cs => (negative, ⟨none, fun _ => false⟩, cs)

def classRest? : Nat → Flags → Bool → ClassState → List Char → Option (CharClass × List Char)
  | 0, _, _, _, _ => none
  | n + 1, f, negative, s, cs =>
      let add (p : CharClass) : ClassState := { s with union := s.union.union p }
      let operate (op : SetOperation) : ClassState := ⟨some (op, s.finish f), fun _ => false⟩
      match skip f cs with
      | [] => none
      | ']' :: rest =>
          let p := f.fold (s.finish f)
          (if negative then f.complement? p else some p).map (·, rest)
      | '&' :: '&' :: rest => classRest? n f negative (operate .intersection) rest
      | '-' :: '-' :: rest => classRest? n f negative (operate .difference) rest
      | '~' :: '~' :: rest => classRest? n f negative (operate .symmetric) rest
      | '[' :: rest =>
          match namedClass? f ('[' :: rest) with
          | some (p, tail) => classRest? n f negative (add p) tail
          | none =>
              let (inner, start, rest) := classStart f rest
              (classRest? n f inner start rest).bind fun (p, tail) =>
                classRest? n f negative (add p) tail
      | cs => (classRange? f cs).bind fun (p, tail) => classRest? n f negative (add p) tail

end EntityGraph.Pattern.Reader
