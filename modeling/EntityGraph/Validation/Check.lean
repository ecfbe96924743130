import EntityGraph.Model.Definition
import EntityGraph.Pattern.Reader
import EntityGraph.Uuid
import EntityGraph.Validation.Violation

namespace EntityGraph

namespace Rule

abbrev Check := Except Violation Unit

def refuseIf (broken : Bool) (v : Violation) : Check :=
  if broken then .error v else .ok ()

def isEmail (s : String) : Bool :=
  s.toList.contains '@' && 3 ≤ s.utf8ByteSize

def checkFormat (format s : String) : Check :=
  match Text.lowerAscii format with
  | "email" => refuseIf (!isEmail s) .noEmail
  | "uuid" => refuseIf (Uuid.canonical? s).isNone .noUuid
  | _ => .ok ()

/-- A pattern that cannot be read is an error whatever the value is. -/
def checkPattern (pattern : String) (v : Json) : Check :=
  match Pattern.ofText? pattern, v with
  | none, _ => .error .unusablePattern
  | some p, .str s => refuseIf (!p.occursIn s) .mismatch
  | some _, _ => .ok ()

def agrees : Json → Json → Bool
  | .num a, .num b => a.toDouble == b.toDouble
  | a, b => a == b

def checkText (r : Rule) (s : String) : Check := do
  refuseIf (r.notBlank == some true && Text.isAllBlank s) .blank
  r.format.forM fun format => checkFormat format s
  r.maxLength.forM fun most => refuseIf (most < s.length) (.tooLong most)
  r.minLength.forM fun least => refuseIf (s.length < least) (.tooShort least)

def checkNumber (r : Rule) (x : Double) : Check := do
  r.minimum.forM fun least => refuseIf (x.compare least == .lt) (.tooSmall least)
  r.maximum.forM fun most => refuseIf (x.compare most == .gt) (.tooLarge most)

/-- What is checked of a value that is not null. -/
def checkPresent (r : Rule) (v : Json) : Check := do
  match v with
  | .str s => r.checkText s
  | _ => pure ()
  r.pattern.forM fun pattern => checkPattern pattern v
  r.allowed.forM fun allowed => refuseIf (!allowed.any (agrees v)) (.notAllowed allowed)
  match v with
  | .num n => r.checkNumber n.toDouble
  | _ => pure ()

def check (r : Rule) (v : Json) : Check :=
  if v.isNull then refuseIf (r.required == some true || r.notBlank == some true) .missing
  else r.checkPresent v

end Rule

def violations (rules : List (String × Rule)) (entity : Json) : List (String × String) :=
  rules.filterMap fun (field, rule) =>
    match rule.check (entity.get field) with
    | .ok () => none
    | .error v => some (field, rule.message.getD (v.message field))

end EntityGraph
