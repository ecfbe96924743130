import EntityGraph.Model.Registry
import EntityGraph.Text

namespace EntityGraph

/-- Where the reference that a hop crosses is stored: at the source under the name of the relation,
or at the target under another name. It may be a list of identities. -/
inductive Link
  | owned (many : Bool)
  | mapped (mappedBy : String) (many : Bool)
  deriving DecidableEq

structure Hop where
  relation : String
  sourceIdentity : String
  target : String
  targetIdentity : String
  link : Link
  deriving DecidableEq

structure AccessPath where
  hops : List Hop
  field : String
  type : FieldType
  isIdentity : Bool
  deriving DecidableEq

def Relation.link (r : Relation) : Link :=
  match r.mappedBy with
  | none => .owned r.isCollection
  | some owner => .mapped owner (r.kind == .manyToMany)

namespace AccessPath

def toIdentity (m : Model) : AccessPath :=
  ⟨[], m.identity, m.identityType, true⟩

def cons (hop : Hop) (path : AccessPath) : AccessPath :=
  { path with hops := hop :: path.hops }

end AccessPath

namespace Registry

def cross (g : Registry) (dotted : String) (m : Model) (segment : String) :
    Except Error (Hop × Model) :=
  match m.relation? segment with
  | none => .error (.invalidFilter (.unknownField segment m.path dotted))
  | some r =>
      match g.get? r.target with
      | none => .error (.invalidFilter (.unknownTarget r.target))
      | some target => .ok (⟨r.name, m.identity, target.path, target.identity, r.link⟩, target)

def pathOfSegments (g : Registry) (dotted : String) : Model → List String → Except Error AccessPath
  | m, [] => .error (.invalidFilter (.unknownField dotted m.path dotted))
  | m, [segment] =>
      match m.fieldType? segment with
      | some type => .ok ⟨[], segment, type, decide (segment = m.identity)⟩
      | none => do
          let (hop, target) ← g.cross dotted m segment
          return (AccessPath.toIdentity target).cons hop
  | m, segment :: rest => do
      let (hop, target) ← g.cross dotted m segment
      let path ← pathOfSegments g dotted target rest
      return path.cons hop

def accessPath (g : Registry) (m : Model) (dotted : String) : Except Error AccessPath :=
  g.pathOfSegments dotted m ((Text.split '.' dotted).map Text.trim)

end Registry

end EntityGraph
