import EntityGraph.Entity.Expansion
import EntityGraph.Entity.Agreement
import EntityGraph.Entity.Reference
import EntityGraph.Settings
import EntityGraph.Store.Basic
import EntityGraph.Validation.Check

namespace EntityGraph

/-- What is called around writes. A hook may replace the entity that it gets, or refuse it. -/
structure Hooks where
  beforeCreate : Model → Json → Except Error Json
  afterCreate : Model → Json → Except Error Json
  beforeUpdate : Model → Json → Json → Except Error Json
  afterUpdate : Model → Json → Json → Except Error Json

def Hooks.none : Hooks :=
  ⟨fun _ => .ok, fun _ => .ok, fun _ _ => .ok, fun _ _ => .ok⟩

structure Service where
  registry : Registry
  settings : Settings
  hooks : Hooks
  /-- A new identity for a table whose identities are generated and no numbers. -/
  fresh : Table → String

namespace Service

variable (s : Service)

def existing (ts : Tables) (m : Model) (id : Json) : Except Error Json :=
  match ts.find? m.path id with
  | some record => .ok record
  | none => .error (.entityNotFound m.path id)

def expanded (ts : Tables) (m : Model) (depth : Nat) (record : Json) : Except Error Json :=
  s.registry.load ts depth m (s.registry.fromRecord m record)

def loaded (ts : Tables) (m : Model) (record : Json) : Except Error Json :=
  s.expanded ts m s.settings.relationDepth record

/-- What is wrong with an entity: an identity that is missing and will not be generated, and values
that break the rules of their fields, where rules apply. -/
def faults (m : Model) (entity : Json) : List (String × String) :=
  let identity := if m.identityGenerated ∨ (m.identityOf entity).isSome then []
    else [(m.identity, Violation.missing.message m.identity)]
  let fields := if s.settings.validation ∧ m.validated then violations m.rules entity else []
  OrderedMap.ofPairs (identity ++ fields)

def validate (m : Model) (entity : Json) : Except Error Unit :=
  if (s.faults m entity).isEmpty then .ok ()
  else .error (.validationFailed m.path (s.faults m entity))

/-- Let no record that refers to an identity through an owning relation do so any longer, but for
those that are spared. -/
def detach (m : Model) (r : Relation) (id : Json) (spared : Json → Bool) : UnitOfWork Unit := do
  let holders ← .attempt fun ts => do
    ts.query m (some (← references s.registry m r.name id)) none .all
  holders.forM fun holder => do
    if spared holder then pure ()
    else
      match holder.clearReference r.name id r.isCollection with
      | some changed => discard (UnitOfWork.merge m changed)
      | none => pure ()

/-- One-to-one references have a single holder: take the reference to an identity from all records
but the holder. -/
def unshare (m : Model) (field : String) (holder referenced : Json) : UnitOfWork Unit :=
  match m.relation? field with
  | some r =>
      if r.kind = .oneToOne ∧ r.isOwning then
        s.detach m r referenced fun other =>
          ((m.identityOf other).map (·.sameIdentity holder)).getD false
      else pure ()
  | none => pure ()

def unshareAll (m : Model) (id record : Json) : UnitOfWork Unit :=
  (m.owning.filter fun r => r.kind == .oneToOne).forM fun r =>
    match record.present? r.name with
    | some referenced => s.unshare m r.name id referenced
    | none => pure ()

def writeBackLink (root : Json) (link : BackLink) : UnitOfWork Unit := do
  let target ← s.registry.resolve link.model
  match ← .read fun ts => ts.find? target.path link.id with
  | none => pure ()
  | some record =>
      match record.setReference link.field root link.many with
      | some changed => discard (UnitOfWork.merge target changed)
      | none => pure ()
      if link.many then pure () else s.unshare target link.field link.id root

def writeBackLinks (links : List BackLink) (root : Json) : UnitOfWork Unit :=
  links.forM (s.writeBackLink root)

end Service

end EntityGraph
