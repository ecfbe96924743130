import EntityGraph.Entity.Record

namespace EntityGraph.Json

def setReference (record : Json) (field : String) (id : Json) (many : Bool) : Option Json :=
  match record with
  | .obj _ =>
      if many then
        let ids := (record.get field).items
        if ids.any (·.sameIdentity id) then none else some (record.set field (.arr (ids ++ [id])))
      else if (record.get field).sameIdentity id then none
      else some (record.set field id)
  | _ => none

def clearReference (record : Json) (field : String) (id : Json) (many : Bool) : Option Json :=
  if many then
    let ids := (record.get field).items
    if ids.any (·.sameIdentity id) then
      some (record.set field (.arr (ids.filter fun x => !x.sameIdentity id)))
    else none
  else if (record.get field).sameIdentity id then some (record.set field .null)
  else none

def editReference (link : Bool) (record : Json) (field : String) (id : Json) (many : Bool) :
    Option Json :=
  if link then record.setReference field id many else record.clearReference field id many

end EntityGraph.Json
