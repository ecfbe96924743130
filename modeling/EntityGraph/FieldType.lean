namespace EntityGraph

inductive FieldType
  | boolean
  | integer
  | long
  | float
  | double
  | string
  | date
  | datetime
  | uuid
  | json
  deriving DecidableEq

namespace FieldType

def all : List FieldType :=
  [boolean, integer, long, float, double, string, date, datetime, uuid, json]

def name : FieldType → String
  | boolean => "boolean"
  | integer => "integer"
  | long => "long"
  | float => "float"
  | double => "double"
  | string => "string"
  | date => "date"
  | datetime => "datetime"
  | uuid => "uuid"
  | json => "json"

def label : FieldType → String
  | boolean => "Boolean"
  | integer => "Integer"
  | long => "Long"
  | float => "Float"
  | double => "Double"
  | string => "String"
  | date => "Date"
  | datetime => "Datetime"
  | uuid => "Uuid"
  | json => "Json"

def ofName? (s : String) : Option FieldType :=
  if s = "timestamp" ∨ s = "date_time" then some datetime
  else all.find? fun t => t.name == s

def isIntegral : FieldType → Bool
  | integer | long => true
  | _ => false

def isNumeric : FieldType → Bool
  | integer | long | float | double => true
  | _ => false

end FieldType

end EntityGraph
