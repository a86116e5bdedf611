import Mathlib.Data.List.Basic

set_option autoImplicit false

inductive JsonValue
  | null
  | bool (value : Bool)
  | int (value : Int)
  -- a floating-point number, by its text
  | float (text : String) (isZero : Bool)
  | str (value : String)
  | list (items : List JsonValue)
  | object (fields : List (String × JsonValue))

namespace JsonValue

def truthy : JsonValue → Bool
  | null => false
  | bool value => value
  | int value => value ≠ 0
  | float _ isZero => !isZero
  | str value => value ≠ ""
  | list items => !items.isEmpty
  | object fields => !fields.isEmpty

def get (value : JsonValue) (key : String) : JsonValue :=
  match value with
  | object fields => (fields.lookup key).getD null
  | _ => null

def hasKey (value : JsonValue) (key : String) : Bool :=
  match value with
  | object fields => (fields.lookup key).isSome
  | _ => false

def isObject : JsonValue → Bool
  | object _ => true
  | _ => false

def str? : JsonValue → Option String
  | str value => some value
  | _ => none

def orElse (value other : JsonValue) : JsonValue := if value.truthy then value else other

def isText (value : JsonValue) (text : String) : Bool := value.str? = some text

end JsonValue
