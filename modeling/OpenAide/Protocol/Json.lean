/-!
# JSON values

`serde_json::Value`, as storage migrates it and as clients answer with it.
-/

namespace OpenAide

/-- `serde_json::Value`. -/
inductive Json where
  | null
  | bool (value : Bool)
  | number (value : Int)
  /-- A number that is not an integer, as its text. -/
  | decimal (text : String)
  | string (value : String)
  | array (items : List Json)
  | object (fields : List (String × Json))

namespace Json

/-- A field of an object. -/
def get? (key : String) : Json → Option Json
  | object fields => (fields.find? (·.1 = key)).map Prod.snd
  | _ => none

def asStr : Json → Option String
  | string value => some value
  | _ => none

def asArray : Json → Option (List Json)
  | array items => some items
  | _ => none

def asBool : Json → Option Bool
  | bool value => some value
  | _ => none

def isObject : Json → Bool
  | object _ => true
  | _ => false

mutual

/-- `==`; the order of an object's fields does not matter. -/
def beq : Json → Json → Bool
  | null, null => true
  | bool a, bool b => a == b
  | number a, number b => a == b
  | decimal a, decimal b => a == b
  | string a, string b => a == b
  | array xs, array ys => beqItems xs ys
  | object xs, object ys => xs.length == ys.length && beqFields xs ys
  | _, _ => false

def beqItems : List Json → List Json → Bool
  | [], [] => true
  | x :: xs, y :: ys => beq x y && beqItems xs ys
  | _, _ => false

def beqFields : List (String × Json) → List (String × Json) → Bool
  | [], _ => true
  | (key, value) :: rest, ys =>
    (match ys.find? (·.1 = key) with
      | some (_, value') => beq value value'
      | none => false) && beqFields rest ys

end

end Json

end OpenAide
