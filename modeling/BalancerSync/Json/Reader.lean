import BalancerSync.Json.Token

namespace BalancerSync.Json

/-- An array or object that is open, with what has been read of it, last first. -/
inductive Frame
  | array (elements : List Json)
  | object (members : List (JsonString × Json)) (name : JsonString)

inductive Reading
  /-- A value. -/
  | value (stack : List Frame)
  /-- A value, or the end of an array without elements. -/
  | element (stack : List Frame)
  /-- A name, or the end of an object without members. -/
  | member (stack : List Frame)
  | name (stack : List Frame) (members : List (JsonString × Json))
  | colon (stack : List Frame) (members : List (JsonString × Json)) (name : JsonString)
  /-- A comma or the end of what is open, after a value that is complete. -/
  | after (stack : List Frame) (v : Json)

namespace Reading

/-- Begins a value. -/
def start (stack : List Frame) : Token → Option Reading
  | .null => some (after stack .null)
  | .bool b => some (after stack (.bool b))
  | .number n => some (after stack (.number n))
  | .string s => some (after stack (.string s))
  | .openArray => some (element stack)
  | .openObject => some (member stack)
  | _ => none

def step : Reading → Token → Option Reading
  | value stack, t => start stack t
  | element stack, .closeArray => some (after stack (.array []))
  | element stack, t => start (.array [] :: stack) t
  | member stack, .closeObject => some (after stack (.object []))
  | member stack, .string k => some (colon stack [] k)
  | name stack members, .string k => some (colon stack members k)
  | colon stack members k, .colon => some (value (.object members k :: stack))
  | after (.array elements :: stack) v, .comma => some (value (.array (v :: elements) :: stack))
  | after (.array elements :: stack) v, .closeArray =>
    some (after stack (.array (v :: elements).reverse))
  | after (.object members k :: stack) v, .comma => some (name stack ((k, v) :: members))
  | after (.object members k :: stack) v, .closeObject =>
    some (after stack (.object ((k, v) :: members).reverse))
  | _, _ => none

end Reading

def read? (text : String) : Option Json := do
  let tokens ← Token.list? text.toList
  match ← tokens.foldlM Reading.step (.value []) with
  | .after [] v => some v
  | _ => none

end BalancerSync.Json
