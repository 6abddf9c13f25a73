import BalancerSync.Address
import BalancerSync.Json.Number

namespace BalancerSync.Json

def toText? : Json → Option String
  | string (.text s) => some s
  | _ => none

def toBool? : Json → Option Bool
  | bool b => some b
  | _ => none

def toNatBelow? (bound : Nat) : Json → Option Nat
  | number n => n.toNat?.filter (· < bound)
  | _ => none

def toUInt16? (v : Json) : Option UInt16 := (v.toNatBelow? UInt16.size).map Nat.toUInt16

def toWord32? (v : Json) : Option Nat := v.toNatBelow? UInt32.size

def toWord64? (v : Json) : Option Nat := v.toNatBelow? UInt64.size

def toBinary64? : Json → Option Binary64
  | number n => n.toBinary64?
  | _ => none

def toAddress? (v : Json) : Option Address := v.toText?.bind Address.read?

def toOption? {α : Type} (decode : Json → Option α) : Json → Option (Option α)
  | null => some none
  | v => (decode v).map some

def toList? {α : Type} (decode : Json → Option α) : Json → Option (List α)
  | array elements => elements.mapM decode
  | _ => none

def member? {α : Type} (decode : Json → Option α) : JsonString × Json → Option (String × α)
  | (.text k, v) => (decode v).map fun a => (k, a)
  | (.unpaired, _) => none

def toMembers? {α : Type} (decode : Json → Option α) : Json → Option (List (String × α))
  | object members => members.mapM (member? decode)
  | _ => none

/-- The members of an object. The last one of a name counts. -/
def toMap? {α : Type} (decode : Json → Option α) (v : Json) : Option (OrderedMap String α) :=
  (v.toMembers? decode).map OrderedMap.ofList

/-- The member of a name, if there is one. Fails if there are several. -/
def field? (members : List (String × Json)) (name : String) : Option (Option Json) :=
  match members.filter fun m => m.1 = name with
  | [] => some none
  | [(_, v)] => some (some v)
  | _ => none

/-- The values of the named fields, each of them if there is one. -/
def toFields? (names : List String) : Json → Option (List (Option Json))
  | object members => do
    let members ← (object members).toMembers? some
    names.mapM (field? members)
  | array elements =>
    if elements.length ≤ names.length then
      some (elements.map some ++ List.replicate (names.length - elements.length) none)
    else none
  | _ => none

def required {α : Type} (decode : Json → Option α) (v : Option Json) : Option α := v.bind decode

def defaulted {α : Type} (a : α) (decode : Json → Option α) : Option Json → Option α
  | none => some a
  | some v => decode v

def toVariant? : Json → Option (String × Option Json)
  | string (.text name) => some (name, none)
  | object [(.text name, v)] => some (name, some v)
  | _ => none

/-- The name of a variant that nothing comes with. With `emptyIsNothing` an empty object is nothing,
as null is. -/
def toName? (emptyIsNothing : Bool) (v : Json) : Option String :=
  match v.toVariant? with
  | some (name, none) | some (name, some null) => some name
  | some (name, some (object [])) => if emptyIsNothing then some name else none
  | _ => none

/-- Takes apart a record whose member of the given name, or first element, tells what the others
are. -/
def toTagged? (name : String) : Json → Option (Json × Json)
  | object members =>
    match members.filter fun m => m.1 = .text name with
    | [(_, tag)] => some (tag, object (members.filter fun m => m.1 ≠ .text name))
    | _ => none
  | array (tag :: rest) => some (tag, array rest)
  | _ => none

def toEnum? {α : Type} (values : List α) (name : α → String) (emptyIsNothing : Bool) (v : Json) :
    Option α := do
  let text ← v.toName? emptyIsNothing
  values.find? fun a => name a = text

def maxDepth : Nat := 127

/-- A value in which every string is text, numbers are not too large, and at most `limit` arrays and
objects are nested. -/
def isStrict (limit : Nat) (v : Json) : Bool :=
  v.depth ≤ limit && v.all fun n => n.toBinary64?.isSome

end BalancerSync.Json
