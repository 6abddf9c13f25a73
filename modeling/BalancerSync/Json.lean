namespace BalancerSync

structure Numeral where
  negative : Bool
  whole : List Char
  fraction : List Char
  /-- Whether the exponent is negative, and its digits. -/
  exponent : Option (Bool × List Char)
  deriving DecidableEq

namespace Numeral

def ofNat (n : Nat) : Numeral := ⟨false, Nat.toDigits 10 n, [], none⟩

def isInteger (n : Numeral) : Bool := n.fraction.isEmpty && n.exponent.isNone

/-- The number that is spelled without a sign, a fraction and an exponent. -/
def toNat? (n : Numeral) : Option Nat :=
  if n.isInteger && !n.negative then some (Nat.ofDigitChars 10 n.whole 0) else none

end Numeral

/-- A string. Escapes may name half of a surrogate pair alone, and then it is no text. -/
inductive JsonString
  | text (s : String)
  | unpaired
  deriving DecidableEq

/-- A value keeps all that its text says: the spelling of numbers, the order of the members of an
object, and members that share a name. -/
inductive Json
  | null
  | bool (b : Bool)
  | number (n : Numeral)
  | string (s : JsonString)
  | array (elements : List Json)
  | object (members : List (JsonString × Json))

namespace Json

def ofString (s : String) : Json := string (.text s)

def ofNat (n : Nat) : Json := number (.ofNat n)

def ofMembers (members : List (String × Json)) : Json :=
  object (members.map fun (k, v) => (.text k, v))

mutual

def depth : Json → Nat
  | null | bool _ | number _ | string _ => 0
  | array elements => elementsDepth elements + 1
  | object members => membersDepth members + 1

def elementsDepth : List Json → Nat
  | [] => 0
  | v :: rest => max v.depth (elementsDepth rest)

def membersDepth : List (JsonString × Json) → Nat
  | [] => 0
  | (_, v) :: rest => max v.depth (membersDepth rest)

end

mutual

def all (p : Numeral → Bool) : Json → Bool
  | null | bool _ => true
  | number n => p n
  | string s => s ≠ .unpaired
  | array elements => elementsAll p elements
  | object members => membersAll p members

def elementsAll (p : Numeral → Bool) : List Json → Bool
  | [] => true
  | v :: rest => all p v && elementsAll p rest

def membersAll (p : Numeral → Bool) : List (JsonString × Json) → Bool
  | [] => true
  | (k, v) :: rest => k ≠ .unpaired && all p v && membersAll p rest

end

/-- Puts a member in the place of one of the same name, or last. -/
def putMember (k : JsonString) (v : Json) : List (JsonString × Json) → List (JsonString × Json)
  | [] => [(k, v)]
  | (j, w) :: rest => if j = k then (k, v) :: rest else (j, w) :: putMember k v rest

mutual

/-- Of members that share a name only the last one is kept. -/
def distinct : Json → Json
  | null => null
  | bool b => bool b
  | number n => number n
  | string s => string s
  | array elements => array (distinctElements elements)
  | object members => object (distinctMembers members [])

def distinctElements : List Json → List Json
  | [] => []
  | v :: rest => v.distinct :: distinctElements rest

def distinctMembers : List (JsonString × Json) → List (JsonString × Json) →
    List (JsonString × Json)
  | [], kept => kept
  | (k, v) :: rest, kept => distinctMembers rest (putMember k v.distinct kept)

end

end Json

end BalancerSync
