import BalancerSync.Binary64
import BalancerSync.Json

namespace BalancerSync.Numeral

def digitValue (c : Char) : Nat := c.toNat - '0'.toNat

def wordLimit : Nat := UInt64.size - 1

/-- The integer of the digits before the point, and how many of them it leaves out. -/
def wholePart (n : Nat) : List Char → Nat × Nat
  | [] => (n, 0)
  | c :: rest =>
    if wordLimit < n * 10 + digitValue c then (n, (c :: rest).length)
    else wholePart (n * 10 + digitValue c) rest

/-- The integer with the digits after the point, and how many of them it takes in. -/
def fractionPart (n : Nat) : List Char → Nat × Nat
  | [] => (n, 0)
  | c :: rest =>
    if wordLimit < n * 10 + digitValue c then (n, 0)
    else
      let (n, taken) := fractionPart (n * 10 + digitValue c) rest
      (n, taken + 1)

/-- Multiplies by a power of ten. Fails if the result is too large. -/
def timesPowerOfTen? (x : Binary64) (exponent : Nat) : Option Binary64 :=
  if 308 < exponent then if x.isZero then some x else none
  else
    let product := x * Binary64.ofNat (Nat.pow 10 exponent)
    if product.isInfinite then none else some product

/-- Divides by a power of ten. An exponent above 308 is used up in steps, until nothing is left. -/
def overPowerOfTen (x : Binary64) (exponent : Nat) : Nat → Binary64
  | 0 => x
  | bound + 1 =>
    if 308 < exponent then
      if x.isZero then x
      else overPowerOfTen (x / Binary64.ofNat (Nat.pow 10 308)) (exponent - 308) bound
    else x / Binary64.ofNat (Nat.pow 10 exponent)

def scale? (x : Binary64) (exponent : Int) : Option Binary64 :=
  if 0 ≤ exponent then timesPowerOfTen? x exponent.toNat
  else some (overPowerOfTen x exponent.natAbs 4)

/-- The exponents that are told apart are less than this, and not less than the opposite of it. -/
def exponentLimit : Nat := 0x80000000

def clampExponent (e : Int) : Int := max (-(exponentLimit : Int)) (min (exponentLimit - 1) e)

/-- The first digits that fit into sixty-four bits make up an integer, which is scaled by a power of
ten. Each of the two steps rounds, so the last bit may differ from that of the nearest number. -/
def toBinary64? (n : Numeral) : Option Binary64 := do
  let (significand, left) := wholePart 0 n.whole
  let (significand, taken) := fractionPart significand n.fraction
  let shift : Int := (left : Int) - taken
  let magnitude ← match n.exponent with
    | none => scale? (.ofNat significand) shift
    | some (negative, digits) =>
      let e := Nat.ofDigitChars 10 digits 0
      if exponentLimit ≤ e then if significand = 0 ∨ negative then some 0 else none
      else scale? (.ofNat significand) (clampExponent (if negative then shift - e else shift + e))
  return if n.negative then -magnitude else magnitude

end BalancerSync.Numeral
