import BalancerSync.Binary64
import BalancerSync.Text.Digits

namespace BalancerSync.Binary64

/-- A positive number as a quotient with half the distance to its neighbours on either side. -/
structure Neighbourhood where
  num : Nat
  den : Nat
  below : Nat
  above : Nat
  closed : Bool

def neighbourhood (significand : Nat) (exponent : Int) : Neighbourhood :=
  let scale := Nat.pow 2 exponent.toNat
  { num := 4 * significand * scale
    den := 4 * Nat.pow 2 (-exponent).toNat
    below := (if significand = Nat.pow 2 52 then 1 else 2) * scale
    above := 2 * scale
    closed := significand % 2 = 0 }

namespace Neighbourhood

/-- Whether `n / d` rounds to the number. -/
def contains (v : Neighbourhood) (n d : Nat) : Bool :=
  let point := n * v.den
  let low := (v.num - v.below) * d
  let high := (v.num + v.above) * d
  if v.closed then low ≤ point ∧ point ≤ high else low < point ∧ point < high

/-- How often the number can be multiplied by ten and still be less than one, up to `bound`. -/
def leadingZeros (v : Neighbourhood) : Nat → Nat → Nat
  | 0, _ => 0
  | bound + 1, num => if 10 * num < v.den then leadingZeros v bound (10 * num) + 1 else 0

def scale (v : Neighbourhood) : Int :=
  if v.den ≤ v.num then (Nat.toDigits 10 (v.num / v.den)).length
  else -(v.leadingZeros 400 v.num : Int)

/-- The multiple of `10 ^ unit` nearest to the number that rounds to it, the larger one of two. -/
def onGrid? (v : Neighbourhood) (unit : Int) : Option Nat :=
  let up := Nat.pow 10 unit.toNat
  let down := Nat.pow 10 (-unit).toNat
  let floor := v.num * down / (v.den * up)
  let inside n := v.contains (n * up) down
  let twiceRest := 2 * (v.num * down % (v.den * up))
  let nearest := if twiceRest < v.den * up then floor else floor + 1
  let other := if twiceRest < v.den * up then floor + 1 else floor
  if inside nearest then some nearest else if inside other then some other else none

/-- Digits on the coarsest of at most `bound` grids that has a point, and the unit of that grid. -/
def shortest (v : Neighbourhood) : Nat → Int → Nat × Int
  | 0, unit =>
    (roundHalfEven (v.num * Nat.pow 10 (-unit).toNat) (v.den * Nat.pow 10 unit.toNat), unit)
  | bound + 1, unit =>
    match v.onGrid? unit with
    | some n => (n, unit)
    | none => shortest v bound (unit - 1)

end Neighbourhood

def placePoint (n : Nat) (unit : Int) : List Char :=
  let digits := Nat.toDigits 10 n
  let places := (-unit).toNat
  if places = 0 then digits ++ List.replicate unit.toNat '0'
  else
    let padded := List.replicate (places + 1 - digits.length) '0' ++ digits
    let whole := padded.length - places
    padded.take whole ++ '.' :: padded.drop whole

def write (x : Binary64) : String :=
  let sign := if x.negative then "-" else ""
  match x.value with
  | .nan => "NaN"
  | .infinite _ => sign ++ "inf"
  | .finite _ 0 _ => sign ++ "0"
  | .finite _ m e =>
    let v := neighbourhood m e
    let (n, unit) := v.shortest 18 v.scale
    sign ++ String.ofList (placePoint n unit)

def hex (x : Binary64) : String := String.ofList (Text.paddedDigits 16 16 x.bits.toNat)

end BalancerSync.Binary64
