namespace BalancerSync

/-- A number in the sixty-four bit binary format, by its bits. -/
structure Binary64 where
  bits : UInt64
  deriving DecidableEq

/-- The integer nearest to a quotient, the even one of two. -/
def roundHalfEven (num den : Nat) : Nat :=
  let q := num / den
  let r := num % den
  if 2 * r < den then q
  else if den < 2 * r then q + 1
  else if q % 2 = 0 then q else q + 1

namespace Binary64

/-- What bits stand for. A finite number is `significand * 2 ^ exponent`. -/
inductive Value
  | nan
  | infinite (negative : Bool)
  | finite (negative : Bool) (significand : Nat) (exponent : Int)

def negative (x : Binary64) : Bool := x.bits >>> 63 = 1

def magnitude (x : Binary64) : Nat := x.bits.toNat % Nat.pow 2 63

/-- The magnitude of an infinite number. A larger one is no number. -/
def infinity : Nat := 0x7ff0000000000000

def value (x : Binary64) : Value :=
  let exponent : Nat := x.magnitude / Nat.pow 2 52
  let fraction := x.magnitude % Nat.pow 2 52
  if infinity < x.magnitude then .nan
  else if x.magnitude = infinity then .infinite x.negative
  else if exponent = 0 then .finite x.negative fraction (-1074)
  else .finite x.negative (Nat.pow 2 52 + fraction) ((exponent : Int) - 1075)

def ofMagnitude (negative : Bool) (magnitude : Nat) : Binary64 :=
  ⟨((if negative then Nat.pow 2 63 else 0) + magnitude).toUInt64⟩

def nan : Binary64 := ofMagnitude false (infinity + Nat.pow 2 51)

/-- The number nearest to a quotient. The denominator is positive. -/
def ofRatio (negative : Bool) (num den : Nat) : Binary64 :=
  let guess : Int := (num.log2 : Int) - den.log2
  let reached := den * Nat.pow 2 guess.toNat ≤ num * Nat.pow 2 (-guess).toNat
  let unit : Int := max ((if reached then guess else guess - 1) - 52) (-1074)
  let significand := roundHalfEven (num * Nat.pow 2 (-unit).toNat) (den * Nat.pow 2 unit.toNat)
  let magnitude := if num = 0 then 0 else (unit + 1074).toNat * Nat.pow 2 52 + significand
  ofMagnitude negative (min magnitude infinity)

def ofNat (n : Nat) : Binary64 := ofRatio false n 1

instance (n : Nat) : OfNat Binary64 n := ⟨ofNat n⟩

def scaled (negative : Bool) (significand : Nat) (exponent : Int) : Binary64 :=
  ofRatio negative (significand * Nat.pow 2 exponent.toNat) (Nat.pow 2 (-exponent).toNat)

def isNaN (x : Binary64) : Bool := infinity < x.magnitude

def isInfinite (x : Binary64) : Bool := x.magnitude = infinity

def isFinite (x : Binary64) : Bool := x.magnitude < infinity

def isZero (x : Binary64) : Bool := x.magnitude = 0

/-- Numbers are ordered as their magnitudes are, with their signs. -/
def position (x : Binary64) : Int := if x.negative then -x.magnitude else x.magnitude

/-- False if either side is no number. -/
def less (x y : Binary64) : Bool := !x.isNaN && !y.isNaN && x.position < y.position

/-- False if either side is no number. -/
def atMost (x y : Binary64) : Bool := !x.isNaN && !y.isNaN && x.position ≤ y.position

def min (x y : Binary64) : Binary64 :=
  if x.isNaN then y else if y.less x then y else x

def neg (x : Binary64) : Binary64 := ofMagnitude (!x.negative) x.magnitude

def mul (x y : Binary64) : Binary64 :=
  let sign := x.negative != y.negative
  match x.value, y.value with
  | .finite _ m p, .finite _ n q => scaled sign (m * n) (p + q)
  | .nan, _ | _, .nan => nan
  | .infinite _, _ => if y.isZero then nan else ofMagnitude sign infinity
  | _, .infinite _ => if x.isZero then nan else ofMagnitude sign infinity

def div (x y : Binary64) : Binary64 :=
  let sign := x.negative != y.negative
  match x.value, y.value with
  | .finite _ m p, .finite _ n q =>
    if n = 0 then if m = 0 then nan else ofMagnitude sign infinity
    else ofRatio sign (m * Nat.pow 2 (p - q).toNat) (n * Nat.pow 2 (q - p).toNat)
  | .nan, _ | _, .nan => nan
  | .infinite _, .infinite _ => nan
  | .infinite _, _ => ofMagnitude sign infinity
  | _, .infinite _ => ofMagnitude sign 0

/-- A significand with its sign, in units of `2 ^ unit`, where `unit` is no larger than its own. -/
def units (negative : Bool) (significand : Nat) (exponent unit : Int) : Int :=
  let n := significand * Nat.pow 2 (exponent - unit).toNat
  if negative then -n else n

def add (x y : Binary64) : Binary64 :=
  match x.value, y.value with
  | .finite s m p, .finite t n q =>
    let unit := Min.min p q
    let sum := units s m p unit + units t n q unit
    if sum = 0 then ofMagnitude (s && t) 0 else scaled (sum < 0) sum.natAbs unit
  | .nan, _ | _, .nan => nan
  | .infinite s, .infinite t => if s = t then x else nan
  | .infinite _, _ => x
  | _, .infinite _ => y

instance : Neg Binary64 := ⟨neg⟩
instance : Mul Binary64 := ⟨mul⟩
instance : Div Binary64 := ⟨div⟩
instance : Add Binary64 := ⟨add⟩
instance : Min Binary64 := ⟨min⟩

end Binary64

end BalancerSync
