import BalancerSync.Binary64

namespace BalancerSync

@[ext] structure Duration where
  nanoseconds : Nat
  deriving DecidableEq

namespace Duration

def perSecond : Nat := 1000000000

def perMillisecond : Nat := 1000000

def ofMilliseconds (ms : Nat) : Duration := ⟨ms * perMillisecond⟩

/-- Milliseconds that have passed when the duration is over. -/
def milliseconds (d : Duration) : Nat := (d.nanoseconds + (perMillisecond - 1)) / perMillisecond

def min (d e : Duration) : Duration := if e.nanoseconds < d.nanoseconds then e else d

/-- The whole seconds and the fraction are rounded each, and so is their sum. -/
def seconds (d : Duration) : Binary64 :=
  Binary64.ofNat (d.nanoseconds / perSecond)
    + Binary64.ofNat (d.nanoseconds % perSecond) / Binary64.ofNat perSecond

/-- The nearest nanosecond, the even one of two. Fails if the seconds are negative or do not fit
into sixty-four bits. -/
def ofSeconds? (x : Binary64) : Option Duration :=
  match x.value with
  | .finite negative m e =>
    let num := m * Nat.pow 2 e.toNat
    let den := Nat.pow 2 (-e).toNat
    if negative ∧ m ≠ 0 ∨ UInt64.size * den ≤ num then none
    else some ⟨roundHalfEven (num * perSecond) den⟩
  | _ => none

end Duration

end BalancerSync
