namespace BalancerSync.Text

def digitValue? (base : Nat) (c : Char) : Option Nat :=
  let value :=
    if '0' ≤ c ∧ c ≤ '9' then c.toNat - '0'.toNat
    else if 'a' ≤ c ∧ c ≤ 'f' then c.toNat - 'a'.toNat + 10
    else if 'A' ≤ c ∧ c ≤ 'F' then c.toNat - 'A'.toNat + 10
    else base
  if value < base then some value else none

def extendNumber? (base n : Nat) : List Char → Option Nat
  | [] => some n
  | c :: rest => do extendNumber? base (n * base + (← digitValue? base c)) rest

def readNumber? (base : Nat) : List Char → Option Nat
  | [] => none
  | cs => extendNumber? base 0 cs

def paddedDigits (base width n : Nat) : List Char :=
  let digits := Nat.toDigits base n
  List.replicate (width - digits.length) '0' ++ digits

end BalancerSync.Text
