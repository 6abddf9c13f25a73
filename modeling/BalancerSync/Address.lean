import BalancerSync.OrderedMap
import BalancerSync.Text.Digits

namespace BalancerSync

inductive AddressFamily
  | v4
  | v6
  deriving DecidableEq, Repr

namespace AddressFamily

def name : AddressFamily → String
  | v4 => "v4"
  | v6 => "v6"

end AddressFamily

@[ext] structure AddressV4 where
  octets : List UInt8
  size : octets.length = 4
  deriving DecidableEq

@[ext] structure AddressV6 where
  groups : List UInt16
  size : groups.length = 8
  deriving DecidableEq

inductive Address
  | v4 (address : AddressV4)
  | v6 (address : AddressV6)
  deriving DecidableEq

namespace Address

def family : Address → AddressFamily
  | v4 _ => .v4
  | v6 _ => .v6

def rank : Address → List Nat
  | v4 a => 4 :: a.octets.map UInt8.toNat
  | v6 a => 6 :: a.groups.map UInt16.toNat

theorem rank_injective {a b : Address} (h : rank a = rank b) : a = b := by
  cases a <;> cases b <;> simp [rank] at h
  · exact congrArg v4 (AddressV4.ext ((List.map_inj_right fun _ _ => UInt8.toNat_inj.1).1 h))
  · exact congrArg v6 (AddressV6.ext ((List.map_inj_right fun _ _ => UInt16.toNat_inj.1).1 h))

instance : LinearKey Address := LinearKey.ofLabel rank rank_injective

/-- One to three decimal digits without a leading zero, at most 255. -/
def readOctet? (cs : List Char) : Option UInt8 :=
  if cs.length ≤ 3 ∧ (cs.head? ≠ some '0' ∨ cs.length = 1) then
    match Text.readNumber? 10 cs with
    | some n => if n < 256 then some n.toUInt8 else none
    | none => none
  else none

def readV4? (cs : List Char) : Option AddressV4 := do
  let octets ← (cs.splitOn '.').mapM readOctet?
  if h : octets.length = 4 then some ⟨octets, h⟩ else none

def readGroup? (cs : List Char) : Option UInt16 :=
  if cs.length ≤ 4 then (Text.readNumber? 16 cs).map Nat.toUInt16 else none

/-- The two groups that an address of the older family fills at the end of one of the newer. -/
def tailGroups (a : AddressV4) : List UInt16 :=
  match a.octets.map UInt8.toUInt16 with
  | [a, b, c, d] => [a * 256 + b, c * 256 + d]
  | _ => []

/-- Groups between colons. With `dotted` the last one may be an address of the older family. -/
def readPieces? (dotted : Bool) : List (List Char) → Option (List UInt16)
  | [] => some []
  | [cs] =>
    match readGroup? cs with
    | some g => some [g]
    | none => if dotted then (readV4? cs).map tailGroups else none
  | cs :: rest => do return (← readGroup? cs) :: (← readPieces? dotted rest)

def readGroups? (dotted : Bool) (cs : List Char) : Option (List UInt16) :=
  if cs.isEmpty then some [] else readPieces? dotted (cs.splitOn ':')

def splitGap : List Char → Option (List Char × List Char)
  | ':' :: ':' :: rest => some ([], rest)
  | c :: rest => (splitGap rest).map fun (front, back) => (c :: front, back)
  | [] => none

/-- Eight groups, of which a double colon may stand for one or more that are zero. -/
def readV6? (cs : List Char) : Option AddressV6 := do
  let groups ← match splitGap cs with
    | none => readGroups? true cs
    | some (front, back) => do
      let front ← readGroups? false front
      let back ← readGroups? true back
      if front.length + back.length < 8 then
        some (front ++ List.replicate (8 - front.length - back.length) 0 ++ back)
      else none
  if h : groups.length = 8 then some ⟨groups, h⟩ else none

def read? (text : String) : Option Address :=
  let cs := text.toList
  match readV4? cs with
  | some a => some (.v4 a)
  | none => (readV6? cs).map .v6

def writeOctets (octets : List UInt8) : List Char :=
  List.intercalate ['.'] (octets.map fun o => Nat.toDigits 10 o.toNat)

def writeGroups (groups : List UInt16) : List Char :=
  List.intercalate [':'] (groups.map fun g => Nat.toDigits 16 g.toNat)

def zeroRun (groups : List UInt16) : Nat := (groups.takeWhile (· = 0)).length

/-- Start and length of the longest run of zeros, the first of equally long ones. -/
def longestGap : List UInt16 → Nat × Nat
  | [] => (0, 0)
  | g :: rest =>
    let (start, length) := longestGap rest
    if length ≤ zeroRun (g :: rest) then (0, zeroRun (g :: rest)) else (start + 1, length)

/-- The octets of an address of the older family that is mapped into the newer one. -/
def mappedOctets? : List UInt16 → Option (List UInt8)
  | [0, 0, 0, 0, 0, 0xffff, a, b] =>
    some [(a / 256).toUInt8, (a % 256).toUInt8, (b / 256).toUInt8, (b % 256).toUInt8]
  | _ => none

def writeV6 (groups : List UInt16) : List Char :=
  match mappedOctets? groups with
  | some octets => "::ffff:".toList ++ writeOctets octets
  | none =>
    let (start, length) := longestGap groups
    if 1 < length then
      writeGroups (groups.take start) ++ [':', ':'] ++ writeGroups (groups.drop (start + length))
    else writeGroups groups

def write (a : Address) : String :=
  String.ofList <| match a with
    | v4 a => writeOctets a.octets
    | v6 a => writeV6 a.groups

end Address

end BalancerSync
