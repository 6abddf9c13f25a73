import BalancerSync.OrderedMap
import BalancerSync.Text.Digits

namespace BalancerSync

@[ext] structure Identifier where
  text : String

@[ext] structure Tag where
  text : String

namespace Identifier

instance : LinearKey Identifier := LinearKey.ofLabel text Identifier.ext

instance : LawfulBEq Identifier := inferInstance

/-- The `n`-th of a sequence of distinct identifiers that are spread over their range. -/
def scattered (n : Nat) : Identifier :=
  ⟨String.ofList (Text.paddedDigits 16 16 (n * 0x9e3779b97f4a7c15 % UInt64.size)
    ++ Text.paddedDigits 16 16 n)⟩

end Identifier

namespace Tag

instance : LinearKey Tag := LinearKey.ofLabel text Tag.ext

/-- The tag of all that belongs to the service with the given unique identifier. -/
def ofService (uid : String) : Tag := ⟨"anxccm-svc-uid=" ++ uid⟩

end Tag

end BalancerSync
