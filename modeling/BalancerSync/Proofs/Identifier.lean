import BalancerSync.Identifier
import BalancerSync.Proofs.Text.Digits
import Mathlib.Logic.Function.Defs

namespace BalancerSync

namespace Identifier

open Text

theorem scattered_injective : Function.Injective scattered := by
  intro n n' h
  have h := String.ofList_injective (congrArg Identifier.text h)
  have hlength (k : Nat) : (paddedDigits 16 16 (k * 0x9e3779b97f4a7c15 % UInt64.size)).length = 16 :=
    length_paddedDigits_of_lt (by decide) (by decide) (Nat.mod_lt _ (by decide))
  have hdigits := (List.append_inj h ((hlength n).trans (hlength n').symm)).2
  have hread (k : Nat) : readNumber? 16 (paddedDigits 16 16 k) = some k :=
    readNumber?_paddedDigits (by decide) (by decide)
  exact Option.some.inj (by rw [← hread n, hdigits, hread])

theorem length_scattered (n : Nat) : 32 ≤ (scattered n).text.length := by
  have h : 16 ≤ (paddedDigits 16 16 (n * 0x9e3779b97f4a7c15 % UInt64.size)).length :=
    length_paddedDigits
  have h' : 16 ≤ (paddedDigits 16 16 n).length := length_paddedDigits
  rw [scattered, String.length_ofList, List.length_append]
  omega

end Identifier

end BalancerSync
