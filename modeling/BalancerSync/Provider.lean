import BalancerSync.Failure

namespace BalancerSync

/-- An entry of a listing. -/
structure Listed where
  identifier : Identifier
  typeIdentifier : String
  deriving DecidableEq

inductive Call
  | get (kind : Kind) (id : Identifier)
  | list (tag : Tag)
  | create (resource : Resource)
  | destroy (kind : Kind) (id : Identifier)
  | tag (id : Identifier) (tag : Tag)
  deriving DecidableEq

namespace Call

abbrev Result : Call → Type
  | get _ _ => Resource
  | list _ => List Listed
  | create _ => Identifier
  | destroy _ _ => Unit
  | tag _ _ => Unit

abbrev Answer (c : Call) : Type := Except Refusal c.Result

def isCreate : Call → Bool
  | create _ => true
  | _ => false

def isDestroy : Call → Bool
  | destroy _ _ => true
  | _ => false

end Call

/-- A provider whose answers may depend on all that it has been asked before. -/
structure Provider (σ : Type) where
  answer : (c : Call) → σ → c.Answer × σ

end BalancerSync
