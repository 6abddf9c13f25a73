import BalancerSync.Provider

namespace BalancerSync

structure Script where
  list : Option (Except Refusal (List Listed))
  get : OrderedMap Identifier (Except Refusal Resource)
  create : OrderedMap String Refusal
  destroy : OrderedMap Identifier Refusal
  tag : OrderedMap Identifier Refusal

namespace Script

def empty : Script := ⟨none, ∅, ∅, ∅, ∅⟩

/-- The answer to a call, if there is one. Kinds and tags make no difference. -/
def answer? (s : Script) : (c : Call) → Option c.Answer
  | .get _ id => s.get.get? id
  | .list _ => s.list
  | .create r => (s.create.get? r.name).map .error
  | .destroy _ id => (s.destroy.get? id).map .error
  | .tag id _ => (s.tag.get? id).map .error

end Script

namespace Provider

def scripted {σ : Type} (p : Provider σ) (s : Script) : Provider σ where
  answer c state :=
    match s.answer? c with
    | some answer => (answer, state)
    | none => p.answer c state

end Provider

end BalancerSync
