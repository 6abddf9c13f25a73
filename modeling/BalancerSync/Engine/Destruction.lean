import BalancerSync.Engine.Creation

namespace BalancerSync.Engine

open Program

/-- One pass over a queue. Returns what was refused, which is added to `refused`. -/
def destroyPass : (refused queue : List Resource) → Program (List Resource)
  | refused, [] => done refused
  | refused, r :: rest => do
    checkpoint
    match r.identifier with
    | none => fail (.missingIdentifier r.kind r.name)
    | some id =>
      match ← request (.call (.destroy r.kind id)) with
      | .ok () | .error .notFound => destroyPass refused rest
      | .error .rateLimited =>
        fail (.rateLimited (id :: identifiers refused ++ identifiers rest))
      | .error _ => destroyPass (refused ++ [r]) rest

/-- At most `passes` passes. Each of them but the last has fewer resources to destroy than the one
before it. -/
def destroyPasses : (passes : Nat) → List Resource → Program Unit
  | 0, _ => return
  | passes + 1, pending => do
    let refused ← destroyPass [] pending
    if refused.isEmpty then return
    else if refused.length = pending.length then fail (.notDestroyable (identifiers refused))
    else destroyPasses passes refused

/-- What cannot be destroyed is tried again as long as a pass destroys something. -/
def destroyAll (resources : List Resource) : Program Unit :=
  destroyPasses resources.length (byRank [2, 1, 0] resources)

end BalancerSync.Engine
