import BalancerSync.Engine.Readiness

namespace BalancerSync.Engine

open Program

/-- The resources in the order of their ranks, and those of one rank in their own order. -/
def byRank (ranks : List Nat) (resources : List Resource) : List Resource :=
  ranks.flatMap fun rank => resources.filter fun r => r.kind.rank = rank

/-- An object that is created is tagged at once, and no other program creates in between. If it
cannot be tagged it stays without a tag. -/
def createTagged (tag : Tag) (r : Resource) : Program Resource := do
  request .enter
  match ← request (.call (.create r)) with
  | .error refusal =>
    request .exit
    fail (.notCreated r.name refusal.message)
  | .ok id =>
    let tagged ← request (.call (.tag id tag))
    request .exit
    match tagged with
    | .error refusal => fail (.notTagged id refusal.message)
    | .ok () => return r.withIdentifier id

def createEach (tag : Tag) : List Resource → Program (List Resource)
  | [] => done []
  | r :: rest => do
    checkpoint
    let created ← createTagged tag r
    return created :: (← createEach tag rest)

/-- Waits for resources. Failed ones are left to a later cycle. -/
def settle (b : Backoff) (resources : List Resource) : Program Unit := do
  match ← (waitReady b resources).attempt with
  | .ok () | .error (.resourcesFailed _) => return
  | .error failure => fail failure

/-- Creates what others refer to first, and then waits for all of it. -/
def createAll (tag : Tag) (b : Backoff) (resources : List Resource) : Program Unit := do
  settle b (← createEach tag (byRank [0, 1, 2] resources))

end BalancerSync.Engine
