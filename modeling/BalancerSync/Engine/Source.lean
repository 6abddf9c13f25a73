import BalancerSync.Engine.Fetch

namespace BalancerSync.Engine

open Program

/-- A reconciliation either fetches its own snapshots, or it shares them with those of other load
balancers: all of them ask once per round, and the last one to ask fetches for everybody. -/
structure Source where
  /-- What belongs to a load balancer. -/
  snapshot : Identifier → Program Snapshot
  /-- The load balancer will not ask again. -/
  finish : Identifier → Program Unit

namespace Source

/-- One listing for each snapshot. -/
def direct (tag : Tag) : Source where
  snapshot lb := do return (← fetch tag).narrowTo lb
  finish _ := done ()

def denied (lb : Identifier) : Rendezvous.Denial → Failure
  | .unregistered => .unregisteredLoadBalancer lb
  | .alreadyWaiting => .concurrentFetch lb
  | .canceled => .canceled

/-- Fetches for all parties of a round. If the leader is canceled, so is the round. -/
def leadRound (tag : Tag) : Program (Rendezvous.Outcome Shared) := do
  match ← (fetch tag).attempt with
  | .error .canceled => request (.release (.error .canceled))
  | shared => request (.release (.ok shared))

def shared (tag : Tag) : Source where
  snapshot lb := do
    let outcome ← match ← request (.arrive lb) with
      | .lead => leadRound tag
      | .ended outcome => done outcome
    match outcome with
    | .error denial => fail (denied lb denial)
    | .ok (.error failure) => fail failure
    | .ok (.ok snapshot) => return snapshot.narrowTo lb
  finish lb := do
    match ← request (.leave lb) with
    | .error denial => fail (denied lb denial)
    | .ok () => return

end Source

end BalancerSync.Engine
