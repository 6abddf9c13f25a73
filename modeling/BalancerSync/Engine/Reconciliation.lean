import BalancerSync.Engine.Destruction
import BalancerSync.Engine.Source
import BalancerSync.Plan

namespace BalancerSync

/-- The ports that are bound on each address. -/
abbrev BoundPorts := OrderedMap Address (OrderedSet UInt16)

def BoundPorts.ofBinds (binds : List Bind) : BoundPorts :=
  binds.foldl
    (fun bound b => bound.insert b.address (((bound.get? b.address).getD ∅).insert b.port ())) ∅

structure Reconciliation where
  source : Engine.Source
  layout : Layout

namespace Reconciliation

open Program Engine

def tag (r : Reconciliation) : Tag := r.layout.service.tag

/-- A reconciliation that fetches its own snapshots. -/
def direct (layout : Layout) : Reconciliation := ⟨.direct layout.service.tag, layout⟩

/-- What there is to do. -/
def check (r : Reconciliation) : Program Plan := do
  let snapshot ← r.source.snapshot r.layout.loadBalancer
  request (.remember (some snapshot))
  ofExcept (r.layout.plan snapshot)

/-- What the latest check saw to be progressing. -/
def progressing : Program (List Resource) := do
  return ((← request .latest).map (·.progressing)).getD []

/-- Each cycle takes a fresh snapshot and then does one thing: it destroys what is not wanted, or
creates what is missing, or waits for what is progressing. -/
def converge (r : Reconciliation) : (cycles : Nat) → Program Unit
  | 0 => fail (.notConverged r.layout.settings.maxCycles)
  | cycles + 1 => do
    checkpoint
    match ← r.check.attempt with
    | .error (.resourcesProgressing _) =>
      settle r.layout.settings.backoff (← progressing)
      converge r cycles
    | .error failure => fail failure
    | .ok plan =>
      if plan.isEmpty then return
      else
        request (.remember none)
        if plan.destroy.isEmpty then createAll r.tag r.layout.settings.backoff plan.create
        else destroyAll plan.destroy
        converge r cycles

/-- Goes through cycles until there is nothing to do, and leaves the source of snapshots whatever
the outcome. -/
def reconcile (r : Reconciliation) : Program Unit := do
  let outcome ← (r.converge r.layout.settings.maxCycles).attempt
  let finished ← (r.source.finish r.layout.loadBalancer).attempt
  ofExcept outcome
  ofExcept finished

/-- What the latest check saw. If something was changed since then the provider is asked directly,
so that this works after the source of snapshots was left. -/
def latest (r : Reconciliation) : Program Snapshot := do
  match ← request .latest with
  | some snapshot => return snapshot
  | none => return (← fetch r.tag).narrowTo r.layout.loadBalancer

/-- The ports that are bound. -/
def status (r : Reconciliation) : Program BoundPorts := do
  let snapshot ← r.latest
  request (.remember (some snapshot))
  return .ofBinds snapshot.binds

end Reconciliation

end BalancerSync
