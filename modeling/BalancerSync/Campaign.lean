import BalancerSync.Engine.Reconciliation
import BalancerSync.Provider.Memory
import BalancerSync.Run.Order

namespace BalancerSync

/-- A service is brought onto several load balancers at once. If there is more than one of them they
share their snapshots. -/
structure Campaign where
  loadBalancers : List Identifier
  /-- The parties of the shared source. -/
  registered : List Identifier
  service : Service
  settings : Settings
  /-- Milliseconds until everything is canceled. -/
  cancelAfter : Option Nat

namespace Campaign

def isShared (c : Campaign) : Bool := 1 < c.registered.length

def source (c : Campaign) : Engine.Source :=
  if c.isShared then .shared c.service.tag else .direct c.service.tag

def meeting (c : Campaign) : Rendezvous Identifier Shared :=
  if c.isShared then c.registered.foldl (fun m lb => (m.register lb).2) .empty else .empty

def reconciliation (c : Campaign) (lb : Identifier) : Reconciliation :=
  ⟨c.source, ⟨c.service, lb, c.settings⟩⟩

def schedule {σ : Type} (c : Campaign) (provider : σ) : Schedule σ Unit :=
  c.loadBalancers.foldl (fun s lb => s.spawn (c.reconciliation lb).reconcile false)
    (.initial provider c.meeting)

/-- An order in which the tasks of a campaign go on. Any list of moves may come about. -/
abbrev Order (σ : Type) := Campaign → σ → List Schedule.Move

/-- In each of its cycles a task waits for its round, and for a sleep after each poll. Other tasks
wake it when they leave, and when a round ends. -/
def turns (c : Campaign) : Nat :=
  let tasks := c.loadBalancers.length + 1
  tasks * (c.settings.maxCycles + 2) * (c.settings.backoff.steps + 4 + 2 * tasks) * 2

/-- As on a single thread: a task goes on until it has to wait. -/
def inTurn {σ : Type} (p : Provider σ) : Order σ := fun c provider =>
  (c.schedule provider).inTurn p c.cancelAfter c.turns

/-- As on several threads: all tasks have begun before any of them is answered. -/
def atOnce {σ : Type} (p : Provider σ) : Order σ := fun c provider =>
  let s := c.schedule provider
  let begun := s.openings p
  begun ++ (s.play p begun).inTurn p c.cancelAfter c.turns

structure Report (σ : Type) where
  provider : σ
  /-- What became of each load balancer. Nothing if it waits for ever. -/
  results : List (Identifier × Option (Except Failure Unit))
  meeting : Rendezvous Identifier Shared

/-- What a campaign has come to, if its tasks go on in the given order. -/
def run {σ : Type} (c : Campaign) (p : Provider σ) (provider : σ)
    (order : Order σ := inTurn p) : Report σ :=
  let s := (c.schedule provider).play p (order c provider)
  ⟨s.provider, c.loadBalancers.zip (s.tasks.map Task.result?), s.meeting⟩

end Campaign

end BalancerSync
