import BalancerSync.Engine.Source
import BalancerSync.Provider.Memory
import BalancerSync.Provider.Scripted
import BalancerSync.Run.Together

namespace BalancerSync.Scenario

/-- Tasks with names that ask one shared source for the snapshot of a load balancer. After each step
all tasks go on until they have to wait. -/
structure SharedFetch where
  tag : Tag
  script : Script
  schedule : Schedule Memory Snapshot
  /-- The tasks that have not been seen to end, with their numbers. -/
  members : List (String × Nat)
  /-- The tasks that were given up from outside. -/
  aborted : List Nat

namespace SharedFetch

inductive Step
  | fetch (task : String) (lb : Identifier) (canceled : Bool)
  | leave (lb : Identifier)
  | hold (held : Bool)
  | configure (settings : List Faults.Setting)
  | script (answers : Script)
  | cancel (task : String)
  | abort (task : String)
  | nothing

inductive Ending
  | ended (outcome : Except Failure Snapshot)
  | aborted

inductive Answer
  | ok
  | failed (failure : Failure)
  /-- No task of the name is going on. -/
  | unknownTask

def initial (memory : Memory) (tag : Tag) (registered : List Identifier) : SharedFetch where
  tag
  script := .empty
  schedule := .initial memory (registered.foldl (fun m lb => (m.register lb).2) .empty)
  members := []
  aborted := []

def provider (f : SharedFetch) : Provider Memory :=
  (Memory.provider Identifier.scattered).scripted f.script

/-- A task waits for its round and, as a leader, for the listing. -/
def settle (f : SharedFetch) : SharedFetch :=
  let tasks := f.schedule.tasks.length
  { f with schedule := f.schedule.settle f.provider (4 * (tasks + 2) * (tasks + 2)) }

def ending? (f : SharedFetch) (member : String × Nat) : Option (String × Ending) :=
  if member.2 ∈ f.aborted then some (member.1, .aborted)
  else
    ((f.schedule.tasks[member.2]?).bind Task.result?).map fun outcome => (member.1, .ended outcome)

/-- The tasks that have ended, by their names, and the state without them. -/
def takeEnded (f : SharedFetch) : List (String × Ending) × SharedFetch :=
  ((f.members.filterMap f.ending?).mergeSort fun a b => decide (a.1 ≤ b.1),
    { f with members := f.members.filter fun member => (f.ending? member).isNone })

def find? (f : SharedFetch) (task : String) : Option Nat :=
  (f.members.find? fun member => member.1 = task).map (·.2)

def act (f : SharedFetch) : Step → Answer × SharedFetch
  | .fetch task lb canceled =>
    (.ok,
      { f with
        schedule := f.schedule.spawn ((Engine.Source.shared f.tag).snapshot lb) canceled
        members := f.members ++ [(task, f.schedule.tasks.length)] })
  | .leave lb =>
    match f.schedule.meeting.leave lb with
    | (.error denial, _) => (.failed (Engine.Source.denied lb denial), f)
    | (.ok (), meeting) => (.ok, { f with schedule := { f.schedule with meeting } })
  | .hold held => (.ok, { f with schedule := { f.schedule with held } })
  | .configure settings =>
    (.ok,
      { f with schedule :=
        { f.schedule with provider := f.schedule.provider.configure settings } })
  | .script answers => (.ok, { f with script := answers })
  | .cancel task =>
    match f.find? task with
    | none => (.unknownTask, f)
    | some i => (.ok, { f with schedule := f.schedule.cancel i })
  | .abort task =>
    match f.find? task with
    | none => (.unknownTask, f)
    | some i => (.ok, { f with schedule := f.schedule.drop i, aborted := i :: f.aborted })
  | .nothing => (.ok, f)

def step (f : SharedFetch) (s : Step) : Answer × List (String × Ending) × SharedFetch :=
  let (answer, f) := f.act s
  (answer, f.settle.takeEnded)

def listings (f : SharedFetch) : Nat := f.schedule.provider.journal.listings

end SharedFetch

end BalancerSync.Scenario
