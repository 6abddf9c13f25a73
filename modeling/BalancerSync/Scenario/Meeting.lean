import BalancerSync.OrderedMap
import BalancerSync.Rendezvous

namespace BalancerSync.Scenario

structure Meeting.Member where
  name : String
  /-- The number of its arrival. -/
  arrival : Nat
  /-- Whether its work is not done before it is let go on. -/
  held : Bool
  /-- Whether it was given up from outside. -/
  aborted : Bool

/-- Tasks with names that arrive at one rendezvous. The work of a round is to say whose work it is.
After each step all tasks go on until they have to wait. -/
structure Meeting where
  rendezvous : Rendezvous String String
  /-- The tasks that have not been seen to end, in the order of their arrivals. -/
  members : List Meeting.Member
  /-- The names of all arrivals. -/
  names : List String

namespace Meeting

inductive Step
  | register (key : String)
  | leave (key : String)
  | arrive (task key : String) (held canceled : Bool)
  | cancel (task : String)
  | abort (task : String)
  | release (task : String)
  | nothing

inductive Ending
  | ended (outcome : Rendezvous.Outcome String)
  | aborted

inductive Answer
  | ok
  | registered (added : Bool)
  | denied (denial : Rendezvous.Denial)
  /-- No task of the name is going on. -/
  | unknownTask

def initial : Meeting := ⟨.empty, [], []⟩

def work (m : Meeting) (a : Nat) : String := "work of " ++ m.names.getD a ""

def isHeld (m : Meeting) (a : Nat) : Bool := m.members.any fun t => t.arrival = a && t.held

def finishWork? (m : Meeting) (a : Nat) : Option (Rendezvous String String) :=
  match m.rendezvous.stage? a with
  | some (.leading _) => if m.isHeld a then none else some (m.rendezvous.finish a (m.work a))
  | _ => none

/-- The end of the work of a round, or one step of the first arrival that has something to do. -/
def next? (m : Meeting) : Option Meeting :=
  let finished := (List.range m.rendezvous.next).findSome? m.finishWork?
  (finished <|> m.rendezvous.firstReady?.map m.rendezvous.step).map fun rendezvous =>
    { m with rendezvous }

def settleFor : (moves : Nat) → Meeting → Meeting
  | 0, m => m
  | moves + 1, m =>
    match m.next? with
    | none => m
    | some m => settleFor moves m

/-- Every arrival leads at most once, and is woken only when a round ends or a party leaves. -/
def settle (m : Meeting) : Meeting :=
  settleFor ((m.rendezvous.next + 2) * (m.rendezvous.next + 2)) m

def ending? (m : Meeting) (t : Member) : Option (String × Ending) :=
  if t.aborted then some (t.name, .aborted)
  else
    match m.rendezvous.stage? t.arrival with
    | some (.ended outcome) => some (t.name, .ended outcome)
    | _ => none

/-- The tasks that have ended, by their names, and the meeting without them. -/
def takeEnded (m : Meeting) : List (String × Ending) × Meeting :=
  ((m.members.filterMap m.ending?).mergeSort fun a b => decide (a.1 ≤ b.1),
    { m with members := m.members.filter fun t => (m.ending? t).isNone })

def find? (m : Meeting) (task : String) : Option Member :=
  m.members.find? fun t => t.name = task

def modifyMember (m : Meeting) (arrival : Nat) (f : Member → Member) : Meeting :=
  { m with members := m.members.map fun t => if t.arrival = arrival then f t else t }

def act (m : Meeting) : Step → Answer × Meeting
  | .register key =>
    let (added, rendezvous) := m.rendezvous.register key
    (.registered added, { m with rendezvous })
  | .leave key =>
    match m.rendezvous.leave key with
    | (.ok (), rendezvous) => (.ok, { m with rendezvous })
    | (.error denial, _) => (.denied denial, m)
  | .arrive task key held canceled =>
    (.ok,
      { rendezvous := m.rendezvous.arrive key canceled
        members := m.members ++ [⟨task, m.rendezvous.next, held, false⟩]
        names := m.names ++ [task] })
  | .cancel task =>
    match m.find? task with
    | none => (.unknownTask, m)
    | some t => (.ok, { m with rendezvous := m.rendezvous.cancel t.arrival })
  | .abort task =>
    match m.find? task with
    | none => (.unknownTask, m)
    | some t =>
      (.ok,
        { m with rendezvous := m.rendezvous.drop t.arrival }.modifyMember t.arrival fun t =>
          { t with aborted := true })
  | .release task =>
    match m.find? task with
    | none => (.unknownTask, m)
    | some t => (.ok, m.modifyMember t.arrival fun t => { t with held := false })
  | .nothing => (.ok, m)

def step (m : Meeting) (s : Step) : Answer × List (String × Ending) × Meeting :=
  let (answer, m) := m.act s
  (answer, m.settle.takeEnded)

def led (m : Meeting) : List String := m.rendezvous.led.map fun a => m.names.getD a ""

end Meeting

end BalancerSync.Scenario
