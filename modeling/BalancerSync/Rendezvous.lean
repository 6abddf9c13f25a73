namespace BalancerSync

namespace Rendezvous

/-- Why an arrival gets no value. -/
inductive Denial
  | unregistered
  | alreadyWaiting
  | canceled
  deriving DecidableEq, Repr

namespace Denial

def message : Denial → String
  | unregistered => "party is not registered"
  | alreadyWaiting => "party is already waiting in this round"
  | canceled => "canceled"

end Denial

abbrev Outcome (β : Type) := Except Denial β

inductive Mailbox (β : Type)
  | open
  | holds (outcome : Outcome β)
  /-- No outcome can come any more. -/
  | closed

inductive Stage (β : Type)
  /-- Waits for an outcome, or to lead. -/
  | waiting (mailbox : Mailbox β) (woken : Bool)
  /-- Does the work for the arrivals of a round. -/
  | leading (round : List Nat)
  | ended (outcome : Outcome β)
  /-- Given up from outside. -/
  | dropped

structure Arrival (κ β : Type) where
  key : κ
  canceled : Bool
  stage : Stage β

end Rendezvous

open Rendezvous

/-- A fixed set of parties meets in rounds. When all have arrived, one of them leads the round: it
does the work, and all of them get the outcome. A party that leaves is no longer waited for. An
operation is what an arrival does from one wait to the next, and arrivals are numbered in the order
in which they come. -/
structure Rendezvous (κ β : Type) where
  /-- The parties, each with the arrival that fills its slot in the next round. -/
  slots : List (κ × Option Nat)
  arrivals : List (Arrival κ β)
  /-- Whether a round is being led. -/
  leading : Bool
  /-- How many rounds have ended. -/
  rounds : Nat
  /-- The arrivals that have started the work of a round, in order. -/
  led : List Nat

namespace Rendezvous

variable {κ β : Type} [DecidableEq κ]

def empty : Rendezvous κ β := ⟨[], [], false, 0, []⟩

def parties (m : Rendezvous κ β) : Nat := m.slots.length

def isRegistered (m : Rendezvous κ β) (key : κ) : Bool := m.slots.any fun s => s.1 = key

def slot? (m : Rendezvous κ β) (key : κ) : Option (Option Nat) :=
  (m.slots.find? fun s => s.1 = key).map (·.2)

def stage? (m : Rendezvous κ β) (a : Nat) : Option (Stage β) := (m.arrivals[a]?).map (·.stage)

def isCanceled (m : Rendezvous κ β) (a : Nat) : Bool :=
  ((m.arrivals[a]?).map (·.canceled)).getD false

def setStage (m : Rendezvous κ β) (a : Nat) (stage : Stage β) : Rendezvous κ β :=
  { m with arrivals := m.arrivals.modify a fun arrival => { arrival with stage } }

/-- Puts mail into the mailbox of an arrival that still waits for it. -/
def post (m : Rendezvous κ β) (mail : Mailbox β) (a : Nat) : Rendezvous κ β :=
  { m with arrivals := m.arrivals.modify a fun arrival =>
    match arrival.stage with
    | .waiting .open woken => { arrival with stage := .waiting mail woken }
    | _ => arrival }

def wakeAll (m : Rendezvous κ β) : Rendezvous κ β :=
  { m with arrivals := m.arrivals.map fun arrival =>
    match arrival.stage with
    | .waiting mailbox _ => { arrival with stage := .waiting mailbox true }
    | _ => arrival }

def setSlot (m : Rendezvous κ β) (key : κ) (filler : Option Nat) : Rendezvous κ β :=
  { m with slots := m.slots.map fun s => if s.1 = key then (s.1, filler) else s }

/-- Nothing will come for the arrival in a slot that is taken away. -/
def closeSlot (m : Rendezvous κ β) (key : κ) : Rendezvous κ β :=
  match m.slot? key with
  | some (some a) => m.post .closed a
  | _ => m

/-- Empties the slot of a party, whoever fills it. -/
def withdraw (m : Rendezvous κ β) (key : κ) : Rendezvous κ β :=
  (m.closeSlot key).setSlot key none

/-- The arrivals of a round that can begin: there are parties, all have arrived, and no round is
being led. -/
def complete? (m : Rendezvous κ β) : Option (List Nat) :=
  if m.leading || m.slots.isEmpty then none else m.slots.mapM (·.2)

/-- Ends a round. Its arrivals get the outcome, and the others may try to lead. -/
def release (m : Rendezvous κ β) (round : List Nat) (outcome : Outcome β) : Rendezvous κ β :=
  let ended := { m with leading := false, rounds := m.rounds + 1 }
  (round.foldl (post · (.holds outcome)) ended).wakeAll

/-- An arrival that waits looks at its mailbox, and then at whether it has been canceled. -/
def look (m : Rendezvous κ β) (a : Nat) : Rendezvous κ β :=
  match m.arrivals[a]? with
  | some ⟨key, canceled, .waiting mailbox _⟩ =>
    match mailbox with
    | .holds outcome => m.setStage a (.ended outcome)
    | .closed => m.setStage a (.ended (.error .canceled))
    | .open =>
      if canceled then (m.setStage a (.ended (.error .canceled))).withdraw key
      else m.setStage a (.waiting .open false)
  | _ => m

/-- Ends the round that an arrival leads. The arrival then finds the outcome as the others do. -/
def settle (m : Rendezvous κ β) (a : Nat) (outcome : Outcome β) : Rendezvous κ β :=
  match m.stage? a with
  | some (.leading round) => ((m.setStage a (.waiting .open true)).release round outcome).look a
  | _ => m

/-- Takes the round that can begin. Without having been canceled the arrival starts the work. -/
def lead (m : Rendezvous κ β) (a : Nat) (round : List Nat) : Rendezvous κ β :=
  let cleared : Rendezvous κ β :=
    { m with slots := m.slots.map fun s => (s.1, none), leading := true }
  let m := cleared.setStage a (.leading round)
  if m.isCanceled a then m.settle a (.error .canceled) else { m with led := m.led ++ [a] }

def tryLead (m : Rendezvous κ β) (a : Nat) : Rendezvous κ β :=
  match m.complete? with
  | some round => m.lead a round
  | none => m.look a

def register (m : Rendezvous κ β) (key : κ) : Bool × Rendezvous κ β :=
  if m.isRegistered key then (false, m)
  else (true, { m with slots := m.slots ++ [(key, none)] })

def leave (m : Rendezvous κ β) (key : κ) : Except Denial Unit × Rendezvous κ β :=
  if m.isRegistered key then
    let closed := m.closeSlot key
    let left : Rendezvous κ β := { closed with slots := closed.slots.filter fun s => s.1 ≠ key }
    (.ok (), left.wakeAll)
  else (.error .unregistered, m)

def next (m : Rendezvous κ β) : Nat := m.arrivals.length

def arrive (m : Rendezvous κ β) (key : κ) (canceled : Bool) : Rendezvous κ β :=
  let add (stage : Stage β) : Rendezvous κ β :=
    { m with arrivals := m.arrivals ++ [⟨key, canceled, stage⟩] }
  match m.slot? key with
  | none => add (.ended (.error .unregistered))
  | some (some _) => add (.ended (.error .alreadyWaiting))
  | some none => ((add (.waiting .open false)).setSlot key (some m.next)).tryLead m.next

/-- Whether an arrival has something to do, the work of a round apart. -/
def isReady (m : Rendezvous κ β) (a : Nat) : Bool :=
  match m.arrivals[a]? with
  | some ⟨_, canceled, .waiting .open woken⟩ => canceled || woken
  | some ⟨_, _, .waiting _ _⟩ => true
  | some ⟨_, canceled, .leading _⟩ => canceled
  | _ => false

/-- An arrival that waits ends, or tries to lead if it has been woken. One that leads gives the work
up if it has been canceled. -/
def step (m : Rendezvous κ β) (a : Nat) : Rendezvous κ β :=
  match m.arrivals[a]? with
  | some ⟨_, false, .waiting .open true⟩ => m.tryLead a
  | some ⟨_, true, .leading _⟩ => m.settle a (.error .canceled)
  | _ => m.look a

/-- The work of a round comes to a value, which is lost if the leader has been canceled. -/
def finish (m : Rendezvous κ β) (a : Nat) (value : β) : Rendezvous κ β :=
  m.settle a (if m.isCanceled a then .error .canceled else .ok value)

/-- Cancels an arrival. It notices when it is stepped. -/
def cancel (m : Rendezvous κ β) (a : Nat) : Rendezvous κ β :=
  { m with arrivals := m.arrivals.modify a fun arrival => { arrival with canceled := true } }

/-- Gives an arrival up from outside. If it leads, the round is canceled. If it waits, it still
fills its slot. -/
def drop (m : Rendezvous κ β) (a : Nat) : Rendezvous κ β :=
  match m.stage? a with
  | some (.leading round) => (m.setStage a .dropped).release round (.error .canceled)
  | some (.waiting _ _) => m.setStage a .dropped
  | _ => m

def firstReady? (m : Rendezvous κ β) : Option Nat :=
  (List.range m.arrivals.length).find? m.isReady

/-- What may happen next. Any list of moves is a history. -/
inductive Move (κ β : Type)
  | register (key : κ)
  | leave (key : κ)
  | arrive (key : κ) (canceled : Bool)
  | step (a : Nat)
  | finish (a : Nat) (value : β)
  | cancel (a : Nat)
  | drop (a : Nat)
  deriving DecidableEq

def move (m : Rendezvous κ β) : Move κ β → Rendezvous κ β
  | .register key => (m.register key).2
  | .leave key => (m.leave key).2
  | .arrive key canceled => m.arrive key canceled
  | .step a => m.step a
  | .finish a value => m.finish a value
  | .cancel a => m.cancel a
  | .drop a => m.drop a

def play (m : Rendezvous κ β) (moves : List (Move κ β)) : Rendezvous κ β := moves.foldl move m

end Rendezvous

end BalancerSync
