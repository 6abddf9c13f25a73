import BalancerSync.Program

namespace BalancerSync

structure Task (α : Type) where
  program : Program α
  canceled : Bool
  latest : Option Snapshot
  /-- When the sleep of the task is over. -/
  wake : Option Nat
  /-- The arrival of the task that is not over. -/
  arrival : Option Nat

namespace Task

variable {α : Type}

def start (program : Program α) (canceled : Bool) : Task α := ⟨program, canceled, none, none, none⟩

/-- What the task has come to, if it has. -/
def result? (t : Task α) : Option (Except Failure α) := t.program.result?

end Task

/-- Tasks that share a provider, a meeting and a clock. -/
structure Schedule (σ α : Type) where
  provider : σ
  /-- Whether listings stay without an answer for now. -/
  held : Bool
  meeting : Rendezvous Identifier Shared
  /-- The task in the section that is for one task at a time. -/
  inside : Option Nat
  /-- Milliseconds since the beginning. -/
  clock : Nat
  draws : List Binary64
  tasks : List (Task α)

namespace Schedule

variable {σ α : Type}

def initial (provider : σ) (meeting : Rendezvous Identifier Shared) : Schedule σ α :=
  ⟨provider, false, meeting, none, 0, [], []⟩

def modifyTask (s : Schedule σ α) (i : Nat) (f : Task α → Task α) : Schedule σ α :=
  { s with tasks := s.tasks.modify i f }

def isCanceled (s : Schedule σ α) (i : Nat) : Bool :=
  ((s.tasks[i]?).map (·.canceled)).getD false

def answer (p : Provider σ) (c : Call) (s : Schedule σ α) : c.Answer × Schedule σ α :=
  let (answer, provider) := p.answer c s.provider
  (answer, { s with provider })

/-- Whether a call stays without an answer for now. -/
def holds (s : Schedule σ α) : Call → Bool
  | .list _ => s.held
  | _ => false

def sleep (i : Nat) (d : Duration) (s : Schedule σ α) : Option Bool × Schedule σ α :=
  match (s.tasks[i]?).bind (·.wake) with
  | none => (none, s.modifyTask i fun t => { t with wake := some (s.clock + d.milliseconds) })
  | some wake =>
    let awake := s.modifyTask i fun t => { t with wake := none }
    if s.isCanceled i then (some true, awake)
    else if wake ≤ s.clock then (some false, awake)
    else (none, s)

def turn? (i a : Nat) (s : Schedule σ α) : Option Turn × Schedule σ α :=
  let keep (arrival : Option Nat) := s.modifyTask i fun t => { t with arrival }
  match s.meeting.stage? a with
  | some (.leading _) => (some .lead, keep (some a))
  | some (.ended outcome) => (some (.ended outcome), keep none)
  | _ => (none, keep (some a))

def arrive (i : Nat) (lb : Identifier) (s : Schedule σ α) : Option Turn × Schedule σ α :=
  match (s.tasks[i]?).bind (·.arrival) with
  | none => turn? i s.meeting.next { s with meeting := s.meeting.arrive lb (s.isCanceled i) }
  | some a => turn? i a { s with meeting := s.meeting.step a }

def release (i : Nat) (outcome : Rendezvous.Outcome Shared) (s : Schedule σ α) :
    Option (Rendezvous.Outcome Shared) × Schedule σ α :=
  match (s.tasks[i]?).bind (·.arrival) with
  | none => (none, s)
  | some a =>
    let s := { s.modifyTask i fun t => { t with arrival := none } with
      meeting := s.meeting.settle a outcome }
    match s.meeting.stage? a with
    | some (.ended outcome) => (some outcome, s)
    | _ => (none, s)

/-- The replies to task `i`. -/
def handler (p : Provider σ) (i : Nat) : Program.Handler (Schedule σ α)
  | .call c, s =>
    let (answer, s) := s.answer p c
    (some answer, s)
  | .watch c, s =>
    if s.isCanceled i then (some none, s)
    else if s.holds c then (none, s)
    else
      let (answer, s) := s.answer p c
      (some (some answer), s)
  | .isCanceled, s => (some (s.isCanceled i), s)
  | .sleep d, s => s.sleep i d
  | .draw, s => (some (s.draws.headD (1 / 2)), { s with draws := s.draws.tail })
  | .latest, s => (some ((s.tasks[i]?).bind (·.latest)), s)
  | .remember latest, s => (some (), s.modifyTask i fun t => { t with latest })
  | .enter, s =>
    match s.inside with
    | none => (some (), { s with inside := some i })
    | some _ => (none, s)
  | .exit, s => (some (), { s with inside := none })
  | .arrive lb, s => s.arrive i lb
  | .release outcome, s => s.release i outcome
  | .leave lb, s =>
    let (result, meeting) := s.meeting.leave lb
    (some result, { s with meeting })

def isReady (s : Schedule σ α) (i : Nat) : Bool :=
  match s.tasks[i]? with
  | some ⟨.ask q _, canceled, _, wake, arrival⟩ =>
    match q with
    | .watch c => canceled || !s.holds c
    | .sleep _ => canceled || wake.all (· ≤ s.clock)
    | .enter => s.inside.isNone
    | .arrive _ => arrival.all s.meeting.isReady
    | _ => true
  | _ => false

def step (s : Schedule σ α) (p : Provider σ) (i : Nat) : Schedule σ α :=
  match s.tasks[i]? with
  | none => s
  | some t =>
    let (program, s) := t.program.step (handler p i) s
    s.modifyTask i fun t => { t with program }

/-- A task goes on until it ends or has to wait. -/
def advance (s : Schedule σ α) (p : Provider σ) (i : Nat) : Schedule σ α :=
  match s.tasks[i]? with
  | none => s
  | some t =>
    let (program, s) := t.program.advance (handler p i) s
    s.modifyTask i fun t => { t with program }

/-- Cancels a task. -/
def cancel (s : Schedule σ α) (i : Nat) : Schedule σ α :=
  let canceled := s.modifyTask i fun t => { t with canceled := true }
  match (s.tasks[i]?).bind (·.arrival) with
  | none => canceled
  | some a => { canceled with meeting := s.meeting.cancel a }

def elapse (s : Schedule σ α) (milliseconds : Nat) : Schedule σ α :=
  { s with clock := s.clock + milliseconds }

def spawn (s : Schedule σ α) (program : Program α) (canceled : Bool) : Schedule σ α :=
  { s with tasks := s.tasks ++ [.start program canceled] }

/-- Gives a task up from outside. Nothing of it goes on. -/
def drop (s : Schedule σ α) (i : Nat) : Schedule σ α :=
  let dropped :=
    { s.modifyTask i fun t =>
        { t with program := .fail .canceled, wake := none, arrival := none } with
      inside := s.inside.filter fun j => j ≠ i }
  match (s.tasks[i]?).bind (·.arrival) with
  | none => dropped
  | some a => { dropped with meeting := s.meeting.drop a }

/-- What may happen next. Any list of moves is a history. -/
inductive Move
  | step (i : Nat)
  | cancel (i : Nat)
  | elapse (milliseconds : Nat)
  deriving DecidableEq

def move (p : Provider σ) (s : Schedule σ α) : Move → Schedule σ α
  | .step i => s.step p i
  | .cancel i => s.cancel i
  | .elapse milliseconds => s.elapse milliseconds

def play (p : Provider σ) (s : Schedule σ α) (moves : List Move) : Schedule σ α :=
  moves.foldl (move p) s

def firstReady? (s : Schedule σ α) : Option Nat :=
  (List.range s.tasks.length).find? s.isReady

/-- Goes on, without the clock, until every task has ended or has to wait. At most `moves` moves. -/
def settle (p : Provider σ) : (moves : Nat) → Schedule σ α → Schedule σ α
  | 0, s => s
  | moves + 1, s =>
    match s.firstReady? with
    | none => s
    | some i => settle p moves (s.advance p i)

end Schedule

end BalancerSync
