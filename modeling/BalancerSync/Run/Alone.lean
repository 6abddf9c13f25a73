import BalancerSync.Program

namespace BalancerSync

inductive Event
  | called (c : Call)
  /-- The program begins to sleep. -/
  | slept (milliseconds : Nat)
  deriving DecidableEq

/-- The surroundings of a single program. Calls are answered at once, and the clock goes on only
while the program waits. -/
structure Surroundings (σ : Type) where
  provider : σ
  canceled : Bool
  /-- Milliseconds since the beginning. -/
  clock : Nat
  /-- When the program is canceled. -/
  cancelAt : Option Nat
  /-- What has happened, the latest first. -/
  events : List Event
  /-- Draws that are still to come. -/
  draws : List Binary64
  latest : Option Snapshot
  meeting : Rendezvous Identifier Shared
  /-- The arrival of the program that leads a round. -/
  leads : Option Nat

/-- What stays the same while a program runs alone. -/
structure Conditions (σ : Type) where
  own : Provider σ
  /-- Answers the leader of a round. -/
  shared : Provider σ
  /-- Whether what has happened cancels the program. -/
  cancels : List Event → Bool

namespace Surroundings

variable {σ : Type}

def initial (provider : σ) : Surroundings σ :=
  ⟨provider, false, 0, none, [], [], none, .empty, none⟩

def record (k : Conditions σ) (e : Event) (s : Surroundings σ) : Surroundings σ :=
  { s with events := e :: s.events, canceled := s.canceled || k.cancels (e :: s.events) }

/-- The call is recorded before it is answered. -/
def answer (k : Conditions σ) (c : Call) (s : Surroundings σ) : c.Answer × Surroundings σ :=
  let s := s.record k (.called c)
  let p := if s.leads.isSome then k.shared else k.own
  let (answer, provider) := p.answer c s.provider
  (answer, { s with provider })

/-- The clock goes on until the program is canceled. -/
def cancel (time : Nat) (s : Surroundings σ) : Surroundings σ :=
  { s with canceled := true, clock := max s.clock time, cancelAt := none }

/-- The clock goes on until the sleep is over, or until the program is canceled if that comes
before. Tells whether the program is canceled. -/
def sleep (k : Conditions σ) (d : Duration) (s : Surroundings σ) : Bool × Surroundings σ :=
  let s := s.record k (.slept d.milliseconds)
  let wake := s.clock + d.milliseconds
  if s.canceled then (true, s)
  else
    match s.cancelAt.filter (· < wake) with
    | some time => (true, s.cancel time)
    | none => (false, { s with clock := wake })

def turn? (s : Surroundings σ) (a : Nat) : Option Turn × Surroundings σ :=
  match s.meeting.stage? a with
  | some (.leading _) => (some .lead, { s with leads := some a })
  | some (.ended outcome) => (some (.ended outcome), s)
  | _ => (none, s)

/-- Nobody else arrives, so an arrival that waits goes on only when the program is canceled.
Otherwise it is given up. -/
def arrive (lb : Identifier) (s : Surroundings σ) : Option Turn × Surroundings σ :=
  let a := s.meeting.next
  let s := { s with meeting := s.meeting.arrive lb s.canceled }
  match s.turn? a, s.cancelAt with
  | (some turn, s), _ => (some turn, s)
  | (none, s), none => (none, { s with meeting := s.meeting.drop a })
  | (none, s), some time =>
    turn? { s.cancel time with meeting := (s.meeting.cancel a).step a } a

def release (outcome : Rendezvous.Outcome Shared) (s : Surroundings σ) :
    Option (Rendezvous.Outcome Shared) × Surroundings σ :=
  match s.leads with
  | none => (none, s)
  | some a =>
    let s := { s with meeting := s.meeting.settle a outcome, leads := none }
    match s.meeting.stage? a with
    | some (.ended outcome) => (some outcome, s)
    | _ => (none, s)

def handler (k : Conditions σ) : Program.Handler (Surroundings σ)
  | .call c, s =>
    let (answer, s) := s.answer k c
    (some answer, s)
  | .watch c, s =>
    let (answer, s) := s.answer k c
    (some (some answer), s)
  | .isCanceled, s => (some s.canceled, s)
  | .sleep d, s =>
    let (canceled, s) := s.sleep k d
    (some canceled, s)
  | .draw, s => (some (s.draws.headD (1 / 2)), { s with draws := s.draws.tail })
  | .latest, s => (some s.latest, s)
  | .remember latest, s => (some (), { s with latest })
  | .enter, s => (some (), s)
  | .exit, s => (some (), s)
  | .arrive lb, s => s.arrive lb
  | .release outcome, s => s.release outcome
  | .leave lb, s =>
    let (result, meeting) := s.meeting.leave lb
    (some result, { s with meeting })

end Surroundings

end BalancerSync
