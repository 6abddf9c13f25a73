import BalancerSync.Provider
import BalancerSync.Rendezvous
import BalancerSync.Settings
import BalancerSync.Snapshot

namespace BalancerSync

/-- What the leader of a round fetches for all of its parties. -/
abbrev Shared := Except Failure Snapshot

inductive Turn
  /-- The arrival leads and has to release the round. -/
  | lead
  | ended (outcome : Rendezvous.Outcome Shared)

inductive Request
  /-- Calls the provider. -/
  | call (c : Call)
  /-- Calls the provider, and gives up if the program is canceled while the answer is pending. -/
  | watch (c : Call)
  /-- Whether the program is canceled. -/
  | isCanceled
  /-- Waits, and tells whether the program was canceled meanwhile. -/
  | sleep (d : Duration)
  /-- A number between zero and one by chance. -/
  | draw
  /-- The snapshot of the latest check, as long as nothing was changed since. -/
  | latest
  | remember (latest : Option Snapshot)
  /-- Enters the section in which only one program at a time creates and tags. -/
  | enter
  | exit
  /-- Waits for all other load balancers to ask for the next shared snapshot. -/
  | arrive (lb : Identifier)
  /-- Hands the outcome of a round to its parties. -/
  | release (outcome : Rendezvous.Outcome Shared)
  /-- Takes no part in shared snapshots any more. -/
  | leave (lb : Identifier)

namespace Request

abbrev Reply : Request → Type
  | call c => c.Answer
  | watch c => Option c.Answer
  | isCanceled => Bool
  | sleep _ => Bool
  | draw => Binary64
  | latest => Option Snapshot
  | remember _ => Unit
  | enter => Unit
  | exit => Unit
  | arrive _ => Turn
  | release _ => Rendezvous.Outcome Shared
  | leave _ => Except Rendezvous.Denial Unit

end Request

/-- What a reconciliation does, as a tree of the requests that it makes to its surroundings and of
what it does with each reply. The same tree is run alone, among others, and against any provider. -/
inductive Program (α : Type)
  | done (a : α)
  | fail (failure : Failure)
  | ask (q : Request) (next : q.Reply → Program α)

namespace Program

variable {α β : Type}

def bind (p : Program α) (f : α → Program β) : Program β :=
  match p with
  | done a => f a
  | fail failure => fail failure
  | ask q next => ask q fun reply => (next reply).bind f

instance : Monad Program where
  pure := done
  bind := bind

def request (q : Request) : Program q.Reply := ask q done

/-- The failure of a program as a value. -/
def attempt : Program α → Program (Except Failure α)
  | done a => done (.ok a)
  | fail failure => done (.error failure)
  | ask q next => ask q fun reply => (next reply).attempt

def ofExcept : Except Failure α → Program α
  | .ok a => done a
  | .error failure => fail failure

def checkpoint : Program Unit := do
  if ← request .isCanceled then fail .canceled

/-- What a program has come to, if it has. -/
def result? : Program α → Option (Except Failure α)
  | done a => some (.ok a)
  | fail failure => some (.error failure)
  | ask _ _ => none

/-- Surroundings give a reply, or none as long as the program has to wait. -/
abbrev Handler (σ : Type) := (q : Request) → σ → Option q.Reply × σ

variable {σ : Type}

def step (h : Handler σ) : Program α → σ → Program α × σ
  | ask q next, s =>
    match h q s with
    | (some reply, s) => (next reply, s)
    | (none, s) => (ask q next, s)
  | p, s => (p, s)

/-- Goes on until the program ends or has to wait. -/
def advance (h : Handler σ) : Program α → σ → Program α × σ
  | ask q next, s =>
    match h q s with
    | (some reply, s) => advance h (next reply) s
    | (none, s) => (ask q next, s)
  | p, s => (p, s)

/-- What the program comes to. Nothing if it has to wait for ever. -/
def run (h : Handler σ) (p : Program α) (s : σ) : Option (Except Failure α) × σ :=
  let (p, s) := p.advance h s
  (p.result?, s)

end Program

end BalancerSync
