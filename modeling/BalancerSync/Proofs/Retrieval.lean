import BalancerSync.Proofs.Rendezvous.Attempts
import BalancerSync.Proofs.Replay

namespace BalancerSync

open Program Rendezvous Engine

namespace Schedule

variable {σ α : Type}

def arrives (s : Schedule σ α) (i : Nat) : Bool :=
  match s.tasks[i]? with
  | some ⟨.ask (.arrive _) _, _, _, _, none⟩ => true
  | _ => false

def begins? (s : Schedule σ α) (i : Nat) : Option (Round Identifier Shared) :=
  match s.tasks[i]? with
  | some ⟨.ask (.arrive lb) _, canceled, _, _, none⟩ => s.meeting.begins? (.arrive lb canceled)
  | some ⟨.ask (.arrive _) _, _, _, _, some a⟩ => s.meeting.begins? (.step a)
  | _ => none

def ends? (s : Schedule σ α) (i : Nat) : Option (Outcome Shared) :=
  match s.program? i with
  | some (.ask (.release outcome) _) => some outcome
  | _ => none

end Schedule

/-- Tasks that each ask once for the snapshot of a load balancer, and a record of what they do. -/
structure Retrieval (σ : Type) where
  schedule : Schedule σ Snapshot
  /-- The load balancer that asks in each task. -/
  callers : List Identifier
  /-- The tasks in the order of their arrivals. -/
  comers : List Nat
  /-- The latest round comes first. -/
  rounds : List (Round Identifier Shared)
  /-- The calls of the provider, each with the task that made it. -/
  calls : List (Nat × Exchange)
  /-- The tasks that were canceled before they ended. -/
  hampered : List Nat

namespace Retrieval

variable {σ : Type}

/-- What may happen next. -/
inductive Event (σ : Type)
  | ask (lb : Identifier) (canceled : Bool)
  | leave (lb : Identifier)
  | move (m : Schedule.Move)
  | hold (held : Bool)
  /-- Load balancers create, tag and destroy between their calls, and others do what they like. -/
  | change (provider : σ)

def start (provider : σ) (registered : List Identifier) : Retrieval σ where
  schedule := .initial provider (registered.foldl (fun m lb => (m.register lb).2) .empty)
  callers := []
  comers := []
  rounds := []
  calls := []
  hampered := []

/-- What a task has come to, if it has. -/
def result? (g : Retrieval σ) (i : Nat) : Option (Except Failure Snapshot) :=
  (g.schedule.tasks[i]?).bind Task.result?

def isOutstanding (g : Retrieval σ) (i : Nat) : Bool :=
  (g.schedule.tasks[i]?).any fun t => t.result?.isNone

def callsOf (g : Retrieval σ) (i : Nat) : List Exchange :=
  (g.calls.filter fun x => x.1 = i).map (·.2)

def listings (g : Retrieval σ) (i : Nat) : Nat := (g.callsOf i).countP fun x => x.1.isList

def leader? (g : Retrieval σ) (r : Round Identifier Shared) : Option Nat := g.comers[r.leader]?

/-- The tasks that take part in a round. -/
def parties (g : Retrieval σ) (r : Round Identifier Shared) : List Nat :=
  r.members.filterMap fun a => g.comers[a]?

def step (own : Provider σ) (g : Retrieval σ) (i : Nat) : Retrieval σ where
  schedule := g.schedule.step own i
  callers := g.callers
  comers := if g.schedule.arrives i then g.comers ++ [i] else g.comers
  rounds :=
    match g.schedule.ends? i with
    | some outcome => concludeLatest outcome g.rounds
    | none => (g.schedule.begins? i).toList ++ g.rounds
  calls := g.calls ++ ((g.schedule.exchange? own (.step i)).map (i, ·)).toList
  hampered := g.hampered

def undergo (own : Provider σ) (tag : Tag) (g : Retrieval σ) : Event σ → Retrieval σ
  | .ask lb canceled =>
    { g with
      schedule := g.schedule.spawn ((Source.shared tag).snapshot lb) canceled
      callers := g.callers ++ [lb]
      hampered := if canceled then g.callers.length :: g.hampered else g.hampered }
  | .leave lb =>
    { g with schedule := { g.schedule with meeting := (g.schedule.meeting.leave lb).2 } }
  | .move (.step i) => g.step own i
  | .move (.cancel i) =>
    { g with
      schedule := g.schedule.cancel i
      hampered := if g.isOutstanding i then i :: g.hampered else g.hampered }
  | .move (.elapse milliseconds) => { g with schedule := g.schedule.elapse milliseconds }
  | .hold held => { g with schedule := { g.schedule with held } }
  | .change provider => { g with schedule := { g.schedule with provider } }

def after (own : Provider σ) (tag : Tag) (g : Retrieval σ) (events : List (Event σ)) : Retrieval σ :=
  events.foldl (undergo own tag) g

/-- The states of a history that never ends. -/
def run (own : Provider σ) (tag : Tag) (g : Retrieval σ) (events : Nat → Event σ) : Nat → Retrieval σ
  | 0 => g
  | n + 1 => (run own tag g events n).undergo own tag (events n)

/-- A load balancer that is registered asks when it has got its answer, and leaves then. -/
def Admits (g : Retrieval σ) : Event σ → Prop
  | .ask lb _ => g.schedule.meeting.isRegistered lb = true ∧
      ∀ i, g.callers[i]? = some lb → g.isOutstanding i = false
  | .leave lb => ∀ i, g.callers[i]? = some lb → g.isOutstanding i = false
  | _ => True

/-- No load balancer ever has two calls outstanding. -/
def Regular (own : Provider σ) (tag : Tag) : Retrieval σ → List (Event σ) → Prop
  | _, [] => True
  | g, e :: events => g.Admits e ∧ Regular own tag (g.undergo own tag e) events

/-- No task is passed over for ever, and no listing stays without an answer. -/
structure Fair (own : Provider σ) (tag : Tag) (g : Retrieval σ) (events : Nat → Event σ) : Prop where
  admits : ∀ n, (run own tag g events n).Admits (events n)
  steps : ∀ n i, i < (run own tag g events n).callers.length →
    ∃ m, n ≤ m ∧ events m = .move (.step i) ∧ (run own tag g events m).schedule.held = false

/-- Every round is one fetch for all of its parties. -/
structure Faithful (own : Provider σ) (tag : Tag) (g : Retrieval σ) : Prop where
  /-- A leader lists the tag at most once, and exactly once by the end of its round unless it is
  canceled. -/
  listed : ∀ r ∈ g.rounds, ∃ i, g.leader? r = some i ∧ g.listings i ≤ 1 ∧
    (r.isOver = true → i ∉ g.hampered → g.listings i = 1)
  /-- Nobody else calls the provider. -/
  led : ∀ x ∈ g.calls, (x.2.1.isList = true → x.2.1 = .list tag) ∧
    ∃ r ∈ g.rounds, g.leader? r = some x.1
  /-- A call is made when all parties of the round have asked, and it is answered as the provider is by
  then. -/
  timely : ∀ i x, g.schedule.exchange? own (.step i) = some x →
    x.2 = (own.answer x.1 g.schedule.provider).1 ∧
    ∃ r ∈ g.rounds, r.isOver = false ∧ g.leader? r = some i ∧
      ∀ s ∈ r.slots, ∃ a j, s.2 = some a ∧ g.comers[a]? = some j ∧ g.callers[j]? = some s.1
  /-- Whoever has got something has been in a round. -/
  party : ∀ j out, g.result? j = some out → j ∉ g.hampered →
    ∃ r ∈ g.rounds, r.isOver = true ∧ j ∈ g.parties r
  /-- All parties of a round get what the same fetch would have got for each of them. -/
  refines : ∀ r ∈ g.rounds, ∀ i, g.leader? r = some i → i ∉ g.hampered → r.isOver = true →
    ∃ shared, r.outcome = some (.ok shared) ∧ (fetch tag).replay (g.callsOf i) = some shared ∧
      ∀ j ∈ g.parties r, j ∉ g.hampered → ∀ lb out, g.callers[j]? = some lb → g.result? j = some out →
        out = shared.map (·.narrowTo lb) ∧
        ((Source.direct tag).snapshot lb).replay (g.callsOf i) = some out

end Retrieval

end BalancerSync
