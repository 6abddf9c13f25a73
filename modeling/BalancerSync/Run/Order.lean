import BalancerSync.Run.Together

namespace BalancerSync

/-- How many requests a program makes until it ends, has to wait, or is about to make one of those
that it is not to make. -/
def Program.countRequests {α σ : Type} (h : Program.Handler σ) (stop : Request → Bool) :
    Program α → σ → Nat
  | .ask q next, s =>
    if stop q then 0
    else
      match h q s with
      | (some reply, s) => countRequests h stop (next reply) s + 1
      | (none, _) => 1
  | _, _ => 0

namespace Schedule

variable {σ α : Type}

def spell (p : Provider σ) (stop : Request → Bool) (s : Schedule σ α) (i : Nat) : List Move :=
  match s.tasks[i]? with
  | none => []
  | some t => List.replicate (t.program.countRequests (handler p i) stop s) (.step i)

def firstWake? (s : Schedule σ α) : Option Nat := (s.tasks.filterMap (·.wake)).min?

/-- When all tasks wait, the clock goes on until a sleep is over. If everything is to be canceled
before that, it is. -/
def wait (cancelAt : Option Nat) (s : Schedule σ α) : List Move :=
  let cancel (time : Nat) := .elapse (time - s.clock) :: (List.range s.tasks.length).map .cancel
  match s.firstWake?, cancelAt.filter fun _ => s.tasks.any fun t => !t.canceled with
  | none, none => []
  | none, some time => cancel time
  | some wake, none => [.elapse (wake - s.clock)]
  | some wake, some time => if time < wake then cancel time else [.elapse (wake - s.clock)]

/-- A task goes on until it has to wait, and then the first one does that need not. At most `turns`
turns. -/
def inTurn (p : Provider σ) (cancelAt : Option Nat) : (turns : Nat) → Schedule σ α → List Move
  | 0, _ => []
  | turns + 1, s =>
    let moves :=
      match s.firstReady? with
      | some i => s.spell p (fun _ => false) i
      | none => s.wait cancelAt
    if moves.isEmpty then [] else moves ++ inTurn p cancelAt turns (s.play p moves)

/-- Every task goes on until it has to wait or is about to call the provider. -/
def openings (p : Provider σ) (s : Schedule σ α) : List Move :=
  let calls : Request → Bool
    | .call _ | .watch _ => true
    | _ => false
  (List.range s.tasks.length).foldl (fun moves i => moves ++ (s.play p moves).spell p calls i) []

end Schedule

end BalancerSync
