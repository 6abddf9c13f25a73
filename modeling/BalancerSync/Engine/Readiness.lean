import BalancerSync.Program

namespace BalancerSync.Engine

open Program

structure Tracked where
  kind : Kind
  identifier : Identifier
  readiness : Readiness
  deriving DecidableEq

namespace Tracked

/-- A resource without an identifier cannot be waited for. -/
def ofResource? (r : Resource) : Option Tracked :=
  r.identifier.map fun id => ⟨r.kind, id, r.readiness⟩

def idsWith (readiness : Readiness) (tracked : List Tracked) : List Identifier :=
  (tracked.filter fun t => t.readiness = readiness).map (·.identifier)

/-- What is progressing still, unless something has failed. -/
def progressing (tracked : List Tracked) : Except Failure (List Identifier) :=
  match idsWith .failed tracked with
  | [] => .ok (idsWith .progressing tracked)
  | failed => .error (.resourcesFailed failed)

end Tracked

def pollOne (t : Tracked) : Program Tracked := do
  checkpoint
  match ← request (.call (.get t.kind t.identifier)) with
  | .ok r => return { t with readiness := r.readiness }
  | .error .notFound => return { t with readiness := .failed }
  | .error refusal => fail (.provider refusal)

def pollAll (first : Bool) : List Tracked → Program (List Tracked)
  | [] => done []
  | t :: rest =>
    if !first && t.readiness = .ready then do return t :: (← pollAll first rest)
    else do
      let t ← pollOne t
      return t :: (← pollAll first rest)

def pause (b : Backoff) (current : Duration) : Program Duration := do
  let draw ← if b.isJittered then request .draw else done (1 / 2)
  let (waiting, next) := (b.interval? current draw).getD (b.cap, b.cap)
  if ← request (.sleep waiting) then fail .canceled
  return next

/-- Passes with a pause after each of the first `pauses`. -/
def pollUntilReady (b : Backoff) :
    (pauses : Nat) → Duration → (first : Bool) → List Tracked → Program Unit
  | 0, _, first, tracked => do
    match ← ofExcept (Tracked.progressing (← pollAll first tracked)) with
    | [] => return
    | ids => fail (.waitTimeout ids)
  | pauses + 1, current, first, tracked => do
    let tracked ← pollAll first tracked
    match ← ofExcept (Tracked.progressing tracked) with
    | [] => return
    | _ => pollUntilReady b pauses (← pause b current) false tracked

/-- Polls objects until none of them is progressing. The first pass looks at all of them, later ones
at those that have not been ready yet. One that has failed, or is gone, ends the wait at the end of
its pass. -/
def waitReady (b : Backoff) (resources : List Resource) : Program Unit := do
  ofExcept b.validate
  pollUntilReady b b.steps b.initial true (resources.filterMap Tracked.ofResource?)

end BalancerSync.Engine
