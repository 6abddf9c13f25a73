import BalancerSync.Binary64.Shortest
import BalancerSync.Duration
import BalancerSync.Failure

namespace BalancerSync

/-- Waiting times that grow by a factor up to a cap. -/
structure Backoff where
  initialMs : Nat
  factor : Binary64
  /-- Up to this fraction of a waiting time is added by chance. -/
  jitter : Binary64
  /-- How often to wait before giving up. -/
  steps : Nat
  capMs : Nat
  deriving DecidableEq

namespace Backoff

def standard : Backoff :=
  { initialMs := 1000, factor := 3 / 2, jitter := 1 / 10, steps := 12, capMs := 30000 }

/-- Whether the waiting times stay within bounds. -/
def validate (b : Backoff) : Except Failure Unit :=
  if !b.factor.isFinite || b.factor.less 1 then
    .error (.invalidSettings
      ("backoff factor " ++ b.factor.write ++ " must be a finite number >= 1"))
  else if !((0 : Binary64).atMost b.jitter && b.jitter.atMost 1) then
    .error (.invalidSettings ("backoff jitter " ++ b.jitter.write ++ " must be between 0 and 1"))
  else if b.capMs < b.initialMs then
    .error (.invalidSettings ("backoff cap " ++ b.capMs.repr ++ "ms is below the initial interval "
      ++ b.initialMs.repr ++ "ms"))
  else .ok ()

def initial (b : Backoff) : Duration := .ofMilliseconds b.initialMs

def cap (b : Backoff) : Duration := .ofMilliseconds b.capMs

def isJittered (b : Backoff) : Bool := (0 : Binary64).less b.jitter

/-- The waiting time from the current one and a draw between zero and one, and the next current one.
Fails on times that no duration stands for, which valid settings do not lead to. -/
def interval? (b : Backoff) (current : Duration) (draw : Binary64) :
    Option (Duration × Duration) := do
  let waiting ←
    if b.isJittered then Duration.ofSeconds? (current.seconds * (1 + draw * b.jitter))
    else some current
  let next ← Duration.ofSeconds? (min (current.seconds * b.factor) b.cap.seconds)
  return (waiting.min b.cap, next)

/-- The draw for a waiting time, and the draws that are left. One half when there are none. -/
def nextDraw (b : Backoff) (draws : List Binary64) : Binary64 × List Binary64 :=
  match b.isJittered, draws with
  | true, draw :: rest => (draw, rest)
  | _, _ => (1 / 2, draws)

def intervalsFrom? (b : Backoff) : Nat → Duration → List Binary64 → Option (List Duration)
  | 0, _, _ => some []
  | steps + 1, current, draws => do
    let (draw, draws) := b.nextDraw draws
    let (waiting, next) ← b.interval? current draw
    return waiting :: (← intervalsFrom? b steps next draws)

def intervals? (b : Backoff) (draws : List Binary64) : Option (List Duration) :=
  b.intervalsFrom? b.steps b.initial draws

end Backoff

structure Settings where
  backoff : Backoff
  healthCheck : HealthCheck
  mode : Mode
  /-- How many cycles to go through before giving up. -/
  maxCycles : Nat
  deriving DecidableEq

namespace Settings

def standard : Settings :=
  { backoff := .standard, healthCheck := .tcp, mode := .tcp, maxCycles := 32 }

def validate (s : Settings) : Except Failure Unit :=
  if s.maxCycles = 0 then .error (.invalidSettings "max_cycles must be at least 1")
  else s.backoff.validate

end Settings

end BalancerSync
