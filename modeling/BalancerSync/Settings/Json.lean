import BalancerSync.Resource.Json
import BalancerSync.Settings

namespace BalancerSync

open Json

namespace Backoff

def ofJson? (v : Json) : Option Backoff := do
  match ← v.toFields? ["initial_ms", "factor", "jitter", "steps", "cap_ms"] with
  | [initialMs, factor, jitter, steps, capMs] =>
    return {
      initialMs := ← defaulted standard.initialMs toWord64? initialMs
      factor := ← defaulted standard.factor toBinary64? factor
      jitter := ← defaulted standard.jitter toBinary64? jitter
      steps := ← defaulted standard.steps toWord32? steps
      capMs := ← defaulted standard.capMs toWord64? capMs }
  | _ => none

end Backoff

namespace Settings

def ofJson? (v : Json) : Option Settings := do
  match ← v.toFields? ["backoff", "health_check", "mode", "max_cycles"] with
  | [backoff, healthCheck, mode, maxCycles] =>
    return {
      backoff := ← defaulted standard.backoff Backoff.ofJson? backoff
      healthCheck := ← defaulted standard.healthCheck (HealthCheck.ofJson? false) healthCheck
      mode := ← defaulted standard.mode (Mode.ofJson? false) mode
      maxCycles := ← defaulted standard.maxCycles toWord32? maxCycles }
  | _ => none

end Settings

end BalancerSync
