import BalancerSync.Campaign
import BalancerSync.CommandLine.Arguments
import BalancerSync.Inventory.Json
import BalancerSync.Json.Reader
import BalancerSync.Json.Writer
import BalancerSync.Run.Alone
import BalancerSync.Service.Json
import BalancerSync.Settings.Json

namespace BalancerSync.CommandLine

inductive FileContent
  | missing
  | unreadable
  | text (content : String)
  deriving DecidableEq

namespace FileContent

def text? : FileContent → Option String
  | text content => some content
  | _ => none

end FileContent

structure Files where
  service : FileContent
  /-- Only looked at if there is an option for it. -/
  config : FileContent
  state : FileContent

/-- Why a run ends with an error. -/
inductive Mishap
  | unreadableService (path : String)
  | invalidService (path : String)
  | serviceWithoutUid (path : String)
  | unreadableConfig (path : String)
  | invalidConfig (path : String)
  | invalidSettings (failure : Failure)
  | unreadableState (path : String)
  | invalidState (path : String)
  | unwritableState (path : String)
  | checkFailed (lb : Identifier) (failure : Failure)
  | statusFailed (lb : Identifier) (failure : Failure)
  | notAllConverged (failed : Nat)
  deriving DecidableEq

namespace Mishap

def message : Mishap → String
  | unreadableService path => "failed to read service definition " ++ path
  | invalidService path => "invalid service definition " ++ path
  | serviceWithoutUid path => "service definition " ++ path ++ " has no uid"
  | unreadableConfig path => "failed to read config " ++ path
  | invalidConfig path => "invalid config " ++ path
  | invalidSettings _ => "invalid reconciliation settings"
  | unreadableState path => "failed to read provider state " ++ path
  | invalidState path => "invalid provider state " ++ path
  | unwritableState path => "failed to write provider state " ++ path
  | checkFailed lb _ => "check of " ++ lb.text ++ " failed"
  | statusFailed lb _ => "status of " ++ lb.text ++ " failed"
  | notAllConverged failed => failed.repr ++ " load balancer(s) failed to converge"

/-- Why it came to that. Nothing where the system that reads and writes files has to tell. -/
def causes? : Mishap → Option (List Failure)
  | invalidSettings failure | checkFailed _ failure | statusFailed _ failure => some [failure]
  | serviceWithoutUid _ | notAllConverged _ => some []
  | _ => none

end Mishap

def readService (path : String) (content : FileContent) : Except Mishap Service :=
  match content.text? with
  | none => .error (.unreadableService path)
  | some text =>
    match (Json.read? text).bind Service.ofJson? with
    | none => .error (.invalidService path)
    | some service =>
      if service.uid = "" then .error (.serviceWithoutUid path) else .ok service

def readConfig (path : Option String) (content : FileContent) : Except Mishap Settings :=
  match path with
  | none => .ok .standard
  | some path =>
    match content.text? with
    | none => .error (.unreadableConfig path)
    | some text =>
      match (Json.read? text).bind Settings.ofJson? with
      | none => .error (.invalidConfig path)
      | some settings => .ok settings

/-- Options take precedence over the settings of a file. -/
def Options.override (o : Options) (s : Settings) : Settings :=
  { s with
    maxCycles := o.maxCycles.getD s.maxCycles
    backoff :=
      { s.backoff with
        steps := o.backoffSteps.getD s.backoff.steps
        initialMs := o.backoffInitialMs.getD s.backoff.initialMs } }

def readSettings (o : Options) (content : FileContent) : Except Mishap Settings := do
  let settings := o.override (← readConfig o.config content)
  match settings.validate with
  | .error failure => .error (.invalidSettings failure)
  | .ok () => .ok settings

/-- Without a file the inventory is empty. -/
def readState (path : String) (content : FileContent) : Except Mishap Inventory :=
  match content with
  | .missing => .ok .empty
  | .unreadable => .error (.unreadableState path)
  | .text text =>
    match (Json.read? text).bind Inventory.ofJson? with
    | none => .error (.invalidState path)
    | some inventory => .ok inventory

def writeState (inventory : Inventory) : String := inventory.toJson.writePretty

structure Progress where
  memory : Memory
  lines : List String
  mishap : Option Mishap

namespace Progress

def say (p : Progress) (lb : Identifier) (texts : List String) : Progress :=
  { p with lines := p.lines ++ texts.map fun text => lb.text ++ ": " ++ text }

/-- Runs a program alone. All its waiting ends, because nobody shares anything with it. -/
def run {α : Type} (fresh : Nat → Identifier) (p : Progress) (program : Program α) :
    Except Failure α × Progress :=
  let provider := Memory.provider fresh
  let (result, s) :=
    program.run (Surroundings.handler ⟨provider, provider, fun _ => false⟩) (.initial p.memory)
  (result.getD (.error .canceled), { p with memory := s.provider })

def forEach (p : Progress) (step : Identifier → Progress → Progress) : List Identifier → Progress
  | [] => p
  | lb :: rest =>
    let p := step lb p
    if p.mishap.isSome then p else p.forEach step rest

end Progress

def describePlan (plan : Plan) : List String :=
  if plan.isEmpty then ["up to date"]
  else
    plan.destroy.map (fun r => "destroy " ++ r.describe)
      ++ plan.create.map fun r => "create " ++ r.describe

def check (fresh : Nat → Identifier) (service : Service) (settings : Settings) (lb : Identifier)
    (p : Progress) : Progress :=
  match p.run fresh (Reconciliation.direct ⟨service, lb, settings⟩).check with
  | (.ok plan, p) => p.say lb (describePlan plan)
  | (.error (.resourcesProgressing ids), p) =>
    p.say lb [ids.length.repr ++ " resources still progressing"]
  | (.error failure, p) => { p with mishap := some (.checkFailed lb failure) }

def describePorts (bound : BoundPorts) : List String :=
  if bound.isEmpty then ["nothing bound"]
  else
    bound.entries.map fun (address, ports) =>
      address.write ++ " " ++ ",".intercalate (ports.toList.map fun port => port.toNat.repr)

def status (fresh : Nat → Identifier) (service : Service) (settings : Settings) (lb : Identifier)
    (p : Progress) : Progress :=
  match p.run fresh (Reconciliation.direct ⟨service, lb, settings⟩).status with
  | (.ok bound, p) => p.say lb (describePorts bound)
  | (.error failure, p) => { p with mishap := some (.statusFailed lb failure) }

/-- A load balancer whose task has not come to its end counts as canceled. -/
def describeResult : Option (Except Failure Unit) → String
  | some (.ok ()) => "converged"
  | some (.error failure) => failure.message
  | none => Failure.canceled.message

def isConverged : Option (Except Failure Unit) → Bool
  | some (.ok ()) => true
  | _ => false

/-- Each load balancer is registered as often as it is given. -/
def campaign (service : Service) (settings : Settings) (lbs : List Identifier) : Campaign :=
  { loadBalancers := lbs, registered := lbs, service, settings, cancelAfter := none }

/-- All load balancers at once, whatever the order of their tasks. -/
def reconcile (fresh : Nat → Identifier) (order : Campaign.Order Memory) (service : Service)
    (settings : Settings) (lbs : List Identifier) (p : Progress) : Progress :=
  let report := (campaign service settings lbs).run (Memory.provider fresh) p.memory order
  let failed := report.results.countP fun r => !isConverged r.2
  let p := report.results.foldl (fun p r => p.say r.1 [describeResult r.2])
    { p with memory := report.provider }
  { p with mishap := if failed = 0 then none else some (.notAllConverged failed) }

structure Execution where
  lines : List String
  /-- The inventory to save. Nothing if the run did not come that far. -/
  inventory : Option Inventory
  mishap : Option Mishap

def prepare (o : Options) (files : Files) : Except Mishap (Service × Settings × Inventory) := do
  let service ← readService o.service files.service
  let settings ← readSettings o files.config
  let inventory ← readState o.state files.state
  return (service, settings, inventory)

/-- The provider of a run knows the load balancers that are given. -/
def Options.memory (o : Options) (inventory : Inventory) : Memory :=
  (o.loadBalancers.map Identifier.mk).foldl Memory.addLoadBalancer
    ((Memory.ofInventory inventory 0).configure [.readyAfterPolls o.readyAfter])

def obey (fresh : Nat → Identifier) (order : Campaign.Order Memory) (o : Options)
    (service : Service) (settings : Settings) (p : Progress) : Progress :=
  let lbs := o.loadBalancers.map Identifier.mk
  match o.command with
  | .check => p.forEach (check fresh service settings) lbs
  | .status => p.forEach (status fresh service settings) lbs
  | .reconcile delete =>
    reconcile fresh order (if delete then service.emptied else service) settings lbs p

/-- A run that gives out the identifiers `fresh 1`, `fresh 2`, and so on. -/
def execute (fresh : Nat → Identifier) (o : Options) (files : Files)
    (order : Campaign.Order Memory := Campaign.atOnce (Memory.provider fresh)) : Execution :=
  match prepare o files with
  | .error mishap => ⟨[], none, some mishap⟩
  | .ok (service, settings, inventory) =>
    let p := obey fresh order o service settings ⟨o.memory inventory, [], none⟩
    ⟨p.lines, some p.memory.inventory, p.mishap⟩

def versionLine : String := "anxccm-lbaas 0.1.0"

def usage : List String :=
  ["usage: anxccm-lbaas --service FILE --load-balancer LB [OPTION]... COMMAND",
    "",
    "commands: check | reconcile [--delete] | status",
    "",
    "options:",
    "  --state FILE              where the provider state is kept (lbaas-state.json)",
    "  --config FILE             reconciliation settings",
    "  --ready-after N           how often a new object is looked at before it is ready",
    "  --backoff-steps N         how often to wait for readiness",
    "  --backoff-initial-ms N    how long to wait first",
    "  --max-cycles N            how many cycles to go through"]

end BalancerSync.CommandLine
