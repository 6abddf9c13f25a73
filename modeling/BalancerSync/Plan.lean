import BalancerSync.Comparison
import BalancerSync.Service
import BalancerSync.Settings
import BalancerSync.Snapshot

namespace BalancerSync

structure Plan where
  create : List Resource
  destroy : List Resource
  deriving DecidableEq

namespace Plan

def isEmpty (p : Plan) : Bool := p.create.isEmpty && p.destroy.isEmpty

def empty : Plan := ⟨[], []⟩

def append {α : Type} [Comparable α] (p : Plan) (d : Difference α) : Plan :=
  ⟨p.create ++ d.create.map Comparable.toResource, p.destroy ++ d.destroy.map Comparable.toResource⟩

end Plan

/-- A service that is to be served by a load balancer. -/
structure Layout where
  service : Service
  loadBalancer : Identifier
  settings : Settings
  deriving DecidableEq

/-- The objects that serve the ports, by the names of the ports. -/
abbrev Resolved := OrderedMap String Identifier

namespace Layout

def backend (l : Layout) (port : String) : Backend where
  identifier := none
  name := Service.resourceName [port] l.service.name
  loadBalancer := l.loadBalancer
  mode := l.settings.mode
  healthCheck := l.settings.healthCheck
  status := .progressing

def frontend (l : Layout) (port : String) (backend : Identifier) : Frontend where
  identifier := none
  name := Service.resourceName [port] l.service.name
  loadBalancer := l.loadBalancer
  defaultBackend := backend
  mode := l.settings.mode
  status := .progressing

def bind (l : Layout) (port : String) (external : UInt16) (frontend : Identifier)
    (address : Address) : Bind where
  identifier := none
  name := Service.resourceName [port, address.family.name] l.service.name
  frontend
  address
  port := external
  status := .progressing

def server (l : Layout) (port : String) (internal : UInt16) (backend : Identifier)
    (endpoint : Endpoint) : Server where
  identifier := none
  name := Service.resourceName [endpoint.name, port] l.service.name
  backend
  ip := endpoint.address
  port := internal
  check := l.settings.healthCheck.isEnabled
  status := .progressing

/-- A backend for every port. -/
def backends (l : Layout) : List (String × Backend) :=
  l.service.ports.keys.map fun port => (port, l.backend port)

def frontends (l : Layout) (resolved : Resolved) : List (String × Frontend) :=
  l.service.ports.keys.filterMap fun port =>
    (resolved.get? port).map fun backend => (port, l.frontend port backend)

def binds (l : Layout) (resolved : Resolved) : List Bind :=
  l.service.ports.entries.flatMap fun (name, port) =>
    match resolved.get? name with
    | none => []
    | some frontend => l.service.externalAddresses.map (l.bind name port.external frontend)

def servers (l : Layout) (resolved : Resolved) : List Server :=
  l.service.ports.entries.flatMap fun (name, port) =>
    match resolved.get? name with
    | none => []
    | some backend => l.service.endpoints.map (l.server name port.internal backend)

def resolve {α : Type} [Comparable α] (present : List α) :
    List (String × α) → Except Failure Resolved
  | [] => .ok ∅
  | (port, target) :: rest =>
    match Difference.findMatch? target present with
    | none => resolve present rest
    | some found =>
      match Comparable.identifier found with
      | none => .error (.missingIdentifier (Comparable.kind α) (Comparable.name found))
      | some id => do return (← resolve present rest).insert port id

def stage {α : Type} [Comparable α] (wanted : List (String × α)) (present : List α) :
    Except Failure (Difference α × Resolved) := do
  let difference ← Difference.between (wanted.map (·.2)) present
  return (difference, ← resolve present wanted)

/-- The plan for a snapshot in which everything is ready. -/
def planReady (l : Layout) (s : Snapshot) : Except Failure Plan := do
  let (backends, resolvedBackends) ← stage l.backends s.backends
  let (frontends, resolvedFrontends) ← stage (l.frontends resolvedBackends) s.frontends
  let binds ← Difference.between (l.binds resolvedFrontends) s.binds
  let servers ← Difference.between (l.servers resolvedBackends) s.servers
  return (((Plan.empty.append backends).append frontends).append binds).append servers

/-- What has failed is destroyed first. What is progressing has to be waited for. -/
def plan (l : Layout) (s : Snapshot) : Except Failure Plan :=
  if !s.failed.isEmpty then .ok ⟨[], s.failedWithDependents⟩
  else if !s.progressing.isEmpty then .error (.resourcesProgressing (identifiers s.progressing))
  else l.planReady s

end Layout

end BalancerSync
