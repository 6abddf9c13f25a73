import BalancerSync.Comparison

namespace BalancerSync

structure Snapshot where
  backends : List Backend
  frontends : List Frontend
  binds : List Bind
  servers : List Server
  failed : List Resource
  progressing : List Resource
  deriving DecidableEq

namespace Snapshot

def empty : Snapshot := ⟨[], [], [], [], [], []⟩

instance : Inhabited Snapshot := ⟨empty⟩

def isEmpty (s : Snapshot) : Bool :=
  s.backends.isEmpty && s.frontends.isEmpty && s.binds.isEmpty && s.servers.isEmpty

/-- The resources by kind, without a second look at those that are not ready. -/
def resources (s : Snapshot) : List Resource :=
  s.backends.map .backend ++ s.frontends.map .frontend
    ++ s.binds.map .bind ++ s.servers.map .server

def ofList (resources : List Resource) : Snapshot where
  backends := resources.filterMap fun
    | .backend b => some b
    | _ => none
  frontends := resources.filterMap fun
    | .frontend f => some f
    | _ => none
  binds := resources.filterMap fun
    | .bind b => some b
    | _ => none
  servers := resources.filterMap fun
    | .server s => some s
    | _ => none
  failed := resources.filter fun r => r.readiness = .failed
  progressing := resources.filter fun r => r.readiness = .progressing

def backendIds (s : Snapshot) (lb : Identifier) : List Identifier :=
  (s.backends.filter fun b => b.loadBalancer = lb).filterMap Backend.identifier

def frontendIds (s : Snapshot) (lb : Identifier) : List Identifier :=
  (s.frontends.filter fun f => f.loadBalancer = lb).filterMap Frontend.identifier

/-- Backends and frontends name their load balancer. A bind belongs where its frontend does, and a
server where its backend does. -/
def belongsTo (s : Snapshot) (lb : Identifier) : Resource → Bool
  | .backend b => b.loadBalancer = lb
  | .frontend f => f.loadBalancer = lb
  | .bind b => b.frontend ∈ s.frontendIds lb
  | .server v => v.backend ∈ s.backendIds lb

/-- What belongs to a load balancer. -/
def narrowTo (s : Snapshot) (lb : Identifier) : Snapshot where
  backends := s.backends.filter fun b => s.belongsTo lb (.backend b)
  frontends := s.frontends.filter fun f => s.belongsTo lb (.frontend f)
  binds := s.binds.filter fun b => s.belongsTo lb (.bind b)
  servers := s.servers.filter fun v => s.belongsTo lb (.server v)
  failed := s.failed.filter (s.belongsTo lb)
  progressing := s.progressing.filter (s.belongsTo lb)

def failedIds (s : Snapshot) : List Identifier := identifiers s.failed

def orphanedFrontends (s : Snapshot) : List Frontend :=
  s.frontends.filter fun f => f.defaultBackend ∈ s.failedIds

def doomedFrontendIds (s : Snapshot) : List Identifier :=
  s.orphanedFrontends.filterMap Frontend.identifier
    ++ identifiers (s.failed.filter fun r => r.kind = .frontend)

/-- Resources that refer to a failed one, directly or through a frontend. -/
def dependents (s : Snapshot) : List Resource :=
  s.orphanedFrontends.map .frontend
    ++ (s.binds.filter fun b => b.frontend ∈ s.doomedFrontendIds).map .bind
    ++ (s.servers.filter fun v => v.backend ∈ s.failedIds).map .server

/-- Leaves out resources whose identifier has been seen. -/
def distinct (seen : List Identifier) : List Resource → List Resource
  | [] => []
  | r :: rest =>
    match r.identifier with
    | none => r :: distinct seen rest
    | some id => if id ∈ seen then distinct seen rest else r :: distinct (id :: seen) rest

/-- The failed resources and all that has to go with them, because a provider keeps what is referred
to. -/
def failedWithDependents (s : Snapshot) : List Resource :=
  distinct [] (s.failed ++ s.dependents)

end Snapshot

end BalancerSync
