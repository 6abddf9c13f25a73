import BalancerSync.Address
import BalancerSync.Identifier

namespace BalancerSync

inductive Kind
  | backend
  | frontend
  | bind
  | server
  deriving DecidableEq, Repr

namespace Kind

def all : List Kind := [backend, frontend, bind, server]

def name : Kind → String
  | backend => "backend"
  | frontend => "frontend"
  | bind => "bind"
  | server => "server"

def typeIdentifier : Kind → String
  | backend => "lbaas.backend"
  | frontend => "lbaas.frontend"
  | bind => "lbaas.bind"
  | server => "lbaas.server"

def ofTypeIdentifier? (text : String) : Option Kind := all.find? fun k => k.typeIdentifier = text

theorem ofTypeIdentifier?_typeIdentifier (k : Kind) :
    ofTypeIdentifier? k.typeIdentifier = some k := by
  cases k <;> decide

def rank : Kind → Nat
  | backend => 0
  | frontend => 1
  | bind | server => 2

end Kind

/-- The state of an object as its provider tells it. -/
inductive Status
  | progressing
  | ready (error : Bool)
  deriving DecidableEq, Repr

inductive Readiness
  | progressing
  | ready
  | failed
  deriving DecidableEq, Repr

namespace Readiness

def name : Readiness → String
  | progressing => "progressing"
  | ready => "ready"
  | failed => "failed"

end Readiness

namespace Status

def readiness : Status → Readiness
  | progressing => .progressing
  | ready false => .ready
  | ready true => .failed

end Status

inductive Mode
  | tcp
  | http
  deriving DecidableEq, Repr

namespace Mode

def all : List Mode := [tcp, http]

def name : Mode → String
  | tcp => "tcp"
  | http => "http"

end Mode

inductive HealthCheck
  | tcp
  | disabled
  deriving DecidableEq, Repr

namespace HealthCheck

def all : List HealthCheck := [tcp, disabled]

def name : HealthCheck → String
  | tcp => "tcp"
  | disabled => "disabled"

def isEnabled (c : HealthCheck) : Bool := c ≠ disabled

end HealthCheck

structure Backend where
  identifier : Option Identifier
  name : String
  loadBalancer : Identifier
  mode : Mode
  healthCheck : HealthCheck
  status : Status
  deriving DecidableEq

structure Frontend where
  identifier : Option Identifier
  name : String
  loadBalancer : Identifier
  defaultBackend : Identifier
  mode : Mode
  status : Status
  deriving DecidableEq

structure Bind where
  identifier : Option Identifier
  name : String
  frontend : Identifier
  address : Address
  port : UInt16
  status : Status
  deriving DecidableEq

structure Server where
  identifier : Option Identifier
  name : String
  backend : Identifier
  ip : Address
  port : UInt16
  check : Bool
  status : Status
  deriving DecidableEq

inductive Resource
  | backend (b : Backend)
  | frontend (f : Frontend)
  | bind (b : Bind)
  | server (s : Server)
  deriving DecidableEq

namespace Resource

def kind : Resource → Kind
  | backend _ => .backend
  | frontend _ => .frontend
  | bind _ => .bind
  | server _ => .server

def identifier : Resource → Option Identifier
  | backend b => b.identifier
  | frontend f => f.identifier
  | bind b => b.identifier
  | server s => s.identifier

def name : Resource → String
  | backend b => b.name
  | frontend f => f.name
  | bind b => b.name
  | server s => s.name

def status : Resource → Status
  | backend b => b.status
  | frontend f => f.status
  | bind b => b.status
  | server s => s.status

def readiness (r : Resource) : Readiness := r.status.readiness

def withIdentifier (id : Identifier) : Resource → Resource
  | backend b => backend { b with identifier := some id }
  | frontend f => frontend { f with identifier := some id }
  | bind b => bind { b with identifier := some id }
  | server s => server { s with identifier := some id }

def withStatus (status : Status) : Resource → Resource
  | backend b => backend { b with status }
  | frontend f => frontend { f with status }
  | bind b => bind { b with status }
  | server s => server { s with status }

/-- The objects that a resource refers to, load balancers included. -/
def references : Resource → List Identifier
  | backend b => [b.loadBalancer]
  | frontend f => [f.loadBalancer, f.defaultBackend]
  | bind b => [b.frontend]
  | server s => [s.backend]

/-- Kind and name, and the identifier if there is one. -/
def describe (r : Resource) : String :=
  r.kind.name ++ " " ++ r.name ++
    match r.identifier with
    | some id => " (" ++ id.text ++ ")"
    | none => ""

end Resource

/-- The identifiers of those resources that have one. -/
def identifiers (resources : List Resource) : List Identifier :=
  resources.filterMap Resource.identifier

end BalancerSync
