import BalancerSync.Resource
import BalancerSync.Text.Quoted

namespace BalancerSync

/-- Why a provider does not do what it is asked for. -/
inductive Refusal
  | notFound
  | rateLimited
  /-- Among others, no object carries a tag that is listed. -/
  | unprocessable (reason : String)
  | rejected (reason : String)
  | transport (reason : String)
  deriving DecidableEq

namespace Refusal

def message : Refusal → String
  | notFound => "not found"
  | rateLimited => "rate limited"
  | unprocessable reason => "unprocessable: " ++ reason
  | rejected reason => "rejected: " ++ reason
  | transport reason => "transport: " ++ reason

end Refusal

/-- Why a reconciliation, or a part of it, ends without success. -/
inductive Failure
  /-- Objects that belong to the service are still being deployed. -/
  | resourcesProgressing (ids : List Identifier)
  /-- Objects could not be deployed. -/
  | resourcesFailed (ids : List Identifier)
  /-- None of these could be destroyed in a whole pass. -/
  | notDestroyable (ids : List Identifier)
  /-- The provider limits destruction, and these are left. -/
  | rateLimited (remaining : List Identifier)
  | notCreated (name : String) (reason : String)
  | notTagged (id : Identifier) (reason : String)
  | unregisteredLoadBalancer (lb : Identifier)
  /-- The load balancer already waits for the next shared snapshot. -/
  | concurrentFetch (lb : Identifier)
  | canceled
  /-- These were still progressing after the last poll. -/
  | waitTimeout (ids : List Identifier)
  /-- Two desired resources cannot be told apart. -/
  | duplicateResource (kind : Kind) (name : String)
  | missingIdentifier (kind : Kind) (name : String)
  | invalidSettings (reason : String)
  | notConverged (cycles : Nat)
  | provider (refusal : Refusal)
  deriving DecidableEq

namespace Failure

def quoteIdentifier (id : Identifier) : String := "Identifier(" ++ Text.quoted id.text ++ ")"

def quoteIdentifiers (ids : List Identifier) : String :=
  "[" ++ ", ".intercalate (ids.map quoteIdentifier) ++ "]"

def message : Failure → String
  | resourcesProgressing ids => "LBaaS resources still progressing: " ++ quoteIdentifiers ids
  | resourcesFailed ids => "LBaaS resources failed: " ++ quoteIdentifiers ids
  | notDestroyable ids => "LBaaS resources not destroyable: " ++ quoteIdentifiers ids
  | rateLimited remaining =>
    "rate limited by LBaaS provider, " ++ remaining.length.repr ++ " resources left"
  | notCreated name reason => "failed to create " ++ name ++ ": " ++ reason
  | notTagged id reason => "failed to tag " ++ id.text ++ ": " ++ reason
  | unregisteredLoadBalancer lb => "load balancer " ++ lb.text ++ " is not registered"
  | concurrentFetch lb =>
    "load balancer " ++ lb.text ++ " is already waiting for a shared fetch"
  | canceled => "canceled"
  | waitTimeout ids =>
    "timed out waiting for resources to become ready: " ++ quoteIdentifiers ids
  | duplicateResource kind name => "duplicate desired " ++ kind.name ++ " " ++ name
  | missingIdentifier kind name => "remote " ++ kind.name ++ " " ++ name ++ " has no identifier"
  | invalidSettings reason => "invalid configuration: " ++ reason
  | notConverged cycles => "not converged after " ++ cycles.repr ++ " cycles"
  | provider refusal => "provider: " ++ refusal.message

end Failure

end BalancerSync
