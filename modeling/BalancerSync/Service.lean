import BalancerSync.Address
import BalancerSync.Identifier

namespace BalancerSync

structure Port where
  /-- Where endpoints listen. -/
  internal : UInt16
  /-- Where clients connect. -/
  external : UInt16
  deriving DecidableEq

structure Endpoint where
  name : String
  address : Address
  deriving DecidableEq

structure Service where
  name : String
  uid : String
  externalAddresses : List Address
  /-- Ports by their names. -/
  ports : OrderedMap String Port
  endpoints : List Endpoint
  deriving DecidableEq

namespace Service

def tag (s : Service) : Tag := .ofService s.uid

/-- The service with nothing to be reachable any more. -/
def emptied (s : Service) : Service :=
  { name := s.name, uid := s.uid, externalAddresses := [], ports := ∅, endpoints := [] }

/-- The name of a resource: the parts that are not empty and the name of its service, with dots. -/
def resourceName (parts : List String) (service : String) : String :=
  ".".intercalate ((parts ++ [service]).filter fun part => part ≠ "")

end Service

end BalancerSync
