import BalancerSync.Failure

namespace BalancerSync

/-- What a provider keeps from run to run. -/
structure Inventory where
  loadBalancers : OrderedSet Identifier
  objects : OrderedMap Identifier Resource
  tags : OrderedMap Tag (OrderedSet Identifier)
  deriving DecidableEq

namespace Inventory

def empty : Inventory := ⟨∅, ∅, ∅⟩

instance : Inhabited Inventory := ⟨empty⟩

def kindOf? (v : Inventory) (id : Identifier) : Option Kind := (v.objects.get? id).map Resource.kind

def taggedIds (v : Inventory) (tag : Tag) : List Identifier :=
  ((v.tags.get? tag).getD ∅).keys

/-- The objects that carry a tag, in the order of their identifiers. -/
def tagged (v : Inventory) (tag : Tag) : List (Identifier × Resource) :=
  (v.taggedIds tag).filterMap fun id => (v.objects.get? id).map fun r => (id, r)

def attach (v : Inventory) (id : Identifier) (tag : Tag) : Inventory :=
  { v with tags := v.tags.insert tag (((v.tags.get? tag).getD ∅).insert id ()) }

def put (v : Inventory) (id : Identifier) (r : Resource) : Inventory :=
  { v with objects := v.objects.insert id r }

/-- Takes an object away, and with it the tags that nothing else carries. -/
def remove (v : Inventory) (id : Identifier) : Inventory :=
  { v with
    objects := v.objects.erase id
    tags := (v.tags.mapValues fun _ ids => ids.erase id).filter fun _ ids => !ids.isEmpty }

def referrer? (v : Inventory) (id : Identifier) : Option Resource :=
  v.objects.values.find? fun r => id ∈ r.references

def requireLoadBalancer (v : Inventory) (name : String) (lb : Identifier) : Except Refusal Unit :=
  if v.loadBalancers.contains lb then .ok ()
  else .error (.rejected (name ++ " references unknown load balancer " ++ lb.text))

def requireObject (v : Inventory) (name : String) (kind : Kind) (id : Identifier) :
    Except Refusal Unit :=
  if v.kindOf? id = some kind then .ok ()
  else .error (.rejected (name ++ " references unknown " ++ kind.name ++ " " ++ id.text))

def checkReferences (v : Inventory) : Resource → Except Refusal Unit
  | .backend b => v.requireLoadBalancer b.name b.loadBalancer
  | .frontend f => do
    v.requireLoadBalancer f.name f.loadBalancer
    v.requireObject f.name .backend f.defaultBackend
  | .bind b => v.requireObject b.name .frontend b.frontend
  | .server s => v.requireObject s.name .backend s.backend

end Inventory

end BalancerSync
