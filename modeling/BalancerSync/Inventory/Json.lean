import BalancerSync.Inventory
import BalancerSync.Resource.Json

namespace BalancerSync

open Json

namespace Inventory

def setToJson (s : OrderedSet Identifier) : Json := array (s.toList.map Identifier.toJson)

def toJson (v : Inventory) : Json :=
  ofMembers
    [("load_balancers", setToJson v.loadBalancers),
      ("objects", ofMembers (v.objects.entries.map fun (id, r) => (id.text, r.toJson))),
      ("tags", ofMembers (v.tags.entries.map fun (tag, ids) => (tag.text, setToJson ids)))]

def toSet? (v : Json) : Option (OrderedSet Identifier) :=
  (v.toList? Identifier.ofJson?).map OrderedSet.ofList

def toObjects? (v : Json) : Option (OrderedMap Identifier Resource) := do
  let members ← v.toMembers? (Resource.ofJson? (maxDepth - 2))
  return .ofList (members.map fun (id, r) => (⟨id⟩, r))

def toTags? (v : Json) : Option (OrderedMap Tag (OrderedSet Identifier)) := do
  let members ← v.toMembers? toSet?
  return .ofList (members.map fun (tag, ids) => (⟨tag⟩, ids))

def ofJson? (v : Json) : Option Inventory := do
  match ← v.toFields? ["load_balancers", "objects", "tags"] with
  | [loadBalancers, objects, tags] =>
    return {
      loadBalancers := ← defaulted ∅ toSet? loadBalancers
      objects := ← defaulted ∅ toObjects? objects
      tags := ← defaulted ∅ toTags? tags }
  | _ => none

end Inventory

end BalancerSync
