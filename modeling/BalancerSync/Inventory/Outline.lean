import BalancerSync.Inventory

namespace BalancerSync.Inventory

/-- How an object is called where others refer to it. -/
def label (v : Inventory) (id : Identifier) : String :=
  match v.objects.get? id with
  | none => "?"
  | some (.backend b) => b.name ++ "@" ++ b.loadBalancer.text
  | some (.frontend f) => f.name ++ "@" ++ f.loadBalancer.text
  | some r => r.name

def tagsOf (v : Inventory) (id : Identifier) : List Tag :=
  (v.tags.entries.filter fun e => e.2.contains id).map (·.1)

/-- The words that only a resource of its kind has. -/
def describe (v : Inventory) : Resource → List String
  | .backend b => [b.name ++ "@" ++ b.loadBalancer.text, b.mode.name, b.healthCheck.name]
  | .frontend f =>
    [f.name ++ "@" ++ f.loadBalancer.text, "->", v.label f.defaultBackend, f.mode.name]
  | .bind b => [b.name, "->", v.label b.frontend, b.address.write, b.port.toNat.repr]
  | .server s =>
    [s.name, "->", v.label s.backend, s.ip.write, s.port.toNat.repr,
      "check=" ++ if s.check then "true" else "false"]

def outlineOf (v : Inventory) (id : Identifier) (r : Resource) : String :=
  let tags := "[" ++ ",".intercalate ((v.tagsOf id).map Tag.text) ++ "]"
  " ".intercalate (r.kind.name :: v.describe r ++ [r.readiness.name, tags])

/-- Without the identifiers of its objects two inventories compare even if their objects came about
in a different order. -/
def outline (v : Inventory) : List String :=
  (v.objects.entries.map fun (id, r) => v.outlineOf id r).mergeSort fun a b => decide (a ≤ b)

end BalancerSync.Inventory
