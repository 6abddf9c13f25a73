import BalancerSync.Json.Decode
import BalancerSync.Service

namespace BalancerSync

open Json

namespace Port

def toJson (p : Port) : Json :=
  ofMembers [("internal", ofNat p.internal.toNat), ("external", ofNat p.external.toNat)]

def ofJson? (v : Json) : Option Port := do
  match ← v.toFields? ["internal", "external"] with
  | [internal, external] =>
    return { internal := ← required toUInt16? internal, external := ← required toUInt16? external }
  | _ => none

end Port

namespace Endpoint

def toJson (e : Endpoint) : Json :=
  ofMembers [("name", ofString e.name), ("address", ofString e.address.write)]

def ofJson? (v : Json) : Option Endpoint := do
  match ← v.toFields? ["name", "address"] with
  | [name, address] =>
    return { name := ← required toText? name, address := ← required toAddress? address }
  | _ => none

end Endpoint

namespace Service

def toJson (s : Service) : Json :=
  ofMembers
    [("name", ofString s.name), ("uid", ofString s.uid),
      ("external_addresses", array (s.externalAddresses.map fun a => ofString a.write)),
      ("ports", ofMembers (s.ports.entries.map fun (name, p) => (name, p.toJson))),
      ("servers", array (s.endpoints.map Endpoint.toJson))]

def ofJson? (v : Json) : Option Service := do
  match ← v.toFields? ["name", "uid", "external_addresses", "ports", "servers"] with
  | [name, uid, externalAddresses, ports, endpoints] =>
    return {
      name := ← required toText? name
      uid := ← required toText? uid
      externalAddresses := ← defaulted [] (toList? toAddress?) externalAddresses
      ports := ← defaulted ∅ (toMap? Port.ofJson?) ports
      endpoints := ← defaulted [] (toList? Endpoint.ofJson?) endpoints }
  | _ => none

end Service

end BalancerSync
