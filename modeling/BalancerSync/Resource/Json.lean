import BalancerSync.Json.Decode
import BalancerSync.Resource

namespace BalancerSync

open Json

namespace Identifier

def toJson (id : Identifier) : Json := ofString id.text

def ofJson? (v : Json) : Option Identifier := v.toText?.map Identifier.mk

end Identifier

namespace Status

def toJson : Status → Json
  | progressing => ofString "progressing"
  | ready error => ofMembers [("ready", ofMembers [("error", bool error)])]

def ofJson? (emptyIsNothing : Bool) (v : Json) : Option Status :=
  match v.toVariant? with
  | some ("progressing", _) => (v.toName? emptyIsNothing).map fun _ => progressing
  | some ("ready", some fields) => do
    match ← fields.toFields? ["error"] with
    | [error] => return ready (← required toBool? error)
    | _ => none
  | _ => none

end Status

namespace Kind

def toJson (k : Kind) : Json := ofString k.name

def ofName? (text : String) : Option Kind := all.find? fun k => k.name = text

def ofJson? (v : Json) : Option Kind := v.toEnum? all name false

end Kind

namespace Mode

def toJson (m : Mode) : Json := ofString m.name

def ofJson? (emptyIsNothing : Bool) (v : Json) : Option Mode := v.toEnum? all name emptyIsNothing

end Mode

namespace HealthCheck

def toJson (c : HealthCheck) : Json := ofString c.name

def ofJson? (emptyIsNothing : Bool) (v : Json) : Option HealthCheck :=
  v.toEnum? all name emptyIsNothing

end HealthCheck

namespace Resource

def ownFields : Resource → List (String × Json)
  | backend b =>
    [("load_balancer", b.loadBalancer.toJson), ("mode", b.mode.toJson),
      ("health_check", b.healthCheck.toJson)]
  | frontend f =>
    [("load_balancer", f.loadBalancer.toJson), ("default_backend", f.defaultBackend.toJson),
      ("mode", f.mode.toJson)]
  | bind b =>
    [("frontend", b.frontend.toJson), ("address", ofString b.address.write),
      ("port", ofNat b.port.toNat)]
  | server s =>
    [("backend", s.backend.toJson), ("ip", ofString s.ip.write), ("port", ofNat s.port.toNat),
      ("check", bool s.check)]

def fields (r : Resource) : List (String × Json) :=
  (r.identifier.map fun id => ("identifier", id.toJson)).toList
    ++ ("name", ofString r.name) :: r.ownFields ++ [("status", r.status.toJson)]

def toJson (r : Resource) : Json := ofMembers (("kind", r.kind.toJson) :: r.fields)

def toJsonOfKind (r : Resource) : Json := ofMembers r.fields

end Resource

def toIdentifier? (field : Option Json) : Option (Option Identifier) :=
  defaulted none (toOption? Identifier.ofJson?) field

def toStatus? (emptyIsNothing : Bool) (field : Option Json) : Option Status :=
  defaulted .progressing (Status.ofJson? emptyIsNothing) field

def Backend.ofJson? (emptyIsNothing : Bool) (v : Json) : Option Backend := do
  match ← v.toFields? ["identifier", "name", "load_balancer", "mode", "health_check", "status"] with
  | [identifier, name, loadBalancer, mode, healthCheck, status] =>
    return {
      identifier := ← toIdentifier? identifier
      name := ← required toText? name
      loadBalancer := ← required Identifier.ofJson? loadBalancer
      mode := ← required (Mode.ofJson? emptyIsNothing) mode
      healthCheck := ← required (HealthCheck.ofJson? emptyIsNothing) healthCheck
      status := ← toStatus? emptyIsNothing status }
  | _ => none

def Frontend.ofJson? (emptyIsNothing : Bool) (v : Json) : Option Frontend := do
  match ← v.toFields?
    ["identifier", "name", "load_balancer", "default_backend", "mode", "status"] with
  | [identifier, name, loadBalancer, defaultBackend, mode, status] =>
    return {
      identifier := ← toIdentifier? identifier
      name := ← required toText? name
      loadBalancer := ← required Identifier.ofJson? loadBalancer
      defaultBackend := ← required Identifier.ofJson? defaultBackend
      mode := ← required (Mode.ofJson? emptyIsNothing) mode
      status := ← toStatus? emptyIsNothing status }
  | _ => none

def Bind.ofJson? (emptyIsNothing : Bool) (v : Json) : Option Bind := do
  match ← v.toFields? ["identifier", "name", "frontend", "address", "port", "status"] with
  | [identifier, name, frontend, address, port, status] =>
    return {
      identifier := ← toIdentifier? identifier
      name := ← required toText? name
      frontend := ← required Identifier.ofJson? frontend
      address := ← required toAddress? address
      port := ← required toUInt16? port
      status := ← toStatus? emptyIsNothing status }
  | _ => none

def Server.ofJson? (emptyIsNothing : Bool) (v : Json) : Option Server := do
  match ← v.toFields? ["identifier", "name", "backend", "ip", "port", "check", "status"] with
  | [identifier, name, backend, ip, port, check, status] =>
    return {
      identifier := ← toIdentifier? identifier
      name := ← required toText? name
      backend := ← required Identifier.ofJson? backend
      ip := ← required toAddress? ip
      port := ← required toUInt16? port
      check := ← required toBool? check
      status := ← toStatus? emptyIsNothing status }
  | _ => none

namespace Resource

/-- The fields are not looked at before the kind is known, so all of the value has to be strict,
with at most `limit` levels. -/
def ofJson? (limit : Nat) (v : Json) : Option Resource :=
  if v.isStrict limit then do
    let (tag, fields) ← v.toTagged? "kind"
    match ← tag.toText?.bind Kind.ofName? with
    | .backend => (Backend.ofJson? true fields).map backend
    | .frontend => (Frontend.ofJson? true fields).map frontend
    | .bind => (Bind.ofJson? true fields).map bind
    | .server => (Server.ofJson? true fields).map server
  else none

end Resource

end BalancerSync
