import BalancerSync.CommandLine
import BalancerSync.Proofs.Json.Decode
import BalancerSync.Proofs.Json.Reader

namespace BalancerSync

open Json

variable {p : Numeral → Bool}

@[simp] theorem Identifier.ofJson?_toJson (id : Identifier) : ofJson? id.toJson = some id := rfl

@[simp] theorem toIdentifier?_toJson (id : Identifier) :
    toIdentifier? (some id.toJson) = some (some id) := rfl

@[simp] theorem toIdentifier?_none : toIdentifier? none = some none := rfl

@[simp] theorem Kind.ofName?_name (k : Kind) : ofName? k.name = some k := by
  cases k <;> decide

@[simp] theorem Mode.ofJson?_toJson (emptyIsNothing : Bool) (m : Mode) :
    ofJson? emptyIsNothing m.toJson = some m := by
  cases m <;> rfl

@[simp] theorem HealthCheck.ofJson?_toJson (emptyIsNothing : Bool) (c : HealthCheck) :
    ofJson? emptyIsNothing c.toJson = some c := by
  cases c <;> rfl

@[simp] theorem Status.ofJson?_toJson (emptyIsNothing : Bool) (s : Status) :
    ofJson? emptyIsNothing s.toJson = some s := by
  cases s <;> rfl

@[simp] theorem toStatus?_toJson (emptyIsNothing : Bool) (s : Status) :
    toStatus? emptyIsNothing (some s.toJson) = some s := s.ofJson?_toJson emptyIsNothing

variable {emptyIsNothing : Bool}

theorem Backend.ofJson?_fields (b : Backend) :
    ofJson? emptyIsNothing (ofMembers (Resource.backend b).fields) = some b := by
  obtain ⟨identifier, name, loadBalancer, mode, healthCheck, status⟩ := b
  cases identifier <;>
    simp [ofJson?, Resource.fields, Resource.ownFields, Resource.identifier, Resource.name,
      Resource.status, field?, required]

theorem Frontend.ofJson?_fields (f : Frontend) :
    ofJson? emptyIsNothing (ofMembers (Resource.frontend f).fields) = some f := by
  obtain ⟨identifier, name, loadBalancer, defaultBackend, mode, status⟩ := f
  cases identifier <;>
    simp [ofJson?, Resource.fields, Resource.ownFields, Resource.identifier, Resource.name,
      Resource.status, field?, required]

theorem Bind.ofJson?_fields (b : Bind) :
    ofJson? emptyIsNothing (ofMembers (Resource.bind b).fields) = some b := by
  obtain ⟨identifier, name, frontend, address, port, status⟩ := b
  cases identifier <;>
    simp [ofJson?, Resource.fields, Resource.ownFields, Resource.identifier, Resource.name,
      Resource.status, field?, required]

theorem Server.ofJson?_fields (s : Server) :
    ofJson? emptyIsNothing (ofMembers (Resource.server s).fields) = some s := by
  obtain ⟨identifier, name, backend, ip, port, check, status⟩ := s
  cases identifier <;>
    simp [ofJson?, Resource.fields, Resource.ownFields, Resource.identifier, Resource.name,
      Resource.status, field?, required]

namespace Resource

theorem forall_mem_fields {q : String × Json → Prop} (r : Resource) :
    (∀ m ∈ r.fields, q m) ↔ (∀ id, r.identifier = some id → q ("identifier", id.toJson)) ∧
      q ("name", ofString r.name) ∧ (∀ m ∈ r.ownFields, q m) ∧ q ("status", r.status.toJson) := by
  simp only [fields, List.forall_mem_append, List.forall_mem_cons, List.not_mem_nil,
    Option.mem_toList, Option.map_eq_some_iff, false_implies, implies_true, and_true, and_assoc,
    forall_exists_index, and_imp, forall_apply_eq_imp_iff₂]

/-- What holds of texts, ports, truth values and statuses holds of all fields. -/
theorem forall_fields {q : Json → Prop} (htext : ∀ s, q (ofString s))
    (hport : ∀ n : UInt16, q (ofNat n.toNat)) (hbool : ∀ b, q (bool b))
    (hstatus : ∀ s : Status, q s.toJson) (r : Resource) : ∀ m ∈ r.fields, q m.2 := by
  refine r.forall_mem_fields.2 ⟨fun id _ => htext id.text, htext r.name, ?_, hstatus r.status⟩
  cases r with
  | backend b | frontend f =>
    simp only [ownFields, List.forall_mem_cons]
    exact ⟨htext _, htext _, htext _, nofun⟩
  | bind b =>
    simp only [ownFields, List.forall_mem_cons]
    exact ⟨htext _, htext _, hport _, nofun⟩
  | server s =>
    simp only [ownFields, List.forall_mem_cons]
    exact ⟨htext _, htext _, hport _, hbool _, nofun⟩

theorem ne_kind_of_mem_fields (r : Resource) : ∀ m ∈ r.fields, m.1 ≠ "kind" := by
  refine r.forall_mem_fields.2 ⟨fun _ _ => by simp, by simp, ?_, by simp⟩
  cases r <;> simp [ownFields, -Prod.forall]

/-- A resource holds texts and ports, which may be any that satisfy the given predicate. -/
theorem all_toJson (r : Resource) (hp : ∀ n : UInt16, p (.ofNat n.toNat)) : r.toJson.all p := by
  have hstatus (s : Status) : s.toJson.all p := by cases s <;> rfl
  have hfields := r.forall_fields (q := fun v => v.all p) (fun _ => rfl) hp (fun _ => rfl) hstatus
  exact all_ofMembers.2 (List.forall_mem_cons.2 ⟨rfl, hfields⟩)

theorem depth_toJson_le (r : Resource) : r.toJson.depth ≤ 3 := by
  have hzero : 0 ≤ 2 := Nat.zero_le 2
  have hstatus (s : Status) : s.toJson.depth ≤ 2 := by
    cases s with
    | progressing => exact hzero
    | ready error => exact Nat.le_refl 2
  have hfields := r.forall_fields (q := fun v => v.depth ≤ 2) (fun _ => hzero) (fun _ => hzero)
    (fun _ => hzero) hstatus
  exact depth_ofMembers_le (List.forall_mem_cons.2 ⟨hzero, hfields⟩)

theorem isStrict_toJson (r : Resource) {limit : Nat} (hlimit : 3 ≤ limit) :
    r.toJson.isStrict limit := by
  have hall := r.all_toJson (p := fun n => n.toBinary64?.isSome) fun n =>
    Numeral.isSome_toBinary64?_ofNat (Nat.lt_trans n.toNat_lt (by decide))
  simp [isStrict, hall, Nat.le_trans r.depth_toJson_le hlimit]

theorem ofJson?_toJson (r : Resource) {limit : Nat} (hlimit : 3 ≤ limit) :
    ofJson? limit r.toJson = some r := by
  rw [ofJson?, if_pos (r.isStrict_toJson hlimit), toJson,
    toTagged?_ofMembers r.ne_kind_of_mem_fields]
  cases r with
  | backend b => simp [kind, Kind.toJson, Backend.ofJson?_fields]
  | frontend f => simp [kind, Kind.toJson, Frontend.ofJson?_fields]
  | bind b => simp [kind, Kind.toJson, Bind.ofJson?_fields]
  | server s => simp [kind, Kind.toJson, Server.ofJson?_fields]

end Resource

namespace Inventory

@[simp] theorem toSet?_setToJson (s : OrderedSet Identifier) : toSet? (setToJson s) = some s := by
  have hlist : (setToJson s).toList? Identifier.ofJson? = some s.toList :=
    toList?_array fun id _ => id.ofJson?_toJson
  rw [toSet?, hlist, Option.map_some, OrderedMap.ofList_toList]

theorem toObjects?_ofMembers (objects : OrderedMap Identifier Resource) :
    toObjects? (ofMembers (objects.entries.map fun (id, r) => (id.text, r.toJson))) =
      some objects :=
  toMembers?_entries objects (fun _ => rfl) fun r => r.ofJson?_toJson (by decide)

theorem toTags?_ofMembers (tags : OrderedMap Tag (OrderedSet Identifier)) :
    toTags? (ofMembers (tags.entries.map fun (tag, ids) => (tag.text, setToJson ids))) =
      some tags :=
  toMembers?_entries tags (fun _ => rfl) toSet?_setToJson

theorem ofJson?_toJson (v : Inventory) : ofJson? v.toJson = some v := by
  simp [ofJson?, toJson, field?, defaulted, toObjects?_ofMembers, toTags?_ofMembers]

theorem all_setToJson (s : OrderedSet Identifier) : (setToJson s).all p := by
  refine all_array.2 fun v hv => ?_
  obtain ⟨id, -, rfl⟩ := List.mem_map.1 hv
  rfl

theorem all_toJson (v : Inventory) : v.toJson.all Numeral.isNatural := by
  refine all_ofMembers.2 ?_
  simp only [List.forall_mem_cons]
  refine ⟨all_setToJson _, all_ofMembers.2 ?_, all_ofMembers.2 ?_, nofun⟩
  · intro m hm
    obtain ⟨e, -, rfl⟩ := List.mem_map.1 hm
    exact e.2.all_toJson fun n => Numeral.isNatural_ofNat n.toNat
  · intro m hm
    obtain ⟨e, -, rfl⟩ := List.mem_map.1 hm
    exact all_setToJson e.2

end Inventory

theorem CommandLine.ofJson?_writeState (inventory : Inventory) :
    (Json.read? (writeState inventory)).bind Inventory.ofJson? = some inventory := by
  have hjson : Json.read? (writeState inventory) = some inventory.toJson :=
    read?_writePretty inventory.all_toJson
  rw [hjson, Option.bind_some, Inventory.ofJson?_toJson]

/-- Whatever an inventory holds, the state file that is written of it is read as that inventory. -/
theorem CommandLine.readState_writeState (path : String) (inventory : Inventory) :
    readState path (.text (writeState inventory)) = .ok inventory := by
  rw [readState, ofJson?_writeState]

end BalancerSync
