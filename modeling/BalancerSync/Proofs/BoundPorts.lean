import BalancerSync.Engine.Reconciliation
import BalancerSync.Proofs.Deployment

namespace BalancerSync

namespace BoundPorts

variable {m m' : BoundPorts} {a : Address} {p : UInt16}

def Binds (m : BoundPorts) (a : Address) (p : UInt16) : Prop :=
  ∃ ports, m.get? a = some ports ∧ p ∈ ports.keys

def Inhabited (m : BoundPorts) : Prop := ∀ a ports, m.get? a = some ports → ∃ p, p ∈ ports.keys

theorem eq_of_binds (hm : m.Inhabited) (hm' : m'.Inhabited)
    (h : ∀ a p, m.Binds a p ↔ m'.Binds a p) : m = m' := by
  have hsub {m m' : BoundPorts} (hm : m.Inhabited) (h : ∀ a p, m.Binds a p ↔ m'.Binds a p)
      {a : Address} {ports : OrderedSet UInt16} (ha : m.get? a = some ports) :
      m'.get? a = some ports := by
    obtain ⟨p, hp⟩ := hm a ports ha
    obtain ⟨ports', ha', -⟩ := (h a p).1 ⟨ports, ha, hp⟩
    rw [ha', Option.some.injEq]
    apply OrderedMap.ext_get?
    intro q
    have hq := h a q
    simp only [Binds, ha, ha', Option.some.injEq, exists_eq_left', OrderedMap.mem_keys_iff] at hq
    cases h₁ : ports'.get? q <;> cases h₂ : ports.get? q <;> simp [h₁, h₂] at hq ⊢
  apply OrderedMap.ext_get?
  intro a
  cases ha : m.get? a with
  | some ports => exact (hsub hm h ha).symm
  | none =>
    cases ha' : m'.get? a with
    | none => rfl
    | some ports =>
      rw [hsub hm' (fun a p => (h a p).symm) ha'] at ha
      cases ha

def add (m : BoundPorts) (b : Bind) : BoundPorts :=
  m.insert b.address (((m.get? b.address).getD ∅).insert b.port ())

theorem binds_add {b : Bind} : (m.add b).Binds a p ↔ (b.address = a ∧ b.port = p) ∨ m.Binds a p := by
  rw [Binds, add, OrderedMap.get?_insert]
  by_cases ha : b.address = a
  · subst ha
    simp only [if_true, Option.some.injEq, exists_eq_left', true_and, OrderedMap.mem_keys_insert,
      Binds]
    cases m.get? b.address <;> simp [eq_comm]
  · simp [ha, Binds]

theorem Inhabited.add (hm : m.Inhabited) (b : Bind) : (m.add b).Inhabited := by
  intro a ports ha
  rw [BoundPorts.add, OrderedMap.get?_insert] at ha
  split at ha
  · cases ha
    exact ⟨b.port, OrderedMap.mem_keys_insert.2 (.inl rfl)⟩
  · exact hm a ports ha

theorem foldl_add (binds : List Bind) (hm : m.Inhabited) :
    (binds.foldl add m).Inhabited ∧ ∀ a p, (binds.foldl add m).Binds a p ↔
      (∃ b ∈ binds, b.address = a ∧ b.port = p) ∨ m.Binds a p := by
  induction binds generalizing m with
  | nil => exact ⟨hm, by simp⟩
  | cons b binds ih =>
    obtain ⟨hi, hb⟩ := ih (hm.add b)
    refine ⟨hi, fun a p => ?_⟩
    rw [List.foldl_cons, hb, binds_add]
    simp only [List.exists_mem_cons_iff]
    exact or_left_comm.trans or_assoc.symm

theorem ofBinds_inhabited (binds : List Bind) : (ofBinds binds).Inhabited :=
  (foldl_add binds (m := ∅) fun _ _ h => nomatch h).1

theorem ofBinds_binds_iff (binds : List Bind) :
    (ofBinds binds).Binds a p ↔ ∃ b ∈ binds, b.address = a ∧ b.port = p := by
  have h := (foldl_add binds (m := ∅) fun _ _ h => nomatch h).2 a p
  rw [show ofBinds binds = binds.foldl add ∅ from rfl, h]
  simp [Binds]

section

variable {addresses : List Address} {ports : Address → List UInt16}

/-- Ports that are listed for each of some addresses. -/
theorem ofList_binds_iff : Binds (.ofList (addresses.map fun a => (a, .ofList (ports a)))) a p ↔
    a ∈ addresses ∧ p ∈ ports a := by
  simp only [Binds, OrderedMap.get?_ofList_map, Option.ite_none_right_eq_some, Option.some.injEq]
  constructor
  · rintro ⟨_, ⟨ha, rfl⟩, hp⟩
    exact ⟨ha, OrderedMap.mem_keys_set_ofList.1 hp⟩
  · rintro ⟨ha, hp⟩
    exact ⟨_, ⟨ha, rfl⟩, OrderedMap.mem_keys_set_ofList.2 hp⟩

theorem ofList_inhabited (h : ∀ a ∈ addresses, ∃ p, p ∈ ports a) :
    Inhabited (.ofList (addresses.map fun a => (a, .ofList (ports a)))) := by
  intro a bound ha
  rw [OrderedMap.get?_ofList_map, Option.ite_none_right_eq_some, Option.some.injEq] at ha
  obtain ⟨hmem, rfl⟩ := ha
  obtain ⟨p, hp⟩ := h a hmem
  exact ⟨p, OrderedMap.mem_keys_set_ofList.2 hp⟩

end

end BoundPorts

/-- Every external port on every external address, and nothing if there are no ports. -/
def Service.boundPorts (s : Service) : BoundPorts :=
  if s.ports.isEmpty then ∅
  else .ofList (s.externalAddresses.map fun address =>
    (address, OrderedSet.ofList (s.ports.values.map Port.external)))

namespace Service

variable {s : Service} {a : Address} {p : UInt16}

theorem boundPorts_inhabited (s : Service) : s.boundPorts.Inhabited := by
  rw [boundPorts]
  split
  next => exact fun _ _ h => nomatch h
  next hs =>
    rw [OrderedMap.isEmpty_iff] at hs
    push Not at hs
    obtain ⟨name, hname⟩ := hs
    obtain ⟨port, hport⟩ := OrderedMap.mem_keys_iff.1 hname
    refine BoundPorts.ofList_inhabited fun _ _ => ⟨port.external, List.mem_map.2 ⟨port, ?_, rfl⟩⟩
    exact OrderedMap.mem_values_iff.2 ⟨name, hport⟩

theorem boundPorts_binds_iff : s.boundPorts.Binds a p ↔
    a ∈ s.externalAddresses ∧ ∃ name port, s.ports.get? name = some port ∧ port.external = p := by
  rw [boundPorts]
  split
  next hs =>
    rw [OrderedMap.isEmpty_iff] at hs
    constructor
    · rintro ⟨ports, ha, -⟩
      cases ha
    · rintro ⟨-, name, port, hport, -⟩
      exact absurd (OrderedMap.mem_keys_of_get? hport) (hs name)
  next =>
    rw [BoundPorts.ofList_binds_iff]
    simp only [List.mem_map, OrderedMap.mem_values_iff]
    refine and_congr_right fun _ => ⟨?_, ?_⟩
    · rintro ⟨port, ⟨name, hname⟩, rfl⟩
      exact ⟨name, port, hname, rfl⟩
    · rintro ⟨name, port, hname, rfl⟩
      exact ⟨port, ⟨name, hname⟩, rfl⟩

end Service

namespace Layout

variable {l : Layout} {rs : List Resource} {identifier : Resource → Identifier}

end Layout

end BalancerSync
