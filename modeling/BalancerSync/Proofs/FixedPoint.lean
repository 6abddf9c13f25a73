import BalancerSync.Proofs.Success

namespace BalancerSync

namespace Snapshot

/-- The lists by kind do not depend on what is told about readiness. -/
theorem ofList_resources (s : Snapshot) : ofList s.resources =
    { s with
      failed := s.resources.filter fun r => r.readiness = .failed
      progressing := s.resources.filter fun r => r.readiness = .progressing } := by
  simp only [ofList, resources, List.filterMap_append, List.filterMap_map, Function.comp_def,
    List.filterMap_some, List.filterMap_none, List.append_nil, List.nil_append]

theorem resources_ofList_resources (s : Snapshot) :
    (ofList s.resources).resources = s.resources := by
  rw [ofList_resources]
  rfl

end Snapshot

namespace Layout

variable {l : Layout} {s : Snapshot} {identifier : Resource → Identifier} {t : Resource}
  {id : Identifier}

theorem planReady_ofList_resources (l : Layout) (s : Snapshot) :
    l.planReady (.ofList s.resources) = l.planReady s := by
  rw [Snapshot.ofList_resources]
  rfl

section

variable {name : String} {port : Port} (identifier)

theorem backend_mem_complete (hp : name ∈ l.service.ports.keys) :
    .backend (l.backend name) ∈ l.complete identifier := by
  simp only [complete, List.mem_append, List.mem_map]
  exact .inl (.inl (.inl ⟨name, hp, rfl⟩))

theorem frontend_mem_complete (hp : name ∈ l.service.ports.keys) :
    .frontend (l.frontend name (identifier (.backend (l.backend name)))) ∈
      l.complete identifier := by
  simp only [complete, List.mem_append, List.mem_map]
  exact .inl (.inl (.inr ⟨name, hp, rfl⟩))

theorem bind_mem_complete {address : Address} (hp : l.service.ports.get? name = some port)
    (ha : address ∈ l.service.externalAddresses) :
    .bind (l.bind name port.external
      (identifier (.frontend (l.frontend name (identifier (.backend (l.backend name)))))) address) ∈
      l.complete identifier := by
  simp only [complete, List.mem_append, List.mem_map, List.mem_flatMap]
  exact .inl (.inr ⟨(name, port), OrderedMap.get?_eq_some_iff.1 hp, address, ha, rfl⟩)

theorem server_mem_complete {endpoint : Endpoint} (hp : l.service.ports.get? name = some port)
    (he : endpoint ∈ l.service.endpoints) :
    .server (l.server name port.internal (identifier (.backend (l.backend name))) endpoint) ∈
      l.complete identifier := by
  simp only [complete, List.mem_append, List.mem_map, List.mem_flatMap]
  exact .inr ⟨(name, port), OrderedMap.get?_eq_some_iff.1 hp, endpoint, he, rfl⟩

end

/-- The snapshot consists of one object for each resource that is wanted in the end: a backend and a
frontend for each port, a bind for each port and external address, and a server for each port and
endpoint. What refers to an object does so by the identifier that it has. -/
def Completes (l : Layout) (s : Snapshot) (identifier : Resource → Identifier) : Prop :=
  (s.resources.map fun r => (r.identifier, r.bare)).Perm
    ((l.complete identifier).map fun t => (some (identifier t), t))

namespace Completes

theorem has_iff (h : l.Completes s identifier) :
    s.holding.Has t id ↔ t ∈ l.complete identifier ∧ id = identifier t := by
  have hpair : s.holding.Has t id ↔
      (some id, t) ∈ s.resources.map fun r => (r.identifier, r.bare) := by
    simp only [Holding.Has, Snapshot.holding, List.mem_map, Prod.mk.injEq, and_assoc]
  rw [hpair, h.mem_iff]
  simp only [List.mem_map, Prod.mk.injEq, Option.some.injEq]
  constructor
  · rintro ⟨_, ht, rfl, rfl⟩
    exact ⟨ht, rfl⟩
  · rintro ⟨ht, rfl⟩
    exact ⟨t, ht, rfl, rfl⟩

/-- In a complete snapshot nothing is wanted but what is wanted in the end. -/
theorem wants_iff (h : l.Completes s identifier) :
    l.Wants s.holding t ↔ t ∈ l.complete identifier := by
  constructor
  · intro hw
    cases hw with
    | backend hp => exact backend_mem_complete identifier hp
    | frontend hp hb =>
      obtain ⟨-, rfl⟩ := h.has_iff.1 hb
      exact frontend_mem_complete identifier hp
    | bind hp ha hb hf =>
      obtain ⟨-, rfl⟩ := h.has_iff.1 hb
      obtain ⟨-, rfl⟩ := h.has_iff.1 hf
      exact bind_mem_complete identifier hp ha
    | server hp he hb =>
      obtain ⟨-, rfl⟩ := h.has_iff.1 hb
      exact server_mem_complete identifier hp he
  · intro ht
    have hbackend {port : String} (hp : port ∈ l.service.ports.keys) :=
      h.has_iff.2 ⟨backend_mem_complete identifier hp, rfl⟩
    have hfrontend {port : String} (hp : port ∈ l.service.ports.keys) :=
      h.has_iff.2 ⟨frontend_mem_complete identifier hp, rfl⟩
    simp only [complete, List.mem_append, List.mem_map, List.mem_flatMap, Prod.exists,
      ← OrderedMap.get?_eq_some_iff] at ht
    rcases ht with ((⟨port, hp, rfl⟩ | ⟨port, hp, rfl⟩) | ⟨name, port, hp, a, ha, rfl⟩) |
      ⟨name, port, hp, e, he, rfl⟩
    · exact .backend hp
    · exact .frontend hp (hbackend hp)
    · have hkeys := OrderedMap.mem_keys_of_get? hp
      exact .bind hp ha (hbackend hkeys) (hfrontend hkeys)
    · exact .server hp he (hbackend (OrderedMap.mem_keys_of_get? hp))

theorem exists_has (h : l.Completes s identifier) (hw : l.Wants s.holding t) :
    ∃ id, s.holding.Has t id := ⟨_, h.has_iff.2 ⟨h.wants_iff.1 hw, rfl⟩⟩

theorem neat (h : l.Completes s identifier) : l.Neat s.holding where
  wanted _ r hr := h.wants_iff.2 (h.has_iff.1 ⟨r, hr, rfl⟩).1
  unique _ _ _ hi hj := (h.has_iff.1 hi).2.trans (h.has_iff.1 hj).2.symm

end Completes

/-- Of snapshots in which everything has an identifier of its own, those are left as they are in
which nothing has failed, nothing is progressing, and exactly that is there which is wanted in the
end. -/
theorem plan_eq_empty_iff (hid : ∀ r ∈ s.resources, ∃ id, r.identifier = some id)
    (hd : (s.resources.map Resource.identifier).Nodup)
    (ha : l.service.externalAddresses.Nodup) (he : l.service.endpoints.Nodup) :
    l.plan s = .ok .empty ↔
      s.failed = [] ∧ s.progressing = [] ∧ ∃ identifier, l.Completes s identifier := by
  -- `planReady` does not look at what is told about readiness, so that may be told as it is.
  have hs : (Snapshot.ofList s.resources).Classified := Snapshot.classified_ofList hid hd
  have hresources := s.resources_ofList_resources
  have hcompletes (identifier : Resource → Identifier) :
      l.Completes (.ofList s.resources) identifier ↔ l.Completes s identifier := by
    rw [Completes, hresources, Completes]
  rw [plan_eq_ok_iff, ← planReady_ofList_resources]
  simp only [← hcompletes]
  constructor
  · rintro (⟨hf, hempty⟩ | ⟨hf, hp, hready⟩)
    · exact absurd (congrArg Plan.destroy hempty).symm (failedWithDependents_ne_nil hf)
    · obtain ⟨backends, frontends, h⟩ := exists_planned hs hready
      exact ⟨hf, hp, _, h.perm_complete hs rfl⟩
  · rintro ⟨hf, hp, identifier, h⟩
    obtain ⟨p, hready⟩ := exists_plan hs ha he
    obtain ⟨backends, frontends, hplanned⟩ := exists_planned hs hready
    have hdestroy : p.destroy = [] := (hplanned.destroy_eq_nil_iff hs).2 h.neat
    have hcreate : p.create = [] := by
      refine List.eq_nil_iff_forall_not_mem.2 fun t ht => ?_
      obtain ⟨hw, hno⟩ := (hplanned.mem_create_iff_of_neat hs h.neat).1 ht
      obtain ⟨id, hhas⟩ := h.exists_has hw
      exact hno id hhas
    obtain ⟨create, destroy⟩ := p
    subst hcreate hdestroy
    exact .inr ⟨hf, hp, hready⟩

end Layout

namespace Sample

def served : Snapshot := .ofList <|
  [.backend { layout.backend "http" with identifier := some ⟨"b-1"⟩, status := .ready false },
    .frontend { layout.frontend "http" ⟨"b-1"⟩ with
      identifier := some ⟨"f-1"⟩, status := .ready false }] ++
  (layout.service.externalAddresses.map fun a => .bind { layout.bind "http" 80 ⟨"f-1"⟩ a with
    identifier := some ⟨"i-1"⟩, status := .ready false }) ++
  layout.service.endpoints.map fun e => .server { layout.server "http" 8080 ⟨"b-1"⟩ e with
    identifier := some ⟨"v-1"⟩, status := .ready false }

end Sample

theorem sample_plan_eq_empty : (∀ r ∈ Sample.served.resources, ∃ id, r.identifier = some id) ∧
    (Sample.served.resources.map Resource.identifier).Nodup ∧
    Sample.layout.service.externalAddresses.Nodup ∧ Sample.layout.service.endpoints.Nodup ∧
    Sample.layout.plan Sample.served = .ok .empty ∧
    ∃ identifier, Sample.layout.Completes Sample.served identifier := by
  have hid : ∀ r ∈ Sample.served.resources, ∃ id, r.identifier = some id := by
    simp [Sample.served, Sample.layout, Resource.identifier]
  have hd : (Sample.served.resources.map Resource.identifier).Nodup := by decide +kernel
  have ha : Sample.layout.service.externalAddresses.Nodup := by decide +kernel
  have he : Sample.layout.service.endpoints.Nodup := by decide +kernel
  have hplan : Sample.layout.plan Sample.served = .ok .empty := by decide +kernel
  exact ⟨hid, hd, ha, he, hplan, ((Layout.plan_eq_empty_iff hid hd ha he).1 hplan).2.2⟩

end BalancerSync
