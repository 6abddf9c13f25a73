import BalancerSync.Proofs.Success

namespace BalancerSync

open Comparable

namespace Layout

variable {l : Layout} {s : Snapshot} {p : Plan} {backends frontends : Resolved} {port : String}
  {id : Identifier}

/-- The backend that is wanted for the port is there under the identifier, and is not destroyed. -/
def KeepsBackend (l : Layout) (s : Snapshot) (p : Plan) (port : String) (id : Identifier) : Prop :=
  ∃ b ∈ s.backends, b.identifier = some id ∧ bare b = l.backend port ∧ .backend b ∉ p.destroy

/-- The frontend that is wanted for the port is there under the identifier, and is not destroyed.
Neither is its backend. -/
def KeepsFrontend (l : Layout) (s : Snapshot) (p : Plan) (port : String) (id : Identifier) : Prop :=
  ∃ f ∈ s.frontends, f.identifier = some id ∧ bare f = l.frontend port f.defaultBackend ∧
    .frontend f ∉ p.destroy ∧ l.KeepsBackend s p port f.defaultBackend

theorem keepsBackend_of_kept
    (h : (Planned.kept s p).Has (.backend (l.backend port)) id) : l.KeepsBackend s p port id := by
  obtain ⟨q, ⟨⟨hq, hid⟩, hstays⟩, hbare⟩ := h
  cases q with
  | backend b =>
    exact ⟨b, Snapshot.backend_mem_resources.1 hq, hid, Resource.backend.inj hbare, hstays⟩
  | frontend | bind | server => cases hbare

theorem keepsFrontend_of_kept {backend : Identifier}
    (hb : (Planned.kept s p).Has (.backend (l.backend port)) backend)
    (h : (Planned.kept s p).Has (.frontend (l.frontend port backend)) id) :
    l.KeepsFrontend s p port id := by
  obtain ⟨q, ⟨⟨hq, hid⟩, hstays⟩, hbare⟩ := h
  cases q with
  | frontend f =>
    have hbare : bare f = l.frontend port backend := Resource.frontend.inj hbare
    have hbackend : f.defaultBackend = backend := congrArg Frontend.defaultBackend hbare
    subst hbackend
    exact ⟨f, Snapshot.frontend_mem_resources.1 hq, hid, hbare, hstays, keepsBackend_of_kept hb⟩
  | backend | bind | server => cases hbare

section

variable {S : Holding}

theorem Wants.of_frontend {f : Frontend} (h : l.Wants S (.frontend f)) :
    ∃ port ∈ l.service.ports.keys, f = l.frontend port f.defaultBackend ∧
      S.Has (.backend (l.backend port)) f.defaultBackend := by
  cases h with
  | frontend hp hb => exact ⟨_, hp, rfl, hb⟩

theorem Wants.of_server {v : Server} (h : l.Wants S (.server v)) :
    ∃ name port, ∃ endpoint ∈ l.service.endpoints, l.service.ports.get? name = some port ∧
      v = l.server name port.internal v.backend endpoint ∧
      S.Has (.backend (l.backend name)) v.backend := by
  cases h with
  | server hp he hb => exact ⟨_, _, _, he, hp, rfl, hb⟩

theorem Wants.of_bind {b : Bind} (h : l.Wants S (.bind b)) :
    ∃ name port, ∃ address ∈ l.service.externalAddresses, l.service.ports.get? name = some port ∧
      b = l.bind name port.external b.frontend address ∧
      ∃ backend, S.Has (.backend (l.backend name)) backend ∧
        S.Has (.frontend (l.frontend name backend)) b.frontend := by
  cases h with
  | bind hp ha hb hf => exact ⟨_, _, _, ha, hp, rfl, _, hb, hf⟩

end

/-- A plan that can be carried out, with what is destroyed before what it refers to, and what is
created after. -/
structure Consistent (l : Layout) (s : Snapshot) (p : Plan) : Prop where
  /-- Only what is there is destroyed, -/
  destroy_seen : ∀ r ∈ p.destroy, r ∈ s.resources
  /-- a backend together with its frontends -/
  frontends_go : ∀ b f, .backend b ∈ p.destroy → f ∈ s.frontends →
    b.identifier = some f.defaultBackend → .frontend f ∈ p.destroy
  /-- and its servers, -/
  servers_go : ∀ b v, .backend b ∈ p.destroy → v ∈ s.servers →
    b.identifier = some v.backend → .server v ∈ p.destroy
  /-- and a frontend together with its binds. -/
  binds_go : ∀ f b, .frontend f ∈ p.destroy → b ∈ s.binds →
    f.identifier = some b.frontend → .bind b ∈ p.destroy
  /-- What is created for a port refers to what stays for that port. -/
  frontend_created : ∀ f, .frontend f ∈ p.create → ∃ port ∈ l.service.ports.keys,
    f = l.frontend port f.defaultBackend ∧ l.KeepsBackend s p port f.defaultBackend
  server_created : ∀ v, .server v ∈ p.create → ∃ name port, ∃ endpoint ∈ l.service.endpoints,
    l.service.ports.get? name = some port ∧ v = l.server name port.internal v.backend endpoint ∧
      l.KeepsBackend s p name v.backend
  bind_created : ∀ b, .bind b ∈ p.create → ∃ name port, ∃ address ∈ l.service.externalAddresses,
    l.service.ports.get? name = some port ∧ b = l.bind name port.external b.frontend address ∧
      l.KeepsFrontend s p name b.frontend
  /-- No two resources that are created are alike, -/
  create_unlike : (p.create.map Resource.bare).Nodup
  /-- nor is one of them like an object that stays. -/
  create_unlike_kept : ∀ r ∈ p.create, ∀ q ∈ s.resources, q ∉ p.destroy → q.bare ≠ r.bare
  /-- No object is destroyed twice. -/
  destroy_once : (p.destroy.map Resource.identifier).Nodup

namespace Planned

/-- What is kept refers to nothing that is destroyed. -/
theorem not_mem_destroy_of_kept (hs : s.Classified) {q r : Resource} (hq : kept s p id q)
    (hr : r ∈ s.resources) (hid : r.identifier = some id) : r ∉ p.destroy := by
  cases hs.eq_of_identifier hr hq.1.1 (hid.trans hq.1.2.symm)
  exact hq.2

/-- A resource goes if the object that it has to refer to goes. -/
theorem mem_destroy_of_wants (h : l.Planned s p backends frontends) (hs : s.Classified)
    {r t : Resource} (hr : r ∈ p.destroy) (hid : r.identifier = some id) (ht : t ∈ s.resources)
    (hhas : l.Wants (kept s p) t.bare → ∃ u, (kept s p).Has u id) : t ∈ p.destroy := by
  by_contra hstays
  obtain ⟨j, hj⟩ := hs.identified t ht
  obtain ⟨_, q, hq, -⟩ := hhas (h.neat_kept.wanted j t ⟨⟨ht, hj⟩, hstays⟩)
  exact not_mem_destroy_of_kept hs hq ((h.mem_destroy r).1 hr).1 hid hr

theorem consistent (h : l.Planned s p backends frontends) (hs : s.Classified) :
    l.Consistent s p where
  destroy_seen r hr := ((h.mem_destroy r).1 hr).1
  frontends_go b f hb hf hid := by
    refine h.mem_destroy_of_wants hs hb hid (Snapshot.frontend_mem_resources.2 hf) fun hw => ?_
    obtain ⟨_, -, -, hb⟩ := Wants.of_frontend (f := bare f) hw
    exact ⟨_, hb⟩
  servers_go b v hb hv hid := by
    refine h.mem_destroy_of_wants hs hb hid (Snapshot.server_mem_resources.2 hv) fun hw => ?_
    obtain ⟨_, _, _, -, -, -, hb⟩ := Wants.of_server (v := bare v) hw
    exact ⟨_, hb⟩
  binds_go f b hf hb hid := by
    refine h.mem_destroy_of_wants hs hf hid (Snapshot.bind_mem_resources.2 hb) fun hw => ?_
    obtain ⟨_, _, _, -, -, -, _, -, hf⟩ := Wants.of_bind (b := bare b) hw
    exact ⟨_, hf⟩
  frontend_created f hf := by
    obtain ⟨port, hp, hport, hb⟩ := (h.wants_of_mem_targets ((h.mem_create _).1 hf).1).of_frontend
    exact ⟨port, hp, hport, keepsBackend_of_kept hb⟩
  server_created v hv := by
    obtain ⟨name, port, endpoint, he, hp, hport, hb⟩ :=
      (h.wants_of_mem_targets ((h.mem_create _).1 hv).1).of_server
    exact ⟨name, port, endpoint, he, hp, hport, keepsBackend_of_kept hb⟩
  bind_created b hb := by
    obtain ⟨name, port, address, ha, hp, hport, backend, hback, hfront⟩ :=
      (h.wants_of_mem_targets ((h.mem_create _).1 hb).1).of_bind
    exact ⟨name, port, address, ha, hp, hport, keepsFrontend_of_kept hback hfront⟩
  create_unlike := by
    have hbare : ∀ r ∈ p.create, r.bare = r := fun r hr =>
      bare_of_mem_targets ((h.mem_create r).1 hr).1
    rw [List.map_congr_left hbare, List.map_id']
    exact h.create_nodup
  create_unlike_kept r hr q hq _ := by
    obtain ⟨ht, hunlike⟩ := (h.mem_create r).1 hr
    rw [bare_of_mem_targets ht]
    exact hunlike q hq
  destroy_once := h.map_identifier_destroy_nodup hs

end Planned

theorem consistent_failedWithDependents (hs : s.Classified) :
    l.Consistent s ⟨[], s.failedWithDependents⟩ where
  destroy_seen _ hr := hs.mem_resources_of_failedWithDependents hr
  frontends_go _ _ hb hf hid := hs.frontend_mem_failedWithDependents hf hb hid
  servers_go _ _ hb hv hid := hs.server_mem_failedWithDependents hv hb hid
  binds_go _ _ hf hb hid := hs.bind_mem_failedWithDependents hb hf hid
  frontend_created _ h := nomatch h
  server_created _ h := nomatch h
  bind_created _ h := nomatch h
  create_unlike := .nil
  create_unlike_kept _ h := nomatch h
  destroy_once := Snapshot.map_identifier_nodup s.identifiers_failedWithDependents_nodup fun r hr =>
    hs.identified r (hs.mem_resources_of_failedWithDependents hr)

/-- Every plan is consistent, whether something has failed or not. -/
theorem plan_consistent (hs : s.Classified) (h : l.plan s = .ok p) : l.Consistent s p := by
  rcases plan_eq_ok_iff.1 h with ⟨-, rfl⟩ | ⟨-, -, h⟩
  · exact consistent_failedWithDependents hs
  · obtain ⟨backends, frontends, h⟩ := exists_planned hs h
    exact h.consistent hs

end Layout

namespace Sample

/-- The backend is there twice, and what is there refers to the second one. -/
def doubled : List Resource :=
  [.backend { layout.backend "http" with identifier := some ⟨"b-1"⟩, status := .ready false },
    .backend { layout.backend "http" with identifier := some ⟨"b-2"⟩, status := .ready false },
    .frontend { layout.frontend "http" ⟨"b-2"⟩ with
      identifier := some ⟨"f-1"⟩, status := .ready false }] ++
  (layout.service.externalAddresses.map fun a => .bind { layout.bind "http" 80 ⟨"f-1"⟩ a with
    identifier := some ⟨"i-1"⟩, status := .ready false }) ++
  layout.service.endpoints.map fun e => .server { layout.server "http" 8080 ⟨"b-2"⟩ e with
    identifier := some ⟨"v-1"⟩, status := .ready false }

/-- All that refers to the second backend is replaced. Binds have to wait for the new frontend. -/
def renewal : Plan where
  create :=
    .frontend (layout.frontend "http" ⟨"b-1"⟩) ::
      layout.service.endpoints.map fun e => .server (layout.server "http" 8080 ⟨"b-1"⟩ e)
  destroy := doubled.tail

end Sample

theorem sample_plan_consistent : (Snapshot.ofList Sample.doubled).Classified ∧
    Sample.layout.plan (.ofList Sample.doubled) = .ok Sample.renewal ∧
    Sample.layout.Consistent (.ofList Sample.doubled) Sample.renewal := by
  have hs : (Snapshot.ofList Sample.doubled).Classified :=
    Snapshot.classified_ofList (by simp [Sample.doubled, Sample.layout, Resource.identifier])
      (by decide +kernel)
  have hplan : Sample.layout.plan (.ofList Sample.doubled) = .ok Sample.renewal := by
    decide +kernel
  exact ⟨hs, hplan, Layout.plan_consistent hs hplan⟩

end BalancerSync
