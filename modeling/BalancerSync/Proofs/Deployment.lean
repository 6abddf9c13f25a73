import BalancerSync.Proofs.Planning

namespace BalancerSync

open Comparable Difference

namespace Layout.Planned

variable {l : Layout} {s : Snapshot} {p : Plan} {backends frontends : Resolved}
  {port : String} {id : Identifier} {r t : Resource}

theorem kept_within : (kept s p).Within s.holding := fun _ _ ⟨q, hq, hr⟩ => ⟨q, hq.1, hr⟩

/-- What refers to a resource that is destroyed is destroyed as well. -/
theorem mem_destroy_of_references (h : l.Planned s p backends frontends) (hs : s.Classified)
    (hlb : ∀ q ∈ s.resources, q.identifier ≠ some l.loadBalancer) (hr : r ∈ p.destroy)
    (hid : r.identifier = some id) (ht : t ∈ s.resources) (href : id ∈ t.references) :
    t ∈ p.destroy := by
  by_contra hkeep
  have hmem := ((h.mem_destroy r).1 hr).1
  obtain ⟨j, hj⟩ := hs.identified t ht
  have hw := h.neat_kept.wanted j t ⟨⟨ht, hj⟩, hkeep⟩
  rcases hw.references (Resource.references_bare t ▸ href) with rfl | ⟨u, q, hq, -⟩
  · exact hlb r hmem hid
  · cases hs.eq_of_identifier hmem hq.1.1 (hid.trans hq.1.2.symm)
    exact hq.2 hr

theorem map_identifier_destroy_nodup (h : l.Planned s p backends frontends) (hs : s.Classified) :
    (p.destroy.map Resource.identifier).Nodup := by
  refine List.Nodup.map_on (fun r hr q hq heq => ?_) h.destroy_nodup
  exact hs.eq_of_identifier ((h.mem_destroy r).1 hr).1 ((h.mem_destroy q).1 hq).1 heq

theorem kept_of_destroy_eq_nil (hd : p.destroy = []) (hr : s.holding id r) : kept s p id r :=
  ⟨hr, by simp [hd]⟩

theorem neat_of_destroy_eq_nil (h : l.Planned s p backends frontends) (hd : p.destroy = []) :
    l.Neat s.holding where
  wanted _ _ hr := (h.neat_kept.wanted _ _ (kept_of_destroy_eq_nil hd hr)).mono kept_within
  unique r i j := by
    rintro ⟨q, hq, hqr⟩ ⟨q', hq', hqr'⟩
    exact h.neat_kept.unique r i j ⟨q, kept_of_destroy_eq_nil hd hq, hqr⟩
      ⟨q', kept_of_destroy_eq_nil hd hq', hqr'⟩

/-- In a neat snapshot the only resource that is like a target is kept for it. -/
theorem kept?_of_neat (hs : s.Classified) (hn : l.Neat s.holding) (hr : s.holding id r)
    (hb : r.bare = t.bare) : s.kept? t = some r := by
  obtain ⟨q, hq⟩ := Snapshot.exists_kept? hr.1 hb
  have hmem := Snapshot.mem_of_kept? hq
  obtain ⟨j, hj⟩ := hs.identified q hmem
  have hji := hn.unique t.bare j id ⟨q, ⟨hmem, hj⟩, Snapshot.bare_of_kept? hq⟩ ⟨r, hr, hb⟩
  rw [hq, hs.eq_of_identifier hmem hr.1 (hj.trans (hji ▸ hr.2.symm))]

theorem backends_get?_of_neat (h : l.Planned s p backends frontends) (hs : s.Classified)
    (hn : l.Neat s.holding) (hp : port ∈ l.service.ports.keys)
    (hb : s.holding.Has (.backend (l.backend port)) id) : backends.get? port = some id := by
  obtain ⟨q, hq, hqb⟩ := hb
  exact h.backends_get?_eq_some_iff.2 ⟨hp, q, kept?_of_neat hs hn hq hqb, hq.2⟩

theorem mem_targets_iff_of_neat (h : l.Planned s p backends frontends) (hs : s.Classified)
    (hn : l.Neat s.holding) : t ∈ l.targets backends frontends ↔ l.Wants s.holding t := by
  constructor
  · exact fun ht => (h.wants_of_mem_targets ht).mono kept_within
  · intro hw
    cases hw with
    | backend hp => exact backend_mem_targets_of_mem_keys hp
    | frontend hp hb => exact h.frontend_mem_targets_of_get? (h.backends_get?_of_neat hs hn hp hb)
    | bind hp ha hb hf =>
      have hb := h.backends_get?_of_neat hs hn (OrderedMap.mem_keys_of_get? hp) hb
      obtain ⟨q, hq, hqf⟩ := hf
      have hf := h.frontends_get?_eq_some_iff.2 ⟨_, hb, q, kept?_of_neat hs hn hq hqf, hq.2⟩
      exact bind_mem_targets.2 (mem_binds_iff.2 ⟨_, _, _, hp, hf, _, ha, rfl⟩)
    | server hp he hb =>
      have hb := h.backends_get?_of_neat hs hn (OrderedMap.mem_keys_of_get? hp) hb
      exact server_mem_targets.2 (mem_servers_iff.2 ⟨_, _, _, hp, hb, _, he, rfl⟩)

/-- Nothing is destroyed if everything is wanted, and nothing is there twice. -/
theorem destroy_eq_nil_iff (h : l.Planned s p backends frontends) (hs : s.Classified) :
    p.destroy = [] ↔ l.Neat s.holding := by
  refine ⟨h.neat_of_destroy_eq_nil, fun hn => List.eq_nil_iff_forall_not_mem.2 fun r hr => ?_⟩
  obtain ⟨hmem, hnone⟩ := (h.mem_destroy r).1 hr
  obtain ⟨id, hid⟩ := hs.identified r hmem
  have ht := (h.mem_targets_iff_of_neat hs hn).2 (hn.wanted id r ⟨hmem, hid⟩)
  exact hnone _ ht (kept?_of_neat hs hn ⟨hmem, hid⟩ (Resource.bare_bare r).symm)

/-- What is created is wanted, and nothing that is there is like it. -/
theorem mem_create_iff_of_neat (h : l.Planned s p backends frontends) (hs : s.Classified)
    (hn : l.Neat s.holding) :
    r ∈ p.create ↔ l.Wants s.holding r ∧ ∀ id, ¬ s.holding.Has r id := by
  rw [h.mem_create, h.mem_targets_iff_of_neat hs hn]
  refine and_congr_right fun _ => ⟨?_, ?_⟩
  · rintro hno id ⟨q, hq, hqr⟩
    exact hno q hq.1 hqr
  · intro hno q hq hqr
    obtain ⟨id, hid⟩ := hs.identified q hq
    exact hno id ⟨q, ⟨hq, hid⟩, hqr⟩

end Layout.Planned

theorem Inventory.holding_shareSnapshot {v : Inventory} {tag : Tag} {lb id : Identifier}
    {r : Resource} (hv : v.Stored) :
    (v.shareSnapshot tag lb).holding id r ↔ v.Owns tag lb id r := by
  rw [Snapshot.holding, mem_share_resources_iff hv]
  constructor
  · rintro ⟨⟨j, hj, ho⟩, hid⟩
    cases hj.symm.trans hid
    exact ho
  · exact fun ho => ⟨⟨id, hv id r ho.1, ho⟩, hv id r ho.1⟩

namespace Layout

variable {l : Layout} {s : Snapshot} {p : Plan} {backends frontends : Resolved}

theorem backend_injective {port port' : String} (h : l.backend port = l.backend port') :
    port = port' := Service.resourceName_injective (congrArg Backend.name h)

theorem map_bare_nodup {α : Type} [Comparable α] {targets : List α}
    (hb : ∀ t ∈ targets, bare t = t) (hn : targets.Nodup) : (targets.map bare).Nodup := by
  rwa [List.map_congr_left hb, List.map_id']

theorem backends_nodup : (l.backends.map (·.2)).Nodup := by
  have h : l.backends.map (·.2) = l.service.ports.keys.map l.backend := by
    simp [backends, Function.comp_def]
  rw [h]
  exact l.service.ports.keys_nodup.map fun _ _ => backend_injective

theorem frontends_nodup : ((l.frontends backends).map (·.2)).Nodup := by
  rw [Layout.frontends, List.map_filterMap]
  refine l.service.ports.keys_nodup.filterMap fun port port' t ht ht' => ?_
  simp only [Option.map_map, Option.mem_def, Option.map_eq_some_iff, Function.comp_apply] at ht ht'
  obtain ⟨_, -, rfl⟩ := ht
  obtain ⟨_, -, ht'⟩ := ht'
  exact Service.resourceName_injective (congrArg Frontend.name ht'.symm)

/-- What comes from different ports differs, and so does what comes from one port. -/
theorem flatMap_ports_nodup {α : Type} {f : String × Port → List α}
    (hone : ∀ e ∈ l.service.ports.entries, (f e).Nodup)
    (hname : ∀ e ∈ l.service.ports.entries, ∀ e' ∈ l.service.ports.entries, ∀ a ∈ f e, a ∈ f e' →
      e.1 = e'.1) :
    (l.service.ports.entries.flatMap f).Nodup := by
  refine List.nodup_flatMap.2 ⟨hone, l.service.ports.increasing.imp_of_mem fun he he' hlt => ?_⟩
  intro a ha ha'
  exact OrderedMap.ne_of_lt hlt (hname _ he _ he' a ha ha')

theorem binds_nodup (ha : l.service.externalAddresses.Nodup) : (l.binds frontends).Nodup := by
  apply flatMap_ports_nodup
  · rintro ⟨name, port⟩ -
    dsimp only
    split
    · exact .nil
    · exact ha.map fun _ _ h => congrArg Bind.address h
  · rintro ⟨name, port⟩ - ⟨name', port'⟩ - t ht ht'
    dsimp only at ht ht'
    split at ht <;> split at ht' <;> simp only [List.not_mem_nil, List.mem_map] at ht ht'
    obtain ⟨address, -, rfl⟩ := ht
    obtain ⟨address', -, h⟩ := ht'
    have haddress : address' = address := congrArg Bind.address h
    subst haddress
    exact Service.resourceName_injective (congrArg Bind.name h.symm)

theorem servers_nodup (he : l.service.endpoints.Nodup)
    (hinj : ∀ p q id, backends.get? p = some id → backends.get? q = some id → p = q) :
    (l.servers backends).Nodup := by
  apply flatMap_ports_nodup
  · rintro ⟨name, port⟩ -
    dsimp only
    split
    · exact .nil
    · refine he.map fun endpoint endpoint' h => ?_
      have hname := Service.resourceName_injective (congrArg Server.name h)
      have haddress : endpoint.address = endpoint'.address := congrArg Server.ip h
      cases endpoint
      cases endpoint'
      simp_all
  · rintro ⟨name, port⟩ - ⟨name', port'⟩ - t ht ht'
    dsimp only at ht ht'
    split at ht <;> split at ht' <;> simp only [List.not_mem_nil, List.mem_map] at ht ht'
    next _ id hid _ id' hid' =>
      obtain ⟨_, -, rfl⟩ := ht
      obtain ⟨_, -, h⟩ := ht'
      have hbackend : id' = id := congrArg Server.backend h
      subst hbackend
      exact hinj _ _ _ hid hid'

/-- Different ports are served by different backends. -/
theorem resolved_injective (hs : s.Classified) (hr : resolve s.backends l.backends = .ok backends)
    (port port' : String) (id : Identifier) (h : backends.get? port = some id)
    (h' : backends.get? port' = some id) : port = port' := by
  rw [resolve_get?_eq_some_iff ports_backends_nodup hr] at h h'
  obtain ⟨t, b, ht, hb, hid⟩ := h
  obtain ⟨t', b', ht', hb', hid'⟩ := h'
  obtain ⟨-, rfl⟩ := mem_backends_iff.1 ht
  obtain ⟨-, rfl⟩ := mem_backends_iff.1 ht'
  have hbb := hs.eq_of_identifier (Snapshot.backend_mem_resources.2 (mem_of_findMatch? hb))
    (Snapshot.backend_mem_resources.2 (mem_of_findMatch? hb')) (hid.trans hid'.symm)
  cases hbb
  exact backend_injective ((bare_of_findMatch? hb).trans (bare_of_findMatch? hb').symm)

/-- A snapshot in which everything is ready can be planned for, unless an address or an endpoint is
there twice. -/
theorem exists_plan (hs : s.Classified) (ha : l.service.externalAddresses.Nodup)
    (he : l.service.endpoints.Nodup) : ∃ p, l.planReady s = .ok p := by
  have hidb : ∀ b ∈ s.backends, ∃ id, b.identifier = some id :=
    fun b hb => hs.identified _ (Snapshot.backend_mem_resources.2 hb)
  have hidf : ∀ f ∈ s.frontends, ∃ id, f.identifier = some id :=
    fun f hf => hs.identified _ (Snapshot.frontend_mem_resources.2 hf)
  obtain ⟨B, hB⟩ := exists_resolve hidb l.backends
  obtain ⟨F, hF⟩ := exists_resolve hidf (l.frontends B)
  have hnb := map_bare_nodup (fun _ => bare_of_mem_backends) l.backends_nodup
  have hnf : (((l.frontends B).map (·.2)).map bare).Nodup :=
    map_bare_nodup (fun _ => bare_of_mem_frontends) l.frontends_nodup
  have hni : ((l.binds F).map bare).Nodup :=
    map_bare_nodup (fun _ => bare_of_mem_binds) (binds_nodup ha)
  have hnv := map_bare_nodup (fun _ => bare_of_mem_servers)
    (servers_nodup he (resolved_injective hs hB))
  exact ⟨_, planReady_eq_ok_iff.2 ⟨_, B, _, F, _, _, between_eq_ok_iff.2 ⟨hnb, rfl⟩, hB,
    between_eq_ok_iff.2 ⟨hnf, rfl⟩, hF, between_eq_ok_iff.2 ⟨hni, rfl⟩,
    between_eq_ok_iff.2 ⟨hnv, rfl⟩, rfl⟩⟩

/-- All that is wanted in the end, when `identifier` tells the identifiers of the objects. -/
def complete (l : Layout) (identifier : Resource → Identifier) : List Resource :=
  let backend (port : String) := identifier (.backend (l.backend port))
  let frontend (port : String) := identifier (.frontend (l.frontend port (backend port)))
  l.service.ports.keys.map (fun port => .backend (l.backend port))
    ++ l.service.ports.keys.map (fun port => .frontend (l.frontend port (backend port)))
    ++ l.service.ports.entries.flatMap (fun (name, port) => l.service.externalAddresses.map
        fun address => .bind (l.bind name port.external (frontend name) address))
    ++ l.service.ports.entries.flatMap (fun (name, port) => l.service.endpoints.map
        fun endpoint => .server (l.server name port.internal (backend name) endpoint))

/-- The objects that serve the service: a backend and a frontend for each port, a bind for each port
and external address, and a server for each port and endpoint. All of them are ready. -/
def deployed (l : Layout) (identifier : Resource → Identifier) : List Resource :=
  (l.complete identifier).map fun t => (t.withIdentifier (identifier t)).withStatus (.ready false)

theorem length_deployed (identifier : Resource → Identifier) :
    (l.deployed identifier).length = l.service.ports.keys.length + l.service.ports.keys.length
      + l.service.ports.keys.length * l.service.externalAddresses.length
      + l.service.ports.keys.length * l.service.endpoints.length := by
  simp [deployed, complete, List.length_flatMap, OrderedMap.keys, Nat.add_assoc]

/-- What carries the tag of the service and belongs to the load balancer are the objects that serve
the service, and nothing else. -/
def Serves (l : Layout) (v : Inventory) : Prop :=
  ∃ identifier,
    ((v.share l.service.tag l.loadBalancer).map (·.2)).Perm (l.deployed identifier)

namespace Planned

variable {port : String} {t : Resource}

theorem exists_kept?_of_create_eq_nil (h : l.Planned s p backends frontends)
    (hc : p.create = []) (ht : t ∈ l.targets backends frontends) : ∃ r, s.kept? t = some r := by
  have hno := mt (h.mem_create t).2 (by simp [hc])
  push Not at hno
  obtain ⟨q, hq, hqt⟩ := hno ht
  exact Snapshot.exists_kept? hq (hqt.trans (bare_of_mem_targets ht).symm)

def keptIdentifier (s : Snapshot) (t : Resource) : Identifier :=
  ((s.kept? t).bind Resource.identifier).getD ⟨""⟩

theorem keptIdentifier_eq {r : Resource} {id : Identifier} (hk : s.kept? t = some r)
    (hid : r.identifier = some id) : keptIdentifier s t = id := by
  rw [keptIdentifier, hk, Option.bind_some, hid, Option.getD_some]

theorem backends_get?_of_create_eq_nil (h : l.Planned s p backends frontends) (hs : s.Classified)
    (hc : p.create = []) (hp : port ∈ l.service.ports.keys) :
    backends.get? port = some (keptIdentifier s (.backend (l.backend port))) := by
  obtain ⟨r, hr⟩ := h.exists_kept?_of_create_eq_nil hc (backend_mem_targets_of_mem_keys hp)
  obtain ⟨id, hid⟩ := hs.identified r (Snapshot.mem_of_kept? hr)
  exact h.backends_get?_eq_some_iff.2 ⟨hp, r, hr, hid.trans (keptIdentifier_eq hr hid ▸ rfl)⟩

theorem frontends_get?_of_create_eq_nil (h : l.Planned s p backends frontends)
    (hs : s.Classified) (hc : p.create = []) (hp : port ∈ l.service.ports.keys) :
    frontends.get? port = some (keptIdentifier s
      (.frontend (l.frontend port (keptIdentifier s (.backend (l.backend port)))))) := by
  have hb := h.backends_get?_of_create_eq_nil hs hc hp
  obtain ⟨r, hr⟩ := h.exists_kept?_of_create_eq_nil hc (h.frontend_mem_targets_of_get? hb)
  obtain ⟨id, hid⟩ := hs.identified r (Snapshot.mem_of_kept? hr)
  exact h.frontends_get?_eq_some_iff.2 ⟨_, hb, r, hr, hid.trans (keptIdentifier_eq hr hid ▸ rfl)⟩

theorem complete_eq_targets (h : l.Planned s p backends frontends) (hs : s.Classified)
    (hc : p.create = []) : l.complete (keptIdentifier s) = l.targets backends frontends := by
  have hb (port : String) (hp : port ∈ l.service.ports.keys) :=
    h.backends_get?_of_create_eq_nil hs hc hp
  have hf (port : String) (hp : port ∈ l.service.ports.keys) :=
    h.frontends_get?_of_create_eq_nil hs hc hp
  have hkeys (e : String × Port) (he : e ∈ l.service.ports.entries) :
      e.1 ∈ l.service.ports.keys := List.mem_map.2 ⟨e, he, rfl⟩
  rw [complete, targets]
  congr 1
  · congr 1
    · congr 1
      · simp [Layout.backends, Function.comp_def]
      · rw [Layout.frontends, List.map_filterMap, ← List.filterMap_eq_map]
        refine List.filterMap_congr fun port hp => ?_
        rw [hb port hp]
        rfl
    · rw [Layout.binds, List.map_flatMap]
      refine List.flatMap_congr fun e he => ?_
      obtain ⟨name, port⟩ := e
      dsimp only
      rw [hf name (hkeys _ he), List.map_map]
      rfl
  · rw [Layout.servers, List.map_flatMap]
    refine List.flatMap_congr fun e he => ?_
    obtain ⟨name, port⟩ := e
    dsimp only
    rw [hb name (hkeys _ he), List.map_map]
    rfl

/-- If there is nothing to do, what is there is what is wanted in the end. -/
theorem perm_complete (h : l.Planned s p backends frontends) (hs : s.Classified)
    (hp : p.isEmpty = true) :
    (s.resources.map fun r => (r.identifier, r.bare)).Perm
      ((l.complete (keptIdentifier s)).map fun t => (some (keptIdentifier s t), t)) := by
  obtain ⟨hc, hd⟩ : p.create = [] ∧ p.destroy = [] := by
    simpa [Plan.isEmpty, List.isEmpty_iff] using hp
  have hkept {t r : Resource} (hk : s.kept? t = some r) (htb : t.bare = t) :
      (r.identifier, r.bare) = (some (keptIdentifier s t), t) := by
    obtain ⟨id, hid⟩ := hs.identified r (Snapshot.mem_of_kept? hk)
    rw [hid, keptIdentifier_eq hk hid, Snapshot.bare_of_kept? hk, htb]
  have hleft : (s.resources.map fun r => (r.identifier, r.bare)).Nodup :=
    .of_map Prod.fst (by simpa [Function.comp_def] using hs.distinct)
  rw [h.complete_eq_targets hs hc]
  have hright : ((l.targets backends frontends).map
      fun t => (some (keptIdentifier s t), t)).Nodup :=
    .of_map Prod.snd (by simpa [Function.comp_def] using h.targets_nodup)
  rw [List.perm_ext_iff_of_nodup hleft hright]
  intro e
  rw [List.mem_map, List.mem_map]
  constructor
  · rintro ⟨r, hr, rfl⟩
    obtain ⟨id, hid⟩ := hs.identified r hr
    obtain ⟨t, htm, hk⟩ := h.exists_target (kept_of_destroy_eq_nil hd ⟨hr, hid⟩)
    exact ⟨t, htm, (hkept hk (bare_of_mem_targets htm)).symm⟩
  · rintro ⟨t, htm, rfl⟩
    obtain ⟨r, hk⟩ := h.exists_kept?_of_create_eq_nil hc htm
    exact ⟨r, Snapshot.mem_of_kept? hk, hkept hk (bare_of_mem_targets htm)⟩

/-- If there is nothing to do and everything is ready, what is there is what serves the service. -/
theorem perm_deployed (h : l.Planned s p backends frontends) (hs : s.Classified)
    (hp : p.isEmpty = true)
    (hready : ∀ r ∈ s.resources, r.status = .ready false) :
    s.resources.Perm (l.deployed (keptIdentifier s)) := by
  let deploy (e : Option Identifier × Resource) : Resource :=
    (e.2.withIdentifier (e.1.getD ⟨""⟩)).withStatus (.ready false)
  have hperm := (h.perm_complete hs hp).map deploy
  rw [List.map_map, List.map_map] at hperm
  have hsame : ∀ r ∈ s.resources, (deploy ∘ fun r => (r.identifier, r.bare)) r = r := by
    intro r hr
    obtain ⟨id, hid⟩ := hs.identified r hr
    apply Resource.eq_of_bare
    · simp [deploy]
    · simp [deploy, hid]
    · simp [deploy, hready r hr]
  rwa [List.map_congr_left hsame, List.map_id'] at hperm

end Planned

theorem status_eq_ready {r : Resource} (hf : r.readiness ≠ .failed)
    (hp : r.readiness ≠ .progressing) : r.status = .ready false := by
  rw [Resource.readiness] at hf hp
  rcases h : r.status with _ | _ | _ <;> simp [h, Status.readiness] at hf hp ⊢

theorem plan_eq_ok_iff : l.plan s = .ok p ↔
    (s.failed ≠ [] ∧ p = ⟨[], s.failedWithDependents⟩) ∨
      (s.failed = [] ∧ s.progressing = [] ∧ l.planReady s = .ok p) := by
  rw [plan]
  cases hf : s.failed <;> cases hp : s.progressing <;> simp [eq_comm]

theorem failedWithDependents_ne_nil (hf : s.failed ≠ []) : s.failedWithDependents ≠ [] := by
  obtain ⟨r, rest, hr⟩ := List.exists_cons_of_ne_nil hf
  rw [Snapshot.failedWithDependents, hr, List.cons_append, Snapshot.distinct]
  split <;> simp

theorem ready_of_not_failed_of_not_progressing (hs : s.Classified) (hf : s.failed = [])
    (hp : s.progressing = []) : ∀ r ∈ s.resources, r.status = .ready false := by
  intro r hr
  apply status_eq_ready
  · exact fun h => List.not_mem_nil (hf ▸ (hs.mem_failed r).2 ⟨hr, h⟩)
  · exact fun h => List.not_mem_nil (hp ▸ (hs.mem_progressing r).2 ⟨hr, h⟩)

theorem mem_resources_of_plan {r : Resource} (hs : s.Classified) (h : l.plan s = .ok p)
    (hr : r ∈ p.destroy) : r ∈ s.resources := by
  rcases plan_eq_ok_iff.1 h with ⟨-, rfl⟩ | ⟨-, -, h⟩
  · exact hs.mem_resources_of_failedWithDependents hr
  · obtain ⟨B, F, h⟩ := exists_planned hs h
    exact ((h.mem_destroy r).1 hr).1

theorem wants_of_plan {r : Resource} (hs : s.Classified) (h : l.plan s = .ok p)
    (hr : r ∈ p.create) : l.Wants s.holding r := by
  rcases plan_eq_ok_iff.1 h with ⟨-, rfl⟩ | ⟨-, -, h⟩
  · cases hr
  · obtain ⟨B, F, h⟩ := exists_planned hs h
    exact (h.wants_of_mem_targets ((h.mem_create r).1 hr).1).mono Planned.kept_within

/-- A plan creates nothing twice, and nothing that is there. -/
theorem missing_of_plan (hs : s.Classified) (h : l.plan s = .ok p) :
    p.create.Nodup ∧ ∀ r ∈ p.create, ∀ q ∈ s.resources, q.bare ≠ r := by
  rcases plan_eq_ok_iff.1 h with ⟨-, rfl⟩ | ⟨-, -, h⟩
  · exact ⟨.nil, fun _ hr => nomatch hr⟩
  · obtain ⟨B, F, h⟩ := exists_planned hs h
    exact ⟨h.create_nodup, fun r hr => ((h.mem_create r).1 hr).2⟩

/-- If there is nothing to do, the service is served. -/
theorem serves_of_plan_isEmpty {v : Inventory} (hv : v.Stored)
    (h : l.plan (v.shareSnapshot l.service.tag l.loadBalancer) = .ok p) (hp : p.isEmpty = true) :
    l.Serves v := by
  have hs := v.shareSnapshot_classified l.service.tag l.loadBalancer hv
  rcases plan_eq_ok_iff.1 h with ⟨hf, rfl⟩ | ⟨hf, hpr, h⟩
  · have := failedWithDependents_ne_nil hf
    simp [Plan.isEmpty, this] at hp
  · obtain ⟨B, F, h⟩ := exists_planned hs h
    have hready := ready_of_not_failed_of_not_progressing hs hf hpr
    exact ⟨_, (Snapshot.resources_ofList_perm _).symm.trans (h.perm_deployed hs hp hready)⟩

end Layout

end BalancerSync
