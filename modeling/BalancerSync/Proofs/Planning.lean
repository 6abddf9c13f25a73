import BalancerSync.Proofs.Layout

namespace BalancerSync

open Comparable LawfulComparable Difference

theorem bind_eq_ok_iff {ε α β : Type} {x : Except ε α} {f : α → Except ε β} {b : β} :
    (x >>= f) = .ok b ↔ ∃ a, x = .ok a ∧ f a = .ok b := by
  cases x <;> simp [bind, Except.bind]

namespace Layout

section Resolve

variable {α : Type} [Comparable α] {present : List α} {wanted : List (String × α)}
  {resolved : Resolved} {port : String} {id : Identifier}

theorem resolve_cons_eq_ok_iff {target : α} :
    resolve present ((port, target) :: wanted) = .ok resolved ↔
      (findMatch? target present = none ∧ resolve present wanted = .ok resolved) ∨
      ∃ found id rest, findMatch? target present = some found ∧ identifier found = some id ∧
        resolve present wanted = .ok rest ∧ rest.insert port id = resolved := by
  rw [resolve]
  cases hm : findMatch? target present with
  | none => simp
  | some found =>
    cases hid : identifier found with
    | none => simp [hid]
    | some id => simp [hid, bind_eq_ok_iff, pure, Except.pure]

/-- A port resolves to the identifier of the object that is kept for it. -/
theorem resolve_get?_eq_some_iff (hp : (wanted.map (·.1)).Nodup)
    (h : resolve present wanted = .ok resolved) :
    resolved.get? port = some id ↔ ∃ target found, (port, target) ∈ wanted ∧
      findMatch? target present = some found ∧ identifier found = some id := by
  induction wanted generalizing resolved with
  | nil =>
    cases h
    simp
  | cons e wanted ih =>
    obtain ⟨name, target⟩ := e
    have hp := List.nodup_cons.1 hp
    have hother {t : α} (ht : (name, t) ∈ wanted) : False := hp.1 (List.mem_map.2 ⟨_, ht, rfl⟩)
    rcases resolve_cons_eq_ok_iff.1 h with ⟨hnone, hrest⟩ | ⟨kept, j, rest, hkept, hj, hrest, rfl⟩
    · rw [ih hp.2 hrest]
      constructor
      · rintro ⟨t, found, ht, hfound, hid⟩
        exact ⟨t, found, List.mem_cons_of_mem _ ht, hfound, hid⟩
      · rintro ⟨t, found, ht, hfound, hid⟩
        rcases List.mem_cons.1 ht with heq | ht
        · cases heq
          rw [hnone] at hfound
          cases hfound
        · exact ⟨t, found, ht, hfound, hid⟩
    · rw [OrderedMap.get?_insert]
      split
      next hname =>
        subst hname
        constructor
        · intro hjid
          cases hjid
          exact ⟨target, kept, by simp, hkept, hj⟩
        · rintro ⟨t, found, ht, hfound, hid⟩
          rcases List.mem_cons.1 ht with heq | ht
          · cases heq
            rw [hkept] at hfound
            cases hfound
            exact hj.symm.trans hid
          · exact (hother ht).elim
      next hname =>
        rw [ih hp.2 hrest]
        constructor
        · rintro ⟨t, found, ht, hfound, hid⟩
          exact ⟨t, found, List.mem_cons_of_mem _ ht, hfound, hid⟩
        · rintro ⟨t, found, ht, hfound, hid⟩
          rcases List.mem_cons.1 ht with heq | ht
          · cases heq
            exact absurd rfl hname
          · exact ⟨t, found, ht, hfound, hid⟩

theorem exists_resolve (hid : ∀ a ∈ present, ∃ id, identifier a = some id)
    (wanted : List (String × α)) : ∃ resolved, resolve present wanted = .ok resolved := by
  induction wanted with
  | nil => exact ⟨∅, rfl⟩
  | cons e wanted ih =>
    obtain ⟨rest, hrest⟩ := ih
    cases hm : findMatch? e.2 present with
    | none => exact ⟨rest, resolve_cons_eq_ok_iff.2 (.inl ⟨hm, hrest⟩)⟩
    | some found =>
      obtain ⟨id, hid⟩ := hid found (mem_of_findMatch? hm)
      exact ⟨_, resolve_cons_eq_ok_iff.2 (.inr ⟨found, id, rest, hm, hid, hrest, rfl⟩)⟩

end Resolve

variable {l : Layout} {s : Snapshot} {p : Plan} {backends frontends : Resolved}

def targets (l : Layout) (backends frontends : Resolved) : List Resource :=
  l.backends.map (fun e => .backend e.2) ++ (l.frontends backends).map (fun e => .frontend e.2)
    ++ (l.binds frontends).map .bind ++ (l.servers backends).map .server

theorem mem_backends_iff {port : String} {t : Backend} :
    (port, t) ∈ l.backends ↔ port ∈ l.service.ports.keys ∧ t = l.backend port := by
  simp only [backends, List.mem_map, Prod.mk.injEq]
  constructor
  · rintro ⟨_, hp, rfl, rfl⟩
    exact ⟨hp, rfl⟩
  · rintro ⟨hp, rfl⟩
    exact ⟨port, hp, rfl, rfl⟩

theorem mem_frontends_iff {port : String} {t : Frontend} :
    (port, t) ∈ l.frontends backends ↔ port ∈ l.service.ports.keys ∧
      ∃ id, backends.get? port = some id ∧ t = l.frontend port id := by
  simp only [Layout.frontends, List.mem_filterMap, Option.map_eq_some_iff, Prod.mk.injEq]
  constructor
  · rintro ⟨_, hp, id, hid, rfl, rfl⟩
    exact ⟨hp, id, hid, rfl⟩
  · rintro ⟨hp, id, hid, rfl⟩
    exact ⟨port, hp, id, hid, rfl, rfl⟩

theorem mem_binds_iff {t : Bind} :
    t ∈ l.binds frontends ↔ ∃ name port id, l.service.ports.get? name = some port ∧
      frontends.get? name = some id ∧
      ∃ address ∈ l.service.externalAddresses, t = l.bind name port.external id address := by
  simp only [binds, List.mem_flatMap, Prod.exists, OrderedMap.get?_eq_some_iff]
  constructor
  · rintro ⟨name, port, hp, ht⟩
    split at ht
    · simp at ht
    next id hid =>
      obtain ⟨address, ha, rfl⟩ := List.mem_map.1 ht
      exact ⟨name, port, id, hp, OrderedMap.get?_eq_some_iff.1 hid, address, ha, rfl⟩
  · rintro ⟨name, port, id, hp, hid, address, ha, rfl⟩
    refine ⟨name, port, hp, ?_⟩
    rw [OrderedMap.get?_eq_some_iff.2 hid]
    exact List.mem_map.2 ⟨address, ha, rfl⟩

theorem mem_servers_iff {t : Server} :
    t ∈ l.servers backends ↔ ∃ name port id, l.service.ports.get? name = some port ∧
      backends.get? name = some id ∧
      ∃ endpoint ∈ l.service.endpoints, t = l.server name port.internal id endpoint := by
  simp only [servers, List.mem_flatMap, Prod.exists, OrderedMap.get?_eq_some_iff]
  constructor
  · rintro ⟨name, port, hp, ht⟩
    split at ht
    · simp at ht
    next id hid =>
      obtain ⟨endpoint, he, rfl⟩ := List.mem_map.1 ht
      exact ⟨name, port, id, hp, OrderedMap.get?_eq_some_iff.1 hid, endpoint, he, rfl⟩
  · rintro ⟨name, port, id, hp, hid, endpoint, he, rfl⟩
    refine ⟨name, port, hp, ?_⟩
    rw [OrderedMap.get?_eq_some_iff.2 hid]
    exact List.mem_map.2 ⟨endpoint, he, rfl⟩

theorem ports_backends_nodup : (l.backends.map (·.1)).Nodup := by
  have h : l.backends.map (·.1) = l.service.ports.keys := by simp [backends, Function.comp_def]
  rw [h]
  exact l.service.ports.keys_nodup

theorem ports_frontends_nodup : ((l.frontends backends).map (·.1)).Nodup := by
  have h : (l.frontends backends).map (·.1) =
      l.service.ports.keys.filter fun port => (backends.get? port).isSome := by
    rw [Layout.frontends, List.map_filterMap, ← List.filterMap_eq_filter]
    congr 1
    funext port
    cases h : backends.get? port <;> simp [Option.guard, h]
  rw [h]
  exact l.service.ports.keys_nodup.filter _

@[simp] theorem backend_mem_targets {t : Backend} :
    .backend t ∈ l.targets backends frontends ↔ t ∈ l.backends.map (·.2) := by simp [targets]

@[simp] theorem frontend_mem_targets {t : Frontend} :
    .frontend t ∈ l.targets backends frontends ↔ t ∈ (l.frontends backends).map (·.2) := by
  simp [targets]

@[simp] theorem bind_mem_targets {t : Bind} :
    .bind t ∈ l.targets backends frontends ↔ t ∈ l.binds frontends := by simp [targets]

@[simp] theorem server_mem_targets {t : Server} :
    .server t ∈ l.targets backends frontends ↔ t ∈ l.servers backends := by simp [targets]

/-- Targets have no identifier, and are progressing. -/
theorem bare_of_mem_backends {t : Backend} (ht : t ∈ l.backends.map (·.2)) : bare t = t := by
  obtain ⟨⟨port, _⟩, hp, rfl⟩ := List.mem_map.1 ht
  obtain ⟨-, rfl⟩ := mem_backends_iff.1 hp
  rfl

theorem bare_of_mem_frontends {t : Frontend} (ht : t ∈ (l.frontends backends).map (·.2)) :
    bare t = t := by
  obtain ⟨⟨port, _⟩, hp, rfl⟩ := List.mem_map.1 ht
  obtain ⟨-, id, -, rfl⟩ := mem_frontends_iff.1 hp
  rfl

theorem bare_of_mem_binds {t : Bind} (ht : t ∈ l.binds frontends) : bare t = t := by
  obtain ⟨name, port, id, -, -, address, -, rfl⟩ := mem_binds_iff.1 ht
  rfl

theorem bare_of_mem_servers {t : Server} (ht : t ∈ l.servers backends) : bare t = t := by
  obtain ⟨name, port, id, -, -, endpoint, -, rfl⟩ := mem_servers_iff.1 ht
  rfl

theorem bare_of_mem_targets {t : Resource} (ht : t ∈ l.targets backends frontends) :
    t.bare = t := by
  cases t with
  | backend t => exact congrArg _ (bare_of_mem_backends (backend_mem_targets.1 ht))
  | frontend t => exact congrArg _ (bare_of_mem_frontends (frontend_mem_targets.1 ht))
  | bind t => exact congrArg _ (bare_of_mem_binds (bind_mem_targets.1 ht))
  | server t => exact congrArg _ (bare_of_mem_servers (server_mem_targets.1 ht))

end Layout

namespace Snapshot

variable {s : Snapshot} {t r : Resource}

def kept? (s : Snapshot) : Resource → Option Resource
  | .backend t => (findMatch? t s.backends).map .backend
  | .frontend t => (findMatch? t s.frontends).map .frontend
  | .bind t => (findMatch? t s.binds).map .bind
  | .server t => (findMatch? t s.servers).map .server

theorem mem_of_kept? (h : s.kept? t = some r) : r ∈ s.resources := by
  cases t <;>
  · obtain ⟨q, hq, rfl⟩ := Option.map_eq_some_iff.1 h
    simpa using mem_of_findMatch? hq

theorem bare_of_kept? (h : s.kept? t = some r) : r.bare = t.bare := by
  cases t <;>
  · obtain ⟨q, hq, rfl⟩ := Option.map_eq_some_iff.1 h
    exact (congrArg _ (bare_of_findMatch? hq)).symm

theorem exists_kept? (hr : r ∈ s.resources) (h : r.bare = t.bare) : ∃ q, s.kept? t = some q := by
  cases t <;> cases r <;> simp only [Resource.bare, reduceCtorEq] at h
  · obtain ⟨q, hq⟩ := exists_findMatch? (backend_mem_resources.1 hr) (Resource.backend.inj h).symm
    exact ⟨_, Option.map_eq_some_iff.2 ⟨q, hq, rfl⟩⟩
  · obtain ⟨q, hq⟩ := exists_findMatch? (frontend_mem_resources.1 hr) (Resource.frontend.inj h).symm
    exact ⟨_, Option.map_eq_some_iff.2 ⟨q, hq, rfl⟩⟩
  · obtain ⟨q, hq⟩ := exists_findMatch? (bind_mem_resources.1 hr) (Resource.bind.inj h).symm
    exact ⟨_, Option.map_eq_some_iff.2 ⟨q, hq, rfl⟩⟩
  · obtain ⟨q, hq⟩ := exists_findMatch? (server_mem_resources.1 hr) (Resource.server.inj h).symm
    exact ⟨_, Option.map_eq_some_iff.2 ⟨q, hq, rfl⟩⟩

/-- Only resources of its kind can be like a target. -/
theorem forall_bare_ne_iff : (∀ q ∈ s.resources, q.bare ≠ t) ↔
    match t with
    | .backend t => ∀ b ∈ s.backends, bare b ≠ t
    | .frontend t => ∀ f ∈ s.frontends, bare f ≠ t
    | .bind t => ∀ b ∈ s.binds, bare b ≠ t
    | .server t => ∀ v ∈ s.servers, bare v ≠ t := by
  cases t <;> simp [resources, or_imp, forall_and, Resource.bare, bare]

theorem forall_kept?_ne_iff {targets : List Resource} :
    (∀ t ∈ targets, s.kept? t ≠ some r) ↔
      match r with
      | .backend b => ∀ t, .backend t ∈ targets → findMatch? t s.backends ≠ some b
      | .frontend f => ∀ t, .frontend t ∈ targets → findMatch? t s.frontends ≠ some f
      | .bind b => ∀ t, .bind t ∈ targets → findMatch? t s.binds ≠ some b
      | .server v => ∀ t, .server t ∈ targets → findMatch? t s.servers ≠ some v := by
  cases r <;>
  · constructor
    · intro h t ht hm
      exact h _ ht (Option.map_eq_some_iff.2 ⟨_, hm, rfl⟩)
    · intro h t ht hk
      cases t <;> obtain ⟨q, hq, hqr⟩ := Option.map_eq_some_iff.1 hk <;> cases hqr
      exact h _ ht hq

end Snapshot

namespace Layout

variable {l : Layout} {s : Snapshot} {p : Plan} {backends frontends : Resolved}

structure Planned (l : Layout) (s : Snapshot) (p : Plan) (backends frontends : Resolved) :
    Prop where
  resolvedBackends : resolve s.backends l.backends = .ok backends
  resolvedFrontends : resolve s.frontends (l.frontends backends) = .ok frontends
  targets_nodup : (l.targets backends frontends).Nodup
  mem_create : ∀ r, r ∈ p.create ↔
    r ∈ l.targets backends frontends ∧ ∀ q ∈ s.resources, q.bare ≠ r
  mem_destroy : ∀ r, r ∈ p.destroy ↔
    r ∈ s.resources ∧ ∀ t ∈ l.targets backends frontends, s.kept? t ≠ some r
  create_nodup : p.create.Nodup
  destroy_nodup : p.destroy.Nodup

theorem mem_difference {α : Type} [Comparable α] {targets present : List α} {d : Difference α}
    (hd : Difference.between targets present = .ok d) (ht : ∀ t ∈ targets, bare t = t)
    (hp : present.Nodup) (a : α) :
    (a ∈ d.create ↔ a ∈ targets ∧ ∀ b ∈ present, bare b ≠ a) ∧
    (a ∈ d.destroy ↔ a ∈ present ∧ ∀ t ∈ targets, findMatch? t present ≠ some a) := by
  obtain ⟨hn, rfl⟩ := between_eq_ok_iff.1 hd
  refine ⟨mem_missing_iff.trans (and_congr_right fun ha => ?_), mem_leftOver_iff hn hp⟩
  rw [ht a ha]
  exact forall₂_congr fun b _ => ne_comm

theorem difference_nodup {α : Type} [Comparable α] {targets present : List α} {d : Difference α}
    (hd : Difference.between targets present = .ok d) (hp : present.Nodup) :
    d.create.Nodup ∧ d.destroy.Nodup := by
  obtain ⟨hn, rfl⟩ := between_eq_ok_iff.1 hd
  exact ⟨(hn.of_map _).filter _, hp.sublist (leftOver_sublist _ _)⟩

theorem byKind_nodup {bs : List Backend} {fs : List Frontend} {is : List Bind} {vs : List Server}
    (hb : bs.Nodup) (hf : fs.Nodup) (hi : is.Nodup) (hv : vs.Nodup) :
    (bs.map Resource.backend ++ fs.map Resource.frontend ++ is.map Resource.bind
      ++ vs.map Resource.server).Nodup := by
  have hb := hb.map fun _ _ => Resource.backend.inj
  have hf := hf.map fun _ _ => Resource.frontend.inj
  have hi := hi.map fun _ _ => Resource.bind.inj
  have hv := hv.map fun _ _ => Resource.server.inj
  refine ((hb.append hf ?_).append hi ?_).append hv ?_ <;> simp [List.disjoint_left] <;> grind

theorem planReady_eq_ok_iff : l.planReady s = .ok p ↔
    ∃ (backends : Difference Backend) (resolvedBackends : Resolved)
      (frontends : Difference Frontend) (resolvedFrontends : Resolved)
      (binds : Difference Bind) (servers : Difference Server),
      Difference.between (l.backends.map (·.2)) s.backends = .ok backends ∧
      resolve s.backends l.backends = .ok resolvedBackends ∧
      Difference.between ((l.frontends resolvedBackends).map (·.2)) s.frontends = .ok frontends ∧
      resolve s.frontends (l.frontends resolvedBackends) = .ok resolvedFrontends ∧
      Difference.between (l.binds resolvedFrontends) s.binds = .ok binds ∧
      Difference.between (l.servers resolvedBackends) s.servers = .ok servers ∧
      p = (((Plan.empty.append backends).append frontends).append binds).append servers := by
  simp only [planReady, stage, bind_eq_ok_iff, pure, Except.pure, Except.ok.injEq, Prod.exists,
    Prod.mk.injEq]
  constructor
  · rintro ⟨db, B, ⟨_, hdb, _, hB, rfl, rfl⟩, df, F, ⟨_, hdf, _, hF, rfl, rfl⟩, di, hdi, dv, hdv, rfl⟩
    exact ⟨_, _, _, _, _, _, hdb, hB, hdf, hF, hdi, hdv, rfl⟩
  · rintro ⟨db, B, df, F, di, dv, hdb, hB, hdf, hF, hdi, hdv, rfl⟩
    exact ⟨db, B, ⟨_, hdb, _, hB, rfl, rfl⟩, df, F, ⟨_, hdf, _, hF, rfl, rfl⟩, di, hdi, dv, hdv, rfl⟩

/-- What a plan creates and destroys, whatever the kind. -/
theorem exists_planned (hs : s.Classified) (h : l.planReady s = .ok p) :
    ∃ backends frontends, l.Planned s p backends frontends := by
  obtain ⟨db, B, df, F, di, dv, hdb, hB, hdf, hF, hdi, hdv, rfl⟩ := planReady_eq_ok_iff.1 h
  have hb := mem_difference hdb (fun _ => bare_of_mem_backends) hs.backends_nodup
  have hf := mem_difference hdf (fun _ => bare_of_mem_frontends) hs.frontends_nodup
  have hi := mem_difference hdi (fun _ => bare_of_mem_binds) hs.binds_nodup
  have hv := mem_difference hdv (fun _ => bare_of_mem_servers) hs.servers_nodup
  refine ⟨B, F, hB, hF, ?_, fun r => ?_, fun r => ?_, ?_, ?_⟩
  · simpa [targets, Function.comp_def] using byKind_nodup
      (between_eq_ok_iff.1 hdb).1.of_map (between_eq_ok_iff.1 hdf).1.of_map
      (between_eq_ok_iff.1 hdi).1.of_map (between_eq_ok_iff.1 hdv).1.of_map
  · rw [Snapshot.forall_bare_ne_iff]
    cases r with
    | backend t => simpa [Plan.append, Plan.empty, toResource] using (hb t).1
    | frontend t => simpa [Plan.append, Plan.empty, toResource] using (hf t).1
    | bind t => simpa [Plan.append, Plan.empty, toResource] using (hi t).1
    | server t => simpa [Plan.append, Plan.empty, toResource] using (hv t).1
  · rw [Snapshot.forall_kept?_ne_iff]
    cases r with
    | backend t => simpa [Plan.append, Plan.empty, toResource] using (hb t).2
    | frontend t => simpa [Plan.append, Plan.empty, toResource] using (hf t).2
    | bind t => simpa [Plan.append, Plan.empty, toResource] using (hi t).2
    | server t => simpa [Plan.append, Plan.empty, toResource] using (hv t).2
  · simpa [Plan.append, Plan.empty, toResource] using byKind_nodup
      (difference_nodup hdb hs.backends_nodup).1 (difference_nodup hdf hs.frontends_nodup).1
      (difference_nodup hdi hs.binds_nodup).1 (difference_nodup hdv hs.servers_nodup).1
  · simpa [Plan.append, Plan.empty, toResource] using byKind_nodup
      (difference_nodup hdb hs.backends_nodup).2 (difference_nodup hdf hs.frontends_nodup).2
      (difference_nodup hdi hs.binds_nodup).2 (difference_nodup hdv hs.servers_nodup).2

end Layout

def Snapshot.holding (s : Snapshot) : Holding := fun id r => r ∈ s.resources ∧ r.identifier = some id

namespace Layout.Planned

variable {l : Layout} {s : Snapshot} {p : Plan} {backends frontends : Resolved}
  {port : String} {id : Identifier} {r t : Resource}

def kept (s : Snapshot) (p : Plan) : Holding := fun id r => s.holding id r ∧ r ∉ p.destroy

theorem backends_get?_eq_some_iff (h : l.Planned s p backends frontends) :
    backends.get? port = some id ↔ port ∈ l.service.ports.keys ∧
      ∃ r, s.kept? (.backend (l.backend port)) = some r ∧ r.identifier = some id := by
  rw [resolve_get?_eq_some_iff ports_backends_nodup h.resolvedBackends]
  simp only [mem_backends_iff, Snapshot.kept?, Option.map_eq_some_iff]
  constructor
  · rintro ⟨t, found, ⟨hp, rfl⟩, hm, hid⟩
    exact ⟨hp, _, ⟨found, hm, rfl⟩, hid⟩
  · rintro ⟨hp, _, ⟨found, hm, rfl⟩, hid⟩
    exact ⟨_, found, ⟨hp, rfl⟩, hm, hid⟩

theorem frontends_get?_eq_some_iff (h : l.Planned s p backends frontends) :
    frontends.get? port = some id ↔ ∃ backend, backends.get? port = some backend ∧
      ∃ r, s.kept? (.frontend (l.frontend port backend)) = some r ∧ r.identifier = some id := by
  rw [resolve_get?_eq_some_iff ports_frontends_nodup h.resolvedFrontends]
  simp only [mem_frontends_iff, Snapshot.kept?, Option.map_eq_some_iff]
  constructor
  · rintro ⟨t, found, ⟨-, b, hb, rfl⟩, hm, hid⟩
    exact ⟨b, hb, _, ⟨found, hm, rfl⟩, hid⟩
  · rintro ⟨b, hb, _, ⟨found, hm, rfl⟩, hid⟩
    exact ⟨_, found, ⟨(h.backends_get?_eq_some_iff.1 hb).1, b, hb, rfl⟩, hm, hid⟩

theorem kept_of_kept? (h : l.Planned s p backends frontends)
    (ht : t ∈ l.targets backends frontends) (hk : s.kept? t = some r)
    (hid : r.identifier = some id) : kept s p id r :=
  ⟨⟨Snapshot.mem_of_kept? hk, hid⟩, fun hd => ((h.mem_destroy r).1 hd).2 t ht hk⟩

theorem exists_target (h : l.Planned s p backends frontends) (hr : kept s p id r) :
    ∃ t ∈ l.targets backends frontends, s.kept? t = some r := by
  have hd := mt (h.mem_destroy r).2 hr.2
  push Not at hd
  exact hd hr.1.1

theorem backend_mem_targets_of_mem_keys (hp : port ∈ l.service.ports.keys) :
    .backend (l.backend port) ∈ l.targets backends frontends :=
  backend_mem_targets.2 (List.mem_map.2 ⟨_, mem_backends_iff.2 ⟨hp, rfl⟩, rfl⟩)

theorem frontend_mem_targets_of_get? (h : l.Planned s p backends frontends)
    (hb : backends.get? port = some id) :
    .frontend (l.frontend port id) ∈ l.targets backends frontends :=
  frontend_mem_targets.2 (List.mem_map.2
    ⟨_, mem_frontends_iff.2 ⟨(h.backends_get?_eq_some_iff.1 hb).1, id, hb, rfl⟩, rfl⟩)

theorem kept_backend (h : l.Planned s p backends frontends) (hb : backends.get? port = some id) :
    (kept s p).Has (.backend (l.backend port)) id := by
  obtain ⟨hp, r, hk, hid⟩ := h.backends_get?_eq_some_iff.1 hb
  exact ⟨r, h.kept_of_kept? (backend_mem_targets_of_mem_keys hp) hk hid, Snapshot.bare_of_kept? hk⟩

theorem kept_frontend (h : l.Planned s p backends frontends)
    (hf : frontends.get? port = some id) : ∃ backend, backends.get? port = some backend ∧
      (kept s p).Has (.frontend (l.frontend port backend)) id := by
  obtain ⟨b, hb, r, hk, hid⟩ := h.frontends_get?_eq_some_iff.1 hf
  exact ⟨b, hb, r, h.kept_of_kept? (h.frontend_mem_targets_of_get? hb) hk hid,
    Snapshot.bare_of_kept? hk⟩

theorem wants_of_mem_targets (h : l.Planned s p backends frontends)
    (ht : t ∈ l.targets backends frontends) : l.Wants (kept s p) t := by
  cases t with
  | backend t =>
    obtain ⟨⟨port, _⟩, hmem, rfl⟩ := List.mem_map.1 (backend_mem_targets.1 ht)
    obtain ⟨hp, rfl⟩ := mem_backends_iff.1 hmem
    exact .backend hp
  | frontend t =>
    obtain ⟨⟨port, _⟩, hmem, rfl⟩ := List.mem_map.1 (frontend_mem_targets.1 ht)
    obtain ⟨hp, b, hb, rfl⟩ := mem_frontends_iff.1 hmem
    exact .frontend hp (h.kept_backend hb)
  | bind t =>
    obtain ⟨name, port, f, hp, hf, address, ha, rfl⟩ := mem_binds_iff.1 (bind_mem_targets.1 ht)
    obtain ⟨b, hb, hf⟩ := h.kept_frontend hf
    exact .bind hp ha (h.kept_backend hb) hf
  | server t =>
    obtain ⟨name, port, b, hp, hb, endpoint, he, rfl⟩ :=
      mem_servers_iff.1 (server_mem_targets.1 ht)
    exact .server hp he (h.kept_backend hb)

theorem neat_kept (h : l.Planned s p backends frontends) : l.Neat (kept s p) where
  wanted id r hr := by
    obtain ⟨t, ht, hk⟩ := h.exists_target hr
    rw [Snapshot.bare_of_kept? hk, bare_of_mem_targets ht]
    exact h.wants_of_mem_targets ht
  unique r i j hi hj := by
    obtain ⟨q, hq, hqr⟩ := hi
    obtain ⟨q', hq', hqr'⟩ := hj
    obtain ⟨t, ht, hk⟩ := h.exists_target hq
    obtain ⟨t', ht', hk'⟩ := h.exists_target hq'
    have htt : t = t' := calc
      t = q.bare := by rw [Snapshot.bare_of_kept? hk, bare_of_mem_targets ht]
      _ = q'.bare := hqr.trans hqr'.symm
      _ = t' := by rw [Snapshot.bare_of_kept? hk', bare_of_mem_targets ht']
    subst htt
    cases Option.some.inj (hk.symm.trans hk')
    exact Option.some.inj (hq.1.2.symm.trans hq'.1.2)

end Layout.Planned

end BalancerSync
