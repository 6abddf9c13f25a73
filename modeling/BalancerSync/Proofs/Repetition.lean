import BalancerSync.Proofs.FixedPoint
import BalancerSync.Proofs.Matching

namespace BalancerSync

open Comparable Difference

namespace Difference

variable {α : Type} [Comparable α] {targets : List α}

/-- Targets that are alike are all that a comparison fails for. -/
theorem between_of_not_nodup (h : ¬ (targets.map bare).Nodup) (present : List α) :
    ∃ name, between targets present = .error (.duplicateResource (kind α) name) := by
  cases hr : repeated? [] targets with
  | none => exact absurd ((repeated?_eq_none_iff [] targets).1 hr).1 h
  | some t => exact ⟨Comparable.name t, by rw [between, hr]⟩

end Difference

namespace Layout

variable {l : Layout} {s : Snapshot} {backends frontends : Resolved} {port port' : String}
  {id : Identifier}

def FindsBackend (l : Layout) (s : Snapshot) (port : String) (id : Identifier) : Prop :=
  ∃ b, findMatch? (l.backend port) s.backends = some b ∧ b.identifier = some id

/-- The frontend that is found for the port is there under the identifier. It sends its traffic to the
backend that is found. -/
def FindsFrontend (l : Layout) (s : Snapshot) (port : String) (id : Identifier) : Prop :=
  ∃ backend, l.FindsBackend s port backend ∧
    ∃ f, findMatch? (l.frontend port backend) s.frontends = some f ∧ f.identifier = some id

theorem backends_get?_iff_finds (hB : resolve s.backends l.backends = .ok backends) :
    backends.get? port = some id ↔ port ∈ l.service.ports.keys ∧ l.FindsBackend s port id := by
  rw [resolve_get?_eq_some_iff ports_backends_nodup hB]
  simp only [mem_backends_iff, FindsBackend]
  constructor
  · rintro ⟨_, b, ⟨hp, rfl⟩, hb, hid⟩
    exact ⟨hp, b, hb, hid⟩
  · rintro ⟨hp, b, hb, hid⟩
    exact ⟨_, b, ⟨hp, rfl⟩, hb, hid⟩

theorem frontends_get?_iff_finds (hB : resolve s.backends l.backends = .ok backends)
    (hF : resolve s.frontends (l.frontends backends) = .ok frontends) :
    frontends.get? port = some id ↔ port ∈ l.service.ports.keys ∧ l.FindsFrontend s port id := by
  rw [resolve_get?_eq_some_iff ports_frontends_nodup hF]
  simp only [mem_frontends_iff, backends_get?_iff_finds hB, FindsFrontend]
  constructor
  · rintro ⟨_, f, ⟨hp, backend, ⟨-, hb⟩, rfl⟩, hf, hid⟩
    exact ⟨hp, backend, hb, f, hf, hid⟩
  · rintro ⟨hp, backend, hb, f, hf, hid⟩
    exact ⟨_, f, ⟨hp, backend, ⟨hp, hb⟩, rfl⟩, hf, hid⟩

/-- Nothing that is wanted for one port is like what is wanted for the other one. -/
structure ToldApart (l : Layout) (s : Snapshot) (port port' : String) : Prop where
  backend : bare (l.backend port) ≠ bare (l.backend port')
  frontend : ∀ b b', bare (l.frontend port b) ≠ bare (l.frontend port' b')
  bind : ∀ e e' f f' a a', bare (l.bind port e f a) ≠ bare (l.bind port' e' f' a')
  /-- The names of servers may be the same. -/
  server : ∀ b b', l.FindsBackend s port b → l.FindsBackend s port' b' →
    ∀ i i' e e', bare (l.server port i b e) ≠ bare (l.server port' i' b' e')

theorem frontend_port_eq {b b' : Identifier} (h : l.frontend port b = l.frontend port' b') :
    port = port' := Service.resourceName_injective (congrArg Frontend.name h)

/-- Binds that are alike have one address, so that their names end alike. -/
theorem bind_port_eq {e e' : UInt16} {f f' : Identifier} {a a' : Address}
    (h : l.bind port e f a = l.bind port' e' f' a') : port = port' := by
  have ha : a = a' := congrArg Bind.address h
  subst ha
  exact Service.resourceName_injective (congrArg Bind.name h)

theorem FindsBackend.port_eq (hs : s.Classified) (h : l.FindsBackend s port id)
    (h' : l.FindsBackend s port' id) : port = port' := by
  obtain ⟨b, hb, hid⟩ := h
  obtain ⟨b', hb', hid'⟩ := h'
  have hbb := hs.eq_of_identifier (Snapshot.backend_mem_resources.2 (mem_of_findMatch? hb))
    (Snapshot.backend_mem_resources.2 (mem_of_findMatch? hb')) (hid.trans hid'.symm)
  cases hbb
  exact backend_injective ((bare_of_findMatch? hb).trans (bare_of_findMatch? hb').symm)

theorem toldApart (hs : s.Classified) (hne : port ≠ port') : l.ToldApart s port port' where
  backend h := hne (backend_injective h)
  frontend _ _ h := hne (frontend_port_eq h)
  bind _ _ _ _ _ _ h := hne (bind_port_eq h)
  server b b' hb hb' i i' e e' h := by
    have hbb : b = b' := congrArg Server.backend h
    subst hbb
    exact hne (hb.port_eq hs hb')

/-- An address is there twice, and a frontend to bind it on. -/
def RepeatsBind (l : Layout) (s : Snapshot) : Prop :=
  ¬ l.service.externalAddresses.Nodup ∧ ∃ port ∈ l.service.ports.keys, ∃ id, l.FindsFrontend s port id

/-- An endpoint is there twice, and a backend to put it in. -/
def RepeatsServer (l : Layout) (s : Snapshot) : Prop :=
  ¬ l.service.endpoints.Nodup ∧ ∃ port ∈ l.service.ports.keys, ∃ id, l.FindsBackend s port id

/-- What is wanted on each object that is found is there twice as soon as one is found. -/
theorem perPort_nodup_iff {α β : Type} {resolved : Resolved} {xs : List α}
    {f : String → Port → Identifier → α → β} {ts : List β}
    (hts : ts = l.service.ports.entries.flatMap fun (name, port) =>
      match resolved.get? name with
      | none => []
      | some id => xs.map (f name port id))
    (honce : xs.Nodup → ts.Nodup) :
    ts.Nodup ↔ xs.Nodup ∨ ∀ port ∈ l.service.ports.keys, resolved.get? port = none := by
  constructor
  · intro hn
    by_contra h
    obtain ⟨hrepeated, hfound⟩ := not_or.1 h
    push Not at hfound
    obtain ⟨name, hname, hfound⟩ := hfound
    obtain ⟨id, hid⟩ := Option.ne_none_iff_exists'.1 hfound
    obtain ⟨port, hport⟩ := OrderedMap.mem_keys_iff.1 hname
    rw [hts] at hn
    have hone := (List.nodup_flatMap.1 hn).1 _ (OrderedMap.get?_eq_some_iff.1 hport)
    simp only [hid] at hone
    exact hrepeated hone.of_map
  · rintro (hx | hnone)
    · exact honce hx
    · have hnil : ts = [] := by
        rw [hts]
        apply List.flatMap_eq_nil_iff.2
        rintro ⟨name, port⟩ he
        simp only [hnone name (List.mem_map.2 ⟨_, he, rfl⟩)]
      rw [hnil]
      exact .nil

theorem not_nodup_binds_iff (hB : resolve s.backends l.backends = .ok backends)
    (hF : resolve s.frontends (l.frontends backends) = .ok frontends) :
    ¬ ((l.binds frontends).map bare).Nodup ↔ l.RepeatsBind s := by
  have hbare : (l.binds frontends).map bare = l.binds frontends :=
    (List.map_congr_left fun _ => bare_of_mem_binds).trans (List.map_id' _)
  have hiff : (l.binds frontends).Nodup ↔ l.service.externalAddresses.Nodup ∨
      ∀ port ∈ l.service.ports.keys, frontends.get? port = none :=
    perPort_nodup_iff (f := fun name port => l.bind name port.external) rfl binds_nodup
  rw [hbare, hiff, not_or, RepeatsBind]
  push Not
  simp only [Option.ne_none_iff_exists', frontends_get?_iff_finds hB hF]
  refine and_congr_right fun _ => exists_congr fun port => and_congr_right fun hp => ?_
  simp only [hp, true_and]

theorem not_nodup_servers_iff (hs : s.Classified)
    (hB : resolve s.backends l.backends = .ok backends) :
    ¬ ((l.servers backends).map bare).Nodup ↔ l.RepeatsServer s := by
  have hbare : (l.servers backends).map bare = l.servers backends :=
    (List.map_congr_left fun _ => bare_of_mem_servers).trans (List.map_id' _)
  have hiff : (l.servers backends).Nodup ↔ l.service.endpoints.Nodup ∨
      ∀ port ∈ l.service.ports.keys, backends.get? port = none :=
    perPort_nodup_iff (f := fun name port => l.server name port.internal) rfl fun he =>
      servers_nodup he (resolved_injective hs hB)
  rw [hbare, hiff, not_or, RepeatsServer]
  push Not
  simp only [Option.ne_none_iff_exists', backends_get?_iff_finds hB]
  refine and_congr_right fun _ => exists_congr fun port => and_congr_right fun hp => ?_
  simp only [hp, true_and]

theorem stage_eq_ok {α : Type} [Comparable α] {wanted : List (String × α)} {present : List α}
    {resolved : Resolved} (hn : ((wanted.map (·.2)).map bare).Nodup)
    (hr : resolve present wanted = .ok resolved) : ∃ d, stage wanted present = .ok (d, resolved) := by
  refine ⟨⟨missing (wanted.map (·.2)) present, leftOver (wanted.map (·.2)) present⟩, ?_⟩
  rw [stage, between_eq_ok_iff.2 ⟨hn, rfl⟩, hr]
  rfl

/-- Backends and frontends can always be compared. Whether planning fails is up to the binds, and
then to the servers. -/
theorem exists_planReady_eq (hs : s.Classified) : ∃ backends frontends,
    resolve s.backends l.backends = .ok backends ∧
    resolve s.frontends (l.frontends backends) = .ok frontends ∧
    ∃ p : Plan, l.planReady s = do
      let binds ← between (l.binds frontends) s.binds
      let servers ← between (l.servers backends) s.servers
      return (p.append binds).append servers := by
  have hidb : ∀ b ∈ s.backends, ∃ id, b.identifier = some id :=
    fun b hb => hs.identified _ (Snapshot.backend_mem_resources.2 hb)
  have hidf : ∀ f ∈ s.frontends, ∃ id, f.identifier = some id :=
    fun f hf => hs.identified _ (Snapshot.frontend_mem_resources.2 hf)
  obtain ⟨B, hB⟩ := exists_resolve hidb l.backends
  obtain ⟨F, hF⟩ := exists_resolve hidf (l.frontends B)
  obtain ⟨db, hb⟩ := stage_eq_ok (map_bare_nodup (fun _ => bare_of_mem_backends) backends_nodup) hB
  obtain ⟨df, hf⟩ := stage_eq_ok (map_bare_nodup (fun _ => bare_of_mem_frontends) frontends_nodup) hF
  refine ⟨B, F, hB, hF, (Plan.empty.append db).append df, ?_⟩
  simp only [planReady, hb, Bind.bind, Except.bind, hf]

/-- What planning comes to, if everything in the snapshot has an identifier of its own. -/
theorem planReady_of_classified (hs : s.Classified) :
    (l.RepeatsBind s → ∃ name, l.planReady s = .error (.duplicateResource .bind name)) ∧
    (¬ l.RepeatsBind s → l.RepeatsServer s →
      ∃ name, l.planReady s = .error (.duplicateResource .server name)) ∧
    (¬ l.RepeatsBind s → ¬ l.RepeatsServer s → ∃ p, l.planReady s = .ok p) := by
  obtain ⟨B, F, hB, hF, p, hplan⟩ := exists_planReady_eq (l := l) hs
  rw [hplan, ← not_nodup_binds_iff hB hF, ← not_nodup_servers_iff hs hB, not_not, not_not]
  refine ⟨?_, ?_, ?_⟩
  · intro hbinds
    obtain ⟨name, hname⟩ := between_of_not_nodup hbinds s.binds
    exact ⟨name, by rw [hname]; rfl⟩
  · intro hbinds hservers
    obtain ⟨name, hname⟩ := between_of_not_nodup hservers s.servers
    exact ⟨name, by rw [between_eq_ok_iff.2 ⟨hbinds, rfl⟩, hname]; rfl⟩
  · intro hbinds hservers
    rw [between_eq_ok_iff.2 ⟨hbinds, rfl⟩, between_eq_ok_iff.2 ⟨hservers, rfl⟩]
    exact ⟨_, rfl⟩

/-- If everything is ready and has an identifier of its own, planning fails only for what the service
names twice: binds, if it is an address, and otherwise servers. What is wanted for different ports is
never alike, whatever the names. -/
theorem plan_reports_repeated (hf : s.failed = []) (hp : s.progressing = [])
    (hid : ∀ r ∈ s.resources, ∃ id, r.identifier = some id)
    (hd : (s.resources.map Resource.identifier).Nodup) :
    (∀ kind, (∃ name, l.plan s = .error (.duplicateResource kind name)) ↔
      (kind = .bind ∧ l.RepeatsBind s) ∨
        (kind = .server ∧ ¬ l.RepeatsBind s ∧ l.RepeatsServer s)) ∧
    (¬ l.RepeatsBind s → ¬ l.RepeatsServer s → ∃ p, l.plan s = .ok p) ∧
    ∀ port port', port ≠ port' → l.ToldApart s port port' := by
  -- What is told about readiness matters neither here nor to `planReady`.
  have hs : (Snapshot.ofList s.resources).Classified := Snapshot.classified_ofList hid hd
  have hready := planReady_of_classified (l := l) hs
  have htold (port port' : String) (hne : port ≠ port') := toldApart (l := l) hs hne
  rw [planReady_ofList_resources] at hready
  rw [Snapshot.ofList_resources] at hready htold
  obtain ⟨hbinds, hservers, hok⟩ := hready
  have hplan : l.plan s = l.planReady s := by simp [plan, hf, hp]
  rw [hplan]
  refine ⟨fun kind => ?_, hok, fun port port' hne => ?_⟩
  · by_cases hb : l.RepeatsBind s
    · obtain ⟨name, hname⟩ := hbinds hb
      rw [hname]
      simp [hb, eq_comm]
    · by_cases hv : l.RepeatsServer s
      · obtain ⟨name, hname⟩ := hservers hb hv
        rw [hname]
        simp [hb, hv, eq_comm]
      · obtain ⟨p, hp⟩ := hok hb hv
        rw [hp]
        simp [hb, hv]
  · obtain ⟨hbackend, hfrontend, hbind, hserver⟩ := htold port port' hne
    exact ⟨hbackend, hfrontend, hbind, hserver⟩

end Layout

namespace Sample

/-- An endpoint is there twice, and its backend is. The names are full of dots. -/
def dotted : Layout := { layout with
  service :=
    { name := "", uid := "1", externalAddresses := [.v4 ⟨[192, 0, 2, 4], rfl⟩]
      ports := .ofList [("", ⟨8080, 80⟩), ("a.b", ⟨8443, 443⟩)]
      endpoints := .replicate 2 ⟨"b.", .v4 ⟨[192, 0, 2, 5], rfl⟩⟩ } }

def second : Backend :=
  { dotted.backend "a.b" with identifier := some ⟨"b-1"⟩, status := .ready false }

def lone : Snapshot := .ofList [.backend second]

end Sample

open Layout in
theorem sample_plan_reports_server : Sample.lone.failed = [] ∧ Sample.lone.progressing = [] ∧
    (∀ r ∈ Sample.lone.resources, ∃ id, r.identifier = some id) ∧
    (Sample.lone.resources.map Resource.identifier).Nodup ∧
    ∃ name, Sample.dotted.plan Sample.lone = .error (.duplicateResource .server name) := by
  have hid : ∀ r ∈ Sample.lone.resources, ∃ id, r.identifier = some id := by
    simp [Sample.lone, Sample.second, Resource.identifier]
  have hd : (Sample.lone.resources.map Resource.identifier).Nodup := by decide +kernel
  have hbinds : ¬ Sample.dotted.RepeatsBind Sample.lone := by
    rintro ⟨hrepeated, -⟩
    exact hrepeated (by decide +kernel)
  have hfinds : Sample.dotted.FindsBackend Sample.lone "a.b" ⟨"b-1"⟩ :=
    ⟨Sample.second, by decide +kernel, rfl⟩
  have hservers : Sample.dotted.RepeatsServer Sample.lone :=
    ⟨by decide +kernel, "a.b", by decide +kernel, _, hfinds⟩
  refine ⟨rfl, rfl, hid, hd, ?_⟩
  exact ((plan_reports_repeated rfl rfl hid hd).1 .server).2 (.inr ⟨rfl, hbinds, hservers⟩)

end BalancerSync
