import BalancerSync.Proofs.Deployment
import BalancerSync.Proofs.Matching
import Mathlib.Data.List.Perm.Basic

namespace BalancerSync

open Comparable Difference

namespace Difference

variable {α : Type} [Comparable α] {t : α} {targets targets' present present' : List α}
  {d : Difference α}

theorem keeps_perm (h : targets.Perm targets') (present : List α) :
    keeps targets' present = keeps targets present := by
  funext i
  unfold keeps
  simp only [h.any_eq]

theorem missing_perm (h : targets.Perm targets') (h' : present.Perm present') :
    (missing targets' present').Perm (missing targets present) := by
  rw [missing_eq, missing_eq]
  simp only [h'.any_eq]
  exact (h.filter _).symm

/-- No two objects are alike, so an object is left over unless it is like some target. -/
theorem leftOver_eq_filter (ht : (targets.map bare).Nodup) (hp : (present.map bare).Nodup) :
    leftOver targets present = present.filter fun a => !targets.any (alike a) := by
  have hkeeps : ∀ e ∈ present.zipIdx, (!keeps targets present e.2) = !targets.any (alike e.1) := by
    rintro ⟨a, i⟩ he
    have ha : present[i]? = some a := List.mem_zipIdx_iff_getElem?.1 he
    -- An object is kept for the first of its like, and there is no other one.
    have hfirst : (present.take i).any (alike a) = false := by
      apply Bool.eq_false_iff.2
      intro hany
      obtain ⟨b, hb, hba⟩ := any_alike_iff.1 hany
      obtain ⟨j, hj, rfl⟩ := List.mem_take_iff_getElem.1 hb
      have hji : j < i := by omega
      have hlt : j < (present.map bare).length := by
        rw [List.length_map]
        omega
      have hkeys : (present.map bare)[j]? = (present.map bare)[i]? := by
        rw [List.getElem?_map, List.getElem?_map, ha, List.getElem?_eq_getElem (by omega)]
        exact congrArg some hba
      exact hji.ne ((List.getElem?_inj hlt hp).1 hkeys)
    unfold keeps
    simp [ha, hfirst]
  rw [leftOver_eq ht, List.filter_congr hkeeps]
  have hmap : present.filter (fun a => !targets.any (alike a)) =
      (present.zipIdx.map (·.1)).filter fun a => !targets.any (alike a) := by
    rw [List.zipIdx_map_fst]
  rw [hmap, List.filter_map]
  rfl

/-- Whatever the order of the targets, the same is destroyed. -/
theorem between_of_perm_targets (h : targets.Perm targets') (hd : between targets present = .ok d) :
    ∃ d', between targets' present = .ok d' ∧ d'.create.Perm d.create ∧ d'.destroy = d.destroy := by
  obtain ⟨hn, rfl⟩ := between_eq_ok_iff.1 hd
  have hn' : (targets'.map bare).Nodup := (h.map bare).nodup_iff.1 hn
  refine ⟨_, between_eq_ok_iff.2 ⟨hn', rfl⟩, missing_perm h (.refl present), ?_⟩
  rw [leftOver_eq hn', leftOver_eq hn, keeps_perm h]

/-- Of objects that are not alike the same are destroyed, whatever their order. -/
theorem between_of_perm_present (h : present.Perm present') (hp : (present.map bare).Nodup)
    (hd : between targets present = .ok d) :
    ∃ d', between targets present' = .ok d' ∧ d'.create.Perm d.create ∧
      d'.destroy.Perm d.destroy := by
  obtain ⟨hn, rfl⟩ := between_eq_ok_iff.1 hd
  have hp' : (present'.map bare).Nodup := (h.map bare).nodup_iff.1 hp
  refine ⟨_, between_eq_ok_iff.2 ⟨hn, rfl⟩, missing_perm (.refl targets) h, ?_⟩
  rw [leftOver_eq_filter hn hp', leftOver_eq_filter hn hp]
  exact (h.filter _).symm

/-- Of objects that are not alike the same one is found, whatever their order. -/
theorem findMatch?_perm (h : present.Perm present') (hp : (present.map bare).Nodup) (t : α) :
    findMatch? t present' = findMatch? t present := by
  cases hfound : findMatch? t present with
  | none =>
    rw [findMatch?_eq_none_iff] at hfound ⊢
    exact fun a ha => hfound a (h.mem_iff.2 ha)
  | some a =>
    have ha := mem_of_findMatch? hfound
    obtain ⟨b, hb⟩ := exists_findMatch? (h.mem_iff.1 ha) (bare_of_findMatch? hfound)
    have hba : bare b = bare a := (bare_of_findMatch? hb).symm.trans (bare_of_findMatch? hfound)
    have heq : b = a :=
      List.inj_on_of_nodup_map hp (h.mem_iff.2 (mem_of_findMatch? hb)) ha hba
    rw [hb, heq]

end Difference

namespace Snapshot

variable {s s' : Snapshot} {rs rs' : List Resource} {seen seen' : List Identifier}

/-- The snapshots differ in nothing but the order of what they list. -/
structure Reorders (s s' : Snapshot) : Prop where
  backends : s.backends.Perm s'.backends
  frontends : s.frontends.Perm s'.frontends
  binds : s.binds.Perm s'.binds
  servers : s.servers.Perm s'.servers
  failed : s.failed.Perm s'.failed
  progressing : s.progressing.Perm s'.progressing

/-- No two resources of one kind are alike. -/
structure Discerns (s : Snapshot) : Prop where
  backends : (s.backends.map bare).Nodup
  frontends : (s.frontends.map bare).Nodup
  binds : (s.binds.map bare).Nodup
  servers : (s.servers.map bare).Nodup

/-- No two of the resources have the same identifier. Those that have failed may be told twice. -/
structure Distinguishes (s : Snapshot) : Prop where
  listed : (identifiers s.resources).Nodup
  failed : ∀ r ∈ s.failed, ∀ q ∈ s.failed, ∀ id, r.identifier = some id → q.identifier = some id →
    r = q

theorem identifiers_perm (h : rs.Perm rs') : (identifiers rs).Perm (identifiers rs') :=
  h.filterMap _

/-- What has been seen matters, but not in which order. -/
theorem distinct_congr (hseen : ∀ id, id ∈ seen ↔ id ∈ seen') (rs : List Resource) :
    distinct seen rs = distinct seen' rs := by
  induction rs generalizing seen seen' with
  | nil => rfl
  | cons r rest ih =>
    rw [distinct, distinct]
    cases r.identifier with
    | none => exact congrArg _ (ih hseen)
    | some id =>
      have hcons : ∀ j, j ∈ id :: seen ↔ j ∈ id :: seen' := fun j => by
        rw [List.mem_cons, List.mem_cons, hseen]
      by_cases hid : id ∈ seen
      · simp only [if_pos hid, if_pos ((hseen id).1 hid)]
        exact ih hseen
      · simp only [if_neg hid, if_neg (mt (hseen id).2 hid)]
        exact congrArg _ (ih hcons)

theorem distinct_append (seen : List Identifier) (rs qs : List Resource) :
    distinct seen (rs ++ qs) = distinct seen rs ++ distinct (identifiers rs ++ seen) qs := by
  induction rs generalizing seen with
  | nil => rfl
  | cons r rest ih =>
    rw [List.cons_append, distinct, distinct]
    cases hid : r.identifier with
    | none =>
      have hids : identifiers (r :: rest) = identifiers rest := by simp [identifiers, hid]
      simp only [ih, hids, List.cons_append]
    | some id =>
      have hids : identifiers (r :: rest) = id :: identifiers rest := by simp [identifiers, hid]
      by_cases hs : id ∈ seen
      · simp only [if_pos hs, ih, hids]
        refine congrArg _ (distinct_congr (fun j => ?_) qs)
        simp only [List.mem_append, List.mem_cons]
        constructor
        · exact fun h => h.elim (fun h => .inl (.inr h)) .inr
        · rintro ((rfl | h) | h)
          · exact .inr hs
          · exact .inl h
          · exact .inr h
      · simp only [if_neg hs, ih, hids, List.cons_append]
        refine congrArg _ (congrArg _ (distinct_congr (fun j => ?_) qs))
        simp only [List.mem_append, List.mem_cons]
        tauto

/-- Resources of one identifier are one resource, so it does not matter which of them comes first. -/
theorem distinct_perm (h : rs.Perm rs') (hsame : ∀ r ∈ rs, ∀ q ∈ rs, ∀ id, r.identifier = some id →
    q.identifier = some id → r = q) (seen : List Identifier) :
    (distinct seen rs').Perm (distinct seen rs) := by
  induction h generalizing seen with
  | nil => exact .refl _
  | cons r h ih =>
    have ih := ih fun q hq p hp => hsame q (List.mem_cons_of_mem _ hq) p (List.mem_cons_of_mem _ hp)
    rw [distinct, distinct]
    cases r.identifier with
    | none => exact (ih seen).cons r
    | some id =>
      dsimp only
      split
      · exact ih seen
      · exact (ih _).cons r
  | swap r q rest =>
    have hcongr (i j : Identifier) : distinct (i :: j :: seen) rest = distinct (j :: i :: seen) rest :=
      distinct_congr (fun k => by simp only [List.mem_cons]; tauto) rest
    rcases hr : r.identifier with _ | i <;> rcases hq : q.identifier with _ | j
    · simp only [distinct, hr, hq]
      exact .swap ..
    · simp only [distinct, hr, hq]
      split
      · exact .refl _
      · exact .swap ..
    · simp only [distinct, hr, hq]
      split
      · exact .refl _
      · exact .swap ..
    -- Only of two resources with the same identifier does the first one displace the second one.
    · by_cases hij : i = j
      · subst hij
        obtain rfl : r = q := hsame r (by simp) q (by simp) i hr hq
        exact .refl _
      · by_cases hi : i ∈ seen <;> by_cases hj : j ∈ seen <;>
          simp [distinct, hr, hq, hi, hj, hij, Ne.symm hij, hcongr i j, List.Perm.swap]
  | trans h _ ih ih' =>
    refine (ih' (fun r hr q hq => ?_) seen).trans (ih hsame seen)
    exact hsame r (h.mem_iff.2 hr) q (h.mem_iff.2 hq)

namespace Reorders

variable (h : s.Reorders s')

include h

theorem mem_failedIds_iff {id : Identifier} : id ∈ s'.failedIds ↔ id ∈ s.failedIds :=
  (identifiers_perm h.failed).mem_iff.symm

theorem orphanedFrontends : s'.orphanedFrontends.Perm s.orphanedFrontends := by
  unfold Snapshot.orphanedFrontends
  simp only [h.mem_failedIds_iff]
  exact (h.frontends.filter _).symm

theorem mem_doomedFrontendIds_iff {id : Identifier} :
    id ∈ s'.doomedFrontendIds ↔ id ∈ s.doomedFrontendIds := by
  have hperm : s'.doomedFrontendIds.Perm s.doomedFrontendIds :=
    (h.orphanedFrontends.filterMap _).append (identifiers_perm (h.failed.filter _).symm)
  exact hperm.mem_iff

theorem dependents : s'.dependents.Perm s.dependents := by
  have hbinds : (s'.binds.filter fun b => b.frontend ∈ s'.doomedFrontendIds).Perm
      (s.binds.filter fun b => b.frontend ∈ s.doomedFrontendIds) := by
    simp only [h.mem_doomedFrontendIds_iff]
    exact (h.binds.filter _).symm
  have hservers : (s'.servers.filter fun v => v.backend ∈ s'.failedIds).Perm
      (s.servers.filter fun v => v.backend ∈ s.failedIds) := by
    simp only [h.mem_failedIds_iff]
    exact (h.servers.filter _).symm
  exact ((h.orphanedFrontends.map _).append (hbinds.map _)).append (hservers.map _)

/-- The same has to go with what has failed, whatever the order. -/
theorem failedWithDependents (hs : s.Distinguishes) :
    s'.failedWithDependents.Perm s.failedWithDependents := by
  have hlisted {r q : Resource} {id : Identifier} (hr : r ∈ s.dependents) (hq : q ∈ s.dependents)
      (hrid : r.identifier = some id) (hqid : q.identifier = some id) : r = q :=
    eq_of_identifiers_nodup hs.listed (Classified.mem_resources_of_dependents hr)
      (Classified.mem_resources_of_dependents hq) hrid hqid
  have hseen : ∀ id, id ∈ identifiers s'.failed ++ [] ↔ id ∈ identifiers s.failed ++ [] := by
    intro id
    rw [List.append_nil, List.append_nil, (identifiers_perm h.failed).mem_iff]
  unfold Snapshot.failedWithDependents
  rw [distinct_append, distinct_append, distinct_congr hseen]
  exact (distinct_perm h.failed hs.failed []).append
    (distinct_perm h.dependents.symm (fun r hr q hq id => hlisted hr hq) _)

end Reorders

end Snapshot

/-- The plans differ in nothing but the order of what they list. -/
structure Plan.Reorders (p p' : Plan) : Prop where
  create : p.create.Perm p'.create
  destroy : p.destroy.Perm p'.destroy

theorem Plan.Reorders.append {α : Type} [Comparable α] {p p' : Plan} {d d' : Difference α}
    (h : p.Reorders p') (hc : d'.create.Perm d.create) (hd : d'.destroy.Perm d.destroy) :
    (p.append d).Reorders (p'.append d') :=
  ⟨h.create.append (hc.symm.map _), h.destroy.append (hd.symm.map _)⟩

/-- The services differ in nothing but the order of addresses and endpoints. -/
structure Service.Reorders (v v' : Service) : Prop where
  name : v'.name = v.name
  uid : v'.uid = v.uid
  ports : v'.ports = v.ports
  addresses : v.externalAddresses.Perm v'.externalAddresses
  endpoints : v.endpoints.Perm v'.endpoints

theorem Service.Reorders.symm {v v' : Service} (h : v.Reorders v') : v'.Reorders v :=
  ⟨h.name.symm, h.uid.symm, h.ports.symm, h.addresses.symm, h.endpoints.symm⟩

namespace Layout

variable {l : Layout} {service : Service} {s s' : Snapshot} {p p' : Plan} {resolved : Resolved}

theorem backends_of_reorders (h : l.service.Reorders service) :
    ({ l with service } : Layout).backends = l.backends := by
  simp only [backends, backend, h.ports, h.name]

theorem frontends_of_reorders (h : l.service.Reorders service) :
    ({ l with service } : Layout).frontends resolved = l.frontends resolved := by
  simp only [frontends, frontend, h.ports, h.name]

theorem binds_of_reorders (h : l.service.Reorders service) :
    (l.binds resolved).Perm (({ l with service } : Layout).binds resolved) := by
  have hbind (port : String) (number : UInt16) (frontend : Identifier) :
      ({ l with service } : Layout).bind port number frontend = l.bind port number frontend := by
    funext address
    simp only [bind, h.name]
  simp only [binds, h.ports, hbind]
  refine List.Perm.flatMap_left _ fun e _ => ?_
  cases resolved.get? e.1 with
  | none => exact .refl _
  | some frontend => exact h.addresses.map _

theorem servers_of_reorders (h : l.service.Reorders service) :
    (l.servers resolved).Perm (({ l with service } : Layout).servers resolved) := by
  have hserver (port : String) (number : UInt16) (backend : Identifier) :
      ({ l with service } : Layout).server port number backend = l.server port number backend := by
    funext endpoint
    simp only [server, h.name]
  simp only [servers, h.ports, hserver]
  refine List.Perm.flatMap_left _ fun e _ => ?_
  cases resolved.get? e.1 with
  | none => exact .refl _
  | some backend => exact h.endpoints.map _

theorem planReady_of_reorders_service (h : l.service.Reorders service) (hp : l.planReady s = .ok p) :
    ∃ p', ({ l with service } : Layout).planReady s = .ok p' ∧ p.Reorders p' ∧
      p'.destroy = p.destroy := by
  obtain ⟨db, B, df, F, di, dv, hdb, hB, hdf, hF, hdi, hdv, rfl⟩ := planReady_eq_ok_iff.1 hp
  -- Backends and frontends are wanted for ports, so that the same of them are found.
  obtain ⟨di', hdi', hci, hdi⟩ := between_of_perm_targets (binds_of_reorders h) hdi
  obtain ⟨dv', hdv', hcv, hdv⟩ := between_of_perm_targets (servers_of_reorders h) hdv
  rw [← backends_of_reorders h] at hdb hB
  rw [← frontends_of_reorders h] at hdf hF
  have hsame (q : Plan) : q.Reorders q := ⟨.refl _, .refl _⟩
  refine ⟨_, planReady_eq_ok_iff.2 ⟨db, B, df, F, di', dv', hdb, hB, hdf, hF, hdi', hdv', rfl⟩,
    ((hsame _).append hci (.of_eq hdi)).append hcv (.of_eq hdv), ?_⟩
  simp only [Plan.append, hdi, hdv]

/-- What has failed or is progressing does not depend on the service. -/
theorem plan_of_reorders_service (h : l.service.Reorders service) (hp : l.plan s = .ok p) :
    ∃ p', ({ l with service } : Layout).plan s = .ok p' ∧ p.Reorders p' ∧ p'.destroy = p.destroy := by
  rcases plan_eq_ok_iff.1 hp with ⟨hf, rfl⟩ | ⟨hf, hpr, hready⟩
  · exact ⟨_, plan_eq_ok_iff.2 (.inl ⟨hf, rfl⟩), ⟨.refl _, .refl _⟩, rfl⟩
  · obtain ⟨p', hp', hperm, hdestroy⟩ := planReady_of_reorders_service h hready
    exact ⟨p', plan_eq_ok_iff.2 (.inr ⟨hf, hpr, hp'⟩), hperm, hdestroy⟩

theorem resolve_perm {α : Type} [Comparable α] {present present' : List α}
    (h : present.Perm present') (hp : (present.map bare).Nodup) (wanted : List (String × α)) :
    resolve present' wanted = resolve present wanted := by
  induction wanted with
  | nil => rfl
  | cons e rest ih => rw [resolve, resolve, findMatch?_perm h hp, ih]

theorem planReady_of_reorders_snapshot (h : s.Reorders s') (hs : s.Discerns)
    (hp : l.planReady s = .ok p) : ∃ p', l.planReady s' = .ok p' ∧ p.Reorders p' := by
  obtain ⟨db, B, df, F, di, dv, hdb, hB, hdf, hF, hdi, hdv, rfl⟩ := planReady_eq_ok_iff.1 hp
  obtain ⟨db', hdb', hcb, hdb⟩ := between_of_perm_present h.backends hs.backends hdb
  obtain ⟨df', hdf', hcf, hdf⟩ := between_of_perm_present h.frontends hs.frontends hdf
  obtain ⟨di', hdi', hci, hdi⟩ := between_of_perm_present h.binds hs.binds hdi
  obtain ⟨dv', hdv', hcv, hdv⟩ := between_of_perm_present h.servers hs.servers hdv
  rw [← resolve_perm h.backends hs.backends] at hB
  rw [← resolve_perm h.frontends hs.frontends] at hF
  refine ⟨_, planReady_eq_ok_iff.2 ⟨db', B, df', F, di', dv', hdb', hB, hdf', hF, hdi', hdv', rfl⟩, ?_⟩
  have hempty : Plan.empty.Reorders Plan.empty := ⟨.refl _, .refl _⟩
  exact (((hempty.append hcb hdb).append hcf hdf).append hci hdi).append hcv hdv

theorem plan_of_reorders_snapshot (h : s.Reorders s') (hs : s.Distinguishes) (hd : s.Discerns)
    (hp : l.plan s = .ok p) : ∃ p', l.plan s' = .ok p' ∧ p.Reorders p' := by
  rcases plan_eq_ok_iff.1 hp with ⟨hf, rfl⟩ | ⟨hf, hpr, hready⟩
  · have hf' : s'.failed ≠ [] := fun hnil => hf (hnil ▸ h.failed).eq_nil
    exact ⟨_, plan_eq_ok_iff.2 (.inl ⟨hf', rfl⟩), .refl _, (h.failedWithDependents hs).symm⟩
  · have hf' : s'.failed = [] := (hf ▸ h.failed).symm.eq_nil
    have hpr' : s'.progressing = [] := (hpr ▸ h.progressing).symm.eq_nil
    obtain ⟨p', hp', hperm⟩ := planReady_of_reorders_snapshot h hd hready
    exact ⟨p', plan_eq_ok_iff.2 (.inr ⟨hf', hpr', hp'⟩), hperm⟩

/-- The order of addresses and endpoints makes no difference to what is destroyed, and to what is
created none but that of its order. The same holds of the order of what is there, as long as no two
resources have one identifier and no two of one kind are alike. -/
theorem plan_unmoved_by_order (h : l.service.Reorders service) :
    ((∃ p, l.plan s = .ok p) ↔ ∃ p', ({ l with service } : Layout).plan s = .ok p') ∧
    (∀ p p', l.plan s = .ok p → ({ l with service } : Layout).plan s = .ok p' →
      p'.destroy = p.destroy ∧ p'.create.Perm p.create) ∧
    (s.Distinguishes → s.Discerns → ∀ s', s.Reorders s' → ∀ p, l.plan s = .ok p →
      ∃ p', l.plan s' = .ok p' ∧ p'.destroy.Perm p.destroy ∧ p'.create.Perm p.create) := by
  refine ⟨⟨?_, ?_⟩, ?_, ?_⟩
  · rintro ⟨p, hp⟩
    obtain ⟨p', hp', -⟩ := plan_of_reorders_service h hp
    exact ⟨p', hp'⟩
  · rintro ⟨p', hp'⟩
    obtain ⟨p, hp, -⟩ := plan_of_reorders_service (l := { l with service }) h.symm hp'
    exact ⟨p, hp⟩
  · intro p p' hp hp'
    obtain ⟨q, hq, hperm, hdestroy⟩ := plan_of_reorders_service h hp
    cases hp'.symm.trans hq
    exact ⟨hdestroy, hperm.create.symm⟩
  · intro hs hd s' hs' p hp
    obtain ⟨p', hp', hperm⟩ := plan_of_reorders_snapshot hs' hs hd hp
    exact ⟨p', hp', hperm.destroy.symm, hperm.create.symm⟩

end Layout

namespace Sample

/-- Two backends are left over, and there is one to which servers are added. -/
def paired : Layout where
  service :=
    { name := "web", uid := "1"
      externalAddresses := [.v4 ⟨[203, 0, 113, 1], rfl⟩, .v4 ⟨[203, 0, 113, 3], rfl⟩]
      ports := .ofList [("http", ⟨8080, 80⟩)]
      endpoints := [⟨"node", .v4 ⟨[203, 0, 113, 2], rfl⟩⟩, ⟨"spare", .v4 ⟨[203, 0, 113, 4], rfl⟩⟩] }
  loadBalancer := ⟨"lb-1"⟩
  settings := .standard

def swapped : Service := { paired.service with
  externalAddresses := paired.service.externalAddresses.reverse
  endpoints := paired.service.endpoints.reverse }

def stock : List Resource :=
  [.backend (named "old.web" (some ⟨"b-1"⟩) (.ready false)),
    .backend { paired.backend "http" with identifier := some ⟨"b-2"⟩, status := .ready false },
    .backend (named "older.web" (some ⟨"b-3"⟩) (.ready false)),
    .frontend { paired.frontend "http" ⟨"b-2"⟩ with
      identifier := some ⟨"f-1"⟩, status := .ready false }]

end Sample

theorem sample_plan_unmoved_by_order : Sample.paired.service.Reorders Sample.swapped ∧
    (Snapshot.ofList Sample.stock).Distinguishes ∧ (Snapshot.ofList Sample.stock).Discerns ∧
    (Snapshot.ofList Sample.stock).Reorders (.ofList Sample.stock.reverse) ∧
    ∃ p p' p'', Sample.paired.plan (.ofList Sample.stock) = .ok p ∧
      ({ Sample.paired with service := Sample.swapped } : Layout).plan (.ofList Sample.stock) =
        .ok p' ∧
      Sample.paired.plan (.ofList Sample.stock.reverse) = .ok p'' ∧
      p'.destroy = p.destroy ∧ p'.create.Perm p.create ∧ p' ≠ p ∧
      p''.destroy.Perm p.destroy ∧ p''.create.Perm p.create ∧ p'' ≠ p := by
  have hservice : Sample.paired.service.Reorders Sample.swapped :=
    ⟨rfl, rfl, rfl, (List.reverse_perm _).symm, (List.reverse_perm _).symm⟩
  have hs : (Snapshot.ofList Sample.stock).Distinguishes :=
    ⟨by decide +kernel, by decide +kernel⟩
  have hd : (Snapshot.ofList Sample.stock).Discerns :=
    ⟨by decide +kernel, by decide +kernel, by decide +kernel, by decide +kernel⟩
  have hs' : (Snapshot.ofList Sample.stock).Reorders (.ofList Sample.stock.reverse) :=
    ⟨by decide +kernel, by decide +kernel, by decide +kernel, by decide +kernel,
      by decide +kernel, by decide +kernel⟩
  obtain ⟨hiff, hsame, hstirred⟩ :=
    Layout.plan_unmoved_by_order (s := .ofList Sample.stock) hservice
  have hplan : ∃ p, Sample.paired.plan (.ofList Sample.stock) = .ok p := ⟨_, rfl⟩
  obtain ⟨p', hp'⟩ := hiff.1 hplan
  obtain ⟨p, hp⟩ := hplan
  obtain ⟨p'', hp'', hdestroy, hcreate⟩ := hstirred hs hd _ hs' p hp
  obtain ⟨hdestroy', hcreate'⟩ := hsame p p' hp hp'
  refine ⟨hservice, hs, hd, hs', p, p', p'', hp, hp', hp'', hdestroy', hcreate', ?_, hdestroy,
    hcreate, ?_⟩
  · rintro rfl
    exact absurd (hp.trans hp'.symm) (by decide +kernel)
  · rintro rfl
    exact absurd (hp.trans hp''.symm) (by decide +kernel)

end BalancerSync
