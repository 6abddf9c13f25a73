import BalancerSync.Proofs.Deployment

namespace BalancerSync

open Comparable LawfulComparable Difference

theorem Difference.map_findMatch?_cons {α : Type} [LawfulComparable α] (t a : α) (present : List α) :
    (findMatch? t (a :: present)).map toResource =
      if (toResource a).bare = (toResource t).bare then some (toResource a)
      else (findMatch? t present).map toResource := by
  have hiff : bare t = bare a ↔ (toResource a).bare = (toResource t).bare := by
    rw [← toResource_bare, ← toResource_bare]
    exact ⟨fun h => congrArg toResource h.symm, fun h => (toResource_injective h).symm⟩
  by_cases h : bare t = bare a
  · rw [findMatch?_cons_of_alike h, if_pos (hiff.1 h)]
    rfl
  · rw [findMatch?_cons_of_not_alike h, if_neg (mt hiff.2 h)]

namespace Snapshot

variable {rs rs' : List Resource} {t r : Resource}

theorem kept?_ofList_cons (r : Resource) (rs : List Resource) (t : Resource) :
    (ofList (r :: rs)).kept? t = if r.bare = t.bare then some r else (ofList rs).kept? t := by
  cases t with
  | backend t =>
    cases r with
    | backend b => exact map_findMatch?_cons t b _
    | frontend | bind | server => rfl
  | frontend t =>
    cases r with
    | frontend f => exact map_findMatch?_cons t f _
    | backend | bind | server => rfl
  | bind t =>
    cases r with
    | bind b => exact map_findMatch?_cons t b _
    | backend | frontend | server => rfl
  | server t =>
    cases r with
    | server v => exact map_findMatch?_cons t v _
    | backend | frontend | bind => rfl

/-- The first resource that is like the target, of whatever kind. -/
theorem kept?_ofList (rs : List Resource) (t : Resource) :
    (ofList rs).kept? t = rs.find? fun r => r.bare = t.bare := by
  induction rs with
  | nil => cases t <;> rfl
  | cons r rs ih =>
    rw [kept?_ofList_cons, List.find?_cons, ih]
    by_cases h : r.bare = t.bare <;> simp [h]

/-- Two lists hold the same resources in the same order, up to their status. -/
def Alike (rs rs' : List Resource) : Prop :=
  rs'.map (Resource.withStatus .progressing) = rs.map (Resource.withStatus .progressing)

namespace Alike

theorem symm (h : Alike rs rs') : Alike rs' rs := Eq.symm h

theorem exists_kept? (h : Alike rs rs') (hk : (ofList rs).kept? t = some r) :
    ∃ r', (ofList rs').kept? t = some r' ∧ r'.identifier = r.identifier := by
  have hfind (rs : List Resource) : ((ofList rs).kept? t).map (Resource.withStatus .progressing) =
      (rs.map (Resource.withStatus .progressing)).find? fun r => r.bare = t.bare := by
    rw [kept?_ofList, List.find?_map]
    simp only [Function.comp_def, Resource.bare_withStatus]
  have hmap := hfind rs'
  rw [h, ← hfind rs, hk] at hmap
  obtain ⟨r', hr', heq⟩ := Option.map_eq_some_iff.1 hmap
  exact ⟨r', hr', by simpa using congrArg Resource.identifier heq⟩

theorem kept?_identifier_iff (h : Alike rs rs') {id : Identifier} :
    (∃ r, (ofList rs).kept? t = some r ∧ r.identifier = some id) ↔
      ∃ r, (ofList rs').kept? t = some r ∧ r.identifier = some id := by
  constructor
  · rintro ⟨r, hk, hid⟩
    obtain ⟨r', hk', hid'⟩ := h.exists_kept? hk
    exact ⟨r', hk', hid'.trans hid⟩
  · rintro ⟨r, hk, hid⟩
    obtain ⟨r', hk', hid'⟩ := h.symm.exists_kept? hk
    exact ⟨r', hk', hid'.trans hid⟩

end Alike

end Snapshot

namespace Layout.Planned

variable {l : Layout} {rs rs' : List Resource} {p p' : Plan}
  {backends frontends backends' frontends' : Resolved} {r r' : Resource}

theorem targets_eq_of_alike (h : l.Planned (.ofList rs) p backends frontends)
    (h' : l.Planned (.ofList rs') p' backends' frontends') (ha : Snapshot.Alike rs rs') :
    l.targets backends' frontends' = l.targets backends frontends := by
  have hbackends : backends' = backends := by
    refine OrderedMap.ext_get? fun port => Option.ext fun id => ?_
    rw [h'.backends_get?_eq_some_iff, h.backends_get?_eq_some_iff, ha.kept?_identifier_iff]
  have hfrontends : frontends' = frontends := by
    refine OrderedMap.ext_get? fun port => Option.ext fun id => ?_
    rw [h'.frontends_get?_eq_some_iff, h.frontends_get?_eq_some_iff, hbackends]
    exact exists_congr fun _ => and_congr_right fun _ => ha.kept?_identifier_iff.symm
  rw [hbackends, hfrontends]

theorem mem_destroy_iff_of_alike (h : l.Planned (.ofList rs) p backends frontends)
    (h' : l.Planned (.ofList rs') p' backends' frontends') (ha : Snapshot.Alike rs rs')
    (hs : (Snapshot.ofList rs).Classified) (hs' : (Snapshot.ofList rs').Classified) (hr : r ∈ rs)
    (hr' : r' ∈ rs') (hid : r'.identifier = r.identifier) : r' ∈ p'.destroy ↔ r ∈ p.destroy := by
  have hmem := Snapshot.mem_resources_ofList.2 hr
  have hmem' := Snapshot.mem_resources_ofList.2 hr'
  have hkept (t : Resource) : (Snapshot.ofList rs').kept? t = some r' ↔
      (Snapshot.ofList rs).kept? t = some r := by
    constructor
    · intro hk
      obtain ⟨q, hq, hqid⟩ := ha.symm.exists_kept? hk
      rw [hq, hs.eq_of_identifier (Snapshot.mem_of_kept? hq) hmem (hqid.trans hid)]
    · intro hk
      obtain ⟨q, hq, hqid⟩ := ha.exists_kept? hk
      rw [hq, hs'.eq_of_identifier (Snapshot.mem_of_kept? hq) hmem' (hqid.trans hid.symm)]
  rw [h'.mem_destroy, h.mem_destroy, h.targets_eq_of_alike h' ha]
  simp only [hmem, hmem', true_and, ne_eq, hkept]

end Layout.Planned

/-- In the end the load balancer is neat, and what the plan keeps is there. What earlier objects refer
to has been there from the beginning. -/
structure Layout.Leads (l : Layout) (s : Snapshot) (p : Plan) (T : Holding) : Prop where
  neat : l.Neat T
  kept : (Planned.kept s p).Within T
  back : ∀ id r, s.holding id r → ∀ j ∈ r.references, ∀ t, T.Has t j → s.holding.Has t j

namespace Layout.Leads

variable {l : Layout} {s : Snapshot} {p : Plan} {T : Holding} {backends frontends : Resolved}
  {r t : Resource} {id : Identifier} {port : String}

/-- What is there in the end and like a target is what is kept for the target. -/
theorem kept?_eq (hT : l.Leads s p T) (h : l.Planned s p backends frontends) (hs : s.Classified)
    (ht : t ∈ l.targets backends frontends) (hr : s.holding id r) (hb : r.bare = t)
    (hid : T.Has t id) : s.kept? t = some r := by
  obtain ⟨q, hq⟩ := Snapshot.exists_kept? hr.1 (hb.trans (bare_of_mem_targets ht).symm)
  have hmem := Snapshot.mem_of_kept? hq
  obtain ⟨j, hj⟩ := hs.identified q hmem
  have hqb : q.bare = t := (Snapshot.bare_of_kept? hq).trans (bare_of_mem_targets ht)
  have hji : j = id := hT.neat.unique t j id (hT.kept t j ⟨q, h.kept_of_kept? ht hq hj, hqb⟩) hid
  rw [hq, hs.eq_of_identifier hmem hr.1 (hj.trans (hji ▸ hr.2.symm))]

theorem backends_get?_eq (hT : l.Leads s p T) (h : l.Planned s p backends frontends)
    (hs : s.Classified) (hp : port ∈ l.service.ports.keys)
    (hr : s.holding.Has (.backend (l.backend port)) id) (hid : T.Has (.backend (l.backend port)) id) :
    backends.get? port = some id := by
  obtain ⟨r, hr, hb⟩ := hr
  have hk := hT.kept?_eq h hs (Planned.backend_mem_targets_of_mem_keys hp) hr hb hid
  exact h.backends_get?_eq_some_iff.2 ⟨hp, r, hk, hr.2⟩

/-- What was there from the beginning and is wanted in the end is a target of the plan. -/
theorem mem_targets (hT : l.Leads s p T) (h : l.Planned s p backends frontends) (hs : s.Classified)
    (hr : s.holding id r) (hb : r.bare = t) (hw : l.Wants T t) : t ∈ l.targets backends frontends := by
  have href : t.references = r.references := by rw [← hb, Resource.references_bare]
  cases hw with
  | backend hp => exact Planned.backend_mem_targets_of_mem_keys hp
  | @frontend port b hp hTb =>
    have hj : b ∈ r.references := href ▸ by simp [Resource.references, Layout.frontend]
    exact h.frontend_mem_targets_of_get? (hT.backends_get?_eq h hs hp (hT.back id r hr b hj _ hTb) hTb)
  | @bind name port address b f hp ha hTb hTf =>
    have hj : f ∈ r.references := href ▸ by simp [Resource.references, Layout.bind]
    obtain ⟨q, hq, hqb⟩ := hT.back id r hr f hj _ hTf
    have hqref : b ∈ q.references := by
      rw [← Resource.references_bare, hqb]
      simp [Resource.references, Layout.frontend]
    have hget := hT.backends_get?_eq h hs (OrderedMap.mem_keys_of_get? hp)
      (hT.back f q hq b hqref _ hTb) hTb
    have hk := hT.kept?_eq h hs (h.frontend_mem_targets_of_get? hget) hq hqb hTf
    have hget' := h.frontends_get?_eq_some_iff.2 ⟨b, hget, q, hk, hq.2⟩
    exact bind_mem_targets.2 (mem_binds_iff.2 ⟨_, _, _, hp, hget', _, ha, rfl⟩)
  | @server name port endpoint b hp he hTb =>
    have hj : b ∈ r.references := href ▸ by simp [Resource.references, Layout.server]
    have hget := hT.backends_get?_eq h hs (OrderedMap.mem_keys_of_get? hp)
      (hT.back id r hr b hj _ hTb) hTb
    exact server_mem_targets.2 (mem_servers_iff.2 ⟨_, _, _, hp, hget, _, he, rfl⟩)

/-- What is still there in the end is what the plan keeps. -/
theorem kept_of_has (hT : l.Leads s p T) (h : l.Planned s p backends frontends) (hs : s.Classified)
    (hr : s.holding id r) (hid : T.Has r.bare id) : Planned.kept s p id r := by
  have hw : l.Wants T r.bare := by
    obtain ⟨q, hq, hqb⟩ := hid
    exact hqb ▸ hT.neat.wanted id q hq
  have ht := hT.mem_targets h hs hr rfl hw
  exact h.kept_of_kept? ht (hT.kept?_eq h hs ht hr rfl hid) hr.2

end Layout.Leads

end BalancerSync
