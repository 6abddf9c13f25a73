import BalancerSync.Proofs.Gentle.Waiting

namespace BalancerSync

open Engine World

theorem Snapshot.Classified.single {s : Snapshot} (h : s.Classified) : s.holding.Single :=
  fun _ _ _ hr hq => h.eq_of_identifier hr.1 hq.1 (hr.2.trans hq.2.symm)

namespace Layout

variable {l : Layout} {S T : Holding} {m : Memory} {k : Nat} {p : Plan} {s : Snapshot} {B F : Resolved}
  {queue : List Resource} {tag : Tag} {loose : Option Identifier} {id : Identifier} {r : Resource}

/-- Whether a load balancer that holds `S` has come to a stage. -/
structure Stage (l : Layout) (k : Nat) (S : Holding) : Prop where
  notFailed : 1 ≤ k → ∀ id r, S id r → r.readiness ≠ .failed
  ready : 2 ≤ k → ∀ id r, S id r → r.status = .ready false
  neat : 3 ≤ k → l.Neat S
  filled : 3 ≤ k → l.Filled (k - 3) S

theorem stage_zero : l.Stage 0 S := ⟨nofun, nofun, nofun, nofun⟩

theorem Filled.mono {waves waves' : Nat} (h : l.Filled waves' S) (hle : waves ≤ waves') :
    l.Filled waves S := fun r hr hlt => h r hr (hlt.trans_le hle)

theorem not_failed_of_ready {r : Resource} (h : r.status = .ready false) : r.readiness ≠ .failed := by
  rw [Resource.readiness, h]
  intro hf
  cases hf

theorem stage_of_ready (h : ∀ id r, S id r → r.status = .ready false) : l.Stage 2 S where
  notFailed _ id r hr := not_failed_of_ready (h id r hr)
  ready _ := h
  neat hk := by omega
  filled hk := by omega

theorem stage_of_neat {waves : Nat} (hr : ∀ id r, S id r → r.status = .ready false) (hn : l.Neat S)
    (hf : l.Filled waves S) : l.Stage (waves + 3) S where
  notFailed _ id r h := not_failed_of_ready (hr id r h)
  ready _ := hr
  neat _ := hn
  filled _ := hf

theorem Neat.of_iff (h : l.Neat S) (hST : ∀ id r, T id r ↔ S id r) : l.Neat T := by
  have heq : T = S := by
    funext id r
    exact propext (hST id r)
  exact heq ▸ h

theorem Stage.ripens (h : l.Stage k S) (hST : S.Ripens T) (hT : T.Single) : l.Stage k T := by
  refine ⟨fun hk id r hr => ?_, fun hk id r hr => ?_, fun hk => ?_, fun hk r hr hlt => ?_⟩
  · rcases hST.cases hT hr with hr | ⟨q, -, -, rfl⟩
    · exact h.notFailed hk id r hr
    · exact not_failed_of_ready (Resource.status_withStatus ..)
  · rcases hST.cases hT hr with hr | ⟨q, -, -, rfl⟩
    · exact h.ready hk id r hr
    · exact Resource.status_withStatus ..
  · refine ⟨fun id r hr => ?_, fun r i j hi hj => ?_⟩
    · obtain ⟨q, hq, hb⟩ := (hST.has_iff hT).1 ⟨r, hr, rfl⟩
      rw [← hb]
      exact ((h.neat hk).wanted id q hq).mono fun _ _ => (hST.has_iff hT).2
    · exact (h.neat hk).unique r i j ((hST.has_iff hT).1 hi) ((hST.has_iff hT).1 hj)
  · obtain ⟨id, hid⟩ := h.filled hk r (hr.mono fun _ _ => (hST.has_iff hT).1) hlt
    exact ⟨id, (hST.has_iff hT).2 hid⟩

/-- Nothing is progressing any more among what has been waited for. -/
theorem stage_of_awaited (hs : s.Classified) (hf : s.failed = []) (hm : s.holding.Ripens (l.Owns m))
    (hready : AllReady l m (identifiers s.progressing)) : l.Stage 2 (l.Owns m) := by
  refine stage_of_ready fun id r hr => ?_
  rcases hm.cases (owns_single m) hr with hr' | ⟨q, -, -, rfl⟩
  · by_cases hp : r.readiness = .progressing
    · obtain ⟨q, hq, hstatus⟩ := hready id
        (List.mem_filterMap.2 ⟨r, (hs.mem_progressing r).2 ⟨hr'.1, hp⟩, hr'.2⟩)
      exact owns_single m id q r hq hr ▸ hstatus
    · refine status_eq_ready (fun hfailed => ?_) hp
      exact List.not_mem_nil (hf ▸ (hs.mem_failed r).2 ⟨hr'.1, hfailed⟩)
  · exact Resource.status_withStatus ..

/-- Nothing has failed among what is left without the failed. -/
theorem stage_of_without_failed (hs : s.Classified) (hT : T.Single)
    (hST : (s.holding.without (identifiers s.failedWithDependents)).Ripens T) : l.Stage 1 T where
  notFailed _ id r hr hf := by
    rcases hST.cases hT hr with ⟨hr, hnot⟩ | ⟨q, -, -, rfl⟩
    · refine hnot (List.mem_filterMap.2 ⟨r, ?_, hr.2⟩)
      exact hs.mem_failedWithDependents_iff.2 (.inl ((hs.mem_failed r).2 ⟨hr.1, hf⟩))
    · exact not_failed_of_ready (Resource.status_withStatus ..) hf
  ready hk := by omega
  neat hk := by omega
  filled hk := by omega

theorem stage_of_without_unwanted (hs : s.Classified) (h : l.Planned s p B F) (hT : T.Single)
    (hready : ∀ id r, s.holding id r → r.status = .ready false)
    (hST : (s.holding.without (identifiers p.destroy)).Ripens T) : l.Stage 3 T := by
  have hkept (id : Identifier) (r : Resource) : T id r ↔ Planned.kept s p id r := by
    rw [hST.iff_of_ready hT fun id r hr => hready id r hr.1]
    refine and_congr_right fun hr => not_congr ⟨fun hid => ?_, fun hmem => ?_⟩
    · obtain ⟨q, hq, hid⟩ := List.mem_filterMap.1 hid
      exact hs.eq_of_identifier ((h.mem_destroy q).1 hq).1 hr.1 (hid.trans hr.2.symm) ▸ hq
    · exact List.mem_filterMap.2 ⟨r, hmem, hr.2⟩
  refine stage_of_neat (fun id r hr => hready id r ((hkept id r).1 hr).1) ?_ filled_zero
  exact h.neat_kept.of_iff hkept

theorem stage_of_adding {waves : Nat} {es : List (Identifier × Resource)} (hs : s.Classified)
    (h : l.Planned s p B F) (hready : ∀ id r, s.holding id r → r.status = .ready false)
    (hn : l.Neat s.holding) (hf : l.Filled waves s.holding)
    (hes : (es.map fun e => e.2.bare) = byRank [0, 1, 2] p.create) (hT : T.Single)
    (hST : (s.holding.adding es).Ripens T)
    (hall : ∀ id ∈ es.map (·.1), ∃ r, T id r ∧ r.status = .ready false) :
    l.Stage (waves + 1 + 3) T := by
  have hperm : (es.map fun e => e.2.bare).Perm p.create :=
    hes ▸ byRank_perm (by decide) (by decide) h.create_nodup
  have hmem (r : Resource) : r ∈ (es.map fun e => e.2.bare) ↔ r ∈ p.create := hperm.mem_iff
  have hnodup : (es.map fun e => e.2.bare).Nodup := hperm.nodup_iff.2 h.create_nodup
  have hwithin : s.holding.Within T := fun r id hr =>
    (hST.has_iff hT).2 (Holding.has_adding.2 (.inl hr))
  have hhas (r : Resource) (id : Identifier) (hr : T.Has r id) :
      s.holding.Has r id ∨ ∃ q, (id, q) ∈ es ∧ q.bare = r :=
    Holding.has_adding.1 ((hST.has_iff hT).1 hr)
  have hnew (q : Resource) (id : Identifier) (he : (id, q) ∈ es) :
      l.Wants s.holding q.bare ∧ ∀ id, ¬ s.holding.Has q.bare id :=
    (h.mem_create_iff_of_neat hs hn).1 ((hmem q.bare).1 (List.mem_map.2 ⟨_, he, rfl⟩))
  have hneat : l.Neat T := by
    refine ⟨fun id r hr => ?_, fun r i j hi hj => ?_⟩
    · rcases hhas r.bare id ⟨r, hr, rfl⟩ with ⟨q, hq, hb⟩ | ⟨q, he, hb⟩
      · exact hb ▸ (hn.wanted id q hq).mono hwithin
      · exact hb ▸ (hnew q id he).1.mono hwithin
    · rcases hhas r i hi with hi | ⟨q, hiq, hq⟩ <;> rcases hhas r j hj with hj | ⟨t, hjt, ht⟩
      · exact hn.unique r i j hi hj
      · exact absurd (ht ▸ hi) ((hnew t j hjt).2 i)
      · exact absurd (hq ▸ hj) ((hnew q i hiq).2 j)
      · have heq := List.inj_on_of_nodup_map hnodup hiq hjt (hq.trans ht.symm)
        exact congrArg Prod.fst heq
  refine stage_of_neat (fun id r hr => ?_) hneat (hf.next hwithin hneat fun r hr => ?_)
  · rcases hST.cases hT hr with (hr' | hr') | ⟨q, -, -, rfl⟩
    · exact hready id r hr'
    · obtain ⟨q, hq, hstatus⟩ := hall id (List.mem_map.2 ⟨_, hr', rfl⟩)
      exact hT id q r hq hr ▸ hstatus
    · exact Resource.status_withStatus ..
  · by_cases hold : ∃ id, s.holding.Has r id
    · obtain ⟨id, hid⟩ := hold
      exact ⟨id, hwithin r id hid⟩
    · push Not at hold
      obtain ⟨e, he, rfl⟩ := List.mem_map.1 ((hmem r).2 ((h.mem_create_iff_of_neat hs hn).2 ⟨hr, hold⟩))
      exact ⟨e.1, (hST.has_iff hT).2 (Holding.has_adding.2 (.inr ⟨e.2, he, rfl⟩))⟩

structure Condemned (S : Holding) (queue : List Resource) : Prop where
  held : ∀ r ∈ queue, ∃ id q, r.identifier = some id ∧ S id q ∧ q.kind = r.kind
  closed : ∀ r ∈ queue, ∀ id, r.identifier = some id → ∀ j q, S j q → id ∈ q.references →
    j ∈ identifiers queue
  nodup : (identifiers queue).Nodup

theorem Condemned.ripens (h : Condemned S queue) (hST : S.Ripens T) (hT : T.Single) :
    Condemned T queue where
  held r hr := by
    obtain ⟨id, q, hid, hq, hk⟩ := h.held r hr
    rcases hST.kept id q hq with hq | ⟨-, hq⟩
    · exact ⟨id, q, hid, hq, hk⟩
    · exact ⟨id, _, hid, hq, by simpa using hk⟩
  closed r hr id hid j q hq href := by
    rcases hST.cases hT hq with hq | ⟨p, hp, -, rfl⟩
    · exact h.closed r hr id hid j q hq href
    · exact h.closed r hr id hid j p hp (by simpa using href)
  nodup := h.nodup

/-- The first one has nothing that refers to it any more. -/
theorem Condemned.not_mem_references (h : Condemned (l.Owns m) (r :: queue))
    (hm : m.inventory.Closed tag loose)
    (hsorted : (r :: queue).Pairwise fun r q => q.kind.rank ≤ r.kind.rank)
    (hid : r.identifier = some id) {j : Identifier} (hq : l.Owns m j q) : id ∉ q.references := by
  intro href
  obtain ⟨i, t, hi, ht, hkind⟩ := h.held r List.mem_cons_self
  cases hi.symm.trans hid
  have hlt := (hm.resolved j q hq.1).rank_lt href (hm.apart _ t ht.1) ht.1
  obtain ⟨p, hp, hpj⟩ := List.mem_filterMap.1 (h.closed r List.mem_cons_self _ hid j q hq href)
  obtain ⟨i, q', hi, hq', hkind'⟩ := h.held p hp
  cases hi.symm.trans hpj
  rw [owns_single m j q q' hq hq', hkind, hkind'] at hlt
  rcases List.mem_cons.1 hp with rfl | hp
  · exact Nat.lt_irrefl _ hlt
  · exact Nat.not_le_of_lt hlt ((List.pairwise_cons.1 hsorted).1 p hp)

theorem Condemned.tail (h : Condemned S (r :: queue)) (hid : r.identifier = some id) :
    Condemned (S.without [id]) queue := by
  have hids : identifiers (r :: queue) = id :: identifiers queue := by simp [identifiers, hid]
  obtain ⟨hnot, hnodup⟩ := List.nodup_cons.1 (hids ▸ h.nodup)
  refine ⟨fun q hq => ?_, fun q hq i hi j p hp href => ?_, hnodup⟩
  · obtain ⟨j, p, hj, hp, hk⟩ := h.held q (List.mem_cons_of_mem _ hq)
    refine ⟨j, p, hj, ⟨hp, ?_⟩, hk⟩
    rw [List.mem_singleton]
    rintro rfl
    exact hnot (List.mem_filterMap.2 ⟨q, hq, hj⟩)
  · have hmem := h.closed q (List.mem_cons_of_mem _ hq) i hi j p hp.1 href
    rw [hids] at hmem
    exact (List.mem_cons.1 hmem).resolve_left fun heq => hp.2 (List.mem_singleton.2 heq)

theorem Condemned.queue_nodup (h : Condemned S queue) : queue.Nodup := by
  refine Snapshot.nodup_of_identifiers_nodup h.nodup fun r hr => ?_
  obtain ⟨id, -, hid, -⟩ := h.held r hr
  exact ⟨id, hid⟩

theorem Condemned.of_mem_iff {queue' : List Resource} (h : Condemned S queue)
    (hmem : ∀ r, r ∈ queue' ↔ r ∈ queue) (hnodup : queue'.Nodup) : Condemned S queue' := by
  have hids (id : Identifier) : id ∈ identifiers queue' ↔ id ∈ identifiers queue := by
    simp only [identifiers, List.mem_filterMap, hmem]
  refine ⟨fun r hr => h.held r ((hmem r).1 hr), fun r hr id hid j q hq href => ?_, ?_⟩
  · exact (hids j).2 (h.closed r ((hmem r).1 hr) id hid j q hq href)
  · have hperm : queue'.Perm queue := (List.perm_ext_iff_of_nodup hnodup h.queue_nodup).2 hmem
    exact (hperm.filterMap _).nodup_iff.2 h.nodup

/-- What has failed is condemned together with all that refers to it. -/
theorem condemned_failedWithDependents (hm : m.inventory.Closed tag loose) (hs : s.Classified)
    (hST : s.holding.Ripens (l.Owns m)) : Condemned s.holding s.failedWithDependents where
  held r hr := by
    have hmem := hs.mem_resources_of_failedWithDependents hr
    obtain ⟨id, hid⟩ := hs.identified r hmem
    exact ⟨id, r, hid, ⟨hmem, hid⟩, rfl⟩
  closed r hr id hid j q hq href := by
    have hmem := hs.mem_resources_of_failedWithDependents hr
    suffices hq' : q ∈ s.failedWithDependents from List.mem_filterMap.2 ⟨q, hq', hq.2⟩
    -- What the provider has differs from what has been seen in the status only.
    obtain ⟨t, ht, htr⟩ := (hST.has_iff (owns_single m)).2 ⟨r, ⟨hmem, hid⟩, rfl⟩
    obtain ⟨u, hu, huq⟩ := (hST.has_iff (owns_single m)).2 ⟨q, hq, rfl⟩
    have hlb := hm.apart id t ht.1
    have hres : m.inventory.Resolves q := by
      rw [← Inventory.resolves_bare, ← huq, Inventory.resolves_bare]
      exact hm.resolved j u hu.1
    have hkind : t.kind = r.kind := by rw [← Resource.kind_bare, htr, Resource.kind_bare]
    cases q <;> simp only [Resource.references, List.mem_cons, List.not_mem_nil, or_false] at href
    · subst href
      exact absurd hres hlb
    · rcases href with rfl | rfl
      · exact absurd hres.1 hlb
      · obtain ⟨b, hb⟩ := hres.2
        cases hb.symm.trans ht.1
        cases r <;> cases hkind
        exact hs.frontend_mem_failedWithDependents (Snapshot.frontend_mem_resources.1 hq.1) hr hid
    · obtain ⟨f, hf⟩ := hres
      subst href
      cases hf.symm.trans ht.1
      cases r <;> cases hkind
      exact hs.bind_mem_failedWithDependents (Snapshot.bind_mem_resources.1 hq.1) hr hid
    · obtain ⟨b, hb⟩ := hres
      subst href
      cases hb.symm.trans ht.1
      cases r <;> cases hkind
      exact hs.server_mem_failedWithDependents (Snapshot.server_mem_resources.1 hq.1) hr hid
  nodup := Snapshot.identifiers_failedWithDependents_nodup s

/-- What a plan destroys is condemned, because nothing that is wanted refers to it. -/
theorem condemned_destroy (hm : m.inventory.Closed tag loose)
    (hlb : l.loadBalancer ∈ m.inventory.loadBalancers.keys) (hs : s.Classified)
    (hST : s.holding.Ripens (l.Owns m)) (h : l.Planned s p B F) :
    Condemned s.holding p.destroy where
  held r hr := by
    have hmem := ((h.mem_destroy r).1 hr).1
    obtain ⟨id, hid⟩ := hs.identified r hmem
    exact ⟨id, r, hid, ⟨hmem, hid⟩, rfl⟩
  closed r hr id hid j q hq href := by
    have hapart : ∀ t ∈ s.resources, t.identifier ≠ some l.loadBalancer := by
      intro t ht heq
      obtain ⟨u, hu, -⟩ := (hST.has_iff (owns_single m)).2 ⟨t, ⟨ht, heq⟩, rfl⟩
      exact hm.apart _ u hu.1 hlb
    exact List.mem_filterMap.2 ⟨q, h.mem_destroy_of_references hs hapart hr hid hq.1 href, hq.2⟩
  nodup := by
    have hid : ∀ r ∈ p.destroy, ∃ id, r.identifier = some id := fun r hr =>
      hs.identified r ((h.mem_destroy r).1 hr).1
    have hnodup := h.map_identifier_destroy_nodup hs
    rw [Snapshot.map_identifier hid] at hnodup
    exact hnodup.of_map _

end Layout

end BalancerSync
