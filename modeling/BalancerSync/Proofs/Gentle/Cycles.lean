import BalancerSync.Proofs.Gentle.Changes

namespace BalancerSync

open Program Engine World

variable {fresh : Nat → Identifier} {l : Layout} {w w' : World} {s : Snapshot} {p : Plan} {k : Nat}

namespace Layout

theorem plan_cases (hs : s.Classified) (ha : l.service.externalAddresses.Nodup)
    (he : l.service.endpoints.Nodup) :
    (s.failed = [] ∧ s.progressing ≠ [] ∧
      l.plan s = .error (.resourcesProgressing (identifiers s.progressing))) ∨
      ∃ p, l.plan s = .ok p := by
  rw [plan]
  split
  · exact .inr ⟨_, rfl⟩
  next hf =>
    split
    next hp => exact .inl ⟨by simpa using hf, by simpa using hp, rfl⟩
    next => exact .inr (exists_plan hs ha he)

/-- If there was nothing to do, the service is served. -/
theorem serves_of_ripens {m : Memory} (hs : s.Classified)
    (hm : s.holding.Ripens (l.Owns m)) (h : l.plan s = .ok p) (hp : p.isEmpty = true) :
    l.Serves m.inventory := by
  rcases plan_eq_ok_iff.1 h with ⟨hf, rfl⟩ | ⟨hf, hpr, h⟩
  · have := failedWithDependents_ne_nil hf
    simp [Plan.isEmpty, this] at hp
  · obtain ⟨B, F, h⟩ := exists_planned hs h
    have hready := ready_of_not_failed_of_not_progressing hs hf hpr
    have howns (id : Identifier) (r : Resource) : l.Owns m id r ↔ s.holding id r :=
      hm.iff_of_ready (owns_single m) fun _ r hr => hready r hr.1
    have hids : ∀ e ∈ m.inventory.share l.service.tag l.loadBalancer,
        e.2.identifier = some e.1 := fun e he =>
      ((howns e.1 e.2).1 (Inventory.mem_share_iff.1 he)).2
    refine ⟨_, List.Perm.trans ?_ (h.perm_deployed hs hp hready)⟩
    refine (List.perm_ext_iff_of_nodup ?_ hs.nodup).2 fun r => ?_
    · refine List.Nodup.map_on (fun e he d hd heq => ?_)
        ((m.inventory.share_ids_nodup _ _).of_map _)
      exact Prod.ext (Option.some.inj (((hids e he).symm.trans (heq ▸ hids d hd)))) heq
    · rw [List.mem_map]
      constructor
      · rintro ⟨e, he, rfl⟩
        exact ((howns e.1 e.2).1 (Inventory.mem_share_iff.1 he)).1
      · intro hr
        obtain ⟨id, hid⟩ := hs.identified r hr
        exact ⟨(id, r), Inventory.mem_share_iff.2 ((howns id r).2 ⟨hr, hid⟩), rfl⟩

end Layout

/-- A snapshot shows each object of the load balancer as it was in the beginning, or as it is now. -/
structure Layout.Shows (l : Layout) (m : Memory) (s : Snapshot) (m' : Memory) : Prop where
  classified : s.Classified
  since : Holding.Ripens (l.Owns m) s.holding
  now : s.holding.Ripens (l.Owns m')

namespace Reconciliation

variable {r : Reconciliation}

structure Observed (fresh : Nat → Identifier) (l : Layout) (w : World) (out : Except Failure Plan)
    (w' : World) (s : Snapshot) : Prop extends l.Shows w.memory s w'.memory where
  resting : Resting fresh l w'
  latest : w'.latest = some s
  plan : out = l.plan s

def Further (fresh : Nat → Identifier) (l : Layout) (k : Nat) (w : World) : Prop :=
  Resting fresh l w ∧ ∃ k', k < k' ∧ k' ≤ 6 ∧ l.Stage k' (l.Owns w.memory)

theorem await_meets_gentle (hb : l.settings.backoff.validate = .ok ()) (hw : Resting fresh l w)
    (hlatest : w.latest = some s) (hs : s.Classified) (hm : s.holding.Ripens (l.Owns w.memory))
    (hf : s.failed = []) (hp : s.progressing ≠ []) (hk : l.Stage k s.holding) :
    (progressing >>= fun resources => settle l.settings.backoff resources).Meets (gentle fresh l)
      (fun out w' => out = .ok () ∧ w.memory.Matured l w'.memory ∧ Further fresh l k w') w := by
  have hstatus {q : Resource} (hq : q.readiness = .progressing) : q.status = .progressing := by
    rw [Resource.readiness] at hq
    rcases h : q.status with _ | _ | _ <;> simp [h, Status.readiness] at hq ⊢
  refine fun w₁ ha => ⟨trivial, ?_⟩
  rintro reply w₂ ⟨rfl, rfl⟩
  have hseen : w₂.latest = some s := (congrArg Stance.latest ha.stance).trans hlatest
  have hm₂ := hm.trans ha.ripens
  rw [hseen]
  refine (settle_meets_gentle hb _ (ha.resting hw) ?_).mono ?_
  · intro q hq id hid
    obtain ⟨hmem, hprogressing⟩ := (hs.mem_progressing q).1 hq
    refine ⟨hprogressing, ?_⟩
    rcases hm₂.kept id q ⟨hmem, hid⟩ with hq | ⟨-, hq⟩
    · exact ⟨q, hq, rfl, .inr (hstatus hprogressing)⟩
    · exact ⟨_, hq, by simp, .inl (by simp)⟩
  · rintro out w₃ ⟨hout, hsteady, hmatured, hready⟩
    refine ⟨hout, ha.awaited.toMatured.trans hmatured, hsteady.resting (ha.resting hw), 2, ?_, by omega,
      Layout.stage_of_awaited hs hf (hm₂.trans hmatured.ripens) hready⟩
    -- Otherwise all would have been ready before.
    by_contra hlt
    obtain ⟨q, hq⟩ := List.exists_mem_of_ne_nil _ hp
    obtain ⟨hmem, hprogressing⟩ := (hs.mem_progressing q).1 hq
    obtain ⟨id, hid⟩ := hs.identified q hmem
    have hready := hk.ready (by omega) id q ⟨hmem, hid⟩
    rw [hstatus hprogressing] at hready
    cases hready

/-- What has failed is destroyed, with all that refers to it. -/
theorem destroy_failed_meets_gentle (hw : Resting fresh l w) (hs : s.Classified)
    (hm : s.holding.Ripens (l.Owns w.memory)) (hf : s.failed ≠ []) (hk : l.Stage k s.holding) :
    (destroyAll s.failedWithDependents).Meets (gentle fresh l)
      (fun out w' => out = .ok () ∧ Further fresh l k w') w := by
  have hcondemned := (Layout.condemned_failedWithDependents hw.sound.tidy.closed hs hm).ripens hm
    (Layout.owns_single _)
  refine (destroyAll_meets_gentle _ hw hcondemned).mono ?_
  rintro out w' ⟨hout, hsteady, hripens⟩
  refine ⟨hout, hsteady.resting hw, 1, ?_, by omega, Layout.stage_of_without_failed hs
    (Layout.owns_single _) ((hm.without _).trans hripens)⟩
  by_contra hlt
  obtain ⟨q, hq⟩ := List.exists_mem_of_ne_nil _ hf
  obtain ⟨hmem, hfailed⟩ := (hs.mem_failed q).1 hq
  obtain ⟨id, hid⟩ := hs.identified q hmem
  exact hk.notFailed (by omega) id q ⟨hmem, hid⟩ hfailed

theorem destroy_unwanted_meets_gentle {B F : Resolved} (hw : Resting fresh l w)
    (hs : s.Classified) (hm : s.holding.Ripens (l.Owns w.memory))
    (hready : ∀ id q, s.holding id q → q.status = .ready false) (h : l.Planned s p B F)
    (hd : p.destroy ≠ []) (hk : l.Stage k s.holding) :
    (destroyAll p.destroy).Meets (gentle fresh l)
      (fun out w' => out = .ok () ∧ Further fresh l k w') w := by
  have hcondemned := (Layout.condemned_destroy hw.sound.tidy.closed hw.sound.registered hs hm h).ripens
    hm (Layout.owns_single _)
  refine (destroyAll_meets_gentle _ hw hcondemned).mono ?_
  rintro out w' ⟨hout, hsteady, hripens⟩
  refine ⟨hout, hsteady.resting hw, 3, ?_, by omega, Layout.stage_of_without_unwanted hs h
    (Layout.owns_single _) hready ((hm.without _).trans hripens)⟩
  by_contra hlt
  exact hd ((h.destroy_eq_nil_iff hs).2 (hk.neat (by omega)))

/-- What is missing is created, one wave at a time. -/
theorem create_meets_gentle {B F : Resolved} (hb : l.settings.backoff.validate = .ok ())
    (hw : Resting fresh l w) (hs : s.Classified) (hm : s.holding.Ripens (l.Owns w.memory))
    (hready : ∀ id q, s.holding id q → q.status = .ready false) (h : l.Planned s p B F)
    (hd : p.destroy = []) (hc : p.create ≠ []) (hk : l.Stage k s.holding) (hk6 : k ≤ 6) :
    (createAll l.service.tag l.settings.backoff p.create).Meets (gentle fresh l)
      (fun out w' => out = .ok () ∧ Further fresh l k w') w := by
  have hneat : l.Neat s.holding := (h.destroy_eq_nil_iff hs).1 hd
  have hcreate (q : Resource) := h.mem_create_iff_of_neat (r := q) hs hneat
  have hfilled : l.Filled (k - 3) s.holding := by
    by_cases hk3 : 3 ≤ k
    · exact hk.filled hk3
    · rw [show k - 3 = 0 by omega]
      exact Layout.filled_zero
  have hlt : k < 6 := by
    by_contra hle
    obtain ⟨q, hq⟩ := List.exists_mem_of_ne_nil _ hc
    have hfilled : l.Filled 3 s.holding := hfilled.mono (by omega)
    obtain ⟨id, hid⟩ := hfilled.held ((hcreate q).1 hq).1
    exact ((hcreate q).1 hq).2 id hid
  refine (createAll_meets_gentle hb _ hw fun q hq =>
    ((hcreate q).1 hq).1.ripens hm (Layout.owns_single _)).mono ?_
  rintro out w' ⟨hout, hsteady, es, hes, hripens, hall⟩
  refine ⟨hout, hsteady.resting hw, k - 3 + 1 + 3, by omega, by omega, ?_⟩
  exact Layout.stage_of_adding hs h hready hneat hfilled hes (Layout.owns_single _)
    ((hm.adding es).trans hripens) hall

/-- What a plan makes a reconciliation do leads to a later stage. -/
theorem act_meets_gentle (hb : r.layout.settings.backoff.validate = .ok ())
    (hw : Resting fresh r.layout w) (hs : s.Classified)
    (hm : s.holding.Ripens (r.layout.Owns w.memory)) (hp : r.layout.plan s = .ok p)
    (he : p.isEmpty = false) (hk : r.layout.Stage k s.holding) (hk6 : k ≤ 6) :
    (r.act p).Meets (gentle fresh r.layout)
      (fun out w' => out = .ok () ∧ Further fresh r.layout k w') w := by
  rw [act]
  rcases Layout.plan_eq_ok_iff.1 hp with ⟨hf, rfl⟩ | ⟨hf, hpr, hready⟩
  · have hne : (s.failedWithDependents.isEmpty) ≠ true := by
      simpa using Layout.failedWithDependents_ne_nil hf
    rw [if_neg hne]
    exact destroy_failed_meets_gentle hw hs hm hf hk
  · obtain ⟨B, F, h⟩ := Layout.exists_planned hs hready
    have hready (id : Identifier) (q : Resource) (hq : s.holding id q) : q.status = .ready false :=
      Layout.ready_of_not_failed_of_not_progressing hs hf hpr q hq.1
    split
    next hd =>
      have hd : p.destroy = [] := by simpa using hd
      have hc : p.create ≠ [] := by simpa [Plan.isEmpty, hd] using he
      exact create_meets_gentle hb hw hs hm hready h hd hc hk hk6
    next hd => exact destroy_unwanted_meets_gentle hw hs hm hready h (by simpa using hd) hk

/-- Surroundings that are gentle between snapshots, and in which a check sees what is there. Checks
may be counted. -/
structure Bears (fresh : Nat → Identifier) (r : Reconciliation) (e : Environment World)
    (count : World → Nat) : Prop where
  lift : ∀ {α : Type} (q : Program α) (post : Except Failure α → World → Prop) (w : World),
    Resting fresh r.layout w → q.Meets (gentle fresh r.layout) post w →
      q.Meets e (fun out w' => post out w' ∧ count w' = count w) w
  check : ∀ w, Resting fresh r.layout w → r.check.Meets e
    (fun out w' => (∃ s, Observed fresh r.layout w out w' s) ∧ count w' ≤ count w + 1) w

/-- The cycles end at the last stage, before there is one cycle too many. -/
theorem converge_meets_bearing {e : Environment World} {count : World → Nat}
    (hr : r.Bears fresh e count) (hb : r.layout.settings.backoff.validate = .ok ())
    (ha : r.layout.service.externalAddresses.Nodup) (he : r.layout.service.endpoints.Nodup)
    (cycles : Nat) (hw : Resting fresh r.layout w)
    (hk : r.layout.Stage k (r.layout.Owns w.memory)) (hk6 : k ≤ 6) (hcycles : 7 ≤ k + cycles) :
    (r.converge cycles).Meets e (fun out w' => out = .ok () ∧ Resting fresh r.layout w' ∧
      r.layout.Serves w'.inventory ∧ count w' + k ≤ count w + 7) w := by
  induction cycles generalizing w k with
  | zero => omega
  | succ cycles ih =>
    rw [converge_succ]
    refine (hr.lift _ _ _ hw checkpoint_meets_gentle).bind ?_ ?_
    · rintro - w₁ ⟨⟨-, haside⟩, hcount₁⟩
      refine (hr.check w₁ (haside.resting hw)).attempt ?_
      rintro out w₂ ⟨⟨s, hout⟩, hcount₂⟩
      have hs := hout.classified
      have hks : r.layout.Stage k s.holding := (hk.ripens haside.ripens (Layout.owns_single _)).ripens
        hout.since hs.single
      have hnext {w₃ : World} (h : Further fresh r.layout k w₃) (hcount₃ : count w₃ = count w₂) :
          (r.converge cycles).Meets e (fun out w' => out = .ok () ∧ Resting fresh r.layout w' ∧
            r.layout.Serves w'.inventory ∧ count w' + k ≤ count w + 7) w₃ := by
        obtain ⟨hw₃, k', hlt, hk6', hk'⟩ := h
        refine (ih hw₃ hk' hk6' (by omega)).mono ?_
        rintro out w₄ ⟨hout, hw₄, hserves, hle⟩
        exact ⟨hout, hw₄, hserves, by omega⟩
      rcases Layout.plan_cases hs ha he with ⟨hf, hp, hplan⟩ | ⟨p, hplan⟩
      · rw [hout.plan, hplan]
        dsimp only
        rw [← Program.bind_assoc]
        refine (hr.lift _ _ _ hout.resting (await_meets_gentle hb hout.resting hout.latest hs hout.now
          hf hp hks)).bind ?_ ?_
        · rintro - w₃ ⟨⟨-, -, h⟩, hcount₃⟩
          exact hnext h hcount₃
        · rintro failure w₃ ⟨⟨h, -⟩, -⟩
          cases h
      · rw [hout.plan, hplan]
        dsimp only
        split
        next hempty =>
          exact ⟨rfl, hout.resting, Layout.serves_of_ripens hs hout.now hplan hempty, by omega⟩
        next hempty =>
          have hact : (request (.remember none) >>= fun _ => r.act p).Meets (gentle fresh r.layout)
              (fun out w' => out = .ok () ∧ Further fresh r.layout k w') w₂ := by
            refine fun w₃ ha₃ => ⟨trivial, ?_⟩
            rintro - w₄ rfl
            have hw₃ := ha₃.resting hout.resting
            have hw₄ : Resting fresh r.layout { w₃ with latest := none } :=
              ⟨hw₃.sound.of_eq rfl rfl rfl, hw₃.outside, hw₃.notLeading, hw₃.here⟩
            exact act_meets_gentle hb hw₄ hs (hout.now.trans ha₃.ripens) hplan (by simpa using hempty)
              hks hk6
          rw [← Program.bind_assoc]
          refine (hr.lift _ _ _ hout.resting hact).bind ?_ ?_
          · rintro - w₃ ⟨⟨-, h⟩, hcount₃⟩
            exact hnext h hcount₃
          · rintro failure w₃ ⟨⟨h, -⟩, -⟩
            cases h
    · rintro failure w₁ ⟨⟨h, -⟩, -⟩
      cases h

theorem backoff_validate_of_validate (h : l.settings.validate = .ok ()) :
    l.settings.backoff.validate = .ok () := by
  rw [Settings.validate] at h
  split at h
  · cases h
  · exact h

end Reconciliation

end BalancerSync
