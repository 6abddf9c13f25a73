import BalancerSync.Proofs.Gentle.Cycles

namespace BalancerSync

open Program Engine World

variable {fresh : Nat → Identifier} {alone : Bool} {bound : Nat} {l : Layout} {w w' : World}
  {s : Snapshot} {p : Plan} {k : Nat}

/-- A source tells what belongs to a load balancer, at the price of one listing. -/
def Engine.Source.Supplies (fresh : Nat → Identifier) (l : Layout) (alone : Bool) (bound : Nat)
    (source : Source) : Prop :=
  ∀ w, Resting fresh l w → (source.snapshot l.loadBalancer).Meets (calm fresh l alone bound)
    (fun out w' => out = .ok (w'.shareSnapshot l) ∧ Refreshed fresh l w w') w

theorem World.Polled.refreshed (h : World.Polled l.service.tag w w') (hs : Sound fresh l w)
    (hl : w'.memory.journal.listings = w.memory.journal.listings + 1) : Refreshed fresh l w w' where
  stance := by rw [h.1]
  sound := hs.polled h
  matured := h.2.matured hs.tidy.harmless
  listings := hl

theorem World.Sound.narrowTo_snapshot (h : Sound fresh l w) :
    (w.inventory.snapshot l.service.tag).narrowTo l.loadBalancer = w.shareSnapshot l :=
  Inventory.narrowTo_snapshot h.tidy.closed.stored

theorem Engine.Source.direct_supplies : (Source.direct l.service.tag).Supplies fresh l true bound := by
  intro w hw
  refine (fetch_meets_calm hw.sound ⟨hw.here, hw.outside, .inl rfl⟩).bind ?_ ?_
  · rintro snapshot w' ⟨hsnapshot, hp, hl⟩
    cases hsnapshot
    exact ⟨congrArg _ (hw.sound.polled hp).narrowTo_snapshot, hp.refreshed hw.sound hl⟩
  · rintro failure w' ⟨h, -⟩
    cases h

/-- The leader of a round hands out what it has fetched. -/
theorem Engine.Source.leadRound_meets_calm (hs : Sound fresh l w) (hl : w.left = false)
    (hi : w.inside = false) (hlead : w.leading = some w.memory.journal.listings) :
    (Source.leadRound l.service.tag).Meets (calm fresh l alone bound) (fun out w' =>
      ∃ w₁, World.Polled l.service.tag w w₁ ∧
        w₁.memory.journal.listings = w.memory.journal.listings + 1 ∧
        w' = { w₁ with leading := none } ∧
        out = .ok (.ok (.ok (w₁.inventory.snapshot l.service.tag)))) w := by
  refine (fetch_meets_calm hs ⟨hl, hi, .inr (by rw [hlead]; rfl)⟩).attempt ?_
  rintro out w₁ ⟨rfl, hp, hlistings⟩
  have hstance : w₁.toStance = w.toStance := by rw [hp.1]
  have hl₁ : w₁.left = false := (congrArg Stance.left hstance).trans hl
  have hi₁ : w₁.inside = false := (congrArg Stance.inside hstance).trans hi
  have hlead₁ : w₁.leading = some w.memory.journal.listings :=
    (congrArg Stance.leading hstance).trans hlead
  rintro w₂ (rfl | ⟨-, ⟨hleft, -⟩ | ⟨-, hnot, -⟩⟩)
  · refine ⟨⟨hl₁, hi₁, ?_, rfl⟩, ?_⟩
    · rw [hlead₁, hlistings]
      rfl
    · rintro reply w₃ ⟨rfl, rfl⟩
      exact ⟨w₂, hp, hlistings, rfl, rfl⟩
  · cases hl₁.symm.trans hleft
  · cases hlead₁.symm.trans hnot

theorem Engine.Source.shared_supplies :
    (Source.shared l.service.tag).Supplies fresh l false bound := by
  intro w hw
  refine meets_calm hw.sound hw.here fun w₁ hb₁ => ?_
  have hw₁ := hb₁.resting hw
  have hmatured {w₂ : World} (h : Refreshed fresh l w₁ w₂) : Refreshed fresh l w w₂ :=
    ⟨h.stance.trans hb₁.stance, h.sound, hb₁.awaited.toMatured.trans h.matured,
      h.listings.trans (congrArg (· + 1) hb₁.listings)⟩
  refine ⟨⟨hw₁, rfl, rfl⟩, fun turn w₂ hturn => ?_⟩
  cases turn with
  | lead =>
    have hw₂ : w₂ = { w₁ with leading := some w₁.memory.journal.listings } := hturn
    have hs₂ : Sound fresh l w₂ := by
      rw [hw₂]
      exact hw₁.sound.of_eq rfl rfl rfl
    have hl₂ : w₂.left = false := hw₂ ▸ hw₁.here
    have hi₂ : w₂.inside = false := hw₂ ▸ hw₁.outside
    have hlead₂ : w₂.leading = some w₂.memory.journal.listings := by rw [hw₂]
    refine (leadRound_meets_calm hs₂ hl₂ hi₂ hlead₂).bind ?_ ?_
    · rintro outcome w₃ ⟨w₄, hp, hlistings, rfl, h⟩
      cases h
      have hsound := hs₂.polled hp
      refine ⟨congrArg _ hsound.narrowTo_snapshot, hmatured ⟨?_, ?_, ?_, ?_⟩⟩
      · rw [hp.1, hw₂, ← hw₁.notLeading]
      · exact hsound.of_eq rfl rfl rfl
      · have := hp.2.matured hs₂.tidy.harmless
        rwa [hw₂] at this
      · rw [hw₂] at hlistings
        exact hlistings
    · rintro failure w₃ ⟨w₄, -, -, -, h⟩
      cases h
  | ended outcome =>
    obtain ⟨h, snapshot, rfl, hs⟩ := hturn
    exact ⟨congrArg _ hs, hmatured h⟩

namespace Reconciliation

variable {r : Reconciliation}

/-- What comes of a check: the world has been looked at, and the plan is made from what is there. -/
structure Surveyed (fresh : Nat → Identifier) (l : Layout) (w : World) (out : Except Failure Plan)
    (w' : World) : Prop where
  resting : Resting fresh l w'
  matured : w.memory.Matured l w'.memory
  listings : w'.memory.journal.listings = w.memory.journal.listings + 1
  latest : w'.latest = some (w'.shareSnapshot l)
  plan : out = l.plan (w'.shareSnapshot l)

theorem check_meets_calm (hr : r.source.Supplies fresh r.layout alone bound)
    (hw : Resting fresh r.layout w) :
    r.check.Meets (calm fresh r.layout alone bound) (Surveyed fresh r.layout w) w := by
  refine (hr w hw).bind ?_ ?_
  · rintro snapshot w₁ ⟨h, hrefreshed⟩
    cases h
    have hw₁ := hrefreshed.resting hw
    refine meets_calm hw₁.sound hw₁.here fun w₂ hb₂ => ⟨trivial, ?_⟩
    rintro - w₃ rfl
    have hw₂ := hb₂.resting hw₁
    refine Meets.ofExcept ⟨⟨hw₂.sound.of_eq rfl rfl rfl, hw₂.outside, hw₂.notLeading, hw₂.here⟩,
      hrefreshed.matured.trans hb₂.awaited.toMatured, hb₂.listings.trans hrefreshed.listings, ?_, ?_⟩
    · exact congrArg some hb₂.shareSnapshot_eq.symm
    · exact congrArg _ hb₂.shareSnapshot_eq.symm
  · rintro failure w₁ ⟨h, -⟩
    cases h

/-- In calm surroundings a check sees what there is, at the price of one listing. -/
theorem bears_calm (hr : r.source.Supplies fresh r.layout alone bound) :
    r.Bears fresh (calm fresh r.layout alone bound) fun w => w.memory.journal.listings where
  lift _ _ _ hw hq := calm_of_gentle hw hq
  check w hw := by
    refine (check_meets_calm hr hw).mono fun out w' hout => ⟨⟨w'.shareSnapshot r.layout, ?_⟩,
      hout.listings.le⟩
    have hstored := hout.resting.sound.tidy.closed.stored
    have howns (id : Identifier) (q : Resource) :
        (w'.shareSnapshot r.layout).holding id q ↔ r.layout.Owns w'.memory id q :=
      Inventory.holding_shareSnapshot hstored
    exact ⟨⟨w'.inventory.shareSnapshot_classified _ _ hstored, hout.matured.ripens.trans (.of_iff howns),
      .of_iff fun id q => (howns id q).symm⟩, hout.resting, hout.latest, hout.plan⟩

/-- A reconciliation that fetches its own snapshots serves its service. -/
theorem direct_reconcile_meets_calm (hv : l.settings.validate = .ok ())
    (hc : 7 ≤ l.settings.maxCycles) (ha : l.service.externalAddresses.Nodup)
    (he : l.service.endpoints.Nodup) (hw : Resting fresh l w) :
    (direct l).reconcile.Meets (calm fresh l true bound) (fun out w' => out = .ok () ∧
      l.Serves w'.inventory ∧ w'.memory.journal.listings ≤ w.memory.journal.listings + 7) w := by
  have hb := backoff_validate_of_validate hv
  refine (converge_meets_bearing (bears_calm (r := direct l) Source.direct_supplies) hb ha he _ hw
    Layout.stage_zero (Nat.zero_le _) (by rwa [Nat.zero_add])).attempt ?_
  rintro out w₁ ⟨rfl, -, hserves, hle⟩
  exact ⟨rfl, hserves, hle⟩

def shared (l : Layout) : Reconciliation := ⟨.shared l.service.tag, l⟩

/-- A reconciliation that shares its snapshots takes no part in them any more when its service is
served. -/
theorem shared_reconcile_meets_calm (hv : l.settings.validate = .ok ())
    (hc : 7 ≤ l.settings.maxCycles) (ha : l.service.externalAddresses.Nodup)
    (he : l.service.endpoints.Nodup) (hw : Resting fresh l w)
    (hbound : w.memory.journal.listings + 7 ≤ bound) :
    (shared l).reconcile.Meets (calm fresh l false bound)
      (fun out w' => out = .ok () ∧ w'.left = true) w := by
  have hb := backoff_validate_of_validate hv
  refine (converge_meets_bearing (bears_calm (r := shared l) Source.shared_supplies) hb ha he _ hw
    Layout.stage_zero (Nat.zero_le _) (by rwa [Nat.zero_add])).attempt ?_
  rintro out w₁ ⟨rfl, hw₁, hserves, hle⟩
  refine meets_calm hw₁.sound hw₁.here fun w₂ hb₂ => ?_
  refine ⟨⟨hb₂.resting hw₁, rfl, rfl, hserves.of_owns hb₂.owns, ?_⟩, ?_⟩
  · have := hb₂.listings
    omega
  · rintro reply w₃ ⟨rfl, rfl⟩
    exact ⟨rfl, rfl⟩

end Reconciliation

end BalancerSync
