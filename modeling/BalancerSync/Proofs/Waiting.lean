import BalancerSync.Engine.Creation
import BalancerSync.Proofs.Fetch

namespace BalancerSync.Engine

open Program World

variable {fresh : Nat → Identifier} {tag : Tag} {w w' : World} {b : Backoff}

/-- What comes of looks at objects that carry the tag: the same objects as they are seen then. -/
def Looked (tag : Tag) (tracked : List Tracked) (w : World) (out : Except Failure (List Tracked))
    (w' : World) : Prop :=
  Polled tag w w' ∧ ∀ tracked', out = .ok tracked' →
    tracked'.map (·.identifier) = tracked.map (·.identifier)

theorem pollOne_meets_polled (t : Tracked) (ht : w.inventory.Carries tag t.identifier) :
    (pollOne t).Meets (adverse fresh) (fun out w' => Polled tag w w' ∧
      ∀ t', out = .ok t' → t'.identifier = t.identifier) w := by
  refine meets_checkpoint (meets_call ?_) ⟨.refl w, nofun⟩
  rw [answer_get]
  have hp : Polled tag w { w with memory := (w.memory.get t.kind t.identifier).2 } :=
    ⟨rfl, (w.memory.got t.kind t.identifier).polled ht⟩
  dsimp only
  split
  · exact ⟨hp, fun t' h => Except.ok.inj h ▸ rfl⟩
  · exact ⟨hp, fun t' h => Except.ok.inj h ▸ rfl⟩
  · exact ⟨hp, nofun⟩

theorem pollAll_meets_polled (first : Bool) (tracked : List Tracked)
    (ht : ∀ t ∈ tracked, w.inventory.Carries tag t.identifier) :
    (pollAll first tracked).Meets (adverse fresh) (Looked tag tracked w) w := by
  induction tracked generalizing w with
  | nil => exact ⟨.refl w, fun _ h => Except.ok.inj h ▸ rfl⟩
  | cons t tracked ih =>
    have htail : ∀ t ∈ tracked, w.inventory.Carries tag t.identifier :=
      fun u hu => ht u (List.mem_cons_of_mem _ hu)
    rw [pollAll]
    split
    · refine (ih htail).bind ?_ ?_
      · rintro rest w₁ ⟨hp, hrest⟩
        refine ⟨hp, fun tracked' h => ?_⟩
        cases h
        simp [hrest rest rfl]
      · exact fun _ _ h => ⟨h.1, nofun⟩
    · refine (pollOne_meets_polled t (ht t (by simp))).bind ?_ ?_
      · rintro t' w₁ ⟨hp, ht'⟩
        refine (ih fun u hu => hp.2.carries_iff.2 (htail u hu)).bind ?_ ?_
        · rintro rest w₂ ⟨hp', hrest⟩
          refine ⟨hp.trans hp', fun tracked' h => ?_⟩
          cases h
          simp [hrest rest rfl, ht' t' rfl]
        · exact fun _ _ h => ⟨hp.trans h.1, nofun⟩
      · exact fun _ _ h => ⟨h.1, nofun⟩

theorem pause_meets (current : Duration) :
    (pause b current).Meets (adverse fresh) (fun _ w' => w' = w) w := by
  rw [pause]
  split
  · rintro w rfl
    refine ⟨trivial, ?_⟩
    rintro draw w rfl
    rintro w rfl
    refine ⟨trivial, ?_⟩
    rintro canceled w ⟨-, rfl⟩
    cases canceled <;> rfl
  · rintro w rfl
    refine ⟨trivial, ?_⟩
    rintro canceled w ⟨-, rfl⟩
    cases canceled <;> rfl

theorem pollUntilReady_meets_polled (pauses : Nat) (current : Duration) (first : Bool)
    (tracked : List Tracked) (ht : ∀ t ∈ tracked, w.inventory.Carries tag t.identifier) :
    (pollUntilReady b pauses current first tracked).Meets (adverse fresh)
      (fun _ w' => Polled tag w w') w := by
  induction pauses generalizing w current first tracked with
  | zero =>
    rw [pollUntilReady]
    refine (pollAll_meets_polled first tracked ht).bind ?_ fun _ _ h => h.1
    rintro tracked' w₁ ⟨hp, -⟩
    cases Tracked.progressing tracked' with
    | error _ => exact hp
    | ok ids => cases ids <;> exact hp
  | succ pauses ih =>
    rw [pollUntilReady]
    refine (pollAll_meets_polled first tracked ht).bind ?_ fun _ _ h => h.1
    rintro tracked' w₁ ⟨hp, hids⟩
    have ht' : ∀ t ∈ tracked', w₁.inventory.Carries tag t.identifier := by
      intro t htm
      have hmem : t.identifier ∈ tracked.map (·.identifier) :=
        hids tracked' rfl ▸ List.mem_map.2 ⟨t, htm, rfl⟩
      obtain ⟨u, hu, hut⟩ := List.mem_map.1 hmem
      exact hp.2.carries_iff.2 (hut ▸ ht u hu)
    cases Tracked.progressing tracked' with
    | error _ => exact hp
    | ok ids =>
      cases ids with
      | nil => exact hp
      | cons _ _ =>
        refine (pause_meets current).bind ?_ fun _ _ h => h ▸ hp
        rintro next w₂ rfl
        exact (ih next false tracked' ht').mono fun _ _ h => hp.trans h

/-- Waiting for objects that carry the tag does nothing but look at them. -/
theorem settle_meets_polled (rs : List Resource)
    (ht : ∀ r ∈ rs, ∀ id, r.identifier = some id → w.inventory.Carries tag id) :
    (settle b rs).Meets (adverse fresh) (fun _ w' => Polled tag w w') w := by
  have hwait : (waitReady b rs).Meets (adverse fresh) (fun _ w' => Polled tag w w') w := by
    rw [waitReady]
    cases b.validate with
    | error _ => exact .refl _
    | ok _ =>
      refine pollUntilReady_meets_polled b.steps b.initial true _ fun t htm => ?_
      obtain ⟨r, hr, hrt⟩ := List.mem_filterMap.1 htm
      obtain ⟨id, hid, rfl⟩ := Option.map_eq_some_iff.1 hrt
      exact ht r hr id hid
  rw [settle]
  refine hwait.attempt fun out w' hp => ?_
  split <;> exact hp

end BalancerSync.Engine
