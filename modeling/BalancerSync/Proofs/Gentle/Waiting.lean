import BalancerSync.Engine.Creation
import BalancerSync.Proofs.Gentle

namespace BalancerSync

open Program Engine World

variable {fresh : Nat → Identifier} {l : Layout} {m m' : Memory} {w w' : World} {n : Nat} {t : Tracked}

namespace Engine

/-- The object that is tracked belongs to the load balancer. It is ready, or it has been looked at
`n` times already. -/
def Tracks (n : Nat) (l : Layout) (m : Memory) (t : Tracked) : Prop :=
  t.readiness ≠ .failed ∧ ∃ r, l.Owns m t.identifier r ∧ r.kind = t.kind ∧
    (r.status = .ready false ∨ (t.readiness = .progressing ∧ r.status = .progressing ∧
      n ≤ (m.polls.get? t.identifier).getD 0))

theorem Tracks.awaited (h : Tracks n l m t) (hm : m.Awaited l m') : Tracks n l m' t := by
  obtain ⟨hfailed, r, hr, hk, hs⟩ := h
  refine ⟨hfailed, ?_⟩
  rcases hm.kept _ _ hr with hr' | ⟨-, hr'⟩
  · refine ⟨r, hr', hk, hs.imp_right ?_⟩
    rintro ⟨ht, hs, hn⟩
    exact ⟨ht, hs, hn.trans (hm.polls _ _ hr' hs)⟩
  · exact ⟨_, hr', by simpa using hk, .inl (by simp)⟩

theorem tracks_of_got {out : Except Refusal Resource × Memory} {steps : Nat}
    (h : m.Got t.kind t.identifier out) (hf : m.faults.Harmless steps) (ht : Tracks n l m t) :
    ∃ r, out.1 = .ok r ∧ Tracks (n + 1) l out.2 { t with readiness := r.readiness } ∧
      (r.readiness = .progressing → n < steps) := by
  obtain ⟨-, r, hr, hk, hs⟩ := ht
  have howns {q : Resource} (hq : out.2.inventory.objects.get? t.identifier = some q) :
      l.Owns out.2 t.identifier q := by
    obtain ⟨p, hp, -⟩ := (h.polled hr.2.1).exists_owns hr
    cases hp.1.symm.trans hq
    exact hp
  cases h with
  | missing hne => exact absurd (Inventory.kindOf?_eq_some_iff.2 ⟨r, hr.1, hk⟩) hne
  | settled hget _ hns =>
    cases hr.1.symm.trans hget
    have hready : r.status = .ready false := hs.resolve_right fun h => hns h.2.1
    have hr' : r.readiness = .ready := by rw [Resource.readiness, hready]; rfl
    exact ⟨r, rfl, ⟨by simp [hr'], r, howns hget, hk, .inl hready⟩, by simp [hr']⟩
  | deployed hget _ hps hp =>
    cases hr.1.symm.trans hget
    rw [hf.finalStatus] at howns ⊢
    have hr' : (r.withStatus (.ready false)).readiness = .ready := by
      rw [Resource.readiness, Resource.status_withStatus]
      rfl
    have hget' : (m.deployed t.identifier r).inventory.objects.get? t.identifier =
        some (r.withStatus (.ready false)) := by
      rw [Memory.deployed, hf.finalStatus, Inventory.get?_put, if_pos rfl]
    exact ⟨_, rfl, ⟨by simp [hr'], _, howns hget', by rwa [Resource.kind_withStatus],
      .inl (Resource.status_withStatus ..)⟩, by simp [hr']⟩
  | counted hget _ hps hp =>
    cases hr.1.symm.trans hget
    have hn := (hs.resolve_left (by simp [hps])).2.2
    have hr' : r.readiness = .progressing := by rw [Resource.readiness, hps]; rfl
    have hpolls : ((m.counted t.identifier).polls.get? t.identifier).getD 0 =
        (m.polls.get? t.identifier).getD 0 + 1 := by simp [Memory.counted]
    refine ⟨r, rfl, ⟨by simp [hr'], r, howns hget, hk, .inr ⟨hr', hps, ?_⟩⟩, fun _ => ?_⟩
    · dsimp only
      omega
    · have := hf.2
      omega

theorem pollOne_meets_gentle (hw : Resting fresh l w) (ht : Tracks n l w.memory t) :
    (pollOne t).Meets (gentle fresh l) (fun out w' => Steady fresh l w w' ∧
      w.memory.Awaited l w'.memory ∧ ∃ t', out = .ok t' ∧ t'.identifier = t.identifier ∧
        Tracks (n + 1) l w'.memory t' ∧
        (t'.readiness = .progressing → n < l.settings.backoff.steps)) w := by
  refine gentle_checkpoint fun w₁ ha₁ => ?_
  have hw₁ := ha₁.resting hw
  have ht₁ := ht.awaited ha₁.awaited
  obtain ⟨-, r, hr, -⟩ := id ht₁
  refine gentle_get hw₁ ⟨r, hr⟩ fun w₂ out ha₂ hgot => ?_
  have ht₂ := ht₁.awaited ha₂.awaited
  obtain ⟨-, r, hr, -⟩ := id ht₂
  have hf := ha₂.sound.tidy.harmless
  obtain ⟨q, hq, htracks, hsteps⟩ := tracks_of_got hgot hf ht₂
  have hsteady : Steady fresh l w { w₂ with memory := out.2 } :=
    ha₁.toSteady.trans (ha₂.toSteady.trans ⟨rfl, ha₂.sound.polled ⟨rfl, hgot.polled hr.2.1⟩⟩)
  have hawaited := ha₁.awaited.trans (ha₂.awaited.trans (hgot.awaited hf hr.2.1))
  rw [hq]
  exact ⟨hsteady, hawaited, _, rfl, rfl, htracks, hsteps⟩

structure Pass (fresh : Nat → Identifier) (l : Layout) (n : Nat) (tracked : List Tracked)
    (w : World) (tracked' : List Tracked) (w' : World) : Prop where
  steady : Steady fresh l w w'
  awaited : w.memory.Awaited l w'.memory
  same : tracked'.map (·.identifier) = tracked.map (·.identifier)
  tracks : ∀ t ∈ tracked', Tracks (n + 1) l w'.memory t
  steps : ∀ t ∈ tracked', t.readiness = .progressing → n < l.settings.backoff.steps

theorem pollAll_meets_gentle (first : Bool) (tracked : List Tracked) (hw : Resting fresh l w)
    (ht : ∀ t ∈ tracked, Tracks n l w.memory t) :
    (pollAll first tracked).Meets (gentle fresh l) (fun out w' =>
      ∃ tracked', out = .ok tracked' ∧ Pass fresh l n tracked w tracked' w') w := by
  induction tracked generalizing w with
  | nil => exact ⟨[], rfl, .refl hw.sound, (Aside.refl hw.sound).awaited, rfl, nofun, nofun⟩
  | cons t tracked ih =>
    have htail : ∀ t ∈ tracked, Tracks n l w.memory t := fun u hu => ht u (List.mem_cons_of_mem _ hu)
    rw [pollAll]
    split
    next hskip =>
      -- What has been ready is not looked at again.
      have hready : t.readiness = .ready := by simpa using (Bool.and_eq_true_iff.1 hskip).2
      refine (ih hw htail).bind ?_ ?_
      · rintro rest w₁ ⟨_, hrest, hp⟩
        cases hrest
        obtain ⟨hfailed, r, hr, hk, hs⟩ := (ht t List.mem_cons_self).awaited hp.awaited
        have hs := hs.resolve_right fun h => absurd (hready.symm.trans h.1) (by simp)
        refine ⟨_, rfl, hp.steady, hp.awaited, by simp [hp.same], ?_, ?_⟩
        · exact List.forall_mem_cons.2 ⟨⟨hfailed, r, hr, hk, .inl hs⟩, hp.tracks⟩
        · exact List.forall_mem_cons.2 ⟨fun h => absurd (hready.symm.trans h) (by simp), hp.steps⟩
      · rintro failure w₁ ⟨_, h, -⟩
        cases h
    next =>
      refine (pollOne_meets_gentle hw (ht t List.mem_cons_self)).bind ?_ ?_
      · rintro _ w₁ ⟨hsteady, hawaited, t', h, hid, htracks, hsteps⟩
        cases h
        refine (ih (hsteady.resting hw) fun u hu => (htail u hu).awaited hawaited).bind ?_ ?_
        · rintro rest w₂ ⟨_, hrest, hp⟩
          cases hrest
          refine ⟨_, rfl, hsteady.trans hp.steady, hawaited.trans hp.awaited,
            by simp [hp.same, hid], ?_, ?_⟩
          · exact List.forall_mem_cons.2 ⟨htracks.awaited hp.awaited, hp.tracks⟩
          · exact List.forall_mem_cons.2 ⟨hsteps, hp.steps⟩
        · rintro failure w₂ ⟨_, h, -⟩
          cases h
      · rintro failure w₁ ⟨-, -, _, h, -⟩
        cases h

theorem pause_meets_gentle (b : Backoff) (current : Duration) (hw : Resting fresh l w) :
    (pause b current).Meets (gentle fresh l) (fun out w' =>
      Aside fresh l w w' ∧ ∃ next, out = .ok next) w := by
  have hsleep (waiting next : Duration) {w₁ : World} (ha₁ : Aside fresh l w w₁) :
      (do
        if ← request (.sleep waiting) then fail .canceled
        return next : Program Duration).Meets (gentle fresh l)
        (fun out w' => Aside fresh l w w' ∧ ∃ next, out = .ok next) w₁ := by
    refine fun w₂ ha₂ => ⟨(ha₁.trans ha₂).resting hw, ?_⟩
    rintro canceled w₃ ⟨hc, rfl⟩
    cases canceled with
    | false => exact ⟨ha₁.trans ha₂, _, rfl⟩
    | true => exact (hc rfl).elim
  rw [pause]
  split
  · refine fun w₁ ha₁ => ⟨trivial, ?_⟩
    rintro draw w₂ rfl
    exact hsleep _ _ ha₁
  · exact hsleep _ _ (.refl hw.sound)

theorem Tracked.progressing_eq {tracked : List Tracked}
    (h : ∀ t ∈ tracked, t.readiness ≠ .failed) :
    Tracked.progressing tracked = .ok (Tracked.idsWith .progressing tracked) := by
  have hfailed : Tracked.idsWith .failed tracked = [] := by
    rw [Tracked.idsWith, List.map_eq_nil_iff, List.filter_eq_nil_iff]
    exact fun t ht => by simpa using h t ht
  rw [Tracked.progressing, hfailed]

def AllReady (l : Layout) (m : Memory) (ids : List Identifier) : Prop :=
  ∀ id ∈ ids, ∃ r, l.Owns m id r ∧ r.status = .ready false

theorem Pass.allReady {tracked tracked' : List Tracked} (h : Pass fresh l n tracked w tracked' w')
    (hp : Tracked.idsWith .progressing tracked' = []) :
    AllReady l w'.memory (tracked.map (·.identifier)) := by
  rw [← h.same]
  intro id hid
  obtain ⟨t, ht, rfl⟩ := List.mem_map.1 hid
  obtain ⟨-, r, hr, -, hs⟩ := h.tracks t ht
  refine ⟨r, hr, hs.resolve_right fun hs => ?_⟩
  rw [Tracked.idsWith, List.map_eq_nil_iff, List.filter_eq_nil_iff] at hp
  exact hp t ht (by simpa using hs.1)

/-- The invariant is that as many passes as there have been, and as there are still to come before
the last one, make up the number of pauses. -/
theorem pollUntilReady_meets_gentle (pauses : Nat) (current : Duration) (first : Bool)
    (tracked : List Tracked) (hw : Resting fresh l w) (hn : n + pauses = l.settings.backoff.steps)
    (ht : ∀ t ∈ tracked, Tracks n l w.memory t) :
    (pollUntilReady l.settings.backoff pauses current first tracked).Meets
      (gentle fresh l) (fun out w' => out = .ok () ∧ Steady fresh l w w' ∧
        w.memory.Awaited l w'.memory ∧ AllReady l w'.memory (tracked.map (·.identifier))) w := by
  induction pauses generalizing w current first tracked n with
  | zero =>
    rw [pollUntilReady]
    refine (pollAll_meets_gentle first tracked hw ht).bind ?_ ?_
    · rintro tracked' w₁ ⟨_, h, hp⟩
      cases h
      rw [Tracked.progressing_eq fun t ht => (hp.tracks t ht).1]
      have hnone : Tracked.idsWith .progressing tracked' = [] := by
        rw [Tracked.idsWith, List.map_eq_nil_iff, List.filter_eq_nil_iff]
        intro t ht hprogressing
        have := hp.steps t ht (by simpa using hprogressing)
        omega
      rw [hnone]
      exact ⟨rfl, hp.steady, hp.awaited, hp.allReady hnone⟩
    · rintro failure w₁ ⟨_, h, -⟩
      cases h
  | succ pauses ih =>
    rw [pollUntilReady]
    refine (pollAll_meets_gentle first tracked hw ht).bind ?_ ?_
    · rintro tracked' w₁ ⟨_, h, hp⟩
      cases h
      rw [Tracked.progressing_eq fun t ht => (hp.tracks t ht).1]
      cases hids : Tracked.idsWith .progressing tracked' with
      | nil => exact ⟨rfl, hp.steady, hp.awaited, hp.allReady hids⟩
      | cons id ids =>
        have hw₁ := hp.steady.resting hw
        refine (pause_meets_gentle _ current hw₁).bind ?_ ?_
        · rintro next w₂ ⟨ha, -⟩
          have ht₂ : ∀ t ∈ tracked', Tracks (n + 1) l w₂.memory t :=
            fun t ht => (hp.tracks t ht).awaited ha.awaited
          refine (ih next false tracked' (ha.resting hw₁) (by omega) ht₂).mono ?_
          rintro out w₃ ⟨hout, hsteady, hawaited, hready⟩
          rw [hp.same] at hready
          exact ⟨hout, hp.steady.trans (ha.toSteady.trans hsteady),
            hp.awaited.trans (ha.awaited.trans hawaited), hready⟩
        · rintro failure w₂ ⟨-, next, h⟩
          cases h
    · rintro failure w₁ ⟨_, h, -⟩
      cases h

/-- Progressing objects that are waited for become ready. -/
theorem settle_meets_gentle (hb : l.settings.backoff.validate = .ok ()) (rs : List Resource)
    (hw : Resting fresh l w) (hr : ∀ r ∈ rs, ∀ id, r.identifier = some id →
      r.readiness = .progressing ∧ ∃ q, l.Owns w.memory id q ∧ q.kind = r.kind ∧
        (q.status = .ready false ∨ q.status = .progressing)) :
    (settle l.settings.backoff rs).Meets (gentle fresh l) (fun out w' =>
      out = .ok () ∧ Steady fresh l w w' ∧ w.memory.Matured l w'.memory ∧
        AllReady l w'.memory (identifiers rs)) w := by
  have htracks : ∀ t ∈ rs.filterMap Tracked.ofResource?, Tracks 0 l w.memory t := by
    intro t ht
    obtain ⟨r, hrm, hrt⟩ := List.mem_filterMap.1 ht
    obtain ⟨id, hid, rfl⟩ := Option.map_eq_some_iff.1 hrt
    obtain ⟨hp, q, hq, hk, hs⟩ := hr r hrm id hid
    refine ⟨by simp [hp], q, hq, hk, hs.imp_right fun hs => ⟨hp, hs, Nat.zero_le _⟩⟩
  have hids : (rs.filterMap Tracked.ofResource?).map (·.identifier) = identifiers rs := by
    rw [identifiers, List.map_filterMap]
    congr 1
    funext r
    cases h : r.identifier <;> simp [Tracked.ofResource?, h]
  rw [settle, waitReady, hb]
  refine (pollUntilReady_meets_gentle _ _ true _ hw (Nat.zero_add _) htracks).attempt ?_
  rw [hids]
  rintro out w' ⟨rfl, hsteady, hawaited, hready⟩
  exact ⟨rfl, hsteady, hawaited.toMatured, hready⟩

end Engine

end BalancerSync
