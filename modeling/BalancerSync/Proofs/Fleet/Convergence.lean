import BalancerSync.Proofs.Fleet.Progress
import BalancerSync.Proofs.Ownership
import Mathlib.Order.Lattice.Nat

namespace BalancerSync

open Program World Rendezvous Filter

variable {fresh : Nat → Identifier} {f : Fleet} {before : Nat} {s : Schedule Memory Unit}
  {phase : Identifier → Phase Shared} {pending : Option Identifier} {m : Memory}
  {draws : List Binary64}

theorem Fleet.meeting_eq (hn : f.loadBalancers.Nodup) : f.meeting = assembled f.loadBalancers :=
  foldl_register_eq f.loadBalancers [] hn

/-- A provider that may be found when a fleet sets out. -/
structure Memory.Ready (fresh : Nat → Identifier) (f : Fleet) (m : Memory) : Prop where
  closed : m.inventory.Closed f.service.tag none
  harmless : m.faults.Harmless f.settings.backoff.steps
  fresh : m.Fresh fresh
  registered : ∀ lb ∈ f.loadBalancers, lb ∈ m.inventory.loadBalancers.keys

/-- A service and settings with which a fleet may set out. -/
structure Fleet.Valid (f : Fleet) : Prop where
  distinct : f.loadBalancers.Nodup
  addresses : f.service.externalAddresses.Nodup
  endpoints : f.service.endpoints.Nodup
  settings : f.settings.validate = .ok ()
  cycles : 7 ≤ f.settings.maxCycles

theorem Joint.start (hf : f.Valid) (hm : m.Ready fresh f) :
    Joint fresh f m.journal.listings (fun _ => .away) none (f.schedule m draws) where
  notHeld := rfl
  orderly := by
    rw [Fleet.schedule, Fleet.meeting_eq hf.distinct]
    exact orderly_assembled _
  length := List.length_map ..
  party i lb t hi ht := by
    have hlb := hm.registered lb (List.mem_of_getElem? hi)
    rw [Fleet.schedule, Fleet.meeting_eq hf.distinct] at *
    have ht : t = .start (Reconciliation.shared (f.layout lb)).reconcile false := by
      simp only [List.getElem?_map, hi, Option.map_some, Option.some.injEq] at ht
      exact ht.symm
    subst ht
    have hw : Resting fresh (f.layout lb) (World.start m none) :=
      ⟨⟨⟨hm.closed, hm.harmless, hm.fresh, nofun⟩, hlb, fun _ _ _ h => nomatch h⟩, rfl, rfl, rfl⟩
    refine ⟨rfl, rfl, hw.sound, .away ?_, fun h => absurd rfl h, rfl⟩
    exact Reconciliation.shared_reconcile_meets_calm hf.settings hf.cycles hf.addresses hf.endpoints
      hw le_rfl
  nothing _ := rfl
  inside i h := by cases h
  listings _ := by
    rw [Fleet.schedule, Fleet.meeting_eq hf.distinct]
    rfl
  most := by
    rw [Fleet.schedule, Fleet.meeting_eq hf.distinct]
    exact .inl rfl

/-- What is known about a fleet is kept by every history in which nothing is canceled. -/
theorem Joint.play (h : Joint fresh f before phase pending s) (hn : f.loadBalancers.Nodup)
    (moves : List Schedule.Move) (hc : ∀ i, .cancel i ∉ moves) :
    ∃ phase pending, Joint fresh f before phase pending (s.play (Memory.provider fresh) moves) := by
  induction moves generalizing s phase pending with
  | nil => exact ⟨phase, pending, h⟩
  | cons move moves ih =>
    have hc' (i : Nat) : .cancel i ∉ moves := fun hi => hc i (List.mem_cons_of_mem _ hi)
    cases move with
    | step i =>
      obtain ⟨phase', pending', h', -⟩ := h.step hn i
      exact ih h' hc'
    | cancel i => exact absurd List.mem_cons_self (hc i)
    | elapse milliseconds => exact ih (h.elapse milliseconds) hc'

/-- How often a load balancer has asked for a snapshot, which it does once in each of its cycles. -/
def Fleet.cycles (s : Schedule Memory Unit) (lb : Identifier) : Nat := s.meeting.callers.count lb

/-- Every load balancer of a fleet is served, and has got there together with the others. -/
structure Fleet.Served (f : Fleet) (before : Nat) (s : Schedule Memory Unit) : Prop where
  succeeded : s.tasks.map Task.result? = f.loadBalancers.map fun _ => some (.ok ())
  serves : ∀ lb ∈ f.loadBalancers, (f.layout lb).Serves s.provider.inventory
  nobody : s.meeting.parties = 0
  listings : s.provider.journal.listings = before + s.meeting.rounds
  rounds : s.meeting.rounds = f.loadBalancers.toFinset.sup (Fleet.cycles s)
  rounds_le : s.meeting.rounds ≤ 7

/-- When all programs of a fleet have come to an end, all load balancers are served. -/
theorem Joint.served (h : Joint fresh f before phase pending s)
    (hend : ∀ t ∈ s.tasks, ∃ r, t.result? = some r) : f.Served before s := by
  have hparty (lb : Identifier) (hlb : lb ∈ f.loadBalancers) : ∃ i t, s.tasks[i]? = some t ∧
      Party fresh f before s pending i lb (phase lb) t ∧ t.result? = some (.ok ()) ∧
      phase lb = .gone := by
    obtain ⟨i, hi⟩ := List.mem_iff_getElem?.1 hlb
    obtain ⟨t, ht⟩ := h.exists_task hi
    obtain ⟨r, hr⟩ := hend t (List.mem_of_getElem? ht)
    obtain ⟨rfl, hgone⟩ := (h.party i lb t hi ht).of_result hr
    exact ⟨i, t, ht, h.party i lb t hi ht, hr, hgone⟩
  have hvisited (lb : Identifier) (hlb : lb ∈ f.loadBalancers) :
      Fleet.cycles s lb ≤ s.meeting.rounds ∧ Fleet.cycles s lb ≤ 7 := by
    obtain ⟨i, t, -, hparty, -, hgone⟩ := hparty lb hlb
    have := hparty.visited
    rwa [hgone] at this
  have hnot : s.meeting.leading = false := by
    by_contra hl
    obtain ⟨lb, hlb, a, -, hleads, -⟩ := h.orderly.led (by simpa using hl)
    obtain ⟨-, -, -, -, -, hgone⟩ := hparty lb hlb
    cases hleads.symm.trans hgone
  have hrounds : s.meeting.rounds = f.loadBalancers.toFinset.sup (Fleet.cycles s) := by
    refine le_antisymm ?_ (Finset.sup_le fun lb hlb => (hvisited lb (List.mem_toFinset.1 hlb)).1)
    rcases h.most with hzero | ⟨lb, hlb, hle⟩
    · rw [hzero]
      exact Nat.zero_le _
    · exact hle.trans (Finset.le_sup (f := Fleet.cycles s) (List.mem_toFinset.2 hlb))
  refine ⟨?_, fun lb hlb => ?_, ?_, h.listings hnot, hrounds, ?_⟩
  · refine List.ext_getElem? fun i => ?_
    rw [List.getElem?_map, List.getElem?_map]
    cases hi : f.loadBalancers[i]? with
    | none =>
      have hle := List.getElem?_eq_none_iff.1 hi
      rw [List.getElem?_eq_none (h.length.trans_le hle)]
      rfl
    | some lb =>
      obtain ⟨t, ht⟩ := h.exists_task hi
      obtain ⟨r, hr⟩ := hend t (List.mem_of_getElem? ht)
      obtain ⟨rfl, -⟩ := (h.party i lb t hi ht).of_result hr
      rw [ht, Option.map_some, Option.map_some, hr]
  · obtain ⟨i, t, -, hparty, -, hgone⟩ := hparty lb hlb
    have hstanding := hparty.standing
    rw [hgone] at hstanding
    cases hstanding with
    | gone hmeets hserves => exact hserves
  · have hnone : (f.loadBalancers.filter fun lb => (phase lb).isHere) = [] := by
      refine List.filter_eq_nil_iff.2 fun lb hlb => ?_
      obtain ⟨-, -, -, -, -, hgone⟩ := hparty lb hlb
      rw [hgone]
      nofun
    rw [Rendezvous.parties, h.orderly.slots, hnone]
    rfl
  · rw [hrounds]
    exact Finset.sup_le fun lb hlb => (hvisited lb (List.mem_toFinset.1 hlb)).2

/-- In whatever order the load balancers of a fleet go on, none of them comes to anything but
success. If each of them goes on again and again, then all of them are served in the end. -/
theorem Fleet.converges (hf : f.Valid) (hm : m.Ready fresh f) (draws : List Binary64) :
    (∀ moves : List Schedule.Move, (∀ i, .cancel i ∉ moves) →
      ∀ t ∈ ((f.schedule m draws).play (Memory.provider fresh) moves).tasks,
        ∀ r, t.result? = some r → r = .ok ()) ∧
    ∀ moves : Nat → Schedule.Move, Schedule.Fair f.loadBalancers.length moves →
      (∀ k i, moves k ≠ .cancel i) →
      ∃ n, ∀ k, n ≤ k →
        f.Served m.journal.listings ((f.schedule m draws).after (Memory.provider fresh) moves k) := by
  have hstart : Joint fresh f m.journal.listings (fun _ => .away) none (f.schedule m draws) :=
    .start hf hm
  refine ⟨fun moves hc t ht r hr => ?_, fun moves hfair hc => ?_⟩
  · obtain ⟨phase, pending, h⟩ := hstart.play hf.distinct moves hc
    obtain ⟨i, hi⟩ := List.mem_iff_getElem?.1 ht
    have hlt : i < f.loadBalancers.length := h.length ▸ (List.getElem?_eq_some_iff.1 hi).1
    exact ((h.party i _ t (List.getElem?_eq_getElem hlt) hi).of_result hr).1
  · have hknown (k : Nat) : ∃ phase pending, Joint fresh f m.journal.listings phase pending
        ((f.schedule m draws).after (Memory.provider fresh) moves k) := by
      refine hstart.play hf.distinct _ fun i hi => ?_
      obtain ⟨j, -, hj⟩ := List.mem_map.1 hi
      exact hc j i hj
    obtain ⟨n, hn⟩ := Schedule.exists_halted (Memory.provider fresh) (f.schedule m draws) moves
    refine ⟨n, fun k hk => ?_⟩
    have hhalted : Halted fresh f m.journal.listings (fun j => moves (k + j))
        (fun j => (f.schedule m draws).after (Memory.provider fresh) moves (k + j)) :=
      { nodup := hf.distinct
        move := fun j => Schedule.after_succ ..
        fair := hfair.shift k
        notCanceled := fun j => hc (k + j)
        known := fun j => hknown (k + j)
        stays := fun j i hi => by
          have hi : i < (f.schedule m draws).tasks.length := by rwa [hstart.length]
          rw [hn (k + j) (by omega) i hi, hn (k + 0) (by omega) i hi] }
    obtain ⟨phase, pending, h⟩ := hknown k
    refine h.served fun t ht => ?_
    obtain ⟨i, hi⟩ := List.mem_iff_getElem?.1 ht
    have hlt : i < f.loadBalancers.length := h.length ▸ (List.getElem?_eq_some_iff.1 hi).1
    cases hp : t.program with
    | ask q next =>
      have hask := (Schedule.program?_eq hi).trans (congrArg some hp)
      exact absurd hask (hhalted.not_ask (List.getElem?_eq_getElem hlt))
    | done a => exact ⟨.ok a, by rw [Task.result?, hp]; rfl⟩
    | fail failure => exact ⟨.error failure, by rw [Task.result?, hp]; rfl⟩

namespace Sample

def fleet : Fleet := ⟨[⟨"lb-1"⟩, ⟨"lb-2"⟩], layout.service, layout.settings⟩

end Sample

theorem sample_fleet_converges : Sample.fleet.Valid ∧ Sample.memory.Ready .scattered Sample.fleet ∧
    Schedule.Fair Sample.fleet.loadBalancers.length (Schedule.byTurns 2) ∧
    (∀ k i, Schedule.byTurns 2 k ≠ .cancel i) ∧
    ∃ n, ∀ k, n ≤ k → Sample.fleet.Served 0
      ((Sample.fleet.schedule Sample.memory []).after (Memory.provider .scattered)
        (Schedule.byTurns 2) k) := by
  have hf : Sample.fleet.Valid :=
    ⟨by decide +kernel, by decide +kernel, by decide +kernel, by decide +kernel, by decide +kernel⟩
  have hm : Sample.memory.Ready .scattered Sample.fleet :=
    ⟨by decide +kernel, by decide +kernel, Memory.fresh_scattered (by decide +kernel),
      by decide +kernel⟩
  have hfair : Schedule.Fair Sample.fleet.loadBalancers.length (Schedule.byTurns 2) :=
    Schedule.fair_byTurns 2
  have hc (k i : Nat) : Schedule.byTurns 2 k ≠ .cancel i := by
    rw [Schedule.byTurns]
    split <;> simp
  exact ⟨hf, hm, hfair, hc, (Fleet.converges hf hm []).2 _ hfair hc⟩

end BalancerSync
