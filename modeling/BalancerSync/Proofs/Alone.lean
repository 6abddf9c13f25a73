import BalancerSync.Proofs.Convergence
import BalancerSync.Proofs.Ownership
import BalancerSync.Run.Alone

namespace BalancerSync

open World

variable {fresh : Nat → Identifier} {l : Layout} {bound : Nat} {w : World} {α : Type}
  {k : Conditions Memory} {s : Surroundings Memory}

/-- Nothing has canceled the program, and nothing is going to. -/
structure Surroundings.Uncanceled {σ : Type} (k : Conditions σ) (s : Surroundings σ) : Prop where
  notCanceled : s.canceled = false
  noTime : s.cancelAt = none
  noEvent : ∀ events, k.cancels events = false

/-- A call of a program that leads no round is recorded, and then answered by its own provider. -/
theorem Surroundings.answer_eq {σ : Type} {k : Conditions σ} {s : Surroundings σ}
    (hl : s.leads = none) (c : Call) : s.answer k c = ((k.own.answer c s.provider).1,
      { s.record k (.called c) with provider := (k.own.answer c s.provider).2 }) := by
  rw [answer, record, hl]
  rfl

namespace Surroundings.Uncanceled

variable {σ : Type} {k : Conditions σ} {s : Surroundings σ}

theorem record (h : s.Uncanceled k) (e : Event) : (s.record k e).Uncanceled k where
  notCanceled := by rw [Surroundings.record, h.notCanceled, h.noEvent, Bool.or_false]
  noTime := h.noTime
  noEvent := h.noEvent

theorem answer (h : s.Uncanceled k) (c : Call) : (s.answer k c).2.Uncanceled k where
  notCanceled := (h.record (.called c)).notCanceled
  noTime := h.noTime
  noEvent := h.noEvent

theorem sleep (h : s.Uncanceled k) (d : Duration) : s.sleep k d =
    (false, { s.record k (.slept d.milliseconds) with clock := s.clock + d.milliseconds }) := by
  have hcanceled := (h.record (.slept d.milliseconds)).notCanceled
  have htime := (h.record (.slept d.milliseconds)).noTime
  rw [Surroundings.sleep]
  simp only [hcanceled, htime, Option.filter_none]
  rfl

end Surroundings.Uncanceled

/-- The provider is the one in memory, and the program leads no round. -/
structure Surroundings.Calm (fresh : Nat → Identifier) (k : Conditions Memory)
    (s : Surroundings Memory) : Prop extends s.Uncanceled k where
  own : k.own = Memory.provider fresh
  leads : s.leads = none

/-- Whether the surroundings are as the world tells, as far as a program that runs alone can see. -/
structure World.Near (fresh : Nat → Identifier) (k : Conditions Memory) (w : World)
    (s : Surroundings Memory) : Prop extends s.Calm fresh k where
  memory : w.memory = s.provider
  latest : w.latest = s.latest

structure World.Around (fresh : Nat → Identifier) (k : Conditions Memory) (w : World)
    (s : Surroundings Memory) : Prop extends s.Calm fresh k where
  memory : w.memory = s.provider
  latest : w.latest = s.latest
  notLeading : w.leading = none
  nothing : w.inside = false → w.pending = none

def Request.Solitary : Request → Prop
  | .arrive _ | .release _ | .leave _ => False
  | _ => True

/-- Surroundings in which nobody else does anything, and which do not cancel the program. -/
def World.quiet (fresh : Nat → Identifier) : Environment World where
  rely w w' := w' = w
  allows q _ := q.Solitary
  replies := Acts fresh False

namespace World.Near

theorem answer (h : w.Near fresh k s) (c : Call) :
    (s.answer k c).1 = (w.answer fresh c).1 ∧ (w.answer fresh c).2.Near fresh k (s.answer k c).2 := by
  have hs := h.toUncanceled.answer c
  rw [Surroundings.answer_eq h.leads, World.answer, h.memory, h.own] at *
  exact ⟨rfl, ⟨hs, h.own, h.leads⟩, rfl, h.latest⟩

/-- A request of a program that runs alone is answered. -/
theorem handler (h : w.Near fresh k s) (q : Request) (hq : q.Solitary) :
    ∃ reply w', (Surroundings.handler k q s).1 = some reply ∧ Acts fresh False q w reply w' ∧
      w'.Near fresh k (Surroundings.handler k q s).2 := by
  cases q with
  | call c =>
    obtain ⟨ha, hw⟩ := h.answer c
    exact ⟨_, _, rfl, Prod.ext ha rfl, hw⟩
  | watch c =>
    obtain ⟨ha, hw⟩ := h.answer c
    exact ⟨_, _, rfl, .inr ⟨_, rfl, Prod.ext ha rfl⟩, hw⟩
  | isCanceled => exact ⟨_, w, rfl, ⟨fun hc => absurd (h.notCanceled.symm.trans hc) nofun, rfl⟩, h⟩
  | sleep d =>
    rw [Surroundings.handler, h.sleep d]
    exact ⟨false, w, rfl, ⟨nofun, rfl⟩, ⟨⟨(h.record _).notCanceled, h.noTime, h.noEvent⟩, h.own,
      h.leads⟩, h.memory, h.latest⟩
  | draw => exact ⟨_, w, rfl, rfl, { h with }⟩
  | latest => exact ⟨_, w, rfl, ⟨h.latest.symm, rfl⟩, h⟩
  | remember latest => exact ⟨_, { w with latest }, rfl, rfl, { h with latest := rfl }⟩
  | enter => exact ⟨_, _, rfl, rfl, { h with }⟩
  | exit => exact ⟨_, _, rfl, rfl, { h with }⟩
  | arrive | release | leave => exact hq.elim

/-- A program that comes to something in quiet surroundings does come to it. -/
theorem exists_run {p : Program α} {post : Except Failure α → World → Prop}
    (h : w.Near fresh k s) (hp : p.Meets (quiet fresh) post w) :
    ∃ out s' w', p.run (Surroundings.handler k) s = (some out, s') ∧ w'.Near fresh k s' ∧
      post out w' :=
  Program.Meets.exists_run (fun _ => rfl) (fun q _ _ h hq => h.handler q hq) h hp

end World.Near

theorem World.Acts.leading {cancelable : Prop} {q : Request} {reply : q.Reply} {w' : World}
    (h : Acts fresh cancelable q w reply w') : w'.leading = w.leading := by
  cases h.effect <;> rfl

namespace World.Around

theorem near (h : w.Around fresh k s) : w.Near fresh k s := { h with }

/-- A request that is allowed is answered, and the reply is one that is relied upon. -/
theorem handler (h : w.Around fresh k s) (q : Request) (hq : (calm fresh l true bound).allows q w) :
    ∃ reply w', (Surroundings.handler k q s).1 = some reply ∧
      (calm fresh l true bound).replies q w reply w' ∧
      w'.Around fresh k (Surroundings.handler k q s).2 := by
  have hsolitary : q.Solitary := by
    cases q with
    | arrive lb | leave lb => cases hq.2.1
    | release outcome =>
      have hlead := hq.2.2.1
      rw [h.notLeading] at hlead
      cases hlead
    | call | watch | isCanceled | sleep | draw | latest | remember | enter | exit => trivial
  obtain ⟨reply, w', hreply, hacts, hnear⟩ := h.near.handler q hsolitary
  refine ⟨reply, w', hreply, ?_,
    { hnear with notLeading := hacts.leading.trans h.notLeading, nothing := ?_ }⟩
  · cases q with
    | enter => exact ⟨h.nothing hq.outside, hacts⟩
    | call | watch | isCanceled | sleep | draw | latest | remember | exit => exact hacts
    | arrive | release | leave => exact hsolitary.elim
  · intro hi
    cases hacts.effect with
    | none => exact h.nothing hi
    | call c =>
      cases c with
      | get kind id | destroy kind id => exact h.nothing hi
      | list tag => exact hq.elim
      | create r | tag id tag => cases hi.symm.trans hq.1.inside
    | watch c =>
      cases c with
      | get kind id | list tag => exact h.nothing hi
      | create r | destroy kind id | tag id tag => exact hq.elim
    | remember latest => exact h.nothing hi
    | enter => cases hi
    | exit => exact hq.2

/-- A program that comes to something in calm surroundings does come to it. -/
theorem exists_run {p : Program α} {post : Except Failure α → World → Prop}
    (h : w.Around fresh k s) (hp : p.Meets (calm fresh l true bound) post w) :
    ∃ out s' w', p.run (Surroundings.handler k) s = (some out, s') ∧ w'.Around fresh k s' ∧
      post out w' :=
  Program.Meets.exists_run (fun _ => Or.inl rfl) (fun q _ _ h hq => h.handler q hq) h hp

end World.Around

/-- If nothing is to be reachable, nothing serves the service. -/
theorem Layout.Serves.not_owns {v : Inventory} (h : l.Serves v) (hp : l.service.ports = ∅)
    (id : Identifier) (r : Resource) : ¬ v.Owns l.service.tag l.loadBalancer id r := by
  intro hr
  obtain ⟨identifier, hperm⟩ := h
  have hmem : r ∈ l.deployed identifier :=
    hperm.mem_iff.1 (List.mem_map.2 ⟨(id, r), Inventory.mem_share_iff.2 hr, rfl⟩)
  rw [deployed, complete, hp] at hmem
  cases hmem

namespace Reconciliation

/-- Whatever is left of former reconciliations, and however far they came: a reconciliation that
fetches its own snapshots succeeds, and seven cycles with one listing each are enough. If its service
has no ports any more, nothing of it is left. -/
theorem succeeds_within_seven_cycles (hs : s.Calm fresh k)
    (hclosed : s.provider.inventory.Closed l.service.tag none)
    (hfaults : s.provider.faults.Harmless l.settings.backoff.steps) (hfresh : s.provider.Fresh fresh)
    (hlb : l.loadBalancer ∈ s.provider.inventory.loadBalancers.keys)
    (ha : l.service.externalAddresses.Nodup) (he : l.service.endpoints.Nodup)
    (hv : l.settings.validate = .ok ()) (hc : 7 ≤ l.settings.maxCycles) :
    ∃ s', (direct l).reconcile.run (Surroundings.handler k) s = (some (.ok ()), s') ∧
      s'.provider.journal.listings ≤ s.provider.journal.listings + 7 ∧
      l.Serves s'.provider.inventory ∧
      (l.service.ports = ∅ → ∀ id r, ¬ l.Owns s'.provider id r) := by
  have hw : Resting fresh l (start s.provider s.latest) :=
    ⟨⟨⟨hclosed, hfaults, hfresh, nofun⟩, hlb, fun _ _ _ h => nomatch h⟩, rfl, rfl, rfl⟩
  have hmeets := @direct_reconcile_meets_calm fresh 0 l _ hv hc ha he hw
  have haround : (start s.provider s.latest).Around fresh k s := ⟨hs, rfl, rfl, rfl, fun _ => rfl⟩
  obtain ⟨out, s', w', hrun, hw', rfl, hserves, hle⟩ :=
    haround.exists_run hmeets
  rw [World.inventory, hw'.memory] at hserves
  rw [hw'.memory] at hle
  exact ⟨s', hrun, hle, hserves, fun hp => hserves.not_owns hp⟩

end Reconciliation

theorem sample_succeeds_within_seven_cycles :
    (Surroundings.initial Sample.memory).Calm .scattered
      ⟨Memory.provider .scattered, Memory.provider .scattered, fun _ => false⟩ ∧
    Sample.inventory.Closed Sample.layout.service.tag none ∧
    Sample.memory.faults.Harmless Sample.layout.settings.backoff.steps ∧
    Sample.memory.Fresh .scattered ∧
    Sample.layout.loadBalancer ∈ Sample.inventory.loadBalancers.keys ∧
    Sample.layout.service.externalAddresses.Nodup ∧ Sample.layout.service.endpoints.Nodup ∧
    Sample.layout.settings.validate = .ok () ∧ 7 ≤ Sample.layout.settings.maxCycles ∧
    ∃ s', (Reconciliation.direct Sample.layout).reconcile.run
        (Surroundings.handler
          ⟨Memory.provider .scattered, Memory.provider .scattered, fun _ => false⟩)
        (.initial Sample.memory) = (some (.ok ()), s') ∧ s'.provider.journal.listings ≤ 7 ∧
      Sample.layout.Serves s'.provider.inventory := by
  have hs : (Surroundings.initial Sample.memory).Calm .scattered
      ⟨Memory.provider .scattered, Memory.provider .scattered, fun _ => false⟩ :=
    ⟨⟨rfl, rfl, fun _ => rfl⟩, rfl, rfl⟩
  have hclosed : Sample.inventory.Closed Sample.layout.service.tag none := by decide +kernel
  have hfaults : Sample.memory.faults.Harmless Sample.layout.settings.backoff.steps := by
    decide +kernel
  have hfresh : Sample.memory.Fresh .scattered := Memory.fresh_scattered (by decide +kernel)
  have hlb : Sample.layout.loadBalancer ∈ Sample.inventory.loadBalancers.keys := by decide +kernel
  have ha : Sample.layout.service.externalAddresses.Nodup := by decide +kernel
  have he : Sample.layout.service.endpoints.Nodup := by decide +kernel
  have hv : Sample.layout.settings.validate = .ok () := by decide +kernel
  have hc : 7 ≤ Sample.layout.settings.maxCycles := by decide +kernel
  refine ⟨hs, hclosed, hfaults, hfresh, hlb, ha, he, hv, hc, ?_⟩
  obtain ⟨s', hrun, hle, hserves, -⟩ :=
    Reconciliation.succeeds_within_seven_cycles hs hclosed hfaults hfresh hlb ha he hv hc
  exact ⟨s', hrun, hle, hserves⟩

end BalancerSync
