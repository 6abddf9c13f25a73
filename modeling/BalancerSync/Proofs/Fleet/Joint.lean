import BalancerSync.Proofs.Fleet.Standing
import BalancerSync.Proofs.Together

namespace BalancerSync

open Program World Rendezvous

variable {fresh : Nat → Identifier} {f : Fleet} {before i j : Nat} {lb : Identifier}
  {s s' : Schedule Memory Unit} {t t' : Task Unit} {phase phase' : Identifier → Phase Shared}
  {p p' : Phase Shared} {pending pending' : Option Identifier}

def Rendezvous.Phase.begun (count : Nat) : Phase Shared → Option Nat
  | .leading _ => some count
  | _ => none

def Schedule.seen (s : Schedule Memory Unit) (before : Nat) (pending : Option Identifier) (i : Nat)
    (p : Phase Shared) (t : Task Unit) : World where
  latest := t.latest
  inside := s.inside = some i
  leading := p.begun (before + s.meeting.rounds)
  left := !p.isHere
  memory := s.provider
  pending

def Rendezvous.Phase.Visited (rounds visits : Nat) : Phase Shared → Prop
  | .away | .holding _ _ => visits = rounds
  | .waiting _ _ | .called _ | .leading _ => visits = rounds + 1
  | .gone => visits ≤ rounds ∧ visits ≤ 7

structure Party (fresh : Nat → Identifier) (f : Fleet) (before : Nat) (s : Schedule Memory Unit)
    (pending : Option Identifier) (i : Nat) (lb : Identifier) (p : Phase Shared) (t : Task Unit) :
    Prop where
  notCanceled : t.canceled = false
  arrival : t.arrival = p.arrival?
  sound : Sound fresh (f.layout lb) (s.seen before pending i p t)
  standing : Standing fresh f before s.meeting.rounds lb (s.seen before pending i p t) p t.program
  outside : p ≠ .away → s.inside ≠ some i
  visited : p.Visited s.meeting.rounds (s.meeting.callers.count lb)

/-- What is known about a fleet, with the places of all load balancers and the object that has not
been tagged. -/
structure Joint (fresh : Nat → Identifier) (f : Fleet) (before : Nat)
    (phase : Identifier → Phase Shared) (pending : Option Identifier) (s : Schedule Memory Unit) :
    Prop where
  notHeld : s.held = false
  orderly : Orderly f.loadBalancers phase s.meeting
  length : s.tasks.length = f.loadBalancers.length
  party : ∀ i lb t, f.loadBalancers[i]? = some lb → s.tasks[i]? = some t →
    Party fresh f before s pending i lb (phase lb) t
  nothing : s.inside = none → pending = none
  inside : ∀ i, s.inside = some i → i < f.loadBalancers.length
  listings : s.meeting.leading = false →
    s.provider.journal.listings = before + s.meeting.rounds
  most : s.meeting.rounds = 0 ∨
    ∃ lb ∈ f.loadBalancers, s.meeting.rounds ≤ s.meeting.callers.count lb

/-- The other load balancers that have not seen the outcome of their round will find it. -/
def Keeps (f : Fleet) (i : Nat) (phase phase' : Identifier → Phase Shared) : Prop :=
  ∀ lb, f.loadBalancers[i]? ≠ some lb → ∀ a outcome,
    phase lb = .holding a outcome → phase' lb = .holding a outcome

theorem Keeps.refl : Keeps f i phase phase := fun _ _ _ _ h => h

theorem Keeps.update (hi : f.loadBalancers[i]? = some lb) {g : Phase Shared → Phase Shared}
    (hg : ∀ a outcome, g (.holding a outcome) = .holding a outcome) :
    Keeps f i phase (Function.update (fun lb => g (phase lb)) lb p) := by
  intro lb' hne a outcome hp
  have hne : lb' ≠ lb := by
    rintro rfl
    exact hne hi
  rw [Function.update_of_ne hne, hp, hg]

namespace Party

/-- Nothing has happened as far as the load balancer can tell. -/
theorem same (h : Party fresh f before s pending i lb p t)
    (hseen : s'.seen before pending' i p t = s.seen before pending i p t)
    (hi : s'.inside = some i ↔ s.inside = some i) (hr : s'.meeting.rounds = s.meeting.rounds)
    (hc : s'.meeting.callers.count lb = s.meeting.callers.count lb) :
    Party fresh f before s' pending' i lb p t where
  notCanceled := h.notCanceled
  arrival := h.arrival
  sound := hseen ▸ h.sound
  standing := by
    rw [hseen, hr]
    exact h.standing
  outside hp := mt hi.1 (h.outside hp)
  visited := by
    rw [hr, hc]
    exact h.visited

theorem beside (h : Party fresh f before s pending i lb p t)
    (hb : Beside fresh (f.layout lb) (s.seen before pending i p t) (s'.seen before pending' i p t))
    (hlead : ∀ a, p ≠ .leading a) (hi : s'.inside = s.inside) (hm : s'.meeting = s.meeting) :
    Party fresh f before s' pending' i lb p t where
  notCanceled := h.notCanceled
  arrival := h.arrival
  sound := hb.sound
  standing := by
    rw [hm]
    refine h.standing.beside hb rfl hlead ?_
    cases p <;> first | rfl | exact absurd rfl (hlead _)
  outside hp := hi ▸ h.outside hp
  visited := hm ▸ h.visited

theorem polled (h : Party fresh f before s pending i lb p t)
    (hp : World.Polled f.service.tag (s.seen before pending i p t) (s'.seen before pending i p t))
    (hphase : (∃ a, p = .called a) ∨ p = .gone) (hi : s'.inside = s.inside)
    (hm : s'.meeting = s.meeting) : Party fresh f before s' pending i lb p t where
  notCanceled := h.notCanceled
  arrival := h.arrival
  sound := h.sound.polled hp
  standing := by
    rw [hm]
    exact h.standing.polled hp h.sound hphase rfl
  outside hp := hi ▸ h.outside hp
  visited := hm ▸ h.visited

end Party

/-- Task `i` has become another one, and whatever else has happened is known. -/
theorem Joint.next (h : Joint fresh f before phase pending s) (hn : f.loadBalancers.Nodup)
    (hi : f.loadBalancers[i]? = some lb) (htasks : s'.tasks = s.tasks.set i t')
    (hheld : s'.held = s.held) (horderly : Orderly f.loadBalancers phase' s'.meeting)
    (hparty : Party fresh f before s' pending' i lb (phase' lb) t')
    (hothers : ∀ j lb' t, j ≠ i → lb' ≠ lb → lb' ∈ f.loadBalancers →
      Party fresh f before s pending j lb' (phase lb') t →
      Party fresh f before s' pending' j lb' (phase' lb') t)
    (hnothing : s'.inside = none → pending' = none)
    (hinside : s'.inside = s.inside ∨ s'.inside = none ∨ s'.inside = some i)
    (hlistings : s'.meeting.leading = false →
      s'.provider.journal.listings = before + s'.meeting.rounds)
    (hmost : s'.meeting.rounds = 0 ∨
      ∃ lb ∈ f.loadBalancers, s'.meeting.rounds ≤ s'.meeting.callers.count lb) :
    Joint fresh f before phase' pending' s' where
  notHeld := hheld.trans h.notHeld
  orderly := horderly
  length := by rw [htasks, List.length_set, h.length]
  party j lb' t hj ht := by
    by_cases hji : j = i
    · subst hji
      cases hi.symm.trans hj
      rw [htasks, List.getElem?_set_self'] at ht
      obtain ⟨_, -, rfl⟩ := Option.map_eq_some_iff.1 ht
      exact hparty
    · have hne : lb' ≠ lb := by
        rintro rfl
        have hlt := (List.getElem?_eq_some_iff.1 hj).1
        exact hji ((List.getElem?_inj hlt hn).1 (hj.trans hi.symm))
      rw [htasks, List.getElem?_set_ne (Ne.symm hji)] at ht
      exact hothers j lb' t hji hne (List.mem_of_getElem? hj) (h.party j lb' t hj ht)
  nothing := hnothing
  inside j hj := by
    rcases hinside with heq | heq | heq
    · exact h.inside j (heq ▸ hj)
    · cases heq.symm.trans hj
    · cases heq.symm.trans hj
      exact (List.getElem?_eq_some_iff.1 hi).1
  listings := hlistings
  most := hmost

end BalancerSync
