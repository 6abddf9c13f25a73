import BalancerSync.Proofs.Fleet.Gathering

namespace BalancerSync

open Program World Rendezvous

variable {fresh : Nat → Identifier} {f : Fleet} {before i j : Nat} {lb : Identifier}
  {s s' : Schedule Memory Unit} {t t' : Task Unit} {phase phase' : Identifier → Phase Shared}
  {p p' : Phase Shared} {pending pending' : Option Identifier}

namespace Joint

theorem away_of_plain (hp : p.IsPlain) (hlead : (s.seen before pending i p t).leading = none)
    (hleft : (s.seen before pending i p t).left = false) : p = .away := by
  cases p with
  | away => rfl
  | leading a => cases hlead
  | gone => cases hleft
  | _ => exact hp.elim

/-- The request of a program that is known as of now. -/
theorem ask {q : Request} {next : q.Reply → Program Unit} (h : Joint fresh f before phase pending s)
    (hn : f.loadBalancers.Nodup) (hi : f.loadBalancers[i]? = some lb) (ht : s.tasks[i]? = some t)
    (hp : t.program = ask q next) (hplain : (phase lb).IsPlain) :
    ∃ phase' pending', Joint fresh f before phase' pending' (s.step (Memory.provider fresh) i) ∧
      Keeps f i phase phase' := by
  have hparty := h.party i lb t hi ht
  have hmeets := hparty.standing.meets hplain
  rw [hp] at hmeets
  obtain ⟨hq, hnext⟩ := id hmeets _ (calm_rely_refl _)
  have haway (hrest : Resting fresh (f.layout lb) (s.seen before pending i (phase lb) t)) :
      phase lb = .away := away_of_plain hplain hrest.notLeading hrest.here
  have haway' (hin : Inside fresh (f.layout lb) (s.seen before pending i (phase lb) t)) :
      phase lb = .away := away_of_plain hplain hin.notLeading hin.here
  cases q with
  | call c =>
    have hphase : phase lb = .away := by
      cases c with
      | get kind id => exact haway hq.1
      | list tag => cases hq
      | create r => exact haway' hq.1
      | destroy kind id => exact haway hq.1
      | tag id tag => exact haway' hq.1
    rw [hphase] at hq hnext
    obtain ⟨pending', h'⟩ := h.call hn hi ht hp hphase hq (hnext _ _ rfl)
    exact ⟨phase, pending', h', .refl⟩
  | watch c =>
    have hlead : (s.seen before pending i (phase lb) t).leading.isSome = true := by
      cases c with
      | get kind id | list tag => exact hq.2.2.1.resolve_left fun h => by cases h
      | create r | destroy kind id | tag id tag => cases hq
    cases hphase : phase lb with
    | leading a =>
      rw [hphase] at hq hnext
      exact ⟨phase, pending,
        h.watch hn hi ht hp hphase hq (hnext _ _ (.inr ⟨_, rfl, rfl⟩)), .refl⟩
    | _ =>
      rw [hphase] at hlead
      cases hlead
  | isCanceled =>
    refine ⟨phase, pending, h.quiet hn hi ht hp s.draws t.latest t.wake false ?_
      (hparty.standing.of_meets hplain rfl (hnext false _ ⟨fun h => absurd h Bool.false_ne_true, rfl⟩)), .refl⟩
    rw [Schedule.handler, Schedule.set_eq_self ht, Schedule.isCanceled_eq ht, hparty.notCanceled]
  | sleep d =>
    have hphase := haway hq
    rw [hphase] at hnext
    exact ⟨phase, pending, h.sleep hn hi ht hp hphase (hnext false _ ⟨fun h => absurd h Bool.false_ne_true, rfl⟩), .refl⟩
  | draw =>
    refine ⟨phase, pending, h.quiet hn hi ht hp s.draws.tail t.latest t.wake _ ?_
      (hparty.standing.of_meets hplain rfl (hnext (s.draws.headD (1 / 2)) _ rfl)), .refl⟩
    rw [Schedule.handler, Schedule.set_eq_self ht]
  | latest =>
    refine ⟨phase, pending, h.quiet hn hi ht hp s.draws t.latest t.wake t.latest ?_
      (hparty.standing.of_meets hplain rfl (hnext _ _ ⟨rfl, rfl⟩)), .refl⟩
    rw [Schedule.handler, ht, Schedule.set_eq_self ht]
    rfl
  | remember latest =>
    refine ⟨phase, pending, h.quiet hn hi ht hp s.draws latest t.wake () ?_
      (hparty.standing.of_meets hplain rfl (hnext _ _ rfl)), .refl⟩
    rw [Schedule.handler, Schedule.modifyTask, Schedule.modify_eq_set ht]
  | enter =>
    have hphase := haway hq
    rw [hphase] at hnext
    exact ⟨phase, pending,
      h.enter hn hi ht hp hphase fun hpending => hnext _ _ ⟨hpending, rfl⟩, .refl⟩
  | exit =>
    have hphase := haway' hq.1
    rw [hphase] at hnext
    exact ⟨phase, pending, h.exit hn hi ht hp hphase (of_decide_eq_true hq.1.inside) hq.2
      (hnext _ _ rfl), .refl⟩
  | arrive lb' =>
    obtain ⟨hrest, -, rfl⟩ := hq
    have hphase := haway hrest
    rw [hphase] at hmeets
    obtain ⟨phase', h', hkeeps⟩ := h.arrive hn hi ht hp hphase hmeets
    exact ⟨phase', pending, h', hkeeps⟩
  | release outcome =>
    cases hphase : phase lb with
    | leading a =>
      rw [hphase] at hq hnext
      obtain ⟨phase', h', hkeeps⟩ := h.release hn hi ht hp hphase hq (hnext _ _ ⟨rfl, rfl⟩)
      exact ⟨phase', pending, h', hkeeps⟩
    | _ =>
      rw [hphase] at hq
      cases hq.2.2.1
  | leave lb' =>
    obtain ⟨hrest, -, rfl, -⟩ := id hq
    have hphase := haway hrest
    rw [hphase] at hq hnext
    obtain ⟨phase', h', hkeeps⟩ := h.leave hn hi ht hp hphase hq (hnext _ _ ⟨rfl, rfl⟩)
    exact ⟨phase', pending, h', hkeeps⟩

/-- What is known about a fleet is kept by every step. -/
theorem step (h : Joint fresh f before phase pending s) (hn : f.loadBalancers.Nodup) (i : Nat) :
    ∃ phase' pending', Joint fresh f before phase' pending' (s.step (Memory.provider fresh) i) ∧
      Keeps f i phase phase' := by
  cases ht : s.tasks[i]? with
  | none =>
    rw [Schedule.step, ht]
    exact ⟨phase, pending, h, .refl⟩
  | some t =>
    have hlt : i < f.loadBalancers.length := h.length ▸ (List.getElem?_eq_some_iff.1 ht).1
    have hi := List.getElem?_eq_getElem hlt
    generalize f.loadBalancers[i] = lb at hi
    have hparty := h.party i lb t hi ht
    by_cases hplain : (phase lb).IsPlain
    · cases hp : t.program with
      | ask q next => exact h.ask hn hi ht hp hplain
      | done a =>
        rw [Schedule.step_of_done ht hp]
        exact ⟨phase, pending, h, .refl⟩
      | fail failure =>
        rw [Schedule.step_of_fail ht hp]
        exact ⟨phase, pending, h, .refl⟩
    · have hstanding := hparty.standing
      generalize hprogram : t.program = program at hstanding
      cases hphase : phase lb with
      | waiting a woken =>
        rw [hphase] at hstanding
        cases hstanding with
        | waiting hmeets =>
          obtain ⟨phase', h', hkeeps⟩ := h.arriveWaiting hn hi ht hprogram hphase hmeets
          exact ⟨phase', pending, h', hkeeps⟩
      | called a =>
        rw [hphase] at hstanding
        cases hstanding with
        | called hmeets hstance hmatured hlistings =>
          exact ⟨phase, pending, h.arriveCalled hn hi ht hprogram hphase, .refl⟩
      | holding a outcome =>
        rw [hphase] at hstanding
        cases hstanding with
        | holding hmeets =>
          obtain ⟨phase', h', hkeeps⟩ := h.arriveHolding hn hi ht hprogram hphase hmeets
          exact ⟨phase', pending, h', hkeeps⟩
      | _ =>
        rw [hphase] at hplain
        exact absurd trivial hplain

/-- What is known about a fleet does not depend on the clock. -/
theorem elapse (h : Joint fresh f before phase pending s) (milliseconds : Nat) :
    Joint fresh f before phase pending (s.elapse milliseconds) where
  notHeld := h.notHeld
  orderly := h.orderly
  length := h.length
  party i lb t hi ht := (h.party i lb t hi ht).same rfl Iff.rfl rfl rfl
  nothing := h.nothing
  inside := h.inside
  listings := h.listings
  most := h.most

end Joint

end BalancerSync
