import BalancerSync.Proofs.Fleet.Moves
import BalancerSync.Proofs.Standstill

namespace BalancerSync

open Program World Rendezvous Filter

variable {fresh : Nat → Identifier} {f : Fleet} {before i j k : Nat} {lb : Identifier}
  {s : Schedule Memory Unit} {t : Task Unit} {phase : Identifier → Phase Shared}
  {p : Phase Shared} {pending : Option Identifier} {q : Request} {next : q.Reply → Program Unit}

/-- In the section for one program at a time every request is prompt. -/
theorem isPrompt_of_inside {w : World} (h : (f.calm fresh before lb).allows q w)
    (hw : w.inside = true) : q.isPrompt = true := by
  cases q with
  | watch c =>
    cases c with
    | get kind id | list tag => cases hw.symm.trans h.2.1
    | create r | destroy kind id | tag id tag => cases h
  | sleep d => cases hw.symm.trans h.outside
  | enter => cases hw.symm.trans h.outside
  | arrive lb => cases hw.symm.trans h.1.outside
  | release outcome => cases hw.symm.trans h.2.1
  | _ => rfl

namespace Party

/-- A program that has come to an end is done, and its load balancer is served. -/
theorem of_result {r : Except Failure Unit} (h : Party fresh f before s pending i lb p t)
    (hr : t.result? = some r) : r = .ok () ∧ p = .gone := by
  have hstanding := h.standing
  rw [Task.result?] at hr
  cases hp : t.program with
  | ask q next =>
    rw [hp] at hr
    cases hr
  | _ =>
    rw [hp] at hr hstanding
    cases hr
    cases hstanding with
    | away hmeets => cases hmeets.2
    | leading hmeets => cases hmeets.2
    | gone hmeets hserves => exact ⟨hmeets.1, rfl⟩

/-- A program that has not come to an end asks for something that is allowed to it, or for the
outcome of its round. -/
theorem allows_or_arrive (h : Party fresh f before s pending i lb p t)
    (hp : t.program = ask q next) :
    (f.calm fresh before lb).allows q (s.seen before pending i p t) ∧ p.IsPlain ∨
      q = .arrive lb ∧ ¬ p.IsPlain := by
  have hstanding := h.standing
  rw [hp] at hstanding
  cases hstanding with
  | away hmeets => exact .inl ⟨(hmeets _ (calm_rely_refl _)).1, trivial⟩
  | leading hmeets => exact .inl ⟨(hmeets _ (calm_rely_refl _)).1, trivial⟩
  | gone hmeets hserves => exact .inl ⟨(hmeets _ (calm_rely_refl _)).1, trivial⟩
  | waiting hmeets => exact .inr ⟨rfl, id⟩
  | called hmeets hstance hmatured hlistings => exact .inr ⟨rfl, id⟩
  | holding hmeets => exact .inr ⟨rfl, id⟩

end Party

theorem Joint.exists_task (h : Joint fresh f before phase pending s)
    (hi : f.loadBalancers[i]? = some lb) : ∃ t, s.tasks[i]? = some t :=
  ⟨_, List.getElem?_eq_getElem (h.length ▸ (List.getElem?_eq_some_iff.1 hi).1)⟩

structure Halted (fresh : Nat → Identifier) (f : Fleet) (before : Nat)
    (moves : Nat → Schedule.Move) (run : Nat → Schedule Memory Unit) : Prop where
  nodup : f.loadBalancers.Nodup
  move : ∀ k, run (k + 1) = (run k).move (Memory.provider fresh) (moves k)
  fair : Schedule.Fair f.loadBalancers.length moves
  notCanceled : ∀ k i, moves k ≠ .cancel i
  known : ∀ k, ∃ phase pending, Joint fresh f before phase pending (run k)
  stays : ∀ k, ∀ i < f.loadBalancers.length, (run k).program? i = (run 0).program? i

namespace Halted

variable {moves : Nat → Schedule.Move} {run : Nat → Schedule Memory Unit}
  (h : Halted fresh f before moves run)

include h

theorem still : Schedule.Still (Memory.provider fresh) f.loadBalancers.length moves run :=
  ⟨h.move, h.fair, h.stays⟩

omit h in
theorem lt_length (hi : f.loadBalancers[i]? = some lb) : i < f.loadBalancers.length :=
  (List.getElem?_eq_some_iff.1 hi).1

theorem exists_step (hi : f.loadBalancers[i]? = some lb) (k : Nat) :
    ∃ n, k ≤ n ∧ moves n = .step i :=
  h.fair.steps i (lt_length hi) k

/-- Nobody waits for ever to enter the section: whoever is there gets on. -/
theorem not_enter {next : Unit → Program Unit} (hi : f.loadBalancers[i]? = some lb)
    (hp : (run 0).program? i = some (ask .enter next)) : False := by
  obtain ⟨k, -, hk⟩ := h.exists_step hi 0
  obtain ⟨phase, pending, hjoint⟩ := h.known k
  have hnone := h.still.no_reply (lt_length hi) hp hk
  cases hinside : (run k).inside with
  | none =>
    rw [Schedule.handler, hinside] at hnone
    cases hnone
  | some j =>
    obtain ⟨lb', hj⟩ : ∃ lb', f.loadBalancers[j]? = some lb' :=
      ⟨_, List.getElem?_eq_getElem (hjoint.inside j hinside)⟩
    obtain ⟨t, ht⟩ := hjoint.exists_task hj
    have hparty := hjoint.party j lb' t hj ht
    have haway : phase lb' = .away := by
      by_contra hne
      exact hparty.outside hne hinside
    rw [haway] at hparty
    cases htp : t.program with
    | ask q next' =>
      obtain ⟨hq, -⟩ := (hparty.allows_or_arrive htp).resolve_right fun h => h.2 trivial
      have hprompt := isPrompt_of_inside hq (decide_eq_true hinside)
      have hp' : (run 0).program? j = some (ask q next') := by
        rw [← h.stays k j (hjoint.inside j hinside), Schedule.program?_eq ht, htp]
      cases hprompt.symm.trans (h.still.not_isPrompt (lt_length hj) hp')
    | _ =>
      have hresult := hparty.of_result (by rw [Task.result?, htp]; rfl)
      cases hresult.2

/-- Whoever goes on asking asks for a snapshot that all of them share. -/
theorem eq_arrive (hi : f.loadBalancers[i]? = some lb)
    (hp : (run 0).program? i = some (ask q next)) : q = .arrive lb := by
  obtain ⟨k, -, hk⟩ := h.exists_step hi 0
  obtain ⟨t, ht, htp⟩ := h.still.exists_task (lt_length hi) hp k
  obtain ⟨phase, pending, hjoint⟩ := h.known k
  have hnone := h.still.no_reply (lt_length hi) hp hk
  rcases (hjoint.party i lb t hi ht).allows_or_arrive htp with ⟨hq, -⟩ | ⟨hq, -⟩
  · cases q with
    | watch c =>
      rw [hjoint.handler_watch (p := .away) hi ht c] at hnone
      cases hnone
    | sleep d => exact (h.still.not_sleep (lt_length hi) hp).elim
    | enter => exact (h.not_enter hi hp).elim
    | arrive lb' => exact congrArg Request.arrive hq.2.2
    | release outcome =>
      cases hphase : phase lb with
      | leading a =>
        rw [hjoint.handler_release hi ht hphase outcome] at hnone
        cases hnone
      | _ =>
        rw [hphase] at hq
        cases hq.2.2.1
    | _ => cases h.still.not_isPrompt (lt_length hi) hp
  · exact hq

theorem not_leading {a : Nat} (hi : f.loadBalancers[i]? = some lb)
    (hjoint : Joint fresh f before phase pending (run k)) : phase lb ≠ .leading a := by
  intro hphase
  obtain ⟨t, ht⟩ := hjoint.exists_task hi
  have hparty := hjoint.party i lb t hi ht
  rw [hphase] at hparty
  cases htp : t.program with
  | ask q next =>
    obtain ⟨hq, -⟩ := (hparty.allows_or_arrive htp).resolve_right fun h => h.2 trivial
    have harrive := h.eq_arrive hi ((h.still.program?_zero (lt_length hi) ht).trans (congrArg some htp))
    subst harrive
    cases hq.1.notLeading
  | _ =>
    have hresult := hparty.of_result (by rw [Task.result?, htp]; rfl)
    cases hresult.2

theorem not_called {a : Nat} (hi : f.loadBalancers[i]? = some lb)
    (hjoint : Joint fresh f before phase pending (run k)) : phase lb ≠ .called a := by
  intro hphase
  have hl := hjoint.orderly.leading_of_called (List.mem_of_getElem? hi) hphase
  obtain ⟨lb', hlb', b, -, hleads, -⟩ := hjoint.orderly.led hl
  obtain ⟨j, hj⟩ := List.mem_iff_getElem?.1 hlb'
  exact h.not_leading hj hjoint hleads

/-- Whoever is stepped finds the outcome of its round. -/
theorem not_holding_of_step {a : Nat} {outcome : Outcome Shared}
    (hi : f.loadBalancers[i]? = some lb) (hk : moves k = .step i)
    (hjoint : Joint fresh f before phase pending (run k)) : phase lb ≠ .holding a outcome := by
  intro hphase
  obtain ⟨t, ht⟩ := hjoint.exists_task hi
  have hparty := hjoint.party i lb t hi ht
  rw [hphase] at hparty
  have hp := h.still.program?_zero (lt_length hi) ht
  have hstanding := hparty.standing
  generalize t.program = program at hp hstanding
  cases hstanding with
  | holding hmeets =>
    have hnone := h.still.no_reply (lt_length hi) hp hk
    have hstage := (hjoint.orderly.takeOutcome (List.mem_of_getElem? hi) hphase).2
    rw [Schedule.handler_arrive_of_some _ lb ht hparty.arrival,
      Schedule.turn?_of_ended (s := { run k with meeting := (run k).meeting.step a }) ht hstage]
      at hnone
    cases hnone

/-- Nobody has an outcome to find: nobody else would take it away. -/
theorem not_holding {a : Nat} {outcome : Outcome Shared} (hi : f.loadBalancers[i]? = some lb)
    (hjoint : Joint fresh f before phase pending (run k)) : phase lb ≠ .holding a outcome := by
  intro hphase
  have hholds (n : Nat) (hn : k ≤ n) : ∃ phase pending,
      Joint fresh f before phase pending (run n) ∧ phase lb = .holding a outcome := by
    induction n, hn using Nat.le_induction with
    | base => exact ⟨phase, pending, hjoint, hphase⟩
    | succ n _ ih =>
      obtain ⟨phase, pending, hjoint, hphase⟩ := ih
      rw [h.move]
      cases hm : moves n with
      | step j =>
        obtain ⟨phase', pending', hjoint', hkeeps⟩ := hjoint.step h.nodup j
        refine ⟨phase', pending', hjoint', hkeeps lb (fun hj => ?_) a outcome hphase⟩
        exact h.not_holding_of_step hj hm hjoint hphase
      | cancel j => exact absurd hm (h.notCanceled n j)
      | elapse milliseconds => exact ⟨phase, pending, hjoint.elapse milliseconds, hphase⟩
  obtain ⟨n, hn, hstep⟩ := h.exists_step hi k
  obtain ⟨phase, pending, hjoint, hphase⟩ := hholds n hn
  exact h.not_holding_of_step hi hstep hjoint hphase

/-- Whoever goes on asking has arrived sooner or later. -/
theorem eventually_arrived (hi : f.loadBalancers[i]? = some lb) :
    ∀ᶠ k in atTop, ∀ t, (run k).tasks[i]? = some t → t.result? = none →
      ∃ a, t.arrival = some a := by
  obtain ⟨phase, pending, hjoint⟩ := h.known 0
  obtain ⟨t, ht⟩ := hjoint.exists_task hi
  have hp := Schedule.program?_eq ht
  cases htp : t.program with
  | ask q next =>
    rw [htp] at hp
    have harrive := h.eq_arrive hi hp
    subst harrive
    refine (h.still.eventually_arrived (lt_length hi) hp).mono fun k harrived => ?_
    obtain ⟨t', a, ht', ha⟩ := harrived
    intro t'' ht'' _
    cases ht'.symm.trans ht''
    exact ⟨a, ha⟩
  | _ =>
    refine Eventually.of_forall fun k t' ht' hnone => ?_
    have hp' := h.still.program?_zero (lt_length hi) ht'
    rw [hp] at hp'
    rw [Task.result?, ← Option.some.inj hp', htp] at hnone
    cases hnone

theorem not_ask (hi : f.loadBalancers[i]? = some lb) : (run 0).program? i ≠ some (ask q next) := by
  intro hp
  have harrive := h.eq_arrive hi hp
  subst harrive
  have hall : ∀ᶠ k in atTop, ∀ j : Fin f.loadBalancers.length, ∀ t, (run k).tasks[j.1]? = some t →
      t.result? = none → ∃ a, t.arrival = some a :=
    eventually_all.2 fun j => h.eventually_arrived (List.getElem?_eq_getElem j.2)
  obtain ⟨n, hn⟩ := eventually_atTop.1 hall
  obtain ⟨k, hk, hstep⟩ := h.exists_step hi n
  obtain ⟨phase, pending, hjoint⟩ := h.known k
  -- By now everybody has arrived, so that the step of the program begins a round.
  have hfull : Full f.loadBalancers phase := by
    intro lb' hlb'
    obtain ⟨j, hj⟩ := List.mem_iff_getElem?.1 hlb'
    obtain ⟨t, ht⟩ := hjoint.exists_task hj
    have hparty := hjoint.party j lb' t hj ht
    cases hphase : phase lb' with
    | away =>
      rw [hphase] at hparty
      have hresult : t.result? = none := by
        by_contra hne
        obtain ⟨r, hr⟩ := Option.ne_none_iff_exists'.1 hne
        cases (hparty.of_result hr).2
      obtain ⟨a, ha⟩ := hn k hk ⟨j, (List.getElem?_eq_some_iff.1 hj).1⟩ t ht hresult
      cases hparty.arrival.symm.trans ha
    | waiting a woken => exact .inr ⟨a, woken, rfl⟩
    | called a => exact absurd hphase (h.not_called hj hjoint)
    | holding a outcome => exact absurd hphase (h.not_holding hj hjoint)
    | leading a => exact absurd hphase (h.not_leading hj hjoint)
    | gone => exact .inl rfl
  obtain ⟨t, ht, htp⟩ := h.still.exists_task (lt_length hi) hp k
  have hparty := hjoint.party i lb t hi ht
  rcases hfull lb (List.mem_of_getElem? hi) with hgone | ⟨a, woken, hwaits⟩
  · rw [hgone] at hparty
    obtain ⟨hq, -⟩ := (hparty.allows_or_arrive htp).resolve_right fun h => h.2 trivial
    cases hq.1.here
  · rw [hwaits] at hparty
    have hnone := h.still.no_reply (lt_length hi) hp hstep
    rcases hjoint.orderly.step (List.mem_of_getElem? hi) hwaits with ⟨-, -, round, hstage⟩ | ⟨hnot, -⟩
    · rw [Schedule.handler_arrive_of_some _ lb ht hparty.arrival,
        Schedule.turn?_of_leading (s := { run k with meeting := (run k).meeting.step a }) ht hstage]
        at hnone
      cases hnone
    · exact hnot hfull

end Halted

end BalancerSync
