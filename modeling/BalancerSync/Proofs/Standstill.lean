import BalancerSync.Proofs.Together

namespace BalancerSync

open Program Filter

/-- Whether there is a reply at once, whatever the other programs do. -/
def Request.isPrompt : Request → Bool
  | .watch _ | .sleep _ | .enter | .arrive _ | .release _ => false
  | _ => true

namespace Schedule

variable {σ α : Type} {own : Provider σ} {s : Schedule σ α} {t : Task α} {n i k : Nat} {q : Request}
  {next : q.Reply → Program α} {moves : Nat → Move} {run : Nat → Schedule σ α}

theorem handler_of_isPrompt (h : q.isPrompt = true) : (handler own i q s).1 ≠ none := by
  cases q with
  | watch c | sleep d | enter | arrive lb | release outcome => cases h
  | _ => exact Option.some_ne_none _

theorem handler_sleep_of_canceled {d : Duration} {wake : Nat} (ht : s.tasks[i]? = some t)
    (hc : t.canceled = true) (hw : t.wake = some wake) :
    (handler own i (.sleep d) s).1 = some true := by
  rw [handler, sleep, ht]
  simp only [Option.bind_some, hw, isCanceled_eq ht, hc]
  rfl

structure Still (own : Provider σ) (n : Nat) (moves : Nat → Move) (run : Nat → Schedule σ α) :
    Prop where
  move : ∀ k, run (k + 1) = (run k).move own (moves k)
  fair : Fair n moves
  stays : ∀ k, ∀ i < n, (run k).program? i = (run 0).program? i

namespace Still

variable (h : Still own n moves run)

include h

theorem program?_eq (hi : i < n) (hp : (run 0).program? i = some (ask q next)) (k : Nat) :
    (run k).program? i = some (ask q next) := (h.stays k i hi).trans hp

theorem program?_zero (hi : i < n) (ht : (run k).tasks[i]? = some t) :
    (run 0).program? i = some t.program := (h.stays k i hi).symm.trans (Schedule.program?_eq ht)

theorem exists_task (hi : i < n) (hp : (run 0).program? i = some (ask q next)) (k : Nat) :
    ∃ t, (run k).tasks[i]? = some t ∧ t.program = ask q next :=
  Schedule.exists_task (h.program?_eq hi hp k)

theorem no_reply (hi : i < n) (hp : (run 0).program? i = some (ask q next)) (hk : moves k = .step i) :
    (handler own i q (run k)).1 = none := by
  have hthen := h.program?_eq hi hp (k + 1)
  rw [h.move, hk, Schedule.move, program?_step_self, h.program?_eq hi hp k] at hthen
  exact no_reply_of_step_eq (Option.some.inj hthen)

theorem not_isPrompt (hi : i < n) (hp : (run 0).program? i = some (ask q next)) :
    q.isPrompt = false := by
  by_contra hq
  obtain ⟨k, -, hk⟩ := h.fair.steps i hi 0
  exact handler_of_isPrompt (by simpa using hq) (h.no_reply hi hp hk)

/-- A move of something else does at most cancel a task. -/
theorem exists_task_succ (hk : moves k ≠ .step i) (ht : (run k).tasks[i]? = some t) :
    ∃ canceled, (run (k + 1)).tasks[i]? = some { t with canceled } := by
  rw [h.move]
  cases hm : moves k with
  | step j =>
    refine ⟨t.canceled, (getElem?_step_of_ne ?_).trans ht⟩
    rintro rfl
    exact hk hm
  | cancel j => exact exists_task_cancel j ht
  | elapse milliseconds => exact ⟨t.canceled, ht⟩

theorem clock_le {m : Nat} (hm : k ≤ m) : (run k).clock ≤ (run m).clock := by
  induction m, hm using Nat.le_induction with
  | base => rfl
  | succ m _ ih =>
    refine ih.trans ?_
    rw [h.move]
    cases moves m with
    | step j => exact clock_step.ge
    | cancel j => exact (clock_cancel j).ge
    | elapse milliseconds => exact Nat.le_add_right ..

theorem exists_le_clock (time : Nat) : ∃ k, time ≤ (run k).clock := by
  induction time with
  | zero => exact ⟨0, Nat.zero_le _⟩
  | succ time ih =>
    obtain ⟨k, hk⟩ := ih
    obtain ⟨m, milliseconds, hm, hpos, hmove⟩ := h.fair.elapses k
    have hle := h.clock_le hm
    have hclock : (run (m + 1)).clock = (run m).clock + milliseconds := by
      rw [h.move, hmove]
      rfl
    exact ⟨m + 1, by omega⟩

theorem exists_wake {d : Duration} {next : Bool → Program α} (hi : i < n)
    (hp : (run 0).program? i = some (ask (.sleep d) next)) :
    ∃ k wake t, (run k).tasks[i]? = some t ∧ t.wake = some wake := by
  obtain ⟨k, -, hk⟩ := h.fair.steps i hi 0
  obtain ⟨t, ht, htp⟩ := h.exists_task hi hp k
  cases hw : t.wake with
  | none =>
    refine ⟨k + 1, (run k).clock + d.milliseconds, ?_⟩
    rw [h.move, hk, Schedule.move, tasks_step_of_none ht htp (handler_sleep_of_none ht hw) rfl]
    exact ⟨_, List.getElem?_set_self (List.getElem?_eq_some_iff.1 ht).1, rfl⟩
  | some wake => exact ⟨k, wake, t, ht, hw⟩

/-- Whoever is stepped while it sleeps has not been canceled, and it is too early for it. -/
theorem asleep_of_step {d : Duration} {next : Bool → Program α} {wake : Nat} (hi : i < n)
    (hp : (run 0).program? i = some (ask (.sleep d) next)) (hk : moves k = .step i)
    (ht : (run k).tasks[i]? = some t) (hw : t.wake = some wake) :
    t.canceled = false ∧ (run k).clock < wake := by
  have hnone := h.no_reply hi hp hk
  have hc : t.canceled = false := by
    by_contra hc
    rw [handler_sleep_of_canceled ht (by simpa using hc) hw] at hnone
    cases hnone
  refine ⟨hc, ?_⟩
  by_contra hclock
  rw [handler_sleep_of_le ht hc hw (Nat.le_of_not_lt hclock)] at hnone
  cases hnone

theorem wake_succ {d : Duration} {next : Bool → Program α} {wake : Nat} (hi : i < n)
    (hp : (run 0).program? i = some (ask (.sleep d) next)) (ht : (run k).tasks[i]? = some t)
    (hw : t.wake = some wake) : ∃ t, (run (k + 1)).tasks[i]? = some t ∧ t.wake = some wake := by
  by_cases hk : moves k = .step i
  · obtain ⟨hc, hclock⟩ := h.asleep_of_step hi hp hk ht hw
    have htp : t.program = ask (.sleep d) next :=
      Option.some.inj ((Schedule.program?_eq ht).symm.trans (h.program?_eq hi hp k))
    rw [h.move, hk, Schedule.move,
      tasks_step_of_none ht htp (handler_sleep_of_lt ht hc hw hclock) (set_eq_self ht).symm]
    exact ⟨_, List.getElem?_set_self (List.getElem?_eq_some_iff.1 ht).1, hw⟩
  · obtain ⟨canceled, ht'⟩ := h.exists_task_succ hk ht
    exact ⟨_, ht', hw⟩

theorem not_sleep {d : Duration} {next : Bool → Program α} (hi : i < n)
    (hp : (run 0).program? i = some (ask (.sleep d) next)) : False := by
  obtain ⟨k, wake, t, ht, hw⟩ := h.exists_wake hi hp
  -- The task keeps the time at which it wakes, and the clock gets there.
  have hwakes (m : Nat) (hm : k ≤ m) : ∃ t, (run m).tasks[i]? = some t ∧ t.wake = some wake := by
    induction m, hm using Nat.le_induction with
    | base => exact ⟨t, ht, hw⟩
    | succ m _ ih =>
      obtain ⟨t, ht, hw⟩ := ih
      exact h.wake_succ hi hp ht hw
  obtain ⟨m, hm⟩ := h.exists_le_clock wake
  obtain ⟨m', hm', hstep⟩ := h.fair.steps i hi (max k m)
  obtain ⟨t, ht, hw⟩ := hwakes m' (by omega)
  have hclock := h.clock_le (show m ≤ m' by omega)
  have := (h.asleep_of_step hi hp hstep ht hw).2
  omega

/-- Whoever goes on asking for the next round has arrived sooner or later. -/
theorem eventually_arrived {lb : Identifier} {next : Turn → Program α} (hi : i < n)
    (hp : (run 0).program? i = some (ask (.arrive lb) next)) :
    ∀ᶠ k in atTop, ∃ t a, (run k).tasks[i]? = some t ∧ t.arrival = some a := by
  -- A step without a reply leaves the task with an arrival, and no other move takes it away.
  have harrives (k : Nat) (hk : moves k = .step i) :
      ∃ t a, (run (k + 1)).tasks[i]? = some t ∧ t.arrival = some a := by
    obtain ⟨t, ht, htp⟩ := h.exists_task hi hp k
    rw [h.move, hk]
    exact exists_arrival ht htp (h.no_reply hi hp hk)
  obtain ⟨m, -, hm⟩ := h.fair.steps i hi 0
  refine eventually_atTop.2 ⟨m + 1, fun k hk => ?_⟩
  induction k, hk using Nat.le_induction with
  | base => exact harrives m hm
  | succ k _ ih =>
    by_cases hk : moves k = .step i
    · exact harrives k hk
    · obtain ⟨t, a, ht, ha⟩ := ih
      obtain ⟨canceled, ht'⟩ := h.exists_task_succ hk ht
      exact ⟨_, a, ht', ha⟩

end Still

theorem exists_still (own : Provider σ) (s : Schedule σ α) (hfair : Fair s.tasks.length moves) :
    ∃ m, ∀ k, m ≤ k → Still own s.tasks.length (fun j => moves (k + j))
      (fun j => s.after own moves (k + j)) := by
  obtain ⟨m, hm⟩ := exists_halted own s moves
  refine ⟨m, fun k hk => ⟨fun j => after_succ .., hfair.shift k, fun j i hi => ?_⟩⟩
  rw [hm (k + j) (by omega) i hi, hm (k + 0) (by omega) i hi]

def Stuck (own : Provider σ) (s : Schedule σ α) : Prop :=
  ∀ milliseconds i, (s.elapse milliseconds).step own i = s.elapse milliseconds

/-- Nothing but the clock goes on when all tasks are stuck. -/
theorem Stuck.exists_after (h : s.Stuck own) (n k : Nat) :
    ∃ milliseconds, s.after own (byTurns n) k = s.elapse milliseconds := by
  induction k with
  | zero => exact ⟨0, rfl⟩
  | succ k ih =>
    obtain ⟨milliseconds, heq⟩ := ih
    rw [after_succ, heq, byTurns]
    split
    · exact ⟨milliseconds, h milliseconds _⟩
    · exact ⟨milliseconds + 1, rfl⟩

end Schedule

end BalancerSync
