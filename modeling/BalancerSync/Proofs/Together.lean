import BalancerSync.Proofs.Effects
import Mathlib.Data.List.Basic
import Mathlib.Order.Filter.AtTopBot.Basic
import Mathlib.Order.Filter.Finite

namespace BalancerSync

open Program Filter

namespace Program

variable {σ α : Type} {p p' : Program α}

inductive Leads : Program α → Program α → Prop
  | reply (q : Request) (next : q.Reply → Program α) (reply : q.Reply) :
      Leads (ask q next) (next reply)

theorem Leads.ne (h : Leads p p') : p' ≠ p := by
  induction p generalizing p' with
  | done a => cases h
  | fail failure => cases h
  | ask q next ih =>
    cases h with
    | reply _ _ reply =>
      intro heq
      exact ih reply (heq ▸ .reply q next reply) heq.symm

theorem step_eq_or_leads (h : Handler σ) (p : Program α) (s : σ) :
    (p.step h s).1 = p ∨ p.Leads (p.step h s).1 := by
  cases p with
  | done a => exact .inl rfl
  | fail failure => exact .inl rfl
  | ask q next =>
    rw [step]
    rcases h q s with ⟨_ | reply, s'⟩
    · exact .inl rfl
    · exact .inr (.reply q next reply)

/-- A program that has got no further has got no reply. -/
theorem no_reply_of_step_eq {h : Handler σ} {q : Request} {next : q.Reply → Program α} {s : σ}
    (heq : ((ask q next).step h s).1 = ask q next) : (h q s).1 = none := by
  rw [step] at heq
  rcases hreply : h q s with ⟨_ | reply, s'⟩
  · rfl
  · rw [hreply] at heq
    exact absurd heq (Leads.reply q next reply).ne

theorem exists_settled {g : Nat → Program α} (h : ∀ k, g (k + 1) = g k ∨ (g k).Leads (g (k + 1)))
    (n : Nat) : ∃ p, ∀ᶠ k in atTop, g k = p := by
  generalize hp : g n = p
  induction p generalizing n with
  | done a =>
    refine ⟨_, eventually_atTop.2 ⟨n, Nat.le_induction hp fun k _ ih => ?_⟩⟩
    rcases h k with heq | hleads
    · exact heq.trans ih
    · rw [ih] at hleads
      cases hleads
  | fail failure =>
    refine ⟨_, eventually_atTop.2 ⟨n, Nat.le_induction hp fun k _ ih => ?_⟩⟩
    rcases h k with heq | hleads
    · exact heq.trans ih
    · rw [ih] at hleads
      cases hleads
  | ask q next ih =>
    by_contra hnot
    refine hnot ⟨_, eventually_atTop.2 ⟨n, Nat.le_induction hp fun k _ hk => ?_⟩⟩
    rcases h k with heq | hleads
    · exact heq.trans hk
    · rw [hk] at hleads
      generalize hp' : g (k + 1) = p' at hleads
      cases hleads with
      | reply _ _ reply => exact absurd (ih reply (k + 1) hp') hnot

end Program

namespace Schedule

variable {σ α : Type} {own : Provider σ} {s s' : Schedule σ α} {t t' : Task α} {i j k : Nat}
  {q : Request} {next : q.Reply → Program α} {reply : q.Reply}

theorem modify_eq_set {β : Type} {l : List β} {b : β} (h : l[i]? = some b) (g : β → β) :
    l.modify i g = l.set i (g b) := by
  apply List.ext_getElem?
  intro j
  rw [List.getElem?_set]
  split
  next hij =>
    subst hij
    rw [List.getElem?_modify_eq, h, if_pos (List.getElem?_eq_some_iff.1 h).1]
    rfl
  next hij => exact List.getElem?_modify_ne g l hij

theorem set_eq_self {β : Type} {l : List β} {b : β} (h : l[i]? = some b) : l.set i b = l := by
  exact (modify_eq_set h id).symm.trans (List.modify_id ..)

/-- A task that makes a request goes on if there is a reply. -/
theorem tasks_step {out : Option q.Reply} (ht : s.tasks[i]? = some t) (hp : t.program = ask q next)
    (hreply : handler own i q s = (out, s')) (ht' : s'.tasks = s.tasks.set i t') :
    s.step own i =
      { s' with tasks := s.tasks.set i { t' with program := out.elim t.program next } } := by
  have hlt := (List.getElem?_eq_some_iff.1 ht).1
  have hget : s'.tasks[i]? = some t' := by
    rw [ht', List.getElem?_set_self hlt]
  rw [Schedule.step, ht]
  dsimp only
  rw [hp, Program.step, hreply]
  cases out <;> dsimp only <;> rw [modifyTask, modify_eq_set hget, ht', List.set_set] <;> rfl

theorem tasks_step_of_some (ht : s.tasks[i]? = some t) (hp : t.program = ask q next)
    (hreply : handler own i q s = (some reply, s')) (ht' : s'.tasks = s.tasks.set i t') :
    s.step own i = { s' with tasks := s.tasks.set i { t' with program := next reply } } :=
  tasks_step ht hp hreply ht'

theorem tasks_step_of_none (ht : s.tasks[i]? = some t) (hp : t.program = ask q next)
    (hreply : handler own i q s = (none, s')) (ht' : s'.tasks = s.tasks.set i t') :
    s.step own i = { s' with tasks := s.tasks.set i { t' with program := t.program } } :=
  tasks_step ht hp hreply ht'

theorem step_of_done {a : α} (ht : s.tasks[i]? = some t) (hp : t.program = done a) :
    s.step own i = s := by
  rw [Schedule.step, ht]
  dsimp only
  rw [hp, Program.step, modifyTask, modify_eq_set ht, ← hp, set_eq_self ht]
  nofun

theorem step_of_fail {failure : Failure} (ht : s.tasks[i]? = some t)
    (hp : t.program = fail failure) : s.step own i = s := by
  rw [Schedule.step, ht]
  dsimp only
  rw [hp, Program.step, modifyTask, modify_eq_set ht, ← hp, set_eq_self ht]
  nofun

theorem isCanceled_eq (ht : s.tasks[i]? = some t) : s.isCanceled i = t.canceled := by
  rw [isCanceled, ht]
  rfl

theorem handler_sleep_of_none {d : Duration} (ht : s.tasks[i]? = some t) (hw : t.wake = none) :
    handler own i (.sleep d) s = (none, { s with
      tasks := s.tasks.set i { t with wake := some (s.clock + d.milliseconds) } }) := by
  rw [handler, sleep, ht]
  simp only [Option.bind_some, hw, modifyTask, modify_eq_set ht]

theorem handler_sleep_of_le {d : Duration} {wake : Nat} (ht : s.tasks[i]? = some t)
    (hc : t.canceled = false) (hw : t.wake = some wake) (hclock : wake ≤ s.clock) :
    handler own i (.sleep d) s =
      (some false, { s with tasks := s.tasks.set i { t with wake := none } }) := by
  rw [handler, sleep, ht]
  simp only [Option.bind_some, hw, modifyTask, modify_eq_set ht, isCanceled_eq ht, hc,
    if_pos hclock]
  rfl

theorem handler_sleep_of_lt {d : Duration} {wake : Nat} (ht : s.tasks[i]? = some t)
    (hc : t.canceled = false) (hw : t.wake = some wake) (hclock : s.clock < wake) :
    handler own i (.sleep d) s = (none, s) := by
  rw [handler, sleep, ht]
  simp only [Option.bind_some, hw, isCanceled_eq ht, hc, if_neg (Nat.not_le.2 hclock)]
  rfl

theorem handler_arrive_of_none (own : Provider σ) {lb : Identifier}
    {m : Rendezvous Identifier Shared} (ht : s.tasks[i]? = some t) (hc : t.canceled = false)
    (ha : t.arrival = none) (hm : s.meeting.arrive lb false = m) :
    handler own i (.arrive lb) s = turn? i s.meeting.next { s with meeting := m } := by
  rw [handler, arrive, ht, isCanceled_eq ht, hc, hm]
  simp only [Option.bind_some, ha]

theorem handler_arrive_of_some (own : Provider σ) (lb : Identifier) {a : Nat}
    (ht : s.tasks[i]? = some t) (ha : t.arrival = some a) :
    handler own i (.arrive lb) s = turn? i a { s with meeting := s.meeting.step a } := by
  rw [handler, arrive, ht]
  simp only [Option.bind_some, ha]

theorem turn?_of_leading {a : Nat} {round : List Nat} (ht : s.tasks[i]? = some t)
    (hs : s.meeting.stage? a = some (.leading round)) : turn? i a s =
      (some .lead, { s with tasks := s.tasks.set i { t with arrival := some a } }) := by
  rw [turn?, hs]
  dsimp only
  rw [modifyTask, modify_eq_set ht]

theorem turn?_of_ended {a : Nat} {outcome : Rendezvous.Outcome Shared} (ht : s.tasks[i]? = some t)
    (hs : s.meeting.stage? a = some (.ended outcome)) : turn? i a s =
      (some (.ended outcome), { s with tasks := s.tasks.set i { t with arrival := none } }) := by
  rw [turn?, hs]
  dsimp only
  rw [modifyTask, modify_eq_set ht]

theorem turn?_of_waiting {a : Nat} {mailbox : Rendezvous.Mailbox Shared} {woken : Bool}
    (ht : s.tasks[i]? = some t) (hs : s.meeting.stage? a = some (.waiting mailbox woken)) :
    turn? i a s = (none, { s with tasks := s.tasks.set i { t with arrival := some a } }) := by
  rw [turn?, hs]
  dsimp only
  rw [modifyTask, modify_eq_set ht]

/-- A request to sleep changes nothing but the time when the task wakes. -/
theorem exists_handler_sleep (own : Provider σ) (d : Duration) (ht : s.tasks[i]? = some t) :
    ∃ reply wake, handler own i (.sleep d) s =
      (reply, { s with tasks := s.tasks.set i { t with wake } }) := by
  have h := handler_effect own i (.sleep d) s
  generalize handler own i (.sleep d) s = out at h ⊢
  cases h with
  | sleep _ reply wake => exact ⟨reply, wake, by rw [modifyTask, modify_eq_set ht]⟩
  | asleep => exact ⟨none, t.wake, by rw [set_eq_self ht]⟩

/-- An arrival without an outcome stays with its task. -/
theorem exists_arrival {lb : Identifier} {next : Turn → Program α} (ht : s.tasks[i]? = some t)
    (hp : t.program = ask (.arrive lb) next) (hnone : (handler own i (.arrive lb) s).1 = none) :
    ∃ t' a, (s.step own i).tasks[i]? = some t' ∧ t'.arrival = some a := by
  have h := handler_effect own i (.arrive lb) s
  generalize hout : handler own i (.arrive lb) s = out at h hnone
  cases h with
  | @arrive _ a meeting reply arrival hm ha =>
    obtain rfl : reply = none := hnone
    have htasks : (modifyTask { s with meeting } i fun t => { t with arrival }).tasks =
        s.tasks.set i { t with arrival } := modify_eq_set ht _
    rw [tasks_step_of_none ht hp hout htasks]
    exact ⟨_, a, List.getElem?_set_self (List.getElem?_eq_some_iff.1 ht).1, ha rfl⟩

theorem tasks_handler (own : Provider σ) (i : Nat) (q : Request) (s : Schedule σ α) :
    ∃ g : Task α → Task α, (handler own i q s).2.tasks = s.tasks.modify i g ∧
      ∀ t, (g t).program = t.program := by
  have h := handler_effect own i q s
  generalize handler own i q s = out at h ⊢
  cases h with
  | sleep | remember | arrive | release => exact ⟨_, rfl, fun _ => rfl⟩
  | _ => exact ⟨id, (List.modify_id ..).symm, fun _ => rfl⟩

theorem clock_handler (own : Provider σ) (i : Nat) (q : Request) (s : Schedule σ α) :
    (handler own i q s).2.clock = s.clock := by
  have h := handler_effect own i q s
  generalize handler own i q s = out at h ⊢
  cases h <;> rfl

theorem tasks_program_step (own : Provider σ) (i : Nat) (p : Program α) (s : Schedule σ α) :
    ∃ g : Task α → Task α, (p.step (handler own i) s).2.tasks = s.tasks.modify i g ∧
      ∀ t, (g t).program = t.program := by
  cases p with
  | done a => exact ⟨id, (List.modify_id ..).symm, fun _ => rfl⟩
  | fail failure => exact ⟨id, (List.modify_id ..).symm, fun _ => rfl⟩
  | ask q next =>
    have h := tasks_handler own i q s
    rw [Program.step]
    rcases hreply : handler own i q s with ⟨_ | reply, s'⟩ <;> rw [hreply] at h <;> exact h

theorem clock_program_step (own : Provider σ) (i : Nat) (p : Program α) (s : Schedule σ α) :
    (p.step (handler own i) s).2.clock = s.clock := by
  cases p with
  | done a => rfl
  | fail failure => rfl
  | ask q next =>
    have h := clock_handler own i q s
    rw [Program.step]
    rcases hreply : handler own i q s with ⟨_ | reply, s'⟩ <;> rw [hreply] at h <;> exact h

/-- A step of a task changes nothing of the other ones. -/
theorem getElem?_step_of_ne (h : i ≠ j) : (s.step own i).tasks[j]? = s.tasks[j]? := by
  rw [step]
  cases ht : s.tasks[i]? with
  | none => rfl
  | some t =>
    obtain ⟨g, hg, -⟩ := tasks_program_step own i t.program s
    simp only [modifyTask]
    rw [List.getElem?_modify_ne _ _ h, hg, List.getElem?_modify_ne _ _ h]

theorem clock_step : (s.step own i).clock = s.clock := by
  rw [step]
  cases ht : s.tasks[i]? with
  | none => rfl
  | some t => exact clock_program_step own i t.program s

theorem tasks_cancel (s : Schedule σ α) (i : Nat) :
    (s.cancel i).tasks = s.tasks.modify i fun t => { t with canceled := true } := by
  rw [cancel]
  split <;> rfl

theorem clock_cancel (i : Nat) : (s.cancel i).clock = s.clock := by
  rw [cancel]
  split <;> rfl

/-- A cancellation changes nothing else of a task. -/
theorem exists_task_cancel (i : Nat) (ht : s.tasks[j]? = some t) :
    ∃ canceled, (s.cancel i).tasks[j]? = some { t with canceled } := by
  rw [tasks_cancel]
  by_cases hij : i = j
  · subst hij
    rw [List.getElem?_modify_eq, ht]
    exact ⟨true, rfl⟩
  · rw [List.getElem?_modify_ne _ _ hij, ht]
    exact ⟨t.canceled, rfl⟩

/-- The program of a task. -/
def program? (s : Schedule σ α) (i : Nat) : Option (Program α) := (s.tasks[i]?).map (·.program)

theorem program?_eq (ht : s.tasks[i]? = some t) : s.program? i = some t.program := by
  rw [program?, ht]
  rfl

theorem exists_task {p : Program α} (h : s.program? i = some p) :
    ∃ t, s.tasks[i]? = some t ∧ t.program = p := Option.map_eq_some_iff.1 h

theorem program?_step_self :
    (s.step own i).program? i = (s.program? i).map fun p => (p.step (handler own i) s).1 := by
  rw [program?, step]
  cases ht : s.tasks[i]? with
  | none =>
    rw [program?, ht]
    rfl
  | some t =>
    obtain ⟨g, hg, -⟩ := tasks_program_step own i t.program s
    simp only [modifyTask]
    rw [program?_eq ht, List.getElem?_modify_eq, hg, List.getElem?_modify_eq, ht]
    rfl

/-- Every move leaves a program as it is, or lets it get on by one reply. -/
theorem program?_move {p : Program α} (own : Provider σ) (move : Move) (hp : s.program? j = some p) :
    ∃ p', (s.move own move).program? j = some p' ∧ (p' = p ∨ p.Leads p') := by
  cases move with
  | step i =>
    by_cases hij : i = j
    · subst hij
      refine ⟨_, program?_step_self.trans (by rw [hp]; rfl), p.step_eq_or_leads _ s⟩
    · refine ⟨p, ?_, .inl rfl⟩
      exact (congrArg _ (getElem?_step_of_ne hij)).trans hp
  | cancel i =>
    obtain ⟨t, ht, rfl⟩ := exists_task hp
    obtain ⟨canceled, ht'⟩ := exists_task_cancel i ht
    exact ⟨_, program?_eq ht', .inl rfl⟩
  | elapse milliseconds => exact ⟨p, hp, .inl rfl⟩

/-- The schedule after the first moves of a history. -/
def after (own : Provider σ) (s : Schedule σ α) (moves : Nat → Move) (k : Nat) : Schedule σ α :=
  s.play own ((List.range k).map moves)

theorem after_succ (own : Provider σ) (s : Schedule σ α) (moves : Nat → Move) (k : Nat) :
    s.after own moves (k + 1) = (s.after own moves k).move own (moves k) := by
  rw [after, play, List.range_succ, List.map_append, List.foldl_append]
  rfl

/-- Every one of `n` tasks is stepped again and again, and the clock goes on again and again. -/
structure Fair (n : Nat) (moves : Nat → Move) : Prop where
  steps : ∀ i < n, ∀ k, ∃ j, k ≤ j ∧ moves j = .step i
  elapses : ∀ k, ∃ j milliseconds, k ≤ j ∧ 0 < milliseconds ∧ moves j = .elapse milliseconds

theorem Fair.shift {n : Nat} {moves : Nat → Move} (h : Fair n moves) (k : Nat) :
    Fair n fun j => moves (k + j) where
  steps i hi n := by
    obtain ⟨j, hj, hm⟩ := h.steps i hi (k + n)
    exact ⟨j - k, by omega, by rw [Nat.add_sub_cancel' (by omega), hm]⟩
  elapses n := by
    obtain ⟨j, milliseconds, hj, hpos, hm⟩ := h.elapses (k + n)
    exact ⟨j - k, milliseconds, by omega, hpos, by rw [Nat.add_sub_cancel' (by omega), hm]⟩

def byTurns (n : Nat) (k : Nat) : Move := if k % (n + 1) < n then .step (k % (n + 1)) else .elapse 1

theorem fair_byTurns (n : Nat) : Fair n (byTurns n) where
  steps i hi k := by
    have hmod : (k * (n + 1) + i) % (n + 1) = i :=
      Nat.mul_add_mod_of_lt (show i < n + 1 by omega)
    exact ⟨k * (n + 1) + i, Nat.le_add_right_of_le (Nat.le_mul_of_pos_right k (Nat.succ_pos n)),
      by rw [byTurns, hmod, if_pos hi]⟩
  elapses k := by
    have hmod : (k * (n + 1) + n) % (n + 1) = n :=
      Nat.mul_add_mod_of_lt (Nat.lt_succ_self n)
    exact ⟨k * (n + 1) + n, 1,
      Nat.le_add_right_of_le (Nat.le_mul_of_pos_right k (Nat.succ_pos n)), Nat.one_pos,
      by rw [byTurns, hmod, if_neg (Nat.lt_irrefl n)]⟩

theorem exists_halted (own : Provider σ) (s : Schedule σ α) (moves : Nat → Move) :
    ∃ n, ∀ k, n ≤ k → ∀ i < s.tasks.length,
      (s.after own moves k).program? i = (s.after own moves n).program? i := by
  have hsome (i : Nat) (hi : i < s.tasks.length) (k : Nat) :
      ∃ p, (s.after own moves k).program? i = some p := by
    induction k with
    | zero => exact ⟨_, program?_eq (List.getElem?_eq_getElem hi)⟩
    | succ k ih =>
      obtain ⟨p, hp⟩ := ih
      obtain ⟨p', hp', -⟩ := program?_move own (moves k) hp
      exact ⟨p', after_succ own s moves k ▸ hp'⟩
  have hsettled (i : Fin s.tasks.length) :
      ∃ p, ∀ᶠ k in atTop, (s.after own moves k).program? i = some p := by
    choose g hg using hsome i i.isLt
    obtain ⟨p, hp⟩ := exists_settled (g := g) (fun k => by
      obtain ⟨p', hp', hleads⟩ := program?_move own (moves k) (hg k)
      rw [← after_succ, hg (k + 1)] at hp'
      cases hp'
      exact hleads) 0
    exact ⟨p, hp.mono fun k hk => hk ▸ hg k⟩
  choose p hp using hsettled
  obtain ⟨n, hn⟩ := eventually_atTop.1 (eventually_all.2 hp)
  exact ⟨n, fun k hk i hi => (hn k hk ⟨i, hi⟩).trans (hn n le_rfl ⟨i, hi⟩).symm⟩

end Schedule

end BalancerSync
