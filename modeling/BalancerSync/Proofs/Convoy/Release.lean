import BalancerSync.Proofs.Convoy.Moves
import BalancerSync.Proofs.Standstill
import BalancerSync.Proofs.Success

namespace BalancerSync

open Program Rendezvous Filter

variable {σ : Type} {c : Convoy} {own : Provider σ} {s : Schedule σ Unit} {t : Task Unit}
  {i j k : Nat} {lb : Identifier} {q : Request} {next : q.Reply → Program Unit}

/-- At the beginning all load balancers are registered. -/
theorem Convoy.meeting_eq (hn : c.loadBalancers.Nodup) : c.meeting = assembled c.loadBalancers :=
  foldl_register_eq c.loadBalancers [] hn

namespace Underway

theorem start (hn : c.loadBalancers.Nodup) (provider : σ) (draws : List Binary64) :
    Underway c (c.schedule provider draws) := by
  have hplay : c.meeting = Rendezvous.play .empty (c.loadBalancers.map .register) := by
    rw [Convoy.meeting, Rendezvous.play, List.foldl_map]
    rfl
  have hregistered (lb : Identifier) : c.meeting.isRegistered lb = decide (lb ∈ c.loadBalancers) := by
    rw [Convoy.meeting_eq hn, isRegistered_assembled]
  refine ⟨rfl, ⟨_, hplay ▸ coherent_play _⟩, ?_, ?_, fun i hi => ?_, fun lb hlb => ?_, fun a ha => ?_,
    fun i lb t hi ht => ?_⟩
  · change Lively c.meeting
    rw [hplay]
    exact lively_empty.play coherent_empty (patient_of_forall_ne (fun a => by simp) _)
  · simp [Convoy.schedule, Convoy.loadBalancers]
  · cases hi
  · exact of_decide_eq_true ((hregistered lb).symm.trans hlb)
  · obtain ⟨_, _, _, hx⟩ := leads_iff.1 ha
    change c.meeting.arrivals[a]? = _ at hx
    rw [Convoy.meeting_eq hn] at hx
    cases hx
  · rw [Convoy.schedule, List.getElem?_map] at ht
    obtain ⟨l, hl, rfl⟩ := Option.map_eq_some_iff.1 ht
    have hlb : l.loadBalancer = lb := by
      rw [Convoy.loadBalancers, List.getElem?_map, hl] at hi
      exact Option.some.inj hi
    subst hlb
    have hidle : (c.schedule provider draws).role i l.loadBalancer
        (.start (⟨.shared c.tag, l⟩ : Reconciliation).reconcile false) = .idle :=
      Schedule.role_eq_idle_iff.2 ⟨Option.some_ne_none i |>.symm, rfl,
        (hregistered _).trans (decide_eq_true (List.mem_of_getElem? hi))⟩
    refine ⟨?_, fun a ha => ?_⟩
    · rw [hidle]
      exact Reconciliation.reconcile_meets_gone
    · cases ha

variable (h : Underway c s) (hn : c.loadBalancers.Nodup)

include h

include hn in
theorem play (own : Provider σ) (moves : List Schedule.Move) : Underway c (s.play own moves) := by
  induction moves generalizing s with
  | nil => exact h
  | cons move moves ih => exact ih (h.move hn own move).1

include hn in
theorem registered_of_play (own : Provider σ) (moves : List Schedule.Move)
    (hlb : (s.play own moves).meeting.isRegistered lb = true) : s.meeting.isRegistered lb = true := by
  induction moves generalizing s with
  | nil => exact hlb
  | cons move moves ih =>
    obtain ⟨hunderway, -, hgone⟩ := h.move hn own move
    exact hgone lb (ih hunderway hlb)

/-- Who has returned has left, and nobody waits for it. -/
theorem role_of_result (hi : c.loadBalancers[i]? = some lb) (ht : s.tasks[i]? = some t)
    {r : Except Failure Unit} (hr : t.result? = some r) : s.role i lb t = .gone := by
  have hmeets := (h.member i lb t hi ht).meets
  rw [Task.result?] at hr
  cases hp : t.program with
  | ask q next =>
    rw [hp] at hr
    cases hr
  | _ =>
    rw [hp] at hmeets
    exact hmeets

theorem not_registered_of_result (hi : c.loadBalancers[i]? = some lb) (ht : s.tasks[i]? = some t)
    {r : Except Failure Unit} (hr : t.result? = some r) : s.meeting.isRegistered lb = false := by
  have hleft : (!s.meeting.isRegistered lb) = true := congrArg Role.left (h.role_of_result hi ht hr)
  simpa using hleft

theorem parties_eq_zero (hall : ∀ t ∈ s.tasks, t.result? ≠ none) : s.meeting.parties = 0 := by
  rw [Rendezvous.parties, List.length_eq_zero_iff, List.eq_nil_iff_forall_not_mem]
  intro slot hslot
  have hregistered : s.meeting.isRegistered slot.1 = true := List.any_eq_true.2 ⟨slot, hslot, by simp⟩
  obtain ⟨i, hi⟩ := List.mem_iff_getElem?.1 (h.registered _ hregistered)
  obtain ⟨t, ht⟩ := h.exists_task hi
  obtain ⟨r, hr⟩ := Option.ne_none_iff_exists'.1 (hall t (List.mem_of_getElem? ht))
  cases hregistered.symm.trans (h.not_registered_of_result hi ht hr)

end Underway

/-- In a history a load balancer leaves once, in a step of its own task. -/
def Schedule.LeavesOnce (own : Provider σ) (s : Schedule σ Unit) (moves : List Schedule.Move) (i : Nat)
    (lb : Identifier) : Prop :=
  ∃ past rest, moves = past ++ .step i :: rest ∧
    (∀ before, before <+: past → (s.play own before).meeting.isRegistered lb = true) ∧
    ∀ after, after <+: rest →
      (s.play own (past ++ .step i :: after)).meeting.isRegistered lb = false

theorem Underway.leavesOnce (h : Underway c s) (hn : c.loadBalancers.Nodup)
    (hi : c.loadBalancers[i]? = some lb) {moves : List Schedule.Move}
    (hbegin : s.meeting.isRegistered lb = true)
    (hend : (s.play own moves).meeting.isRegistered lb = false) : s.LeavesOnce own moves i lb := by
  induction moves generalizing s with
  | nil => cases hbegin.symm.trans hend
  | cons move moves ih =>
    obtain ⟨hunderway, hspares, -⟩ := h.move hn own move
    -- The first move after which the load balancer is not registered is a step of its own task.
    cases hmove : (s.move own move).meeting.isRegistered lb with
    | true =>
      obtain ⟨past, rest, rfl, hbefore, hafter⟩ := ih hunderway hmove hend
      refine ⟨move :: past, rest, rfl, fun before hpast => ?_, hafter⟩
      rcases List.prefix_cons_iff.1 hpast with rfl | ⟨before, rfl, hprefix⟩
      · exact hbegin
      · exact hbefore before hprefix
    | false =>
      have hself : move = .step i := by
        by_contra hne
        cases ((hspares i hne).registered lb hi).symm.trans hmove |>.symm.trans hbegin
      subst hself
      refine ⟨[], moves, rfl, fun before hpast => ?_, fun after _ => ?_⟩
      · rw [List.prefix_nil.1 hpast]
        exact hbegin
      · refine Bool.eq_false_iff.2 fun hlb => ?_
        cases hmove.symm.trans (hunderway.registered_of_play hn own after hlb)

structure Becalmed (c : Convoy) (own : Provider σ) (moves : Nat → Schedule.Move)
    (run : Nat → Schedule σ Unit) : Prop where
  nodup : c.loadBalancers.Nodup
  still : Schedule.Still own c.loadBalancers.length moves run
  underway : ∀ k, Underway c (run k)

namespace Becalmed

variable {moves : Nat → Schedule.Move} {run : Nat → Schedule σ Unit} (h : Becalmed c own moves run)

theorem lt_length (hi : c.loadBalancers[i]? = some lb) : i < c.loadBalancers.length :=
  (List.getElem?_eq_some_iff.1 hi).1

include h

/-- What a program goes on asking for is allowed to it. -/
theorem allows (hi : c.loadBalancers[i]? = some lb) (hp : (run 0).program? i = some (ask q next))
    (k : Nat) : ∃ t, (run k).tasks[i]? = some t ∧ t.program = ask q next ∧
      (conduct lb).allows q ((run k).role i lb t) := by
  obtain ⟨t, ht, htp⟩ := h.still.exists_task (lt_length hi) hp k
  have hmeets := ((h.underway k).member i lb t hi ht).meets
  rw [htp] at hmeets
  exact ⟨t, ht, htp, (hmeets _ rfl).1⟩

theorem not_watch {call : Call} {next : Option call.Answer → Program Unit}
    (hi : c.loadBalancers[i]? = some lb) (hp : (run 0).program? i = some (ask (.watch call) next)) :
    False := by
  obtain ⟨k, -, hk⟩ := h.still.fair.steps i (lt_length hi) 0
  have hnone := h.still.no_reply (lt_length hi) hp hk
  obtain ⟨reply, provider, heq⟩ := (h.underway k).handler_watch own i call
  rw [heq] at hnone
  cases hnone

theorem not_release {outcome : Outcome Shared} {next : Outcome Shared → Program Unit}
    (hi : c.loadBalancers[i]? = some lb) (hp : (run 0).program? i = some (ask (.release outcome) next)) :
    False := by
  obtain ⟨k, -, hk⟩ := h.still.fair.steps i (lt_length hi) 0
  have hnone := h.still.no_reply (lt_length hi) hp hk
  obtain ⟨t, ht, -, hleading⟩ := h.allows hi hp k
  obtain ⟨a, -, -, heq⟩ := (h.underway k).handler_release hi ht own outcome hleading
  rw [heq] at hnone
  cases hnone

/-- Nobody is in the section for one program at a time: whoever is there gets on. -/
theorem not_inside (hi : c.loadBalancers[i]? = some lb) (k : Nat) : (run k).inside ≠ some i := by
  intro hinside
  obtain ⟨t, ht⟩ := (h.underway k).exists_task hi
  have hrole : ((run k).role i lb t).inside = true := decide_eq_true hinside
  cases hp : t.program with
  | ask q next =>
    have hp₀ := (h.still.program?_zero (lt_length hi) ht).trans (congrArg some hp)
    obtain ⟨t', ht', -, hq⟩ := h.allows hi hp₀ k
    cases ht.symm.trans ht'
    cases q with
    | watch call => exact h.not_watch hi hp₀
    | sleep d | enter => cases hrole.symm.trans hq.1
    | arrive lb' =>
      rw [hq.2] at hrole
      cases hrole
    | release outcome => exact h.not_release hi hp₀
    | _ => cases h.still.not_isPrompt (lt_length hi) hp₀
  | _ =>
    rw [(h.underway k).role_of_result hi ht (by rw [Task.result?, hp]; rfl)] at hrole
    cases hrole

theorem not_enter {next : Unit → Program Unit} (hi : c.loadBalancers[i]? = some lb)
    (hp : (run 0).program? i = some (ask .enter next)) : False := by
  obtain ⟨k, -, hk⟩ := h.still.fair.steps i (lt_length hi) 0
  have hnone := h.still.no_reply (lt_length hi) hp hk
  cases hinside : (run k).inside with
  | none =>
    rw [Schedule.handler, hinside] at hnone
    cases hnone
  | some j =>
    exact h.not_inside (List.getElem?_eq_getElem ((h.underway k).inside j hinside)) k hinside

/-- Whoever goes on asking asks for a snapshot that all of them share. -/
theorem eq_arrive (hi : c.loadBalancers[i]? = some lb) (hp : (run 0).program? i = some (ask q next)) :
    q = .arrive lb := by
  cases q with
  | watch call => exact (h.not_watch hi hp).elim
  | sleep d => exact (h.still.not_sleep (lt_length hi) hp).elim
  | enter => exact (h.not_enter hi hp).elim
  | arrive lb' =>
    obtain ⟨t, -, -, hq⟩ := h.allows hi hp 0
    exact congrArg Request.arrive hq.1
  | release outcome => exact (h.not_release hi hp).elim
  | _ => cases h.still.not_isPrompt (lt_length hi) hp

/-- Everybody asks for a shared snapshot or has returned. -/
theorem idle_or_gone (hi : c.loadBalancers[i]? = some lb) (ht : (run k).tasks[i]? = some t) :
    (run k).role i lb t = .idle ∧
      (∃ next, t.program = ask (.arrive lb) next ∧ (run 0).program? i = some (ask (.arrive lb) next)) ∨
    (run k).role i lb t = .gone := by
  cases hp : t.program with
  | ask q next =>
    have hp₀ := (h.still.program?_zero (lt_length hi) ht).trans (congrArg some hp)
    obtain rfl := h.eq_arrive hi hp₀
    obtain ⟨t', ht', -, hq⟩ := h.allows hi hp₀ k
    cases ht.symm.trans ht'
    exact .inl ⟨hq.2, next, rfl, hp₀⟩
  | _ => exact .inr ((h.underway k).role_of_result hi ht (by rw [Task.result?, hp]; rfl))

theorem not_leading (k : Nat) : (run k).meeting.leading = false := by
  by_contra hl
  obtain ⟨rounds, hco⟩ := (h.underway k).coherent
  obtain ⟨r, -, hstage⟩ := hco.exists_leading (by simpa using hl)
  have hleads : (run k).meeting.leads r.leader = true := by rw [leads, hstage]
  obtain ⟨t, htmem, harrival⟩ := (h.underway k).led _ hleads
  obtain ⟨i, ht⟩ := List.mem_iff_getElem?.1 htmem
  obtain ⟨lb, hi⟩ := (h.underway k).exists_loadBalancer ht
  have hrole : ((run k).role i lb t).leading = true := by
    change t.arrival.any _ = true
    rw [harrival, Option.any_some, hleads]
  rcases h.idle_or_gone hi ht with ⟨hidle, -⟩ | hgone
  · rw [hidle] at hrole
    cases hrole
  · rw [hgone] at hrole
    cases hrole

theorem stage?_step_ne {a : Nat} {next : Turn → Program Unit} (hi : c.loadBalancers[i]? = some lb)
    (hp : (run 0).program? i = some (ask (.arrive lb) next)) (hk : moves k = .step i)
    (ht : (run k).tasks[i]? = some t) (ha : t.arrival = some a) :
    (∀ outcome, ((run k).meeting.step a).stage? a ≠ some (.ended outcome)) ∧
      ∀ round, ((run k).meeting.step a).stage? a ≠ some (.leading round) := by
  have hnone := h.still.no_reply (lt_length hi) hp hk
  rw [Schedule.handler_arrive_of_some own lb ht ha] at hnone
  constructor
  · intro outcome hstage
    rw [Schedule.turn?_of_ended (s := { run k with meeting := (run k).meeting.step a }) ht hstage] at hnone
    cases hnone
  · intro round hstage
    rw [Schedule.turn?_of_leading (s := { run k with meeting := (run k).meeting.step a }) ht hstage] at hnone
    cases hnone

/-- Mail does not get lost, and it would be found. -/
theorem mailbox_eq_open {a : Nat} {next : Turn → Program Unit} {canceled woken : Bool}
    {mailbox : Mailbox Shared} (hi : c.loadBalancers[i]? = some lb)
    (hp : (run 0).program? i = some (ask (.arrive lb) next)) (ht : (run k).tasks[i]? = some t)
    (ha : t.arrival = some a)
    (hx : (run k).meeting.arrivals[a]? = some ⟨lb, canceled, .waiting mailbox woken⟩) :
    mailbox = .open := by
  by_contra hmail
  have hfinds (n : Nat) (hn : moves n = .step i) (t : Task Unit) (ht : (run n).tasks[i]? = some t)
      (ha : t.arrival = some a) (canceled woken : Bool) :
      (run n).meeting.arrivals[a]? ≠ some ⟨lb, canceled, .waiting mailbox woken⟩ := by
    intro hx
    obtain ⟨outcome, hended⟩ := exists_ended_of_mail hx hmail
    exact (h.stage?_step_ne hi hp hn ht ha).1 outcome hended
  -- As nobody else takes the mail away, it is still there when the task is stepped next.
  have hwaits (n : Nat) (hn : k ≤ n) : ∃ t canceled woken, (run n).tasks[i]? = some t ∧
      t.arrival = some a ∧
      (run n).meeting.arrivals[a]? = some ⟨lb, canceled, .waiting mailbox woken⟩ := by
    induction n, hn using Nat.le_induction with
    | base => exact ⟨t, canceled, woken, ht, ha, hx⟩
    | succ n _ ih =>
      obtain ⟨t, canceled, woken, ht, ha, hx⟩ := ih
      have hne : moves n ≠ .step i := fun hn => hfinds n hn t ht ha canceled woken hx
      have hspares := ((h.underway n).move h.nodup own (moves n)).2.1 i hne
      rw [← h.still.move] at hspares
      obtain ⟨canceled', ht'⟩ := hspares.tasks t ht
      obtain ⟨⟨k', canceled₁, stage⟩, hy, hxy⟩ := exists_of_drifts (hx ▸ hspares.arrivals t a ht ha)
      obtain ⟨mailbox', woken', hstage, hsame⟩ := hxy.waits mailbox woken rfl
      obtain rfl := hsame hmail
      cases hstage
      obtain rfl : k' = lb := hxy.key
      exact ⟨_, canceled₁, woken', ht', ha, hy⟩
  obtain ⟨n, hn, hstep⟩ := h.still.fair.steps i (lt_length hi) k
  obtain ⟨t, canceled, woken, ht, ha, hx⟩ := hwaits n hn
  exact hfinds n hstep t ht ha canceled woken hx

theorem mem_slots {a : Nat} {next : Turn → Program Unit} (hi : c.loadBalancers[i]? = some lb)
    (hp : (run 0).program? i = some (ask (.arrive lb) next)) (ht : (run k).tasks[i]? = some t)
    (htp : t.program = ask (.arrive lb) next) (ha : t.arrival = some a) :
    (lb, some a) ∈ (run k).meeting.slots := by
  obtain ⟨rounds, hco⟩ := (h.underway k).coherent
  obtain ⟨x, hx, hattending⟩ := ((h.underway k).member i lb t hi ht).attending a ha
  rw [htp] at hattending
  cases hattending with
  | leading => cases (h.not_leading k).symm.trans (hco.leading_of_leads (leads_iff.2 ⟨_, _, _, hx⟩))
  | waiting =>
    obtain rfl := h.mailbox_eq_open hi hp ht ha hx
    cases hco.fate a _ hx with
    | waits hs =>
      obtain ⟨_, _, hx'⟩ := hco.owner _ a hs
      cases hx.symm.trans hx'
      exact hs
    | called hr ho _ _ => cases (h.not_leading k).symm.trans (hco.leading.2 ⟨_, hr, ho⟩)

/-- Sooner or later all load balancers that have not left have arrived. -/
theorem eventually_full : ∀ᶠ k in atTop, ∀ slot ∈ (run k).meeting.slots, slot.2.isSome = true := by
  -- There are finitely many tasks, so that there is a time when all of them have arrived.
  have harrived (i : Fin c.loadBalancers.length) : ∀ᶠ k in atTop, ∀ t, (run k).tasks[i.1]? = some t →
      (∃ next : Turn → Program Unit,
        (run 0).program? i.1 = some (ask (.arrive c.loadBalancers[i]) next)) →
      ∃ a, t.arrival = some a := by
    by_cases hp : ∃ next : Turn → Program Unit,
        (run 0).program? i.1 = some (ask (.arrive c.loadBalancers[i]) next)
    · obtain ⟨next, hp⟩ := hp
      refine (h.still.eventually_arrived i.2 hp).mono fun k harrived => ?_
      obtain ⟨t', a, ht', ha⟩ := harrived
      intro t ht _
      cases ht.symm.trans ht'
      exact ⟨a, ha⟩
    · exact Eventually.of_forall fun _ _ _ hp' => absurd hp' hp
  refine (eventually_all.2 harrived).mono fun k harrived => ?_
  rintro ⟨lb, filler⟩ hslot
  obtain ⟨rounds, hco⟩ := (h.underway k).coherent
  have hregistered : (run k).meeting.isRegistered lb = true := List.any_eq_true.2 ⟨_, hslot, by simp⟩
  obtain ⟨i, hi⟩ := List.mem_iff_getElem?.1 ((h.underway k).registered lb hregistered)
  obtain ⟨t, ht⟩ := (h.underway k).exists_task hi
  rcases h.idle_or_gone hi ht with ⟨-, next, htp, hp⟩ | hgone
  · obtain ⟨hlt, rfl⟩ := List.getElem?_eq_some_iff.1 hi
    obtain ⟨a, ha⟩ := harrived ⟨i, hlt⟩ t ht ⟨next, hp⟩
    have hmem := h.mem_slots hi hp ht htp ha
    have hfiller := ((slot?_eq_some_iff hco.keys).2 hmem).symm.trans ((slot?_eq_some_iff hco.keys).2 hslot)
    cases hfiller
    rfl
  · have hleft : (!(run k).meeting.isRegistered lb) = true := congrArg Role.left hgone
    rw [hregistered] at hleft
    cases hleft

theorem not_ask (hi : c.loadBalancers[i]? = some lb) : (run 0).program? i ≠ some (ask q next) := by
  intro hp
  obtain rfl := h.eq_arrive hi hp
  obtain ⟨n, hn⟩ := eventually_atTop.1 (h.eventually_full.and (h.still.eventually_arrived (lt_length hi) hp))
  obtain ⟨k, hk, hstep⟩ := h.still.fair.steps i (lt_length hi) n
  obtain ⟨hfull, t, a, ht, ha⟩ := hn k hk
  have htp : t.program = ask (.arrive lb) next :=
    Option.some.inj ((h.still.program?_zero (lt_length hi) ht).symm.trans hp)
  have hslot := h.mem_slots hi hp ht htp ha
  obtain ⟨round, hround⟩ := Option.isSome_iff_exists.1
    (isSome_complete?_iff.2 ⟨h.not_leading k, List.ne_nil_of_mem hslot, hfull⟩)
  -- A round can begin, so that the step of the task gets a reply.
  have hmem : a ∈ round := by
    obtain ⟨-, -, -, rfl⟩ := complete?_eq_some_iff.1 hround
    exact List.mem_filterMap.2 ⟨_, hslot, rfl⟩
  have hstage := Coherent.stage?_step (h.underway k).lively hround hmem
  obtain ⟨hended, hleads⟩ := h.stage?_step_ne hi hp hstep ht ha
  split at hstage
  · exact hended _ hstage
  · exact hleads _ hstage

end Becalmed

namespace Underway

variable (h : Underway c s) (hn : c.loadBalancers.Nodup)

include h hn

/-- If all tasks go on again and again then all of them return. -/
theorem exists_returned (own : Provider σ) {moves : Nat → Schedule.Move}
    (hfair : Schedule.Fair c.loadBalancers.length moves) : ∃ n, ∀ k, n ≤ k →
      ∀ t ∈ (s.after own moves k).tasks, t.result? ≠ none := by
  obtain ⟨n, hstill⟩ := Schedule.exists_still own s (h.length ▸ hfair)
  refine ⟨n, fun k hk t htmem => ?_⟩
  have hbecalmed : Becalmed c own (fun j => moves (k + j)) (fun j => s.after own moves (k + j)) :=
    ⟨hn, h.length ▸ hstill k hk, fun j => h.play hn own _⟩
  obtain ⟨i, ht⟩ := List.mem_iff_getElem?.1 htmem
  obtain ⟨lb, hi⟩ := (hbecalmed.underway 0).exists_loadBalancer ht
  rw [Task.result?]
  cases hp : t.program with
  | ask q next =>
    exact absurd ((Schedule.program?_eq ht).trans (congrArg some hp)) (hbecalmed.not_ask hi)
  | _ => exact Option.some_ne_none _

theorem returned_of_stuck (hs : s.Stuck own) : ∀ t ∈ s.tasks, t.result? ≠ none := by
  obtain ⟨n, hreturned⟩ := h.exists_returned hn own (Schedule.fair_byTurns _)
  obtain ⟨milliseconds, heq⟩ := hs.exists_after c.loadBalancers.length n
  have hall := hreturned n le_rfl
  rwa [heq] at hall

end Underway

/-- All reconciliations of a convoy have returned, and nobody is left in their meeting. -/
structure Convoy.Dissolved (c : Convoy) (s : Schedule σ Unit) : Prop where
  returned : s.tasks.map (·.result?.isSome) = c.layouts.map fun _ => true
  nobody : s.meeting.parties = 0

/-- What holds of a convoy after any history. -/
structure Convoy.Unimpeded (c : Convoy) (own : Provider σ) (s : Schedule σ Unit)
    (moves : List Schedule.Move) : Prop where
  /-- As long as somebody has not returned, some task can do something sooner or later. -/
  notStuck : (∃ t ∈ (s.play own moves).tasks, t.result? = none) → ¬ (s.play own moves).Stuck own
  /-- Whoever has returned, with whatever result, has left once. -/
  leaves : ∀ i lb t, c.loadBalancers[i]? = some lb → (s.play own moves).tasks[i]? = some t →
    t.result? ≠ none → s.LeavesOnce own moves i lb
  dissolves : (∀ t ∈ (s.play own moves).tasks, t.result? ≠ none) → c.Dissolved (s.play own moves)

theorem Underway.dissolved (h : Underway c s) (hall : ∀ t ∈ s.tasks, t.result? ≠ none) :
    c.Dissolved s where
  returned := by
    have hlength : s.tasks.length = c.layouts.length := by simpa [Convoy.loadBalancers] using h.length
    refine (List.map_congr_left fun t ht => Option.isSome_iff_ne_none.2 (hall t ht)).trans ?_
    rw [List.map_const', List.map_const', hlength]
  nobody := h.parties_eq_zero hall

/-- Whatever the provider answers and whoever is canceled, the reconciliations of different load
balancers that share their snapshots never get stuck, and all of them return if each of them goes on
again and again. Each has left once when it returns, and nobody is left in the end. -/
theorem Convoy.deadlock_free (hn : c.loadBalancers.Nodup) (own : Provider σ) (provider : σ)
    (draws : List Binary64) :
    (∀ moves, c.Unimpeded own (c.schedule provider draws) moves) ∧
    ∀ moves, Schedule.Fair c.layouts.length moves →
      ∃ n, ∀ k, n ≤ k → c.Dissolved ((c.schedule provider draws).after own moves k) := by
  have hstart : Underway c (c.schedule provider draws) := .start hn provider draws
  refine ⟨fun moves => ?_, fun moves hfair => ?_⟩
  · have h := hstart.play hn own moves
    refine ⟨fun hsome hstuck => ?_, fun i lb t hi ht hr => ?_, h.dissolved⟩
    · obtain ⟨t, ht, hnone⟩ := hsome
      exact h.returned_of_stuck hn hstuck t ht hnone
    · obtain ⟨r, hr⟩ := Option.ne_none_iff_exists'.1 hr
      refine hstart.leavesOnce hn hi ?_ (h.not_registered_of_result hi ht hr)
      rw [Convoy.schedule, Convoy.meeting_eq hn]
      exact (isRegistered_assembled _ lb).trans (decide_eq_true (List.mem_of_getElem? hi))
  · have hlength : c.loadBalancers.length = c.layouts.length := List.length_map ..
    obtain ⟨n, hreturned⟩ := hstart.exists_returned hn own (hlength ▸ hfair)
    exact ⟨n, fun k hk => (hstart.play hn own _).dissolved (hreturned k hk)⟩

namespace Sample

def convoy : Convoy := ⟨layout.service.tag, [layout, { layout with loadBalancer := ⟨"lb-2"⟩ }]⟩

/-- The second reconciliation is canceled before it has made any request, and returns. -/
def cancellation : List Schedule.Move := [.step 0, .cancel 1, .step 1, .step 1]

end Sample

theorem sample_convoy_deadlock_free :
    let s := Sample.convoy.schedule Sample.memory []
    Sample.convoy.loadBalancers.Nodup ∧ Schedule.Fair Sample.convoy.layouts.length (Schedule.byTurns 2) ∧
      ¬ (s.play (Memory.provider .scattered) Sample.cancellation).Stuck (Memory.provider .scattered) ∧
      s.LeavesOnce (Memory.provider .scattered) Sample.cancellation 1 ⟨"lb-2"⟩ ∧
      ∃ n, ∀ k, n ≤ k →
        Sample.convoy.Dissolved (s.after (Memory.provider .scattered) (Schedule.byTurns 2) k) := by
  have hn : Sample.convoy.loadBalancers.Nodup := by decide +kernel
  have hfair : Schedule.Fair Sample.convoy.layouts.length (Schedule.byTurns 2) := Schedule.fair_byTurns 2
  obtain ⟨hunimpeded, hdissolved⟩ :=
    Convoy.deadlock_free hn (Memory.provider .scattered) Sample.memory []
  refine ⟨hn, hfair, (hunimpeded Sample.cancellation).notStuck ?_,
    (hunimpeded Sample.cancellation).leaves 1 ⟨"lb-2"⟩ _ rfl rfl ?_, hdissolved _ hfair⟩
  · exact ⟨_, List.mem_of_getElem? (i := 0) rfl, rfl⟩
  · exact Option.some_ne_none _

end BalancerSync
