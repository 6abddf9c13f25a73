import BalancerSync.Proofs.Convoy

namespace BalancerSync

open Program Rendezvous

variable {σ : Type} {c : Convoy} {own : Provider σ} {s : Schedule σ Unit} {t t' : Task Unit}
  {i j a : Nat} {lb lb' : Identifier} {q : Request} {next : q.Reply → Program Unit}
  {out : Option q.Reply × Schedule σ Unit} {m : Rendezvous Identifier Shared}
  {x : Arrival Identifier Shared}

structure Answered (s : Schedule σ Unit) (i : Nat) (lb : Identifier) (t : Task Unit) (q : Request)
    (out : Option q.Reply × Schedule σ Unit) (t' : Task Unit) : Prop where
  acted : Acted i lb (s.arrivalOf t) t' s out.2
  replies : ∀ reply, out.1 = some reply →
    (conduct lb).replies q (s.role i lb t) reply (out.2.role i lb t')
  rests : out.1 = none → out.2.role i lb t' = s.role i lb t
  attending : ∀ a, t'.arrival = some a → ∃ x, out.2.meeting.arrivals[a]? = some x ∧
    ∀ p, (out.1 = none → p = t.program) → Attending lb p x

/-- An arrival has done something, and its task learns what it has come to. -/
theorem answered_turn {next : Turn → Program Unit} (ht : s.tasks[i]? = some t) (hp : t.program = ask (.arrive lb) next)
    (hidle : s.role i lb t = .idle) (hacts : Acts (s.arrivalOf t) s.meeting m)
    (hco : ∃ rounds, Coherent rounds m) (hl : Lively m)
    (hx : m.arrivals[s.arrivalOf t]? = some x) (hkey : x.key = lb) (hne : x.stage ≠ .dropped) :
    ∃ t', Answered s i lb t (.arrive lb)
      (Schedule.turn? i (s.arrivalOf t) { s with meeting := m }) t' := by
  obtain ⟨hinside, -, hregistered⟩ := Schedule.role_eq_idle_iff.1 hidle
  have hrole (t' : Task Unit) : ({ s with meeting := m, tasks := s.tasks.set i t' } : Schedule σ Unit).role
      i lb t' = ⟨false, t'.arrival.any m.leads, false⟩ := by
    rw [Schedule.role, hacts.isRegistered, hregistered, decide_eq_false hinside]
    rfl
  have hacted (t' : Task Unit) (hled : m.leads (s.arrivalOf t) = true → t'.arrival = some (s.arrivalOf t)) :
      Acted i lb (s.arrivalOf t) t' s { s with meeting := m, tasks := s.tasks.set i t' } :=
    ⟨rfl, rfl, fun _ _ => Iff.rfl, hacts.others, fun k _ => hacts.isRegistered k,
      fun hk => (hacts.isRegistered lb).symm.trans hk, hco, hl, hled⟩
  have ht₁ : ({ s with meeting := m } : Schedule σ Unit).tasks[i]? = some t := ht
  obtain ⟨k, canceled, stage⟩ := x
  subst hkey
  have hstage : m.stage? (s.arrivalOf t) = some stage := stage?_eq hx
  have hstage₁ : ({ s with meeting := m } : Schedule σ Unit).meeting.stage? (s.arrivalOf t) =
    some stage := hstage
  cases stage with
  | leading round =>
    rw [Schedule.turn?_of_leading ht₁ hstage₁]
    have hleads : m.leads (s.arrivalOf t) = true := leads_iff.2 ⟨_, _, _, hx⟩
    refine ⟨{ t with arrival := some (s.arrivalOf t) }, hacted _ fun _ => rfl, ?replies, ?rests,
      ?attending⟩
    case replies =>
      intro reply hreply
      cases hreply
      refine (hrole _).trans ?_
      rw [hidle, Option.any_some, hleads]
      rfl
    case rests =>
      intro hnone
      cases hnone
    case attending =>
      intro a ha
      cases ha
      exact ⟨_, hx, fun p _ => .leading⟩
  | ended outcome =>
    rw [Schedule.turn?_of_ended ht₁ hstage₁]
    refine ⟨{ t with arrival := none }, hacted _ ?led, ?replies, ?rests, ?attending⟩
    case led =>
      intro hleads
      obtain ⟨_, _, _, hx'⟩ := leads_iff.1 hleads
      cases hx.symm.trans hx'
    case replies =>
      intro reply hreply
      cases hreply
      exact (hrole _).trans hidle.symm
    case rests =>
      intro hnone
      cases hnone
    case attending =>
      intro a ha
      cases ha
  | waiting mailbox woken =>
    rw [Schedule.turn?_of_waiting ht₁ hstage₁]
    have hleads : m.leads (s.arrivalOf t) = false := by
      rw [leads, hstage]
    refine ⟨{ t with arrival := some (s.arrivalOf t) }, hacted _ fun _ => rfl, ?replies, ?rests,
      ?attending⟩
    case replies =>
      intro reply hreply
      cases hreply
    case rests =>
      intro _
      refine (hrole _).trans ?_
      rw [hidle, Option.any_some, hleads]
      rfl
    case attending =>
      intro a ha
      cases ha
      refine ⟨_, hx, fun p hpt => ?_⟩
      rw [hpt rfl, hp]
      exact .waiting
  | dropped => exact absurd rfl hne

namespace Underway

variable (h : Underway c s) (hi : c.loadBalancers[i]? = some lb) (ht : s.tasks[i]? = some t)

include h hi ht

omit hi ht in
theorem handler_watch (own : Provider σ) (i : Nat) (call : Call) : ∃ reply provider,
    Schedule.handler own i (.watch call) s = (some reply, { s with provider }) := by
  have hholds : s.holds call = false := by
    cases call with
    | list tag => exact h.notHeld
    | _ => rfl
  rw [Schedule.handler, hholds]
  split
  · exact ⟨none, s.provider, rfl⟩
  · exact ⟨_, _, rfl⟩

theorem answered_of_meeting (hp : t.program = ask q next) (hq : ∀ lb, q ≠ .arrive lb)
    (htasks : out.2.tasks = s.tasks.set i t') (hheld : out.2.held = s.held)
    (hmeeting : out.2.meeting = s.meeting) (harrival : t'.arrival = t.arrival)
    (hinside : ∀ j, j ≠ i → (out.2.inside = some j ↔ s.inside = some j))
    (hreplies : ∀ reply, out.1 = some reply → (conduct lb).replies q (s.role i lb t) reply
      { s.role i lb t with inside := out.2.inside = some i })
    (hrests : out.1 = none → out.2.inside = s.inside) : Answered s i lb t q out t' := by
  have hrole : out.2.role i lb t' = { s.role i lb t with inside := out.2.inside = some i } := by
    rw [Schedule.role, hmeeting, harrival]
    rfl
  refine ⟨⟨htasks, hheld, hinside, fun b _ => ?_, fun k _ => ?_, fun hk => ?_, ?_, ?_, fun hl => ?_⟩,
    fun reply hreply => ?_, fun hnone => ?_, fun a ha => ?_⟩
  · rw [hmeeting]
    exact drifts_self _
  · rw [hmeeting]
  · rwa [hmeeting] at hk
  · rw [hmeeting]
    exact h.coherent
  · rw [hmeeting]
    exact h.lively
  · rw [hmeeting] at hl
    exact harrival.trans (Schedule.arrival_of_leads hl)
  · rw [hrole]
    exact hreplies reply hreply
  · rw [hrole, hrests hnone]
    rfl
  · rw [harrival] at ha
    obtain ⟨x, hx, hattending⟩ := (h.member i lb t hi ht).attending a ha
    refine ⟨x, by rwa [hmeeting], fun p _ => ?_⟩
    rw [hp] at hattending
    cases hattending with
    | leading => exact .leading
    | waiting => exact absurd rfl (hq lb)

theorem answered_of_same (hp : t.program = ask q next) (hq : ∀ lb, q ≠ .arrive lb)
    (htasks : out.2.tasks = s.tasks.set i t') (hheld : out.2.held = s.held)
    (hmeeting : out.2.meeting = s.meeting) (harrival : t'.arrival = t.arrival) (hinside : out.2.inside = s.inside)
    (hreplies : ∀ r reply, (conduct lb).replies q r reply r) : Answered s i lb t q out t' := by
  refine h.answered_of_meeting hi ht hp hq htasks hheld hmeeting harrival
    (fun j _ => by rw [hinside]) (fun reply _ => ?_) fun _ => hinside
  rw [hinside]
  exact hreplies _ reply

theorem answered_arrive {next : Turn → Program Unit} (hp : t.program = ask (.arrive lb) next)
    (hidle : s.role i lb t = .idle) :
    ∃ t', Answered s i lb t (.arrive lb) (Schedule.handler own i (.arrive lb) s) t' := by
  obtain ⟨rounds, hco⟩ := h.coherent
  rw [Schedule.handler, Schedule.arrive, ht, Option.bind_some]
  cases ha : t.arrival with
  | none =>
    have hmine : s.arrivalOf t = s.meeting.next := by rw [Schedule.arrivalOf, ha]; rfl
    obtain ⟨x, hx, hkey, hne⟩ := exists_arrive s.meeting lb (s.isCanceled i)
    have hturn := answered_turn ht hp hidle (hmine ▸ .arrive s.meeting lb _)
      ⟨_, hco.changes (hco.move_changes (.arrive lb (s.isCanceled i)))⟩ (h.lively.arrive hco lb _)
      (hmine ▸ hx) hkey hne
    rwa [hmine] at hturn
  | some a =>
    have hmine : s.arrivalOf t = a := by rw [Schedule.arrivalOf, ha]; rfl
    obtain ⟨y, hy, hattending⟩ := (h.member i lb t hi ht).attending a ha
    obtain ⟨x, hx, hkey, hne⟩ := (Acts.step s.meeting a).own y hy hattending.ne_dropped
    have hturn := answered_turn ht hp hidle (hmine ▸ .step s.meeting a)
      ⟨_, hco.changes (hco.move_changes (.step a))⟩ (h.lively.step hco a)
      (hmine ▸ hx) (hkey.trans hattending.key) hne
    rwa [hmine] at hturn

theorem exists_leading (hleading : (s.role i lb t).leading = true) :
    ∃ a canceled round, t.arrival = some a ∧
      s.meeting.arrivals[a]? = some ⟨lb, canceled, .leading round⟩ := by
  have hany : t.arrival.any s.meeting.leads = true := hleading
  cases ha : t.arrival with
  | none =>
    rw [ha] at hany
    cases hany
  | some a =>
    rw [ha, Option.any_some] at hany
    obtain ⟨k, canceled, round, hx⟩ := leads_iff.1 hany
    obtain ⟨y, hy, hattending⟩ := (h.member i lb t hi ht).attending a ha
    cases hx.symm.trans hy
    cases hattending.key
    exact ⟨a, canceled, round, rfl, hx⟩

theorem handler_release (own : Provider σ) (outcome : Outcome Shared)
    (hleading : (s.role i lb t).leading = true) : ∃ a, t.arrival = some a ∧
      (s.meeting.settle a outcome).stage? a = some (.ended outcome) ∧
      Schedule.handler own i (.release outcome) s = (some outcome,
        { s with tasks := s.tasks.set i { t with arrival := none }, meeting := s.meeting.settle a outcome }) := by
  obtain ⟨rounds, hco⟩ := h.coherent
  obtain ⟨a, canceled, round, ha, hx⟩ := h.exists_leading hi ht hleading
  have hended := hco.stage?_settle (stage?_eq hx)
    outcome
  refine ⟨a, ha, hended, ?_⟩
  rw [Schedule.handler, Schedule.release, ht, Option.bind_some, ha]
  dsimp only
  rw [hended]
  dsimp only
  rw [Schedule.modifyTask, Schedule.modify_eq_set ht]

theorem answered_release (own : Provider σ) (outcome : Outcome Shared)
    (hleading : (s.role i lb t).leading = true) : Answered s i lb t (.release outcome)
      (Schedule.handler own i (.release outcome) s) { t with arrival := none } := by
  obtain ⟨rounds, hco⟩ := h.coherent
  obtain ⟨a, ha, hended, heq⟩ := h.handler_release hi ht own outcome hleading
  have hmine : s.arrivalOf t = a := by rw [Schedule.arrivalOf, ha]; rfl
  have hacts := Acts.settle s.meeting a outcome
  have hchanges : ∃ rounds', Coherent rounds' (s.meeting.settle a outcome) := by
    obtain ⟨a', _, _, ha', hx⟩ := h.exists_leading hi ht hleading
    cases ha.symm.trans ha'
    have hsettle : Changes (fun _ => False) rounds s.meeting _ _ := hco.settle_changes hx outcome
    exact ⟨_, hco.changes hsettle⟩
  rw [heq]
  refine ⟨⟨rfl, rfl, fun _ _ => Iff.rfl, hmine ▸ hacts.others, fun k _ => hacts.isRegistered k,
    fun hk => (hacts.isRegistered lb).symm.trans hk, hchanges, h.lively.settle hco a outcome,
    ?led⟩, ?replies, ?rests, ?attending⟩
  case led =>
    intro hl
    rw [hmine, leads, hended] at hl
    cases hl
  case replies =>
    intro reply _
    have hregistered := hacts.isRegistered lb
    change Role.mk _ _ _ = Role.mk _ _ _
    rw [hregistered]
    rfl
  case rests =>
    intro hnone
    cases hnone
  case attending =>
    intro a ha
    cases ha

theorem answered_leave (own : Provider σ) {next : Except Denial Unit → Program Unit}
    (hp : t.program = ask (.leave lb) next) (hidle : s.role i lb t = .idle) :
    Answered s i lb t (.leave lb) (Schedule.handler own i (.leave lb) s) t := by
  obtain ⟨rounds, hco⟩ := h.coherent
  obtain ⟨hinside, hleading, hregistered⟩ := Schedule.role_eq_idle_iff.1 hidle
  have harrival : t.arrival = none := by
    by_contra hne
    obtain ⟨a, ha⟩ := Option.ne_none_iff_exists'.1 hne
    obtain ⟨x, hx, hattending⟩ := (h.member i lb t hi ht).attending a ha
    rw [hp] at hattending
    cases hattending with
    | leading =>
      rw [ha, Option.any_some, leads_iff.2 ⟨_, _, _, hx⟩] at hleading
      cases hleading
  have hdrift := Drift.leave s.meeting lb
  refine ⟨⟨(Schedule.set_eq_self ht).symm, rfl, fun _ _ => Iff.rfl, fun b _ => hdrift b, ?registered,
    fun hk => (isRegistered_leave_iff.1 hk).1, ⟨_, hco.changes (hco.move_changes (.leave lb))⟩,
    h.lively.leave hco lb, ?led⟩, ?replies, ?rests, ?attending⟩
  case registered =>
    intro k hk
    exact Bool.eq_iff_iff.2 (isRegistered_leave_iff.trans (and_iff_left hk))
  case led =>
    intro hl
    exact Schedule.arrival_of_leads ((leads_iff_of_drifts (hdrift _)).1 hl)
  case replies =>
    intro reply _
    have hleft : (s.meeting.leave lb).2.isRegistered lb = false :=
      Bool.eq_false_iff.2 fun hk => (isRegistered_leave_iff.1 hk).2 rfl
    change Role.mk (decide (s.inside = some i)) (t.arrival.any _) (!(s.meeting.leave lb).2.isRegistered lb) = _
    rw [hleft, harrival, decide_eq_false hinside, hidle]
    rfl
  case rests =>
    intro hnone
    cases hnone
  case attending =>
    intro a ha
    cases harrival.symm.trans ha

theorem exists_answered (own : Provider σ) (hp : t.program = ask q next)
    (hq : (conduct lb).allows q (s.role i lb t)) :
    ∃ t', Answered s i lb t q (Schedule.handler own i q s) t' := by
  have hself : s.tasks = s.tasks.set i t := (Schedule.set_eq_self ht).symm
  cases q with
  | call c => exact ⟨t, h.answered_of_same hi ht hp (by simp) hself rfl rfl rfl rfl fun _ _ => rfl⟩
  | watch c =>
    obtain ⟨reply, provider, heq⟩ := h.handler_watch own i c
    rw [heq]
    exact ⟨t, h.answered_of_same hi ht hp (by simp) hself rfl rfl rfl rfl fun _ _ => rfl⟩
  | isCanceled => exact ⟨t, h.answered_of_same hi ht hp (by simp) hself rfl rfl rfl rfl fun _ _ => rfl⟩
  | sleep d =>
    obtain ⟨reply, wake, heq⟩ := Schedule.exists_handler_sleep own d ht
    rw [heq]
    exact ⟨{ t with wake }, h.answered_of_same hi ht hp (by simp) rfl rfl rfl rfl rfl fun _ _ => rfl⟩
  | draw => exact ⟨t, h.answered_of_same hi ht hp (by simp) hself rfl rfl rfl rfl fun _ _ => rfl⟩
  | latest => exact ⟨t, h.answered_of_same hi ht hp (by simp) hself rfl rfl rfl rfl fun _ _ => rfl⟩
  | remember latest =>
    exact ⟨{ t with latest }, h.answered_of_same hi ht hp (by simp) (Schedule.modify_eq_set ht _) rfl rfl rfl
      rfl fun _ _ => rfl⟩
  | enter =>
    rw [Schedule.handler]
    cases hinside : s.inside with
    | none =>
      refine ⟨t, h.answered_of_meeting hi ht hp (by simp) hself rfl rfl rfl (fun j hij => ?_)
        (fun _ _ => ?_) fun hnone => by cases hnone⟩
      · simp [hinside, hij.symm]
      · exact congrArg (Role.mk · _ _) (decide_eq_true rfl)
    | some k =>
      exact ⟨t, h.answered_of_meeting hi ht hp (by simp) hself rfl rfl rfl (fun _ _ => Iff.rfl)
        (fun _ hreply => by cases hreply) fun _ => rfl⟩
  | exit =>
    have hinside : s.inside = some i := of_decide_eq_true hq
    rw [Schedule.handler]
    refine ⟨t, h.answered_of_meeting hi ht hp (by simp) hself rfl rfl rfl (fun j hij => ?_)
      (fun _ _ => rfl) fun hnone => by cases hnone⟩
    simp [hinside, hij.symm]
  | arrive lb' =>
    obtain ⟨rfl, hidle⟩ := hq
    exact h.answered_arrive hi ht hp hidle
  | release outcome => exact ⟨_, h.answered_release hi ht own outcome hq⟩
  | leave lb' =>
    obtain ⟨rfl, hidle⟩ := hq
    exact ⟨t, h.answered_leave hi ht own hp hidle⟩

end Underway

theorem Spares.refl (c : Convoy) (i : Nat) (s : Schedule σ Unit) : Spares c i s s where
  tasks t ht := ⟨t.canceled, ht⟩
  arrivals _ _ _ _ := drifts_self _
  registered _ _ := rfl
  inside := Iff.rfl

namespace Underway

variable (h : Underway c s)

include h

/-- A step keeps what is known about a convoy, and it spares the other tasks. -/
theorem step (hn : c.loadBalancers.Nodup) (own : Provider σ) (i : Nat) :
    Underway c (s.step own i) ∧ (∀ j, j ≠ i → Spares c j s (s.step own i)) ∧
      ∀ k, (s.step own i).meeting.isRegistered k = true → s.meeting.isRegistered k = true := by
  have hsame : Underway c s ∧ (∀ j, j ≠ i → Spares c j s s) ∧
      ∀ k, s.meeting.isRegistered k = true → s.meeting.isRegistered k = true :=
    ⟨h, fun j _ => .refl c j s, fun _ => id⟩
  cases ht : s.tasks[i]? with
  | none =>
    rw [Schedule.step, ht]
    exact hsame
  | some t =>
    obtain ⟨lb, hi⟩ := h.exists_loadBalancer ht
    have hmeets := (h.member i lb t hi ht).meets
    cases hp : t.program with
    | done a => rwa [Schedule.step_of_done ht hp]
    | fail failure => rwa [Schedule.step_of_fail ht hp]
    | ask q next =>
      rw [hp] at hmeets
      obtain ⟨hq, hnext⟩ := hmeets _ rfl
      obtain ⟨t', hanswered⟩ := h.exists_answered hi ht own hp hq
      rcases hout : Schedule.handler own i q s with ⟨reply?, s'⟩
      rw [hout] at hanswered
      -- With a reply the program goes on, and without one it asks again. Otherwise both cases are alike.
      have hconclude (program : Program Unit)
          (hstep : s.step own i = { s' with tasks := s.tasks.set i { t' with program } })
          (hmeets : program.Meets (conduct lb) (fun _ r => r = .gone) (s'.role i lb t'))
          (hprogram : reply? = none → program = t.program) :
          Underway c (s.step own i) ∧ (∀ j, j ≠ i → Spares c j s (s.step own i)) ∧
            ∀ k, (s.step own i).meeting.isRegistered k = true → s.meeting.isRegistered k = true := by
        have hacted := hanswered.acted.program program
        rw [hstep]
        obtain ⟨hunderway, hspares⟩ := h.acted hn hi ht hacted ⟨hmeets, fun a ha => by
          obtain ⟨x, hx, hattending⟩ := hanswered.attending a ha
          exact ⟨x, hx, hattending program hprogram⟩⟩
        refine ⟨hunderway, hspares, fun k hk => ?_⟩
        by_cases hlb : k = lb
        · exact hlb ▸ hacted.gone (hlb ▸ hk)
        · exact (hacted.registered k hlb).symm.trans hk
      cases reply? with
      | some reply =>
        exact hconclude (next reply) (Schedule.tasks_step_of_some ht hp hout hanswered.acted.tasks)
          (hnext reply _ (hanswered.replies reply rfl)) fun hnone => by cases hnone
      | none =>
        refine hconclude t.program (Schedule.tasks_step_of_none ht hp hout hanswered.acted.tasks) ?_
          fun _ => rfl
        rw [hanswered.rests rfl]
        exact (h.member i lb t hi ht).meets

/-- A move that changes nothing but cancellations and the clock spares all tasks. -/
theorem of_drift {s' : Schedule σ Unit} (hheld : s'.held = s.held) (hinside : s'.inside = s.inside)
    (hco : ∃ rounds, Coherent rounds s'.meeting) (hl : Lively s'.meeting)
    (hdrift : Drift s.meeting s'.meeting)
    (hregistered : ∀ k, s'.meeting.isRegistered k = s.meeting.isRegistered k)
    (hlength : s'.tasks.length = s.tasks.length)
    (htasks : ∀ (i : Nat) (t : Task Unit), s.tasks[i]? = some t →
      ∃ canceled, s'.tasks[i]? = some { t with canceled }) :
    Underway c s' ∧ ∀ i, Spares c i s s' := by
  have hspares (i : Nat) : Spares c i s s' :=
    ⟨htasks i, fun _ a _ _ => hdrift a, fun k _ => hregistered k, by rw [hinside]⟩
  refine ⟨⟨hheld.trans h.notHeld, hco, hl, hlength.trans h.length, fun i hi => ?_, fun k hk => ?_,
    fun a ha => ?_, fun i lb t' hi ht' => ?_⟩, hspares⟩
  · exact h.inside i (hinside ▸ hi)
  · exact h.registered k ((hregistered k).symm.trans hk)
  · obtain ⟨t, ht, harrival⟩ := h.led a ((leads_iff_of_drifts (hdrift a)).1 ha)
    obtain ⟨i, hi⟩ := List.mem_iff_getElem?.1 ht
    obtain ⟨canceled, hi'⟩ := htasks i t hi
    exact ⟨_, List.mem_of_getElem? hi', harrival⟩
  · obtain ⟨t, ht⟩ := h.exists_task hi
    obtain ⟨canceled, ht₁⟩ := htasks i t ht
    cases ht'.symm.trans ht₁
    exact (hspares i).member hi ht (h.member i lb t hi ht) canceled

theorem cancel (i : Nat) : Underway c (s.cancel i) ∧ ∀ j, Spares c j s (s.cancel i) := by
  obtain ⟨rounds, hco⟩ := h.coherent
  have hlength : (s.cancel i).tasks.length = s.tasks.length := by
    rw [Schedule.tasks_cancel, List.length_modify]
  have htasks (j : Nat) (t : Task Unit) (ht : s.tasks[j]? = some t) :
      ∃ canceled, (s.cancel i).tasks[j]? = some { t with canceled } := Schedule.exists_task_cancel i ht
  rw [Schedule.cancel] at hlength htasks ⊢
  cases ha : (s.tasks[i]?).bind (·.arrival) with
  | none =>
    rw [ha] at hlength htasks
    exact h.of_drift rfl rfl h.coherent h.lively (fun _ => drifts_self _) (fun _ => rfl) hlength htasks
  | some a =>
    rw [ha] at hlength htasks
    exact h.of_drift rfl rfl ⟨rounds, hco.cancel a⟩ (h.lively.cancel a) (.cancel s.meeting a)
      (fun _ => rfl) hlength htasks

theorem elapse (milliseconds : Nat) :
    Underway c (s.elapse milliseconds) ∧ ∀ i, Spares c i s (s.elapse milliseconds) :=
  h.of_drift rfl rfl h.coherent h.lively (fun _ => drifts_self _) (fun _ => rfl) rfl
    fun _ t ht => ⟨t.canceled, ht⟩

/-- What is known about a convoy is kept by every move. -/
theorem move (hn : c.loadBalancers.Nodup) (own : Provider σ) (move : Schedule.Move) :
    Underway c (s.move own move) ∧ (∀ i, move ≠ .step i → Spares c i s (s.move own move)) ∧
      ∀ k, (s.move own move).meeting.isRegistered k = true → s.meeting.isRegistered k = true := by
  have hspared {s' : Schedule σ Unit} (h' : Underway c s' ∧ ∀ i, Spares c i s s') :
      Underway c s' ∧ (∀ i, move ≠ .step i → Spares c i s s') ∧
        ∀ k, s'.meeting.isRegistered k = true → s.meeting.isRegistered k = true := by
    refine ⟨h'.1, fun i _ => h'.2 i, fun k hk => ?_⟩
    obtain ⟨i, hi⟩ := List.mem_iff_getElem?.1 (h'.1.registered k hk)
    exact ((h'.2 i).registered k hi).symm.trans hk
  cases move with
  | step i =>
    obtain ⟨hunderway, hspares, hgone⟩ := h.step hn own i
    exact ⟨hunderway, fun j hij => hspares j fun heq => hij (heq ▸ rfl), hgone⟩
  | cancel i => exact hspared (h.cancel i)
  | elapse milliseconds => exact hspared (h.elapse milliseconds)

end Underway

end BalancerSync
