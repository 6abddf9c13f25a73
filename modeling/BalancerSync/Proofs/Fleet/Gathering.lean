import BalancerSync.Proofs.Fleet.Steps

namespace BalancerSync

open Program World Rendezvous

variable {fresh : Nat → Identifier} {f : Fleet} {before i j : Nat} {lb : Identifier}
  {s s' : Schedule Memory Unit} {t t' : Task Unit} {phase phase' : Identifier → Phase Shared}
  {p p' : Phase Shared} {pending pending' : Option Identifier}

namespace Joint

theorem seen_congr (hp : s'.provider = s.provider) (hi : s'.inside = s.inside)
    (hr : s'.meeting.rounds = s.meeting.rounds) :
    s'.seen before pending i p t = s.seen before pending i p t := by
  simp [Schedule.seen, hp, hi, hr]

theorem most_of_passes {m' : Rendezvous Identifier Shared} {come : List Identifier}
    (h : Joint fresh f before phase pending s)
    (hpasses : Passes f.loadBalancers phase' 0 come s.meeting m') :
    m'.rounds = 0 ∨ ∃ lb ∈ f.loadBalancers, m'.rounds ≤ m'.callers.count lb := by
  rw [hpasses.rounds, hpasses.callers]
  refine h.most.imp_right ?_
  rintro ⟨lb, hlb, hle⟩
  refine ⟨lb, hlb, ?_⟩
  rw [List.count_append]
  exact Nat.le_add_right_of_le hle

theorem lead {a : Nat} {come : List Identifier} {m' : Rendezvous Identifier Shared}
    {program : Program Unit} (h : Joint fresh f before phase pending s) (hn : f.loadBalancers.Nodup)
    (hi : f.loadBalancers[i]? = some lb) (ht : s.tasks[i]? = some t)
    (hfree : (phase lb).isFree = true) (hrest : s.inside ≠ some i)
    (hpasses : Passes f.loadBalancers (Function.update (fun lb => (phase lb).call) lb (.leading a)) 0
      come s.meeting m')
    (hcome : ∀ lb', lb' ≠ lb → come.count lb' = 0)
    (hvisits : m'.callers.count lb = s.meeting.rounds + 1)
    (hfull : ∀ lb' ∈ f.loadBalancers, lb' ≠ lb →
      phase lb' = .gone ∨ ∃ b woken, phase lb' = .waiting b woken)
    (hmeets : program.Meets (f.calm fresh before lb) Finished
      { s.seen before pending i .away t with leading := some s.provider.journal.listings }) :
    Joint fresh f before (Function.update (fun lb => (phase lb).call) lb (.leading a)) pending { s with
      meeting := m'
      tasks := s.tasks.set i { t with arrival := some a, program } } := by
  have hparty := h.party i lb t hi ht
  obtain ⟨hl, -⟩ := h.not_leading hi hfree
  have hlistings := h.listings hl
  have hrounds : m'.rounds = s.meeting.rounds := hpasses.rounds
  refine h.next hn hi rfl rfl hpasses.toOrderly ?_ ?_ h.nothing (.inl rfl) ?_ (h.most_of_passes hpasses)
  · rw [Function.update_self]
    refine ⟨hparty.notCanceled, rfl, hparty.sound.of_eq rfl rfl rfl, .leading ?_, fun _ => hrest, ?_⟩
    · rw [hlistings] at hmeets
      simp only [Schedule.seen, Phase.begun, hrounds]
      exact hmeets
    · rw [hrounds]
      exact hvisits
  · intro j lb' t' hji hne hlb' hj
    have hcount : m'.callers.count lb' = s.meeting.callers.count lb' := by
      rw [hpasses.callers, List.count_append, hcome lb' hne, Nat.add_zero]
    rw [Function.update_of_ne hne]
    have hphase := hfull lb' hlb' hne
    have hseen : Schedule.seen { s with
        meeting := m'
        tasks := s.tasks.set i { t with arrival := some a, program } } before pending j
        (phase lb').call t' = s.seen before pending j (phase lb') t' := by
      rcases hphase with hg | ⟨b, woken, hb⟩
      · rw [hg]
        exact seen_congr rfl rfl hrounds
      · rw [hb]
        rfl
    refine ⟨hj.notCanceled, ?_, hseen ▸ hj.sound, ?_, fun hp => hj.outside fun hp' => hp ?_, ?_⟩
    · rw [hj.arrival]
      cases phase lb' <;> rfl
    · rw [hseen, hrounds]
      exact hj.standing.call hphase hlistings
    · rw [hp']
      rfl
    · rw [hrounds, hcount]
      have := hj.visited
      rcases hphase with hg | ⟨b, woken, hb⟩
      · rw [hg] at this ⊢
        exact this
      · rw [hb] at this ⊢
        exact this
  · intro hl'
    have hleads := hpasses.leading_of_leading (List.mem_of_getElem? hi) (Function.update_self ..)
    cases hleads.symm.trans hl'

theorem wait {a : Nat} {come : List Identifier} {m' : Rendezvous Identifier Shared}
    {next : Turn → Program Unit} (h : Joint fresh f before phase pending s)
    (hn : f.loadBalancers.Nodup) (hi : f.loadBalancers[i]? = some lb) (ht : s.tasks[i]? = some t)
    (hp : t.program = ask (.arrive lb) next)
    (hfree : (phase lb).isFree = true) (hrest : s.inside ≠ some i)
    (hpasses : Passes f.loadBalancers (Function.update phase lb (.waiting a false)) 0 come
      s.meeting m')
    (hcome : ∀ lb', lb' ≠ lb → come.count lb' = 0)
    (hvisits : m'.callers.count lb = s.meeting.rounds + 1)
    (hmeets : (ask (.arrive lb) next).Meets (f.calm fresh before lb) Finished
      (s.seen before pending i .away t)) :
    Joint fresh f before (Function.update phase lb (.waiting a false)) pending { s with
      meeting := m'
      tasks := s.tasks.set i { t with arrival := some a } } := by
  have hparty := h.party i lb t hi ht
  obtain ⟨hl, -⟩ := h.not_leading hi hfree
  have hrounds : m'.rounds = s.meeting.rounds := hpasses.rounds
  refine h.next hn hi rfl rfl hpasses.toOrderly ?_ ?_ h.nothing (.inl rfl) ?_ (h.most_of_passes hpasses)
  · rw [Function.update_self]
    refine ⟨hparty.notCanceled, rfl, hparty.sound.of_eq rfl rfl rfl, ?_, fun _ => hrest, ?_⟩
    · rw [hp]
      exact .waiting hmeets
    · rw [hrounds]
      exact hvisits
  · intro j lb' t' hji hne hlb' hj
    rw [Function.update_of_ne hne]
    refine hj.same (seen_congr rfl rfl hrounds) Iff.rfl hrounds ?_
    rw [hpasses.callers, List.count_append, hcome lb' hne, Nat.add_zero]
  · intro _
    rw [hrounds]
    exact h.listings hl

/-- A load balancer that is at the meeting leads if all the others wait, and else waits for them. -/
theorem join {a : Nat} {come : List Identifier} {m' : Rendezvous Identifier Shared}
    {next : Turn → Program Unit} (h : Joint fresh f before phase pending s)
    (hn : f.loadBalancers.Nodup) (hi : f.loadBalancers[i]? = some lb) (ht : s.tasks[i]? = some t)
    (hp : t.program = ask (.arrive lb) next) (hfree : (phase lb).isFree = true)
    (hrest : s.inside ≠ some i)
    (hhandler : Schedule.handler (Memory.provider fresh) i (.arrive lb) s =
      Schedule.turn? i a { s with meeting := m' })
    (hcome : ∀ lb', lb' ≠ lb → come.count lb' = 0)
    (hvisits : (s.meeting.callers ++ come).count lb = s.meeting.rounds + 1)
    (hmeets : (ask (.arrive lb) next).Meets (f.calm fresh before lb) Finished
      (s.seen before pending i .away t))
    (hcases : ((∀ lb' ∈ f.loadBalancers, lb' ≠ lb →
          phase lb' = .gone ∨ ∃ b woken, phase lb' = .waiting b woken) ∧
        Passes f.loadBalancers (Function.update (fun lb => (phase lb).call) lb (.leading a)) 0 come
          s.meeting m' ∧ ∃ round, m'.stage? a = some (.leading round)) ∨
      (Passes f.loadBalancers (Function.update phase lb (.waiting a false)) 0 come s.meeting m' ∧
        m'.stage? a = some (.waiting .open false))) :
    ∃ phase', Joint fresh f before phase' pending (s.step (Memory.provider fresh) i) ∧
      Keeps f i phase phase' := by
  obtain ⟨-, hnext⟩ := hmeets _ (calm_rely_refl _)
  rcases hcases with ⟨hfull, hpasses, round, hstage⟩ | ⟨hpasses, hstage⟩
  · have hturn := hhandler.trans (Schedule.turn?_of_leading (s := { s with meeting := m' }) ht hstage)
    rw [Schedule.tasks_step_of_some ht hp hturn rfl]
    exact ⟨_, h.lead (t := t) hn hi ht hfree hrest hpasses hcome (hpasses.callers ▸ hvisits) hfull
      (hnext .lead _ rfl), .update hi fun _ _ => rfl⟩
  · have hturn := hhandler.trans (Schedule.turn?_of_waiting (s := { s with meeting := m' }) ht hstage)
    rw [Schedule.tasks_step_of_none ht hp hturn rfl]
    exact ⟨_, h.wait hn hi ht hp hfree hrest hpasses hcome (hpasses.callers ▸ hvisits) hmeets,
      .update hi (g := id) fun _ _ => rfl⟩

theorem arrive {next : Turn → Program Unit} (h : Joint fresh f before phase pending s)
    (hn : f.loadBalancers.Nodup) (hi : f.loadBalancers[i]? = some lb) (ht : s.tasks[i]? = some t)
    (hp : t.program = ask (.arrive lb) next) (hphase : phase lb = .away)
    (hmeets : (ask (.arrive lb) next).Meets (f.calm fresh before lb) Finished
      (s.seen before pending i .away t)) :
    ∃ phase', Joint fresh f before phase' pending (s.step (Memory.provider fresh) i) ∧
      Keeps f i phase phase' := by
  have hparty := h.party i lb t hi ht
  rw [hphase] at hparty
  obtain ⟨hq, -⟩ := hmeets _ (calm_rely_refl _)
  have hrest : s.inside ≠ some i := of_decide_eq_false hq.1.outside
  have hcome (lb' : Identifier) (hne : lb' ≠ lb) : [lb].count lb' = 0 :=
    List.count_eq_zero.2 (by simpa using hne)
  have hvisits : (s.meeting.callers ++ [lb]).count lb = s.meeting.rounds + 1 := by
    rw [List.count_append, List.count_singleton_self]
    exact congrArg (· + 1) hparty.visited
  exact h.join hn hi ht hp (by rw [hphase]; rfl) hrest
    (Schedule.handler_arrive_of_none _ ht hparty.notCanceled hparty.arrival rfl) hcome hvisits hmeets
    (h.orderly.arrive (List.mem_of_getElem? hi) hphase)

theorem arriveWaiting {a : Nat} {woken : Bool} {next : Turn → Program Unit}
    (h : Joint fresh f before phase pending s) (hn : f.loadBalancers.Nodup)
    (hi : f.loadBalancers[i]? = some lb) (ht : s.tasks[i]? = some t)
    (hp : t.program = ask (.arrive lb) next) (hphase : phase lb = .waiting a woken)
    (hmeets : (ask (.arrive lb) next).Meets (f.calm fresh before lb) Finished
      (s.seen before pending i .away t)) :
    ∃ phase', Joint fresh f before phase' pending (s.step (Memory.provider fresh) i) ∧
      Keeps f i phase phase' := by
  have hparty := h.party i lb t hi ht
  rw [hphase] at hparty
  have hvisits : (s.meeting.callers ++ []).count lb = s.meeting.rounds + 1 := by
    rw [List.append_nil]
    exact hparty.visited
  refine h.join hn hi ht hp (by rw [hphase]; rfl) (hparty.outside nofun)
    (Schedule.handler_arrive_of_some _ lb ht hparty.arrival) (fun _ _ => List.count_nil) hvisits hmeets ?_
  rcases h.orderly.step (List.mem_of_getElem? hi) hphase with ⟨hfull, hleads⟩ | ⟨-, hwaits⟩
  · exact .inl ⟨fun lb' hlb' _ => hfull lb' hlb', hleads⟩
  · exact .inr hwaits

/-- A load balancer that belongs to a round is looked after. -/
theorem arriveCalled {a : Nat} {next : Turn → Program Unit}
    (h : Joint fresh f before phase pending s) (hn : f.loadBalancers.Nodup)
    (hi : f.loadBalancers[i]? = some lb) (ht : s.tasks[i]? = some t)
    (hp : t.program = ask (.arrive lb) next) (hphase : phase lb = .called a) :
    Joint fresh f before phase pending (s.step (Memory.provider fresh) i) := by
  have hlb := List.mem_of_getElem? hi
  have hparty := h.party i lb t hi ht
  rw [hphase] at hparty
  obtain ⟨m', hm'⟩ : ∃ m', s.meeting.step a = m' := ⟨_, rfl⟩
  have hhandler := Schedule.handler_arrive_of_some (Memory.provider fresh) lb ht hparty.arrival
  obtain ⟨hpasses, hstage⟩ := h.orderly.stepCalled hlb hphase
  rw [hm'] at hpasses hstage hhandler
  have hturn := hhandler.trans (Schedule.turn?_of_waiting (s := { s with meeting := m' }) ht hstage)
  have hrounds : m'.rounds = s.meeting.rounds := hpasses.rounds
  have hcallers : m'.callers = s.meeting.callers := hpasses.callers.trans (List.append_nil _)
  have harrival : { t with arrival := some a } = t := by
    have : some a = t.arrival := hparty.arrival.symm
    rw [this]
  rw [Schedule.tasks_step_of_none ht hp hturn rfl]
  refine h.next hn hi rfl rfl hpasses.toOrderly ?_ ?_ h.nothing (.inl rfl) ?_ (h.most_of_passes hpasses)
  · rw [hphase, harrival]
    exact hparty.same (seen_congr rfl rfl hrounds) Iff.rfl hrounds (by rw [hcallers])
  · intro j lb' t' hji hne hlb' hj
    exact hj.same (seen_congr rfl rfl hrounds) Iff.rfl hrounds (by rw [hcallers])
  · intro hl
    cases (hpasses.leading_of_called hlb hphase).symm.trans hl

/-- A load balancer finds the outcome of its round. -/
theorem arriveHolding {a : Nat} {outcome : Outcome Shared} {next : Turn → Program Unit}
    (h : Joint fresh f before phase pending s) (hn : f.loadBalancers.Nodup)
    (hi : f.loadBalancers[i]? = some lb) (ht : s.tasks[i]? = some t)
    (hp : t.program = ask (.arrive lb) next) (hphase : phase lb = .holding a outcome)
    (hmeets : (next (.ended outcome)).Meets (f.calm fresh before lb) Finished
      (s.seen before pending i .away t)) :
    ∃ phase', Joint fresh f before phase' pending (s.step (Memory.provider fresh) i) ∧
      Keeps f i phase phase' := by
  have hlb := List.mem_of_getElem? hi
  have hparty := h.party i lb t hi ht
  rw [hphase] at hparty
  obtain ⟨hl, -⟩ := h.not_leading hi (by rw [hphase]; rfl)
  obtain ⟨m', hm'⟩ : ∃ m', s.meeting.step a = m' := ⟨_, rfl⟩
  have hhandler := Schedule.handler_arrive_of_some (Memory.provider fresh) lb ht hparty.arrival
  obtain ⟨hpasses, hstage⟩ := h.orderly.takeOutcome hlb hphase
  rw [hm'] at hpasses hstage hhandler
  have hturn := hhandler.trans (Schedule.turn?_of_ended (s := { s with meeting := m' }) ht hstage)
  have hrounds : m'.rounds = s.meeting.rounds := hpasses.rounds
  have hcallers : m'.callers = s.meeting.callers := hpasses.callers.trans (List.append_nil _)
  refine ⟨Function.update phase lb .away, ?_, .update hi (g := id) fun _ _ => rfl⟩
  rw [Schedule.tasks_step_of_some ht hp hturn rfl]
  refine h.next hn hi rfl rfl hpasses.toOrderly ?_ ?_ h.nothing (.inl rfl) ?_ (h.most_of_passes hpasses)
  · rw [Function.update_self]
    refine ⟨hparty.notCanceled, rfl, hparty.sound.of_eq rfl rfl rfl, .away ?_, fun h => absurd rfl h, ?_⟩
    · exact hmeets
    · rw [hrounds, hcallers]
      exact hparty.visited
  · intro j lb' t' hji hne hlb' hj
    rw [Function.update_of_ne hne]
    exact hj.same (seen_congr rfl rfl hrounds) Iff.rfl hrounds (by rw [hcallers])
  · intro _
    rw [hrounds]
    exact h.listings hl

theorem handler_release {a : Nat} (h : Joint fresh f before phase pending s)
    (hi : f.loadBalancers[i]? = some lb) (ht : s.tasks[i]? = some t) (hphase : phase lb = .leading a)
    (outcome : Outcome Shared) :
    Schedule.handler (Memory.provider fresh) i (.release outcome) s = (some outcome, { s with
      meeting := s.meeting.settle a outcome
      tasks := s.tasks.set i { t with arrival := none } }) := by
  have ha : t.arrival = some a := by
    rw [(h.party i lb t hi ht).arrival, hphase]
    rfl
  have hstage := (h.orderly.settle (List.mem_of_getElem? hi) hphase outcome).2
  rw [Schedule.handler, Schedule.release, ht]
  simp only [Option.bind_some, ha, hstage, Schedule.modifyTask, Schedule.modify_eq_set ht]

theorem release {a : Nat} {outcome : Outcome Shared} {next : Outcome Shared → Program Unit}
    (h : Joint fresh f before phase pending s) (hn : f.loadBalancers.Nodup)
    (hi : f.loadBalancers[i]? = some lb) (ht : s.tasks[i]? = some t)
    (hp : t.program = ask (.release outcome) next) (hphase : phase lb = .leading a)
    (hq : (f.calm fresh before lb).allows (.release outcome) (s.seen before pending i (.leading a) t))
    (hmeets : (next outcome).Meets (f.calm fresh before lb) Finished
      (s.seen before pending i .away t)) :
    ∃ phase', Joint fresh f before phase' pending (s.step (Memory.provider fresh) i) ∧
      Keeps f i phase phase' := by
  have hlb := List.mem_of_getElem? hi
  have hparty := h.party i lb t hi ht
  rw [hphase] at hparty
  obtain ⟨-, -, hlistings, houtcome⟩ := hq
  have hlistings : before + s.meeting.rounds + 1 = s.provider.journal.listings :=
    Option.some.inj hlistings
  obtain ⟨round, -, -, hothers⟩ := h.orderly.leader hlb hphase
  obtain ⟨m', hm'⟩ : ∃ m', s.meeting.settle a outcome = m' := ⟨_, rfl⟩
  have hpasses := (h.orderly.settle hlb hphase outcome).1
  have hreply := h.handler_release hi ht hphase outcome
  rw [hm'] at hpasses hreply
  have hrounds : m'.rounds = s.meeting.rounds + 1 := hpasses.rounds
  have hcallers : m'.callers = s.meeting.callers := hpasses.callers.trans (List.append_nil _)
  refine ⟨Function.update (fun lb => (phase lb).hold outcome) lb .away, ?_,
    .update hi fun _ _ => rfl⟩
  rw [Schedule.tasks_step_of_some ht hp hreply rfl]
  refine h.next hn hi rfl rfl hpasses.toOrderly ?_ ?_ h.nothing (.inl rfl) ?_ ?_
  · rw [Function.update_self]
    refine ⟨hparty.notCanceled, rfl, hparty.sound.of_eq rfl rfl rfl, .away hmeets,
      fun h => absurd rfl h, ?_⟩
    rw [hrounds, hcallers]
    exact hparty.visited
  · intro j lb' t' hji hne hlb' hj
    rw [Function.update_of_ne hne]
    have hphase' : phase lb' = .gone ∨ ∃ b, phase lb' = .called b :=
      (hothers lb' hlb' hne).imp_right fun ⟨b, _, hb⟩ => ⟨b, hb⟩
    have hseen : Schedule.seen { s with
        meeting := m'
        tasks := s.tasks.set i { t with arrival := none, program := next outcome } } before pending j
        ((phase lb').hold outcome) t' = s.seen before pending j (phase lb') t' := by
      rcases hphase' with hg | ⟨b, hb⟩
      · rw [hg]
        rfl
      · rw [hb]
        rfl
    refine ⟨hj.notCanceled, ?_, hseen ▸ hj.sound, ?_, fun _ => hj.outside ?_, ?_⟩
    · rw [hj.arrival]
      cases phase lb' <;> rfl
    · rw [hseen, hrounds, houtcome]
      refine hj.standing.hold hphase' hj.sound ?_ rfl
      exact hlistings.symm.trans (Nat.add_assoc ..)
    · rcases hphase' with hg | ⟨b, hb⟩
      · rw [hg]
        nofun
      · rw [hb]
        nofun
    · rw [hrounds, hcallers]
      have := hj.visited
      rcases hphase' with hg | ⟨b, hb⟩
      · rw [hg] at this ⊢
        exact ⟨this.1.trans (Nat.le_succ _), this.2⟩
      · rw [hb] at this ⊢
        exact this
  · intro _
    rw [hrounds]
    exact hlistings.symm.trans (Nat.add_assoc ..)
  · refine .inr ⟨lb, hlb, ?_⟩
    rw [hrounds, hcallers]
    exact (show _ = _ from hparty.visited).ge

theorem leave {next : Except Denial Unit → Program Unit}
    (h : Joint fresh f before phase pending s) (hn : f.loadBalancers.Nodup)
    (hi : f.loadBalancers[i]? = some lb) (ht : s.tasks[i]? = some t)
    (hp : t.program = ask (.leave lb) next) (hphase : phase lb = .away)
    (hq : (f.calm fresh before lb).allows (.leave lb) (s.seen before pending i .away t))
    (hmeets : (next (.ok ())).Meets (f.calm fresh before lb) Finished
      { s.seen before pending i .away t with left := true }) :
    ∃ phase', Joint fresh f before phase' pending (s.step (Memory.provider fresh) i) ∧
      Keeps f i phase phase' := by
  have hlb := List.mem_of_getElem? hi
  have hparty := h.party i lb t hi ht
  rw [hphase] at hparty
  obtain ⟨hrest, -, -, hserves, hbound⟩ := hq
  have hrest : s.inside ≠ some i := of_decide_eq_false hrest.outside
  obtain ⟨hl, hfree⟩ := h.not_leading hi (by rw [hphase]; rfl)
  have hlistings := h.listings hl
  obtain ⟨hok, hpasses⟩ := h.orderly.leave hlb hphase
  obtain ⟨m', hm'⟩ : ∃ m', (s.meeting.leave lb).2 = m' := ⟨_, rfl⟩
  rw [hm'] at hpasses
  have hrounds : m'.rounds = s.meeting.rounds := hpasses.rounds
  have hcallers : m'.callers = s.meeting.callers := hpasses.callers.trans (List.append_nil _)
  have hreply : Schedule.handler (Memory.provider fresh) i (.leave lb) s =
      (some (.ok ()), { s with meeting := m' }) := by
    rw [← hok, ← hm']
    rfl
  refine ⟨Function.update (fun lb => (phase lb).wake) lb .gone, ?_, .update hi fun _ _ => rfl⟩
  rw [Schedule.tasks_step_of_some ht hp hreply (Schedule.set_eq_self ht).symm]
  refine h.next hn hi rfl rfl hpasses.toOrderly ?_ ?_ h.nothing (.inl rfl) ?_ (h.most_of_passes hpasses)
  · rw [Function.update_self]
    refine ⟨hparty.notCanceled, hparty.arrival, hparty.sound.of_eq rfl rfl rfl, .gone hmeets hserves,
      fun _ => hrest, ?_⟩
    have hvisited : s.meeting.callers.count lb = s.meeting.rounds := hparty.visited
    have hbound : s.provider.journal.listings ≤ before + 7 := hbound
    rw [hrounds, hcallers]
    exact ⟨hvisited.le, by omega⟩
  · intro j lb' t' hji hne hlb' hj
    rw [Function.update_of_ne hne]
    have hseen : Schedule.seen { s with
        meeting := m'
        tasks := s.tasks.set i { t with program := next (.ok ()) } } before pending j
        (phase lb').wake t' = s.seen before pending j (phase lb') t' := by
      cases phase lb' with
      | waiting b woken => rfl
      | _ => exact seen_congr rfl rfl hrounds
    refine ⟨hj.notCanceled, ?_, hseen ▸ hj.sound, ?_, fun hp => hj.outside fun hp' => hp ?_, ?_⟩
    · rw [hj.arrival]
      cases phase lb' <;> rfl
    · rw [hseen, hrounds]
      exact hj.standing.wake
    · rw [hp']
      rfl
    · rw [hrounds, hcallers]
      have := hj.visited
      cases hpj : phase lb' <;> rw [hpj] at this <;> exact this
  · intro _
    rw [hrounds]
    exact hlistings

end Joint

end BalancerSync
