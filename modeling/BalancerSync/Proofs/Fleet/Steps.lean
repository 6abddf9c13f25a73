import BalancerSync.Proofs.Fleet.Joint

namespace BalancerSync

open Program World Rendezvous

variable {fresh : Nat → Identifier} {f : Fleet} {before i j : Nat} {lb : Identifier}
  {s s' : Schedule Memory Unit} {t t' : Task Unit} {phase phase' : Identifier → Phase Shared}
  {p p' : Phase Shared} {pending pending' : Option Identifier}

namespace Joint

variable {q : Request} {next : q.Reply → Program Unit}

/-- A reply that the provider and the meeting have nothing to do with. -/
theorem quiet (h : Joint fresh f before phase pending s) (hn : f.loadBalancers.Nodup)
    (hi : f.loadBalancers[i]? = some lb) (ht : s.tasks[i]? = some t) (hp : t.program = ask q next)
    (draws : List Binary64) (latest : Option Snapshot) (wake : Option Nat) (reply : q.Reply)
    (hreply : Schedule.handler (Memory.provider fresh) i q s =
      (some reply, { s with draws, tasks := s.tasks.set i { t with latest, wake } }))
    (hstanding : Standing fresh f before s.meeting.rounds lb
      { s.seen before pending i (phase lb) t with latest } (phase lb) (next reply)) :
    Joint fresh f before phase pending (s.step (Memory.provider fresh) i) := by
  rw [Schedule.tasks_step_of_some ht hp hreply rfl]
  have hparty := h.party i lb t hi ht
  refine h.next hn hi rfl rfl h.orderly ?_ (fun _ _ _ _ _ _ hj => hj.same rfl Iff.rfl rfl rfl)
    h.nothing (.inl rfl) h.listings h.most
  exact ⟨hparty.notCanceled, hparty.arrival, hparty.sound.of_eq rfl rfl rfl, hstanding,
    hparty.outside, hparty.visited⟩

theorem idle {wake : Option Nat} (h : Joint fresh f before phase pending s)
    (hn : f.loadBalancers.Nodup) (hi : f.loadBalancers[i]? = some lb) (ht : s.tasks[i]? = some t) :
    Joint fresh f before phase pending { s with tasks := s.tasks.set i { t with wake } } := by
  have hparty := h.party i lb t hi ht
  refine h.next hn hi rfl rfl h.orderly ?_ (fun _ _ _ _ _ _ hj => hj.same rfl Iff.rfl rfl rfl)
    h.nothing (.inl rfl) h.listings h.most
  exact ⟨hparty.notCanceled, hparty.arrival, hparty.sound, hparty.standing, hparty.outside,
    hparty.visited⟩

/-- While a party is at a place for parties of which nobody leads, nobody leads. -/
theorem not_leading (h : Joint fresh f before phase pending s) (hi : f.loadBalancers[i]? = some lb)
    (hf : (phase lb).isFree = true) :
    s.meeting.leading = false ∧ ∀ lb' ∈ f.loadBalancers, ∀ a, phase lb' ≠ .leading a := by
  have hl := h.orderly.not_leading (List.mem_of_getElem? hi) hf
  refine ⟨hl, fun lb' hlb' a hp => ?_⟩
  cases hl.symm.trans (h.orderly.leading_of_leading hlb' hp)

/-- A program that is not in a round calls the provider. -/
theorem call {c : Call} {next : c.Answer → Program Unit} (h : Joint fresh f before phase pending s)
    (hn : f.loadBalancers.Nodup) (hi : f.loadBalancers[i]? = some lb) (ht : s.tasks[i]? = some t)
    (hp : t.program = ask (.call c) next) (hphase : phase lb = .away)
    (hq : (f.calm fresh before lb).allows (.call c) (s.seen before pending i .away t))
    (hnext : (next ((s.seen before pending i .away t).answer fresh c).1).Meets
      (f.calm fresh before lb) Finished ((s.seen before pending i .away t).answer fresh c).2) :
    ∃ pending', Joint fresh f before phase pending' (s.step (Memory.provider fresh) i) := by
  have hparty := h.party i lb t hi ht
  rw [hphase] at hparty
  have hdoes := does_of_call (gentle_allows_of_calm hq)
  obtain ⟨hnot, hothers⟩ := h.not_leading hi (by rw [hphase]; rfl)
  have hreply : Schedule.handler (Memory.provider fresh) i (.call c) s =
      (some ((s.seen before pending i .away t).answer fresh c).1,
        { s with provider := ((s.seen before pending i .away t).answer fresh c).2.memory }) := rfl
  refine ⟨((s.seen before pending i .away t).answer fresh c).2.pending, ?_⟩
  rw [Schedule.tasks_step_of_some ht hp hreply (Schedule.set_eq_self ht).symm]
  refine h.next hn hi rfl rfl h.orderly ?_ ?_ ?_ (.inl rfl) ?_ h.most
  · rw [hphase]
    exact ⟨hparty.notCanceled, hparty.arrival, (hdoes.sound hparty.sound).of_eq rfl rfl rfl, .away hnext,
      hparty.outside, hparty.visited⟩
  · intro j lb' t' hji hne hlb' hj
    refine hj.beside (beside_of_allowed hne.symm hq rfl rfl hj.sound ?_) (hothers lb' hlb') rfl rfl
    intro hinside
    have hinside : s.inside = some i := of_decide_eq_true hinside
    refine decide_eq_false fun hinside' => hji ?_
    exact Option.some.inj (hinside'.symm.trans hinside)
  · intro hinside
    refine (hdoes.pending ?_).trans (h.nothing hinside)
    exact decide_eq_false fun h => by cases hinside.symm.trans h
  · intro hl
    exact hdoes.listings.trans (h.listings hl)

theorem handler_watch (h : Joint fresh f before phase pending s)
    (hi : f.loadBalancers[i]? = some lb) (ht : s.tasks[i]? = some t) (c : Call) :
    Schedule.handler (Memory.provider fresh) i (.watch c) s =
      (some (some ((s.seen before pending i p t).answer fresh c).1),
        { s with provider := ((s.seen before pending i p t).answer fresh c).2.memory }) := by
  have hholds : s.holds c = false := by
    cases c <;> first | exact h.notHeld | rfl
  rw [Schedule.handler, Schedule.isCanceled_eq ht, (h.party i lb t hi ht).notCanceled, hholds]
  rfl

theorem watch {c : Call} {a : Nat} {next : Option c.Answer → Program Unit}
    (h : Joint fresh f before phase pending s) (hn : f.loadBalancers.Nodup)
    (hi : f.loadBalancers[i]? = some lb) (ht : s.tasks[i]? = some t)
    (hp : t.program = ask (.watch c) next) (hphase : phase lb = .leading a)
    (hq : (f.calm fresh before lb).allows (.watch c) (s.seen before pending i (.leading a) t))
    (hnext : (next (some ((s.seen before pending i (.leading a) t).answer fresh c).1)).Meets
      (f.calm fresh before lb) Finished
        ((s.seen before pending i (.leading a) t).answer fresh c).2) :
    Joint fresh f before phase pending (s.step (Memory.provider fresh) i) := by
  have hlb := List.mem_of_getElem? hi
  have hparty := h.party i lb t hi ht
  rw [hphase] at hparty
  have hpolled := polled_of_allowed hq
  obtain ⟨round, -, -, hothers⟩ := h.orderly.leader hlb hphase
  have hmemory : ((s.seen before pending i (.leading a) t).answer fresh c).2 =
      { s.seen before pending i (.leading a) t with
        memory := ((s.seen before pending i (.leading a) t).answer fresh c).2.memory } := hpolled.1
  rw [Schedule.tasks_step_of_some ht hp (h.handler_watch hi ht c) (Schedule.set_eq_self ht).symm]
  refine h.next hn hi rfl rfl h.orderly ?_ ?_ h.nothing (.inl rfl) ?_ h.most
  · rw [hphase]
    rw [hmemory] at hnext
    exact ⟨hparty.notCanceled, hparty.arrival, (hparty.sound.polled hpolled).of_eq rfl
      (by rw [hmemory]; rfl) rfl, .leading hnext, hparty.outside, hparty.visited⟩
  · intro j lb' t' hji hne hlb' hj
    refine hj.polled ⟨rfl, hpolled.2⟩ ?_ rfl rfl
    rcases hothers lb' hlb' hne with hg | ⟨b, -, hb⟩
    · exact .inr hg
    · exact .inl ⟨b, hb⟩
  · intro hl
    cases (h.orderly.leading_of_leading hlb hphase).symm.trans hl

theorem sleep {d : Duration} {next : Bool → Program Unit} (h : Joint fresh f before phase pending s)
    (hn : f.loadBalancers.Nodup) (hi : f.loadBalancers[i]? = some lb) (ht : s.tasks[i]? = some t)
    (hp : t.program = ask (.sleep d) next) (hphase : phase lb = .away)
    (hnext : (next false).Meets (f.calm fresh before lb) Finished (s.seen before pending i .away t)) :
    Joint fresh f before phase pending (s.step (Memory.provider fresh) i) := by
  have hparty := h.party i lb t hi ht
  cases hw : t.wake with
  | none =>
    rw [Schedule.tasks_step_of_none ht hp (Schedule.handler_sleep_of_none ht hw) rfl]
    exact h.idle hn hi ht
  | some wake =>
    by_cases hclock : wake ≤ s.clock
    · exact h.quiet hn hi ht hp s.draws t.latest none false
        (Schedule.handler_sleep_of_le ht hparty.notCanceled hw hclock) (hphase ▸ .away hnext)
    · have hreply : Schedule.handler (Memory.provider fresh) i (.sleep d) s = (none, s) :=
        Schedule.handler_sleep_of_lt ht hparty.notCanceled hw (Nat.lt_of_not_le hclock)
      rw [Schedule.tasks_step_of_none ht hp hreply (Schedule.set_eq_self ht).symm]
      exact h.idle hn hi ht

/-- A program that is not in a round enters the section for one program at a time. -/
theorem enter {next : Unit → Program Unit} (h : Joint fresh f before phase pending s)
    (hn : f.loadBalancers.Nodup) (hi : f.loadBalancers[i]? = some lb) (ht : s.tasks[i]? = some t)
    (hp : t.program = ask .enter next) (hphase : phase lb = .away)
    (hnext : pending = none → (next ()).Meets (f.calm fresh before lb) Finished
      { s.seen before pending i .away t with inside := true }) :
    Joint fresh f before phase pending (s.step (Memory.provider fresh) i) := by
  have hparty := h.party i lb t hi ht
  rw [hphase] at hparty
  cases hinside : s.inside with
  | some j =>
    have hreply : Schedule.handler (Memory.provider fresh) i .enter s = (none, s) := by
      rw [Schedule.handler, hinside]
    rw [Schedule.tasks_step_of_none ht hp hreply (Schedule.set_eq_self ht).symm]
    exact h.idle hn hi ht
  | none =>
    have hpending := h.nothing hinside
    have hreply : Schedule.handler (Memory.provider fresh) i .enter s =
        (some (), { s with inside := some i }) := by
      rw [Schedule.handler, hinside]
    rw [Schedule.tasks_step_of_some ht hp hreply (Schedule.set_eq_self ht).symm]
    refine h.next hn hi rfl rfl h.orderly ?_ ?_ (fun hi => by cases hi) (.inr (.inr rfl)) h.listings h.most
    · rw [hphase]
      have hseen : ∀ t' : Task Unit, t'.latest = t.latest →
          Schedule.seen { s with inside := some i } before pending i .away t' =
            { s.seen before pending i .away t with inside := true } := by
        rintro t' hlatest
        simp [Schedule.seen, hlatest]
      refine ⟨hparty.notCanceled, hparty.arrival, ?_, .away ?_, fun h => absurd rfl h, hparty.visited⟩
      · exact ⟨hparty.sound.tidy, hparty.sound.registered, fun _ id r hid => by
          rw [show pending = some id from hid] at hpending
          cases hpending⟩
      · exact (hseen { t with program := next () } rfl).symm ▸ hnext hpending
    · intro j lb' t' hji hne hlb' hj
      have hinside' : some i = some j ↔ s.inside = some j := by
        rw [hinside]
        constructor
        · intro heq
          exact absurd (Option.some.inj heq).symm hji
        · intro heq
          cases heq
      refine hj.same ?_ hinside' rfl rfl
      simp [Schedule.seen, hinside, Ne.symm hji]

/-- A program leaves the section for one program at a time. -/
theorem exit {next : Unit → Program Unit} (h : Joint fresh f before phase pending s)
    (hn : f.loadBalancers.Nodup) (hi : f.loadBalancers[i]? = some lb) (ht : s.tasks[i]? = some t)
    (hp : t.program = ask .exit next) (hphase : phase lb = .away) (hinside : s.inside = some i)
    (hpending : pending = none)
    (hnext : (next ()).Meets (f.calm fresh before lb) Finished
      { s.seen before pending i .away t with inside := false }) :
    Joint fresh f before phase pending (s.step (Memory.provider fresh) i) := by
  have hparty := h.party i lb t hi ht
  rw [hphase] at hparty
  have hreply : Schedule.handler (Memory.provider fresh) i .exit s =
      (some (), { s with inside := none }) := rfl
  rw [Schedule.tasks_step_of_some ht hp hreply (Schedule.set_eq_self ht).symm]
  refine h.next hn hi rfl rfl h.orderly ?_ ?_ (fun _ => hpending) (.inr (.inl rfl)) h.listings h.most
  · rw [hphase]
    refine ⟨hparty.notCanceled, hparty.arrival, ?_, .away hnext, fun h => absurd rfl h, hparty.visited⟩
    exact ⟨hparty.sound.tidy, hparty.sound.registered, fun _ id r hid => by
      rw [show pending = some id from hid] at hpending
      cases hpending⟩
  · intro j lb' t' hji hne hlb' hj
    have hother : s.inside ≠ some j := by
      rw [hinside]
      exact fun heq => hji (Option.some.inj heq).symm
    refine hj.same ?_ ?_ rfl rfl
    · simp [Schedule.seen, hother]
    · exact iff_of_false nofun hother

end Joint

end BalancerSync
