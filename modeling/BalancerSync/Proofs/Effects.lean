import BalancerSync.Run.Together

namespace BalancerSync

namespace Schedule

variable {σ α : Type}

/-- What may come of a request: the reply, if there is one, and the schedule by then. -/
inductive Effect (own : Provider σ) (i : Nat) (s : Schedule σ α) :
    (q : Request) → Option q.Reply × Schedule σ α → Prop
  | call (c : Call) : Effect own i s (.call c)
      (some (own.answer c s.provider).1, { s with provider := (own.answer c s.provider).2 })
  | unseen (c : Call) (hc : s.isCanceled i = true) : Effect own i s (.watch c) (some none, s)
  | held (c : Call) (hc : s.isCanceled i = false) (hh : s.holds c = true) :
      Effect own i s (.watch c) (none, s)
  | watch (c : Call) (hc : s.isCanceled i = false) (hh : s.holds c = false) :
      Effect own i s (.watch c) (some (some (own.answer c s.provider).1),
        { s with provider := (own.answer c s.provider).2 })
  | isCanceled : Effect own i s .isCanceled (some (s.isCanceled i), s)
  | sleep (d : Duration) (reply : Option Bool) (wake : Option Nat) :
      Effect own i s (.sleep d) (reply, s.modifyTask i fun t => { t with wake })
  | asleep (d : Duration) : Effect own i s (.sleep d) (none, s)
  | draw : Effect own i s .draw (some (s.draws.headD (1 / 2)), { s with draws := s.draws.tail })
  | latest : Effect own i s .latest (some ((s.tasks[i]?).bind (·.latest)), s)
  | remember (latest : Option Snapshot) :
      Effect own i s (.remember latest) (some (), s.modifyTask i fun t => { t with latest })
  | enter (hi : s.inside = none) : Effect own i s .enter (some (), { s with inside := some i })
  | shut {j : Nat} (hi : s.inside = some j) : Effect own i s .enter (none, s)
  | exit : Effect own i s .exit (some (), { s with inside := none })
  | arrive (lb : Identifier) {a : Nat} {meeting : Rendezvous Identifier Shared} {reply : Option Turn}
      {arrival : Option Nat}
      (hm : meeting = s.meeting.arrive lb (s.isCanceled i) ∨ meeting = s.meeting.step a)
      (ha : reply = none → arrival = some a) :
      Effect own i s (.arrive lb)
        (reply, { s with meeting }.modifyTask i fun t => { t with arrival })
  | aimless (outcome : Rendezvous.Outcome Shared) : Effect own i s (.release outcome) (none, s)
  | release (outcome : Rendezvous.Outcome Shared) (a : Nat)
      (reply : Option (Rendezvous.Outcome Shared)) :
      Effect own i s (.release outcome) (reply,
        { s with meeting := s.meeting.settle a outcome }.modifyTask i fun t =>
          { t with arrival := none })
  | leave (lb : Identifier) : Effect own i s (.leave lb)
      (some (s.meeting.leave lb).1, { s with meeting := (s.meeting.leave lb).2 })

theorem exists_turn? (i a : Nat) (s : Schedule σ α) : ∃ reply arrival,
    s.turn? i a = (reply, s.modifyTask i fun t => { t with arrival }) ∧
      (reply = none → arrival = some a) := by
  rw [turn?]
  split
  · exact ⟨_, _, rfl, nofun⟩
  · exact ⟨_, _, rfl, nofun⟩
  · exact ⟨_, _, rfl, fun _ => rfl⟩

theorem handler_effect (own : Provider σ) (i : Nat) (q : Request) (s : Schedule σ α) :
    Effect own i s q (handler own i q s) := by
  cases q with
  | call c => exact .call c
  | watch c =>
    rw [handler]
    split
    next hc => exact .unseen c hc
    next hc =>
      split
      next hh => exact .held c (Bool.eq_false_iff.2 hc) hh
      next hh => exact .watch c (Bool.eq_false_iff.2 hc) (Bool.eq_false_iff.2 hh)
  | isCanceled => exact .isCanceled
  | sleep d =>
    rw [handler, sleep]
    split
    · exact .sleep d _ _
    · dsimp only
      split
      · exact .sleep d _ _
      · split
        · exact .sleep d _ _
        · exact .asleep d
  | draw => exact .draw
  | latest => exact .latest
  | remember latest => exact .remember latest
  | enter =>
    rw [handler]
    split
    next hi => exact .enter hi
    next hi => exact .shut hi
  | exit => exact .exit
  | arrive lb =>
    rw [handler, arrive]
    split
    · obtain ⟨reply, arrival, heq, ha⟩ := exists_turn? i s.meeting.next
        { s with meeting := s.meeting.arrive lb (s.isCanceled i) }
      rw [heq]
      exact .arrive lb (.inl rfl) ha
    next a _ =>
      obtain ⟨reply, arrival, heq, ha⟩ := exists_turn? i a { s with meeting := s.meeting.step a }
      rw [heq]
      exact .arrive lb (.inr rfl) ha
  | release outcome =>
    rw [handler, release]
    split
    · exact .aimless outcome
    next a _ =>
      dsimp only
      split <;> exact .release outcome a _
  | leave lb => exact .leave lb

end Schedule

end BalancerSync
