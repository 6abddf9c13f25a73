import BalancerSync.Proofs.Retrieval.Events
import BalancerSync.Proofs.Success

namespace BalancerSync.Retrieval

open Program Rendezvous Engine Filter

variable {σ : Type} {own : Provider σ} {tag : Tag} {g g' : Retrieval σ} {i j a n : Nat}
  {lb : Identifier} {t : Task Snapshot} {r : Round Identifier Shared}

theorem Known.exists_standing (h : Known tag g) (ht : g.schedule.tasks[i]? = some t) :
    ∃ lb, g.callers[i]? = some lb ∧ Standing tag g i lb t.program t.arrival :=
  have hi := List.getElem?_eq_getElem (h.length ▸ (List.getElem?_eq_some_iff.1 ht).1)
  ⟨_, hi, h.standing i _ t hi ht⟩

theorem Known.leads_of_exchange (h : Known tag g) {x : Exchange}
    (hx : g.schedule.exchange? own (.step i) = some x) :
    ∃ (a : Nat) (lb : Identifier) (c : Bool) (round : List Nat), g.comers[a]? = some i ∧
      g.schedule.meeting.arrivals[a]? = some ⟨lb, c, .leading round⟩ := by
  rw [Schedule.exchange?, Schedule.program?] at hx
  cases ht : g.schedule.tasks[i]? with
  | none =>
    rw [ht] at hx
    cases hx
  | some t =>
    rw [ht, Option.map_some] at hx
    obtain ⟨lb, -, hstanding⟩ := h.exists_standing ht
    generalize t.program = program at hx hstanding
    generalize t.arrival = arrival at hstanding
    cases hstanding with
    | fresh | waits => cases hx
    | leads hcome hlead => exact ⟨_, _, _, _, hcome, hlead⟩
    | @ended _ outcome =>
      generalize Source.part lb outcome = out at hx
      cases out <;> cases hx

/-- A task that has ended got its part of the outcome of its round. -/
theorem Known.ended (h : Known tag g) {out : Except Failure Snapshot} (hj : g.result? j = some out) :
    ∃ lb outcome, g.callers[j]? = some lb ∧ out = Source.part lb outcome ∧
      (j ∉ g.hampered → ∃ r ∈ g.rounds, r.outcome = some outcome ∧ j ∈ g.parties r) := by
  obtain ⟨t, ht, hresult⟩ := Option.bind_eq_some_iff.1 hj
  obtain ⟨lb, hlb, hstanding⟩ := h.exists_standing ht
  rw [Task.result?] at hresult
  generalize t.program = program at hresult hstanding
  generalize t.arrival = arrival at hstanding
  cases hstanding with
  | fresh | waits => cases hresult
  | leads =>
    rw [Source.result?_leading] at hresult
    cases hresult
  | ended _ _ hround =>
    rw [Program.result?_ofExcept] at hresult
    exact ⟨lb, _, hlb, (Option.some.inj hresult).symm, hround⟩

theorem Known.eq_of_party (h : Known tag g) {r' : Round Identifier Shared} (hr : r ∈ g.rounds)
    (hj : j ∈ g.parties r) (hr' : r' ∈ g.rounds) (hj' : j ∈ g.parties r') : r = r' := by
  obtain ⟨a, ha, hcome⟩ := mem_parties_iff.1 hj
  obtain ⟨b, hb, hcome'⟩ := mem_parties_iff.1 hj'
  obtain rfl := h.comer_inj hcome hcome'
  exact h.coherent.eq_of_mem hr ha hr' hb

theorem Known.exists_leader (h : Known tag g) (hr : r ∈ g.rounds) : ∃ i, g.leader? r = some i :=
  have ⟨_, hx⟩ := h.coherent.exists_arrival hr (h.coherent.sound r hr).leader
  h.exists_comer hx

theorem Known.faithful (h : Known tag g) (own : Provider σ) : Faithful own tag g where
  listed r hr := by
    obtain ⟨i, hi⟩ := h.exists_leader hr
    refine ⟨i, hi, h.listed i, fun hover hn => ?_⟩
    obtain ⟨outcome, hout⟩ := Option.isSome_iff_exists.1 hover
    obtain ⟨shared, -, hreplay⟩ := h.concluded r hr i outcome hi hout hn
    exact countP_isList_of_replay hreplay
  led := h.led
  timely i x hx := by
    refine ⟨Schedule.answer_of_exchange? hx, ?_⟩
    obtain ⟨a, lb, c, round, hcome, hlead⟩ := h.leads_of_exchange hx
    obtain ⟨r, hr, hopen, rfl, -⟩ := h.coherent.leader_of_leading (stage?_eq hlead)
    refine ⟨r, hr, by rw [Round.isOver, hopen]; rfl, hcome, fun s hs => ?_⟩
    obtain ⟨lb, filler⟩ := s
    obtain ⟨a, rfl⟩ := Option.isSome_iff_exists.1 ((h.coherent.sound r hr).full _ hs)
    obtain ⟨j, hj, hlb⟩ := h.slots r hr lb a hs
    exact ⟨a, j, rfl, hj, hlb⟩
  party j out hj hn := by
    obtain ⟨-, outcome, -, -, hround⟩ := h.ended hj
    obtain ⟨r, hr, hout, hparty⟩ := hround hn
    exact ⟨r, hr, by rw [Round.isOver, hout]; rfl, hparty⟩
  refines r hr i hi hn hover := by
    obtain ⟨outcome, hout⟩ := Option.isSome_iff_exists.1 hover
    obtain ⟨shared, rfl, hreplay⟩ := h.concluded r hr i outcome hi hout hn
    refine ⟨shared, hout, hreplay, fun j hparty hnj lb out hlb hj => ?_⟩
    obtain ⟨lb', outcome', hlb', rfl, hround⟩ := h.ended hj
    obtain ⟨r', hr', hout', hparty'⟩ := hround hnj
    obtain rfl := h.eq_of_party hr hparty hr' hparty'
    cases hlb.symm.trans hlb'
    cases hout.symm.trans hout'
    refine ⟨rfl, ?_⟩
    rw [replay_direct, hreplay]
    rfl

/-- Rounds go on, and nobody comes instead of somebody else. -/
theorem Known.grows (h : Known tag g) (own : Provider σ) (e : Event σ) :
    Persists g.rounds (g.undergo own tag e).rounds ∧ g.comers <+: (g.undergo own tag e).comers := by
  have hself : Persists g.rounds g.rounds := fun r hr => ⟨r, hr, rfl, rfl, fun _ => id⟩
  cases e with
  | move m =>
    cases m with
    | step i =>
      refine ⟨?_, ?_⟩
      · change Persists g.rounds (g.step own i).rounds
        rw [Retrieval.step]
        dsimp only
        split
        next outcome hends =>
          -- Whoever hands out an outcome leads.
          rw [Schedule.ends?, Schedule.program?] at hends
          cases ht : g.schedule.tasks[i]? with
          | none =>
            rw [ht] at hends
            cases hends
          | some t =>
            rw [ht, Option.map_some] at hends
            obtain ⟨lb, -, hstanding⟩ := h.exists_standing ht
            generalize t.program = program at hends hstanding
            generalize t.arrival = arrival at hstanding
            cases hstanding with
            | fresh | waits => cases hends
            | leads _ hx => exact h.persists_conclude (stage?_eq hx) outcome
            | @ended _ outcome' =>
              generalize Source.part lb outcome' = out at hends
              cases out <;> cases hends
        next => exact fun r hr => ⟨r, List.mem_append_right _ hr, rfl, rfl, fun _ => id⟩
      · change g.comers <+: (g.step own i).comers
        rw [Retrieval.step]
        dsimp only
        split
        · exact List.prefix_append ..
        · exact List.prefix_refl _
    | cancel i | elapse milliseconds => exact ⟨hself, List.prefix_refl _⟩
  | _ => exact ⟨hself, List.prefix_refl _⟩

theorem program?_undergo (own : Provider σ) (tag : Tag) (e : Event σ) {p : Program Snapshot}
    (hp : g.schedule.program? i = some p) : ∃ p',
      (g.undergo own tag e).schedule.program? i = some p' ∧ (p' = p ∨ p.Leads p') := by
  cases e with
  | ask lb canceled =>
    obtain ⟨t, ht, rfl⟩ := Schedule.exists_task hp
    refine ⟨t.program, Schedule.program?_eq ?_, .inl rfl⟩
    exact (List.getElem?_append_left (List.getElem?_eq_some_iff.1 ht).1).trans ht
  | move m =>
    have hmove : (g.undergo own tag (.move m)).schedule = g.schedule.move own m := by
      cases m <;> rfl
    rw [hmove]
    exact Schedule.program?_move own m hp
  | _ => exact ⟨p, hp, .inl rfl⟩

section

variable {events : Nat → Event σ} (h : Known tag g) (hf : Fair own tag g events)

include h hf

theorem known_run (n : Nat) : Known tag (run own tag g events n) := by
  induction n with
  | zero => exact h
  | succ n ih => exact ih.undergo own (hf.admits n)

theorem persists_run {m : Nat} (hnm : n ≤ m) :
    Persists (run own tag g events n).rounds (run own tag g events m).rounds ∧
      (run own tag g events n).comers <+: (run own tag g events m).comers := by
  induction m, hnm using Nat.le_induction with
  | base => exact ⟨fun r hr => ⟨r, hr, rfl, rfl, fun _ => id⟩, List.prefix_refl _⟩
  | succ m _ ih =>
    obtain ⟨hrounds, hcomers⟩ := (known_run h hf m).grows own (events m)
    refine ⟨fun r hr => ?_, ih.2.trans hcomers⟩
    obtain ⟨r', hr', hleader, hslots, hkeeps⟩ := ih.1 r hr
    obtain ⟨r'', hr'', hleader', hslots', hkeeps'⟩ := hrounds r' hr'
    exact ⟨r'', hr'', hleader'.trans hleader, hslots'.trans hslots, fun o ho => hkeeps' o (hkeeps o ho)⟩

/-- Sooner or later a task has ended, or it makes a step and gets no reply. -/
theorem exists_stuck (hi : i < (run own tag g events n).callers.length) : ∃ m, n ≤ m ∧
    ((run own tag g events m).result? i ≠ none ∨ ∃ q next,
      (run own tag g events m).schedule.program? i = some (ask q next) ∧
      (run own tag g events m).schedule.held = false ∧
      (Schedule.handler own i q (run own tag g events m).schedule).1 = none) := by
  have hprogram (k : Nat) : ∃ p, (run own tag g events (n + k)).schedule.program? i = some p := by
    induction k with
    | zero => exact ⟨_, Schedule.program?_eq
        (List.getElem?_eq_getElem ((known_run h hf n).length ▸ hi))⟩
    | succ k ih =>
      obtain ⟨p, hp⟩ := ih
      obtain ⟨p', hp', -⟩ := program?_undergo own tag (events (n + k)) hp
      exact ⟨p', hp'⟩
  choose f hprog using hprogram
  have hnext (k : Nat) : f (k + 1) = f k ∨ (f k).Leads (f (k + 1)) := by
    obtain ⟨p', hp', hleads⟩ := program?_undergo own tag (events (n + k)) (hprog k)
    obtain rfl : p' = f (k + 1) := Option.some.inj (hp'.symm.trans (hprog (k + 1)))
    exact hleads
  obtain ⟨p, hp⟩ := exists_settled hnext 0
  obtain ⟨K, hK⟩ := eventually_atTop.1 hp
  have hlt : i < (run own tag g events (n + K)).callers.length := by
    obtain ⟨t, ht, -⟩ := Schedule.exists_task (hprog K)
    exact (known_run h hf _).length ▸ (List.getElem?_eq_some_iff.1 ht).1
  obtain ⟨m, hm, hstep, hheld⟩ := hf.steps (n + K) i hlt
  obtain ⟨k, rfl⟩ := Nat.exists_eq_add_of_le (Nat.le_of_add_right_le hm)
  have hk : f k = p := hK k (by omega)
  have hk' : f (k + 1) = p := hK (k + 1) (by omega)
  refine ⟨n + k, Nat.le_add_right n k, ?_⟩
  have hpk := hprog k
  have hpk' : (run own tag g events (n + k + 1)).schedule.program? i = some (f (k + 1)) := hprog (k + 1)
  rw [hk] at hpk
  rw [hk', run, hstep] at hpk'
  cases p with
  | done a | fail failure =>
    obtain ⟨t, ht, hprogram⟩ := Schedule.exists_task hpk
    left
    rw [result?, ht, Option.bind_some, Task.result?, hprogram]
    simp [Program.result?]
  | ask q next =>
    refine .inr ⟨q, next, hpk, hheld, ?_⟩
    change ((run own tag g events (n + k)).schedule.step own i).program? i = _ at hpk'
    rw [Schedule.program?_step_self, hpk] at hpk'
    exact no_reply_of_step_eq (Option.some.inj hpk')

end

/-- A leader gets a reply to whatever it asks for. -/
theorem Known.reply_of_leads (h : Known tag g) {q : Request} {next : q.Reply → Program Snapshot}
    (hp : g.schedule.program? i = some (Program.ask q next)) (hheld : g.schedule.held = false)
    (hcome : g.comers[a]? = some i) {round : List Nat}
    (hx : g.schedule.meeting.stage? a = some (.leading round)) :
    (Schedule.handler own i q g.schedule).1 ≠ none := by
  obtain ⟨t, ht, hprogram⟩ := Schedule.exists_task hp
  obtain ⟨lb, -, hstanding⟩ := h.exists_standing ht
  rw [hprogram] at hstanding
  generalize ha : t.arrival = arrival at hstanding
  generalize hp' : Program.ask q next = program at hstanding
  cases hstanding with
  | fresh _ hnew => exact absurd (List.mem_of_getElem? hcome) hnew
  | waits _ hcome' hx' =>
    obtain rfl := h.comer_inj hcome hcome'
    cases hx.symm.trans (stage?_eq hx')
  | ended hcome' hstage =>
    obtain rfl := h.comer_inj hcome hcome'
    cases hx.symm.trans hstage
  | @leads b c round p hcome' hx' hlists =>
    obtain rfl := h.comer_inj hcome hcome'
    cases p with
    | done s | fail failure =>
      cases hp'
      rw [h.handler_release own ht ha hx]
      simp
    | ask q' next' =>
      cases hp'
      obtain ⟨hallows, -⟩ := hlists _ rfl
      cases q with
      | isCanceled => simp [Schedule.handler]
      | watch call =>
        have hholds : g.schedule.holds call = false := by
          cases call with
          | list tag' => exact hheld
          | _ => rfl
        rw [Schedule.handler, hholds]
        split <;> simp
      | _ => exact hallows.elim

/-- Whoever takes part in a round that is over gets a reply when it looks. -/
theorem Known.reply_of_over (h : Known tag g) {q : Request} {next : q.Reply → Program Snapshot}
    (hp : g.schedule.program? j = some (Program.ask q next)) (hr : r ∈ g.rounds) (hover : r.isOver = true)
    (hj : j ∈ g.parties r) : (Schedule.handler own j q g.schedule).1 ≠ none := by
  obtain ⟨a, ha, hcome⟩ := mem_parties_iff.1 hj
  obtain ⟨outcome, hout⟩ := Option.isSome_iff_exists.1 hover
  obtain ⟨t, ht, hprogram⟩ := Schedule.exists_task hp
  obtain ⟨lb, -, hstanding⟩ := h.exists_standing ht
  rw [hprogram] at hstanding
  generalize harrival : t.arrival = arrival at hstanding
  generalize hp' : Program.ask q next = program at hstanding
  cases hstanding with
  | fresh _ hnew => exact absurd (List.mem_of_getElem? hcome) hnew
  | leads hcome' hx =>
    obtain rfl := h.comer_inj hcome hcome'
    obtain ⟨q, hq, hopen, rfl, -⟩ := h.coherent.leader_of_leading (stage?_eq hx)
    obtain rfl := h.coherent.eq_of_mem hr ha hq (h.coherent.sound q hq).leader
    cases hopen.symm.trans hout
  | @ended _ outcome' =>
    generalize Source.part lb outcome' = out at hp'
    cases out <;> cases hp'
  | @waits _ c w mailbox _ hcome' hx hexpected =>
    obtain rfl := h.comer_inj hcome hcome'
    cases hp'
    have hmail : mailbox ≠ .open := by
      rintro rfl
      cases h.coherent.fate a _ hx with
      | waits hk => exact h.coherent.apart _ a hk r hr ha
      | called hq hopen hmem _ =>
        obtain rfl := h.coherent.eq_of_mem hr ha hq hmem
        cases hopen.symm.trans hout
    obtain ⟨outcome', hended⟩ := exists_ended_of_mail hx hmail
    have ht' : ({ g.schedule with meeting := g.schedule.meeting.step a } :
      Schedule σ Snapshot).tasks[j]? = some t := ht
    rw [Schedule.handler_arrive_of_some own lb ht harrival, Schedule.turn?_of_ended ht' hended]
    simp

theorem Known.result?_of_leads (h : Known tag g) (hcome : g.comers[a]? = some i) {round : List Nat}
    (hx : g.schedule.meeting.stage? a = some (.leading round)) : g.result? i = none := by
  rw [result?, Option.bind_eq_none_iff]
  intro t ht
  obtain ⟨lb, -, hstanding⟩ := h.exists_standing ht
  rw [Task.result?]
  generalize t.program = program at hstanding
  generalize t.arrival = arrival at hstanding
  cases hstanding with
  | fresh | waits => rfl
  | leads => exact Source.result?_leading
  | ended hcome' hstage =>
    obtain rfl := h.comer_inj hcome hcome'
    cases hx.symm.trans hstage

section

variable {events : Nat → Event σ} (h : Known tag g) (hf : Fair own tag g events)

include h hf

theorem exists_over (hr : r ∈ (run own tag g events n).rounds) : ∃ m, n ≤ m ∧
    ∃ r' ∈ (run own tag g events m).rounds,
      r'.leader = r.leader ∧ r'.slots = r.slots ∧ r'.isOver = true := by
  obtain ⟨i, hi⟩ := (known_run h hf n).exists_leader hr
  obtain ⟨lb, -, -, hlb, -⟩ := (known_run h hf n).comer _ i hi
  obtain ⟨m, hnm, hend⟩ := exists_stuck h hf (List.getElem?_eq_some_iff.1 hlb).1
  have hknown := known_run h hf m
  obtain ⟨hrounds, more, hcomers⟩ := persists_run h hf hnm
  obtain ⟨r', hr', hleader, hslots, -⟩ := hrounds r hr
  refine ⟨m, hnm, r', hr', hleader, hslots, ?_⟩
  by_contra hopen
  rw [Round.isOver, Bool.not_eq_true, Option.isSome_eq_false_iff, Option.isNone_iff_eq_none] at hopen
  have hlead := (hknown.coherent.sound r' hr').led hopen
  have hcome : (run own tag g events m).comers[r'.leader]? = some i := by
    rw [hleader, ← hcomers]
    exact (List.getElem?_append_left (List.getElem?_eq_some_iff.1 hi).1).trans hi
  rcases hend with hended | ⟨q, next, hp, hheld, hnone⟩
  · exact hended (hknown.result?_of_leads hcome hlead)
  · exact hknown.reply_of_leads hp hheld hcome hlead hnone

/-- Sooner or later whoever takes part in a round has got an answer. -/
theorem exists_result (hr : r ∈ (run own tag g events n).rounds)
    (hj : j ∈ (run own tag g events n).parties r) :
    ∃ m, n ≤ m ∧ (run own tag g events m).result? j ≠ none := by
  obtain ⟨m, hnm, r', hr', -, hslots, hover⟩ := exists_over h hf hr
  have hparty {k : Nat} (hmk : n ≤ k) {q : Round Identifier Shared} (hq : q.slots = r.slots) :
      j ∈ (run own tag g events k).parties q := by
    obtain ⟨-, more, hcomers⟩ := persists_run h hf hmk
    obtain ⟨a, ha, hcome⟩ := mem_parties_iff.1 hj
    refine mem_parties_iff.2 ⟨a, by rwa [Round.members, hq], ?_⟩
    rw [← hcomers]
    exact (List.getElem?_append_left (List.getElem?_eq_some_iff.1 hcome).1).trans hcome
  obtain ⟨a, -, hcome⟩ := mem_parties_iff.1 (hparty hnm hslots)
  obtain ⟨lb, -, -, hlb, -⟩ := (known_run h hf m).comer a j hcome
  obtain ⟨k, hmk, hend⟩ := exists_stuck h hf (List.getElem?_eq_some_iff.1 hlb).1
  refine ⟨k, hnm.trans hmk, ?_⟩
  rcases hend with hended | ⟨q, next, hp, -, hnone⟩
  · exact hended
  · obtain ⟨r'', hr'', -, hslots', hkeeps⟩ := (persists_run h hf hmk).1 r' hr'
    obtain ⟨outcome, hout⟩ := Option.isSome_iff_exists.1 hover
    have hover'' : r''.isOver = true := by rw [Round.isOver, hkeeps outcome hout]; rfl
    exact absurd hnone ((known_run h hf k).reply_of_over hp hr'' hover''
      (hparty (hnm.trans hmk) (hslots'.trans hslots)))

end

/-- Load balancers that share their fetches get what each of them would have got alone at the moment
of the fetch, which comes after all of them have asked and is made once for all of them. -/
theorem refines_direct (own : Provider σ) (tag : Tag) (provider : σ) (registered : List Identifier) :
    (∀ events, Regular own tag (start provider registered) events →
      Faithful own tag ((start provider registered).after own tag events)) ∧
    ∀ events : Nat → Event σ, Fair own tag (start provider registered) events →
      ∀ n, ∀ r ∈ (run own tag (start provider registered) events n).rounds,
        (∃ m, n ≤ m ∧ ∃ r' ∈ (run own tag (start provider registered) events m).rounds,
          r'.leader = r.leader ∧ r'.slots = r.slots ∧ r'.isOver = true) ∧
        ∀ j ∈ (run own tag (start provider registered) events n).parties r,
          ∃ m, n ≤ m ∧ (run own tag (start provider registered) events m).result? j ≠ none :=
  have h := known_start tag provider registered
  ⟨fun _ hregular => (h.after own hregular).faithful own,
    fun _ hf _ _ hr => ⟨exists_over h hf hr, fun _ hj => exists_result h hf hr hj⟩⟩

end BalancerSync.Retrieval

namespace BalancerSync

namespace Sample

/-- Two load balancers ask. The second one comes last and fetches for both of them. -/
def registered : List Identifier := [⟨"lb-1"⟩, ⟨"lb-2"⟩]

def asking : List (Retrieval.Event Memory) :=
  [.ask ⟨"lb-1"⟩ false, .ask ⟨"lb-2"⟩ false, .move (.step 0)] ++
    List.replicate 6 (.move (.step 1)) ++ [.move (.step 0)]

def asked : Retrieval Memory :=
  (Retrieval.start memory registered).after (Memory.provider .scattered) layout.service.tag asking

def turns : Nat → Retrieval.Event Memory
  | 0 => .ask ⟨"lb-1"⟩ false
  | 1 => .ask ⟨"lb-2"⟩ false
  | n + 2 => if n % 2 = 0 then .hold false else .move (.step (n / 2 % 2))

def taking (n : Nat) : Retrieval Memory :=
  Retrieval.run (Memory.provider .scattered) layout.service.tag (.start memory registered) turns n

end Sample

open Sample in
theorem sample_callers (n : Nat) : (taking (n + 2)).callers = [⟨"lb-1"⟩, ⟨"lb-2"⟩] := by
  induction n with
  | zero => rfl
  | succ n ih =>
    refine Eq.trans ?_ ih
    rw [taking, Retrieval.run, turns]
    split <;> rfl

theorem sample_other {p : Nat → Prop} (i : Nat)
    (h : ([⟨"lb-1"⟩] : List Identifier)[i]? = some ⟨"lb-2"⟩) : p i := by
  rcases i with _ | i
  · exact absurd h (by decide)
  · cases h

open Sample in
theorem sample_fair : Retrieval.Fair (Memory.provider .scattered) layout.service.tag
    (.start memory registered) turns where
  admits n := by
    rcases n with _ | _ | n
    · exact ⟨rfl, fun i h => by cases h⟩
    · exact ⟨rfl, sample_other⟩
    · rw [turns]
      split <;> trivial
  steps n i hi := by
    have hlt : i < 2 := by
      rcases n with _ | _ | n
      · cases hi
      · exact Nat.lt_succ_of_lt hi
      · have hcallers := sample_callers n
        rw [taking] at hcallers
        rwa [hcallers] at hi
    refine ⟨4 * n + 2 * i + 3, by omega, ?_, ?_⟩
    · rw [turns, if_neg (by omega)]
      have hturn : (4 * n + 2 * i + 1) / 2 % 2 = i := by omega
      rw [hturn]
    · rw [Retrieval.run, turns, if_pos (by omega)]
      rfl

open Sample in
theorem sample_refines_direct :
    Retrieval.Regular (Memory.provider .scattered) layout.service.tag (.start memory registered)
      asking ∧
    asked.rounds.map (·.isOver) = [true] ∧ asked.result? 1 = some (.ok .empty) ∧
    asked.Faithful (Memory.provider .scattered) layout.service.tag ∧
    Retrieval.Fair (Memory.provider .scattered) layout.service.tag (.start memory registered) turns ∧
    ∃ m, (taking m).result? 0 ≠ none := by
  have hregular : Retrieval.Regular (Memory.provider .scattered) layout.service.tag
      (.start memory registered) asking := by
    exact ⟨⟨rfl, fun i h => by cases h⟩, ⟨rfl, sample_other⟩,
      trivial, trivial, trivial, trivial, trivial, trivial, trivial, trivial, trivial⟩
  obtain ⟨hfaithful, hreturns⟩ := Retrieval.refines_direct (Memory.provider .scattered)
    layout.service.tag memory registered
  have hround : ∃ r ∈ (taking 6).rounds, 0 ∈ (taking 6).parties r := by decide +kernel
  obtain ⟨r, hr, hparty⟩ := hround
  obtain ⟨m, -, hm⟩ := (hreturns turns sample_fair 6 r hr).2 0 hparty
  exact ⟨hregular, by decide +kernel, by decide +kernel, hfaithful asking hregular, sample_fair,
    m, hm⟩

end BalancerSync
