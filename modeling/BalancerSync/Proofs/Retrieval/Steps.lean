import BalancerSync.Proofs.Retrieval.Standing

namespace BalancerSync.Retrieval

open Program Rendezvous Engine

variable {σ : Type} {own : Provider σ} {tag : Tag} {g g' : Retrieval σ} {i j a : Nat}
  {lb : Identifier} {t t' : Task Snapshot} {p : Program Snapshot}
  {m : Rendezvous Identifier Shared} {rounds : List (Round Identifier Shared)} {c : Bool}
  {r : Round Identifier Shared}

theorem isOutstanding_of_task (ht : g.schedule.tasks[i]? = some t) (ho : t.result? = none) :
    g.isOutstanding i = true := isOutstanding_iff.2 ⟨t, ht, ho⟩

/-- A task that makes a request leaves the others as they are. -/
theorem getElem?_of_set (htasks : g'.schedule.tasks = g.schedule.tasks.set i t') (hij : j ≠ i) :
    g'.schedule.tasks[j]? = g.schedule.tasks[j]? := by
  rw [htasks, List.getElem?_set_ne hij.symm]

theorem isOutstanding_of_set (htasks : g'.schedule.tasks = g.schedule.tasks.set i t')
    (ht : g.schedule.tasks[i]? = some t) (ho : t.result? = none) (hj : g'.isOutstanding j = true) :
    g.isOutstanding j = true := by
  by_cases hij : j = i
  · exact hij ▸ isOutstanding_of_task ht ho
  · rw [isOutstanding_iff] at hj ⊢
    rwa [getElem?_of_set htasks hij] at hj

theorem Known.set (h : Known tag g) (t' : Task Snapshot) (hi : g.callers[i]? = some lb)
    (ht : g.schedule.tasks[i]? = some t) (ho : t.result? = none) (hc : t'.canceled = t.canceled)
    (htasks : g'.schedule.tasks = g.schedule.tasks.set i t') (hcallers : g'.callers = g.callers)
    (hhampered : g'.hampered = g.hampered)
    (hregistered : ∀ lb, g'.schedule.meeting.isRegistered lb = g.schedule.meeting.isRegistered lb)
    (hattended : Attended g') (hrecorded : Recorded tag g') (hspared : ∀ j, j ≠ i → Spared g g' j)
    (hown : Standing tag g' i lb t'.program t'.arrival) : Known tag g' where
  toAttended := hattended
  toRecorded := hrecorded
  length := by rw [htasks, List.length_set, hcallers, h.length]
  lone j k lb hj hk hoj hok :=
    h.lone j k lb (hcallers ▸ hj) (hcallers ▸ hk) (isOutstanding_of_set htasks ht ho hoj)
      (isOutstanding_of_set htasks ht ho hok)
  registered j lb hj hoj := by
    rw [hregistered]
    exact h.registered j lb (hcallers ▸ hj) (isOutstanding_of_set htasks ht ho hoj)
  hampered j t₁ ht₁ hcanceled ho₁ := by
    rw [hhampered]
    by_cases hij : j = i
    · subst hij
      rw [htasks, List.getElem?_set_self (List.getElem?_eq_some_iff.1 ht).1] at ht₁
      cases ht₁
      exact h.hampered j t ht (hc ▸ hcanceled) ho
    · rw [getElem?_of_set htasks hij] at ht₁
      exact h.hampered j t₁ ht₁ hcanceled ho₁
  standing j lb' t₁ hj ht₁ := by
    rw [hcallers] at hj
    by_cases hij : j = i
    · subst hij
      cases hi.symm.trans hj
      rw [htasks, List.getElem?_set_self (List.getElem?_eq_some_iff.1 ht).1] at ht₁
      cases ht₁
      exact hown
    · rw [getElem?_of_set htasks hij] at ht₁
      exact (h.standing j lb' t₁ hj ht₁).spared (hspared j hij) (isOutstanding_of_task ht₁)

theorem callsOf_append (x : Option Exchange) (hcalls : g'.calls = g.calls ++ (x.map (i, ·)).toList) :
    g'.callsOf j = g.callsOf j ++ if j = i then x.toList else [] := by
  rw [callsOf, hcalls, List.filter_append, List.map_append, callsOf]
  congr 1
  cases x with
  | none => simp
  | some x => by_cases hij : j = i <;> simp [hij, Ne.symm]

theorem Known.not_concluded (h : Known tag g) (hcome : g.comers[a]? = some i) {round : List Nat}
    (hx : g.schedule.meeting.arrivals[a]? = some ⟨lb, c, .leading round⟩) (hr : r ∈ g.rounds)
    (hleader : g.leader? r = some i) : r.outcome = none := by
  obtain ⟨q, hq, ho, rfl, -⟩ := h.coherent.leader_of_leading (stage?_eq hx)
  have heq : r.leader = q.leader := h.comer_inj hleader hcome
  have hmem := (h.coherent.sound r hr).leader
  rw [heq] at hmem
  rwa [h.coherent.eq_of_mem hr hmem hq (h.coherent.sound q hq).leader]

/-- A leader goes on with its fetch, with or without a call. -/
theorem Known.fetch (h : Known tag g) (hi : g.callers[i]? = some lb)
    (ht : g.schedule.tasks[i]? = some t) (ho : t.result? = none) (ha : t.arrival = some a)
    (hcome : g.comers[a]? = some i) {round : List Nat}
    (hx : g.schedule.meeting.arrivals[a]? = some ⟨lb, c, .leading round⟩) (x : Option Exchange)
    (provider : σ) (htag : ∀ y ∈ x, y.1.isList = true → y.1 = .list tag)
    (hle : g.listings i + x.toList.countP (fun y => y.1.isList) ≤ 1)
    (hlists : p.Meets (listing tag) (fun _ _ => True)
      (g.listings i + x.toList.countP fun y => y.1.isList))
    (hreplay : i ∉ g.hampered → ∀ more,
      (Engine.fetch tag).replay (g.callsOf i ++ (x.toList ++ more)) = p.replay more) :
    Known tag { g with
      schedule := { g.schedule with
        provider, tasks := g.schedule.tasks.set i { t with program := Source.leading lb p } }
      calls := g.calls ++ (x.map (i, ·)).toList } := by
  generalize hg' : ({ g with
      schedule := { g.schedule with
        provider, tasks := g.schedule.tasks.set i { t with program := Source.leading lb p } }
      calls := g.calls ++ (x.map (i, ·)).toList } : Retrieval σ) = g'
  have hcalls (j : Nat) : g'.callsOf j = g.callsOf j ++ if j = i then x.toList else [] :=
    callsOf_append x (by rw [← hg'])
  have hother {j : Nat} (hij : j ≠ i) : g'.callsOf j = g.callsOf j := by
    rw [hcalls, if_neg hij, List.append_nil]
  have hmine : g'.callsOf i = g.callsOf i ++ x.toList := by rw [hcalls, if_pos rfl]
  have hself : g'.listings i = g.listings i + x.toList.countP fun y => y.1.isList := by
    rw [listings, hmine, List.countP_append, listings]
  subst hg'
  refine h.set { t with program := Source.leading lb p } hi ht ho rfl rfl rfl rfl
    (fun _ => rfl) ⟨h.coherent, h.next, h.once, h.comer, h.slots⟩ ⟨fun y hy => ?led, fun j => ?listed,
      fun r hr j outcome hleader hout hn => ?concluded⟩ (fun j hij => ?spared) ?own
  case led =>
    rcases List.mem_append.1 hy with hy | hy
    · exact h.led y hy
    · obtain ⟨z, hz, rfl⟩ := Option.map_eq_some_iff.1 (Option.mem_toList.1 hy)
      obtain ⟨r, hr, -, hleader, -⟩ := h.coherent.leader_of_leading (stage?_eq hx)
      exact ⟨htag z hz, r, hr, (congrArg (g.comers[·]?) hleader).trans hcome⟩
  case listed =>
    by_cases hij : j = i
    · subst hij
      exact hself ▸ hle
    · rw [listings, hother hij]
      exact h.listed j
  case concluded =>
    have hij : j ≠ i := by
      rintro rfl
      cases (h.not_concluded hcome hx hr hleader).symm.trans hout
    rw [hother hij]
    exact h.concluded r hr j outcome hleader hout hn
  case spared =>
    exact ⟨hother hij, fun _ => Iff.rfl, id, fun r hr => ⟨r, hr, rfl, rfl, fun _ => id⟩,
      fun _ _ => drifts_self _, fun _ _ _ => id⟩
  case own =>
    dsimp only
    rw [ha]
    refine .leads hcome hx (hself ▸ hlists) fun hn more => ?_
    refine (congrArg (fun calls => (Engine.fetch tag).replay (calls ++ more)) hmine).trans ?_
    rw [List.append_assoc]
    exact hreplay hn more

/-- A party arrives, and its arrival is about to try to lead. -/
theorem Known.enroll (h : Known tag g) (hi : g.callers[i]? = some lb)
    (ht : g.schedule.tasks[i]? = some t)
    (hp : t.program = ask (.arrive lb) (Source.turned tag lb)) (hcalls : g.callsOf i = [])
    (hcome : i ∉ g.comers) (hslot : g.schedule.meeting.slot? lb = some none) :
    Known tag { g with
      schedule := { g.schedule with
        meeting := g.schedule.meeting.enroll lb t.canceled
        tasks := g.schedule.tasks.set i { t with arrival := some g.schedule.meeting.next } }
      comers := g.comers ++ [i] } := by
  have ho : t.result? = none := congrArg Program.result? hp
  have hco := h.coherent.enroll hslot t.canceled
  have hold {b j : Nat} (hb : g.comers[b]? = some j) : (g.comers ++ [i])[b]? = some j :=
    (List.getElem?_append_left (List.getElem?_eq_some_iff.1 hb).1).trans hb
  have hnew : (g.comers ++ [i])[g.schedule.meeting.next]? = some i := by
    rw [← h.next, List.getElem?_concat_length]
  have hcases {b j : Nat} (hb : (g.comers ++ [i])[b]? = some j) :
      g.comers[b]? = some j ∨ (b = g.schedule.meeting.next ∧ j = i) :=
    h.next ▸ getElem?_concat_cases hb
  have hmem (j : Identifier) (b : Nat) := mem_slots_enroll (j := j) (b := b) (c := t.canceled)
    h.coherent.keys hslot
  refine h.set { t with arrival := some g.schedule.meeting.next } hi ht ho rfl rfl rfl rfl
    (fun k => (Acts.enroll _ lb _).isRegistered k)
    ⟨hco, ?next, ?once, fun b j hb => ?comer, fun r hr k b hb => ?slots⟩
    ⟨fun x hx => ?led, h.listed, fun r hr j outcome hleader hout hn => ?concluded⟩
    (fun j hij => ?spared) ?own
  case next =>
    dsimp only
    rw [List.length_append, next_enroll, h.next]
    rfl
  case once =>
    exact List.nodup_append.2 ⟨h.once, List.nodup_singleton i, fun j hj k hk => by
      rintro rfl
      exact hcome (List.mem_singleton.1 hk ▸ hj)⟩
  case comer =>
    rcases hcases hb with hb | ⟨rfl, rfl⟩
    · obtain ⟨lb', c, stage, hj, hx, hc⟩ := h.comer b j hb
      exact ⟨lb', c, stage, hj, getElem?_enroll_of_some hx, hc⟩
    · exact ⟨lb, _, _, hi, getElem?_enroll_next, fun hc => h.hampered j t ht hc ho⟩
  case slots =>
    obtain ⟨j, hj, hlb⟩ := h.slots r hr k b hb
    exact ⟨j, hold hj, hlb⟩
  case led =>
    obtain ⟨htag, r, hr, hleader⟩ := h.led x hx
    exact ⟨htag, r, hr, hold hleader⟩
  case concluded =>
    rcases hcases hleader with hleader | ⟨heq, -⟩
    · exact h.concluded r hr j outcome hleader hout hn
    · obtain ⟨x, hx⟩ := h.coherent.exists_arrival hr (h.coherent.sound r hr).leader
      exact absurd heq (ne_next_of_some hx)
  case spared =>
    refine ⟨rfl, fun b => ⟨fun hb => ?_, hold⟩, id, fun r hr => ⟨r, hr, rfl, rfl, fun _ => id⟩,
      fun b hb => ?_, fun b hb _ hexpected => ?_⟩
    · exact (hcases hb).resolve_right fun heq => hij heq.2
    · obtain ⟨lb', c, stage, -, hx, -⟩ := h.comer b j hb
      exact (Acts.enroll _ lb _).others b (ne_next_of_some hx)
    · exact hexpected.imp_left (Exists.imp fun k hk => (hmem k b).2 (.inl hk))
  case own =>
    dsimp only
    rw [hp]
    exact .waits hcalls hnew getElem?_enroll_next (.inl ⟨lb, (hmem lb _).2 (.inr ⟨rfl, rfl⟩)⟩)

theorem Known.eq_of_slot (h : Known tag g) (hi : g.callers[i]? = some lb)
    (hoi : g.isOutstanding i = true) {b : Nat} (hb : g.comers[b]? = some j)
    (hoj : g.isOutstanding j = true) (hk : (lb, some b) ∈ g.schedule.meeting.slots) : j = i := by
  obtain ⟨j', hj', hlb⟩ := h.exists_caller hk
  cases hb.symm.trans hj'
  exact h.lone j i lb hlb hi hoj hoi

section

variable (h : Attended g) (hflags : m.flags = g.schedule.meeting.flags)

include h hflags

theorem Attended.next_of_flags : g.comers.length = m.next := by
  rw [h.next, next_eq_flags, next_eq_flags, hflags]

theorem Attended.comer_of_flags (hevolves : Evolves g.schedule.meeting m) {b : Nat}
    (hb : g.comers[b]? = some j) : ∃ lb c stage, g.callers[j]? = some lb ∧
      m.arrivals[b]? = some ⟨lb, c, stage⟩ ∧ (c = true → j ∈ g.hampered) := by
  obtain ⟨lb, c, stage, hj, hx, hc⟩ := h.comer b j hb
  obtain ⟨⟨k, d, stage'⟩, hy, hbecomes⟩ := hevolves b _ hx
  obtain rfl : k = lb := hbecomes.key
  refine ⟨k, d, stage', hj, hy, fun hd => hc ?_⟩
  have heq : m.isCanceled b = g.schedule.meeting.isCanceled b := by
    rw [isCanceled_eq_flags, isCanceled_eq_flags, hflags]
  rw [isCanceled_eq hy, isCanceled_eq hx] at heq
  exact heq.symm.trans hd

end

inductive Turned (tag : Tag) (lb : Identifier) (a : Nat) :
    Stage Shared → Program Snapshot → Option Nat → Prop
  | waiting {mailbox : Mailbox Shared} {w : Bool} : Turned tag lb a (.waiting mailbox w)
      (ask (.arrive lb) (Source.turned tag lb)) (some a)
  | leading {round : List Nat} :
      Turned tag lb a (.leading round) (Source.leading lb (Engine.fetch tag)) (some a)
  | ended {outcome : Outcome Shared} :
      Turned tag lb a (.ended outcome) (ofExcept (Source.part lb outcome)) none

/-- An arrival does something, and its task with it. -/
theorem Known.attempt (h : Known tag g) (hi : g.callers[i]? = some lb)
    (ht : g.schedule.tasks[i]? = some t) (ho : t.result? = none) (hcalls : g.callsOf i = [])
    (hcome : g.comers[a]? = some i) (hexpected : Expected g.rounds g.schedule.meeting a)
    (hattempts : Attempts lb a c g.rounds g.schedule.meeting rounds m)
    (hacts : Acts a g.schedule.meeting m) {stage : Stage Shared} (hstage : m.stage? a = some stage)
    {program : Program Snapshot} {arrival : Option Nat}
    (hturned : Turned tag lb a stage program arrival) :
    Known tag { g with
      schedule := { g.schedule with
        meeting := m, tasks := g.schedule.tasks.set i { t with program, arrival } }
      rounds } := by
  have hoi : g.isOutstanding i = true := isOutstanding_of_task ht ho
  have hchanges : Changes (fun _ => False) g.rounds g.schedule.meeting rounds m :=
    hattempts.changes h.coherent
  have hco := h.coherent.changes hchanges
  obtain ⟨fresh, rfl, hfresh⟩ := hattempts.exists_fresh
  have hflags := hattempts.flags
  have hcanceled : c = true → i ∈ g.hampered := by
    obtain ⟨mailbox, w, hx⟩ := hattempts.exists_arrival
    obtain ⟨_, _, _, -, hx', hc⟩ := h.comer a i hcome
    cases hx.symm.trans hx'
    exact hc
  have hpersists : Persists g.rounds (fresh.toList ++ g.rounds) := fun r hr =>
    ⟨r, List.mem_append_right _ hr, rfl, rfl, fun _ => id⟩
  have hmem {r : Round Identifier Shared} (hr : r ∈ fresh.toList ++ g.rounds) :
      r ∈ fresh ∨ r ∈ g.rounds := (List.mem_append.1 hr).imp_left Option.mem_toList.1
  refine h.set { t with program, arrival } hi ht ho rfl rfl rfl rfl (fun k => hacts.isRegistered k)
    ⟨hco, ?next, h.once, fun b j hb => ?comer, fun r hr k b hb => ?slots⟩
    ⟨fun x hx => ?led, h.listed, fun r hr j outcome hleader hout hn => ?concluded⟩
    (fun j hij => ?spared) ?own
  case next => exact h.next_of_flags hflags
  case comer => exact h.comer_of_flags hflags hchanges.evolves hb
  case slots =>
    rcases hmem hr with hr | hr
    · rw [(hfresh r hr).2.1] at hb
      exact h.exists_caller hb
    · exact h.slots r hr k b hb
  case led =>
    obtain ⟨htag, r, hr, hleader⟩ := h.led x hx
    exact ⟨htag, r, List.mem_append_right _ hr, hleader⟩
  case concluded =>
    rcases hmem hr with hr | hr
    · obtain ⟨hleads, -, hc⟩ := hfresh r hr
      have hji : i = j := by
        rw [leader?, hleads] at hleader
        exact Option.some.inj (hcome.symm.trans hleader)
      exact absurd (hcanceled (hc outcome hout)) (hji ▸ hn)
    · exact h.concluded r hr j outcome hleader hout hn
  case spared =>
    have hne {b : Nat} (hb : g.comers[b]? = some j) : b ≠ a := by
      rintro rfl
      exact hij (Option.some.inj (hb.symm.trans hcome))
    refine ⟨rfl, fun _ => Iff.rfl, id, hpersists, fun b hb => hacts.others b (hne hb),
      fun b hb hoj hwaits => hattempts.expected hwaits (fun hk => ?_) fun hba => absurd hba (hne hb)⟩
    exact absurd (h.eq_of_slot hi hoi hb hoj hk) hij
  case own =>
    dsimp only
    rcases hattempts.own h.coherent with ⟨w, hx, hc⟩ | ⟨round, hx⟩ | ⟨outcome, hx, hround⟩ <;>
      cases hstage.symm.trans (stage?_eq hx)
    · cases hturned
      exact .waits hcalls hcome hx (hattempts.expected hexpected (fun _ => rfl) fun _ => hc)
    · cases hturned
      refine .leads hcome hx ?_ fun _ more => ?_
      · have hlistings : g.listings i = 0 := by rw [listings, hcalls, List.countP_nil]
        exact hlistings ▸ fetch_meets_listing tag
      · exact congrArg (fun calls => (Engine.fetch tag).replay (calls ++ more)) hcalls
    · cases hturned
      refine .ended hcome hstage fun hn => ?_
      have hc : c = false := Bool.eq_false_iff.2 fun hc => hn (hcanceled hc)
      obtain ⟨r, hr, hmember, hout⟩ := hround hc
      exact ⟨r, hr, hout, mem_parties_iff.2 ⟨a, hmember, hcome⟩⟩

/-- The round that is being led comes to an outcome. -/
theorem Known.persists_conclude (h : Known tag g) {round : List Nat}
    (hx : g.schedule.meeting.stage? a = some (.leading round)) (outcome : Outcome Shared) :
    Persists g.rounds (concludeLatest outcome g.rounds) := by
  obtain ⟨q, hq, hopen, -, -⟩ := h.coherent.leader_of_leading hx
  obtain ⟨rest, hrounds⟩ := h.coherent.eq_cons_of_open hq hopen
  rw [hrounds]
  intro r hr
  rcases List.mem_cons.1 hr with rfl | hr
  · refine ⟨_, List.mem_cons_self, rfl, rfl, fun outcome hout => ?_⟩
    cases hopen.symm.trans hout
  · exact ⟨r, List.mem_cons_of_mem _ hr, rfl, rfl, fun _ => id⟩

theorem Known.release (h : Known tag g) (hi : g.callers[i]? = some lb)
    (ht : g.schedule.tasks[i]? = some t) (ho : t.result? = none) (hcome : g.comers[a]? = some i)
    {round : List Nat} (hx : g.schedule.meeting.arrivals[a]? = some ⟨lb, c, .leading round⟩)
    {shared : Shared} (hshared : i ∉ g.hampered →
      (Engine.fetch tag).replay (g.callsOf i) = some shared) :
    Known tag { g with
      schedule := { g.schedule with
        meeting := g.schedule.meeting.settle a (Source.verdict shared)
        tasks := g.schedule.tasks.set i
          { t with program := ofExcept (Source.part lb (Source.verdict shared)), arrival := none } }
      rounds := concludeLatest (Source.verdict shared) g.rounds } := by
  have hchanges : Changes (fun _ => False) g.rounds g.schedule.meeting _ _ :=
    h.coherent.settle_changes hx (Source.verdict shared)
  have hacts := Acts.settle g.schedule.meeting a (Source.verdict shared)
  have hflags : (g.schedule.meeting.settle a (Source.verdict shared)).flags =
      g.schedule.meeting.flags := flags_settle
  obtain ⟨q, hq, hopen, rfl, -⟩ := h.coherent.leader_of_leading (stage?_eq hx)
  obtain ⟨rest, hrounds⟩ := h.coherent.eq_cons_of_open hq hopen
  have hmember := (h.coherent.sound q hq).leader
  have hslots := h.coherent.slots_settle (stage?_eq hx)
  have hpersists := h.persists_conclude (stage?_eq hx) (Source.verdict shared)
  have hcases {r : Round Identifier Shared}
      (hr : r ∈ concludeLatest (Source.verdict shared) g.rounds) :
      r = q.conclude (Source.verdict shared) ∨ r ∈ g.rounds := by
    rw [hrounds] at hr ⊢
    exact (List.mem_cons.1 hr).imp_right (List.mem_cons_of_mem _)
  have hlatest : q.conclude (Source.verdict shared) ∈
      concludeLatest (Source.verdict shared) g.rounds := by
    rw [hrounds]
    exact List.mem_cons_self
  refine h.set
    { t with program := ofExcept (Source.part lb (Source.verdict shared)), arrival := none }
    hi ht ho rfl rfl rfl rfl (fun k => hacts.isRegistered k)
    ⟨h.coherent.changes hchanges, ?next, h.once, fun b j hb => ?comer, fun r hr k b hb => ?slots⟩
    ⟨fun x hx => ?led, h.listed, fun r hr j outcome hleader hout hn => ?concluded⟩
    (fun j hij => ?spared) ?own
  case next => exact h.next_of_flags hflags
  case comer => exact h.comer_of_flags hflags hchanges.evolves hb
  case slots =>
    rcases hcases hr with rfl | hr
    · exact h.slots q hq k b hb
    · exact h.slots r hr k b hb
  case led =>
    obtain ⟨htag, r, hr, hleader⟩ := h.led x hx
    obtain ⟨r', hr', hleads, -⟩ := hpersists r hr
    exact ⟨htag, r', hr', (congrArg (g.comers[·]?) hleads).trans hleader⟩
  case concluded =>
    rcases hcases hr with rfl | hr
    · obtain rfl : j = i := Option.some.inj (hleader.symm.trans hcome)
      cases hout
      have hreplay := hshared hn
      exact ⟨shared, Source.verdict_eq_ok (replay_fetch hreplay).1, hreplay⟩
    · exact h.concluded r hr j outcome hleader hout hn
  case spared =>
    refine ⟨rfl, fun _ => Iff.rfl, id, hpersists, fun b hb => hacts.others b ?_,
      fun b _ _ hexpected => ?_⟩
    · rintro rfl
      exact hij (Option.some.inj (hb.symm.trans hcome))
    · rcases hexpected with ⟨k, hk⟩ | ⟨r, hr, hmem⟩
      · exact .inl ⟨k, (hslots _).symm ▸ hk⟩
      · obtain ⟨r', hr', -, hslots, -⟩ := hpersists r hr
        exact .inr ⟨r', hr', by rwa [Round.members, hslots]⟩
  case own =>
    exact .ended hcome (h.coherent.stage?_settle (stage?_eq hx) _) fun _ =>
      ⟨_, hlatest, rfl, mem_parties_iff.2 ⟨q.leader, hmember, hcome⟩⟩

/-- A step of a task that has nothing to do with the meeting. -/
theorem step_eq_of_ask {q : Request} {next : q.Reply → Program Snapshot}
    (ht : g.schedule.tasks[i]? = some t) (hp : t.program = ask q next) (harrive : ∀ lb, q ≠ .arrive lb)
    (hrelease : ∀ outcome, q ≠ .release outcome) : g.step own i = { g with
      schedule := g.schedule.step own i
      calls := g.calls ++ (((g.schedule.made i q).map fun c =>
        (⟨c, (own.answer c g.schedule.provider).1⟩ : Exchange)).map (i, ·)).toList } := by
  have harrives : g.schedule.arrives i = false := by
    obtain ⟨program, canceled, latest, wake, arrival⟩ := t
    subst hp
    rw [Schedule.arrives, ht]
    cases q <;> first | rfl | exact absurd rfl (harrive _)
  have hbegins : g.schedule.begins? i = none := by
    obtain ⟨program, canceled, latest, wake, arrival⟩ := t
    subst hp
    rw [Schedule.begins?, ht]
    cases q <;> first | rfl | exact absurd rfl (harrive _)
  have hends : g.schedule.ends? i = none := by
    rw [Schedule.ends?, Schedule.program?_eq ht, hp]
    cases q <;> first | rfl | exact absurd rfl (hrelease _)
  rw [step, harrives, hbegins, hends, Schedule.exchange?_step ht hp]
  rfl

/-- Nothing comes of a task that has ended, or that is not there. -/
theorem step_eq_self (h : ∀ t, g.schedule.tasks[i]? = some t →
    ∃ out, t.program = ofExcept out) : g.step own i = g := by
  have hself : g.schedule.step own i = g.schedule ∧ g.schedule.arrives i = false ∧
      g.schedule.begins? i = none ∧ g.schedule.ends? i = none ∧
      g.schedule.exchange? own (.step i) = none := by
    rw [Schedule.arrives, Schedule.begins?, Schedule.ends?, Schedule.exchange?, Schedule.program?]
    cases ht : g.schedule.tasks[i]? with
    | none =>
      rw [Schedule.step, ht]
      exact ⟨rfl, rfl, rfl, rfl, rfl⟩
    | some t =>
      obtain ⟨out, hp⟩ := h t ht
      cases out with
      | ok a =>
        refine ⟨Schedule.step_of_done ht hp, ?_⟩
        obtain ⟨program, canceled, latest, wake, arrival⟩ := t
        subst hp
        exact ⟨rfl, rfl, rfl, rfl⟩
      | error failure =>
        refine ⟨Schedule.step_of_fail ht hp, ?_⟩
        obtain ⟨program, canceled, latest, wake, arrival⟩ := t
        subst hp
        exact ⟨rfl, rfl, rfl, rfl⟩
  obtain ⟨hschedule, harrives, hbegins, hends, hexchange⟩ := hself
  rw [step, hschedule, harrives, hbegins, hends, hexchange]
  simp

theorem tasks_eq_set (ht : g.schedule.tasks[i]? = some t) :
    g.schedule.tasks = g.schedule.tasks.set i t := (Schedule.set_eq_self ht).symm

/-- A party that has not arrived finds its slot free. -/
theorem Known.slot_free (h : Known tag g) (hi : g.callers[i]? = some lb)
    (hoi : g.isOutstanding i = true) (hcome : i ∉ g.comers) :
    g.schedule.meeting.slot? lb = some none := by
  have hregistered := h.registered i lb hi hoi
  rw [isRegistered, List.any_eq_true] at hregistered
  obtain ⟨⟨k, filler⟩, hmem, hk⟩ := hregistered
  obtain rfl : k = lb := by simpa using hk
  cases filler with
  | none => exact (slot?_eq_some_iff h.coherent.keys).2 hmem
  | some b =>
    obtain ⟨j, hj, hlb⟩ := h.exists_caller hmem
    obtain ⟨t, ht⟩ : ∃ t, g.schedule.tasks[j]? = some t :=
      ⟨_, List.getElem?_eq_getElem (h.length ▸ (List.getElem?_eq_some_iff.1 hlb).1)⟩
    have hoj : g.isOutstanding j = true := by
      refine isOutstanding_of_task ht ?_
      have hstanding := h.standing j k t hlb ht
      rw [Task.result?]
      generalize t.program = program at hstanding
      generalize t.arrival = arrival at hstanding
      cases hstanding with
      | fresh | waits => rfl
      | leads hcome' hx =>
        obtain rfl := h.comer_inj hcome' hj
        rcases h.coherent.waits_of_slot hmem with ⟨_, _, hx'⟩ | ⟨_, hx'⟩ <;>
          cases hx.symm.trans hx'
      | ended hcome' hstage =>
        obtain rfl := h.comer_inj hcome' hj
        rcases h.coherent.waits_of_slot hmem with ⟨_, _, hx'⟩ | ⟨_, hx'⟩ <;>
          cases hstage.symm.trans (stage?_eq hx')
    exact absurd (List.mem_of_getElem? (h.lone j i k hlb hi hoj hoi ▸ hj)) hcome

/-- The task of an arrival goes on as the arrival has come to. -/
theorem step_turned {s : Schedule σ Snapshot} {stage : Stage Shared} {program : Program Snapshot}
    {arrival : Option Nat} (ht : s.tasks[i]? = some t)
    (hp : t.program = ask (.arrive lb) (Source.turned tag lb))
    (hreply : Schedule.handler own i (.arrive lb) s = Schedule.turn? i a { s with meeting := m })
    (hstage : m.stage? a = some stage) (hturned : Turned tag lb a stage program arrival) :
    s.step own i =
      { s with meeting := m, tasks := s.tasks.set i { t with program, arrival } } := by
  have ht' : ({ s with meeting := m } : Schedule σ Snapshot).tasks[i]? = some t := ht
  cases hturned with
  | waiting =>
    rw [Schedule.turn?_of_waiting ht' hstage] at hreply
    rw [Schedule.tasks_step_of_none ht hp hreply rfl, hp]
  | leading =>
    rw [Schedule.turn?_of_leading ht' hstage] at hreply
    rw [Schedule.tasks_step_of_some ht hp hreply rfl]
    rfl
  | ended =>
    rw [Schedule.turn?_of_ended ht' hstage] at hreply
    rw [Schedule.tasks_step_of_some ht hp hreply rfl]
    rfl

theorem exists_turned (tag : Tag) (hco : Coherent g.rounds g.schedule.meeting)
    (hattempts : Attempts lb a c g.rounds g.schedule.meeting rounds m) :
    ∃ stage program arrival, m.stage? a = some stage ∧ Turned tag lb a stage program arrival := by
  rcases hattempts.own hco with ⟨w, hx, -⟩ | ⟨round, hx⟩ | ⟨outcome, hx, -⟩
  · exact ⟨_, _, _, stage?_eq hx, .waiting⟩
  · exact ⟨_, _, _, stage?_eq hx, .leading⟩
  · exact ⟨_, _, _, stage?_eq hx, .ended⟩

theorem Known.step_waits (h : Known tag g) (own : Provider σ) (hi : g.callers[i]? = some lb)
    (ht : g.schedule.tasks[i]? = some t)
    (hp : t.program = ask (.arrive lb) (Source.turned tag lb)) (ha : t.arrival = some a)
    (hcalls : g.callsOf i = []) (hcome : g.comers[a]? = some i) {mailbox : Mailbox Shared} {w : Bool}
    (hx : g.schedule.meeting.arrivals[a]? = some ⟨lb, c, .waiting mailbox w⟩)
    (hexpected : Expected g.rounds g.schedule.meeting a) : Known tag (g.step own i) := by
  have ho : t.result? = none := congrArg Program.result? hp
  have hattempts := h.coherent.step_attempts hx hexpected
  obtain ⟨stage, program, arrival, hstage, hturned⟩ := exists_turned tag h.coherent hattempts
  have hstep := step_turned ht hp (Schedule.handler_arrive_of_some own lb ht ha) hstage hturned
  have hg : g.step own i = { g with
      schedule := { g.schedule with
        meeting := g.schedule.meeting.step a
        tasks := g.schedule.tasks.set i { t with program, arrival } }
      rounds := (g.schedule.meeting.begins? (.step a)).toList ++ g.rounds } := by
    obtain ⟨_, canceled, latest, wake, _⟩ := t
    subst hp ha
    rw [step, hstep, Schedule.arrives, Schedule.begins?, Schedule.ends?, Schedule.program?_eq ht, ht,
      Schedule.exchange?_step ht rfl]
    simp [Schedule.made]
  rw [hg]
  exact h.attempt hi ht ho hcalls hcome hexpected hattempts (Acts.step _ a) hstage hturned

theorem Known.step_fresh (h : Known tag g) (own : Provider σ) (hi : g.callers[i]? = some lb)
    (ht : g.schedule.tasks[i]? = some t)
    (hp : t.program = ask (.arrive lb) (Source.turned tag lb)) (ha : t.arrival = none)
    (hcalls : g.callsOf i = []) (hcome : i ∉ g.comers) : Known tag (g.step own i) := by
  have ho : t.result? = none := congrArg Program.result? hp
  have hslot := h.slot_free hi (isOutstanding_of_task ht ho) hcome
  have henrolled := h.enroll hi ht hp hcalls hcome hslot
  have hlt := (List.getElem?_eq_some_iff.1 ht).1
  have hattempts : Attempts lb g.schedule.meeting.next t.canceled g.rounds _ _
      (g.schedule.meeting.arrive lb t.canceled) := arrive_attempts hslot
  obtain ⟨stage, program, arrival, hstage, hturned⟩ :=
    exists_turned tag henrolled.coherent hattempts
  have hreply : Schedule.handler own i (.arrive lb) g.schedule =
      Schedule.turn? i g.schedule.meeting.next
        { g.schedule with meeting := g.schedule.meeting.arrive lb t.canceled } := by
    rw [Schedule.handler, Schedule.arrive, ht, Schedule.isCanceled_eq ht, Option.bind_some, ha]
  have hstep := step_turned ht hp hreply hstage hturned
  have hg : g.step own i = { g with
      schedule := { g.schedule with
        meeting := g.schedule.meeting.arrive lb t.canceled
        tasks := g.schedule.tasks.set i { t with program, arrival } }
      comers := g.comers ++ [i]
      rounds := (g.schedule.meeting.begins? (.arrive lb t.canceled)).toList ++ g.rounds } := by
    obtain ⟨_, canceled, latest, wake, _⟩ := t
    subst hp ha
    rw [step, hstep, Schedule.arrives, Schedule.begins?, Schedule.ends?, Schedule.program?_eq ht, ht,
      Schedule.exchange?_step ht rfl]
    simp [Schedule.made]
  have hacts : Acts g.schedule.meeting.next (g.schedule.meeting.enroll lb t.canceled)
      (g.schedule.meeting.arrive lb t.canceled) := by
    rw [arrive_eq hslot]
    exact Acts.tryLead _ _
  have hknown := henrolled.attempt (t := { t with arrival := some g.schedule.meeting.next }) hi
    (List.getElem?_set_self hlt) ho hcalls
    (by rw [← h.next]; exact List.getElem?_concat_length)
    (.inl ⟨lb, (mem_slots_enroll h.coherent.keys hslot).2 (.inr ⟨rfl, rfl⟩)⟩) hattempts hacts
    hstage hturned
  rw [hg]
  simpa only [List.set_set] using hknown

theorem Known.handler_release (h : Known tag g) (own : Provider σ)
    (ht : g.schedule.tasks[i]? = some t) (ha : t.arrival = some a) {round : List Nat}
    (hx : g.schedule.meeting.stage? a = some (.leading round)) (outcome : Outcome Shared) :
    Schedule.handler own i (.release outcome) g.schedule = (some outcome, { g.schedule with
      meeting := g.schedule.meeting.settle a outcome
      tasks := g.schedule.tasks.set i { t with arrival := none } }) := by
  rw [Schedule.handler, Schedule.release, ht, Option.bind_some, ha]
  dsimp only
  rw [h.coherent.stage?_settle hx]
  dsimp only
  rw [Schedule.modifyTask, Schedule.modify_eq_set ht]

/-- A task that leads and has fetched ends its round. -/
theorem Known.step_release (h : Known tag g) (own : Provider σ) (hi : g.callers[i]? = some lb)
    (ht : g.schedule.tasks[i]? = some t) {shared : Shared} (hresult : p.result? = some shared)
    (hp : t.program = Source.leading lb p) (ha : t.arrival = some a)
    (hcome : g.comers[a]? = some i) {round : List Nat}
    (hx : g.schedule.meeting.arrivals[a]? = some ⟨lb, c, .leading round⟩)
    (hreplay : i ∉ g.hampered → ∀ more,
      (Engine.fetch tag).replay (g.callsOf i ++ more) = p.replay more) : Known tag (g.step own i) := by
  rw [Source.leading_of_result hresult] at hp
  have ho : t.result? = none := congrArg Program.result? hp
  have hreply := h.handler_release own ht ha (stage?_eq hx) (Source.verdict shared)
  have hstep := Schedule.tasks_step_of_some ht hp hreply rfl
  have hg : g.step own i = { g with
      schedule := { g.schedule with
        meeting := g.schedule.meeting.settle a (Source.verdict shared)
        tasks := g.schedule.tasks.set i
          { t with program := ofExcept (Source.part lb (Source.verdict shared)), arrival := none } }
      rounds := concludeLatest (Source.verdict shared) g.rounds } := by
    obtain ⟨_, canceled, latest, wake, _⟩ := t
    subst hp ha
    rw [step, hstep, Schedule.arrives, Schedule.ends?, Schedule.program?_eq ht, ht,
      Schedule.exchange?_step ht rfl]
    simp [Schedule.made]
  rw [hg]
  refine h.release hi ht ho hcome hx fun hn => ?_
  have hnil := hreplay hn []
  rw [List.append_nil] at hnil
  rw [hnil]
  cases p with
  | done a | fail failure => cases hresult; rfl
  | ask q next => cases hresult

/-- A leader asks for something on behalf of its fetch. -/
theorem Known.step_fetch (h : Known tag g) (own : Provider σ) (hi : g.callers[i]? = some lb)
    (ht : g.schedule.tasks[i]? = some t) {q : Request} {next : q.Reply → Program Snapshot}
    (hp : t.program = Source.leading lb (ask q next)) (ha : t.arrival = some a)
    (hcome : g.comers[a]? = some i) {round : List Nat}
    (hx : g.schedule.meeting.arrivals[a]? = some ⟨lb, c, .leading round⟩)
    (hlists : (ask q next).Meets (listing tag) (fun _ _ => True) (g.listings i))
    (hreplay : i ∉ g.hampered → ∀ more,
      (Engine.fetch tag).replay (g.callsOf i ++ more) = (ask q next).replay more) :
    Known tag (g.step own i) := by
  have ho : t.result? = none := congrArg Program.result? hp
  obtain ⟨hallows, hnext⟩ := hlists _ rfl
  have hcanceled : i ∉ g.hampered → t.canceled = false := fun hn =>
    Bool.eq_false_iff.2 fun hc => hn (h.hampered i t ht hc ho)
  cases q with
  | isCanceled =>
    have hstep : g.schedule.step own i = _ :=
      Schedule.tasks_step_of_some ht hp rfl (tasks_eq_set ht)
    rw [step_eq_of_ask ht hp (fun _ => by simp) (fun _ => by simp), hstep]
    refine h.fetch hi ht ho ha hcome hx none g.schedule.provider (fun _ hy => by cases hy)
      (h.listed i) (hnext _ _ rfl) fun hn more => (hreplay hn more).trans ?_
    rw [Schedule.isCanceled_eq ht, hcanceled hn]
    rfl
  | watch call =>
    rw [step_eq_of_ask ht hp (fun _ => by simp) (fun _ => by simp), Schedule.made,
      Schedule.isCanceled_eq ht]
    cases hc : t.canceled with
    | true =>
      have hreply : Schedule.handler own i (.watch call) g.schedule = (some none, g.schedule) := by
        rw [Schedule.handler, Schedule.isCanceled_eq ht, hc, if_pos rfl]
      rw [Schedule.tasks_step_of_some ht hp hreply (tasks_eq_set ht)]
      exact h.fetch hi ht ho ha hcome hx none g.schedule.provider (fun _ hy => by cases hy)
        (h.listed i) (hnext _ _ rfl) fun hn => by cases hc.symm.trans (hcanceled hn)
    | false =>
      cases hh : g.schedule.holds call with
      | true =>
        have hreply : Schedule.handler own i (.watch call) g.schedule = (none, g.schedule) := by
          rw [Schedule.handler, Schedule.isCanceled_eq ht, hc, hh]
          rfl
        have hself : g.schedule.step own i = g.schedule := by
          rw [Schedule.tasks_step_of_none ht hp hreply (tasks_eq_set ht), ← tasks_eq_set ht]
        rw [hself]
        simpa using h
      | false =>
        have hreply : Schedule.handler own i (.watch call) g.schedule =
            (some (some (own.answer call g.schedule.provider).1),
              { g.schedule with provider := (own.answer call g.schedule.provider).2 }) := by
          rw [Schedule.handler, Schedule.isCanceled_eq ht, hc, hh]
          rfl
        rw [Schedule.tasks_step_of_some ht hp hreply (tasks_eq_set ht)]
        refine h.fetch hi ht ho ha hcome hx
          (some ⟨call, (own.answer call g.schedule.provider).1⟩) _ ?_ ?_ (hnext _ _ rfl)
          fun hn more => (hreplay hn _).trans (replay_watch ..)
        · rintro y hy hlist
          cases hy
          cases call with
          | list tag' => exact congrArg Call.list hallows.1
          | _ => cases hlist
        · cases call with
          | list tag' =>
            obtain ⟨-, hnone⟩ := hallows
            rw [hnone]
            exact Nat.le_refl _
          | _ => exact h.listed i
  | _ => exact hallows.elim

/-- All that is known is kept by a step of a task. -/
theorem Known.step (h : Known tag g) (own : Provider σ) (i : Nat) : Known tag (g.step own i) := by
  cases ht : g.schedule.tasks[i]? with
  | none =>
    rw [step_eq_self fun t ht' => by cases ht.symm.trans ht']
    exact h
  | some t =>
    have hlt : i < g.callers.length := h.length ▸ (List.getElem?_eq_some_iff.1 ht).1
    have hi : g.callers[i]? = some g.callers[i] := List.getElem?_eq_getElem hlt
    have hstanding := h.standing i _ t hi ht
    generalize hp : t.program = program at hstanding
    generalize ha : t.arrival = arrival at hstanding
    cases hstanding with
    | fresh hcalls hcome => exact h.step_fresh own hi ht hp ha hcalls hcome
    | waits hcalls hcome hx hexpected => exact h.step_waits own hi ht hp ha hcalls hcome hx hexpected
    | @leads a c round p hcome hx hlists hreplay =>
      cases p with
      | done a | fail failure => exact h.step_release own hi ht rfl hp ha hcome hx hreplay
      | ask q next => exact h.step_fetch own hi ht hp ha hcome hx hlists hreplay
    | ended =>
      rw [step_eq_self fun t' ht' => by
        cases ht.symm.trans ht'
        exact ⟨_, hp⟩]
      exact h

end BalancerSync.Retrieval
