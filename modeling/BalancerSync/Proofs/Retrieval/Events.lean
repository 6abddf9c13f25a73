import BalancerSync.Proofs.Retrieval.Steps

namespace BalancerSync

open Program Rendezvous Engine

theorem Rendezvous.flags_leave {κ β : Type} [DecidableEq κ] (m : Rendezvous κ β) (k : κ) :
    (m.leave k).2.flags = m.flags := by
  rw [leave]
  split
  · refine Eq.trans ?_ (flags_withdraw (m := m) (k := k))
    change (m.closeSlot k).wakeAll.flags = (m.closeSlot k).flags
    rw [flags, flags, wakeAll_eq, List.map_map]
    exact List.map_congr_left fun x _ => Arrival.canceled_wakened x
  · rfl

namespace Retrieval

variable {σ : Type} {own : Provider σ} {tag : Tag} {g g' : Retrieval σ} {i j a : Nat}
  {lb : Identifier} {t : Task Snapshot} {r : Round Identifier Shared} {events : List (Event σ)}

/-- The same calls and rounds have as much to do with each other when more tasks have been canceled. -/
theorem Recorded.of_same (h : Recorded tag g) (hcomers : g'.comers = g.comers)
    (hrounds : g'.rounds = g.rounds) (hcalls : g'.calls = g.calls)
    (hhampered : ∀ i ∈ g.hampered, i ∈ g'.hampered) : Recorded tag g' where
  led x hx := by
    obtain ⟨htag, r, hr, hleader⟩ := h.led x (hcalls ▸ hx)
    refine ⟨htag, r, hrounds ▸ hr, ?_⟩
    rw [leader?, hcomers]
    exact hleader
  listed i := by
    rw [listings, callsOf, hcalls]
    exact h.listed i
  concluded r hr i outcome hleader hout hn := by
    rw [callsOf, hcalls]
    rw [leader?, hcomers] at hleader
    exact h.concluded r (hrounds ▸ hr) i outcome hleader hout fun hmem => hn (hhampered i hmem)

/-- Nothing has changed but who is canceled, who is registered, and who has been woken. -/
structure Drifts (g g' : Retrieval σ) : Prop where
  comers : g'.comers = g.comers
  rounds : g'.rounds = g.rounds
  calls : g'.calls = g.calls
  callers : g'.callers = g.callers
  hampered : ∀ i ∈ g.hampered, i ∈ g'.hampered
  length : g'.schedule.tasks.length = g.schedule.tasks.length
  tasks : ∀ (i : Nat) (t : Task Snapshot), g.schedule.tasks[i]? = some t → ∃ canceled,
    g'.schedule.tasks[i]? = some { t with canceled } ∧
    (canceled = true → t.canceled = true ∨ (t.result? = none → i ∈ g'.hampered))
  coherent : Coherent g.rounds g'.schedule.meeting
  drift : Drift g.schedule.meeting g'.schedule.meeting
  canceled : ∀ a i : Nat, g.comers[a]? = some i → g'.schedule.meeting.isCanceled a = true →
    g.schedule.meeting.isCanceled a = true ∨ i ∈ g'.hampered
  registered : ∀ (i : Nat) (lb : Identifier), g.callers[i]? = some lb → g.isOutstanding i = true →
    g.schedule.meeting.isRegistered lb = true → g'.schedule.meeting.isRegistered lb = true
  slots : ∀ (j : Nat) (k : Identifier) (a : Nat), g.comers[a]? = some j → g.isOutstanding j = true →
    (k, some a) ∈ g.schedule.meeting.slots → (k, some a) ∈ g'.schedule.meeting.slots

theorem Drifts.next (h : Drifts g g') : g'.schedule.meeting.next = g.schedule.meeting.next := by
  have hiff (a : Nat) : a < g'.schedule.meeting.next ↔ a < g.schedule.meeting.next := by
    rw [lt_next_iff, lt_next_iff]
    have hrel := h.drift a
    constructor
    · rintro ⟨y, hy⟩
      rw [hy] at hrel
      cases hx : g.schedule.meeting.arrivals[a]? with
      | none =>
        rw [hx] at hrel
        cases hrel
      | some x => exact ⟨x, rfl⟩
    · rintro ⟨x, hx⟩
      obtain ⟨y, hy, -⟩ := exists_of_drifts (hx ▸ hrel)
      exact ⟨y, hy⟩
  exact Nat.le_antisymm (Nat.le_of_not_lt fun hlt => Nat.lt_irrefl _ ((hiff _).1 hlt))
    (Nat.le_of_not_lt fun hlt => Nat.lt_irrefl _ ((hiff _).2 hlt))

theorem Drifts.exists_task (h : Drifts g g') {t' : Task Snapshot}
    (ht' : g'.schedule.tasks[i]? = some t') : ∃ t canceled, g.schedule.tasks[i]? = some t ∧
      t' = { t with canceled } ∧ (canceled = true → t.canceled = true ∨
        (t.result? = none → i ∈ g'.hampered)) := by
  have hlt : i < g.schedule.tasks.length := h.length ▸ (List.getElem?_eq_some_iff.1 ht').1
  obtain ⟨canceled, ht₁, hc⟩ := h.tasks i _ (List.getElem?_eq_getElem hlt)
  exact ⟨_, canceled, List.getElem?_eq_getElem hlt, Option.some.inj (ht'.symm.trans ht₁), hc⟩

theorem Drifts.isOutstanding (h : Drifts g g') (hi : g'.isOutstanding i = true) :
    g.isOutstanding i = true := by
  obtain ⟨t', ht', ho⟩ := isOutstanding_iff.1 hi
  obtain ⟨t, canceled, ht, rfl, -⟩ := h.exists_task ht'
  exact isOutstanding_of_task ht ho

namespace Drifts

theorem attended (hd : Drifts g g') (h : Attended g) : Attended g' where
  coherent := hd.rounds ▸ hd.coherent
  next := by rw [hd.comers, hd.next, h.next]
  once := hd.comers ▸ h.once
  comer a i ha := by
    rw [hd.comers] at ha
    obtain ⟨lb, c, stage, hi, hx, hc⟩ := h.comer a i ha
    obtain ⟨⟨k, d, stage'⟩, hy, hxy⟩ := exists_of_drifts (hx ▸ hd.drift a)
    obtain rfl : k = lb := hxy.key
    refine ⟨k, d, stage', hd.callers ▸ hi, hy, fun hd' => ?_⟩
    rcases hd.canceled a i ha ((isCanceled_eq hy).trans hd') with hc' | hmem
    · exact hd.hampered i (hc ((isCanceled_eq hx).symm.trans hc'))
    · exact hmem
  slots r hr lb a hs := by
    rw [hd.comers, hd.callers]
    exact h.slots r (hd.rounds ▸ hr) lb a hs

theorem called (hd : Drifts g g') (h : Called g) : Called g' where
  length := by rw [hd.length, hd.callers, h.length]
  lone i j lb hi hj hoi hoj :=
    h.lone i j lb (hd.callers ▸ hi) (hd.callers ▸ hj) (hd.isOutstanding hoi) (hd.isOutstanding hoj)
  registered i lb hi hoi := by
    rw [hd.callers] at hi
    exact hd.registered i lb hi (hd.isOutstanding hoi) (h.registered i lb hi (hd.isOutstanding hoi))
  hampered i t' ht' hc ho := by
    obtain ⟨t, canceled, ht, rfl, hcanceled⟩ := hd.exists_task ht'
    rcases hcanceled hc with hc | hmem
    · exact hd.hampered i (h.hampered i t ht hc ho)
    · exact hmem ho

end Drifts

theorem Known.drifts (h : Known tag g) (hd : Drifts g g') : Known tag g' where
  toAttended := hd.attended h.toAttended
  toCalled := hd.called h.toCalled
  toRecorded := h.toRecorded.of_same hd.comers hd.rounds hd.calls hd.hampered
  standing i lb t' hi ht' := by
    obtain ⟨t, canceled, ht, rfl, -⟩ := hd.exists_task ht'
    refine (h.standing i lb t (hd.callers ▸ hi) ht).spared
      ⟨by rw [callsOf, hd.calls, callsOf], fun a => by rw [hd.comers], hd.hampered i,
        fun r hr => ⟨r, hd.rounds ▸ hr, rfl, rfl, fun _ => id⟩, fun a _ => hd.drift a,
        fun a ha ho hexpected => ?_⟩ (isOutstanding_of_task ht)
    rw [hd.rounds]
    exact hexpected.imp_left (Exists.imp fun k => hd.slots i k a ha ho)

/-- Something has changed that has nothing to do with the tasks. -/
theorem Known.of_same (h : Known tag g) {s : Schedule σ Snapshot}
    (htasks : s.tasks = g.schedule.tasks) (hmeeting : s.meeting = g.schedule.meeting) :
    Known tag { g with schedule := s } := by
  refine h.drifts ⟨rfl, rfl, rfl, rfl, fun _ => id, congrArg List.length htasks,
    fun i t ht => ⟨t.canceled, htasks ▸ ht, .inl⟩, hmeeting ▸ h.coherent, fun b => ?_,
    fun a i _ hc => .inl ?_, fun i lb _ _ hr => ?_, fun j k a _ _ hs => ?_⟩
  · dsimp only
    rw [hmeeting]
    exact drifts_self _
  · dsimp only at hc
    rwa [hmeeting] at hc
  · dsimp only
    rwa [hmeeting]
  · dsimp only
    rwa [hmeeting]

theorem Known.leave (h : Known tag g)
    (hl : ∀ i, g.callers[i]? = some lb → g.isOutstanding i = false) :
    Known tag { g with
      schedule := { g.schedule with meeting := (g.schedule.meeting.leave lb).2 } } := by
  have hflags := flags_leave g.schedule.meeting lb
  have hne {j : Nat} {k : Identifier} (hj : g.callers[j]? = some k) (ho : g.isOutstanding j = true) :
      k ≠ lb := by
    rintro rfl
    cases (hl j hj).symm.trans ho
  refine h.drifts ⟨rfl, rfl, rfl, rfl, fun _ => id, rfl, fun i t ht => ⟨t.canceled, ht, .inl⟩, ?_,
    .leave _ lb, fun a i _ hc => .inl ?_, fun i k hi ho hr => ?_, fun j k a ha ho hs => ?_⟩
  · dsimp only
    by_cases hk : g.schedule.meeting.isRegistered lb = true
    · exact h.coherent.leave hk
    · rw [Rendezvous.leave, if_neg hk]
      exact h.coherent
  · rwa [isCanceled_eq_flags, hflags, ← isCanceled_eq_flags] at hc
  · exact isRegistered_leave_iff.2 ⟨hr, hne hi ho⟩
  · obtain ⟨j', hj', hk⟩ := h.exists_caller hs
    obtain rfl : j' = j := Option.some.inj (hj'.symm.trans ha)
    dsimp only
    rw [Rendezvous.leave]
    split
    · refine List.mem_filter.2 ⟨?_, by simpa using hne hk ho⟩
      rwa [slots_closeSlot]
    · exact hs

theorem Known.cancel (h : Known tag g) (i : Nat) : Known tag { g with
    schedule := g.schedule.cancel i
    hampered := if g.isOutstanding i then i :: g.hampered else g.hampered } := by
  have hmem {j : Nat} (hj : j ∈ g.hampered) :
      j ∈ if g.isOutstanding i then i :: g.hampered else g.hampered := by
    split
    · exact List.mem_cons_of_mem _ hj
    · exact hj
  have hself (ho : g.isOutstanding i = true) :
      i ∈ if g.isOutstanding i then i :: g.hampered else g.hampered := by
    rw [if_pos ho]
    exact List.mem_cons_self
  have htasks (j : Nat) (t : Task Snapshot) (ht : g.schedule.tasks[j]? = some t) : ∃ canceled,
      (g.schedule.cancel i).tasks[j]? = some { t with canceled } ∧ (canceled = true →
        t.canceled = true ∨ (t.result? = none →
          j ∈ if g.isOutstanding i then i :: g.hampered else g.hampered)) := by
    rw [Schedule.tasks_cancel]
    by_cases hij : i = j
    · subst hij
      rw [List.getElem?_modify_eq, ht]
      exact ⟨true, rfl, fun _ => .inr fun ho => hself (isOutstanding_of_task ht ho)⟩
    · rw [List.getElem?_modify_ne _ _ hij]
      exact ⟨t.canceled, ht, .inl⟩
  have hlength : (g.schedule.cancel i).tasks.length = g.schedule.tasks.length := by
    rw [Schedule.tasks_cancel, List.length_modify]
  rw [Schedule.cancel] at htasks hlength ⊢
  cases ha : (g.schedule.tasks[i]?).bind (·.arrival) with
  | none =>
    rw [ha] at htasks hlength
    exact h.drifts ⟨rfl, rfl, rfl, rfl, fun _ => hmem, hlength, htasks, h.coherent,
      fun _ => drifts_self _, fun _ _ _ => .inl, fun _ _ _ _ => id, fun _ _ _ _ _ => id⟩
  | some a =>
    rw [ha] at htasks hlength
    refine h.drifts ⟨rfl, rfl, rfl, rfl, fun _ => hmem, hlength, htasks, h.coherent.cancel a,
      .cancel _ a, fun b j hb hc => ?_, fun _ _ _ _ => id, fun _ _ _ _ _ => id⟩
    obtain ⟨t, ht, harrival⟩ := Option.bind_eq_some_iff.1 ha
    obtain ⟨lb, hi⟩ : ∃ lb, g.callers[i]? = some lb :=
      ⟨_, List.getElem?_eq_getElem (h.length ▸ (List.getElem?_eq_some_iff.1 ht).1)⟩
    -- Whoever has an arrival that is not over is outstanding.
    have hcome : g.comers[a]? = some i ∧ t.result? = none := by
      have hstanding := h.standing i lb t hi ht
      rw [harrival] at hstanding
      rw [Task.result?]
      generalize t.program = program at hstanding
      cases hstanding with
      | waits _ hcome => exact ⟨hcome, rfl⟩
      | leads hcome => exact ⟨hcome, Source.result?_leading⟩
    by_cases hab : a = b
    · subst hab
      obtain rfl : i = j := Option.some.inj (hcome.1.symm.trans hb)
      exact .inr (hself (isOutstanding_of_task ht hcome.2))
    · refine .inl ?_
      rw [isCanceled] at hc ⊢
      have hsame : (g.schedule.meeting.cancel a).arrivals[b]? = g.schedule.meeting.arrivals[b]? :=
        List.getElem?_modify_ne _ _ hab
      rwa [← hsame]

structure Asks (tag : Tag) (lb : Identifier) (canceled : Bool) (g g' : Retrieval σ) : Prop where
  comers : g'.comers = g.comers
  rounds : g'.rounds = g.rounds
  calls : g'.calls = g.calls
  meeting : g'.schedule.meeting = g.schedule.meeting
  callers : g'.callers = g.callers ++ [lb]
  tasks : g'.schedule.tasks =
    g.schedule.tasks ++ [.start ((Source.shared tag).snapshot lb) canceled]
  hampered : ∀ i ∈ g.hampered, i ∈ g'.hampered
  late : canceled = true → g.callers.length ∈ g'.hampered

namespace Asks

variable {canceled : Bool} {k : Identifier} (hk : Asks tag lb canceled g g')

include hk

theorem caller (hj : g.callers[j]? = some k) : g'.callers[j]? = some k := by
  rw [hk.callers]
  exact (List.getElem?_append_left (List.getElem?_eq_some_iff.1 hj).1).trans hj

/-- Whoever asks has asked before, or it is the new task that asks. -/
theorem cases_of_caller (hj : g'.callers[j]? = some k) :
    g.callers[j]? = some k ∨ (j = g.callers.length ∧ k = lb) :=
  getElem?_concat_cases (hk.callers ▸ hj)

section

variable (h : Called g)

include h

theorem task_of_lt (hj : j < g.callers.length) :
    g'.schedule.tasks[j]? = g.schedule.tasks[j]? := by
  rw [hk.tasks]
  exact List.getElem?_append_left (h.length ▸ hj)

theorem task_new : g'.schedule.tasks[g.callers.length]? =
    some (.start ((Source.shared tag).snapshot lb) canceled) := by
  rw [hk.tasks, ← h.length]
  exact List.getElem?_concat_length

theorem isOutstanding_eq (hj : g.callers[j]? = some k) : g'.isOutstanding j = g.isOutstanding j := by
  rw [isOutstanding, isOutstanding, hk.task_of_lt h (List.getElem?_eq_some_iff.1 hj).1]

end

theorem attended (h : Attended g) : Attended g' where
  coherent := by
    rw [hk.rounds, hk.meeting]
    exact h.coherent
  next := by
    rw [hk.comers, hk.meeting]
    exact h.next
  once := hk.comers ▸ h.once
  comer a i ha := by
    obtain ⟨k, c, stage, hi, hx, hc⟩ := h.comer a i (hk.comers ▸ ha)
    exact ⟨k, c, stage, hk.caller hi, hk.meeting ▸ hx, fun hd => hk.hampered i (hc hd)⟩
  slots r hr k a hs := by
    obtain ⟨j, hj, hkj⟩ := h.slots r (hk.rounds ▸ hr) k a hs
    exact ⟨j, hk.comers ▸ hj, hk.caller hkj⟩

theorem called (h : Called g) (hr : g.schedule.meeting.isRegistered lb = true)
    (hl : ∀ i, g.callers[i]? = some lb → g.isOutstanding i = false) : Called g' where
  length := by rw [hk.tasks, hk.callers, List.length_append, List.length_append, h.length,
    List.length_singleton, List.length_singleton]
  lone i j k hi hj hoi hoj := by
    rcases hk.cases_of_caller hi with hi' | ⟨rfl, rfl⟩ <;>
      rcases hk.cases_of_caller hj with hj' | ⟨rfl, heq⟩
    · exact h.lone i j k hi' hj' (hk.isOutstanding_eq h hi' ▸ hoi) (hk.isOutstanding_eq h hj' ▸ hoj)
    · subst heq
      cases (hl i hi').symm.trans (hk.isOutstanding_eq h hi' ▸ hoi)
    · cases (hl j hj').symm.trans (hk.isOutstanding_eq h hj' ▸ hoj)
    · rfl
  registered i k hi hoi := by
    rw [hk.meeting]
    rcases hk.cases_of_caller hi with hi' | ⟨-, rfl⟩
    · exact h.registered i k hi' (hk.isOutstanding_eq h hi' ▸ hoi)
    · exact hr
  hampered i t ht hc ho := by
    rcases Nat.lt_trichotomy i g.callers.length with hlt | rfl | hgt
    · exact hk.hampered i (h.hampered i t (hk.task_of_lt h hlt ▸ ht) hc ho)
    · cases (hk.task_new h).symm.trans ht
      exact hk.late hc
    · have hlen := (List.getElem?_eq_some_iff.1 ht).1
      rw [hk.tasks, List.length_append, List.length_singleton, h.length] at hlen
      omega

theorem standing (h : Known tag g) {t : Task Snapshot} (hi : g'.callers[i]? = some k)
    (ht : g'.schedule.tasks[i]? = some t) : Standing tag g' i k t.program t.arrival := by
  rcases hk.cases_of_caller hi with hi' | ⟨rfl, rfl⟩
  · rw [hk.task_of_lt h.toCalled (List.getElem?_eq_some_iff.1 hi').1] at ht
    refine (h.standing i k t hi' ht).spared
      ⟨by rw [callsOf, hk.calls, callsOf], fun a => by rw [hk.comers], hk.hampered i,
        fun r hr => ⟨r, hk.rounds ▸ hr, rfl, rfl, fun _ => id⟩, fun a _ => ?_, fun a _ _ => ?_⟩
      (isOutstanding_of_task ht)
    · rw [hk.meeting]
      exact drifts_self _
    · rw [hk.meeting, hk.rounds]
      exact id
  · -- The new task has neither called nor arrived.
    have hcomer {a j : Nat} (ha : g.comers[a]? = some j) : j ≠ g.callers.length := by
      obtain ⟨lb, -, -, hj, -⟩ := h.comer a j ha
      exact Nat.ne_of_lt (List.getElem?_eq_some_iff.1 hj).1
    cases (hk.task_new h.toCalled).symm.trans ht
    rw [Task.start, Source.snapshot_shared]
    refine .fresh (List.map_eq_nil_iff.2 (List.filter_eq_nil_iff.2 fun x hx heq => ?_)) fun hmem => ?_
    · obtain ⟨-, r, -, hleader⟩ := h.led x (hk.calls ▸ hx)
      exact hcomer hleader (of_decide_eq_true heq)
    · obtain ⟨a, ha⟩ := List.mem_iff_getElem?.1 hmem
      exact hcomer (hk.comers ▸ ha) rfl

end Asks

theorem Known.ask (h : Known tag g) (hr : g.schedule.meeting.isRegistered lb = true)
    (hl : ∀ i, g.callers[i]? = some lb → g.isOutstanding i = false) (canceled : Bool) :
    Known tag { g with
      schedule := g.schedule.spawn ((Source.shared tag).snapshot lb) canceled
      callers := g.callers ++ [lb]
      hampered := if canceled then g.callers.length :: g.hampered else g.hampered } := by
  generalize hg' : ({ g with
      schedule := g.schedule.spawn ((Source.shared tag).snapshot lb) canceled
      callers := g.callers ++ [lb]
      hampered := if canceled then g.callers.length :: g.hampered else g.hampered } :
    Retrieval σ) = g'
  have hk : Asks tag lb canceled g g' := by
    subst hg'
    refine ⟨rfl, rfl, rfl, rfl, rfl, rfl, fun i hi => ?_, ?_⟩
    · dsimp only
      split
      · exact List.mem_cons_of_mem _ hi
      · exact hi
    · rintro rfl
      exact List.mem_cons_self
  exact {
    toAttended := hk.attended h.toAttended
    toCalled := hk.called h.toCalled hr hl
    toRecorded := h.toRecorded.of_same hk.comers hk.rounds hk.calls hk.hampered
    standing := fun _ _ _ => hk.standing h }

/-- All that is known is kept by whatever may happen. -/
theorem Known.undergo (h : Known tag g) (own : Provider σ) {e : Event σ} (he : g.Admits e) :
    Known tag (g.undergo own tag e) := by
  cases e with
  | ask lb canceled => exact h.ask he.1 he.2 canceled
  | leave lb => exact h.leave he
  | move m =>
    cases m with
    | step i => exact h.step own i
    | cancel i => exact h.cancel i
    | elapse milliseconds => exact h.of_same rfl rfl
  | hold held => exact h.of_same rfl rfl
  | change provider => exact h.of_same rfl rfl

theorem known_start (tag : Tag) (provider : σ) (registered : List Identifier) :
    Known tag (start provider registered) := by
  have hmeeting (m : Rendezvous Identifier Shared) (hco : Coherent [] m) (harrivals : m.arrivals = []) :
      Coherent [] (registered.foldl (fun m lb => (m.register lb).2) m) ∧
        (registered.foldl (fun m lb => (m.register lb).2) m).arrivals = [] := by
    induction registered generalizing m with
    | nil => exact ⟨hco, harrivals⟩
    | cons lb registered ih =>
      have hregister : Coherent [] (m.register lb).2 ∧ (m.register lb).2.arrivals = [] := by
        rw [Rendezvous.register]
        split
        · exact ⟨hco, harrivals⟩
        next hk => exact ⟨hco.register (by simpa using hk), harrivals⟩
      exact ih _ hregister.1 hregister.2
  obtain ⟨hco, harrivals⟩ := hmeeting .empty coherent_empty rfl
  exact {
    coherent := hco
    next := (congrArg List.length harrivals).symm
    once := List.nodup_nil
    comer := fun _ _ h => by cases h
    slots := fun _ h => by cases h
    length := rfl
    lone := fun _ _ _ h => by cases h
    registered := fun _ _ h => by cases h
    hampered := fun _ _ h => by cases h
    led := fun _ h => by cases h
    listed := fun _ => Nat.zero_le _
    concluded := fun _ h => by cases h
    standing := fun _ _ _ h => by cases h }

theorem Known.after (h : Known tag g) (own : Provider σ) (hregular : Regular own tag g events) :
    Known tag (g.after own tag events) := by
  induction events generalizing g with
  | nil => exact h
  | cons e events ih => exact ih (h.undergo own hregular.1) hregular.2

end Retrieval

end BalancerSync
