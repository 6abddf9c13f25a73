import BalancerSync.Proofs.Crowd.Steps
import BalancerSync.Proofs.Ownership
import BalancerSync.Proofs.Standstill
import BalancerSync.Proofs.Success

namespace BalancerSync

open Program World

variable {fresh : Nat → Identifier} {ls : Crowd} {l : Layout} {s : Schedule Memory Unit}
  {t : Task Unit} {pending : Option Identifier} {i k : Nat} {w : World} {m : Memory}

namespace Crowd

/-- Services and settings with which a crowd may set out. -/
structure Valid (ls : Crowd) : Prop where
  distinct : ls.Distinct
  addresses : ∀ l ∈ ls, l.service.externalAddresses.Nodup
  endpoints : ∀ l ∈ ls, l.service.endpoints.Nodup
  settings : ∀ l ∈ ls, l.settings.validate = .ok ()
  cycles : ∀ l ∈ ls, 7 ≤ l.settings.maxCycles

/-- Every reconciliation has a task of its own that has not made any request. It may remember what an
earlier one has seen. -/
structure SetsOut (ls : Crowd) (s : Schedule Memory Unit) : Prop where
  answering : s.held = false
  nobody : s.inside = none
  tasks : List.Forall₂ (fun l t => t.program = (Reconciliation.direct l).reconcile ∧
    t.canceled = false) ls s.tasks

/-- A task for each reconciliation, in the beginning. -/
def schedule (ls : Crowd) (m : Memory) : Schedule Memory Unit :=
  { (Schedule.initial m .empty : Schedule Memory Unit) with
    tasks := ls.map fun l => .start (Reconciliation.direct l).reconcile false }

theorem setsOut_schedule : ls.SetsOut (ls.schedule m) :=
  ⟨rfl, rfl, List.forall₂_map_right_iff.2 (List.forall₂_same.2 fun _ _ => ⟨rfl, rfl⟩)⟩

end Crowd

/-- A provider that may be found when a crowd sets out. -/
structure Memory.Hosts (fresh : Nat → Identifier) (ls : Crowd) (m : Memory) : Prop where
  closed : ∀ l ∈ ls, m.inventory.Closed l.service.tag none
  harmless : ∀ l ∈ ls, m.faults.Harmless l.settings.backoff.steps
  fresh : m.Fresh fresh
  registered : ∀ l ∈ ls, l.loadBalancer ∈ m.inventory.loadBalancers.keys
  apart : m.inventory.Apart ls.tags

namespace Crowd

theorem Joint.start (hls : ls.Valid) (hs : ls.SetsOut s) (hm : s.provider.Hosts fresh ls) :
    Joint fresh ls none s where
  notHeld := hs.answering
  length := hs.tasks.length_eq.symm
  member i l t hi ht := by
    have hl := List.mem_of_getElem? hi
    obtain ⟨hp, hc⟩ : t.program = (Reconciliation.direct l).reconcile ∧ t.canceled = false := by
      obtain ⟨hilt, rfl⟩ := List.getElem?_eq_some_iff.1 hi
      obtain ⟨htlt, rfl⟩ := List.getElem?_eq_some_iff.1 ht
      exact hs.tasks.get hilt htlt
    have hw : Resting fresh l (ls.seen s none i l t) := by
      refine ⟨⟨?_, hm.registered l hl, fun _ id r hid => ?_⟩, ?_, rfl, rfl⟩
      · rw [seen, loose_nothing]
        exact ⟨hm.closed l hl, hm.harmless l hl, hm.fresh, fun _ hid => by cases hid⟩
      · cases loose_nothing.symm.trans hid
      · exact decide_eq_false fun h => by cases hs.nobody.symm.trans h
    refine ⟨hc, hw.sound, ?_⟩
    rw [hp]
    exact Reconciliation.direct_reconcile_meets_busy (hls.settings l hl) (hls.cycles l hl)
      (hls.addresses l hl) (hls.endpoints l hl) hw
  inside i h := by cases hs.nobody.symm.trans h
  nothing _ := rfl
  untagged _ h := by cases h
  apart := hm.apart

/-- A program that has come to an end is done, and its service is served. -/
theorem Member.of_result {r : Except Failure Unit} (h : Member fresh l w t)
    (hr : t.result? = some r) : Reconciliation.Succeeded fresh l r w := by
  have hmeets := h.meets
  rw [Task.result?] at hr
  cases hp : t.program with
  | ask q next =>
    rw [hp] at hr
    cases hr
  | _ =>
    rw [hp] at hr hmeets
    cases hr
    exact hmeets

/-- In the section for one program at a time every request is prompt. -/
theorem isPrompt_of_inside {q : Request} (h : (busy fresh l).allows q w) (hw : w.inside = true) :
    q.isPrompt = true := by
  cases q with
  | watch c =>
    cases c with
    | get kind id | list tag => cases hw.symm.trans h.1.outside
    | create r | destroy kind id | tag id tag => exact h.elim
  | sleep d | enter => cases hw.symm.trans h.outside
  | arrive lb | release outcome => exact h.elim
  | _ => rfl

structure Halted (fresh : Nat → Identifier) (ls : Crowd) (moves : Nat → Schedule.Move)
    (run : Nat → Schedule Memory Unit) : Prop where
  still : Schedule.Still (Memory.provider fresh) ls.length moves run
  known : ∀ k, ∃ pending, Joint fresh ls pending (run k)

namespace Halted

variable {moves : Nat → Schedule.Move} {run : Nat → Schedule Memory Unit} {q : Request}
  {next : q.Reply → Program Unit} (h : Halted fresh ls moves run)

include h

/-- Nobody waits for ever to enter the section: whoever is there gets on. -/
theorem not_enter {next : Unit → Program Unit} (hi : i < ls.length)
    (hp : (run 0).program? i = some (ask .enter next)) : False := by
  obtain ⟨k, -, hk⟩ := h.still.fair.steps i hi 0
  obtain ⟨pending, hjoint⟩ := h.known k
  have hnone := h.still.no_reply hi hp hk
  cases hinside : (run k).inside with
  | none =>
    rw [Schedule.handler, hinside] at hnone
    cases hnone
  | some j =>
    have hj := hjoint.inside j hinside
    obtain ⟨t, ht⟩ := hjoint.exists_task (List.getElem?_eq_getElem hj)
    have hmember := hjoint.member j _ t (List.getElem?_eq_getElem hj) ht
    cases htp : t.program with
    | ask q next' =>
      have hmeets := hmember.meets
      rw [htp] at hmeets
      obtain ⟨hq, -⟩ := hmeets _ (busy_rely_refl hmember.sound)
      have hprompt := isPrompt_of_inside hq (decide_eq_true hinside)
      have hp' : (run 0).program? j = some (ask q next') :=
        (h.still.program?_zero hj ht).trans (congrArg some htp)
      cases hprompt.symm.trans (h.still.not_isPrompt hj hp')
    | _ =>
      have hend := hmember.of_result (by rw [Task.result?, htp]; rfl)
      cases hend.2.1.outside.symm.trans (decide_eq_true hinside)

theorem not_ask (hi : i < ls.length) : (run 0).program? i ≠ some (ask q next) := by
  intro hp
  obtain ⟨k, -, hk⟩ := h.still.fair.steps i hi 0
  obtain ⟨t, ht, htp⟩ := h.still.exists_task hi hp k
  obtain ⟨pending, hjoint⟩ := h.known k
  have hi' := List.getElem?_eq_getElem hi
  have hmember := hjoint.member i _ t hi' ht
  have hmeets := hmember.meets
  rw [htp] at hmeets
  obtain ⟨hq, -⟩ := hmeets _ (busy_rely_refl hmember.sound)
  have hnone := h.still.no_reply hi hp hk
  cases q with
  | watch c =>
    rw [hjoint.handler_watch hi' ht c] at hnone
    cases hnone
  | sleep d => exact h.still.not_sleep hi hp
  | enter => exact h.not_enter hi hp
  | arrive lb | release outcome | leave lb => exact hq.elim
  | _ => cases h.still.not_isPrompt hi hp

end Halted

/-- Whoever has come to an end has succeeded, and its service is served. -/
def Settled (ls : Crowd) (s : Schedule Memory Unit) : Prop :=
  List.Forall₂ (fun l t => ∀ r, t.result? = some r → r = .ok () ∧ l.Serves s.provider.inventory)
    ls s.tasks

/-- All have succeeded, and their services are served. -/
def Served (ls : Crowd) (s : Schedule Memory Unit) : Prop :=
  List.Forall₂ (fun l t => t.result? = some (.ok ()) ∧ l.Serves s.provider.inventory) ls s.tasks

theorem Joint.settled (h : Joint fresh ls pending s) : ls.Settled s := by
  refine List.forall₂_iff_get.2 ⟨h.length.symm, fun i hi ht r hr => ?_⟩
  obtain ⟨hok, -, hserves⟩ := (h.member i _ _ (List.getElem?_eq_getElem hi)
    (List.getElem?_eq_getElem ht)).of_result hr
  exact ⟨hok, hserves⟩

/-- In whatever order the reconciliations of a crowd make their requests, whichever has come to an end
has succeeded, and its service is served from then on. If each of them goes on again and again, then
all of them are served in the end. -/
theorem succeeds_side_by_side (hls : ls.Valid) (hs : ls.SetsOut s) (hm : s.provider.Hosts fresh ls) :
    (∀ moves : List Schedule.Move, (∀ i, .cancel i ∉ moves) →
      ls.Settled (s.play (Memory.provider fresh) moves)) ∧
    ∀ moves : Nat → Schedule.Move, Schedule.Fair ls.length moves → (∀ k i, moves k ≠ .cancel i) →
      ∃ n, ∀ k, n ≤ k → ls.Served (s.after (Memory.provider fresh) moves k) := by
  have hstart : Joint fresh ls none s := .start hls hs hm
  refine ⟨fun moves hc => ?_, fun moves hfair hc => ?_⟩
  · obtain ⟨pending, h⟩ := hstart.play hls.distinct moves hc
    exact h.settled
  · have hknown (k : Nat) :
        ∃ pending, Joint fresh ls pending (s.after (Memory.provider fresh) moves k) := by
      refine hstart.play hls.distinct _ fun i hi => ?_
      obtain ⟨j, -, hj⟩ := List.mem_map.1 hi
      exact hc j i hj
    obtain ⟨n, hn⟩ := Schedule.exists_still (Memory.provider fresh) s (hstart.length ▸ hfair)
    refine ⟨n, fun k hk => ?_⟩
    have hhalted : Halted fresh ls (fun j => moves (k + j))
        (fun j => s.after (Memory.provider fresh) moves (k + j)) :=
      ⟨hstart.length ▸ hn k hk, fun j => hknown (k + j)⟩
    obtain ⟨pending, h⟩ := hknown k
    refine (List.forall₂_iff_get.2 ⟨h.length.symm, fun i hi ht => ?_⟩)
    have ht' := List.getElem?_eq_getElem ht
    obtain ⟨r, hr⟩ : ∃ r, (s.after (Memory.provider fresh) moves k).tasks[i].result? = some r := by
      cases hp : (s.after (Memory.provider fresh) moves k).tasks[i].program with
      | ask q next =>
        exact absurd ((Schedule.program?_eq ht').trans (congrArg some hp)) (hhalted.not_ask hi)
      | done a => exact ⟨.ok a, by rw [Task.result?, hp]; rfl⟩
      | fail failure => exact ⟨.error failure, by rw [Task.result?, hp]; rfl⟩
    obtain ⟨rfl, hserves⟩ := (List.forall₂_iff_get.1 h.settled).2 i hi ht r hr
    exact ⟨hr, hserves⟩

end Crowd

namespace Sample

/-- One service on two load balancers, and another one on the first of them. -/
def crowd : Crowd :=
  [layout, { layout with loadBalancer := ⟨"lb-2"⟩ },
    { layout with service := { layout.service with name := "mail", uid := "2" } }]

end Sample

theorem sample_crowd_succeeds : Sample.crowd.Valid ∧
    Sample.crowd.SetsOut (Sample.crowd.schedule Sample.memory) ∧
    Sample.memory.Hosts .scattered Sample.crowd ∧
    Schedule.Fair Sample.crowd.length (Schedule.byTurns 3) ∧
    (∀ k i, Schedule.byTurns 3 k ≠ .cancel i) ∧
    ∃ n, ∀ k, n ≤ k → Sample.crowd.Served
      ((Sample.crowd.schedule Sample.memory).after (Memory.provider .scattered)
        (Schedule.byTurns 3) k) := by
  have hls : Sample.crowd.Valid :=
    ⟨by decide +kernel, by decide +kernel, by decide +kernel, by decide +kernel, by decide +kernel⟩
  have hm : Sample.memory.Hosts .scattered Sample.crowd :=
    ⟨by decide +kernel, by decide +kernel, Memory.fresh_scattered (by decide +kernel),
      by decide +kernel, by decide +kernel⟩
  have hfair : Schedule.Fair Sample.crowd.length (Schedule.byTurns 3) := Schedule.fair_byTurns 3
  have hc (k i : Nat) : Schedule.byTurns 3 k ≠ .cancel i := by
    rw [Schedule.byTurns]
    split <;> simp
  exact ⟨hls, Crowd.setsOut_schedule, hm, hfair, hc,
    (Crowd.succeeds_side_by_side hls Crowd.setsOut_schedule hm).2 _ hfair hc⟩

end BalancerSync
