import BalancerSync.CommandLine
import BalancerSync.Proofs.Exchanges
import BalancerSync.Proofs.Fleet.Convergence
import BalancerSync.Proofs.Rendezvous.Frames

namespace BalancerSync

open Program Engine Rendezvous

variable {σ α β : Type} {own : Provider σ} {s : Schedule σ Unit} {lb k : Identifier} {i j : Nat}
  {q : Request} {reply : q.Reply}

def Request.Departs (lb : Identifier) : (q : Request) → q.Reply → Prop
  | .leave lb', .ok () => lb' = lb
  | _, _ => False

namespace Program

/-- The program does not succeed unless it is told that the load balancer has left. -/
def Owes (lb : Identifier) : Program α → Prop
  | done _ => False
  | fail _ => True
  | ask q next => ∀ reply, q.Departs lb reply ∨ (next reply).Owes lb

theorem Owes.attempt (p : Program α) {f : Except Failure α → Program β} (hf : ∀ r, (f r).Owes lb) :
    (p.attempt >>= f).Owes lb := by
  induction p with
  | done a => exact hf _
  | fail failure => exact hf _
  | ask q next ih => exact fun reply => .inr (ih reply)

end Program

theorem Reconciliation.shared_reconcile_owes (l : Layout) :
    (shared l).reconcile.Owes l.loadBalancer := by
  refine .attempt _ fun outcome reply => ?_
  rcases reply with denial | _
  · right
    cases outcome <;> trivial
  · exact .inl rfl

/-- Only a party can leave, and it is none any more. -/
theorem Rendezvous.isRegistered_of_leave {m : Rendezvous Identifier Shared}
    (h : (m.leave lb).1 = .ok ()) :
    m.isRegistered lb = true ∧ (m.leave lb).2.isRegistered lb = false := by
  constructor
  · rw [Rendezvous.leave] at h
    split at h
    next hlb => exact hlb
    · cases h
  · rw [Bool.eq_false_iff]
    intro hlb
    exact (isRegistered_leave_iff.1 hlb).2 rfl

namespace Schedule

theorem isRegistered_of_handler (own : Provider σ) (i : Nat) (q : Request) (s : Schedule σ Unit)
    (h : (handler own i q s).2.meeting.isRegistered k = true) : s.meeting.isRegistered k = true := by
  have heffect := handler_effect own i q s
  generalize handler own i q s = out at h heffect
  cases heffect with
  | @arrive lb a _ _ _ hm _ =>
    obtain rfl | rfl := hm
    · exact ((Acts.arrive _ lb _).isRegistered k).symm.trans h
    · exact ((Acts.step _ a).isRegistered k).symm.trans h
  | release outcome a => exact ((Acts.settle _ a outcome).isRegistered k).symm.trans h
  | leave lb => exact (isRegistered_leave_iff.1 h).1
  | _ => exact h

theorem isRegistered_of_departs (h : (handler own i q s).1 = some reply) (hd : q.Departs lb reply) :
    s.meeting.isRegistered lb = true ∧ (handler own i q s).2.meeting.isRegistered lb = false := by
  cases q with
  | leave lb' =>
    rcases reply with denial | _
    · exact hd.elim
    · obtain rfl : lb' = lb := hd
      exact isRegistered_of_leave (Option.some.inj h)
  | _ => exact hd.elim

/-- A step of a program that has to leave: it still has to, or the load balancer has left by it. -/
theorem owes_step {p : Program Unit} (hp : p.Owes lb) :
    (p.step (handler own i) s).1.Owes lb ∨ s.meeting.isRegistered lb = true ∧
      (p.step (handler own i) s).2.meeting.isRegistered lb = false := by
  cases p with
  | done a => exact .inl hp
  | fail failure => exact .inl hp
  | ask q next =>
    rw [Program.step]
    rcases hreply : handler own i q s with ⟨_ | reply, s'⟩
    · exact .inl hp
    · rcases hp reply with hd | hp
      · have h := isRegistered_of_departs (congrArg Prod.fst hreply) hd
        rw [hreply] at h
        exact .inr h
      · exact .inl hp

theorem isRegistered_of_step {p : Program Unit}
    (h : (p.step (handler own i) s).2.meeting.isRegistered k = true) :
    s.meeting.isRegistered k = true := by
  cases p with
  | done a => exact h
  | fail failure => exact h
  | ask q next =>
    refine isRegistered_of_handler own i q s ?_
    rw [Program.step] at h
    generalize handler own i q s = out at h ⊢
    obtain ⟨_ | reply, s'⟩ := out <;> exact h

/-- Of the tasks of a load balancer at most one has left for it, and none as long as it takes part. -/
structure DepartsOnce (lbs : List Identifier) (s : Schedule σ Unit) : Prop where
  length : s.tasks.length = lbs.length
  owes : ∀ i lb p, lbs[i]? = some lb → s.program? i = some p → s.meeting.isRegistered lb = true →
    p.Owes lb
  once : ∀ i j lb p p', lbs[i]? = some lb → lbs[j]? = some lb → s.program? i = some p →
    s.program? j = some p' → ¬ p.Owes lb → ¬ p'.Owes lb → i = j

namespace DepartsOnce

variable {lbs : List Identifier}

theorem start (hl : s.tasks.length = lbs.length)
    (h : ∀ i lb p, lbs[i]? = some lb → s.program? i = some p → p.Owes lb) : s.DepartsOnce lbs where
  length := hl
  owes i lb p hi hp _ := h i lb p hi hp
  once i _ lb p _ hi _ hp _ hnot _ := absurd (h i lb p hi hp) hnot

theorem step (h : s.DepartsOnce lbs) (i : Nat) : (s.step own i).DepartsOnce lbs := by
  cases ht : s.tasks[i]? with
  | none =>
    rw [Schedule.step, ht]
    exact h
  | some t =>
    have hmeeting : (s.step own i).meeting = (t.program.step (handler own i) s).2.meeting := by
      rw [Schedule.step, ht]
      rfl
    have hself : (s.step own i).program? i = some (t.program.step (handler own i) s).1 := by
      rw [program?_step_self, program?_eq ht]
      rfl
    have hother {j : Nat} (hij : i ≠ j) : (s.step own i).program? j = s.program? j := by
      rw [program?, program?, getElem?_step_of_ne hij]
    -- Whoever has just left was the first one to do so.
    have hfirst {j : Nat} {lb : Identifier} {p : Program Unit} (hi : lbs[i]? = some lb)
        (hj : lbs[j]? = some lb) (hij : i ≠ j) (hp : s.program? j = some p) (hnot : ¬ p.Owes lb) :
        (t.program.step (handler own i) s).1.Owes lb := by
      by_contra hself
      have howes : t.program.Owes lb := by
        by_contra hnot'
        exact hij (h.once i j lb _ p hi hj (program?_eq ht) hp hnot' hnot)
      rcases owes_step howes with howes | ⟨hregistered, -⟩
      · exact hself howes
      · exact hnot (h.owes j lb p hj hp hregistered)
    refine ⟨(length_move own s (.step i)).trans h.length, fun j lb p hj hp hregistered => ?_,
      fun j k lb p p' hj hk hp hp' hnot hnot' => ?_⟩
    · rw [hmeeting] at hregistered
      by_cases hij : i = j
      · subst hij
        cases hself.symm.trans hp
        have howes := h.owes i lb _ hj (program?_eq ht) (isRegistered_of_step hregistered)
        refine (owes_step howes).resolve_right fun hleft => ?_
        exact absurd hregistered (Bool.eq_false_iff.1 hleft.2)
      · exact h.owes j lb p hj ((hother hij).symm.trans hp) (isRegistered_of_step hregistered)
    · by_cases hij : i = j <;> by_cases hik : i = k
      · exact hij.symm.trans hik
      · subst hij
        cases hself.symm.trans hp
        exact absurd (hfirst hj hk hik ((hother hik).symm.trans hp') hnot') hnot
      · subst hik
        cases hself.symm.trans hp'
        exact absurd (hfirst hk hj hij ((hother hij).symm.trans hp) hnot) hnot'
      · exact h.once j k lb p p' hj hk ((hother hij).symm.trans hp) ((hother hik).symm.trans hp')
          hnot hnot'

theorem cancel (h : s.DepartsOnce lbs) (own : Provider σ) (i : Nat) :
    (s.cancel i).DepartsOnce lbs := by
  have hmeeting (k : Identifier) : (s.cancel i).meeting.isRegistered k = s.meeting.isRegistered k := by
    rw [Schedule.cancel]
    split <;> rfl
  refine ⟨(length_move own s (.cancel i)).trans h.length, fun j lb p hj hp hregistered => ?_,
    fun j k lb p p' hj hk hp hp' => ?_⟩
  · rw [program?_cancel] at hp
    exact h.owes j lb p hj hp ((hmeeting lb).symm.trans hregistered)
  · rw [program?_cancel] at hp hp'
    exact h.once j k lb p p' hj hk hp hp'

theorem play (h : s.DepartsOnce lbs) (own : Provider σ) (moves : List Move) :
    (s.play own moves).DepartsOnce lbs := by
  induction moves generalizing s with
  | nil => exact h
  | cons m moves ih =>
    refine ih ?_
    cases m with
    | step i => exact h.step i
    | cancel i => exact h.cancel own i
    | elapse milliseconds => exact ⟨h.length, h.owes, h.once⟩

/-- At most one of the tasks of a load balancer has succeeded. -/
theorem eq_of_succeeded (h : s.DepartsOnce lbs) {t t' : Task Unit} (hi : lbs[i]? = some lb)
    (hj : lbs[j]? = some lb) (ht : s.tasks[i]? = some t) (ht' : s.tasks[j]? = some t')
    (hok : t.result? = some (.ok ())) (hok' : t'.result? = some (.ok ())) : i = j := by
  have hnot {t : Task Unit} (hok : t.result? = some (.ok ())) : ¬ t.program.Owes lb := by
    intro howes
    rw [Task.result?] at hok
    cases hp : t.program <;> rw [hp] at hok howes
    · exact howes
    · cases hok
    · cases hok
  exact h.once i j lb _ _ hi hj (program?_eq ht) (program?_eq ht') (hnot hok) (hnot hok')

theorem nodup_of_succeeded (h : s.DepartsOnce lbs) (hok : ∀ t ∈ s.tasks, t.result? = some (.ok ())) :
    lbs.Nodup := by
  refine List.nodup_iff_getElem?_ne_getElem?.2 fun i j hij hj heq => ?_
  have hlb := List.getElem?_eq_getElem hj
  have hj' : j < s.tasks.length := h.length ▸ hj
  have ht := List.getElem?_eq_getElem (hij.trans hj')
  have ht' := List.getElem?_eq_getElem hj'
  exact hij.ne (h.eq_of_succeeded (heq.trans hlb) hlb ht ht' (hok _ (List.getElem_mem _))
    (hok _ (List.getElem_mem _)))

end DepartsOnce

theorem foldl_spawn (f : Identifier → Program Unit) (lbs : List Identifier) (s : Schedule σ Unit) :
    lbs.foldl (fun s lb => s.spawn (f lb) false) s =
      { s with tasks := s.tasks ++ lbs.map fun lb => .start (f lb) false } := by
  induction lbs generalizing s with
  | nil => rw [List.foldl_nil, List.map_nil, List.append_nil]
  | cons lb lbs ih =>
    rw [List.foldl_cons, ih, spawn]
    simp only [List.map_cons, List.append_assoc, List.cons_append, List.nil_append]

end Schedule

namespace Campaign

variable {c : Campaign} {fresh : Nat → Identifier} {m : Memory}

/-- The load balancers of a campaign, each of them as often as it is given. -/
def fleet (c : Campaign) : Fleet := ⟨c.loadBalancers, c.service, c.settings⟩

/-- The campaign is for more than one load balancer, whether they differ or not. -/
structure Shares (c : Campaign) : Prop where
  registered : c.registered = c.loadBalancers
  many : 1 < c.loadBalancers.length

theorem Shares.schedule_eq (h : c.Shares) (m : Memory) : c.schedule m = c.fleet.schedule m [] := by
  have hshared : c.isShared = true := by
    rw [isShared, h.registered]
    exact decide_eq_true h.many
  have hmeeting : c.meeting = c.fleet.meeting := by
    rw [meeting, if_pos hshared, h.registered]
    rfl
  have hsource : c.source = .shared c.service.tag := by rw [source, if_pos hshared]
  rw [schedule, Schedule.foldl_spawn, hmeeting]
  simp only [reconciliation, hsource]
  rfl

theorem Shares.departsOnce (h : c.Shares) (m : Memory) :
    (c.schedule m).DepartsOnce c.loadBalancers := by
  refine .start (by rw [h.schedule_eq, Fleet.schedule]; exact List.length_map ..)
    fun i lb p hi hp => ?_
  have hprogram : (c.schedule m).program? i =
      some (Reconciliation.shared (c.fleet.layout lb)).reconcile := by
    have hi : c.fleet.loadBalancers[i]? = some lb := hi
    rw [h.schedule_eq, Fleet.schedule, Schedule.program?, List.getElem?_map, hi]
    rfl
  cases hprogram.symm.trans hp
  exact Reconciliation.shared_reconcile_owes (c.fleet.layout lb)

/-- What a history of a campaign leads to. -/
def after (c : Campaign) (fresh : Nat → Identifier) (m : Memory) (moves : List Schedule.Move) :
    Schedule Memory Unit :=
  (c.schedule m).play (Memory.provider fresh) moves

/-- If no load balancer is given twice, all of them are served once all tasks have ended. -/
theorem Shares.served (h : c.Shares) (hf : c.fleet.Valid) (hm : m.Ready fresh c.fleet)
    {moves : List Schedule.Move} (hmoves : ∀ i, .cancel i ∉ moves)
    (hend : ∀ t ∈ (c.after fresh m moves).tasks, ∃ r, t.result? = some r) :
    c.fleet.Served m.journal.listings (c.after fresh m moves) := by
  have hstart : Joint fresh c.fleet m.journal.listings (fun _ => .away) none (c.schedule m) := by
    rw [h.schedule_eq]
    exact .start hf hm
  obtain ⟨phase, pending, hjoint⟩ := hstart.play hf.distinct moves hmoves
  exact hjoint.served hend

/-- In whatever order the tasks go on, and whether they are canceled or not, no two tasks of one load
balancer succeed. So once all tasks have ended without being canceled, all of them have succeeded if
and only if no load balancer is given twice. Then every load balancer is served. -/
theorem succeeds_iff_distinct (h : c.Shares) (ha : c.service.externalAddresses.Nodup)
    (he : c.service.endpoints.Nodup) (hv : c.settings.validate = .ok ())
    (hc : 7 ≤ c.settings.maxCycles) (hm : m.Ready fresh c.fleet) :
    (∀ (moves : List Schedule.Move) (i j : Nat) (lb : Identifier) (t t' : Task Unit),
      c.loadBalancers[i]? = some lb → c.loadBalancers[j]? = some lb →
      (c.after fresh m moves).tasks[i]? = some t → (c.after fresh m moves).tasks[j]? = some t' →
      t.result? = some (.ok ()) → t'.result? = some (.ok ()) → i = j) ∧
    ∀ moves : List Schedule.Move, (∀ i, .cancel i ∉ moves) →
      (∀ t ∈ (c.after fresh m moves).tasks, ∃ r, t.result? = some r) →
      ((∀ t ∈ (c.after fresh m moves).tasks, t.result? = some (.ok ())) ↔ c.loadBalancers.Nodup) ∧
      (c.loadBalancers.Nodup → ∀ lb ∈ c.loadBalancers,
        (c.fleet.layout lb).Serves (c.after fresh m moves).provider.inventory) := by
  have honce (moves : List Schedule.Move) : (c.after fresh m moves).DepartsOnce c.loadBalancers :=
    (h.departsOnce m).play _ moves
  refine ⟨fun moves i j lb t t' hi hj ht ht' => (honce moves).eq_of_succeeded hi hj ht ht',
    fun moves hmoves hend => ?_⟩
  have hserved (hn : c.loadBalancers.Nodup) := h.served ⟨hn, ha, he, hv, hc⟩ hm hmoves hend
  refine ⟨⟨(honce moves).nodup_of_succeeded, fun hn t ht => ?_⟩, fun hn => (hserved hn).serves⟩
  have hmem := List.mem_map_of_mem (f := Task.result?) ht
  rw [(hserved hn).succeeded] at hmem
  obtain ⟨lb, -, heq⟩ := List.mem_map.1 hmem
  exact heq.symm

end Campaign

namespace CommandLine

variable {fresh : Nat → Identifier} {order : Campaign.Order Memory} {service : Service}
  {settings : Settings} {lbs : List Identifier} {p : Progress}

theorem isConverged_iff {r : Option (Except Failure Unit)} :
    isConverged r = true ↔ r = some (.ok ()) := by
  rcases r with _ | failure | _ <;> simp [isConverged]

/-- A run that reconciles ends well if all of its tasks have succeeded. -/
theorem reconcile_mishap_eq_none_iff :
    (reconcile fresh order service settings lbs p).mishap = none ↔
      ∀ r ∈ ((campaign service settings lbs).run (Memory.provider fresh) p.memory order).results,
        r.2 = some (.ok ()) := by
  have hcount : (reconcile fresh order service settings lbs p).mishap = none ↔
      ((campaign service settings lbs).run (Memory.provider fresh) p.memory order).results.countP
        (fun r => !isConverged r.2) = 0 := by
    rw [reconcile]
    dsimp only
    split
    next h => simp [h]
    next h => simp [h]
  rw [hcount, List.countP_eq_zero]
  simp only [Bool.not_eq_true, Bool.not_eq_false', isConverged_iff]

/-- In whatever order the tasks go on: if a load balancer is given twice, the run does not end well. -/
theorem reconcile_mishap_ne_none (h : ¬ lbs.Nodup) :
    (reconcile fresh order service settings lbs p).mishap ≠ none := by
  have hmany : 1 < lbs.length := by
    by_contra hle
    rcases lbs with _ | ⟨lb, _ | ⟨lb', lbs⟩⟩
    · exact h .nil
    · exact h (List.nodup_singleton lb)
    · exact hle (by simp)
  have hshares : (campaign service settings lbs).Shares := ⟨rfl, hmany⟩
  have honce := (hshares.departsOnce p.memory).play (Memory.provider fresh)
    (order (campaign service settings lbs) p.memory)
  rw [Ne, reconcile_mishap_eq_none_iff]
  intro hall
  refine h (honce.nodup_of_succeeded fun t ht => ?_)
  obtain ⟨i, hi, rfl⟩ := List.getElem_of_mem ht
  have hlb : i < lbs.length := hi.trans_eq honce.length
  refine hall (lbs[i], _) (List.mem_iff_getElem?.2 ⟨i, ?_⟩)
  simp only [Campaign.run, List.getElem?_zip_eq_some]
  exact ⟨List.getElem?_eq_getElem hlb, by rw [List.getElem?_map, List.getElem?_eq_getElem hi]; rfl⟩

end CommandLine

namespace Sample

/-- A load balancer is given twice, and there is nothing on it. -/
def campaign (lbs : List Identifier) : Campaign where
  loadBalancers := lbs
  registered := lbs
  service := layout.service
  settings := layout.settings
  cancelAfter := none

def unserved : Memory :=
  .ofInventory { loadBalancers := .ofList [⟨"lb-1"⟩, ⟨"lb-2"⟩], objects := ∅, tags := ∅ } 0

/-- The second task goes on when the first one has ended. -/
def inTurn : List Schedule.Move := List.replicate 100 (.step 0) ++ List.replicate 100 (.step 1)

/-- The second task begins while the first one waits for its first answer. -/
def together : List Schedule.Move :=
  List.replicate 3 (.step 0) ++ List.replicate 3 (.step 1) ++ List.replicate 100 (.step 0)
    ++ List.replicate 10 (.step 1)

end Sample

theorem sample_succeeds_iff_distinct : (Sample.campaign [⟨"lb-1"⟩, ⟨"lb-1"⟩]).Shares ∧
    Sample.layout.service.externalAddresses.Nodup ∧ Sample.layout.service.endpoints.Nodup ∧
    Sample.layout.settings.validate = .ok () ∧ 7 ≤ Sample.layout.settings.maxCycles ∧
    Sample.unserved.Ready .scattered (Sample.campaign [⟨"lb-1"⟩, ⟨"lb-1"⟩]).fleet ∧
    (∀ i, .cancel i ∉ Sample.inTurn) ∧
    ¬ ∀ t ∈ ((Sample.campaign [⟨"lb-1"⟩, ⟨"lb-1"⟩]).after .scattered Sample.unserved
      Sample.inTurn).tasks, t.result? = some (.ok ()) := by
  have h : (Sample.campaign [⟨"lb-1"⟩, ⟨"lb-1"⟩]).Shares := ⟨rfl, by decide⟩
  have ha : Sample.layout.service.externalAddresses.Nodup := by decide +kernel
  have he : Sample.layout.service.endpoints.Nodup := by decide +kernel
  have hv : Sample.layout.settings.validate = .ok () := by decide +kernel
  have hc : 7 ≤ Sample.layout.settings.maxCycles := by decide +kernel
  have hm : Sample.unserved.Ready .scattered (Sample.campaign [⟨"lb-1"⟩, ⟨"lb-1"⟩]).fleet :=
    ⟨by decide +kernel, by decide +kernel, Memory.fresh_scattered (by decide +kernel),
      by decide +kernel⟩
  have hmoves (i : Nat) : .cancel i ∉ Sample.inTurn := by
    simp only [Sample.inTurn, List.mem_append, List.mem_replicate, reduceCtorEq, and_false, or_self,
      not_false_eq_true]
  have hend : ∀ t ∈ ((Sample.campaign [⟨"lb-1"⟩, ⟨"lb-1"⟩]).after .scattered Sample.unserved
      Sample.inTurn).tasks, ∃ r, t.result? = some r := by
    simp only [← Option.isSome_iff_exists]
    decide +kernel
  refine ⟨h, ha, he, hv, hc, hm, hmoves, fun hok => ?_⟩
  have hn := ((Campaign.succeeds_iff_distinct h ha he hv hc hm).2 Sample.inTurn hmoves hend).1.1 hok
  exact absurd hn (by decide +kernel)

/-- In no order do both tasks of a load balancer succeed. If the first one has ended before the second
one begins, it succeeds. If they begin together, both of them fail and only the backend is there. -/
theorem sample_repeated_fails :
    (Sample.layout.service.externalAddresses.Nodup ∧ Sample.layout.service.endpoints.Nodup ∧
      Sample.layout.settings.validate = .ok () ∧ 7 ≤ Sample.layout.settings.maxCycles ∧
      Sample.unserved.Ready .scattered (Sample.campaign [⟨"lb-1"⟩, ⟨"lb-1"⟩]).fleet) ∧
    (∀ order : Campaign.Order Memory, (CommandLine.reconcile .scattered order Sample.layout.service
      Sample.layout.settings [⟨"lb-1"⟩, ⟨"lb-1"⟩] ⟨Sample.unserved, [], none⟩).mishap ≠ none) ∧
    (∀ moves : List Schedule.Move, ¬ ∀ t ∈ ((Sample.campaign [⟨"lb-1"⟩, ⟨"lb-1"⟩]).after .scattered
      Sample.unserved moves).tasks, t.result? = some (.ok ())) ∧
    ((Sample.campaign [⟨"lb-1"⟩, ⟨"lb-1"⟩]).after .scattered Sample.unserved
      Sample.inTurn).tasks.map Task.result? = [some (.ok ()),
        some (.error (.unregisteredLoadBalancer ⟨"lb-1"⟩))] ∧
    ((Sample.campaign [⟨"lb-1"⟩, ⟨"lb-1"⟩]).after .scattered Sample.unserved
      Sample.together).tasks.map Task.result? = [some (.error (.concurrentFetch ⟨"lb-1"⟩)),
        some (.error .canceled)] ∧
    (((Sample.campaign [⟨"lb-1"⟩, ⟨"lb-1"⟩]).after .scattered Sample.unserved
      Sample.together).provider.inventory.share Sample.layout.service.tag ⟨"lb-1"⟩).length = 1 ∧
    (((Sample.campaign [⟨"lb-1"⟩]).after .scattered Sample.unserved
      Sample.inTurn).provider.inventory.share Sample.layout.service.tag ⟨"lb-1"⟩).length = 4 := by
  have hm : Sample.unserved.Ready .scattered (Sample.campaign [⟨"lb-1"⟩, ⟨"lb-1"⟩]).fleet :=
    ⟨by decide +kernel, by decide +kernel, Memory.fresh_scattered (by decide +kernel),
      by decide +kernel⟩
  have hnot : ¬ [(⟨"lb-1"⟩ : Identifier), ⟨"lb-1"⟩].Nodup := by decide +kernel
  have hshares : (Sample.campaign [⟨"lb-1"⟩, ⟨"lb-1"⟩]).Shares := ⟨rfl, by decide⟩
  refine ⟨⟨?_, ?_, ?_, ?_, hm⟩, fun order => CommandLine.reconcile_mishap_ne_none hnot,
    fun moves hall => hnot (((hshares.departsOnce Sample.unserved).play _ moves).nodup_of_succeeded hall),
    ?_, ?_, ?_, ?_⟩ <;> decide +kernel

end BalancerSync
