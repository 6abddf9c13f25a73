import BalancerSync.Proofs.Rendezvous.Attendance
import BalancerSync.Proofs.Retrieval

namespace BalancerSync

open Program Rendezvous Engine

/-- What is in a list with one more element has been there before, or is the new one. -/
theorem getElem?_concat_cases {α : Type} {xs : List α} {x y : α} {i : Nat}
    (h : (xs ++ [x])[i]? = some y) : xs[i]? = some y ∨ (i = xs.length ∧ y = x) := by
  rcases Nat.lt_or_ge i xs.length with hlt | hle
  · exact .inl ((List.getElem?_append_left hlt).symm.trans h)
  · rw [List.getElem?_append_right hle, List.getElem?_singleton] at h
    split at h
    · cases h
      exact .inr ⟨by omega, rfl⟩
    · cases h

namespace Engine.Source

variable {tag : Tag} {lb : Identifier} {p : Program Snapshot}

def part (lb : Identifier) : Outcome Shared → Except Failure Snapshot
  | .error denial => .error (denied lb denial)
  | .ok shared => shared.map (·.narrowTo lb)

def verdict : Shared → Outcome Shared
  | .error .canceled => .error .canceled
  | shared => .ok shared

def leading (lb : Identifier) (p : Program Snapshot) : Program Snapshot :=
  p.attempt >>= fun shared => ask (.release (verdict shared)) fun outcome => ofExcept (part lb outcome)

def turned (tag : Tag) (lb : Identifier) : Turn → Program Snapshot
  | .lead => leading lb (fetch tag)
  | .ended outcome => ofExcept (part lb outcome)

theorem snapshot_shared (tag : Tag) (lb : Identifier) :
    (Source.shared tag).snapshot lb = ask (.arrive lb) (turned tag lb) := by
  refine congrArg (ask (.arrive lb)) (funext fun turn => ?_)
  cases turn with
  | ended outcome => rcases outcome with denial | failure | snapshot <;> rfl
  | lead =>
    refine (bind_assoc _ _ _).trans ?_
    refine congrArg ((fetch tag).attempt >>= ·) (funext fun shared => ?_)
    have hask {outcome : Outcome Shared} {f : Outcome Shared → Program Snapshot}
        (hf : ∀ outcome, f outcome = ofExcept (part lb outcome)) :
        ask (.release outcome) f = ask (.release outcome) fun o => ofExcept (part lb o) :=
      congrArg (ask (.release outcome)) (funext hf)
    rcases shared with failure | snapshot
    · cases failure <;>
        refine hask fun outcome => ?_ <;> rcases outcome with denial | failure | snapshot <;> rfl
    · refine hask fun outcome => ?_
      rcases outcome with denial | failure | snapshot <;> rfl

/-- A leader that has fetched hands out what it has got. -/
theorem leading_of_result {shared : Shared} (h : p.result? = some shared) : leading lb p =
    ask (.release (verdict shared)) fun outcome => ofExcept (part lb outcome) := by
  cases p with
  | done a | fail failure => cases h; rfl
  | ask q next => cases h

theorem result?_leading : (leading lb p).result? = none := by cases p <;> rfl

theorem verdict_eq_ok {shared : Shared} (h : shared ≠ .error .canceled) :
    verdict shared = .ok shared := by
  rcases shared with failure | snapshot
  · cases failure <;> first | rfl | exact absurd rfl h
  · rfl

end Engine.Source

theorem Program.result?_ofExcept {α : Type} (out : Except Failure α) :
    (ofExcept out).result? = some out := by cases out <;> rfl

def Rendezvous.Persists {κ β : Type} (rounds rounds' : List (Round κ β)) : Prop :=
  ∀ r ∈ rounds, ∃ r' ∈ rounds', r'.leader = r.leader ∧ r'.slots = r.slots ∧
    ∀ outcome, r.outcome = some outcome → r'.outcome = some outcome

namespace Retrieval

variable {σ : Type} {own : Provider σ} {tag : Tag} {g g' : Retrieval σ} {i j a : Nat}
  {lb : Identifier} {t t' : Task Snapshot} {p : Program Snapshot} {arrival : Option Nat}
  {r : Round Identifier Shared}

theorem isOutstanding_iff : g.isOutstanding i = true ↔
    ∃ t, g.schedule.tasks[i]? = some t ∧ t.result? = none := by
  simp [isOutstanding, Option.any_eq_true, Option.isNone_iff_eq_none]

theorem mem_parties_iff : i ∈ g.parties r ↔ ∃ a ∈ r.members, g.comers[a]? = some i :=
  List.mem_filterMap

inductive Standing (tag : Tag) (g : Retrieval σ) (i : Nat) (lb : Identifier) :
    Program Snapshot → Option Nat → Prop
  | fresh (hcalls : g.callsOf i = []) (hcome : i ∉ g.comers) :
      Standing tag g i lb (ask (.arrive lb) (Source.turned tag lb)) none
  | waits {a : Nat} {c w : Bool} {mailbox : Mailbox Shared} (hcalls : g.callsOf i = [])
      (hcome : g.comers[a]? = some i)
      (hx : g.schedule.meeting.arrivals[a]? = some ⟨lb, c, .waiting mailbox w⟩)
      (hexpected : Expected g.rounds g.schedule.meeting a) :
      Standing tag g i lb (ask (.arrive lb) (Source.turned tag lb)) (some a)
  | leads {a : Nat} {c : Bool} {round : List Nat} {p : Program Snapshot}
      (hcome : g.comers[a]? = some i)
      (hx : g.schedule.meeting.arrivals[a]? = some ⟨lb, c, .leading round⟩)
      (hlists : p.Meets (listing tag) (fun _ _ => True) (g.listings i))
      (hreplay : i ∉ g.hampered → ∀ more,
        (fetch tag).replay (g.callsOf i ++ more) = p.replay more) :
      Standing tag g i lb (Source.leading lb p) (some a)
  | ended {a : Nat} {outcome : Outcome Shared} (hcome : g.comers[a]? = some i)
      (hstage : g.schedule.meeting.stage? a = some (.ended outcome))
      (hround : i ∉ g.hampered → ∃ r ∈ g.rounds, r.outcome = some outcome ∧ i ∈ g.parties r) :
      Standing tag g i lb (ofExcept (Source.part lb outcome)) none

structure Spared (g g' : Retrieval σ) (j : Nat) : Prop where
  calls : g'.callsOf j = g.callsOf j
  comers : ∀ a : Nat, g'.comers[a]? = some j ↔ g.comers[a]? = some j
  hampered : j ∈ g.hampered → j ∈ g'.hampered
  rounds : Persists g.rounds g'.rounds
  arrivals : ∀ a : Nat, g.comers[a]? = some j →
    Option.Rel Arrival.Drifts g.schedule.meeting.arrivals[a]? g'.schedule.meeting.arrivals[a]?
  expected : ∀ a : Nat, g.comers[a]? = some j → g.isOutstanding j = true →
    Expected g.rounds g.schedule.meeting a → Expected g'.rounds g'.schedule.meeting a

theorem Standing.spared (h : Standing tag g j lb p arrival) (hs : Spared g g' j)
    (ho : p.result? = none → g.isOutstanding j = true) : Standing tag g' j lb p arrival := by
  cases h with
  | fresh hcalls hcome =>
    refine .fresh (hs.calls.trans hcalls) fun hmem => hcome ?_
    obtain ⟨a, ha⟩ := List.mem_iff_getElem?.1 hmem
    exact List.mem_iff_getElem?.2 ⟨a, (hs.comers a).1 ha⟩
  | waits hcalls hcome hx hexpected =>
    obtain ⟨⟨k, c, stage⟩, hy, hxy⟩ := exists_of_drifts (hx ▸ hs.arrivals _ hcome)
    obtain rfl : k = lb := hxy.key
    obtain ⟨mailbox, w, hstage, -⟩ := hxy.waits _ _ rfl
    obtain rfl : stage = .waiting mailbox w := hstage
    exact .waits (hs.calls.trans hcalls) ((hs.comers _).2 hcome) hy
      (hs.expected _ hcome (ho rfl) hexpected)
  | leads hcome hx hlists hreplay =>
    obtain ⟨⟨k, c, stage⟩, hy, hxy⟩ := exists_of_drifts (hx ▸ hs.arrivals _ hcome)
    obtain rfl : k = lb := hxy.key
    obtain rfl : stage = .leading _ := hxy.leading_iff.2 rfl
    refine .leads ((hs.comers _).2 hcome) hy ?_ fun hn => ?_
    · rw [listings, hs.calls]
      exact hlists
    · rw [hs.calls]
      exact hreplay fun hmem => hn (hs.hampered hmem)
  | ended hcome hstage hround =>
    obtain ⟨x, hx, hended⟩ := stage?_eq_some_iff.1 hstage
    obtain ⟨y, hy, hxy⟩ := exists_of_drifts (hx ▸ hs.arrivals _ hcome)
    have hended' : y.stage = x.stage := hxy.other fun mailbox w hw => by cases hw.symm.trans hended
    refine .ended ((hs.comers _).2 hcome) (stage?_eq_some_iff.2 ⟨y, hy, hended'.trans hended⟩)
      fun hn => ?_
    obtain ⟨r, hr, hout, hmem⟩ := hround fun hmem => hn (hs.hampered hmem)
    obtain ⟨r', hr', -, hslots, hkeeps⟩ := hs.rounds r hr
    refine ⟨r', hr', hkeeps _ hout, ?_⟩
    obtain ⟨a, ha, hcome⟩ := mem_parties_iff.1 hmem
    refine mem_parties_iff.2 ⟨a, ?_, (hs.comers a).2 hcome⟩
    rwa [Round.members, hslots]

structure Attended (g : Retrieval σ) : Prop where
  coherent : Coherent g.rounds g.schedule.meeting
  next : g.comers.length = g.schedule.meeting.next
  once : g.comers.Nodup
  comer : ∀ a i : Nat, g.comers[a]? = some i → ∃ lb c stage, g.callers[i]? = some lb ∧
    g.schedule.meeting.arrivals[a]? = some ⟨lb, c, stage⟩ ∧ (c = true → i ∈ g.hampered)
  slots : ∀ r ∈ g.rounds, ∀ lb a, (lb, some a) ∈ r.slots →
    ∃ j, g.comers[a]? = some j ∧ g.callers[j]? = some lb

structure Called (g : Retrieval σ) : Prop where
  length : g.schedule.tasks.length = g.callers.length
  lone : ∀ (i j : Nat) (lb : Identifier), g.callers[i]? = some lb → g.callers[j]? = some lb →
    g.isOutstanding i = true → g.isOutstanding j = true → i = j
  registered : ∀ (i : Nat) (lb : Identifier), g.callers[i]? = some lb → g.isOutstanding i = true →
    g.schedule.meeting.isRegistered lb = true
  hampered : ∀ (i : Nat) (t : Task Snapshot), g.schedule.tasks[i]? = some t → t.canceled = true →
    t.result? = none → i ∈ g.hampered

structure Recorded (tag : Tag) (g : Retrieval σ) : Prop where
  led : ∀ x ∈ g.calls, (x.2.1.isList = true → x.2.1 = .list tag) ∧
    ∃ r ∈ g.rounds, g.leader? r = some x.1
  listed : ∀ i, g.listings i ≤ 1
  concluded : ∀ r ∈ g.rounds, ∀ i outcome, g.leader? r = some i → r.outcome = some outcome →
    i ∉ g.hampered → ∃ shared, outcome = .ok shared ∧ (fetch tag).replay (g.callsOf i) = some shared

structure Known (tag : Tag) (g : Retrieval σ) : Prop
    extends Attended g, Called g, Recorded tag g where
  standing : ∀ (i : Nat) (lb : Identifier) (t : Task Snapshot), g.callers[i]? = some lb →
    g.schedule.tasks[i]? = some t → Standing tag g i lb t.program t.arrival

namespace Attended

variable (h : Attended g)

include h

theorem comer_inj {b : Nat} (ha : g.comers[a]? = some i) (hb : g.comers[b]? = some i) : a = b :=
  (List.getElem?_inj (List.getElem?_eq_some_iff.1 ha).1 h.once).1 (ha.trans hb.symm)

theorem exists_comer {x : Arrival Identifier Shared}
    (hx : g.schedule.meeting.arrivals[a]? = some x) : ∃ i, g.comers[a]? = some i := by
  have hlt : a < g.comers.length := h.next ▸ (List.getElem?_eq_some_iff.1 hx).1
  exact ⟨_, List.getElem?_eq_getElem hlt⟩

/-- Whoever fills a slot has been called for by the party. -/
theorem exists_caller (hk : (lb, some a) ∈ g.schedule.meeting.slots) :
    ∃ j, g.comers[a]? = some j ∧ g.callers[j]? = some lb := by
  obtain ⟨c, stage, hx⟩ := h.coherent.owner lb a hk
  obtain ⟨j, hj⟩ := h.exists_comer hx
  obtain ⟨lb', _, _, hlb', hx', -⟩ := h.comer a j hj
  cases hx.symm.trans hx'
  exact ⟨j, hj, hlb'⟩

end Attended

end Retrieval

end BalancerSync
