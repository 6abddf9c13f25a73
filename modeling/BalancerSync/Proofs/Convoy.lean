import BalancerSync.Proofs.Convoy.Conduct
import BalancerSync.Proofs.Rendezvous.Frames
import BalancerSync.Proofs.Rendezvous.Progress
import BalancerSync.Proofs.Together

namespace BalancerSync

open Program Rendezvous

/-- Reconciliations that share their snapshots, each with a layout of its own. -/
structure Convoy where
  tag : Tag
  layouts : List Layout

namespace Convoy

def loadBalancers (c : Convoy) : List Identifier := c.layouts.map (·.loadBalancer)

def meeting (c : Convoy) : Rendezvous Identifier Shared :=
  c.loadBalancers.foldl (fun m lb => (m.register lb).2) .empty

/-- A task for each layout, and no request made so far. -/
def schedule {σ : Type} (c : Convoy) (provider : σ) (draws : List Binary64) : Schedule σ Unit :=
  { (Schedule.initial provider c.meeting : Schedule σ Unit) with
    draws
    tasks := c.layouts.map fun l => .start (⟨.shared c.tag, l⟩ : Reconciliation).reconcile false }

end Convoy

variable {σ : Type} {c : Convoy} {s s' : Schedule σ Unit} {t t' : Task Unit} {i j a : Nat}
  {lb lb' : Identifier} {p : Program Unit} {x y : Arrival Identifier Shared}

def Schedule.role (s : Schedule σ Unit) (i : Nat) (lb : Identifier) (t : Task Unit) : Role where
  inside := s.inside = some i
  leading := t.arrival.any s.meeting.leads
  left := !s.meeting.isRegistered lb

theorem Schedule.role_eq_idle_iff : s.role i lb t = .idle ↔ s.inside ≠ some i ∧
    t.arrival.any s.meeting.leads = false ∧ s.meeting.isRegistered lb = true := by
  simp [Schedule.role, Role.idle]

inductive Attending (lb : Identifier) : Program Unit → Arrival Identifier Shared → Prop
  | leading {p : Program Unit} {canceled : Bool} {round : List Nat} :
      Attending lb p ⟨lb, canceled, .leading round⟩
  | waiting {next : Turn → Program Unit} {canceled : Bool} {mailbox : Mailbox Shared} {woken : Bool} :
      Attending lb (ask (.arrive lb) next) ⟨lb, canceled, .waiting mailbox woken⟩

theorem Attending.key (h : Attending lb p x) : x.key = lb := by cases h <;> rfl

theorem Attending.ne_dropped (h : Attending lb p x) : x.stage ≠ .dropped := by
  intro hx
  cases h <;> cases hx

theorem Attending.drifts (h : Attending lb p x) (hxy : x.Drifts y) : Attending lb p y := by
  obtain ⟨k, canceled, stage⟩ := y
  obtain rfl : k = lb := hxy.key.trans h.key
  cases h with
  | leading =>
    cases hxy.leading_iff.2 rfl
    exact .leading
  | waiting =>
    obtain ⟨mailbox, woken, hstage, -⟩ := hxy.waits _ _ rfl
    cases hstage
    exact .waiting

structure Member (s : Schedule σ Unit) (i : Nat) (lb : Identifier) (t : Task Unit) : Prop where
  meets : t.program.Meets (conduct lb) (fun _ r => r = .gone) (s.role i lb t)
  attending : ∀ a, t.arrival = some a →
    ∃ x, s.meeting.arrivals[a]? = some x ∧ Attending lb t.program x

structure Spares (c : Convoy) (i : Nat) (s s' : Schedule σ Unit) : Prop where
  tasks : ∀ t, s.tasks[i]? = some t → ∃ canceled, s'.tasks[i]? = some { t with canceled }
  arrivals : ∀ t a, s.tasks[i]? = some t → t.arrival = some a →
    Option.Rel Arrival.Drifts s.meeting.arrivals[a]? s'.meeting.arrivals[a]?
  registered : ∀ lb, c.loadBalancers[i]? = some lb →
    s'.meeting.isRegistered lb = s.meeting.isRegistered lb
  inside : s'.inside = some i ↔ s.inside = some i

namespace Spares

variable (h : Spares c i s s') (hi : c.loadBalancers[i]? = some lb) (ht : s.tasks[i]? = some t)

include h hi ht

theorem role_eq (canceled : Bool) : s'.role i lb { t with canceled } = s.role i lb t := by
  have hleading : t.arrival.any s'.meeting.leads = t.arrival.any s.meeting.leads := by
    cases ha : t.arrival with
    | none => rfl
    | some a => exact Bool.eq_iff_iff.2 (leads_iff_of_drifts (h.arrivals t a ht ha))
  rw [Schedule.role, Schedule.role, h.registered lb hi]
  dsimp only
  rw [hleading, decide_eq_decide.2 h.inside]

/-- What is known about a task is kept by the moves of the others. -/
theorem member (hmember : Member s i lb t) (canceled : Bool) : Member s' i lb { t with canceled } where
  meets := by
    rw [h.role_eq hi ht]
    exact hmember.meets
  attending a ha := by
    obtain ⟨x, hx, hattending⟩ := hmember.attending a ha
    obtain ⟨y, hy, hxy⟩ := exists_of_drifts (hx ▸ h.arrivals t a ht ha)
    exact ⟨y, hy, hattending.drifts hxy⟩

end Spares

structure Underway (c : Convoy) (s : Schedule σ Unit) : Prop where
  notHeld : s.held = false
  coherent : ∃ rounds, Coherent rounds s.meeting
  lively : Lively s.meeting
  length : s.tasks.length = c.loadBalancers.length
  inside : ∀ i, s.inside = some i → i < c.loadBalancers.length
  registered : ∀ lb, s.meeting.isRegistered lb = true → lb ∈ c.loadBalancers
  /-- Every leader is the arrival of a task. -/
  led : ∀ a, s.meeting.leads a = true → ∃ t ∈ s.tasks, t.arrival = some a
  member : ∀ i lb t, c.loadBalancers[i]? = some lb → s.tasks[i]? = some t → Member s i lb t

def Schedule.arrivalOf (s : Schedule σ Unit) (t : Task Unit) : Nat := t.arrival.getD s.meeting.next

theorem Schedule.arrival_of_leads (h : s.meeting.leads (s.arrivalOf t) = true) :
    t.arrival = some (s.arrivalOf t) := by
  rw [arrivalOf] at h ⊢
  cases ha : t.arrival with
  | none =>
    rw [ha] at h
    obtain ⟨_, _, _, hx⟩ := leads_iff.1 h
    exact absurd rfl (ne_next_of_some hx)
  | some a => rfl

structure Acted (i : Nat) (lb : Identifier) (a : Nat) (t' : Task Unit) (s s' : Schedule σ Unit) :
    Prop where
  tasks : s'.tasks = s.tasks.set i t'
  held : s'.held = s.held
  inside : ∀ j, j ≠ i → (s'.inside = some j ↔ s.inside = some j)
  others : ∀ b : Nat, b ≠ a →
    Option.Rel Arrival.Drifts s.meeting.arrivals[b]? s'.meeting.arrivals[b]?
  registered : ∀ k, k ≠ lb → s'.meeting.isRegistered k = s.meeting.isRegistered k
  gone : s'.meeting.isRegistered lb = true → s.meeting.isRegistered lb = true
  coherent : ∃ rounds, Coherent rounds s'.meeting
  lively : Lively s'.meeting
  led : s'.meeting.leads a = true → t'.arrival = some a

theorem Acted.program (h : Acted i lb a t' s s') (program : Program Unit) :
    Acted i lb a { t' with program } s { s' with tasks := s.tasks.set i { t' with program } } :=
  ⟨rfl, h.held, h.inside, h.others, h.registered, h.gone, h.coherent, h.lively, h.led⟩

namespace Underway

variable (h : Underway c s) (hn : c.loadBalancers.Nodup)

include h

theorem exists_task (hi : c.loadBalancers[i]? = some lb) : ∃ t, s.tasks[i]? = some t :=
  ⟨_, List.getElem?_eq_getElem (h.length ▸ (List.getElem?_eq_some_iff.1 hi).1)⟩

theorem exists_loadBalancer (ht : s.tasks[i]? = some t) : ∃ lb, c.loadBalancers[i]? = some lb :=
  ⟨_, List.getElem?_eq_getElem (h.length ▸ (List.getElem?_eq_some_iff.1 ht).1)⟩

omit h in
include hn in
theorem ne_of_ne (hi : c.loadBalancers[i]? = some lb) (hj : c.loadBalancers[j]? = some lb')
    (hij : j ≠ i) : lb' ≠ lb := by
  rintro rfl
  exact hij ((List.getElem?_inj (List.getElem?_eq_some_iff.1 hj).1 hn).1 (hj.trans hi.symm))

include hn in
theorem ne_arrivalOf (hi : c.loadBalancers[i]? = some lb) (ht : s.tasks[i]? = some t)
    (hij : j ≠ i) (ht' : s.tasks[j]? = some t') (ha : t'.arrival = some a) : a ≠ s.arrivalOf t := by
  obtain ⟨lb', hj⟩ := h.exists_loadBalancer ht'
  obtain ⟨y, hy, hattending'⟩ := (h.member j lb' t' hj ht').attending a ha
  rw [Schedule.arrivalOf]
  cases hb : t.arrival with
  | none => exact ne_next_of_some hy
  | some b =>
    obtain ⟨x, hx, hattending⟩ := (h.member i lb t hi ht).attending b hb
    rintro rfl
    cases hx.symm.trans hy
    exact ne_of_ne hn hi hj hij (hattending'.key.symm.trans hattending.key)

include hn in
/-- What is known about a convoy is kept by every request that its task makes as it should. -/
theorem acted (hi : c.loadBalancers[i]? = some lb) (ht : s.tasks[i]? = some t)
    (hacted : Acted i lb (s.arrivalOf t) t' s s') (hmember : Member s' i lb t') :
    Underway c s' ∧ ∀ j, j ≠ i → Spares c j s s' := by
  have hlt : i < s.tasks.length := (List.getElem?_eq_some_iff.1 ht).1
  have hself : s'.tasks[i]? = some t' := by rw [hacted.tasks, List.getElem?_set_self hlt]
  have hother (j : Nat) (hij : j ≠ i) : s'.tasks[j]? = s.tasks[j]? := by
    rw [hacted.tasks, List.getElem?_set_ne hij.symm]
  have hspares (j : Nat) (hij : j ≠ i) : Spares c j s s' :=
    { tasks := fun t ht => ⟨t.canceled, (hother j hij).trans ht⟩
      arrivals := fun t' a ht' ha => hacted.others a (h.ne_arrivalOf hn hi ht hij ht' ha)
      registered := fun lb' hj => hacted.registered lb' (ne_of_ne hn hi hj hij)
      inside := hacted.inside j hij }
  refine ⟨⟨hacted.held.trans h.notHeld, hacted.coherent, hacted.lively, ?_, fun j hj => ?_,
    fun k hk => ?_, fun a ha => ?_, fun j lb' t₁ hj ht₁ => ?_⟩, hspares⟩
  · rw [hacted.tasks, List.length_set, h.length]
  · by_cases hij : j = i
    · exact hij ▸ (List.getElem?_eq_some_iff.1 hi).1
    · exact h.inside j ((hacted.inside j hij).1 hj)
  · by_cases hlb : k = lb
    · exact hlb ▸ List.mem_of_getElem? hi
    · exact h.registered k ((hacted.registered k hlb).symm.trans hk)
  -- Nobody can have begun to lead but the arrival with which the task has acted.
  · by_cases hmine : a = s.arrivalOf t
    · subst hmine
      exact ⟨t', List.mem_of_getElem? hself, hacted.led ha⟩
    · obtain ⟨t₁, ht₁, harrival⟩ := h.led a ((leads_iff_of_drifts (hacted.others a hmine)).1 ha)
      obtain ⟨j, hj⟩ := List.mem_iff_getElem?.1 ht₁
      have hij : j ≠ i := by
        rintro rfl
        cases ht.symm.trans hj
        exact hmine (by rw [Schedule.arrivalOf, harrival, Option.getD_some])
      exact ⟨t₁, List.mem_of_getElem? ((hother j hij).trans hj), harrival⟩
  · by_cases hij : j = i
    · subst hij
      cases hj.symm.trans hi
      cases ht₁.symm.trans hself
      exact hmember
    · rw [hother j hij] at ht₁
      exact (hspares j hij).member hj ht₁ (h.member j lb' t₁ hj ht₁) t₁.canceled

end Underway

end BalancerSync
