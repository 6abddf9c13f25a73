import BalancerSync.Proofs.Rendezvous.Frames

namespace BalancerSync.Rendezvous

variable {κ β : Type} [DecidableEq κ] {leaving : κ → Prop} {rounds rounds' : List (Round κ β)}
  {m m' : Rendezvous κ β} {k : κ} {a b : Nat} {c : Bool} {outcome : Outcome β} {stage : Stage β}
  {round : List Nat} {mailbox : Mailbox β} {w : Bool} {r : Round κ β}

def flags (m : Rendezvous κ β) : List Bool := m.arrivals.map (·.canceled)

omit [DecidableEq κ] in
theorem isCanceled_eq_flags (m : Rendezvous κ β) (a : Nat) :
    m.isCanceled a = (m.flags[a]?).getD false := by
  rw [isCanceled, flags, List.getElem?_map]

omit [DecidableEq κ] in
theorem next_eq_flags (m : Rendezvous κ β) : m.next = m.flags.length := by
  rw [next, flags, List.length_map]

omit [DecidableEq κ] in
theorem flags_setStage : (m.setStage a stage).flags = m.flags := by
  apply map_modify_of_eq
  exact fun _ => rfl

omit [DecidableEq κ] in
theorem Arrival.canceled_posted (mail : Mailbox β) (x : Arrival κ β) :
    (x.posted mail).canceled = x.canceled := by
  rw [posted]
  split <;> rfl

omit [DecidableEq κ] in
theorem Arrival.canceled_wakened (x : Arrival κ β) : x.wakened.canceled = x.canceled := by
  rw [wakened]
  split <;> rfl

omit [DecidableEq κ] in
theorem flags_release (m : Rendezvous κ β) (round : List Nat) (outcome : Outcome β) :
    (m.release round outcome).flags = m.flags := by
  refine List.ext_getElem? fun b => ?_
  rw [flags, flags, List.getElem?_map, List.getElem?_map, getElem?_release, Option.map_map]
  refine congrArg (Option.map · _) (funext fun x => ?_)
  refine (Arrival.canceled_wakened _).trans ?_
  split
  · exact Arrival.canceled_posted ..
  · rfl

theorem flags_withdraw : (m.withdraw k).flags = m.flags := by
  change (m.closeSlot k).flags = m.flags
  rw [closeSlot]
  split
  · exact map_modify_of_eq (Arrival.canceled_posted .closed) ..
  · rfl

theorem flags_look : (m.look a).flags = m.flags := by
  rw [look]
  split
  next mailbox woken _ =>
    cases mailbox with
    | «open» =>
      dsimp only
      split
      · rw [flags_withdraw, flags_setStage]
      · exact flags_setStage
    | _ => exact flags_setStage
  · rfl

theorem flags_settle : (m.settle a outcome).flags = m.flags := by
  rw [settle]
  split
  · rw [flags_look, flags_release, flags_setStage]
  · rfl

/-- Whoever waits for the next round is not concerned by the end of this one. -/
theorem Coherent.slots_settle (hco : Coherent rounds m) (ha : m.stage? a = some (.leading round))
    (outcome : Outcome β) : (m.settle a outcome).slots = m.slots := by
  obtain ⟨r, hr, -, rfl, rfl⟩ := hco.leader_of_leading ha
  obtain ⟨k, c, hx⟩ := exists_of_stage? ha
  obtain ⟨-, heq⟩ := settle_eq outcome hx (hco.sound r hr).leader
  rw [heq]
  exact slots_release

def Expected (rounds : List (Round κ β)) (m : Rendezvous κ β) (a : Nat) : Prop :=
  (∃ k, (k, some a) ∈ m.slots) ∨ ∃ r ∈ rounds, a ∈ r.members

inductive Attempts (k : κ) (a : Nat) (c : Bool) (rounds : List (Round κ β)) (m : Rendezvous κ β) :
    List (Round κ β) → Rendezvous κ β → Prop
  | rests {w : Bool} (ha : m.arrivals[a]? = some ⟨k, c, .waiting .open w⟩) (hc : c = false)
      (hw : w = true → m.complete? = none) :
      Attempts k a c rounds m rounds (m.setStage a (.waiting .open false))
  | givesUp {w : Bool} (ha : m.arrivals[a]? = some ⟨k, c, .waiting .open w⟩) (hc : c = true) :
      Attempts k a c rounds m rounds ((m.setStage a (.ended (.error .canceled))).withdraw k)
  | takes {outcome : Outcome β} {w : Bool}
      (ha : m.arrivals[a]? = some ⟨k, c, .waiting (.holds outcome) w⟩) :
      Attempts k a c rounds m rounds (m.setStage a (.ended outcome))
  | claims {round : List Nat} (ha : m.arrivals[a]? = some ⟨k, c, .waiting .open true⟩)
      (hc : c = false) (hround : m.complete? = some round) :
      Attempts k a c rounds m (⟨a, m.slots, m.next, none⟩ :: rounds)
        { m.claim a round with led := m.led ++ [a] }
  /-- The round is over at once. -/
  | fails {round : List Nat} (ha : m.arrivals[a]? = some ⟨k, c, .waiting .open true⟩)
      (hc : c = true) (hround : m.complete? = some round) :
      Attempts k a c rounds m (⟨a, m.slots, m.next, some (.error .canceled)⟩ :: rounds)
        ((m.claim a round).settle a (.error .canceled))

theorem look_attempts (ha : m.arrivals[a]? = some ⟨k, c, .waiting .open w⟩)
    (hw : c = false → w = true → m.complete? = none) : Attempts k a c rounds m rounds (m.look a) := by
  rw [look, ha]
  cases c with
  | true => exact .givesUp ha rfl
  | false => exact .rests ha rfl (hw rfl)

def attempted (m : Rendezvous κ β) (a : Nat) : Option (Round κ β) :=
  m.complete?.map fun _ => ⟨a, m.slots, m.next, if m.isCanceled a then some (.error .canceled) else none⟩

theorem tryLead_attempts (ha : m.arrivals[a]? = some ⟨k, c, .waiting .open true⟩) :
    Attempts k a c rounds m ((m.attempted a).toList ++ rounds) (m.tryLead a) := by
  rw [attempted, isCanceled_eq ha, tryLead]
  cases hround : m.complete? with
  | none => exact look_attempts ha fun _ _ => hround
  | some round =>
    have hcanceled : (m.claim a round).isCanceled a = c := isCanceled_eq (getElem?_claim round ha)
    dsimp only
    rw [lead_eq, hcanceled]
    cases c with
    | true => exact .fails ha rfl hround
    | false => exact .claims ha rfl hround

/-- Nothing comes amiss to an arrival that is expected. -/
theorem Coherent.step_attempts (hco : Coherent rounds m)
    (ha : m.arrivals[a]? = some ⟨k, c, .waiting mailbox w⟩) (hexpected : Expected rounds m a) :
    Attempts k a c rounds m ((m.begins? (.step a)).toList ++ rounds) (m.step a) := by
  cases mailbox with
  | «open» =>
    rw [begins?, attempt?, step, ha]
    cases c with
    | true => exact look_attempts ha fun hc => by cases hc
    | false =>
      cases w with
      | true => exact tryLead_attempts ha
      | false => exact look_attempts ha fun _ hw => by cases hw
  | holds outcome =>
    have hbegins : m.begins? (.step a) = none := by
      rw [begins?, attempt?, ha]
      cases c <;> rfl
    rw [hbegins, step_of_mail ha (by simp), look, ha]
    exact .takes ha
  | closed =>
    cases hco.fate a _ ha with
    | closed hs hr =>
      rcases hexpected with ⟨k, hk⟩ | ⟨r, hr', hmem⟩
      · exact absurd (mem_map_snd_iff.2 ⟨k, hk⟩) hs
      · exact absurd (List.mem_flatMap.2 ⟨r, hr', hmem⟩) hr

theorem arrive_attempts (hk : m.slot? k = some none) :
    Attempts k m.next c rounds (m.enroll k c) ((m.begins? (.arrive k c)).toList ++ rounds)
      (m.arrive k c) := by
  rw [arrive_eq hk, begins?, attempt?, if_pos hk]
  exact tryLead_attempts getElem?_enroll_next

namespace Attempts

variable (h : Attempts k a c rounds m rounds' m')

include h

theorem exists_arrival : ∃ mailbox w, m.arrivals[a]? = some ⟨k, c, .waiting mailbox w⟩ := by
  cases h with
  | rests ha | givesUp ha | takes ha | claims ha | fails ha => exact ⟨_, _, ha⟩

theorem changes (hco : Coherent rounds m) : Changes leaving rounds m rounds' m' := by
  cases h with
  | rests ha hc hw =>
    subst hc
    exact (Change.rest ha hw).single
  | givesUp ha hc =>
    subst hc
    exact (Change.giveUp ha).single
  | takes ha => exact (Change.take ha).single
  | claims ha hc hround => exact (Change.claim ha hround).single.tail .start
  | @fails round ha hc hround =>
    have hclaim : Change leaving rounds m _ (m.claim a round) := .claim ha hround
    exact hclaim.single.trans ((hco.change hclaim).settle_changes (getElem?_claim _ ha) _)

theorem flags : m'.flags = m.flags := by
  have hclaim (round : List Nat) : (m.claim a round).flags = m.flags := flags_setStage
  cases h with
  | rests | takes => exact flags_setStage
  | givesUp => rw [flags_withdraw, flags_setStage]
  | claims => exact hclaim _
  | fails => rw [flags_settle, hclaim]

theorem exists_fresh : ∃ fresh : Option (Round κ β), rounds' = fresh.toList ++ rounds ∧
    ∀ r ∈ fresh, r.leader = a ∧ r.slots = m.slots ∧ ∀ o, r.outcome = some o → c = true := by
  cases h with
  | rests | givesUp | takes => exact ⟨none, rfl, fun r hr => by cases hr⟩
  | claims ha hc hround =>
    refine ⟨some _, rfl, fun r hr => ?_⟩
    cases hr
    exact ⟨rfl, rfl, fun o ho => by cases ho⟩
  | fails ha hc hround =>
    refine ⟨some _, rfl, fun r hr => ?_⟩
    cases hr
    exact ⟨rfl, rfl, fun _ _ => hc⟩

/-- Whoever else is expected still is, unless it comes from the same party. -/
theorem expected (hb : Expected rounds m b) (hk : (k, some b) ∈ m.slots → b = a)
    (hab : b = a → c = false) : Expected rounds' m' b := by
  -- In a claim all slots become members of the round.
  have hclaim {slots : List (κ × Option Nat)} {o : Option (Outcome β)} :
      Expected (⟨a, m.slots, m.next, o⟩ :: rounds) { m' with slots } b := by
    rcases hb with ⟨j, hj⟩ | ⟨r, hr, hmem⟩
    · exact .inr ⟨_, List.mem_cons_self, List.mem_filterMap.2 ⟨_, hj, rfl⟩⟩
    · exact .inr ⟨r, List.mem_cons_of_mem _ hr, hmem⟩
  cases h with
  | rests | takes => exact hb
  | givesUp ha hc =>
    rcases hb with ⟨j, hj⟩ | hr
    · have hne : j ≠ k := by
        rintro rfl
        cases hc.symm.trans (hab (hk hj))
      refine .inl ⟨j, ?_⟩
      rw [withdraw, setSlot, slots_closeSlot]
      exact List.mem_map.2 ⟨_, hj, if_neg hne⟩
    · exact .inr hr
  | claims => exact hclaim
  | fails => exact hclaim

theorem own (hco : Coherent rounds m) :
    (∃ w, m'.arrivals[a]? = some ⟨k, c, .waiting .open w⟩ ∧ c = false) ∨
    (∃ round, m'.arrivals[a]? = some ⟨k, c, .leading round⟩) ∨
    ∃ outcome, m'.arrivals[a]? = some ⟨k, c, .ended outcome⟩ ∧
      (c = false → ∃ r ∈ rounds', a ∈ r.members ∧ r.outcome = some outcome) := by
  have hset {x : Arrival κ β} (ha : m.arrivals[a]? = some x) (stage : Stage β) :
      (m.setStage a stage).arrivals[a]? = some { x with stage } := by
    rw [getElem?_setStage, if_pos rfl, ha]
    rfl
  cases h with
  | rests ha hc => exact .inl ⟨_, hset ha _, hc⟩
  | claims ha => exact .inr (.inl ⟨_, getElem?_claim _ ha⟩)
  | givesUp ha hc =>
    refine .inr (.inr ⟨.error .canceled, ?_, fun hc' => by cases hc.symm.trans hc'⟩)
    have hget : ∃ x, (m.withdraw k).arrivals[a]? = some x ∧ x.key = k ∧ x.canceled = c := by
      change ∃ x, (m.closeSlot k).arrivals[a]? = some x ∧ _
      rw [getElem?_closeSlot, ha]
      split
      · exact ⟨_, rfl, Arrival.key_posted .., Arrival.canceled_posted ..⟩
      · exact ⟨_, rfl, rfl, rfl⟩
    obtain ⟨⟨j, d, stage⟩, hx, rfl, rfl⟩ := hget
    rw [withdraw_setStage, getElem?_setStage, if_pos rfl, hx]
    rfl
  | takes ha =>
    refine .inr (.inr ⟨_, hset ha _, fun _ => ?_⟩)
    cases hco.fate a _ ha with
    | holds hr ho hmem => exact ⟨_, hr, hmem, ho⟩
  | fails ha hc hround =>
    refine .inr (.inr ⟨.error .canceled, ?_, fun hc' => by cases hc.symm.trans hc'⟩)
    have hclaim : Change (fun _ => False) rounds m _ (m.claim a _) := .claim ha hround
    obtain ⟨r, hr, -, hleader, hmembers⟩ :=
      (hco.change hclaim).leader_of_leading (stage?_eq (getElem?_claim _ ha))
    have hmem := ((hco.change hclaim).sound r hr).leader
    rw [hleader, hmembers] at hmem
    obtain ⟨hget, heq⟩ := settle_eq (.error .canceled) (getElem?_claim _ ha) hmem
    rw [heq, getElem?_setStage, if_pos rfl, hget]
    rfl

end Attempts

end BalancerSync.Rendezvous
