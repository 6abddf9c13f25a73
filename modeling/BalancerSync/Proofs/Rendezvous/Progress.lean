import BalancerSync.Proofs.Rendezvous.History

namespace BalancerSync.Rendezvous

variable {κ β : Type} {rounds : List (Round κ β)} {m m' : Rendezvous κ β} {k : κ} {a : Nat}
  {c w : Bool} {outcome : Outcome β} {stage : Stage β} {round : List Nat}

/-- Every slot is filled by an arrival that waits, and all of these are about to lead if a round can
begin. -/
structure Lively (m : Rendezvous κ β) : Prop where
  attended : ∀ k a, (k, some a) ∈ m.slots → ∃ c w, m.arrivals[a]? = some ⟨k, c, .waiting .open w⟩
  roused : m.complete?.isSome = true → ∀ k a, (k, some a) ∈ m.slots →
    ∃ c, m.arrivals[a]? = some ⟨k, c, .waiting .open true⟩

def waits (m : Rendezvous κ β) (a : Nat) : Bool :=
  match m.stage? a with
  | some (.waiting _ _) => true
  | _ => false

theorem isSome_complete?_iff : m.complete?.isSome = true ↔
    m.leading = false ∧ m.slots ≠ [] ∧ ∀ s ∈ m.slots, s.2.isSome = true := by
  rw [Option.isSome_iff_exists]
  constructor
  · rintro ⟨round, hround⟩
    obtain ⟨hl, hne, hfull, -⟩ := complete?_eq_some_iff.1 hround
    exact ⟨hl, hne, hfull⟩
  · rintro ⟨hl, hne, hfull⟩
    exact ⟨_, complete?_eq_some_iff.2 ⟨hl, hne, hfull, rfl⟩⟩

theorem lively_empty : Lively (empty : Rendezvous κ β) where
  attended _ _ h := by cases h
  roused _ _ _ h := by cases h

namespace Lively

theorem of_slots (h : Lively m) (hs : ∀ k a, (k, some a) ∈ m'.slots → (k, some a) ∈ m.slots)
    (ha : ∀ k a c w, (k, some a) ∈ m'.slots → m.arrivals[a]? = some ⟨k, c, .waiting .open w⟩ →
      ∃ c, m'.arrivals[a]? = some ⟨k, c, .waiting .open w⟩)
    (hc : m'.complete?.isSome = true → m.complete?.isSome = true) : Lively m' where
  attended k a hk := by
    obtain ⟨c, w, hw⟩ := h.attended k a (hs k a hk)
    obtain ⟨c', hw'⟩ := ha k a c w hk hw
    exact ⟨c', w, hw'⟩
  roused hcomplete k a hk := by
    obtain ⟨c, hw⟩ := h.roused (hc hcomplete) k a (hs k a hk)
    exact ha k a c true hk hw

theorem of_woken (h : ∀ k a, (k, some a) ∈ m.slots →
    ∃ c, m.arrivals[a]? = some ⟨k, c, .waiting .open true⟩) : Lively m where
  attended k a hk := by
    obtain ⟨c, hw⟩ := h k a hk
    exact ⟨c, true, hw⟩
  roused _ := h

theorem setStage (h : Lively m) (ha : ∀ k, (k, some a) ∉ m.slots) (stage : Stage β) :
    Lively (m.setStage a stage) := by
  refine h.of_slots (fun _ _ hk => hk) (fun k b c w hk hb => ⟨c, ?_⟩) id
  rw [getElem?_setStage, if_neg, hb]
  rintro rfl
  exact ha k hk

theorem not_mem_slots (h : Lively m) (ha : m.stage? a = some stage)
    (hs : ∀ w, stage ≠ .waiting .open w) (k : κ) : (k, some a) ∉ m.slots := by
  intro hk
  obtain ⟨c, w, hw⟩ := h.attended k a hk
  rw [stage?, hw] at ha
  cases ha
  exact hs w rfl

theorem cancel (h : Lively m) (a : Nat) : Lively (m.cancel a) := by
  refine h.of_slots (fun _ _ hk => hk) (fun k b c w _ hb => ?_) id
  rw [getElem?_cancel, hb]
  split <;> exact ⟨_, rfl⟩

/-- The leader ends its round, and all others are woken. -/
theorem release (h : Lively m) (hco : Coherent rounds m) (ha : m.stage? a = some (.leading round)) :
    Lively ((m.setStage a stage).release round outcome) := by
  -- The end of a round wakes everybody, so that only whoever fills a slot has to be looked at.
  obtain ⟨r, hr, -, rfl, rfl⟩ := hco.leader_of_leading ha
  refine of_woken fun k b hk => ?_
  rw [slots_release] at hk
  obtain ⟨c, w, hb⟩ := h.attended k b hk
  have hne : r.leader ≠ b := by
    rintro rfl
    exact h.not_mem_slots ha (fun _ heq => by cases heq) k hk
  rw [getElem?_release, getElem?_setStage, if_neg hne, hb]
  simp only [Option.map_some, if_neg (hco.apart k b hk r hr)]
  exact ⟨c, rfl⟩

/-- As long as no round can begin nobody has to be woken. -/
theorem of_attended (h : ∀ k a, (k, some a) ∈ m.slots → ∃ c w,
    m.arrivals[a]? = some ⟨k, c, .waiting .open w⟩) (hnone : m.complete? = none) : Lively m where
  attended := h
  roused hc := by
    rw [hnone] at hc
    cases hc

theorem rest (h : Lively m) (hnone : m.complete? = none) : Lively (m.setStage a (.waiting .open false)) := by
  refine of_attended (fun j b hj => ?_) hnone
  obtain ⟨d, w', hb⟩ := h.attended j b hj
  rw [getElem?_setStage, hb]
  split <;> exact ⟨_, _, rfl⟩

/-- Giving up an arrival is harmless unless it waits. -/
theorem drop (h : Lively m) (hco : Coherent rounds m)
    (ha : m.waits a = false) : Lively (m.drop a) := by
  rw [Rendezvous.drop]
  split
  next round hl => exact h.release hco hl
  next mailbox w hw =>
    rw [waits, hw] at ha
    cases ha
  next => exact h

variable [DecidableEq κ]

theorem register (h : Lively m) (k : κ) : Lively (m.register k).2 := by
  rw [Rendezvous.register]
  split
  · exact h
  · refine h.of_slots (fun j b hj => by simpa using hj) (fun j b c w _ hb => ⟨c, hb⟩) fun hc => ?_
    have := (isSome_complete?_iff.1 hc).2.2 (k, none) (by simp)
    cases this

/-- Whoever fills another slot does not notice that one is taken away. -/
theorem getElem?_closeSlot_of_ne (h : Lively m) (hco : Coherent rounds m) {j : κ} {b : Nat}
    (hj : (j, some b) ∈ m.slots) (hjk : j ≠ k) : (m.closeSlot k).arrivals[b]? = m.arrivals[b]? := by
  rw [getElem?_closeSlot, if_neg]
  intro hk
  obtain ⟨_, _, hb⟩ := h.attended j b hj
  obtain ⟨_, _, hb'⟩ := h.attended k b ((slot?_eq_some_iff hco.keys).1 hk)
  cases hb.symm.trans hb'
  exact hjk rfl

theorem leave (h : Lively m) (hco : Coherent rounds m) (k : κ) : Lively (m.leave k).2 := by
  rw [Rendezvous.leave]
  split
  · refine of_woken fun j b hj => ?_
    have hj : (j, some b) ∈ m.slots ∧ j ≠ k := by
      have : (j, some b) ∈ (m.closeSlot k).slots.filter fun s => s.1 ≠ k := hj
      rw [slots_closeSlot] at this
      simpa using this
    obtain ⟨c, w, hb⟩ := h.attended j b hj.1
    rw [getElem?_wakeAll]
    dsimp only
    rw [h.getElem?_closeSlot_of_ne hco hj.1 hj.2, hb]
    exact ⟨c, rfl⟩
  · exact h

theorem giveUp (h : Lively m) (hco : Coherent rounds m)
    (ha : m.arrivals[a]? = some ⟨k, true, .waiting .open w⟩) :
    Lively ((m.setStage a (.ended (.error .canceled))).withdraw k) := by
  -- Once the slot is empty the arrival fills none, and its stage makes no difference any more.
  rw [withdraw_setStage]
  have hslots (j : κ) (b : Nat) (hj : (j, some b) ∈ (m.withdraw k).slots) :
      (j, some b) ∈ m.slots ∧ j ≠ k := by
    rw [withdraw, setSlot, slots_closeSlot] at hj
    obtain ⟨s, hs, heq⟩ := List.mem_map.1 hj
    split at heq
    · cases heq
    next hsk =>
      subst heq
      exact ⟨hs, hsk⟩
  have hwithdraw : Lively (m.withdraw k) := by
    refine h.of_slots (fun j b hj => (hslots j b hj).1) (fun j b c w hj hb => ?_) fun hc => ?_
    · change ∃ c, (m.closeSlot k).arrivals[b]? = _
      rw [h.getElem?_closeSlot_of_ne hco (hslots j b hj).1 (hslots j b hj).2, hb]
      exact ⟨c, rfl⟩
    · obtain ⟨hl, hne, hfull⟩ := isSome_complete?_iff.1 hc
      have heq : (m.withdraw k).slots = m.slots.map fun s => if s.1 = k then (s.1, none) else s := by
        rw [withdraw, setSlot, slots_closeSlot]
      rw [heq] at hne hfull
      refine isSome_complete?_iff.2 ⟨leading_closeSlot.symm.trans hl, ?_, fun s hs => ?_⟩
      · rintro hnil
        rw [hnil] at hne
        exact hne rfl
      · have := hfull _ (List.mem_map_of_mem hs)
        split at this
        · cases this
        · exact this
  refine hwithdraw.setStage (fun j hj => ?_) _
  obtain ⟨hj, hjk⟩ := hslots j a hj
  obtain ⟨_, _, hb⟩ := h.attended j a hj
  cases ha.symm.trans hb
  exact hjk rfl

/-- An arrival that looks at its mailbox without having to lead. -/
theorem look (h : Lively m) (hco : Coherent rounds m)
    (hw : ∀ k, m.arrivals[a]? = some ⟨k, false, .waiting .open true⟩ → m.complete? = none) :
    Lively (m.look a) := by
  rw [Rendezvous.look]
  split
  next key canceled mailbox woken ha =>
    have hstage : m.stage? a = some (.waiting mailbox woken) := stage?_eq ha
    cases mailbox with
    | holds outcome => exact h.setStage (h.not_mem_slots hstage (fun _ heq => by cases heq)) _
    | closed => exact h.setStage (h.not_mem_slots hstage (fun _ heq => by cases heq)) _
    | «open» =>
      dsimp only
      cases canceled with
      | true => exact h.giveUp hco ha
      | false =>
        rw [if_neg Bool.false_ne_true]
        cases woken with
        | false => rwa [setStage_eq_self ha]
        | true => exact h.rest (hw key ha)
  · exact h

theorem settle (h : Lively m) (hco : Coherent rounds m) (a : Nat) (outcome : Outcome β) :
    Lively (m.settle a outcome) := by
  by_cases hl : m.leads a = true
  · obtain ⟨k, c, round, ha⟩ := leads_iff.1 hl
    have hstage : m.stage? a = some (.leading round) := stage?_eq ha
    obtain ⟨r, hr, -, rfl, rfl⟩ := hco.leader_of_leading hstage
    obtain ⟨hget, heq⟩ := settle_eq outcome ha (hco.sound r hr).leader
    have hreleased : Lively ((m.setStage r.leader (.waiting .open true)).release r.members outcome) :=
      h.release hco hstage
    rw [heq]
    refine hreleased.setStage (fun k hk => ?_) _
    obtain ⟨_, _, hb⟩ := hreleased.attended k _ hk
    cases hget.symm.trans hb
  · rwa [settle_eq_self hl]

theorem tryLead (h : ∀ k a, (k, some a) ∈ m.slots → ∃ c w,
    m.arrivals[a]? = some ⟨k, c, .waiting .open w⟩) (hco : Coherent rounds m)
    (ha : m.arrivals[a]? = some ⟨k, c, .waiting .open true⟩) : Lively (m.tryLead a) := by
  rw [Rendezvous.tryLead]
  cases hround : m.complete? with
  | none => exact (of_attended h hround).look hco fun _ _ => hround
  | some round =>
    have hclaim : Change (fun _ => False) rounds m _ (m.claim a round) := .claim ha hround
    have hlively : Lively (m.claim a round) := by
      refine of_woken fun j b hj => ?_
      obtain ⟨s, -, heq⟩ := List.mem_map.1 hj
      cases heq
    dsimp only
    rw [lead_eq]
    split
    · exact hlively.settle (hco.change hclaim) _ _
    · exact hlively.of_slots (fun _ _ hk => hk) (fun _ _ c _ _ hb => ⟨c, hb⟩) id

theorem step (h : Lively m) (hco : Coherent rounds m) (a : Nat) : Lively (m.step a) := by
  rw [Rendezvous.step]
  split
  next k ha => exact tryLead h.attended hco ha
  next => exact h.settle hco _ _
  next hlead _ => exact h.look hco fun k ha => absurd ha (hlead k)

theorem arrive (h : Lively m) (hco : Coherent rounds m) (k : κ) (c : Bool) :
    Lively (m.arrive k c) := by
  by_cases hk : m.slot? k = some none
  · have henroll : Change (fun _ => False) rounds m rounds (m.enroll k c) := .enroll hk
    rw [arrive_eq hk]
    refine tryLead (fun j b hj => ?_) (hco.change henroll) getElem?_enroll_next
    rcases (mem_slots_enroll hco.keys hk).1 hj with hj | ⟨rfl, rfl⟩
    · obtain ⟨d, w, hb⟩ := h.attended j b hj
      exact ⟨d, w, getElem?_enroll_of_some hb⟩
    · exact ⟨c, true, getElem?_enroll_next⟩
  · have hrefuse (x : Arrival κ β) : Lively { m with arrivals := m.arrivals ++ [x] } :=
      h.of_slots (fun _ _ hk => hk) (fun _ b c _ _ hb =>
        ⟨c, (List.getElem?_append_left (List.getElem?_eq_some_iff.1 hb).1).trans hb⟩) id
    rw [Rendezvous.arrive]
    split
    · exact hrefuse _
    · exact hrefuse _
    next hslot => exact absurd hslot hk

end Lively

section

variable [DecidableEq κ]

/-- No arrival is given up while it waits. -/
def Patient (m : Rendezvous κ β) : List (Move κ β) → Prop
  | [] => True
  | move :: moves => (∀ a, move = .drop a → m.waits a = false) ∧ Patient (m.move move) moves

theorem patient_of_forall_ne {moves : List (Move κ β)} (h : ∀ a, .drop a ∉ moves) (m : Rendezvous κ β) :
    Patient m moves := by
  induction moves generalizing m with
  | nil => trivial
  | cons move moves ih =>
    refine ⟨fun a heq => absurd (heq ▸ List.mem_cons_self) (h a), ih (fun a ha => ?_) _⟩
    exact h a (List.mem_cons_of_mem _ ha)

theorem Lively.move (h : Lively m) (hco : Coherent rounds m) (move : Move κ β)
    (hd : ∀ a, move = .drop a → m.waits a = false) : Lively (m.move move) := by
  cases move with
  | register k => exact h.register k
  | leave k => exact h.leave hco k
  | arrive k c => exact h.arrive hco k c
  | step a => exact h.step hco a
  | finish a value => exact h.settle hco a _
  | cancel a => exact h.cancel a
  | drop a => exact h.drop hco (hd a rfl)

theorem Lively.play {moves : List (Move κ β)} (h : Lively m) (hco : Coherent rounds m)
    (hp : m.Patient moves) : Lively (m.play moves) := by
  induction moves generalizing m rounds with
  | nil => exact h
  | cons move moves ih => exact ih (h.move hco move hp.1) (hco.changes (hco.move_changes move)) hp.2

end

inductive Pending [DecidableEq κ] (m : Rendezvous κ β) (a : Nat) : Prop
  /-- It belongs to the round of a leader who is still at work. -/
  | led {b : Nat} {round : List Nat} (hb : m.stage? b = some (.leading round))
      (hc : m.isCanceled b = false) (ha : a ∈ round)
  /-- It fills its slot, and another party has not arrived. -/
  | missing {k j : κ} (ha : m.slot? k = some (some a)) (hj : m.slot? j = some none)
  /-- It fills its slot for the next round, and the leader of another round is still at work. -/
  | next {k : κ} {b : Nat} {round : List Nat} (ha : m.slot? k = some (some a))
      (hb : m.stage? b = some (.leading round)) (hc : m.isCanceled b = false)

namespace Coherent

variable (h : Coherent rounds m)

include h

theorem exists_leading (hl : m.leading = true) :
    ∃ r ∈ rounds, m.stage? r.leader = some (.leading r.members) := by
  obtain ⟨r, hr, ho⟩ := h.leading.1 hl
  exact ⟨r, hr, (h.sound r hr).led ho⟩

variable [DecidableEq κ]

/-- A leader who cannot take a step is still at work. -/
theorem isCanceled_of_stuck (hs : m.step a = m) (ha : m.stage? a = some (.leading round)) :
    m.isCanceled a = false := by
  obtain ⟨k, c, harrival⟩ := exists_of_stage? ha
  rw [isCanceled, harrival]
  cases c with
  | false => rfl
  | true =>
    have hstep : m.step a = m.settle a (.error .canceled) := by rw [step, harrival]
    have hended := h.stage?_settle ha (.error .canceled)
    rw [← hstep, hs, ha] at hended
    cases hended

omit h in
/-- Who belongs to a round that can begin is the next to lead it, unless it has been canceled. -/
theorem stage?_step (hl : Lively m) (hround : m.complete? = some round) (ha : a ∈ round) :
    (m.step a).stage? a =
      some (if m.isCanceled a then .ended (.error .canceled) else .leading round) := by
  obtain ⟨k, hk⟩ : ∃ k, (k, some a) ∈ m.slots := by
    obtain ⟨-, -, -, rfl⟩ := complete?_eq_some_iff.1 hround
    simpa using List.mem_filterMap.1 ha
  obtain ⟨c, hw⟩ := hl.roused (by rw [hround]; rfl) k a hk
  have hc : m.isCanceled a = c := isCanceled_eq hw
  rw [hc, step, hw]
  cases c with
  | false =>
    have hget := getElem?_claim round hw
    have hclaimed : (m.claim a round).isCanceled a = false := isCanceled_eq hget
    dsimp only
    rw [tryLead, hround]
    dsimp only
    rw [lead_eq, hclaimed]
    change (m.claim a round).stage? a = _
    rw [stage?, hget]
    rfl
  | true =>
    dsimp only
    rw [look, hw]
    dsimp only
    rw [if_pos rfl]
    have hstage : (m.setStage a (.ended (.error .canceled))).stage? a = _ := stage?_setStage hw
    have hevolves : Evolves _ ((m.setStage a (.ended (.error .canceled))).closeSlot k) :=
      Evolves.closeSlot _ _
    exact hevolves.stage?_ended hstage

/-- A round that can begin can still begin after the steps of those who do not belong to it. -/
theorem complete?_step (hround : m.complete? = some round) (ha : a ∉ round) :
    (m.step a).complete? = some round := by
  obtain ⟨hl, -, -, hfillers⟩ := complete?_eq_some_iff.1 hround
  have hopen (r : Round κ β) (hr : r ∈ rounds) (ho : r.outcome = none) : False := by
    cases hl.symm.trans (h.leading.2 ⟨r, hr, ho⟩)
  have hnot (k : κ) (c w : Bool) (hw : m.arrivals[a]? = some ⟨k, c, .waiting .open w⟩) : False := by
    cases h.fate a _ hw with
    | waits hs => exact ha (hfillers ▸ List.mem_filterMap.2 ⟨_, hs, rfl⟩)
    | called hr ho _ _ => exact hopen _ hr ho
  rw [step]
  split
  next k hw => exact (hnot k false true hw).elim
  next k r hleading =>
    cases h.fate a _ hleading with
    | leads hr ho _ => exact (hopen _ hr ho).elim
  next =>
    rw [look]
    split
    next k c mailbox w hw =>
      cases mailbox with
      | holds outcome => exact hround
      | closed => exact hround
      | «open» => exact (hnot k c w hw).elim
    next => exact hround

theorem pending (hl : Lively m) (hs : ∀ b, m.step b = m) (ha : m.stage? a = some stage)
    (hd : stage ≠ .dropped) (he : ∀ outcome, stage ≠ .ended outcome) : Pending m a := by
  obtain ⟨k, c, harrival⟩ := exists_of_stage? ha
  cases stage with
  | leading round =>
    obtain ⟨r, hr, -, rfl, rfl⟩ := h.leader_of_leading ha
    exact .led ha (h.isCanceled_of_stuck (hs _) ha) (h.sound r hr).leader
  | ended outcome => exact absurd rfl (he outcome)
  | dropped => exact absurd rfl hd
  | waiting mailbox w =>
    have hlook {outcome : Outcome β} (hlook : m.look a = m.setStage a (.ended outcome))
        (hstep : m.step a = m.look a) : Pending m a := by
      have hended : (m.setStage a (.ended outcome)).stage? a = _ := stage?_setStage harrival
      rw [← hlook, ← hstep, hs, ha] at hended
      cases hended
    cases mailbox with
    | holds outcome =>
      exact hlook (by rw [look, harrival]) (step_of_mail harrival fun heq => by cases heq)
    | closed => exact hlook (by rw [look, harrival]) (step_of_mail harrival fun heq => by cases heq)
    | «open» =>
      cases h.fate a _ harrival with
      | called hr ho hmem _ =>
        have hleader := (h.sound _ hr).led ho
        exact .led hleader (h.isCanceled_of_stuck (hs _) hleader) hmem
      | waits hk =>
        have hslot := (slot?_eq_some_iff h.keys).2 hk
        by_cases hleading : m.leading = true
        · obtain ⟨r, hr, hleader⟩ := h.exists_leading hleading
          exact .next hslot hleader (h.isCanceled_of_stuck (hs _) hleader)
        -- If all slots were filled the arrival would have been woken, and its step would change something.
        by_cases hfull : ∀ s ∈ m.slots, s.2.isSome = true
        · have hround := complete?_eq_some_iff.2
            ⟨Bool.eq_false_iff.2 hleading, List.ne_nil_of_mem hk, hfull, rfl⟩
          have hstage := stage?_step hl hround (List.mem_filterMap.2 ⟨_, hk, rfl⟩)
          rw [hs, ha] at hstage
          split at hstage <;> cases hstage
        · push Not at hfull
          obtain ⟨⟨j, filler⟩, hj, hnone⟩ := hfull
          have hfiller : filler = none := by simpa using hnone
          exact .missing hslot ((slot?_eq_some_iff h.keys).2 (hfiller ▸ hj))

end Coherent

/-- Nobody waits without a reason. -/
structure Progressing [DecidableEq κ] (m : Rendezvous κ β) : Prop where
  /-- When nobody can take a step, whoever has not returned waits for a leader at work or for a party
  that has not arrived. -/
  pending : (∀ b, m.step b = m) → ∀ a stage, m.stage? a = some stage → stage ≠ .dropped →
    (∀ outcome, stage ≠ .ended outcome) → Pending m a
  /-- When all parties have arrived and nobody leads, somebody is to take a step, whoever of them takes
  the first one leads, unless it has been canceled, and nobody else's step stands in the way. -/
  leads : ∀ round, m.complete? = some round → round ≠ [] ∧
    (∀ a ∈ round, (m.step a).stage? a =
      some (if m.isCanceled a then .ended (.error .canceled) else .leading round)) ∧
    ∀ b ∉ round, (m.step b).complete? = some round

/-- However parties come, leave and are canceled, and whenever the work ends, no wakeup is lost. -/
theorem progressing [DecidableEq κ] {moves : List (Move κ β)} (hp : Patient .empty moves) :
    Progressing (play .empty moves : Rendezvous κ β) := by
  have hco := coherent_play moves
  have hl : Lively (play .empty moves : Rendezvous κ β) := lively_empty.play coherent_empty hp
  refine ⟨fun hs a stage ha hd he => hco.pending hl hs ha hd he, fun round hround => ⟨?_, ?_, ?_⟩⟩
  · obtain ⟨-, hne, hfull, rfl⟩ := complete?_eq_some_iff.1 hround
    obtain ⟨s, hs⟩ := List.exists_mem_of_ne_nil _ hne
    obtain ⟨a, ha⟩ := Option.isSome_iff_exists.1 (hfull s hs)
    exact List.ne_nil_of_mem (List.mem_filterMap.2 ⟨s, hs, ha⟩)
  · exact fun a ha => Coherent.stage?_step hl hround ha
  · exact fun b hb => hco.complete?_step hround hb

/-- The last party that has not arrived leaves, and the one that waits leads. -/
theorem leading_after_leave : Patient .empty
      ([.register 0, .register 1, .arrive 0 false, .leave 1] : List (Move Nat Nat)) ∧
    ((play .empty [.register 0, .register 1, .arrive 0 false, .leave 1] : Rendezvous Nat Nat).step 0).stage?
      0 = some (.leading [0]) := by
  have hp : Patient .empty ([.register 0, .register 1, .arrive 0 false, .leave 1] : List (Move Nat Nat)) :=
    patient_of_forall_ne (fun a => by simp) _
  exact ⟨hp, ((progressing hp).leads [0] rfl).2.1 0 List.mem_cons_self⟩

end BalancerSync.Rendezvous
