import BalancerSync.Proofs.Rendezvous.History

namespace BalancerSync.Rendezvous

variable {κ β : Type} [DecidableEq κ] {rounds : List (Round κ β)} {m m' : Rendezvous κ β} {k : κ}
  {a : Nat} {moves moves' : List (Move κ β)} {move : Move κ β} {r : Round κ β} {outcome : Outcome β}
  {round : List Nat}

/-- The leader of the round has tried to lead when nobody led, and the round has taken the arrivals
from the slots of all parties that were registered then. -/
def Round.Began (moves : List (Move κ β)) (r : Round κ β) : Prop :=
  ∃ past move m, past ++ [move] <+: moves ∧
    (play .empty past : Rendezvous κ β).attempt? move = some (r.leader, m) ∧
    m.leading = false ∧ m.slots = r.slots ∧ m.next = r.begun

inductive Round.Comes (moves : List (Move κ β)) (r : Round κ β) : Outcome β → Prop
  /-- The work of the leader has come to a value before the leader was canceled. -/
  | value {past : List (Move κ β)} {v : β} (hm : past ++ [.finish r.leader v] <+: moves)
      (hl : (play .empty past : Rendezvous κ β).stage? r.leader = some (.leading r.members))
      (hc : (play .empty past : Rendezvous κ β).isCanceled r.leader = false) : r.Comes moves (.ok v)
  | canceled (hc : (play .empty moves : Rendezvous κ β).isCanceled r.leader = true) :
      r.Comes moves (.error .canceled)
  | dropped (hd : (play .empty moves : Rendezvous κ β).stage? r.leader = some .dropped) :
      r.Comes moves (.error .canceled)

theorem Round.Began.mono (h : r.Began moves) (hm : moves <+: moves') : r.Began moves' := by
  obtain ⟨past, move, m, hpast, hrest⟩ := h
  exact ⟨past, move, m, hpast.trans hm, hrest⟩

theorem Round.Comes.mono (h : r.Comes moves outcome) (hm : moves <+: moves') :
    r.Comes moves' outcome := by
  cases h with
  | value hpast hl hc => exact .value (hpast.trans hm) hl hc
  | canceled hc => exact .canceled ((evolves_play hm).isCanceled hc)
  | dropped hd => exact .dropped ((evolves_play hm).stage?_dropped hd)

/-- The rounds after a move are the one that begins, the ones from before, and the latest of these
with its outcome. -/
theorem mem_note (hr : r ∈ m.note move rounds) : m.begins? move = some r ∨
    (∃ q rest outcome, rounds = q :: rest ∧ m.verdict? move = some outcome ∧ r = q.conclude outcome) ∨
    r ∈ rounds := by
  rw [note, List.mem_append, Option.mem_toList] at hr
  rcases hr with hr | hr
  · exact .inl hr
  · right
    split at hr
    next outcome hv =>
      cases rounds with
      | nil => cases hr
      | cons q rest =>
        rcases List.mem_cons.1 hr with rfl | hr
        · exact .inl ⟨q, rest, outcome, rfl, hv, rfl⟩
        · exact .inr (List.mem_cons_of_mem _ hr)
    next => exact .inr hr

theorem Round.began (hr : r ∈ chronicle moves) : r.Began moves := by
  induction moves using List.reverseRecOn generalizing r with
  | nil => cases hr
  | append_singleton moves move ih =>
    have hprefix : moves <+: moves ++ [move] := List.prefix_append ..
    rw [chronicle_concat] at hr
    rcases mem_note hr with hb | ⟨q, rest, outcome, heq, -, rfl⟩ | hr
    · rw [begins?] at hb
      split at hb
      · cases hb
      next a m ha =>
        obtain ⟨round, hround, rfl⟩ := Option.map_eq_some_iff.1 hb
        exact ⟨moves, move, m, List.prefix_rfl, ha, (complete?_eq_some_iff.1 hround).1, rfl, rfl⟩
    · exact (ih (heq ▸ List.mem_cons_self : q ∈ chronicle moves)).mono hprefix
    · exact (ih hr).mono hprefix

omit [DecidableEq κ] in
/-- Whoever leads is the leader of the latest round. -/
theorem Coherent.latest_of_leads {q : Round κ β} {rest : List (Round κ β)}
    (h : Coherent (q :: rest) m) (hl : m.leads a = true) :
    q.leader = a ∧ m.stage? a = some (.leading q.members) := by
  obtain ⟨k, c, round, ha⟩ := leads_iff.1 hl
  have hstage : m.stage? a = some (.leading round) := stage?_eq ha
  obtain ⟨r, hr, ho, rfl, rfl⟩ := h.leader_of_leading hstage
  obtain ⟨rest', heq⟩ := h.eq_cons_of_open hr ho
  cases heq
  exact ⟨rfl, hstage⟩

/-- Whoever tries to lead is still there after the move. -/
theorem Coherent.evolves_attempt (h : Coherent rounds m) (ha : m.attempt? move = some (a, m')) :
    Evolves m' (m.move move) := by
  cases move with
  | arrive k c =>
    rw [attempt?] at ha
    split at ha
    next hk =>
      cases ha
      have henroll : Change (fun _ => False) rounds m rounds (m.enroll k c) := .enroll hk
      have hchanges : Changes (fun _ => False) rounds (m.enroll k c) _ _ :=
        (h.change henroll).tryLead_changes getElem?_enroll_next
      change Evolves _ (m.arrive k c)
      rw [arrive_eq hk]
      exact hchanges.evolves
    next => cases ha
  | step b =>
    have hm : m' = m := by
      rw [attempt?] at ha
      split at ha <;> cases ha
      rfl
    rw [hm]
    exact (h.move_changes (.step b)).evolves
  | register | leave | finish | cancel | drop => cases ha

theorem Round.comes (hr : r ∈ chronicle moves) (ho : r.outcome = some outcome) :
    r.Comes moves outcome := by
  induction moves using List.reverseRecOn generalizing r with
  | nil => cases hr
  | append_singleton moves move ih =>
    have hprefix : moves <+: moves ++ [move] := List.prefix_append ..
    have h := coherent_play moves
    rw [chronicle_concat] at hr
    rcases mem_note hr with hb | ⟨q, rest, outcome', heq, hv, rfl⟩ | hr
    · rw [begins?] at hb
      split at hb
      · cases hb
      next a m ha =>
        obtain ⟨round, -, rfl⟩ := Option.map_eq_some_iff.1 hb
        dsimp only at ho
        split at ho
        next hc =>
          cases ho
          refine .canceled ?_
          rw [play_concat]
          exact (h.evolves_attempt ha).isCanceled hc
        next => cases ho
    · cases ho
      have hevolves := evolves_play hprefix
      rw [heq] at h
      cases move with
      | step a =>
        rw [verdict?] at hv
        split at hv
        next hl =>
          cases hv
          rw [Bool.and_eq_true] at hl
          obtain ⟨rfl, -⟩ := h.latest_of_leads hl.1
          exact .canceled (hevolves.isCanceled hl.2)
        next => cases hv
      | finish a value =>
        rw [verdict?] at hv
        split at hv
        next hl =>
          obtain ⟨rfl, hstage⟩ := h.latest_of_leads hl
          split at hv
          next hc =>
            cases hv
            exact .canceled (hevolves.isCanceled hc)
          next hc =>
            cases hv
            exact .value List.prefix_rfl hstage (Bool.eq_false_iff.2 hc)
        next => cases hv
      | drop a =>
        rw [verdict?] at hv
        split at hv
        next hl =>
          cases hv
          obtain ⟨rfl, hstage⟩ := h.latest_of_leads hl
          obtain ⟨x, hx, -⟩ := Option.map_eq_some_iff.1 hstage
          refine .dropped ?_
          change stage? (play .empty (moves ++ [.drop q.leader])) q.leader = _
          rw [play_concat]
          change (Rendezvous.drop _ _).stage? q.leader = _
          rw [Rendezvous.drop, hstage]
          exact (Evolves.release _ _ _).stage?_dropped (stage?_setStage hx)
        next => cases hv
      | register | leave | arrive | cancel => cases hv
    · exact (ih hr ho).mono hprefix

theorem Round.canceled_of_dropped (hr : r ∈ chronicle moves)
    (hd : (play .empty moves : Rendezvous κ β).stage? r.leader = some .dropped) :
    r.outcome = some (.error .canceled) := by
  have h := coherent_play moves
  cases ho : r.outcome with
  | none => cases hd.symm.trans ((h.sound r hr).led ho)
  | some outcome =>
    cases Round.comes hr ho with
    | @value past v hm hl hc =>
      have hended : (play .empty (past ++ [.finish r.leader v]) : Rendezvous κ β).stage? r.leader =
          some (.ended (.ok v)) := by
        rw [play_concat]
        change (finish _ _ _).stage? _ = _
        rw [finish, hc]
        exact (coherent_play past).stage?_settle hl _
      cases hd.symm.trans ((evolves_play hm).stage?_ended hended)
    | canceled => rfl
    | dropped => rfl

theorem led_closeSlot : (m.closeSlot k).led = m.led := by
  rw [closeSlot]
  split <;> rfl

theorem led_look : (m.look a).led = m.led := by
  rw [look]
  split
  next mailbox woken _ =>
    cases mailbox with
    | «open» =>
      dsimp only
      split
      · exact led_closeSlot
      · rfl
    | _ => rfl
  · rfl

theorem led_settle : (m.settle a outcome).led = m.led := by
  rw [settle]
  split
  next round _ =>
    rw [led_look, led_release]
    rfl
  · rfl

theorem led_tryLead : ∃ started, (m.tryLead a).led = m.led ++ started ∧
    started.Sublist (m.complete?.map fun _ => a).toList := by
  rw [tryLead]
  cases m.complete? with
  | none => exact ⟨[], by rw [List.append_nil]; exact led_look, List.Sublist.slnil⟩
  | some round =>
    dsimp only
    rw [lead_eq]
    split
    · exact ⟨[], by rw [List.append_nil]; exact led_settle, List.nil_sublist _⟩
    · exact ⟨[a], rfl, List.Sublist.refl _⟩

/-- An arrival starts the work only of a round that begins with it. -/
theorem led_move (m : Rendezvous κ β) (move : Move κ β) : ∃ started,
    (m.move move).led = m.led ++ started ∧
      started.Sublist ((m.begins? move).toList.map Round.leader) := by
  have hsame {m' : Rendezvous κ β} (h : m'.led = m.led) : ∃ started, m'.led = m.led ++ started ∧
      started.Sublist ((m.begins? move).toList.map Round.leader) :=
    ⟨[], h.trans (List.append_nil _).symm, List.nil_sublist _⟩
  have htry {a : Nat} {m' : Rendezvous κ β} (ha : m.attempt? move = some (a, m')) (hled : m'.led = m.led) :
      ∃ started, (m'.tryLead a).led = m.led ++ started ∧
        started.Sublist ((m.begins? move).toList.map Round.leader) := by
    obtain ⟨started, hstarted, hsub⟩ := led_tryLead (m := m') (a := a)
    refine ⟨started, hled ▸ hstarted, ?_⟩
    convert hsub using 1
    rw [begins?, ha]
    dsimp only
    cases m'.complete? <;> rfl
  cases move with
  | register k =>
    change ∃ started, (m.register k).2.led = _ ∧ _
    rw [Rendezvous.register]
    split <;> exact hsame rfl
  | leave k =>
    change ∃ started, (m.leave k).2.led = _ ∧ _
    rw [Rendezvous.leave]
    split
    · exact hsame led_closeSlot
    · exact hsame rfl
  | arrive k c =>
    change ∃ started, (m.arrive k c).led = _ ∧ _
    by_cases hk : m.slot? k = some none
    · rw [arrive_eq hk]
      exact htry (if_pos hk) rfl
    · rw [arrive]
      split
      · exact hsame rfl
      · exact hsame rfl
      next hslot => exact absurd hslot hk
  | step b =>
    change ∃ started, (m.step b).led = _ ∧ _
    rw [step]
    split
    next k ha => exact htry (by rw [attempt?, ha]) rfl
    next => exact hsame led_settle
    next => exact hsame led_look
  | finish b value => exact hsame led_settle
  | cancel b => exact hsame rfl
  | drop b =>
    change ∃ started, (m.drop b).led = _ ∧ _
    rw [Rendezvous.drop]
    split
    next round _ =>
      exact hsame led_release
    next => exact hsame rfl
    next => exact hsame rfl

omit [DecidableEq κ] in
theorem map_leader_concludeLatest (outcome : Outcome β) (rounds : List (Round κ β)) :
    (concludeLatest outcome rounds).map Round.leader = rounds.map Round.leader := by
  cases rounds <;> rfl

/-- Every round's work is started at most once, and by the leader. -/
theorem led_play (moves : List (Move κ β)) : (play .empty moves : Rendezvous κ β).led.Sublist
    ((chronicle moves).reverse.map Round.leader) := by
  induction moves using List.reverseRecOn with
  | nil => exact List.Sublist.slnil
  | append_singleton moves move ih =>
    obtain ⟨started, hled, hsub⟩ := led_move (play .empty moves : Rendezvous κ β) move
    have hleaders : ((chronicle (moves ++ [move])).reverse.map Round.leader) =
        (chronicle moves).reverse.map Round.leader ++
          ((play .empty moves : Rendezvous κ β).begins? move).toList.map Round.leader := by
      have hone (r : Option (Round κ β)) : r.toList.reverse = r.toList := by cases r <;> rfl
      rw [chronicle_concat, note, List.reverse_append, List.map_append, hone, List.map_reverse,
        List.map_reverse]
      congr 2
      split
      · exact map_leader_concludeLatest ..
      · rfl
    rw [play_concat, hled, hleaders]
    exact ih.append hsub

/-- What has become of all rounds and arrivals of a history. -/
structure Agreement (moves : List (Move κ β)) (rounds : List (Round κ β)) (m : Rendezvous κ β) :
    Prop where
  /-- At most one arrival leads. -/
  alone : ∀ a b, m.leads a = true → m.leads b = true → a = b
  /-- Whoever leads is the leader of the latest round, which nothing has come of so far, and all
  rounds before are over. -/
  leads : ∀ a members, m.stage? a = some (.leading members) ↔
    ∃ r ∈ rounds.head?, r.outcome = none ∧ r.leader = a ∧ r.members = members
  former : ∀ r ∈ rounds.tail, r.isOver = true
  began : ∀ r ∈ rounds, r.Began moves
  full : ∀ r ∈ rounds, ∀ s ∈ r.slots, s.2.isSome = true
  leader : ∀ r ∈ rounds, r.leader ∈ r.members
  led : m.led.Sublist (rounds.reverse.map Round.leader)
  /-- No arrival belongs to two rounds. -/
  once : (rounds.flatMap Round.members).Nodup
  comes : ∀ r ∈ rounds, ∀ outcome, r.outcome = some outcome → r.Comes moves outcome
  dropped : ∀ r ∈ rounds, m.stage? r.leader = some .dropped → r.outcome = some (.error .canceled)
  /-- The outcome of a round has been sent to all of its arrivals, and is there unless the arrival has
  been canceled or given up before. -/
  sent : ∀ r ∈ rounds, ∀ outcome, r.outcome = some outcome → ∀ a ∈ r.members,
    (∃ woken, m.stage? a = some (.waiting (.holds outcome) woken)) ∨
      m.stage? a = some (.ended outcome) ∨
      (m.isCanceled a = true ∧ m.stage? a = some (.ended (.error .canceled))) ∨
      m.stage? a = some .dropped
  /-- It has been sent to nobody else. -/
  received : ∀ a outcome woken, m.stage? a = some (.waiting (.holds outcome) woken) →
    ∃ r ∈ rounds, r.outcome = some outcome ∧ a ∈ r.members
  /-- A value that is returned is the one of the round that took the arrival, and its work started
  when the arrival had been made. -/
  returned : ∀ a value, m.stage? a = some (.ended (.ok value)) →
    ∃ r ∈ rounds, r.outcome = some (.ok value) ∧ a ∈ r.members ∧ a < r.begun
  /-- Without having been canceled an arrival returns nothing but the outcome of its round. -/
  faithful : ∀ r ∈ rounds, ∀ a ∈ r.members, m.isCanceled a = false →
    ∀ outcome, m.stage? a = some (.ended outcome) → r.outcome = some outcome
  count : m.rounds = (rounds.filter Round.isOver).length

/-- However the parties, their arrivals, the cancellations and the ends of the work follow each
other, they agree. -/
theorem agreement (moves : List (Move κ β)) :
    Agreement moves (chronicle moves) (play .empty moves) := by
  have h := coherent_play moves
  constructor
  case alone =>
    intro a b ha hb
    obtain ⟨k, c, round, ha⟩ := leads_iff.1 ha
    obtain ⟨j, d, round', hb⟩ := leads_iff.1 hb
    cases h.fate a _ ha with
    | leads hr ho hleader =>
      cases h.fate b _ hb with
      | leads hr' ho' hleader' => rw [hleader, hleader', h.eq_of_open hr ho hr' ho']
  case leads =>
    intro a members
    constructor
    · intro ha
      obtain ⟨r, hr, ho, hleader, hmembers⟩ := h.leader_of_leading ha
      obtain ⟨rest, heq⟩ := h.eq_cons_of_open hr ho
      exact ⟨r, by rw [heq]; rfl, ho, hleader, hmembers⟩
    · rintro ⟨r, hr, ho, rfl, rfl⟩
      exact (h.sound r (List.mem_of_mem_head? hr)).led ho
  case former => exact h.former
  case began => exact fun r hr => Round.began hr
  case full => exact fun r hr => (h.sound r hr).full
  case leader => exact fun r hr => (h.sound r hr).leader
  case led => exact led_play moves
  case once => exact h.once
  case comes => exact fun r hr outcome ho => Round.comes hr ho
  case dropped => exact fun r hr hd => Round.canceled_of_dropped hr hd
  case sent =>
    intro r hr outcome ho a hmem
    have hone {q : Round κ β} (hq : q ∈ chronicle moves) (ha : a ∈ q.members) : q = r :=
      h.eq_of_mem hq ha hr hmem
    obtain ⟨⟨k, c, stage⟩, ha⟩ := h.exists_arrival hr hmem
    rw [stage?, isCanceled, ha]
    cases h.fate a _ ha with
    | waits hs => exact absurd hmem (h.apart k a hs r hr)
    | called hq hqo hqa _ => cases ho.symm.trans (hone hq hqa ▸ hqo)
    | leads hq hqo hleader =>
      cases ho.symm.trans (hone hq (hleader ▸ (h.sound _ hq).leader) ▸ hqo)
    | holds hq hqo hqa =>
      cases ho.symm.trans (hone hq hqa ▸ hqo)
      exact .inl ⟨_, rfl⟩
    | took hq hqo hqa =>
      cases ho.symm.trans (hone hq hqa ▸ hqo)
      exact .inr (.inl rfl)
    | gaveUp => exact .inr (.inr (.inl ⟨rfl, rfl⟩))
    | closed _ hn => exact absurd (List.mem_flatMap.2 ⟨r, hr, hmem⟩) hn
    | denied _ hn => exact absurd (List.mem_flatMap.2 ⟨r, hr, hmem⟩) hn
    | dropped => exact .inr (.inr (.inr rfl))
  case received =>
    intro a outcome woken ha
    obtain ⟨k, c, ha⟩ := exists_of_stage? ha
    cases h.fate a _ ha with
    | holds hr ho hmem => exact ⟨_, hr, ho, hmem⟩
  case returned =>
    intro a value ha
    obtain ⟨k, c, ha⟩ := exists_of_stage? ha
    cases h.fate a _ ha with
    | took hr ho hmem => exact ⟨_, hr, ho, hmem, (h.sound _ hr).begun a hmem⟩
  case faithful =>
    intro r hr a hmem hc outcome ha
    obtain ⟨k, c, ha⟩ := exists_of_stage? ha
    cases h.fate a _ ha with
    | took hr' ho hmem' => exact h.eq_of_mem hr hmem hr' hmem' ▸ ho
    | gaveUp =>
      rw [isCanceled, ha] at hc
      cases hc
    | denied _ hn => exact absurd (List.mem_flatMap.2 ⟨r, hr, hmem⟩) hn
  case count => exact h.count

end BalancerSync.Rendezvous
