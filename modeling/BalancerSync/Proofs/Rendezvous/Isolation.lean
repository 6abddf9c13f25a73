import BalancerSync.Proofs.Rendezvous.Agreement

namespace BalancerSync.Rendezvous

variable {κ β : Type} {rounds rounds' : List (Round κ β)} {m m' : Rendezvous κ β} {k : κ} {a b : Nat}
  {c w : Bool} {outcome : Outcome β} {stage : Stage β} {round : List Nat} {left : Nat → Prop}
  {leaving : κ → Prop} {x y : Arrival κ β}

def Stage.IsLost (stage : Stage β) : Prop :=
  (∃ woken, stage = .waiting .closed woken) ∨ stage = .ended (.error .canceled)

theorem stage?_setStage_of_ne (h : a ≠ b) : (m.setStage a stage).stage? b = m.stage? b := by
  rw [stage?, getElem?_setStage, if_neg h, stage?]

theorem stage?_setStage_self : (m.setStage a stage).stage? a = (m.stage? a).map fun _ => stage := by
  rw [stage?, getElem?_setStage, if_pos rfl, stage?, Option.map_map, Option.map_map]
  rfl

theorem stage?_concat : stage? { m with arrivals := m.arrivals ++ [x] } b =
    if b = m.next then some x.stage else m.stage? b := by
  rw [stage?, stage?]
  dsimp only
  split
  next h =>
    rw [h, next, List.getElem?_concat_length]
    rfl
  next h =>
    rw [List.getElem?_append]
    split
    · rfl
    next hlt =>
      have hne : b - m.arrivals.length ≠ 0 := by
        have : b ≠ m.arrivals.length := h
        omega
      have hge : m.arrivals.length ≤ b := Nat.le_of_not_lt hlt
      rw [List.getElem?_singleton, if_neg hne, List.getElem?_eq_none hge]

theorem not_isLost_open : ¬ (.waiting .open w : Stage β).IsLost := by
  rintro (⟨_, h⟩ | h) <;> cases h

theorem not_isLost_leading : ¬ (.leading round : Stage β).IsLost := by
  rintro (⟨_, h⟩ | h) <;> cases h

theorem not_isLost_dropped : ¬ (.dropped : Stage β).IsLost := by
  rintro (⟨_, h⟩ | h) <;> cases h

theorem Arrival.isLost_of_wakened (h : x.wakened.stage.IsLost) : x.stage.IsLost := by
  obtain ⟨k, c, stage⟩ := x
  cases stage with
  | waiting mailbox woken =>
    rcases h with ⟨_, h⟩ | h
    · cases h
      exact .inl ⟨_, rfl⟩
    · cases h
  | _ => exact h

theorem Arrival.isLost_of_posted (h : (x.posted (.holds outcome)).stage.IsLost) : x.stage.IsLost := by
  obtain ⟨k, c, stage⟩ := x
  cases stage with
  | waiting mailbox woken =>
    cases mailbox with
    | «open» => rcases h with ⟨_, h⟩ | h <;> cases h
    | _ => exact h
  | _ => exact h

/-- The end of a round leaves only those without an outcome that were without one. -/
theorem exists_isLost_of_release (hb : (m.release round outcome).stage? b = some stage)
    (hs : stage.IsLost) : ∃ before, m.stage? b = some before ∧ before.IsLost := by
  rw [stage?, getElem?_release] at hb
  obtain ⟨y, hy, rfl⟩ := Option.map_eq_some_iff.1 hb
  obtain ⟨x, hx, rfl⟩ := Option.map_eq_some_iff.1 hy
  refine ⟨x.stage, stage?_eq hx, ?_⟩
  have hposted := Arrival.isLost_of_wakened hs
  split at hposted
  · exact Arrival.isLost_of_posted hposted
  · exact hposted

/-- An arrival was canceled while it belonged to a round, and a later arrival of the same party, which
did not belong to it, has lost the slot. -/
structure Displaced (rounds : List (Round κ β)) (m : Rendezvous κ β) (b a : Nat) : Prop where
  lt : b < a
  key : ∃ k c stage, m.arrivals[a]? = some ⟨k, c, stage⟩ ∧
    m.arrivals[b]? = some ⟨k, true, .ended (.error .canceled)⟩
  round : ∃ r ∈ rounds, b ∈ r.members ∧ a ∉ r.members

inductive Reason (left : Nat → Prop) (rounds : List (Round κ β)) (m : Rendezvous κ β) (a : Nat) :
    Prop
  | canceled (h : m.isCanceled a = true)
  | left (h : left a)
  | led {r : Round κ β} (hr : r ∈ rounds) (ha : a ∈ r.members)
      (ho : r.outcome = some (.error .canceled))
  | displaced {b : Nat} (h : Displaced rounds m b a)

def Continues (rounds rounds' : List (Round κ β)) : Prop :=
  ∀ r ∈ rounds, ∃ r' ∈ rounds', r'.members = r.members ∧
    ∀ outcome, r.outcome = some outcome → r'.outcome = some outcome

theorem Continues.refl (rounds : List (Round κ β)) : Continues rounds rounds :=
  fun r hr => ⟨r, hr, rfl, fun _ => id⟩

theorem Displaced.mono (h : Displaced rounds m b a) (hrounds : Continues rounds rounds')
    (hm : Evolves m m') : Displaced rounds' m' b a where
  lt := h.lt
  key := by
    obtain ⟨k, c, stage, ha, hb⟩ := h.key
    obtain ⟨⟨j, d, stage'⟩, ha', hbecomes⟩ := hm a _ ha
    obtain ⟨⟨i, e, stage''⟩, hb', hbecomes'⟩ := hm b _ hb
    obtain rfl : j = k := hbecomes.key
    obtain rfl : i = j := hbecomes'.key
    obtain rfl : e = true := hbecomes'.canceled rfl
    obtain rfl : stage'' = .ended (.error .canceled) := hbecomes'.ended _ rfl
    exact ⟨i, d, stage', ha', hb'⟩
  round := by
    obtain ⟨r, hr, hb, ha⟩ := h.round
    obtain ⟨r', hr', hmembers, -⟩ := hrounds r hr
    exact ⟨r', hr', hmembers ▸ hb, hmembers ▸ ha⟩

theorem Reason.mono (h : Reason left rounds m a) {left' : Nat → Prop} (hleft : ∀ a, left a → left' a)
    (hrounds : Continues rounds rounds') (hm : Evolves m m') : Reason left' rounds' m' a := by
  cases h with
  | canceled h => exact .canceled (hm.isCanceled h)
  | left h => exact .left (hleft a h)
  | led hr ha ho =>
    obtain ⟨r', hr', hmembers, hout⟩ := hrounds _ hr
    exact .led hr' (hmembers ▸ ha) (hout _ ho)
  | displaced h => exact .displaced (h.mono hrounds hm)

structure Reasoned (left : Nat → Prop) (rounds : List (Round κ β)) (m : Rendezvous κ β) : Prop where
  /-- Whoever fills a slot has come after the round that is being led began. -/
  late : ∀ r ∈ rounds, r.outcome = none → ∀ k a, (k, some a) ∈ m.slots → r.begun ≤ a
  reason : ∀ a stage, m.stage? a = some stage → stage.IsLost → Reason left rounds m a

theorem reasoned_empty : Reasoned left [] (empty : Rendezvous κ β) where
  late _ h := by cases h
  reason _ _ h := by cases h

theorem Reasoned.mono (h : Reasoned left rounds m) {left' : Nat → Prop} (hleft : ∀ a, left a → left' a) :
    Reasoned left' rounds m where
  late := h.late
  reason b stage hb hs := (h.reason b stage hb hs).mono hleft (.refl rounds) (.refl m)

variable [DecidableEq κ]

theorem Change.continues (hco : Coherent rounds m) (hc : Change leaving rounds m rounds' m') :
    Continues rounds rounds' := by
  cases hc with
  | claim => exact fun r hr => ⟨r, List.mem_cons_of_mem _ hr, rfl, fun _ => id⟩
  | conclude ha =>
    obtain ⟨q, hq, ho, -, -⟩ := hco.leader_of_leading ha
    obtain ⟨rest, rfl⟩ := hco.eq_cons_of_open hq ho
    intro r hr
    rcases List.mem_cons.1 hr with rfl | hr
    · refine ⟨_, List.mem_cons_self, rfl, fun outcome hout => ?_⟩
      cases ho.symm.trans hout
    · exact ⟨r, List.mem_cons_of_mem _ hr, rfl, fun _ => id⟩
  | _ => exact .refl rounds

namespace Reasoned

/-- Whoever fills a slot has come after the round that is being led began. -/
theorem late_change (h : Reasoned left rounds m) (hco : Coherent rounds m)
    (hc : Change leaving rounds m rounds' m') (r : Round κ β) (hr : r ∈ rounds') (ho : r.outcome = none)
    (k : κ) (a : Nat) (hk : (k, some a) ∈ m'.slots) : r.begun ≤ a := by
  cases hc with
  | register => exact h.late r hr ho k a (by simpa using hk)
  | leave _ hj =>
    rw [Rendezvous.leave, if_pos hj] at hk
    have hk := (List.mem_filter.1 hk).1
    rw [slots_closeSlot] at hk
    exact h.late r hr ho k a hk
  | enroll hj =>
    rcases (mem_slots_enroll hco.keys hj).1 hk with hk | ⟨-, rfl⟩
    · exact h.late r hr ho k a hk
    · exact (hco.sound r hr).begun_le
  | claim =>
    obtain ⟨s, -, heq⟩ := List.mem_map.1 hk
    cases heq
  | conclude =>
    rw [slots_release] at hk
    cases rounds with
    | nil => cases hr
    | cons q rest =>
      rcases List.mem_cons.1 hr with rfl | hr
      · cases ho
      · exact h.late r (List.mem_cons_of_mem _ hr) ho k a hk
  | giveUp ha =>
    rw [withdraw, setSlot] at hk
    obtain ⟨s, hs, heq⟩ := List.mem_map.1 hk
    rw [slots_closeSlot] at hs
    split at heq
    · cases heq
    · exact h.late r hr ho k a (heq ▸ hs)
  | _ => exact h.late r hr ho k a hk

/-- Whoever gives up while it belongs to a round displaces whoever fills its slot. -/
theorem displaced_giveUp (h : Reasoned left rounds m) (hco : Coherent rounds m)
    (ha : m.arrivals[a]? = some ⟨k, true, .waiting .open w⟩) (hk : m.slot? k = some (some b))
    (hab : a ≠ b) :
    Displaced rounds ((m.setStage a (.ended (.error .canceled))).withdraw k) a b := by
  have hslot := (slot?_eq_some_iff hco.keys).1 hk
  obtain ⟨c, stage, hb⟩ := hco.owner k b hslot
  cases hco.fate a _ ha with
  | waits hs =>
    obtain ⟨_, _, ha'⟩ := hco.owner _ a hs
    cases ha.symm.trans ha'
    have hself := (slot?_eq_some_iff hco.keys).2 hs
    rw [hk] at hself
    cases hself
    exact absurd rfl hab
  | called hr ho hmem _ =>
    refine ⟨Nat.lt_of_lt_of_le ((hco.sound _ hr).begun a hmem) (h.late _ hr ho k b hslot), ?_,
      _, hr, hmem, hco.apart k b hslot _ hr⟩
    have hget (i : Nat) : ((m.setStage a (.ended (.error .canceled))).withdraw k).arrivals[i]? =
        if m.slot? k = some (some i) then
          ((m.setStage a (.ended (.error .canceled))).arrivals[i]?).map (·.posted .closed)
        else (m.setStage a (.ended (.error .canceled))).arrivals[i]? := getElem?_closeSlot
    have hne : m.slot? k ≠ some (some a) := by
      rw [hk]
      rintro heq
      cases heq
      exact hab rfl
    have hb' : ((m.setStage a (.ended (.error .canceled))).withdraw k).arrivals[b]? =
        some (Arrival.posted .closed ⟨k, c, stage⟩) := by
      rw [hget, if_pos hk, getElem?_setStage, if_neg hab, hb]
      rfl
    obtain ⟨d, stage', hb''⟩ := exists_of_key hb' (Arrival.key_posted ..)
    refine ⟨k, d, stage', hb'', ?_⟩
    · rw [hget, if_neg hne, getElem?_setStage, if_pos rfl, ha]
      rfl

/-- An arrival that gets no outcome after a change got none before, or there is a new reason. -/
theorem reason_change (h : Reasoned left rounds m) (hco : Coherent rounds m) (hl : ∀ k, ¬ leaving k)
    (hc : Change leaving rounds m rounds' m') (hb : m'.stage? b = some stage) (hs : stage.IsLost) :
    Reason left rounds' m' b := by
  have hevolves := hc.evolves
  have hlost {stage : Stage β} (hm : m.stage? b = some stage) (hs : stage.IsLost) :
      Reason left rounds' m' b :=
    (h.reason b stage hm hs).mono (fun _ => id) (hc.continues hco) hevolves
  have hold (hsame : m'.stage? b = m.stage? b) : Reason left rounds' m' b := hlost (hsame ▸ hb) hs
  -- Most changes set the stage of one arrival, and only this one can be lost by that.
  have hset {a : Nat} {stage' stage'' : Stage β} (hm : (m.setStage a stage').stage? b = some stage'')
      (hs : stage''.IsLost) (hself : a = b → stage'.IsLost → Reason left rounds' m' b) :
      Reason left rounds' m' b := by
    by_cases hab : a = b
    · rw [← hab, stage?_setStage_self] at hm
      obtain ⟨_, -, rfl⟩ := Option.map_eq_some_iff.1 hm
      exact hself hab hs
    · exact hlost ((stage?_setStage_of_ne hab).symm.trans hm) hs
  cases hc with
  | register | start => exact hold rfl
  | leave hk => exact absurd hk (hl _)
  | refuse hd =>
    by_cases hb' : b = m.next
    · subst hb'
      rw [Rendezvous.refuse, stage?_concat, if_pos rfl] at hb
      cases hb
      rcases hs with ⟨_, hs⟩ | hs
      · cases hs
      · cases hs
        exact absurd rfl hd
    · exact hold (stage?_concat.trans (if_neg hb'))
  | enroll hk =>
    by_cases hb' : b = m.next
    · subst hb'
      rw [stage?, getElem?_enroll_next] at hb
      cases hb
      exact absurd hs not_isLost_open
    · exact hold (stage?_concat.trans (if_neg hb'))
  | claim ha => exact hset hb hs fun _ hlost => absurd hlost not_isLost_leading
  | conclude _ hstage =>
    obtain ⟨before, hbefore, hlost⟩ := exists_isLost_of_release hb hs
    refine hset hbefore hlost fun _ hlost => ?_
    rcases hstage with rfl | rfl
    · exact absurd hlost not_isLost_open
    · exact absurd hlost not_isLost_dropped
  | take ha =>
    refine hset hb hs ?_
    rintro rfl hout
    cases hco.fate _ _ ha with
    | holds hr ho hmem =>
      rcases hout with ⟨_, heq⟩ | heq
      · cases heq
      · cases heq
        exact .led hr hmem ho
  | lose ha =>
    refine hset hb hs ?_
    rintro rfl -
    exact hlost (stage?_eq ha) (.inl ⟨_, rfl⟩)
  | @giveUp a k w ha =>
    by_cases hab : a = b
    · subst hab
      exact .canceled (hevolves.isCanceled (by rw [isCanceled, ha]; rfl))
    by_cases hk : m.slot? k = some (some b)
    · exact .displaced (h.displaced_giveUp hco ha hk hab)
    · refine hold ?_
      have hk' : ¬ (m.setStage a (.ended (.error .canceled))).slot? k = some (some b) := hk
      change ((m.setStage a _).closeSlot k).stage? b = _
      rw [stage?, getElem?_closeSlot, if_neg hk']
      exact stage?_setStage_of_ne hab
  | rest ha => exact hset hb hs fun _ hlost => absurd hlost not_isLost_open
  | cancel => exact hold stage?_cancel
  | abandon ha => exact hset hb hs fun _ hlost => absurd hlost not_isLost_dropped

theorem change (h : Reasoned left rounds m) (hco : Coherent rounds m) (hl : ∀ k, ¬ leaving k)
    (hc : Change leaving rounds m rounds' m') : Reasoned left rounds' m' where
  late := h.late_change hco hc
  reason _ _ := h.reason_change hco hl hc

theorem changes (h : Reasoned left rounds m) (hco : Coherent rounds m) (hl : ∀ k, ¬ leaving k)
    (hc : Changes leaving rounds m rounds' m') : Reasoned left rounds' m' := by
  induction hc with
  | refl => exact h
  | tail hc hc' ih => exact (ih h hco).change (hco.changes hc) hl hc'

end Reasoned

def HasLeft (moves : List (Move κ β)) (a : Nat) : Prop :=
  ∃ past k c stage, past ++ [.leave k] <+: moves ∧
    (play .empty past : Rendezvous κ β).isRegistered k = true ∧
    (play .empty past : Rendezvous κ β).arrivals[a]? = some ⟨k, c, stage⟩

/-- An arrival is canceled on account of itself, its party, or the leader of its round. -/
inductive Denied (moves : List (Move κ β)) (a : Nat) : Prop
  | canceled (h : (play .empty moves : Rendezvous κ β).isCanceled a = true)
  | left (h : HasLeft moves a)
  | led {r : Round κ β} (hr : r ∈ chronicle moves) (ha : a ∈ r.members)
      (hl : (play .empty moves : Rendezvous κ β).isCanceled r.leader = true ∨
        (play .empty moves : Rendezvous κ β).stage? r.leader = some .dropped)

theorem HasLeft.mono {moves moves' : List (Move κ β)} (h : HasLeft moves a) (hm : moves <+: moves') :
    HasLeft moves' a := by
  obtain ⟨past, k, c, stage, hpast, hrest⟩ := h
  exact ⟨past, k, c, stage, hpast.trans hm, hrest⟩

namespace Reasoned

/-- A party that leaves takes its slot away, and nothing else. -/
theorem leave (h : Reasoned left rounds m) (hco : Coherent rounds m) (hk : m.isRegistered k = true)
    (hleft : ∀ c stage, m.arrivals[b]? = some ⟨k, c, stage⟩ → left b)
    (hb : (m.leave k).2.stage? b = some stage) (hs : stage.IsLost) :
    Reason left rounds (m.leave k).2 b := by
  have hevolves : Evolves m (m.leave k).2 :=
    Change.evolves (.leave trivial hk : Change (fun _ => True) rounds m rounds _)
  by_cases hslot : m.slot? k = some (some b)
  · obtain ⟨c, stage, hget⟩ := hco.owner k b ((slot?_eq_some_iff hco.keys).1 hslot)
    exact .left (hleft c stage hget)
  · have hget : (m.leave k).2.arrivals[b]? = (m.arrivals[b]?).map (·.wakened) := by
      rw [Rendezvous.leave, if_pos hk]
      dsimp only
      rw [getElem?_wakeAll]
      dsimp only
      rw [getElem?_closeSlot, if_neg hslot]
    rw [stage?, hget] at hb
    obtain ⟨y, hy, rfl⟩ := Option.map_eq_some_iff.1 hb
    obtain ⟨x, hx, rfl⟩ := Option.map_eq_some_iff.1 hy
    have hx' : m.stage? b = some x.stage := stage?_eq hx
    exact (h.reason b _ hx' (Arrival.isLost_of_wakened hs)).mono (fun _ => id) (.refl rounds) hevolves

end Reasoned

theorem reasoned_play (moves : List (Move κ β)) :
    Reasoned (HasLeft moves) (chronicle moves) (play .empty moves) := by
  induction moves using List.reverseRecOn with
  | nil => exact reasoned_empty
  | append_singleton moves move ih =>
    have hco := coherent_play moves
    have h := ih.mono fun a (ha : HasLeft moves a) => ha.mono (List.prefix_append moves [move])
    rw [chronicle_concat, play_concat]
    -- Leaving is the only move with a reason that is to be found in the history and not in the rounds.
    by_cases hm : ∃ k, move = .leave k
    · obtain ⟨k, rfl⟩ := hm
      by_cases hk : (play .empty moves : Rendezvous κ β).isRegistered k = true
      · have hc : Change (fun _ => True) (chronicle moves) (play .empty moves) (chronicle moves)
            ((play .empty moves : Rendezvous κ β).leave k).2 := .leave trivial hk
        exact ⟨h.late_change hco hc, fun b stage hb hs => h.leave hco hk
          (fun c stage hget => ⟨moves, k, c, stage, List.prefix_rfl, hk, hget⟩) hb hs⟩
      · have hsame : ((play .empty moves : Rendezvous κ β).leave k).2 = play .empty moves := by
          rw [Rendezvous.leave, if_neg hk]
        change Reasoned _ (chronicle moves) ((play .empty moves : Rendezvous κ β).leave k).2
        rw [hsame]
        exact h
    · exact h.changes hco (fun k hk => hm ⟨k, hk⟩) (hco.move_changes move)

/-- An arrival returns canceled on account of itself, its party or its leader, or else because an
earlier arrival of the same party has given up while it belonged to another round. -/
theorem denied_or_displaced {moves : List (Move κ β)}
    (ha : (play .empty moves : Rendezvous κ β).stage? a = some (.ended (.error .canceled))) :
    Denied moves a ∨ ∃ b, Displaced (chronicle moves) (play .empty moves) b a := by
  cases (reasoned_play moves).reason a _ ha (.inr rfl) with
  | canceled h => exact .inl (.canceled h)
  | left h => exact .inl (.left h)
  | led hr hmem ho =>
    refine .inl (.led hr hmem ?_)
    cases Round.comes hr ho with
    | canceled hc => exact .inl hc
    | dropped hd => exact .inr hd
  | displaced h => exact .inr ⟨_, h⟩

/-- While the second arrival leads, the third one fills the slot that the first one has filled before.
Then the first one is canceled. -/
def displacing : List (Move Nat Nat) :=
  [.register 0, .register 1, .arrive 0 false, .arrive 1 false, .arrive 0 false, .cancel 0, .step 0,
    .step 2]

theorem displaced_third : (play .empty displacing : Rendezvous Nat Nat).stage? 2 =
      some (.ended (.error .canceled)) ∧
    (Denied displacing 2 ∨ ∃ b, Displaced (chronicle displacing) (play .empty displacing) b 2) :=
  ⟨rfl, denied_or_displaced rfl⟩

/-- An arrival returns canceled although nothing has happened to itself, its party and its leader. -/
theorem not_denied_of_displaced : ¬ ∀ (moves : List (Move Nat Nat)) (a : Nat),
    (play .empty moves : Rendezvous Nat Nat).stage? a = some (.ended (.error .canceled)) →
      Denied moves a := by
  intro h
  cases h displacing 2 rfl with
  | canceled hc => cases hc
  | left hl =>
    obtain ⟨past, k, c, stage, hpast, -⟩ := hl
    have hmem : Move.leave k ∈ displacing := hpast.subset (by simp)
    simp [displacing] at hmem
  | led hr hmem _ =>
    have hrounds : chronicle displacing = [⟨1, [(0, some 0), (1, some 1)], 2, none⟩] := rfl
    rw [hrounds] at hr
    cases List.mem_singleton.1 hr
    simp [Round.members] at hmem

end BalancerSync.Rendezvous
