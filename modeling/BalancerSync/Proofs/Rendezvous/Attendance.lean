import BalancerSync.Proofs.Rendezvous.Frames
import BalancerSync.Proofs.Rendezvous.Isolation

namespace BalancerSync.Rendezvous

variable {κ β : Type} [DecidableEq κ] {leaving : κ → Prop} {rounds rounds' : List (Round κ β)}
  {m m' : Rendezvous κ β} {k : κ} {a : Nat} {moves moves' past : List (Move κ β)} {move : Move κ β}
  {c : Bool}

/-- A slot is filled only by an arrival that comes. -/
theorem Change.mem_slots (hco : Coherent rounds m) (hc : Change leaving rounds m rounds' m')
    (hk : (k, some a) ∈ m'.slots) : (k, some a) ∈ m.slots ∨ a = m.next := by
  cases hc with
  | register => exact .inl (by simpa using hk)
  | leave _ hj =>
    rw [Rendezvous.leave, if_pos hj] at hk
    have hk := (List.mem_filter.1 hk).1
    rw [slots_closeSlot] at hk
    exact .inl hk
  | enroll hj => exact ((mem_slots_enroll hco.keys hj).1 hk).imp_right And.right
  | claim =>
    obtain ⟨s, -, heq⟩ := List.mem_map.1 hk
    cases heq
  | conclude =>
    rw [slots_release] at hk
    exact .inl hk
  | giveUp ha =>
    rw [withdraw, setSlot] at hk
    obtain ⟨s, hs, heq⟩ := List.mem_map.1 hk
    rw [slots_closeSlot] at hs
    split at heq
    · cases heq
    · exact .inl (heq ▸ hs)
  | _ => exact .inl hk

omit [DecidableEq κ] in
theorem lt_next_iff : a < m.next ↔ ∃ x, m.arrivals[a]? = some x := by
  rw [next, ← Option.isSome_iff_exists, isSome_getElem?]

omit [DecidableEq κ] in
theorem Evolves.next_le (h : Evolves m m') : m.next ≤ m'.next := by
  refine Nat.le_of_not_lt fun hlt => ?_
  obtain ⟨x, hx⟩ := lt_next_iff.1 hlt
  obtain ⟨y, hy, -⟩ := h _ x hx
  exact absurd (lt_next_iff.2 ⟨y, hy⟩) (Nat.lt_irrefl _)

theorem Changes.mem_slots (hco : Coherent rounds m) (hc : Changes leaving rounds m rounds' m')
    (ha : a < m.next) (hk : (k, some a) ∈ m'.slots) : (k, some a) ∈ m.slots := by
  induction hc with
  | refl => exact hk
  | tail hc hc' ih =>
    rcases hc'.mem_slots (hco.changes hc) hk with hk | rfl
    · exact ih hco ha hk
    · exact absurd ha (Nat.not_lt.2 hc.evolves.next_le)

/-- Whoever has come by now and fills a slot later on fills it now. -/
theorem mem_slots_of_prefix (h : moves <+: moves') (ha : a < (play .empty moves : Rendezvous κ β).next)
    (hk : (k, some a) ∈ (play .empty moves' : Rendezvous κ β).slots) :
    (k, some a) ∈ (play .empty moves : Rendezvous κ β).slots := by
  obtain ⟨rest, rfl⟩ := h
  induction rest using List.reverseRecOn with
  | nil => rwa [List.append_nil] at hk
  | append_singleton rest move ih =>
    rw [← List.append_assoc, play_concat] at hk
    have hco := coherent_play (moves ++ rest)
    have hle := (evolves_play (List.prefix_append moves rest)).next_le
    exact ih ((hco.move_changes move).mem_slots hco (Nat.lt_of_lt_of_le ha hle) hk)

omit [DecidableEq κ] in
theorem stage?_eq_some_iff {stage : Stage β} :
    m.stage? a = some stage ↔ ∃ x, m.arrivals[a]? = some x ∧ x.stage = stage := Option.map_eq_some_iff

omit [DecidableEq κ] in
/-- Whoever has been given up had been so before, unless it has done something. -/
theorem stage?_dropped_of_drifts (h : Option.Rel Arrival.Drifts m.arrivals[a]? m'.arrivals[a]?)
    (hd : m'.stage? a = some .dropped) : m.stage? a = some .dropped := by
  obtain ⟨y, hy, hdropped⟩ := stage?_eq_some_iff.1 hd
  cases hx : m.arrivals[a]? with
  | none =>
    rw [hx, hy] at h
    cases h
  | some x =>
    obtain ⟨z, hz, hxz⟩ := exists_of_drifts (hx ▸ h)
    cases hy.symm.trans hz
    exact stage?_eq_some_iff.2 ⟨x, hx, not_not.1 fun hne => hxz.ne_dropped hne hdropped⟩

omit [DecidableEq κ] in
theorem Acts.stage?_dropped {b : Nat} (h : Acts b m m') (hb : m.stage? b = none → m' = m)
    (hd : m'.stage? a = some .dropped) : m.stage? a = some .dropped := by
  by_cases hab : a = b
  · subst hab
    cases hx : m.arrivals[a]? with
    | none => rwa [hb (by rw [stage?, hx]; rfl)] at hd
    | some x =>
      refine stage?_eq_some_iff.2 ⟨x, hx, not_not.1 fun hne => ?_⟩
      obtain ⟨y, hy, -, hne'⟩ := h.own x hx hne
      obtain ⟨z, hz, hdropped⟩ := stage?_eq_some_iff.1 hd
      cases hy.symm.trans hz
      exact hne' hdropped
  · exact stage?_dropped_of_drifts (h.others a hab) hd

theorem step_of_none (h : m.stage? a = none) : m.step a = m := by
  have hnone : m.arrivals[a]? = none := Option.map_eq_none_iff.1 h
  rw [Rendezvous.step, hnone, look, hnone]

theorem settle_of_none (h : m.stage? a = none) (outcome : Outcome β) : m.settle a outcome = m := by
  rw [settle, h]

omit [DecidableEq κ] in
theorem drop_of_none (h : m.stage? a = none) : m.drop a = m := by
  rw [drop, h]

omit [DecidableEq κ] in
theorem stage?_drop_of_ne {b : Nat} (hba : b ≠ a) (hd : (m.drop b).stage? a = some .dropped) :
    m.stage? a = some .dropped := by
  have hkeep : (m.setStage b .dropped).stage? a = m.stage? a := stage?_setStage_of_ne hba
  rw [drop] at hd
  split at hd
  next round _ => exact hkeep.symm.trans (stage?_dropped_of_drifts (Drift.release _ round _ a) hd)
  · exact hkeep.symm.trans hd
  · exact hd

theorem stage?_dropped_of_move (hm : move ≠ .drop a)
    (hd : (m.move move).stage? a = some .dropped) : m.stage? a = some .dropped := by
  cases move with
  | register j =>
    change (m.register j).2.stage? a = _ at hd
    rw [register] at hd
    split at hd <;> exact hd
  | leave j => exact stage?_dropped_of_drifts (Drift.leave m j a) hd
  | arrive j c =>
    by_cases ha : a = m.next
    · subst ha
      obtain ⟨y, hy, -, hne⟩ := exists_arrive m j c
      obtain ⟨z, hz, hdropped⟩ := stage?_eq_some_iff.1 hd
      cases hy.symm.trans hz
      exact absurd hdropped hne
    · exact stage?_dropped_of_drifts ((Acts.arrive m j c).others a ha) hd
  | step b => exact (Acts.step m b).stage?_dropped step_of_none hd
  | finish b value => exact (Acts.settle m b _).stage?_dropped (settle_of_none · _) hd
  | cancel b => exact stage?_dropped_of_drifts (Drift.cancel m b a) hd
  | drop b => exact stage?_drop_of_ne (fun h => hm (h ▸ rfl)) hd

/-- Whoever has been given up was there until then. -/
theorem exists_drop (hd : (play .empty moves : Rendezvous κ β).stage? a = some .dropped) :
    ∃ past, past ++ [.drop a] <+: moves ∧ a < (play .empty past : Rendezvous κ β).next ∧
      (play .empty past : Rendezvous κ β).stage? a ≠ some .dropped := by
  induction moves using List.reverseRecOn with
  | nil => cases hd
  | append_singleton moves move ih =>
    rw [play_concat] at hd
    by_cases hbefore : (play .empty moves : Rendezvous κ β).stage? a = some .dropped
    · obtain ⟨past, hpast, hrest⟩ := ih hbefore
      exact ⟨past, hpast.trans (List.prefix_append ..), hrest⟩
    · obtain rfl : move = .drop a := not_not.1 fun hm => hbefore (stage?_dropped_of_move hm hd)
      refine ⟨moves, List.prefix_rfl, Nat.lt_of_not_le fun hle => hbefore ?_, hbefore⟩
      have hnone : (play .empty moves : Rendezvous κ β).stage? a = none :=
        Option.map_eq_none_iff.2 (List.getElem?_eq_none hle)
      exact (congrArg (·.stage? a) (drop_of_none hnone)).symm.trans hd

/-- An arrival of the party waits for a round, or it was given up while it did and filled the slot. -/
inductive Attends (moves : List (Move κ β)) (k : κ) (a : Nat) : Prop
  | live {c w : Bool}
      (h : (play .empty moves : Rendezvous κ β).arrivals[a]? = some ⟨k, c, .waiting .open w⟩)
  | abandoned {past : List (Move κ β)} {c w : Bool} (hm : past ++ [.drop a] <+: moves)
      (hk : (k, some a) ∈ (play .empty past : Rendezvous κ β).slots)
      (h : (play .empty past : Rendezvous κ β).arrivals[a]? = some ⟨k, c, .waiting .open w⟩)

theorem attends_of_mem_slots (hk : (k, some a) ∈ (play .empty moves : Rendezvous κ β).slots) :
    Attends moves k a := by
  rcases (coherent_play moves).waits_of_slot hk with ⟨c, w, ha⟩ | ⟨c, ha⟩
  · exact .live ha
  · obtain ⟨past, hpast, hlt, hne⟩ := exists_drop (stage?_eq ha)
    have hbefore : (k, some a) ∈ (play .empty past : Rendezvous κ β).slots :=
      mem_slots_of_prefix ((List.prefix_append ..).trans hpast) hlt hk
    rcases (coherent_play past).waits_of_slot hbefore with ⟨d, w, hw⟩ | ⟨d, hd⟩
    · exact .abandoned hpast hbefore hw
    · exact absurd (stage?_eq hd) hne

theorem stage?_tryLead_ne (hco : Coherent rounds m)
    (ha : m.arrivals[a]? = some ⟨k, c, .waiting .open true⟩) :
    (m.tryLead a).stage? a ≠ some (.ended (.error .alreadyWaiting)) := by
  intro h
  rw [tryLead] at h
  cases hround : m.complete? with
  | none =>
    rw [hround, look, ha] at h
    dsimp only at h
    split at h
    · rw [withdraw_setStage, stage?_setStage_self] at h
      obtain ⟨_, -, heq⟩ := Option.map_eq_some_iff.1 h
      cases heq
    · cases (stage?_setStage ha).symm.trans h
  | some round =>
    rw [hround] at h
    dsimp only at h
    have hclaim : Change (fun _ => False) rounds m _ (m.claim a round) := .claim ha hround
    have hleading : (m.claim a round).stage? a = some (.leading round) :=
      stage?_eq (getElem?_claim round ha)
    rw [lead_eq] at h
    split at h
    · cases ((hco.change hclaim).stage?_settle hleading _).symm.trans h
    · cases hleading.symm.trans h

/-- A party that is registered is refused exactly as long as its slot is filled. -/
theorem refused_iff (hco : Coherent rounds m) :
    (m.arrive k c).stage? m.next = some (.ended (.error .alreadyWaiting)) ↔
      ∃ a, (k, some a) ∈ m.slots := by
  have hlast (denial : Denial) :
      stage? { m with arrivals := m.arrivals ++ [⟨k, c, .ended (.error denial)⟩] } m.next =
        some (.ended (.error denial)) := stage?_concat.trans (if_pos rfl)
  constructor
  · intro h
    cases hk : m.slot? k with
    | none =>
      rw [arrive, hk] at h
      cases (hlast .unregistered).symm.trans h
    | some filler =>
      cases filler with
      | some a => exact ⟨a, (slot?_eq_some_iff hco.keys).1 hk⟩
      | none =>
        have henroll : Change (fun _ => False) rounds m rounds (m.enroll k c) := .enroll hk
        rw [arrive_eq hk] at h
        exact absurd h (stage?_tryLead_ne (hco.change henroll) getElem?_enroll_next)
  · rintro ⟨a, ha⟩
    rw [arrive, (slot?_eq_some_iff hco.keys).2 ha]
    exact hlast .alreadyWaiting

/-- Who is there for the next round, and who was there for every round that has begun. -/
structure Attendance (moves : List (Move κ β)) : Prop where
  filled : ∀ k a, (k, some a) ∈ (play .empty moves : Rendezvous κ β).slots → Attends moves k a
  /-- Whoever a round has taken attended when the round began, or came just then and led it. -/
  taken : ∀ r ∈ chronicle moves, ∃ past move m, past ++ [move] <+: moves ∧
    (play .empty past : Rendezvous κ β).attempt? move = some (r.leader, m) ∧ m.slots = r.slots ∧
    ∀ k a, (k, some a) ∈ r.slots → Attends past k a ∨
      (a = r.leader ∧ ∃ c, m.arrivals[a]? = some ⟨k, c, .waiting .open true⟩)
  /-- A party that is registered is refused on account of whoever attends for it, and only then. -/
  refused : ∀ k c, ((play .empty moves : Rendezvous κ β).arrive k c).stage? (play .empty moves).next =
      some (.ended (.error .alreadyWaiting)) ↔ ∃ a,
    (k, some a) ∈ (play .empty moves : Rendezvous κ β).slots ∧ Attends moves k a

theorem attendance (moves : List (Move κ β)) : Attendance moves where
  filled _ _ := attends_of_mem_slots
  taken r hr := by
    obtain ⟨past, move, m, hpast, hattempt, -, hslots, -⟩ := Round.began hr
    refine ⟨past, move, m, hpast, hattempt, hslots, fun k a hk => ?_⟩
    rw [← hslots] at hk
    cases move with
    | arrive j c =>
      rw [attempt?] at hattempt
      split at hattempt
      next hj =>
        obtain ⟨hleader, rfl⟩ := Prod.mk.inj (Option.some.inj hattempt)
        rcases (mem_slots_enroll (coherent_play past).keys hj).1 hk with hk | ⟨rfl, rfl⟩
        · exact .inl (attends_of_mem_slots hk)
        · exact .inr ⟨hleader, c, getElem?_enroll_next⟩
      next => cases hattempt
    | step b =>
      rw [attempt?] at hattempt
      split at hattempt
      · obtain ⟨-, rfl⟩ := Prod.mk.inj (Option.some.inj hattempt)
        exact .inl (attends_of_mem_slots hk)
      · cases hattempt
    | register | leave | finish | cancel | drop => cases hattempt
  refused _ _ := (refused_iff (coherent_play moves)).trans
    (exists_congr fun _ => (and_iff_left_of_imp attends_of_mem_slots).symm)

def abandoning : List (Move Nat Nat) :=
  [.register 0, .register 1, .arrive 0 false, .drop 0]

/-- A slot is filled by an arrival that has been given up. -/
theorem not_live_of_abandoned : ¬ ∀ (moves : List (Move Nat Nat)) (k a : Nat),
    (k, some a) ∈ (play .empty moves : Rendezvous Nat Nat).slots →
      ∃ c w, (play .empty moves : Rendezvous Nat Nat).arrivals[a]? = some ⟨k, c, .waiting .open w⟩ := by
  intro h
  obtain ⟨c, w, ha⟩ := h abandoning 0 0 (by decide)
  cases ha

end BalancerSync.Rendezvous
