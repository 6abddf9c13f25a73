import BalancerSync.Proofs.Rendezvous.Coherence

namespace BalancerSync.Rendezvous

variable {κ β : Type} {rounds rounds' : List (Round κ β)} {m m' : Rendezvous κ β}
  {slots slots' : List (κ × Option Nat)} {k j : κ} {a b : Nat} {c w : Bool} {outcome : Outcome β}
  {stage stage' : Stage β} {r : Round κ β} {arrival : Arrival κ β} {round : List Nat}

theorem getElem?_cancel : (m.cancel a).arrivals[b]? =
    if a = b then (m.arrivals[b]?).map fun arrival => { arrival with canceled := true }
    else m.arrivals[b]? :=
  getElem?_modify_ite ..

theorem stage?_cancel : (m.cancel a).stage? b = m.stage? b := by
  rw [stage?, getElem?_cancel, stage?]
  split
  · rw [Option.map_map]
    rfl
  · rfl

inductive Stage.Same : Stage β → Stage β → Prop
  | refl (stage : Stage β) : Same stage stage
  | woken (mailbox : Mailbox β) (w w' : Bool) : Same (.waiting mailbox w) (.waiting mailbox w')

/-- Neither a wakeup nor a cancellation makes a difference to what an arrival has come to. -/
theorem Fate.same {c' : Bool} (h : Fate rounds slots a ⟨k, c, stage⟩) (hstage : stage.Same stage')
    (hc : c = true → c' = true) (hs : ∀ k, (k, some a) ∈ slots' ↔ (k, some a) ∈ slots) :
    Fate rounds slots' a ⟨k, c', stage'⟩ := by
  have hnot (hn : some a ∉ slots.map (·.2)) : some a ∉ slots'.map (·.2) := by
    rw [mem_map_snd_iff] at hn ⊢
    rintro ⟨k, hk⟩
    exact hn ⟨k, (hs k).1 hk⟩
  cases h with
  | waits h => cases hstage <;> exact .waits ((hs _).2 h)
  | called hr ho ha hne => cases hstage <;> exact .called hr ho ha hne
  | holds hr ho ha => cases hstage <;> exact .holds hr ho ha
  | closed hn hr => cases hstage <;> exact .closed (hnot hn) hr
  | leads hr ho ha =>
    cases hstage
    exact .leads hr ho ha
  | took hr ho ha =>
    cases hstage
    exact .took hr ho ha
  | gaveUp hn =>
    cases hstage
    cases hc rfl
    exact .gaveUp (hnot hn)
  | denied hn hr =>
    cases hstage
    exact .denied (hnot hn) hr
  | dropped =>
    cases hstage
    exact .dropped

theorem Fate.of_slots (h : Fate rounds slots a arrival)
    (hs : ∀ k, (k, some a) ∈ slots' ↔ (k, some a) ∈ slots) : Fate rounds slots' a arrival :=
  h.same (.refl _) id hs

theorem Fate.wakened (h : Fate rounds slots a arrival) : Fate rounds slots a arrival.wakened := by
  obtain ⟨k, c, stage⟩ := arrival
  cases stage with
  | waiting mailbox w => exact h.same (.woken mailbox w true) id fun _ => Iff.rfl
  | _ => exact h

theorem Fate.canceled (h : Fate rounds slots a arrival) :
    Fate rounds slots a { arrival with canceled := true } :=
  h.same (.refl _) (fun _ => rfl) fun _ => Iff.rfl

namespace Coherent

/-- Nothing has changed but arrivals, and they are where they were. -/
theorem of_arrivals (h : Coherent rounds m) (hslots : m'.slots = m.slots)
    (hleading : m'.leading = m.leading) (hcount : m'.rounds = m.rounds) (hlen : m.next ≤ m'.next)
    (hkey : ∀ (b : Nat) (x : Arrival κ β), m.arrivals[b]? = some x →
      ∃ c stage, m'.arrivals[b]? = some ⟨x.key, c, stage⟩)
    (hled : ∀ b round, m.stage? b = some (.leading round) → m'.stage? b = some (.leading round))
    (hfate : ∀ (b : Nat) (x : Arrival κ β), m'.arrivals[b]? = some x → Fate rounds m.slots b x) :
    Coherent rounds m' where
  keys := hslots ▸ h.keys
  owner j b hj := by
    rw [hslots] at hj
    obtain ⟨c, stage, hb⟩ := h.owner j b hj
    exact hkey b _ hb
  apart := hslots ▸ h.apart
  once := h.once
  fate b x hb := hslots ▸ hfate b x hb
  sound r hr := (h.sound r hr).mono hlen fun ho => hled _ _ ((h.sound r hr).led ho)
  former := h.former
  leading := hleading ▸ h.leading
  count := hcount ▸ h.count

theorem setStage (h : Coherent rounds m) (ha : m.arrivals[a]? = some ⟨k, c, stage⟩)
    (hnot : ∀ round, stage ≠ .leading round) (hf : Fate rounds m.slots a ⟨k, c, stage'⟩) :
    Coherent rounds (m.setStage a stage') := by
  have hget (b : Nat) (x : Arrival κ β) (hb : m.arrivals[b]? = some x) :
      (m.setStage a stage').arrivals[b]? = some (if a = b then ⟨k, c, stage'⟩ else x) := by
    rw [getElem?_setStage, hb]
    split
    next hab =>
      subst hab
      cases ha.symm.trans hb
      rfl
    next => rfl
  refine h.of_arrivals rfl rfl rfl ?_ (fun b x hb => ?_) (fun b round hb => ?_) (fun b x hb => ?_)
  · exact Nat.le_of_eq (List.length_modify ..).symm
  · rw [hget b x hb]
    split
    next hab =>
      subst hab
      cases ha.symm.trans hb
      exact ⟨c, stage', rfl⟩
    next => exact ⟨x.canceled, x.stage, rfl⟩
  · obtain ⟨x, hx, hstage⟩ := Option.map_eq_some_iff.1 hb
    have hne : a ≠ b := by
      rintro rfl
      cases ha.symm.trans hx
      exact hnot round hstage
    rw [stage?, hget b x hx, if_neg hne]
    exact congrArg some hstage
  · cases hm : m.arrivals[b]? with
    | none =>
      rw [getElem?_setStage, hm] at hb
      split at hb <;> cases hb
    | some y =>
      rw [hget b y hm] at hb
      cases hb
      split
      next hab => exact hab ▸ hf
      next => exact h.fate b y hm

theorem wakeAll (h : Coherent rounds m) : Coherent rounds m.wakeAll := by
  refine h.of_arrivals rfl rfl rfl ?_ (fun b x hb => ?_) (fun b round hb => ?_) (fun b x hb => ?_)
  · exact Nat.le_of_eq (List.length_map ..).symm
  · rw [getElem?_wakeAll, hb]
    exact ⟨_, _, congrArg some (congrArg (Arrival.mk · _ _) x.key_wakened)⟩
  · obtain ⟨key, canceled, hx⟩ := exists_of_stage? hb
    rw [stage?, getElem?_wakeAll, hx]
    rfl
  · rw [getElem?_wakeAll] at hb
    obtain ⟨y, hy, rfl⟩ := Option.map_eq_some_iff.1 hb
    exact (h.fate b y hy).wakened

theorem cancel (h : Coherent rounds m) (a : Nat) : Coherent rounds (m.cancel a) := by
  refine h.of_arrivals rfl rfl rfl ?_ (fun b x hb => ?_) (fun b round hb => ?_) (fun b x hb => ?_)
  · exact Nat.le_of_eq (List.length_modify ..).symm
  · rw [getElem?_cancel, hb]
    split <;> exact ⟨_, _, rfl⟩
  · exact stage?_cancel.trans hb
  · rw [getElem?_cancel] at hb
    split at hb
    · obtain ⟨y, hy, rfl⟩ := Option.map_eq_some_iff.1 hb
      exact (h.fate b y hy).canceled
    · exact h.fate b x hb

theorem refuse [DecidableEq κ] (h : Coherent rounds m) (k : κ) (c : Bool) (denial : Denial) :
    Coherent rounds (m.refuse k c denial) := by
  have hold (b : Nat) (x : Arrival κ β) (hb : m.arrivals[b]? = some x) :
      (m.refuse k c denial).arrivals[b]? = some x :=
    (List.getElem?_append_left (List.getElem?_eq_some_iff.1 hb).1).trans hb
  refine h.of_arrivals rfl rfl rfl ?_ (fun b x hb => ?_) (fun b round hb => ?_) (fun b x hb => ?_)
  · simp [next, Rendezvous.refuse]
  · exact ⟨_, _, hold b x hb⟩
  · obtain ⟨x, hx, hstage⟩ := Option.map_eq_some_iff.1 hb
    rw [stage?, hold b x hx]
    exact congrArg some hstage
  · cases hm : m.arrivals[b]? with
    | some y =>
      cases (hold b y hm).symm.trans hb
      exact h.fate b x hm
    | none =>
      have hle : m.next ≤ b := List.getElem?_eq_none_iff.1 hm
      have hx : x = ⟨k, c, .ended (.error denial)⟩ := by
        rw [Rendezvous.refuse, List.getElem?_append_right hle, List.getElem?_singleton] at hb
        split at hb <;> cases hb
        rfl
      subst hx
      refine .denied (fun hs => ?_) fun hr => ?_
      · obtain ⟨j, hj⟩ := mem_map_snd_iff.1 hs
        obtain ⟨c, stage, hb⟩ := h.owner j b hj
        cases hm.symm.trans hb
      · obtain ⟨r, hr, hb⟩ := List.mem_flatMap.1 hr
        obtain ⟨y, hy⟩ := h.exists_arrival hr hb
        cases hm.symm.trans hy

/-- The same arrivals fill the slots of the same parties. -/
theorem of_slots (h : Coherent rounds m) (hkeys : (slots.map (·.1)).Nodup)
    (hmem : ∀ k a, (k, some a) ∈ slots ↔ (k, some a) ∈ m.slots) :
    Coherent rounds { m with slots } where
  keys := hkeys
  owner k a hk := h.owner k a ((hmem k a).1 hk)
  apart k a hk := h.apart k a ((hmem k a).1 hk)
  once := h.once
  fate b x hb := (h.fate b x hb).of_slots fun k => hmem k b
  sound r hr := (h.sound r hr).mono (Nat.le_refl _) (h.sound r hr).led
  former := h.former
  leading := h.leading
  count := h.count

theorem register [DecidableEq κ] (h : Coherent rounds m) (hk : m.isRegistered k = false) :
    Coherent rounds { m with slots := m.slots ++ [(k, none)] } := by
  have hnot : k ∉ m.slots.map (·.1) := by
    intro hmem
    obtain ⟨s, hs, rfl⟩ := List.mem_map.1 hmem
    rw [isRegistered, List.any_eq_false] at hk
    simpa using hk s hs
  refine h.of_slots ?_ fun j b => by simp
  rw [List.map_append, List.nodup_append]
  refine ⟨h.keys, by simp, fun j hj j' hj' => ?_⟩
  obtain rfl : j' = k := by simpa using hj'
  exact fun heq => hnot (heq ▸ hj)

end Coherent

section

variable [DecidableEq κ]

theorem getElem?_enroll_of_some (hb : m.arrivals[b]? = some arrival) :
    (m.enroll k c).arrivals[b]? = some arrival :=
  (List.getElem?_append_left (List.getElem?_eq_some_iff.1 hb).1).trans hb

theorem getElem?_enroll_next : (m.enroll k c).arrivals[m.next]? = some ⟨k, c, .waiting .open true⟩ :=
  List.getElem?_concat_length

theorem next_enroll : (m.enroll k c).next = m.next + 1 := List.length_append

omit [DecidableEq κ] in
theorem ne_next_of_some (hb : m.arrivals[b]? = some arrival) : b ≠ m.next :=
  Nat.ne_of_lt (List.getElem?_eq_some_iff.1 hb).1

theorem mem_slots_enroll (h : (m.slots.map (·.1)).Nodup) (hk : m.slot? k = some none) :
    (j, some b) ∈ (m.enroll k c).slots ↔ (j, some b) ∈ m.slots ∨ (j = k ∧ b = m.next) := by
  have hk := (slot?_eq_some_iff h).1 hk
  change (j, some b) ∈ m.slots.map _ ↔ _
  rw [List.mem_map]
  constructor
  · rintro ⟨s, hs, heq⟩
    split at heq
    next hsk =>
      cases heq
      exact .inr ⟨hsk, rfl⟩
    next => exact .inl (heq ▸ hs)
  · rintro (hs | ⟨rfl, rfl⟩)
    · refine ⟨_, hs, if_neg ?_⟩
      rintro rfl
      cases (slot?_eq_some_iff h).2 hs ▸ (slot?_eq_some_iff h).2 hk
    · exact ⟨_, hk, if_pos rfl⟩

theorem map_fst_setSlot (m : Rendezvous κ β) (k : κ) (filler : Option Nat) :
    (m.setSlot k filler).slots.map (·.1) = m.slots.map (·.1) := by
  rw [setSlot, List.map_map]
  refine List.map_congr_left fun s _ => ?_
  dsimp only [Function.comp_apply]
  split <;> rfl

theorem Coherent.enroll (h : Coherent rounds m) (hk : m.slot? k = some none) (c : Bool) :
    Coherent rounds (m.enroll k c) := by
  have hmem (j : κ) (b : Nat) := mem_slots_enroll (j := j) (b := b) (c := c) h.keys hk
  have hkeys : (m.enroll k c).slots.map (·.1) = m.slots.map (·.1) := map_fst_setSlot ..
  refine ⟨hkeys ▸ h.keys, fun j b hj => ?_, fun j b hj r hr hb => ?_, h.once, fun b x hb => ?_,
    fun r hr => ?_, h.former, h.leading, h.count⟩
  · rcases (hmem j b).1 hj with hj | ⟨rfl, rfl⟩
    · obtain ⟨c, stage, hb⟩ := h.owner j b hj
      exact ⟨c, stage, getElem?_enroll_of_some hb⟩
    · exact ⟨c, _, getElem?_enroll_next⟩
  · rcases (hmem j b).1 hj with hj | ⟨rfl, rfl⟩
    · exact h.apart j b hj r hr hb
    · obtain ⟨x, hx⟩ := h.exists_arrival hr hb
      exact ne_next_of_some hx rfl
  · cases hm : m.arrivals[b]? with
    | some y =>
      cases (getElem?_enroll_of_some hm).symm.trans hb
      exact (h.fate b x hm).of_slots fun j =>
        (hmem j b).trans (or_iff_left fun h => ne_next_of_some hm h.2)
    | none =>
      have hle : m.next ≤ b := List.getElem?_eq_none_iff.1 hm
      have hlt : b < (m.enroll k c).next := (List.getElem?_eq_some_iff.1 hb).1
      rw [next_enroll] at hlt
      obtain rfl : b = m.next := by omega
      cases getElem?_enroll_next.symm.trans hb
      exact .waits ((hmem k _).2 (.inr ⟨rfl, rfl⟩))
  · have hlen : m.next ≤ (m.enroll k c).next := by
      rw [next_enroll]
      exact Nat.le_succ _
    refine (h.sound r hr).mono hlen fun ho => ?_
    obtain ⟨x, hx, hstage⟩ := Option.map_eq_some_iff.1 ((h.sound r hr).led ho)
    rw [stage?, getElem?_enroll_of_some hx]
    exact congrArg some hstage

end

section

variable [DecidableEq κ]

theorem slots_closeSlot : (m.closeSlot k).slots = m.slots := by
  rw [closeSlot]
  split <;> rfl

theorem leading_closeSlot : (m.closeSlot k).leading = m.leading := by
  rw [closeSlot]
  split <;> rfl

theorem rounds_closeSlot : (m.closeSlot k).rounds = m.rounds := by
  rw [closeSlot]
  split <;> rfl

theorem next_closeSlot : (m.closeSlot k).next = m.next := by
  rw [closeSlot]
  split
  · exact List.length_modify ..
  · rfl

theorem getElem?_closeSlot : (m.closeSlot k).arrivals[b]? =
    if m.slot? k = some (some b) then (m.arrivals[b]?).map (·.posted .closed)
    else m.arrivals[b]? := by
  rw [closeSlot]
  split
  next a ha =>
    rw [ha, post_eq]
    dsimp only
    rw [getElem?_modify_ite]
    simp
  next hnot => rw [if_neg fun heq => hnot b heq]

/-- Whoever filled a slot that is taken away waits in vain. -/
theorem Coherent.closeSlot (h : Coherent rounds m) (hkeys : (slots.map (·.1)).Nodup)
    (hmem : ∀ j b, (j, some b) ∈ slots ↔ (j, some b) ∈ m.slots ∧ j ≠ k) :
    Coherent rounds { m.closeSlot k with slots } where
  keys := hkeys
  owner j b hj := by
    obtain ⟨c, stage, hb⟩ := h.owner j b ((hmem j b).1 hj).1
    dsimp only
    rw [getElem?_closeSlot, hb]
    split
    · exact ⟨_, _, congrArg some (congrArg (Arrival.mk · _ _) (Arrival.key_posted ..))⟩
    · exact ⟨c, stage, rfl⟩
  apart j b hj := h.apart j b ((hmem j b).1 hj).1
  once := h.once
  fate b x hb := by
    dsimp only at hb ⊢
    rw [getElem?_closeSlot] at hb
    split at hb
    next hk =>
      have hk := (slot?_eq_some_iff h.keys).1 hk
      have hnot : some b ∉ slots.map (·.2) := by
        intro hs
        obtain ⟨j, hj⟩ := mem_map_snd_iff.1 hs
        obtain ⟨hj, hjk⟩ := (hmem j b).1 hj
        obtain ⟨_, _, hb⟩ := h.owner j b hj
        obtain ⟨_, _, hb'⟩ := h.owner k b hk
        cases hb.symm.trans hb'
        exact hjk rfl
      obtain ⟨y, hy, rfl⟩ := Option.map_eq_some_iff.1 hb
      rcases h.waits_of_slot hk with ⟨c, w, hw⟩ | ⟨c, hd⟩
      · cases hy.symm.trans hw
        refine .closed hnot fun hr => ?_
        obtain ⟨r, hr, hb⟩ := List.mem_flatMap.1 hr
        exact h.apart k b hk r hr hb
      · cases hy.symm.trans hd
        exact .dropped
    next hk =>
      refine (h.fate b x hb).of_slots fun j => (hmem j b).trans (and_iff_left_of_imp fun hj => ?_)
      rintro rfl
      exact hk ((slot?_eq_some_iff h.keys).2 hj)
  sound r hr := by
    have hs := h.sound r hr
    refine hs.mono (Nat.le_of_eq next_closeSlot.symm) fun ho => ?_
    have hne : m.slot? k ≠ some (some r.leader) := fun hk =>
      h.apart k _ ((slot?_eq_some_iff h.keys).1 hk) r hr hs.leader
    rw [stage?]
    dsimp only
    rw [getElem?_closeSlot, if_neg hne]
    exact hs.led ho
  former := h.former
  leading := by
    dsimp only
    rw [leading_closeSlot]
    exact h.leading
  count := rounds_closeSlot.trans h.count

theorem Coherent.leave (h : Coherent rounds m) (hk : m.isRegistered k = true) :
    Coherent rounds (m.leave k).2 := by
  rw [Rendezvous.leave, if_pos hk]
  dsimp only
  rw [slots_closeSlot]
  refine (h.closeSlot ?_ fun j b => ?_).wakeAll
  · exact h.keys.sublist (List.filter_sublist.map _)
  · simp

theorem Coherent.withdraw (h : Coherent rounds m) (k : κ) : Coherent rounds (m.withdraw k) := by
  rw [Rendezvous.withdraw, setSlot, slots_closeSlot]
  refine h.closeSlot ?_ fun j b => ?_
  · exact map_fst_setSlot m k none ▸ h.keys
  · rw [List.mem_map]
    constructor
    · rintro ⟨s, hs, heq⟩
      split at heq
      · cases heq
      next hsk =>
        subst heq
        exact ⟨hs, hsk⟩
    · rintro ⟨hj, hjk⟩
      exact ⟨_, hj, if_neg hjk⟩

/-- What an arrival that ends does to its slot and to itself can be done in any order. -/
theorem withdraw_setStage : (m.setStage a (.ended outcome)).withdraw k =
    (m.withdraw k).setStage a (.ended outcome) := by
  have hclose : (m.setStage a (.ended outcome)).closeSlot k =
      (m.closeSlot k).setStage a (.ended outcome) := by
    have hslot : (m.setStage a (.ended outcome)).slot? k = m.slot? k := rfl
    rw [Rendezvous.closeSlot, Rendezvous.closeSlot, hslot]
    split
    next b hb =>
      rw [post_eq, post_eq, Rendezvous.setStage, Rendezvous.setStage]
      dsimp only
      congr 1
      refine List.ext_getElem? fun i => ?_
      simp only [getElem?_modify_ite]
      by_cases ha : a = i <;> by_cases hb : b = i <;> simp only [ha, hb, if_true, if_false]
      cases m.arrivals[i]? with
      | none => rfl
      | some x =>
        obtain ⟨key, canceled, stage⟩ := x
        cases stage with
        | waiting mailbox woken => cases mailbox <;> rfl
        | _ => rfl
    · rfl
  rw [Rendezvous.withdraw, hclose]
  rfl

theorem Coherent.giveUp (h : Coherent rounds m) (ha : m.arrivals[a]? = some ⟨k, true, .waiting .open w⟩) :
    Coherent rounds ((m.setStage a (.ended (.error .canceled))).withdraw k) := by
  rw [withdraw_setStage]
  have h' := h.withdraw k
  have hget : ∃ mailbox, (m.withdraw k).arrivals[a]? = some ⟨k, true, .waiting mailbox w⟩ := by
    change ∃ mailbox, (m.closeSlot k).arrivals[a]? = _
    rw [getElem?_closeSlot, ha]
    split
    · exact ⟨.closed, rfl⟩
    · exact ⟨.open, rfl⟩
  obtain ⟨mailbox, hget⟩ := hget
  refine h'.setStage hget (fun _ h => by cases h) (.gaveUp fun hs => ?_)
  obtain ⟨j, hj⟩ := mem_map_snd_iff.1 hs
  obtain ⟨_, _, hj'⟩ := h'.owner j a hj
  have hjk : j = k := (congrArg Arrival.key (Option.some.inj (hget.symm.trans hj'))).symm
  subst hjk
  rw [Rendezvous.withdraw, setSlot] at hj
  obtain ⟨s, -, heq⟩ := List.mem_map.1 hj
  split at heq
  · cases heq
  next hsk => exact hsk (congrArg Prod.fst heq)

end

theorem complete?_eq_some_iff : m.complete? = some round ↔
    m.leading = false ∧ m.slots ≠ [] ∧ (∀ s ∈ m.slots, s.2.isSome = true) ∧
      round = m.slots.filterMap (·.2) := by
  rw [complete?, mapM_snd_eq]
  by_cases hl : m.leading = true
  · simp [hl]
  by_cases hs : m.slots = []
  · simp [hs]
  rw [if_neg (by simp [hl, hs])]
  constructor
  · intro h
    split at h
    next hfull => exact ⟨by simpa using hl, hs, hfull, (Option.some.inj h).symm⟩
    next => cases h
  · rintro ⟨-, -, hfull, rfl⟩
    rw [if_pos hfull]

theorem Fate.cons (h : Fate rounds slots a arrival) (hs : some a ∉ slots.map (·.2))
    (hr : a ∉ r.members) (hslots : some a ∉ slots'.map (·.2)) : Fate (r :: rounds) slots' a arrival := by
  have hnot (h : a ∉ rounds.flatMap Round.members) : a ∉ (r :: rounds).flatMap Round.members := by
    rw [List.flatMap_cons, List.mem_append]
    exact fun h' => h'.elim hr h
  cases h with
  | waits h => exact absurd (mem_map_snd_iff.2 ⟨_, h⟩) hs
  | called hr ho ha hne => exact .called (List.mem_cons_of_mem _ hr) ho ha hne
  | leads hr ho ha => exact .leads (List.mem_cons_of_mem _ hr) ho ha
  | holds hr ho ha => exact .holds (List.mem_cons_of_mem _ hr) ho ha
  | took hr ho ha => exact .took (List.mem_cons_of_mem _ hr) ho ha
  | gaveUp hn => exact .gaveUp hslots
  | closed hn hr => exact .closed hslots (hnot hr)
  | denied hn hr => exact .denied hslots (hnot hr)
  | dropped => exact .dropped

theorem Coherent.claim (h : Coherent rounds m)
    (ha : m.arrivals[a]? = some ⟨k, c, .waiting .open true⟩) (hround : m.complete? = some round) :
    Coherent (⟨a, m.slots, m.next, none⟩ :: rounds) (m.claim a round) := by
  obtain ⟨hl, hne, hfull, rfl⟩ := complete?_eq_some_iff.1 hround
  have hclosed (r : Round κ β) (hr : r ∈ rounds) (ho : r.outcome = none) : False := by
    cases hl.symm.trans (h.leading.2 ⟨r, hr, ho⟩)
  set r : Round κ β := ⟨a, m.slots, m.next, none⟩ with hr
  have hmember : a ∈ r.members := by
    cases h.fate a _ ha with
    | waits hs => exact List.mem_filterMap.2 ⟨_, hs, rfl⟩
    | called hr ho _ _ => exact (hclosed _ hr ho).elim
  have hmembers (b : Nat) : b ∈ r.members ↔ ∃ j, (j, some b) ∈ m.slots := by
    simp [Round.members, hr, List.mem_filterMap]
  have hslots (b : Nat) : some b ∉ (m.claim a (m.slots.filterMap (·.2))).slots.map (·.2) := by
    rw [mem_map_snd_iff]
    rintro ⟨j, hj⟩
    obtain ⟨s, -, heq⟩ := List.mem_map.1 hj
    cases heq
  have hget (b : Nat) : (m.claim a (m.slots.filterMap (·.2))).arrivals[b]? =
      if a = b then (m.arrivals[b]?).map fun arrival => { arrival with stage := .leading r.members }
      else m.arrivals[b]? := getElem?_setStage
  refine ⟨?keys, fun j b hj => absurd (mem_map_snd_iff.2 ⟨j, hj⟩) (hslots b),
    fun j b hj => absurd (mem_map_snd_iff.2 ⟨j, hj⟩) (hslots b), ?once, fun b x hb => ?fate,
    fun q hq => ?sound, fun q hq => ?former, iff_of_true rfl ⟨r, List.mem_cons_self, rfl⟩, h.count⟩
  case keys =>
    change ((m.slots.map fun s => (s.1, none)).map _).Nodup
    rw [List.map_map]
    exact h.keys
  case once =>
    rw [List.flatMap_cons, List.nodup_append]
    refine ⟨h.fillers_nodup, h.once, fun b hb b' hb' heq => ?_⟩
    subst heq
    obtain ⟨j, hj⟩ := (hmembers b).1 hb
    obtain ⟨q, hq, hb⟩ := List.mem_flatMap.1 hb'
    exact h.apart j b hj q hq hb
  case fate =>
    rw [hget] at hb
    split at hb
    next hab =>
      subst hab
      rw [ha] at hb
      cases hb
      exact .leads List.mem_cons_self rfl rfl
    next hab =>
      -- Whoever fills a slot is called now, and for all others one more round makes no difference.
      by_cases hs : ∃ j, (j, some b) ∈ m.slots
      · obtain ⟨j, hj⟩ := hs
        rcases h.waits_of_slot hj with ⟨c, w, hw⟩ | ⟨c, hd⟩
        · cases hb.symm.trans hw
          exact .called List.mem_cons_self rfl ((hmembers b).2 ⟨j, hj⟩) (Ne.symm hab)
        · cases hb.symm.trans hd
          exact .dropped
      · exact (h.fate b x hb).cons (mt mem_map_snd_iff.1 hs) (mt (hmembers b).1 hs) (hslots b)
  case sound =>
    have hnext : (m.claim a (m.slots.filterMap (·.2))).next = m.next := List.length_modify ..
    rcases List.mem_cons.1 hq with rfl | hq
    · refine ⟨hmember, hfull, fun b hb => ?_, Nat.le_of_eq hnext.symm, fun _ => ?_⟩
      · obtain ⟨j, hj⟩ := (hmembers b).1 hb
        obtain ⟨_, _, hb⟩ := h.owner j b hj
        exact (List.getElem?_eq_some_iff.1 hb).1
      · rw [stage?, hget, if_pos rfl, ha]
        rfl
    · exact (h.sound q hq).mono (Nat.le_of_eq hnext.symm) fun ho => (hclosed q hq ho).elim
  case former =>
    rw [Round.isOver]
    by_contra ho
    exact hclosed q hq (by simpa using ho)

theorem release_eq (m : Rendezvous κ β) (round : List Nat) (outcome : Outcome β) :
    ∃ arrivals, m.release round outcome =
      { m with arrivals, leading := false, rounds := m.rounds + 1 } := by
  obtain ⟨arrivals, h⟩ :=
    foldl_post_eq round { m with leading := false, rounds := m.rounds + 1 } (.holds outcome)
  exact ⟨_, congrArg Rendezvous.wakeAll h⟩

theorem slots_release : (m.release round outcome).slots = m.slots := by
  obtain ⟨arrivals, h⟩ := release_eq m round outcome
  rw [h]

theorem led_release : (m.release round outcome).led = m.led := by
  obtain ⟨arrivals, h⟩ := release_eq m round outcome
  rw [h]

theorem next_release : (m.release round outcome).next = m.next := by
  have hcallers : (m.release round outcome).callers = m.callers := by
    rw [release, callers_wakeAll, callers_foldl_post]
    rfl
  simpa [next, callers] using congrArg List.length hcallers

theorem getElem?_release : (m.release round outcome).arrivals[b]? = (m.arrivals[b]?).map fun x =>
    (if b ∈ round then x.posted (.holds outcome) else x).wakened := by
  rw [release, getElem?_wakeAll, getElem?_foldl_post]
  split
  · rw [Option.map_map]
    rfl
  · rfl

/-- The members of the round find its outcome, and nobody else finds anything. -/
theorem Fate.conclude {rest : List (Round κ β)} (h : Fate (r :: rest) slots b arrival)
    (hs : some b ∈ slots.map (·.2) → b ∉ r.members) (ho : r.outcome = none)
    (hone : ∀ q ∈ r :: rest, q.outcome = none → q = r) (hb : b ≠ r.leader) :
    Fate (r.conclude outcome :: rest) slots b
      (if b ∈ r.members then arrival.posted (.holds outcome) else arrival) := by
  have hrest {q : Round κ β} {o : Outcome β} (hq : q ∈ r :: rest) (hqo : q.outcome = some o) :
      q ∈ r.conclude outcome :: rest := by
    rcases List.mem_cons.1 hq with rfl | hq
    · cases ho.symm.trans hqo
    · exact List.mem_cons_of_mem _ hq
  have hsame {x : Arrival κ β} (hx : x.posted (.holds outcome) = x) :
      (if b ∈ r.members then x.posted (.holds outcome) else x) = x := by
    rw [hx, ite_self]
  cases h with
  | waits h =>
    rw [if_neg (hs (mem_map_snd_iff.2 ⟨_, h⟩))]
    exact .waits h
  | called hq hqo hmem hne =>
    obtain rfl := hone _ hq hqo
    rw [if_pos hmem]
    exact .holds List.mem_cons_self rfl hmem
  | leads hq hqo hleader =>
    obtain rfl := hone _ hq hqo
    exact absurd hleader hb
  | holds hq hqo hmem =>
    rw [hsame rfl]
    exact .holds (hrest hq hqo) hqo hmem
  | took hq hqo hmem =>
    rw [hsame rfl]
    exact .took (hrest hq hqo) hqo hmem
  | gaveUp hn =>
    rw [hsame rfl]
    exact .gaveUp hn
  | closed hn hr =>
    rw [hsame rfl]
    exact .closed hn hr
  | denied hn hr =>
    rw [hsame rfl]
    exact .denied hn hr
  | dropped =>
    rw [hsame rfl]
    exact .dropped

theorem exists_of_key (ha : m.arrivals[a]? = some arrival) (hk : arrival.key = k) :
    ∃ c stage, m.arrivals[a]? = some ⟨k, c, stage⟩ := by
  obtain ⟨key, c, stage⟩ := arrival
  cases hk
  exact ⟨c, stage, ha⟩

theorem Round.Sound.conclude (h : r.Sound m) (hnext : m'.next = m.next) :
    (r.conclude outcome).Sound m' :=
  ⟨h.leader, h.full, h.begun, hnext ▸ h.begun_le, fun ho => by cases ho⟩

/-- What an arrival becomes when a member of a round ends it. -/
theorem getElem?_release_setStage (ha : a ∈ round) (hb : m.arrivals[b]? = some arrival) :
    ((m.setStage a stage).release round outcome).arrivals[b]? =
      some (if b ∈ round then
        (if a = b then { arrival with stage } else arrival).posted (.holds outcome)
      else arrival).wakened := by
  rw [getElem?_release, getElem?_setStage, hb]
  by_cases hab : a = b
  · subst hab
    rw [if_pos rfl, if_pos rfl, if_pos ha]
    simp [ha]
  · rw [if_neg hab, if_neg hab]
    rfl

theorem Coherent.conclude (h : Coherent rounds m) (ha : m.stage? a = some (.leading round))
    (hs : stage = .waiting .open true ∨ stage = .dropped) :
    Coherent (concludeLatest outcome rounds) ((m.setStage a stage).release round outcome) := by
  obtain ⟨r, hr, ho, rfl, rfl⟩ := h.leader_of_leading ha
  obtain ⟨rest, rfl⟩ := h.eq_cons_of_open hr ho
  have hleader := (h.sound r hr).leader
  have hone (q : Round κ β) (hq : q ∈ r :: rest) (hqo : q.outcome = none) : q = r :=
    h.eq_of_open hq hqo hr ho
  have hclosed (q : Round κ β) (hq : q ∈ r.conclude outcome :: rest) : q.isOver = true := by
    rcases List.mem_cons.1 hq with rfl | hq
    · rfl
    · exact h.former q hq
  have hnot {q : Round κ β} (hqo : q.outcome = none) : q.isOver ≠ true := by
    rw [Round.isOver, hqo]
    exact Bool.false_ne_true
  obtain ⟨arrivals, heq⟩ := release_eq (m.setStage r.leader stage) r.members outcome
  have hslots : ((m.setStage r.leader stage).release r.members outcome).slots = m.slots :=
    slots_release
  have hnext : ((m.setStage r.leader stage).release r.members outcome).next = m.next :=
    next_release.trans (List.length_modify ..)
  refine ⟨?keys, fun k b hk => ?owner, fun k b hk q hq => ?apart, h.once, fun b y hb => ?fate,
    fun q hq => ?sound, fun q hq => h.former q hq, ?leading, ?count⟩
  case keys =>
    rw [hslots]
    exact h.keys
  case owner =>
    rw [hslots] at hk
    obtain ⟨c, stage, hb⟩ := h.owner k b hk
    refine exists_of_key (getElem?_release_setStage hleader hb) ?_
    rw [Arrival.key_wakened]
    split
    · rw [Arrival.key_posted]
      split <;> rfl
    · rfl
  case apart =>
    rw [hslots] at hk
    rcases List.mem_cons.1 hq with rfl | hq
    · exact h.apart k b hk r hr
    · exact h.apart k b hk q (List.mem_cons_of_mem _ hq)
  case fate =>
    cases hm : m.arrivals[b]? with
    | none =>
      have hle : m.next ≤ b := List.getElem?_eq_none_iff.1 hm
      have hlt := (List.getElem?_eq_some_iff.1 hb).1
      exact absurd (Nat.lt_of_lt_of_eq hlt hnext) (Nat.not_lt_of_le hle)
    | some z =>
      cases (getElem?_release_setStage hleader hm).symm.trans hb
      rw [hslots]
      refine Fate.wakened ?_
      by_cases hab : r.leader = b
      · subst hab
        rw [if_pos hleader, if_pos rfl]
        rcases hs with rfl | rfl
        · exact .holds List.mem_cons_self rfl hleader
        · exact .dropped
      · rw [if_neg hab]
        exact (h.fate b z hm).conclude (fun hs hb => h.not_slot_of_mem hr hb hs) ho hone (Ne.symm hab)
  case sound =>
    rcases List.mem_cons.1 hq with rfl | hmem
    · exact (h.sound r hr).conclude hnext
    · exact (h.sound q (List.mem_cons_of_mem _ hmem)).mono (Nat.le_of_eq hnext.symm) fun hqo =>
        absurd (hclosed q hq) (hnot hqo)
  case leading =>
    rw [heq]
    refine iff_of_false Bool.false_ne_true ?_
    rintro ⟨q, hq, hqo⟩
    exact hnot hqo (hclosed q hq)
  case count =>
    have hcount := h.count
    rw [List.filter_cons_of_neg (hnot ho)] at hcount
    rw [heq, concludeLatest, List.filter_cons_of_pos rfl, List.length_cons, ← hcount]
    rfl

section

variable [DecidableEq κ] {leaving : κ → Prop}

theorem Coherent.change (h : Coherent rounds m) (hc : Change leaving rounds m rounds' m') :
    Coherent rounds' m' := by
  cases hc with
  | register hk => exact h.register hk
  | leave hl hk => exact h.leave hk
  | refuse hd => exact h.refuse ..
  | enroll hk => exact h.enroll hk _
  | claim ha hround => exact h.claim ha hround
  | start => exact h.of_arrivals rfl rfl rfl (Nat.le_refl _) (fun b x hb => ⟨_, _, hb⟩) (fun _ _ hb => hb) h.fate
  | conclude ha hs => exact h.conclude ha hs
  | take ha =>
    cases h.fate _ _ ha with
    | holds hr ho hmem => exact h.setStage ha (fun _ heq => by cases heq) (.took hr ho hmem)
  | lose ha =>
    cases h.fate _ _ ha with
    | closed hn hr => exact h.setStage ha (fun _ heq => by cases heq) (.denied hn hr)
  | giveUp ha => exact h.giveUp ha
  | rest ha hw =>
    refine h.setStage ha (fun _ heq => by cases heq) ?_
    cases h.fate _ _ ha with
    | waits hs => exact .waits hs
    | called hr ho hmem hne => exact .called hr ho hmem hne
  | cancel => exact h.cancel _
  | abandon ha => exact h.setStage ha (fun _ heq => by cases heq) .dropped

theorem Coherent.changes (h : Coherent rounds m) (hc : Changes leaving rounds m rounds' m') :
    Coherent rounds' m' := by
  induction hc with
  | refl => exact h
  | tail _ hc ih => exact (ih h).change hc

end

end BalancerSync.Rendezvous
