import BalancerSync.Proofs.Rendezvous.Changes
import Mathlib.Data.List.Induction

namespace BalancerSync.Rendezvous

variable {κ β : Type} {leaving : κ → Prop} {rounds rounds' rounds'' : List (Round κ β)}
  {m m' m'' : Rendezvous κ β} {k : κ} {a b : Nat} {c w : Bool} {outcome : Outcome β}
  {stage stage' : Stage β} {round : List Nat}

theorem setStage_setStage : (m.setStage a stage).setStage a stage' = m.setStage a stage' := by
  rw [Rendezvous.setStage, Rendezvous.setStage, Rendezvous.setStage]
  dsimp only
  congr 1
  refine List.ext_getElem? fun i => ?_
  simp only [getElem?_modify_ite]
  split
  · rw [Option.map_map]
    rfl
  · rfl

theorem setStage_eq_self (ha : m.arrivals[a]? = some ⟨k, c, stage⟩) : m.setStage a stage = m := by
  rw [Rendezvous.setStage]
  congr 1
  refine List.ext_getElem? fun i => ?_
  rw [getElem?_modify_ite]
  split
  next hai =>
    subst hai
    rw [ha]
    rfl
  next => rfl

theorem leads_iff : m.leads a = true ↔ ∃ k c round, m.arrivals[a]? = some ⟨k, c, .leading round⟩ := by
  rw [leads, stage?]
  cases ha : m.arrivals[a]? with
  | none => simp
  | some arrival =>
    obtain ⟨k, c, stage⟩ := arrival
    cases stage <;> simp

theorem getElem?_claim (round : List Nat) (ha : m.arrivals[a]? = some ⟨k, c, stage⟩) :
    (m.claim a round).arrivals[a]? = some ⟨k, c, .leading round⟩ := by
  change ((m.setStage a (.leading round)).arrivals)[a]? = _
  rw [getElem?_setStage, if_pos rfl, ha]
  rfl

structure Arrival.Becomes (x y : Arrival κ β) : Prop where
  key : y.key = x.key
  canceled : x.canceled = true → y.canceled = true
  ended : ∀ outcome, x.stage = .ended outcome → y.stage = .ended outcome
  dropped : x.stage = .dropped → y.stage = .dropped

theorem Arrival.Becomes.refl (x : Arrival κ β) : x.Becomes x := ⟨rfl, id, fun _ => id, id⟩

theorem Arrival.Becomes.trans {x y z : Arrival κ β} (h : x.Becomes y) (h' : y.Becomes z) :
    x.Becomes z where
  key := h'.key.trans h.key
  canceled := h'.canceled ∘ h.canceled
  ended outcome := h'.ended outcome ∘ h.ended outcome
  dropped := h'.dropped ∘ h.dropped

theorem Arrival.becomes_wakened (x : Arrival κ β) : x.Becomes x.wakened := by
  obtain ⟨k, c, stage⟩ := x
  cases stage with
  | waiting mailbox woken => exact ⟨rfl, id, (fun _ h => by cases h), fun h => by cases h⟩
  | _ => exact .refl _

theorem Arrival.becomes_posted (x : Arrival κ β) (mail : Mailbox β) : x.Becomes (x.posted mail) := by
  obtain ⟨k, c, stage⟩ := x
  cases stage with
  | waiting mailbox woken =>
    cases mailbox with
    | «open» => exact ⟨rfl, id, (fun _ h => by cases h), fun h => by cases h⟩
    | _ => exact .refl _
  | _ => exact .refl _

def Evolves (m m' : Rendezvous κ β) : Prop :=
  ∀ (b : Nat) (x : Arrival κ β), m.arrivals[b]? = some x →
    ∃ y, m'.arrivals[b]? = some y ∧ x.Becomes y

namespace Evolves

theorem refl (m : Rendezvous κ β) : Evolves m m := fun _ x hb => ⟨x, hb, .refl x⟩

theorem trans (h : Evolves m m') (h' : Evolves m' m'') : Evolves m m'' := by
  intro b x hb
  obtain ⟨y, hb, hy⟩ := h b x hb
  obtain ⟨z, hb, hz⟩ := h' b y hb
  exact ⟨z, hb, hy.trans hz⟩

theorem setStage (ha : m.arrivals[a]? = some ⟨k, c, stage⟩) (hended : ∀ outcome, stage ≠ .ended outcome)
    (hdropped : stage ≠ .dropped) : Evolves m (m.setStage a stage') := by
  intro b x hb
  rw [getElem?_setStage, hb]
  split
  next hab =>
    subst hab
    cases ha.symm.trans hb
    exact ⟨_, rfl, rfl, id, fun outcome h => absurd h (hended outcome), fun h => absurd h hdropped⟩
  next => exact ⟨x, rfl, .refl x⟩

theorem wakeAll (m : Rendezvous κ β) : Evolves m m.wakeAll := fun b x hb =>
  ⟨x.wakened, by rw [getElem?_wakeAll, hb]; rfl, x.becomes_wakened⟩

theorem release (m : Rendezvous κ β) (round : List Nat) (outcome : Outcome β) :
    Evolves m (m.release round outcome) := by
  intro b x hb
  rw [getElem?_release, hb]
  refine ⟨_, rfl, .trans ?_ (Arrival.becomes_wakened _)⟩
  split
  · exact x.becomes_posted _
  · exact .refl x

end Evolves

/-- One more arrival makes no difference to those that are there. -/
theorem Evolves.concat (m : Rendezvous κ β) (x : Arrival κ β) :
    Evolves m { m with arrivals := m.arrivals ++ [x] } := fun _ y hb =>
  ⟨y, (List.getElem?_append_left (List.getElem?_eq_some_iff.1 hb).1).trans hb, .refl y⟩

theorem Evolves.isCanceled (h : Evolves m m') (hc : m.isCanceled a = true) :
    m'.isCanceled a = true := by
  rw [Rendezvous.isCanceled] at hc ⊢
  cases ha : m.arrivals[a]? with
  | none =>
    rw [ha] at hc
    cases hc
  | some x =>
    rw [ha] at hc
    obtain ⟨y, hy, hxy⟩ := h a x ha
    rw [hy]
    exact hxy.canceled hc

theorem Evolves.stage?_dropped (h : Evolves m m') (hd : m.stage? a = some .dropped) :
    m'.stage? a = some .dropped := by
  obtain ⟨x, hx, hstage⟩ := Option.map_eq_some_iff.1 hd
  obtain ⟨y, hy, hxy⟩ := h a x hx
  rw [stage?, hy]
  exact congrArg some (hxy.dropped hstage)

theorem Evolves.stage?_ended (h : Evolves m m') (he : m.stage? a = some (.ended outcome)) :
    m'.stage? a = some (.ended outcome) := by
  obtain ⟨x, hx, hstage⟩ := Option.map_eq_some_iff.1 he
  obtain ⟨y, hy, hxy⟩ := h a x hx
  rw [stage?, hy]
  exact congrArg some (hxy.ended outcome hstage)

variable [DecidableEq κ]

theorem Evolves.closeSlot (m : Rendezvous κ β) (k : κ) : Evolves m (m.closeSlot k) := by
  intro b x hb
  rw [getElem?_closeSlot, hb]
  split
  · exact ⟨_, rfl, x.becomes_posted _⟩
  · exact ⟨x, rfl, .refl x⟩

theorem Change.single (h : Change leaving rounds m rounds' m') : Changes leaving rounds m rounds' m' :=
  .tail (.refl ..) h

theorem Changes.trans (h : Changes leaving rounds m rounds' m')
    (h' : Changes leaving rounds' m' rounds'' m'') : Changes leaving rounds m rounds'' m'' := by
  induction h' with
  | refl => exact h
  | tail _ hc ih => exact (ih h).tail hc

theorem Change.evolves (h : Change leaving rounds m rounds' m') : Evolves m m' := by
  cases h with
  | register | start => exact .refl m
  | leave hl hk =>
    rw [Rendezvous.leave, if_pos hk]
    exact (Evolves.closeSlot m _).trans (.wakeAll _)
  | refuse => exact Evolves.concat m _
  | enroll => exact Evolves.concat m _
  | claim ha => exact .setStage ha (fun _ h => by cases h) (fun h => by cases h)
  | conclude ha =>
    obtain ⟨k, c, harrival⟩ := exists_of_stage? ha
    exact (Evolves.setStage harrival (fun _ h => by cases h) (fun h => by cases h)).trans
      (Evolves.release _ _ _)
  | take ha | lose ha | rest ha | abandon ha =>
    exact .setStage ha (fun _ h => by cases h) (fun h => by cases h)
  | giveUp ha =>
    exact (Evolves.setStage ha (fun _ h => by cases h) (fun h => by cases h)).trans
      (Evolves.closeSlot _ _)
  | cancel =>
    intro b x hb
    rw [getElem?_cancel, hb]
    split
    · exact ⟨_, rfl, rfl, fun _ => rfl, fun _ => id, id⟩
    · exact ⟨x, rfl, .refl x⟩

theorem Changes.evolves (h : Changes leaving rounds m rounds' m') : Evolves m m' := by
  induction h with
  | refl => exact .refl _
  | tail _ hc ih => exact ih.trans hc.evolves

theorem lead_eq (m : Rendezvous κ β) (a : Nat) (round : List Nat) : m.lead a round =
    if (m.claim a round).isCanceled a then (m.claim a round).settle a (.error .canceled)
    else { m.claim a round with led := m.led ++ [a] } := rfl

/-- Whether it has been woken makes no difference to an arrival that tries to lead. -/
theorem tryLead_setStage (ha : m.arrivals[a]? = some ⟨k, c, .waiting .open w⟩) (w' : Bool) :
    (m.setStage a (.waiting .open w')).tryLead a = m.tryLead a := by
  have hget : (m.setStage a (.waiting .open w')).arrivals[a]? = some ⟨k, c, .waiting .open w'⟩ := by
    rw [getElem?_setStage, if_pos rfl, ha]
    rfl
  have hcomplete : (m.setStage a (.waiting .open w')).complete? = m.complete? := rfl
  rw [tryLead, tryLead, hcomplete]
  cases m.complete? with
  | none =>
    dsimp only
    rw [look, look, ha, hget]
    dsimp only
    split <;> rw [setStage_setStage]
  | some round =>
    have hclaim : (m.setStage a (.waiting .open w')).claim a round = m.claim a round :=
      setStage_setStage (m := { m with slots := m.slots.map fun s => (s.1, none), leading := true })
    dsimp only
    rw [lead_eq, lead_eq, hclaim]
    rfl

/-- The party has arrived, and its arrival tries to lead. -/
theorem arrive_eq (hk : m.slot? k = some none) :
    m.arrive k c = (m.enroll k c).tryLead m.next := by
  rw [← tryLead_setStage getElem?_enroll_next false, arrive, hk]
  dsimp only
  congr 1
  rw [enroll, Rendezvous.setStage, setSlot, setSlot]
  dsimp only
  congr 1
  refine List.ext_getElem? fun i => ?_
  rw [getElem?_modify_ite]
  split
  next hi =>
    subst hi
    rw [next, List.getElem?_concat_length, List.getElem?_concat_length]
    rfl
  next hi =>
    rw [List.getElem?_append, List.getElem?_append]
    split
    · rfl
    next hlt =>
      have : i - m.arrivals.length ≠ 0 := by
        have : m.arrivals.length ≠ i := hi
        omega
      rw [List.getElem?_singleton, List.getElem?_singleton, if_neg this, if_neg this]

/-- The leader finds the outcome of its round at once. -/
theorem settle_eq (outcome : Outcome β) (ha : m.arrivals[a]? = some ⟨k, c, .leading round⟩) (hmem : a ∈ round) :
    ((m.setStage a (.waiting .open true)).release round outcome).arrivals[a]? =
        some ⟨k, c, .waiting (.holds outcome) true⟩ ∧
      m.settle a outcome =
        ((m.setStage a (.waiting .open true)).release round outcome).setStage a (.ended outcome) := by
  have hget : ((m.setStage a (.waiting .open true)).release round outcome).arrivals[a]? =
      some ⟨k, c, .waiting (.holds outcome) true⟩ := by
    rw [getElem?_release, getElem?_setStage, if_pos rfl, ha]
    simp only [Option.map_some, if_pos hmem]
    rfl
  refine ⟨hget, ?_⟩
  have hstage : m.stage? a = some (.leading round) := stage?_eq ha
  rw [settle, hstage]
  dsimp only
  rw [look, hget]

theorem step_of_mail {mailbox : Mailbox β} (ha : m.arrivals[a]? = some ⟨k, c, .waiting mailbox w⟩)
    (hm : mailbox ≠ .open) : m.step a = m.look a := by
  rw [step]
  split
  next j hj =>
    cases ha.symm.trans hj
    exact absurd rfl hm
  next j round hj => cases ha.symm.trans hj
  next => rfl

theorem settle_eq_self (hl : ¬ m.leads a = true) : m.settle a outcome = m := by
  rw [settle]
  split
  next round ha => exact absurd (by rw [leads, ha]) hl
  next => rfl

theorem Coherent.stage?_settle (h : Coherent rounds m) (ha : m.stage? a = some (.leading round))
    (outcome : Outcome β) : (m.settle a outcome).stage? a = some (.ended outcome) := by
  obtain ⟨r, hr, -, rfl, rfl⟩ := h.leader_of_leading ha
  obtain ⟨k, c, harrival⟩ := exists_of_stage? ha
  obtain ⟨hget, heq⟩ := settle_eq outcome harrival (h.sound r hr).leader
  rw [heq]
  exact stage?_setStage hget

section

variable {move : Move κ β}

theorem note_eq_self (ha : m.attempt? move = none) (hv : m.verdict? move = none) :
    m.note move rounds = rounds := by
  rw [note, begins?, ha, hv]
  rfl

theorem note_of_attempt (ha : m.attempt? move = some (a, m')) (hv : m.verdict? move = none) :
    m.note move rounds = (m'.complete?.map fun _ => (⟨a, m'.slots, m'.next,
      if m'.isCanceled a then some (.error .canceled) else none⟩ : Round κ β)).toList ++ rounds := by
  rw [note, begins?, ha, hv]

theorem note_of_verdict (ha : m.attempt? move = none) (hv : m.verdict? move = some outcome) :
    m.note move rounds = concludeLatest outcome rounds := by
  rw [note, begins?, ha, hv]
  rfl

end

namespace Coherent

variable (h : Coherent rounds m)

include h

theorem settle_changes (ha : m.arrivals[a]? = some ⟨k, c, .leading round⟩) (outcome : Outcome β) :
    Changes leaving rounds m (concludeLatest outcome rounds) (m.settle a outcome) := by
  have hstage : m.stage? a = some (.leading round) := stage?_eq ha
  obtain ⟨r, hr, -, rfl, rfl⟩ := h.leader_of_leading hstage
  obtain ⟨hget, heq⟩ := settle_eq outcome ha (h.sound r hr).leader
  rw [heq]
  exact .tail (Change.conclude hstage (.inl rfl)).single (.take hget)

omit h in
/-- An arrival that looks at its mailbox without having to lead. -/
theorem look_changes (hw : ∀ k, m.arrivals[a]? = some ⟨k, false, .waiting .open true⟩ →
    m.complete? = none) :
    Changes leaving rounds m rounds (m.look a) := by
  rw [look]
  split
  next key canceled mailbox woken ha =>
    cases mailbox with
    | holds outcome => exact (Change.take ha).single
    | closed => exact (Change.lose ha).single
    | «open» =>
      dsimp only
      cases canceled with
      | true => exact (Change.giveUp ha).single
      | false => exact (Change.rest ha fun hwoken => hw key (hwoken ▸ ha)).single
  · exact .refl ..

/-- The round that begins when an arrival tries to lead. -/
theorem tryLead_changes (ha : m.arrivals[a]? = some ⟨k, c, .waiting .open true⟩) :
    Changes leaving rounds m
      ((m.complete?.map fun _ => (⟨a, m.slots, m.next,
        if m.isCanceled a then some (.error .canceled) else none⟩ : Round κ β)).toList ++ rounds)
      (m.tryLead a) := by
  have hcanceled : m.isCanceled a = c := isCanceled_eq ha
  rw [hcanceled, tryLead]
  cases hround : m.complete? with
  | none => exact look_changes fun _ _ => hround
  | some round =>
    have hclaim : Change leaving rounds m (⟨a, m.slots, m.next, none⟩ :: rounds) (m.claim a round) :=
      .claim ha hround
    have hget := getElem?_claim round ha
    have hcanceled : (m.claim a round).isCanceled a = c := isCanceled_eq hget
    dsimp only
    rw [lead_eq, hcanceled]
    cases c with
    | true => exact hclaim.single.trans ((h.change hclaim).settle_changes hget _)
    | false => exact hclaim.single.tail .start

theorem step_changes (a : Nat) :
    Changes leaving rounds m (m.note (.step a) rounds) (m.step a) := by
  rw [step]
  split
  next k ha =>
    rw [note_of_attempt (by rw [attempt?, ha]) (by rw [verdict?, leads, stage?, ha]; rfl)]
    exact h.tryLead_changes ha
  next k round ha =>
    rw [note_of_verdict (by rw [attempt?, ha]) (by rw [verdict?, leads, stage?, isCanceled, ha]; rfl)]
    exact h.settle_changes ha _
  next hlead hgive =>
    have hattempt : m.attempt? (.step a) = none := by
      rw [attempt?]
      split
      next k ha => exact absurd ha (hlead k)
      next => rfl
    have hverdict : m.verdict? (.step a) = none := by
      rw [verdict?, if_neg]
      rw [Bool.and_eq_true, leads_iff]
      rintro ⟨⟨k, c, round, ha⟩, hc⟩
      rw [isCanceled, ha] at hc
      cases hc
      exact hgive k round ha
    rw [note_eq_self hattempt hverdict]
    exact look_changes fun k ha => absurd ha (hlead k)

theorem finish_changes (a : Nat) (value : β) :
    Changes leaving rounds m (m.note (.finish a value) rounds) (m.finish a value) := by
  by_cases hl : m.leads a = true
  · have hverdict : m.verdict? (.finish a value) =
        some (if m.isCanceled a then .error .canceled else .ok value) := if_pos hl
    rw [finish, note_of_verdict rfl hverdict]
    obtain ⟨k, c, round, ha⟩ := leads_iff.1 hl
    exact h.settle_changes ha _
  · have hverdict : m.verdict? (.finish a value) = none := if_neg hl
    rw [finish, note_eq_self rfl hverdict, settle_eq_self hl]
    exact .refl ..

omit h in
theorem drop_changes (a : Nat) : Changes leaving rounds m (m.note (.drop a) rounds) (m.drop a) := by
  rw [Rendezvous.drop]
  split
  next round ha =>
    have hverdict : m.verdict? (.drop a) = some (.error .canceled) :=
      if_pos (by rw [leads, ha])
    rw [note_of_verdict rfl hverdict]
    exact (Change.conclude ha (.inr rfl)).single
  next mailbox woken ha =>
    have hverdict : m.verdict? (.drop a) = none := if_neg (by simp [leads, ha])
    rw [note_eq_self rfl hverdict]
    obtain ⟨k, c, harrival⟩ := exists_of_stage? ha
    exact (Change.abandon harrival).single
  next hlead _ =>
    have hverdict : m.verdict? (.drop a) = none := by
      refine if_neg fun hl => ?_
      obtain ⟨k, c, round, ha⟩ := leads_iff.1 hl
      exact hlead round (stage?_eq ha)
    rw [note_eq_self rfl hverdict]
    exact .refl ..

theorem arrive_changes (k : κ) (c : Bool) :
    Changes leaving rounds m (m.note (.arrive k c) rounds) (m.arrive k c) := by
  by_cases hk : m.slot? k = some none
  · have henroll : Change leaving rounds m rounds (m.enroll k c) := .enroll hk
    rw [arrive_eq hk, note_of_attempt (by rw [attempt?, if_pos hk]) rfl]
    exact henroll.single.trans ((h.change henroll).tryLead_changes getElem?_enroll_next)
  · have hrefuse (denial : Denial) (hd : denial ≠ .canceled) :
        Change leaving rounds m rounds (m.refuse k c denial) := .refuse hd
    rw [note_eq_self (by rw [attempt?, if_neg hk]) rfl, arrive]
    split
    · exact (hrefuse .unregistered (by decide)).single
    · exact (hrefuse .alreadyWaiting (by decide)).single
    next hslot => exact absurd hslot hk

theorem move_changes (move : Move κ β) :
    Changes (fun k => move = .leave k) rounds m (m.note move rounds) (m.move move) := by
  cases move with
  | register k =>
    change Changes _ rounds m rounds (m.register k).2
    rw [Rendezvous.register]
    split
    · exact .refl ..
    next hk => exact (Change.register (by simpa using hk)).single
  | leave k =>
    change Changes _ rounds m rounds (m.leave k).2
    by_cases hk : m.isRegistered k = true
    · have hleave : Change (fun j => (.leave k : Move κ β) = .leave j) rounds m rounds (m.leave k).2 :=
        .leave rfl hk
      exact hleave.single
    · rw [Rendezvous.leave, if_neg hk]
      exact .refl ..
  | arrive k c => exact h.arrive_changes k c
  | step a => exact h.step_changes a
  | finish a value => exact h.finish_changes a value
  | cancel a => exact Change.cancel.single
  | drop a => exact drop_changes a

end Coherent

/-- Whatever happens, every arrival is at its place. -/
theorem coherent_play (moves : List (Move κ β)) : Coherent (chronicle moves) (play .empty moves) := by
  induction moves using List.reverseRecOn with
  | nil => exact coherent_empty
  | append_singleton moves move ih =>
    rw [chronicle_concat, play_concat]
    exact ih.changes (ih.move_changes move)

theorem evolves_play {moves moves' : List (Move κ β)} (h : moves <+: moves') :
    Evolves (play .empty moves : Rendezvous κ β) (play .empty moves') := by
  obtain ⟨rest, rfl⟩ := h
  induction rest using List.reverseRecOn with
  | nil =>
    rw [List.append_nil]
    exact .refl _
  | append_singleton rest move ih =>
    rw [← List.append_assoc, play_concat]
    exact ih.trans ((coherent_play _).move_changes move).evolves

end BalancerSync.Rendezvous
