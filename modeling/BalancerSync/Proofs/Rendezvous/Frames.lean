import BalancerSync.Proofs.Rendezvous.History

namespace BalancerSync.Rendezvous

variable {κ β : Type} {rounds : List (Round κ β)} {m m' m'' : Rendezvous κ β} {k : κ} {a b : Nat}
  {c w : Bool} {outcome : Outcome β} {stage : Stage β} {round : List Nat} {x y z : Arrival κ β}

structure Arrival.Drifts (x y : Arrival κ β) : Prop where
  key : y.key = x.key
  waits : ∀ mailbox w, x.stage = .waiting mailbox w → ∃ mailbox' w',
    y.stage = .waiting mailbox' w' ∧ (mailbox ≠ .open → mailbox' = mailbox)
  other : (∀ mailbox w, x.stage ≠ .waiting mailbox w) → y.stage = x.stage

namespace Arrival.Drifts

theorem of_stage (hk : y.key = x.key) (hs : y.stage = x.stage) : x.Drifts y :=
  ⟨hk, fun mailbox w h => ⟨mailbox, w, hs.trans h, fun _ => rfl⟩, fun _ => hs⟩

theorem refl (x : Arrival κ β) : x.Drifts x := of_stage rfl rfl

theorem trans (h : x.Drifts y) (h' : y.Drifts z) : x.Drifts z where
  key := h'.key.trans h.key
  waits mailbox w hx := by
    obtain ⟨mailbox', w', hy, hmail⟩ := h.waits mailbox w hx
    obtain ⟨mailbox'', w'', hz, hmail'⟩ := h'.waits mailbox' w' hy
    refine ⟨mailbox'', w'', hz, fun hne => ?_⟩
    obtain rfl := hmail hne
    exact hmail' hne
  other hx := by
    have hy := h.other hx
    exact (h'.other fun mailbox w heq => hx mailbox w (hy ▸ heq)).trans hy

theorem leading_iff (h : x.Drifts y) : y.stage = .leading round ↔ x.stage = .leading round := by
  constructor
  · intro hy
    by_cases hx : ∀ mailbox w, x.stage ≠ .waiting mailbox w
    · exact (h.other hx).symm.trans hy
    · push Not at hx
      obtain ⟨mailbox, w, hx⟩ := hx
      obtain ⟨_, _, hy', -⟩ := h.waits mailbox w hx
      cases hy.symm.trans hy'
  · intro hx
    exact (h.other fun mailbox w heq => by cases hx.symm.trans heq).trans hx

theorem ne_dropped (h : x.Drifts y) (hx : x.stage ≠ .dropped) : y.stage ≠ .dropped := by
  intro hd
  by_cases hw : ∀ mailbox w, x.stage ≠ .waiting mailbox w
  · exact hx ((h.other hw).symm.trans hd)
  · push Not at hw
    obtain ⟨mailbox, w, hw⟩ := hw
    obtain ⟨_, _, hy, -⟩ := h.waits mailbox w hw
    cases hd.symm.trans hy

theorem wakened (x : Arrival κ β) : x.Drifts x.wakened := by
  obtain ⟨k, c, stage⟩ := x
  cases stage with
  | waiting mailbox w =>
    refine ⟨rfl, fun mailbox' w' h => ⟨mailbox, true, rfl, fun _ => ?_⟩, fun h => absurd rfl (h mailbox w)⟩
    cases h
    rfl
  | _ => exact .refl _

theorem posted (x : Arrival κ β) (mail : Mailbox β) : x.Drifts (x.posted mail) := by
  obtain ⟨k, c, stage⟩ := x
  cases stage with
  | waiting mailbox w =>
    cases mailbox with
    | «open» =>
      refine ⟨rfl, fun mailbox' w' h => ⟨mail, w, rfl, fun hne => ?_⟩, fun h => absurd rfl (h .open w)⟩
      cases h
      exact absurd rfl hne
    | _ => exact .refl _
  | _ => exact .refl _

end Arrival.Drifts

def Drift (m m' : Rendezvous κ β) : Prop :=
  ∀ b : Nat, Option.Rel Arrival.Drifts m.arrivals[b]? m'.arrivals[b]?

theorem drifts_self (o : Option (Arrival κ β)) : Option.Rel Arrival.Drifts o o := by
  cases o with
  | none => exact .none
  | some x => exact .some (.refl x)

theorem drifts_map {f : Arrival κ β → Arrival κ β} (hf : ∀ x : Arrival κ β, x.Drifts (f x))
    (o : Option (Arrival κ β)) : Option.Rel Arrival.Drifts o (o.map f) := by
  cases o with
  | none => exact .none
  | some x => exact .some (hf x)

theorem drifts_trans {o o' o'' : Option (Arrival κ β)} (h : Option.Rel Arrival.Drifts o o')
    (h' : Option.Rel Arrival.Drifts o' o'') : Option.Rel Arrival.Drifts o o'' := by
  cases h with
  | none => exact h'
  | some h =>
    cases h' with
    | some h' => exact .some (h.trans h')

theorem exists_of_drifts {o : Option (Arrival κ β)} (h : Option.Rel Arrival.Drifts (some x) o) :
    ∃ y, o = some y ∧ x.Drifts y := by
  cases h with
  | some hxy => exact ⟨_, rfl, hxy⟩

theorem leads_iff_of_drifts (h : Option.Rel Arrival.Drifts m.arrivals[b]? m'.arrivals[b]?) :
    m'.leads b = true ↔ m.leads b = true := by
  rw [leads_iff, leads_iff]
  generalize m.arrivals[b]? = o at h
  generalize m'.arrivals[b]? = o' at h
  cases h with
  | none => simp
  | @some x y h =>
    have hleading (round : List Nat) : y.stage = .leading round ↔ x.stage = .leading round := h.leading_iff
    obtain ⟨k, c, stage⟩ := x
    obtain ⟨k', c', stage'⟩ := y
    simpa using exists_congr hleading

/-- Whoever leads leads the round that is being led. -/
theorem Coherent.leading_of_leads (h : Coherent rounds m) (ha : m.leads a = true) : m.leading = true := by
  obtain ⟨k, c, round, hx⟩ := leads_iff.1 ha
  obtain ⟨r, hr, ho, -, -⟩ := h.leader_of_leading (stage?_eq hx)
  exact h.leading.2 ⟨r, hr, ho⟩

namespace Drift

theorem wakeAll (m : Rendezvous κ β) : Drift m m.wakeAll := by
  intro b
  rw [getElem?_wakeAll]
  exact drifts_map .wakened _

theorem release (m : Rendezvous κ β) (round : List Nat) (outcome : Outcome β) :
    Drift m (m.release round outcome) := by
  intro b
  rw [getElem?_release]
  refine drifts_map (fun x => .trans ?_ (.wakened _)) _
  split
  · exact .posted x _
  · exact .refl x

theorem cancel (m : Rendezvous κ β) (a : Nat) : Drift m (m.cancel a) := by
  intro b
  rw [getElem?_cancel]
  split
  · exact drifts_map (f := fun x => { x with canceled := true }) (fun x => .of_stage rfl rfl) _
  · exact drifts_self _

variable [DecidableEq κ]

theorem closeSlot (m : Rendezvous κ β) (k : κ) : Drift m (m.closeSlot k) := by
  intro b
  rw [getElem?_closeSlot]
  split
  · exact drifts_map (fun x => .posted x _) _
  · exact drifts_self _

theorem leave (m : Rendezvous κ β) (k : κ) : Drift m (m.leave k).2 := by
  rw [Rendezvous.leave]
  split
  · exact fun b => drifts_trans (closeSlot m k b) (wakeAll _ b)
  · exact fun b => drifts_self _

end Drift

structure Acts (a : Nat) (m m' : Rendezvous κ β) : Prop where
  others : ∀ b : Nat, b ≠ a → Option.Rel Arrival.Drifts m.arrivals[b]? m'.arrivals[b]?
  own : ∀ x, m.arrivals[a]? = some x → x.stage ≠ .dropped →
    ∃ y, m'.arrivals[a]? = some y ∧ y.key = x.key ∧ y.stage ≠ .dropped
  keys : m'.slots.map (·.1) = m.slots.map (·.1)

namespace Acts

theorem of_drift (h : Drift m m') (hkeys : m'.slots.map (·.1) = m.slots.map (·.1)) : Acts a m m' where
  others b _ := h b
  own x hx hne := by
    obtain ⟨y, hy, hxy⟩ := exists_of_drifts (hx ▸ h a)
    exact ⟨y, hy, hxy.key, hxy.ne_dropped hne⟩
  keys := hkeys

theorem refl (a : Nat) (m : Rendezvous κ β) : Acts a m m := of_drift (fun _ => drifts_self _) rfl

theorem trans (h : Acts a m m') (h' : Acts a m' m'') : Acts a m m'' where
  others b hb := drifts_trans (h.others b hb) (h'.others b hb)
  own x hx hne := by
    obtain ⟨y, hy, hkey, hne⟩ := h.own x hx hne
    obtain ⟨z, hz, hkey', hne⟩ := h'.own y hy hne
    exact ⟨z, hz, hkey'.trans hkey, hne⟩
  keys := h'.keys.trans h.keys

theorem setStage (m : Rendezvous κ β) (a : Nat) (hs : stage ≠ .dropped) :
    Acts a m (m.setStage a stage) where
  others b hb := by
    rw [getElem?_setStage, if_neg (Ne.symm hb)]
    exact drifts_self _
  own x hx _ := by
    rw [getElem?_setStage, if_pos rfl, hx]
    exact ⟨_, rfl, rfl, hs⟩
  keys := rfl

theorem release (m : Rendezvous κ β) (a : Nat) (round : List Nat) (outcome : Outcome β) :
    Acts a m (m.release round outcome) :=
  of_drift (.release m round outcome) (congrArg (List.map Prod.fst) slots_release)

theorem concat (m : Rendezvous κ β) (x : Arrival κ β) :
    Acts m.next m { m with arrivals := m.arrivals ++ [x] } where
  others b hb := by
    have hget : (m.arrivals ++ [x])[b]? = m.arrivals[b]? := by
      rw [List.getElem?_append]
      split
      · rfl
      next hlt =>
        have hb : b ≠ m.arrivals.length := hb
        rw [List.getElem?_eq_none (Nat.le_of_not_lt hlt), List.getElem?_eq_none (by simp; omega)]
    dsimp only
    rw [hget]
    exact drifts_self _
  own y hy _ := absurd rfl (ne_next_of_some hy)
  keys := rfl

variable [DecidableEq κ]

theorem isRegistered (h : Acts a m m') (k : κ) : m'.isRegistered k = m.isRegistered k := by
  have hany (m : Rendezvous κ β) : m.isRegistered k = (m.slots.map (·.1)).any (· = k) := by
    rw [List.any_map]
    rfl
  rw [hany, hany, h.keys]

theorem giveUp (m : Rendezvous κ β) (a : Nat) (k : κ) :
    Acts a m ((m.setStage a (.ended (.error .canceled))).withdraw k) := by
  refine (setStage m a (fun h => by cases h)).trans (of_drift (fun b => Drift.closeSlot _ k b) ?_)
  rw [withdraw, map_fst_setSlot, slots_closeSlot]

theorem look (m : Rendezvous κ β) (a : Nat) : Acts a m (m.look a) := by
  rw [Rendezvous.look]
  split
  next key canceled mailbox woken _ =>
    cases mailbox with
    | «open» =>
      dsimp only
      split
      · exact giveUp m a key
      · exact setStage m a fun h => by cases h
    | _ => exact setStage m a fun h => by cases h
  · exact refl a m

theorem settle (m : Rendezvous κ β) (a : Nat) (outcome : Outcome β) : Acts a m (m.settle a outcome) := by
  rw [Rendezvous.settle]
  split
  · exact ((setStage m a (fun h => by cases h)).trans (release _ a _ _)).trans (look _ a)
  · exact refl a m

theorem tryLead (m : Rendezvous κ β) (a : Nat) : Acts a m (m.tryLead a) := by
  rw [Rendezvous.tryLead]
  split
  next round _ =>
    have hcleared : Acts a m { m with slots := m.slots.map fun s => (s.1, none), leading := true } :=
      of_drift (fun _ => drifts_self _) (List.map_map ..)
    have hclaim : Acts a m (m.claim a round) := hcleared.trans (setStage _ a fun h => by cases h)
    rw [lead_eq]
    split
    · exact hclaim.trans (settle _ a _)
    · exact ⟨hclaim.others, hclaim.own, hclaim.keys⟩
  · exact look m a

theorem step (m : Rendezvous κ β) (a : Nat) : Acts a m (m.step a) := by
  rw [Rendezvous.step]
  split
  · exact tryLead m a
  · exact settle m a _
  · exact look m a

theorem enroll (m : Rendezvous κ β) (k : κ) (c : Bool) : Acts m.next m (m.enroll k c) := by
  have h := concat m ⟨k, c, .waiting .open true⟩
  exact ⟨h.others, h.own, map_fst_setSlot ..⟩

theorem arrive (m : Rendezvous κ β) (k : κ) (c : Bool) : Acts m.next m (m.arrive k c) := by
  by_cases hk : m.slot? k = some none
  · rw [arrive_eq hk]
    exact (enroll m k c).trans (tryLead _ _)
  · rw [Rendezvous.arrive]
    split
    · exact concat m _
    · exact concat m _
    next hslot => exact absurd hslot hk

end Acts

/-- Whoever has got mail comes to an end with its next step. -/
theorem exists_ended_of_mail [DecidableEq κ] {mailbox : Mailbox β}
    (ha : m.arrivals[a]? = some ⟨k, c, .waiting mailbox w⟩) (hm : mailbox ≠ .open) :
    ∃ outcome, (m.step a).stage? a = some (.ended outcome) := by
  rw [step_of_mail ha hm, look, ha]
  cases mailbox with
  | «open» => exact absurd rfl hm
  | holds outcome => exact ⟨outcome, stage?_setStage ha⟩
  | closed => exact ⟨.error .canceled, stage?_setStage ha⟩

/-- Only the party that leaves is not registered any more. -/
theorem isRegistered_leave_iff [DecidableEq κ] {j : κ} :
    (m.leave k).2.isRegistered j = true ↔ m.isRegistered j = true ∧ j ≠ k := by
  rw [leave]
  split
  · change ((m.closeSlot k).slots.filter _).any _ = true ↔ _
    rw [slots_closeSlot, Rendezvous.isRegistered]
    simp only [List.any_filter, List.any_eq_true, Bool.and_eq_true, decide_eq_true_eq]
    constructor
    · rintro ⟨s, hs, hne, rfl⟩
      exact ⟨⟨s, hs, rfl⟩, hne⟩
    · rintro ⟨⟨s, hs, rfl⟩, hne⟩
      exact ⟨s, hs, hne, rfl⟩
  next hk =>
    refine (and_iff_left_of_imp fun hj => ?_).symm
    rintro rfl
    exact hk hj

theorem exists_arrive [DecidableEq κ] (m : Rendezvous κ β) (k : κ) (c : Bool) :
    ∃ x, (m.arrive k c).arrivals[m.next]? = some x ∧ x.key = k ∧ x.stage ≠ .dropped := by
  by_cases hk : m.slot? k = some none
  · rw [arrive_eq hk]
    exact (Acts.tryLead (m.enroll k c) m.next).own _ getElem?_enroll_next fun h => by cases h
  · rw [Rendezvous.arrive]
    split
    · exact ⟨_, List.getElem?_concat_length, rfl, fun h => by cases h⟩
    · exact ⟨_, List.getElem?_concat_length, rfl, fun h => by cases h⟩
    next hslot => exact absurd hslot hk

end BalancerSync.Rendezvous
