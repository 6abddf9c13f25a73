import Mathlib.Logic.Relation
import Mathlib.Order.WellFoundedSet
import BalancerSync.Proofs.Destruction

namespace BalancerSync

open Engine

def Inventory.Refers (v : Inventory) (id j : Identifier) : Prop :=
  ∃ r q, v.objects.get? id = some r ∧ v.objects.get? j = some q ∧ j ∈ r.references

/-- No object refers to itself, directly or through others. -/
def Inventory.Acyclic (v : Inventory) : Prop := ∀ id, ¬ Relation.TransGen v.Refers id id

/-- So it is where all that is referred to is there and of the right kind. -/
theorem Inventory.acyclic_of_resolves {v : Inventory}
    (hresolved : ∀ id r, v.objects.get? id = some r → v.Resolves r)
    (hapart : ∀ id r, v.objects.get? id = some r → id ∉ v.loadBalancers.keys) : v.Acyclic := by
  have hstep {id j : Identifier} (h : v.Refers id j) {r q : Resource}
      (hr : v.objects.get? id = some r) (hq : v.objects.get? j = some q) :
      q.kind.rank < r.kind.rank := by
    obtain ⟨r', q', hr', hq', href⟩ := h
    cases hr.symm.trans hr'
    exact (hresolved id r hr).rank_lt href (hapart j q hq) hq
  have hchain {id j : Identifier} (h : Relation.TransGen v.Refers id j) {r q : Resource}
      (hr : v.objects.get? id = some r) (hq : v.objects.get? j = some q) :
      q.kind.rank < r.kind.rank := by
    induction h generalizing q with
    | single h => exact hstep h hr hq
    | tail _ h ih =>
      have hrefers := h
      obtain ⟨p, -, hp, -, -⟩ := hrefers
      exact (hstep h hp hq).trans (ih hp)
  intro id h
  obtain ⟨j, hj, -⟩ := Relation.TransGen.head'_iff.1 h
  obtain ⟨r, -, hr, -, -⟩ := hj
  exact Nat.lt_irrefl _ (hchain h hr hr)

namespace Memory

variable {m m' m'' : Memory} {fresh : Nat → Identifier} {kind : Kind} {id : Identifier}
  {pending ids : List Identifier} {attempts : List Attempt} {a : Attempt}

/-- Attempts to destroy are neither limited nor refused by accident. -/
structure Patient (m : Memory) : Prop where
  unlimited : m.faults.rateLimitAfterDestroys = none
  reliable : m.faults.flakyDestroy = []

def Keeps (m : Memory) (id : Identifier) : Prop :=
  id ∈ m.faults.rejectDestroy ∨ ∃ j q, m.inventory.objects.get? j = some q ∧ id ∈ q.references

/-- The object is locked, or something refers to it that is not to be destroyed or is blocked
itself. -/
inductive Blocked (m : Memory) (pending : List Identifier) : Identifier → Prop
  | locked {id : Identifier} (hid : id ∈ pending) (h : id ∈ m.faults.rejectDestroy) :
      Blocked m pending id
  | outside {id j : Identifier} {q : Resource} (hid : id ∈ pending)
      (hq : m.inventory.objects.get? j = some q) (href : id ∈ q.references) (hj : j ∉ pending) :
      Blocked m pending id
  | blocked {id j : Identifier} {q : Resource} (hid : id ∈ pending)
      (hq : m.inventory.objects.get? j = some q) (href : id ∈ q.references)
      (hj : Blocked m pending j) : Blocked m pending id

theorem Blocked.mem (h : m.Blocked pending id) : id ∈ pending := by
  cases h <;> assumption

theorem Blocked.keeps (h : m.Blocked pending id) : m.Keeps id := by
  cases h with
  | locked _ h => exact .inl h
  | outside _ hq href _ | blocked _ hq href _ => exact .inr ⟨_, _, hq, href⟩

/-- The objects have been destroyed, and nothing else has changed but the count of attempts. -/
structure Stripped (m : Memory) (ids : List Identifier) (m' : Memory) : Prop where
  get?_eq : ∀ id, m'.inventory.objects.get? id =
    if id ∈ ids then none else m.inventory.objects.get? id
  carries_iff : ∀ tag id, m'.inventory.Carries tag id ↔ id ∉ ids ∧ m.inventory.Carries tag id
  loadBalancers : m'.inventory.loadBalancers = m.inventory.loadBalancers
  faults : m'.faults = m.faults
  polls : ∀ id, m'.polls.get? id = if id ∈ ids then none else m.polls.get? id
  journal : m'.journal = { m.journal with destroyed := m.journal.destroyed ++ ids }
  issued : m'.issued = m.issued

namespace Stripped

theorem attempted (m : Memory) (n : Nat) : m.Stripped [] { m with destroyAttempts := n } where
  get?_eq _ := rfl
  carries_iff _ _ := by simp [Inventory.Carries, Inventory.taggedIds]
  loadBalancers := rfl
  faults := rfl
  polls _ := rfl
  journal := by simp
  issued := rfl

theorem destroyed (m : Memory) (id : Identifier) : m.Stripped [id] (m.destroyed id) where
  get?_eq j := by
    rw [Memory.destroyed, Inventory.get?_remove]
    simp [eq_comm]
  carries_iff tag j := by
    rw [Memory.destroyed, Inventory.carries_remove, List.mem_singleton]
  loadBalancers := rfl
  faults := rfl
  polls j := by
    rw [Memory.destroyed, OrderedMap.get?_erase]
    simp [eq_comm]
  journal := rfl
  issued := rfl

theorem trans {ids' : List Identifier} (h : m.Stripped ids m') (h' : m'.Stripped ids' m'') :
    m.Stripped (ids ++ ids') m'' where
  get?_eq id := by
    rw [h'.get?_eq, h.get?_eq]
    simp only [List.mem_append]
    split <;> split <;> simp_all
  carries_iff tag id := by
    rw [h'.carries_iff, h.carries_iff, List.mem_append, not_or]
    tauto
  loadBalancers := h'.loadBalancers.trans h.loadBalancers
  faults := h'.faults.trans h.faults
  polls id := by
    rw [h'.polls, h.polls]
    simp only [List.mem_append]
    split <;> split <;> simp_all
  journal := by
    rw [h'.journal, h.journal]
    simp
  issued := h'.issued.trans h.issued

theorem get?_iff (h : m.Stripped ids m') {r : Resource} :
    m'.inventory.objects.get? id = some r ↔ id ∉ ids ∧ m.inventory.objects.get? id = some r := by
  rw [h.get?_eq]
  split <;> simp_all

end Stripped

theorem destroy_of_keeps (hm : m.Patient) (hk : m.inventory.kindOf? id = some kind)
    (h : m.Keeps id) : ∃ reason, m.destroy kind id =
      (.error (.rejected reason), { m with destroyAttempts := m.destroyAttempts + 1 }) := by
  by_cases hlocked : id ∈ m.faults.rejectDestroy
  · simp [destroy, hm.unlimited, hk, hlocked]
  · obtain ⟨r, hr, rfl⟩ := Inventory.kindOf?_eq_some_iff.1 hk
    have hfree : ¬ m.refusesDestroy id := by
      simp [refusesDestroy, hm.unlimited, hm.reliable, hlocked]
    obtain ⟨j, q, hq, href⟩ := h.resolve_left hlocked
    rw [destroy_eq hfree hr]
    cases hreferrer : m.inventory.referrer? id with
    | none => exact absurd href (Inventory.referrer?_eq_none_iff.1 hreferrer j q hq)
    | some p => exact ⟨_, rfl⟩

theorem destroy_of_not_keeps (hm : m.Patient) (hk : m.inventory.kindOf? id = some kind)
    (h : ¬ m.Keeps id) : m.destroy kind id = (.ok (), m.destroyed id) := by
  obtain ⟨r, hr, rfl⟩ := Inventory.kindOf?_eq_some_iff.1 hk
  have hlocked : id ∉ m.faults.rejectDestroy := fun hlocked => h (.inl hlocked)
  have hfree : ¬ m.refusesDestroy id := by
    simp [refusesDestroy, hm.unlimited, hm.reliable, hlocked]
  have hnone : m.inventory.referrer? id = none := by
    apply Inventory.referrer?_eq_none_iff.2
    intro j q hq href
    exact h (.inr ⟨j, q, hq, href⟩)
  rw [destroy_eq hfree hr, hnone]

/-- Attempts of which those succeed that concern an object which is not kept. -/
inductive Strips : Memory → List Attempt → Memory → Prop
  | nil {m : Memory} : Strips m [] m
  | refused {m m' : Memory} {a : Attempt} {attempts : List Attempt} (ha : a.IsRefused)
      (hkeeps : m.Keeps a.id)
      (h : Strips { m with destroyAttempts := m.destroyAttempts + 1 } attempts m') :
      Strips m (a :: attempts) m'
  | gone {m m' : Memory} {a : Attempt} {attempts : List Attempt} (ha : a.IsGone)
      (hkeeps : ¬ m.Keeps a.id) (h : Strips (m.destroyed a.id) attempts m') :
      Strips m (a :: attempts) m'

/-- So does a patient provider, as long as objects are attempted that are there. -/
theorem strips_of_grants (hm : m.Patient) (h : (provider fresh).Grants m attempts m')
    (hthere : ∀ a ∈ attempts, m.inventory.kindOf? a.id = some a.kind)
    (honce : attempts.Pairwise fun a b => a.IsGone → b.id ≠ a.id) : m.Strips attempts m' := by
  induction attempts generalizing m with
  | nil =>
    rw [show m' = m from h]
    exact .nil
  | cons a attempts ih =>
    obtain ⟨hanswer, h⟩ := h
    obtain ⟨hne, honce⟩ := List.pairwise_cons.1 honce
    have hk := hthere a List.mem_cons_self
    have hthere (b : Attempt) (hb : b ∈ attempts) := hthere b (List.mem_cons_of_mem _ hb)
    change (m.destroy a.kind a.id).1 = a.answer at hanswer
    change (provider fresh).Grants (m.destroy a.kind a.id).2 attempts m' at h
    by_cases hkeeps : m.Keeps a.id
    · obtain ⟨reason, hdestroy⟩ := destroy_of_keeps hm hk hkeeps
      rw [hdestroy] at hanswer h
      have ha : a.IsRefused := by
        simp [Attempt.IsRefused, Attempt.IsGone, Attempt.IsLimited, ← hanswer]
      exact .refused ha hkeeps (ih ⟨hm.unlimited, hm.reliable⟩ h hthere honce)
    · rw [destroy_of_not_keeps hm hk hkeeps] at hanswer h
      have ha : a.IsGone := .inl hanswer.symm
      apply Strips.gone ha hkeeps (ih ⟨hm.unlimited, hm.reliable⟩ h _ honce)
      intro b hb
      rw [Inventory.kindOf?, (Stripped.destroyed m a.id).get?_eq,
        if_neg (by simpa using hne b hb ha)]
      exact hthere b hb

def goneIds (attempts : List Attempt) : List Identifier :=
  (attempts.filter fun a => a.IsGone).map Attempt.id

theorem mem_goneIds : id ∈ goneIds attempts ↔ ∃ a ∈ attempts, a.IsGone ∧ a.id = id := by
  simp [goneIds, and_assoc]

theorem goneIds_nodup (honce : attempts.Pairwise fun a b => a.IsGone → b.id ≠ a.id) :
    (goneIds attempts).Nodup := by
  apply List.pairwise_map.2
  apply List.pairwise_filter.2
  apply honce.imp
  intro a b hne ha _
  exact (hne (of_decide_eq_true ha)).symm

theorem goneIds_eq_nil (h : ∀ a ∈ attempts, a.IsRefused) : goneIds attempts = [] := by
  rw [goneIds, List.filter_eq_nil_iff.2, List.map_nil]
  intro a ha
  simpa using (h a ha).1

namespace Strips

theorem not_isLimited (h : m.Strips attempts m') (ha : a ∈ attempts) : ¬ a.IsLimited := by
  induction h with
  | nil => cases ha
  | refused hrefused _ _ ih =>
    rcases List.mem_cons.1 ha with rfl | ha
    · exact hrefused.2
    · exact ih ha
  | gone hgone _ _ ih =>
    rcases List.mem_cons.1 ha with rfl | ha
    · exact hgone.not_isLimited
    · exact ih ha

theorem exists_of_append {before after : List Attempt} (h : m.Strips (before ++ after) m') :
    ∃ t, m.Strips before t ∧ t.Strips after m' := by
  induction before generalizing m with
  | nil => exact ⟨m, .nil, h⟩
  | cons a before ih =>
    cases h with
    | refused ha hkeeps h =>
      obtain ⟨t, hbefore, hafter⟩ := ih h
      exact ⟨t, .refused ha hkeeps hbefore, hafter⟩
    | gone ha hkeeps h =>
      obtain ⟨t, hbefore, hafter⟩ := ih h
      exact ⟨t, .gone ha hkeeps hbefore, hafter⟩

theorem stripped (h : m.Strips attempts m') : m.Stripped (goneIds attempts) m' := by
  induction h with
  | @nil m => exact .attempted m m.destroyAttempts
  | @refused m m' a attempts ha _ _ ih =>
    rw [goneIds, List.filter_cons_of_neg (by simpa using ha.1)]
    exact (Stripped.attempted m _).trans ih
  | @gone m m' a attempts ha _ _ ih =>
    rw [goneIds, List.filter_cons_of_pos (by simpa using ha)]
    exact (Stripped.destroyed m a.id).trans ih

end Strips

theorem Stripped.keeps_iff_of_nil (h : m.Stripped [] m') : m'.Keeps id ↔ m.Keeps id := by
  simp only [Keeps, h.faults, h.get?_eq, List.not_mem_nil, if_false]

/-- What refused attempts are about is kept in the end. -/
theorem Strips.keeps (h : m.Strips attempts m') (hrefused : ∀ a ∈ attempts, a.IsRefused)
    (ha : a ∈ attempts) : m'.Keeps a.id := by
  induction h with
  | nil => cases ha
  | @refused m m' b attempts _ hkeeps h ih =>
    have hrest (c : Attempt) (hc : c ∈ attempts) := hrefused c (List.mem_cons_of_mem _ hc)
    rcases List.mem_cons.1 ha with rfl | ha
    · have hstripped := h.stripped
      rw [goneIds_eq_nil hrest] at hstripped
      exact hstripped.keeps_iff_of_nil.2 ((Stripped.attempted m _).keeps_iff_of_nil.2 hkeeps)
    · exact ih hrest ha
  | gone hb _ _ _ => exact absurd hb (hrefused _ List.mem_cons_self).1

/-- What is blocked stays blocked when objects are destroyed that are not. -/
theorem Blocked.of_stripped (h : m.Blocked pending id) (hm : m.Stripped ids m')
    (hids : ∀ j ∈ ids, j ∈ pending ∧ ¬ m.Blocked pending j) : m'.Blocked pending id := by
  induction h with
  | locked hid hlocked => exact .locked hid (hm.faults ▸ hlocked)
  | outside hid hq href hj =>
    exact .outside hid (hm.get?_iff.2 ⟨fun hmem => hj (hids _ hmem).1, hq⟩) href hj
  | blocked hid hq href hj ih =>
    exact .blocked hid (hm.get?_iff.2 ⟨fun hmem => (hids _ hmem).2 hj, hq⟩) href ih

theorem Strips.not_blocked (h : m.Strips attempts m') (hpending : ∀ a ∈ attempts, a.id ∈ pending)
    (ha : a ∈ attempts) (hgone : a.IsGone) : ¬ m.Blocked pending a.id := by
  induction h with
  | nil => cases ha
  | @refused m m' b attempts hb _ _ ih =>
    rcases List.mem_cons.1 ha with rfl | ha
    · exact absurd hgone hb.1
    · intro hblocked
      apply ih (fun c hc => hpending c (List.mem_cons_of_mem _ hc)) ha
      exact hblocked.of_stripped (.attempted m _) nofun
  | @gone m m' b attempts hb hkeeps _ ih =>
    have hfree : ¬ m.Blocked pending b.id := fun hblocked => hkeeps hblocked.keeps
    rcases List.mem_cons.1 ha with rfl | ha
    · exact hfree
    · intro hblocked
      apply ih (fun c hc => hpending c (List.mem_cons_of_mem _ hc)) ha
      apply hblocked.of_stripped (.destroyed m b.id)
      intro j hj
      rw [List.mem_singleton.1 hj]
      exact ⟨hpending b List.mem_cons_self, hfree⟩

/-- If all that is left is kept, it is blocked: at the end of what keeps it there is an object that is
locked, or that was not to be destroyed. -/
theorem Stripped.blocked (hm : m.Stripped ids m') (hacyclic : m.inventory.Acyclic)
    (hthere : ∀ id ∈ pending, ∃ r, m.inventory.objects.get? id = some r)
    (hkeeps : ∀ id ∈ pending, id ∉ ids → m'.Keeps id) (hid : id ∈ pending) (hn : id ∉ ids) :
    m.Blocked pending id := by
  have _ : IsStrictOrder Identifier (Relation.TransGen m.inventory.Refers) :=
    { irrefl := hacyclic, trans := fun _ _ _ => Relation.TransGen.trans }
  have hwf : {id | id ∈ pending}.WellFoundedOn (Relation.TransGen m.inventory.Refers) :=
    pending.finite_toSet.wellFoundedOn
  -- The induction goes from what refers to what is referred to.
  refine hwf.induction (P := fun id => id ∉ ids → m.Blocked pending id) hid ?_ hn
  intro id hid ih hn
  rcases hkeeps id hid hn with hlocked | ⟨j, q, hq, href⟩
  · exact .locked hid (hm.faults ▸ hlocked)
  · obtain ⟨hj, hq⟩ := hm.get?_iff.1 hq
    by_cases hp : j ∈ pending
    · obtain ⟨r, hr⟩ := hthere id hid
      exact .blocked hid hq href (ih j hp (.single ⟨q, r, hq, hr, href⟩) hj)
    · exact .outside hid hq href hp

/-- Nothing in the queue is locked, and what refers to it comes before it in the queue. -/
structure Unhindered (m : Memory) (queue : List Resource) : Prop where
  unlocked : ∀ r ∈ queue, ∀ id, r.identifier = some id → id ∉ m.faults.rejectDestroy
  referrer : ∀ r ∈ queue, ∀ id, r.identifier = some id → ∀ j q,
    m.inventory.objects.get? j = some q → id ∈ q.references →
      ∃ p ∈ queue, p.identifier = some j ∧ r.kind.rank < p.kind.rank

theorem Strips.refused_eq_nil {queue refused : List Resource} (h : m.Strips attempts m')
    (hm : m.Unhindered queue) (htried : Tried queue attempts refused)
    (hsorted : queue.Pairwise fun r q => q.kind.rank ≤ r.kind.rank) : refused = [] := by
  induction htried generalizing m with
  | nil => rfl
  | @gone r queue a attempts refused ha hg _ ih =>
    obtain ⟨-, hsorted⟩ := List.pairwise_cons.1 hsorted
    cases h with
    | refused hrefused _ _ => exact absurd hg hrefused.1
    | gone _ _ h =>
      apply ih h _ hsorted
      constructor
      · intro q hq
        exact hm.unlocked q (List.mem_cons_of_mem _ hq)
      · intro q hq id hid j p hp href
        obtain ⟨hj, hp⟩ := (Stripped.destroyed m a.id).get?_iff.1 hp
        obtain ⟨t, ht, htid, hlt⟩ := hm.referrer q (List.mem_cons_of_mem _ hq) id hid j p hp href
        rcases List.mem_cons.1 ht with rfl | ht
        · cases htid.symm.trans ha.2
          exact absurd (List.mem_singleton_self _) hj
        · exact ⟨t, ht, htid, hlt⟩
  | @refused r queue a attempts refused ha hrefused _ _ =>
    obtain ⟨hle, -⟩ := List.pairwise_cons.1 hsorted
    cases h with
    | gone hgone _ _ => exact absurd hgone hrefused.1
    | refused _ hkeeps _ =>
      rcases hkeeps with hlocked | ⟨j, q, hq, href⟩
      · exact absurd hlocked (hm.unlocked r List.mem_cons_self _ ha.2)
      · obtain ⟨p, hp, -, hlt⟩ := hm.referrer r List.mem_cons_self _ ha.2 j q hq href
        rcases List.mem_cons.1 hp with rfl | hp
        · exact absurd hlt (Nat.lt_irrefl _)
        · exact absurd (hle p hp) (Nat.not_le_of_lt hlt)

/-- The resources are objects that are there, each of them once and of its own kind. -/
structure Lists (m : Memory) (rs : List Resource) : Prop where
  distinct : (rs.map Resource.identifier).Nodup
  present : ∀ r ∈ rs, ∃ id, r.identifier = some id ∧ m.inventory.kindOf? id = some r.kind

/-- Among the resources, what refers to others is of higher rank. -/
def Descends (m : Memory) (rs : List Resource) : Prop :=
  ∀ r ∈ rs, ∀ q ∈ rs, ∀ id j, r.identifier = some id → q.identifier = some j →
    m.inventory.Refers id j → q.kind.rank < r.kind.rank

/-- What is to be destroyed is gone unless it is blocked, and what is blocked is told. -/
structure Dismantled (m : Memory) (rs : List Resource) (attempts : List Attempt)
    (out : Except Failure Unit) (m' : Memory) : Prop where
  stripped : ∃ ids, ids.Nodup ∧
    (∀ id, id ∈ ids ↔ id ∈ identifiers rs ∧ ¬ m.Blocked (identifiers rs) id) ∧ m.Stripped ids m'
  ok_iff : out = .ok () ↔ ∀ id, ¬ m.Blocked (identifiers rs) id
  stuck : (∃ id, m.Blocked (identifiers rs) id) → ∃ ids, out = .error (.notDestroyable ids) ∧
    ids.Nodup ∧ ∀ id, id ∈ ids ↔ m.Blocked (identifiers rs) id
  /-- If nothing is blocked and no rank is out of order, every object is attempted once. -/
  once : m.Descends rs → (∀ id, ¬ m.Blocked (identifiers rs) id) →
    (attempts.map Attempt.id).Perm (identifiers rs)

variable {rs queue : List Resource} {r : Resource} {out : Except Failure Unit}

namespace Lists

theorem identified (h : m.Lists rs) : ∀ r ∈ rs, ∃ id, r.identifier = some id := by
  intro r hr
  obtain ⟨id, hid, -⟩ := h.present r hr
  exact ⟨id, hid⟩

theorem kindOf?_eq (h : m.Lists rs) (hr : r ∈ rs) (hid : r.identifier = some id) :
    m.inventory.kindOf? id = some r.kind := by
  obtain ⟨j, hj, hk⟩ := h.present r hr
  rw [Option.some.inj (hid.symm.trans hj)]
  exact hk

theorem exists_get? (h : m.Lists rs) (hid : id ∈ identifiers rs) :
    ∃ q, m.inventory.objects.get? id = some q := by
  obtain ⟨r, hr, hid⟩ := Snapshot.mem_identifiers.1 hid
  obtain ⟨q, hq, -⟩ := Inventory.kindOf?_eq_some_iff.1 (h.kindOf?_eq hr hid)
  exact ⟨q, hq⟩

end Lists

theorem mem_identifiers_remaining (hof : ∀ a ∈ attempts, ∃ r ∈ rs, a.Of r)
    (hd : (rs.map Resource.identifier).Nodup) :
    id ∈ identifiers (remaining attempts rs) ↔ id ∈ identifiers rs ∧ id ∉ goneIds attempts := by
  rw [Snapshot.mem_identifiers, Snapshot.mem_identifiers, mem_goneIds]
  constructor
  · rintro ⟨r, hr, hid⟩
    obtain ⟨hr, hleft⟩ := List.mem_filter.1 hr
    refine ⟨⟨r, hr, hid⟩, ?_⟩
    rintro ⟨a, ha, hgone, heq⟩
    obtain ⟨q, hq, haq⟩ := hof a ha
    have hqr : q = r := by
      apply List.inj_on_of_nodup_map hd hq hr
      rw [haq.2, hid, heq]
    exact of_decide_eq_true hleft ⟨a, ha, hqr ▸ haq, hgone⟩
  · rintro ⟨⟨r, hr, hid⟩, hn⟩
    refine ⟨r, List.mem_filter.2 ⟨hr, decide_eq_true ?_⟩, hid⟩
    rintro ⟨a, ha, har, hgone⟩
    exact hn ⟨a, ha, hgone, Option.some.inj (har.2.symm.trans hid)⟩

namespace Strips

theorem blocked_iff (h : m.Strips attempts m') (haccounts : Accounts rs attempts out)
    (hacyclic : m.inventory.Acyclic) (hrs : m.Lists rs) :
    m.Blocked (identifiers rs) id ↔ id ∈ identifiers (remaining attempts rs) := by
  have hleft (id : Identifier) : id ∈ identifiers (remaining attempts rs) ↔
      id ∈ identifiers rs ∧ id ∉ goneIds attempts :=
    mem_identifiers_remaining haccounts.attempted hrs.distinct
  constructor
  · intro hblocked
    apply (hleft id).2 ⟨hblocked.mem, _⟩
    intro hmem
    obtain ⟨a, ha, hgone, rfl⟩ := mem_goneIds.1 hmem
    apply h.not_blocked _ ha hgone hblocked
    intro b hb
    obtain ⟨r, hr, hbr⟩ := haccounts.attempted b hb
    exact Snapshot.mem_identifiers.2 ⟨r, hr, hbr.2⟩
  · intro hid
    obtain ⟨hp, hn⟩ := (hleft id).1 hid
    apply h.stripped.blocked hacyclic (fun _ => hrs.exists_get?) _ hp hn
    -- What is left was refused in the last pass, in which nothing has changed.
    intro j hj hn
    have hj := (hleft j).2 ⟨hj, hn⟩
    have hne : out ≠ .ok () := by
      intro hok
      rw [remaining_eq_nil_iff.2 (haccounts.ok_iff.1 hok)] at hj
      cases hj
    obtain ⟨before, last, heq, hrefused, -, -, hperm⟩ :=
      haccounts.stuck (fun a ha => h.not_isLimited ha) hne
    rw [heq] at h
    obtain ⟨t, -, hlast⟩ := h.exists_of_append
    obtain ⟨a, ha, rfl⟩ := List.mem_map.1 (hperm.mem_iff.2 hj)
    exact hlast.keeps hrefused ha

theorem mem_goneIds_iff (h : m.Strips attempts m') (haccounts : Accounts rs attempts out)
    (hacyclic : m.inventory.Acyclic) (hrs : m.Lists rs) :
    id ∈ goneIds attempts ↔ id ∈ identifiers rs ∧ ¬ m.Blocked (identifiers rs) id := by
  have hsub : id ∈ goneIds attempts → id ∈ identifiers rs := by
    intro hmem
    obtain ⟨a, ha, -, rfl⟩ := mem_goneIds.1 hmem
    obtain ⟨r, hr, har⟩ := haccounts.attempted a ha
    exact Snapshot.mem_identifiers.2 ⟨r, hr, har.2⟩
  rw [h.blocked_iff haccounts hacyclic hrs,
    mem_identifiers_remaining haccounts.attempted hrs.distinct]
  tauto

theorem ok_iff (h : m.Strips attempts m') (haccounts : Accounts rs attempts out)
    (hacyclic : m.inventory.Acyclic) (hrs : m.Lists rs) :
    out = .ok () ↔ ∀ id, ¬ m.Blocked (identifiers rs) id := by
  simp only [h.blocked_iff haccounts hacyclic hrs]
  rw [haccounts.ok_iff, ← remaining_eq_nil_iff]
  constructor
  · intro hnil id hmem
    rw [hnil] at hmem
    cases hmem
  · intro hfree
    apply List.eq_nil_iff_forall_not_mem.2
    intro r hr
    obtain ⟨id, hid⟩ := hrs.identified r (List.mem_filter.1 hr).1
    exact hfree id (Snapshot.mem_identifiers.2 ⟨r, hr, hid⟩)

end Strips

/-- Without anything blocked, what refers to a resource comes before it. -/
theorem Descends.unhindered (h : m.Descends rs) (hfree : ∀ id, ¬ m.Blocked (identifiers rs) id)
    (hrs : m.Lists rs) (hperm : queue.Perm rs) : m.Unhindered queue := by
  constructor
  · intro r hr id hid hlocked
    have hp := Snapshot.mem_identifiers.2 ⟨r, hperm.mem_iff.1 hr, hid⟩
    exact hfree id (.locked hp hlocked)
  · intro r hr id hid j q hq href
    have hr := hperm.mem_iff.1 hr
    have hp := Snapshot.mem_identifiers.2 ⟨r, hr, hid⟩
    have hj : j ∈ identifiers rs := by
      by_contra hj
      exact hfree id (.outside hp hq href hj)
    obtain ⟨p, hp', hpj⟩ := Snapshot.mem_identifiers.1 hj
    obtain ⟨o, ho⟩ := hrs.exists_get? hp
    exact ⟨p, hperm.mem_iff.2 hp', hpj, h p hp' r hr j id hpj hid ⟨q, o, hq, ho, href⟩⟩

/-- If the first pass destroys all of it, there is no other one. -/
theorem Strips.map_id_perm (h : m.Strips attempts m') (hm : m.Unhindered queue)
    (hsorted : queue.Pairwise fun r q => q.kind.rank ≤ r.kind.rank)
    (hpasses : Passes queue attempts out) :
    (attempts.map Attempt.id).Perm (identifiers queue) := by
  cases hpasses with
  | done htried =>
    rw [htried.map_id]
  | stuck htried hne _ => exact absurd (h.refused_eq_nil hm htried hsorted) hne
  | again htried hne _ _ =>
    obtain ⟨t, hfirst, -⟩ := h.exists_of_append
    exact absurd (hfirst.refused_eq_nil hm htried hsorted) hne
  | limited _ _ hl => exact absurd hl (h.not_isLimited (by simp))

theorem Strips.dismantled (h : m.Strips attempts m') (hacyclic : m.inventory.Acyclic)
    (hrs : m.Lists rs) (hperm : queue.Perm rs)
    (hsorted : queue.Pairwise fun r q => q.kind.rank ≤ r.kind.rank)
    (hpasses : Passes queue attempts out) : Dismantled m rs attempts out m' := by
  have haccounts := hpasses.accounts hperm hrs.distinct
  have hok := h.ok_iff haccounts hacyclic hrs
  refine ⟨⟨goneIds attempts, goneIds_nodup haccounts.gone_once, ?_, h.stripped⟩, hok, ?_, ?_⟩
  · intro id
    exact h.mem_goneIds_iff haccounts hacyclic hrs
  · rintro ⟨id, hb⟩
    have hne : out ≠ .ok () := fun heq => hok.1 heq id hb
    obtain ⟨before, last, -, -, hout, hn, hids⟩ :=
      haccounts.stuck (fun a ha => h.not_isLimited ha) hne
    refine ⟨_, hout, hn, ?_⟩
    intro id
    rw [h.blocked_iff haccounts hacyclic hrs, hids.mem_iff]
  · intro hdescends hfree
    have hunhindered := hdescends.unhindered hfree hrs hperm
    exact (h.map_id_perm hunhindered hsorted hpasses).trans (hperm.filterMap _)

/-- Without a cancellation, all objects are destroyed that are not blocked, in whatever order they
were given. -/
theorem destroyAll_dismantles {k : Conditions Memory} {s : Surroundings Memory}
    (hs : s.Calm fresh k) (hm : s.provider.Patient) (hacyclic : s.provider.inventory.Acyclic)
    (hrs : s.provider.Lists rs) :
    ∃ attempts out s', (destroyAll rs).run (Surroundings.handler k) s = (some out, s') ∧
      s.Attempted k attempts s' ∧ Dismantled s.provider rs attempts out s'.provider := by
  have hn : rs.Nodup := hrs.distinct.of_map _
  obtain ⟨attempts, out, s', hrun, hattempted, hpasses⟩ :=
    exists_passes hs.toUncanceled hs.leads hrs.identified hn
  have hperm : (byRank [2, 1, 0] rs).Perm rs := byRank_perm (by decide) (by decide) hn
  have haccounts := hpasses.accounts hperm hrs.distinct
  have hgrants := hattempted.grants
  rw [hs.own] at hgrants
  have hstrips : s.provider.Strips attempts s'.provider := by
    apply strips_of_grants hm hgrants _ haccounts.gone_once
    intro a ha
    obtain ⟨r, hr, har⟩ := haccounts.attempted a ha
    rw [← har.1]
    exact hrs.kindOf?_eq hr har.2
  exact ⟨attempts, out, s', hrun, hattempted,
    hstrips.dismantled hacyclic hrs hperm (byRank_descending rs) hpasses⟩

end Memory

namespace Sample

/-- A frontend is locked, and a backend is the default of one that stays. -/
def entangled : Memory :=
  { Memory.ofInventory
      { loadBalancers := .ofList [⟨"lb-1"⟩]
        objects := .ofList
          [(⟨"b-1"⟩, .backend ⟨some ⟨"b-1"⟩, "a", ⟨"lb-1"⟩, .tcp, .tcp, .ready false⟩),
            (⟨"b-2"⟩, .backend ⟨some ⟨"b-2"⟩, "b", ⟨"lb-1"⟩, .tcp, .tcp, .ready false⟩),
            (⟨"f-1"⟩, .frontend ⟨some ⟨"f-1"⟩, "a", ⟨"lb-1"⟩, ⟨"b-1"⟩, .tcp, .ready false⟩),
            (⟨"f-2"⟩, .frontend ⟨some ⟨"f-2"⟩, "b", ⟨"lb-1"⟩, ⟨"b-2"⟩, .tcp, .ready false⟩),
            (⟨"i-1"⟩, .bind ⟨some ⟨"i-1"⟩, "a", ⟨"f-1"⟩, .v4 ⟨[192, 0, 2, 3], rfl⟩, 80,
              .ready false⟩)]
        tags := ∅ } 0 with
    faults := { Faults.none with rejectDestroy := [⟨"f-1"⟩] } }

def abandoned : List Resource := entangled.inventory.objects.values.filter fun r =>
  r.identifier ≠ some ⟨"f-2"⟩

end Sample

theorem sample_dismantles :
    (Surroundings.initial Sample.entangled).Calm .scattered
      ⟨Memory.provider .scattered, Memory.provider .scattered, fun _ => false⟩ ∧
    Sample.entangled.Patient ∧ Sample.entangled.inventory.Acyclic ∧
    Sample.entangled.Lists Sample.abandoned ∧
    ∃ attempts s', (destroyAll Sample.abandoned).run
        (Surroundings.handler
          ⟨Memory.provider .scattered, Memory.provider .scattered, fun _ => false⟩)
        (.initial Sample.entangled) =
          (some (.error (.notDestroyable [⟨"f-1"⟩, ⟨"b-1"⟩, ⟨"b-2"⟩])), s') ∧
      Memory.Dismantled Sample.entangled Sample.abandoned attempts
        (.error (.notDestroyable [⟨"f-1"⟩, ⟨"b-1"⟩, ⟨"b-2"⟩])) s'.provider := by
  have hs : (Surroundings.initial Sample.entangled).Calm .scattered
      ⟨Memory.provider .scattered, Memory.provider .scattered, fun _ => false⟩ :=
    ⟨⟨rfl, rfl, fun _ => rfl⟩, rfl, rfl⟩
  have hclosed : Sample.entangled.inventory.Closed (.ofService "1") none := by decide +kernel
  have hacyclic := Inventory.acyclic_of_resolves hclosed.resolved hclosed.apart
  have hrs : Sample.entangled.Lists Sample.abandoned := by
    refine ⟨by decide +kernel, ?_⟩
    intro r hr
    obtain ⟨id, hid⟩ := OrderedMap.mem_values_iff.1 (List.mem_filter.1 hr).1
    exact ⟨id, hclosed.stored id r hid, Inventory.kindOf?_eq_some_iff.2 ⟨r, hid, rfl⟩⟩
  have hout : ((destroyAll Sample.abandoned).run
      (Surroundings.handler
        ⟨Memory.provider .scattered, Memory.provider .scattered, fun _ => false⟩)
      (.initial Sample.entangled)).1 =
        some (.error (.notDestroyable [⟨"f-1"⟩, ⟨"b-1"⟩, ⟨"b-2"⟩])) := by decide +kernel
  obtain ⟨attempts, out, s', hrun, -, hdismantled⟩ :=
    Memory.destroyAll_dismantles hs ⟨rfl, rfl⟩ hacyclic hrs
  rw [hrun] at hout
  cases hout
  exact ⟨hs, ⟨rfl, rfl⟩, hacyclic, hrs, attempts, s', hrun, hdismantled⟩

end BalancerSync
