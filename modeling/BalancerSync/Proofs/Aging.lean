import BalancerSync.Proofs.Integrity
import BalancerSync.Proofs.Looks

namespace BalancerSync

def Call.Concerns (id : Identifier) : Call → Prop
  | .get _ j | .destroy _ j => j = id
  | _ => False

instance (id : Identifier) : DecidablePred (Call.Concerns id)
  | .get _ j | .destroy _ j => inferInstanceAs (Decidable (j = id))
  | .list _ | .create _ | .tag _ _ => inferInstanceAs (Decidable False)

def Faults.statusAfter (f : Faults) (looks : Nat) (name : String) : Status :=
  if f.readyAfterPolls ≤ looks then f.finalStatus name else .progressing

theorem Faults.readiness_statusAfter (f : Faults) (looks : Nat) (name : String) :
    (f.statusAfter looks name).readiness = if f.readyAfterPolls ≤ looks then
      if name ∈ f.deployFailed then .failed else .ready else .progressing := by
  rw [statusAfter, finalStatus]
  by_cases hlooks : f.readyAfterPolls ≤ looks <;> by_cases hname : name ∈ f.deployFailed <;>
    simp [hlooks, hname, Status.readiness]

namespace Memory

variable {m : Memory} {fresh : Nat → Identifier} {f : Faults} {c : Call} {calls : List Call}
  {kind : Kind} {name : String} {id j : Identifier} {looks : Nat} {q : Resource}

theorem destroy_cases (m : Memory) (kind : Kind) (id : Identifier) :
    ((m.destroy kind id).2.polls = m.polls ∧ (m.destroy kind id).2.inventory = m.inventory) ∨
      (m.destroy kind id).2 = m.destroyed id := by
  unfold destroy
  extract_lets limited attempted
  split
  · exact .inl ⟨rfl, rfl⟩
  · split
    · exact .inl ⟨rfl, rfl⟩
    · split
      · exact .inl ⟨rfl, rfl⟩
      · split
        · exact .inl ⟨rfl, rfl⟩
        · split
          · exact .inl ⟨rfl, rfl⟩
          · exact .inr rfl

theorem polls_answer (hc : ¬ c.Concerns id) :
    ((provider fresh).answer c m).2.polls.get? id = m.polls.get? id := by
  cases c with
  | get kind j => exact (m.got kind j).polls_of_ne hc
  | destroy kind j =>
    change (m.destroy kind j).2.polls.get? id = _
    rcases m.destroy_cases kind j with ⟨hp, -⟩ | hdestroyed
    · rw [hp]
    · rw [hdestroyed]
      exact OrderedMap.get?_erase_of_ne _ hc
  | list tag =>
    have hlisted := m.wasListed tag
    change (m.list tag).2.polls.get? id = _
    generalize m.list tag = out at hlisted
    cases hlisted <;> rfl
  | create r =>
    have hcreated := m.wasCreated fresh r
    change (m.create fresh r).2.polls.get? id = _
    generalize m.create fresh r = out at hcreated
    cases hcreated <;> rfl
  | tag i tag =>
    have htagged := m.wasTagged i tag
    change (m.tag i tag).2.polls.get? id = _
    generalize m.tag i tag = out at htagged
    cases htagged <;> rfl

/-- An object that is not concerned stays as it is. -/
theorem get?_answer (hf : m.Fresh fresh) (hc : ¬ c.Concerns id)
    (hq : m.inventory.objects.get? id = some q) :
    ((provider fresh).answer c m).2.inventory.objects.get? id = some q := by
  rcases (m.effect fresh c).get?_cases hf hq with h | ⟨rfl, -⟩ | ⟨rfl, -⟩
  · exact h
  · exact absurd rfl hc
  · exact absurd rfl hc

/-- The provider counts looks at objects only that are there, and deploys as it was set up to do. -/
structure Orderly (fresh : Nat → Identifier) (f : Faults) (m : Memory) : Prop where
  fresh : m.Fresh fresh
  counts : ∀ id ∈ m.polls.keys, id ∈ m.inventory.objects.keys
  readyAfterPolls : m.faults.readyAfterPolls = f.readyAfterPolls
  deployFailed : m.faults.deployFailed = f.deployFailed

namespace Orderly

theorem of_fresh (hf : m.Fresh fresh) (hp : m.polls = ∅) : m.Orderly fresh m.faults where
  fresh := hf
  counts := by
    rw [hp]
    nofun
  readyAfterPolls := rfl
  deployFailed := rfl

theorem finalStatus (h : m.Orderly fresh f) (name : String) :
    m.faults.finalStatus name = f.finalStatus name := by
  rw [Faults.finalStatus, h.deployFailed, Faults.finalStatus]

theorem answer (h : m.Orderly fresh f) (c : Call) :
    ((provider fresh).answer c m).2.Orderly fresh f := by
  obtain ⟨hfaults, -⟩ := m.faultsKept_answer fresh c
  refine ⟨(m.effect fresh c).still_fresh h.fresh, ?_, ?_, ?_⟩
  · intro id hid
    by_cases hc : c.Concerns id
    · cases c with
      | get kind j =>
        cases hc
        have hgot := m.got kind id
        change id ∈ (m.get kind id).2.polls.keys at hid
        change id ∈ (m.get kind id).2.inventory.objects.keys
        generalize m.get kind id = out at hgot hid
        cases hgot with
        | missing | settled => exact h.counts id hid
        | deployed hr => exact absurd rfl (OrderedMap.mem_keys_erase.1 hid).1
        | counted hr => exact OrderedMap.mem_keys_of_get? hr
      | destroy kind j =>
        cases hc
        change id ∈ (m.destroy kind id).2.polls.keys at hid
        change id ∈ (m.destroy kind id).2.inventory.objects.keys
        rcases m.destroy_cases kind id with ⟨hp, hv⟩ | hdestroyed
        · rw [hp] at hid
          rw [hv]
          exact h.counts id hid
        · rw [hdestroyed] at hid
          exact absurd rfl (OrderedMap.mem_keys_erase.1 hid).1
      | list | create | tag => exact hc.elim
    · obtain ⟨n, hn⟩ := OrderedMap.mem_keys_iff.1 hid
      rw [polls_answer hc] at hn
      obtain ⟨q, hq⟩ := OrderedMap.mem_keys_iff.1 (h.counts id (OrderedMap.mem_keys_of_get? hn))
      exact OrderedMap.mem_keys_of_get? (get?_answer h.fresh hc hq)
  · rw [hfaults]
    exact h.readyAfterPolls
  · rw [hfaults]
    exact h.deployFailed

theorem after (h : m.Orderly fresh f) (calls : List Call) :
    ((provider fresh).after m calls).Orderly fresh f := by
  induction calls generalizing m with
  | nil => exact h
  | cons c calls ih => exact ih (h.answer c)

end Orderly

structure Aged (fresh : Nat → Identifier) (f : Faults) (m : Memory) (kind : Kind) (name : String)
    (id : Identifier) (looks : Nat) : Prop extends m.Orderly fresh f where
  object : ∃ q, m.inventory.objects.get? id = some q ∧ q.kind = kind ∧ q.name = name ∧
    q.status = f.statusAfter looks name
  polls : looks < f.readyAfterPolls → (m.polls.get? id).getD 0 = looks

namespace Aged

theorem answer (h : m.Aged fresh f kind name id looks) (hc : ¬ c.Concerns id) :
    ((provider fresh).answer c m).2.Aged fresh f kind name id looks where
  toOrderly := h.toOrderly.answer c
  object := by
    obtain ⟨q, hq, hobject⟩ := h.object
    exact ⟨q, get?_answer h.fresh hc hq, hobject⟩
  polls hlt := by
    rw [polls_answer hc]
    exact h.polls hlt

theorem after (h : m.Aged fresh f kind name id looks) (hc : ∀ c ∈ calls, ¬ c.Concerns id) :
    ((provider fresh).after m calls).Aged fresh f kind name id looks := by
  induction calls generalizing m with
  | nil => exact h
  | cons c calls ih =>
    exact ih (h.answer (hc c List.mem_cons_self)) fun c hm => hc c (List.mem_cons_of_mem _ hm)

theorem get (h : m.Aged fresh f kind name id looks) :
    (∃ q, (m.get kind id).1 = .ok q ∧ q.status = f.statusAfter (looks + 1) name) ∧
      (m.get kind id).2.Aged fresh f kind name id (looks + 1) := by
  obtain ⟨q, hq, hkind, hname, hstatus⟩ := h.object
  have horderly : (m.get kind id).2.Orderly fresh f := h.toOrderly.answer (.get kind id)
  have hgot := m.got kind id
  generalize m.get kind id = out at hgot horderly
  cases hgot with
  | missing hk => exact absurd (Inventory.kindOf?_eq_some_iff.2 ⟨q, hq, hkind⟩) hk
  | settled hr hk hs =>
    cases hq.symm.trans hr
    have hle : f.readyAfterPolls ≤ looks := by
      by_contra hlt
      rw [Faults.statusAfter, if_neg hlt] at hstatus
      exact hs hstatus
    have hnext : f.statusAfter (looks + 1) name = f.statusAfter looks name := by
      rw [Faults.statusAfter, if_pos (by omega), Faults.statusAfter, if_pos hle]
    rw [← hnext] at hstatus
    exact ⟨⟨q, rfl, hstatus⟩, horderly, ⟨q, hq, hkind, hname, hstatus⟩, by omega⟩
  | deployed hr hk hs hp =>
    cases hq.symm.trans hr
    have hlt : looks < f.readyAfterPolls := by
      by_contra hle
      rw [hs, Faults.statusAfter, if_pos (by omega)] at hstatus
      cases hstatus
    rw [h.polls hlt, h.readyAfterPolls] at hp
    have hnext : f.statusAfter (looks + 1) name = f.finalStatus name := if_pos hp
    refine ⟨⟨_, rfl, ?_⟩, horderly, ⟨_, Inventory.get?_put.trans (if_pos rfl), ?_, ?_, ?_⟩, by omega⟩
    · rw [Resource.status_withStatus, hnext, hname, h.finalStatus]
    · rw [Resource.kind_withStatus, hkind]
    · rw [Resource.name_withStatus, hname]
    · rw [Resource.status_withStatus, hnext, hname, h.finalStatus]
  | counted hr hk hs hp =>
    cases hq.symm.trans hr
    have hlt : looks < f.readyAfterPolls := by
      by_contra hle
      rw [hs, Faults.statusAfter, if_pos (by omega)] at hstatus
      cases hstatus
    rw [h.polls hlt, h.readyAfterPolls] at hp
    have hnext : f.statusAfter (looks + 1) name = .progressing := if_neg (by omega)
    refine ⟨⟨q, rfl, hs.trans hnext.symm⟩, horderly, ⟨q, hq, hkind, hname, hs.trans hnext.symm⟩, ?_⟩
    intro _
    change ((m.polls.insert id ((m.polls.get? id).getD 0 + 1)).get? id).getD 0 = looks + 1
    rw [OrderedMap.get?_insert_self, h.polls hlt]
    rfl

end Aged

theorem Orderly.create (h : m.Orderly fresh f) (hid : (m.create fresh q).1 = .ok id) :
    (m.create fresh q).2.Aged fresh f q.kind q.name id 0 := by
  have horderly : (m.create fresh q).2.Orderly fresh f := h.answer (.create q)
  have hcreated := m.wasCreated fresh q
  generalize m.create fresh q = out at hcreated hid horderly
  cases hcreated with
  | refused => cases hid
  | created hres =>
    cases hid
    have hnone : fresh (m.issued + 1) ∉ m.inventory.objects.keys := fun hmem =>
      h.fresh.unmentioned _ (Nat.lt_succ_self _) (.inl hmem)
    have hpolls : m.polls.get? (fresh (m.issued + 1)) = none :=
      OrderedMap.get?_eq_none_iff.2 fun hmem => hnone (h.counts _ hmem)
    refine ⟨horderly, ⟨_, Inventory.get?_put.trans (if_pos rfl), ?_, ?_, ?_⟩, ?_⟩
    · simp
    · simp
    · rw [Resource.status_withStatus, h.readyAfterPolls, h.finalStatus, Faults.statusAfter]
      simp only [Nat.le_zero]
    · intro _
      change (m.polls.get? (fresh (m.issued + 1))).getD 0 = 0
      rw [hpolls]
      rfl

/-- Among the calls is the one that has created the object. After it no other one concerns the object. -/
def Created (fresh : Nat → Identifier) (m : Memory) (calls : List Call) (r : Resource) : Prop :=
  ∃ before q after id, calls = before ++ .create q :: after ∧
    ((provider fresh).answer (.create q) ((provider fresh).after m before)).1 = .ok id ∧
    r.identifier = some id ∧ r.kind = q.kind ∧ r.name = q.name ∧ ∀ c ∈ after, ¬ c.Concerns id

theorem Orderly.created {r : Resource} (h : m.Orderly fresh f) (hr : m.Created fresh calls r)
    (hid : r.identifier = some id) :
    ((provider fresh).after m calls).Aged fresh f r.kind r.name id 0 := by
  obtain ⟨before, q, after, id', rfl, hcreate, hid', hkind, hname, hafter⟩ := hr
  cases hid.symm.trans hid'
  rw [Provider.after_append, hkind, hname]
  exact ((h.after before).create hcreate).after hafter

end Memory

end BalancerSync
