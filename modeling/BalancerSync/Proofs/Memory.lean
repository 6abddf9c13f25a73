import BalancerSync.Provider.Memory
import BalancerSync.Proofs.Inventory

namespace BalancerSync

namespace Memory

variable {m m' : Memory} {fresh : Nat → Identifier} {kind : Kind} {id j : Identifier}
  {r : Resource} {tag : Tag}

/-- The memory after a look at an object, apart from what the look makes of the object. -/
def looked (m : Memory) : Memory :=
  { m with journal := { m.journal with gets := m.journal.gets + 1 } }

def listing (m : Memory) : Memory :=
  { m with journal := { m.journal with listings := m.journal.listings + 1 } }

def deployed (m : Memory) (id : Identifier) (r : Resource) : Memory :=
  { m.looked with
    inventory := m.inventory.put id (r.withStatus (m.faults.finalStatus r.name))
    polls := m.polls.erase id }

def counted (m : Memory) (id : Identifier) : Memory :=
  { m.looked with polls := m.polls.insert id ((m.polls.get? id).getD 0 + 1) }

/-- The memory after an object has been created. -/
def created (m : Memory) (fresh : Nat → Identifier) (r : Resource) : Memory :=
  { m with
    inventory := m.inventory.put (fresh (m.issued + 1))
      ((r.withIdentifier (fresh (m.issued + 1))).withStatus
        (if m.faults.readyAfterPolls = 0 then m.faults.finalStatus r.name else .progressing))
    journal := { m.journal with created := m.journal.created ++ [(r.kind, r.name)] }
    issued := m.issued + 1 }

/-- The memory after an object has been destroyed. -/
def destroyed (m : Memory) (id : Identifier) : Memory :=
  { m with
    inventory := m.inventory.remove id
    polls := m.polls.erase id
    destroyAttempts := m.destroyAttempts + 1
    journal := { m.journal with destroyed := m.journal.destroyed ++ [id] } }

def tagged (m : Memory) (id : Identifier) (tag : Tag) : Memory :=
  { m with inventory := m.inventory.attach id tag }

inductive Got (m : Memory) (kind : Kind) (id : Identifier) : Except Refusal Resource × Memory → Prop
  | missing (hk : m.inventory.kindOf? id ≠ some kind) : m.Got kind id (.error .notFound, m.looked)
  | settled {r : Resource} (hr : m.inventory.objects.get? id = some r) (hk : r.kind = kind)
      (hs : r.status ≠ .progressing) : m.Got kind id (.ok r, m.looked)
  | deployed {r : Resource} (hr : m.inventory.objects.get? id = some r) (hk : r.kind = kind)
      (hs : r.status = .progressing)
      (hp : m.faults.readyAfterPolls ≤ (m.polls.get? id).getD 0 + 1) :
      m.Got kind id (.ok (r.withStatus (m.faults.finalStatus r.name)), m.deployed id r)
  | counted {r : Resource} (hr : m.inventory.objects.get? id = some r) (hk : r.kind = kind)
      (hs : r.status = .progressing)
      (hp : (m.polls.get? id).getD 0 + 1 < m.faults.readyAfterPolls) :
      m.Got kind id (.ok r, m.counted id)

theorem got (m : Memory) (kind : Kind) (id : Identifier) : m.Got kind id (m.get kind id) := by
  rw [get]
  dsimp only
  split
  next hk => exact .missing hk
  next hk =>
    obtain ⟨r, hr, hk⟩ := Inventory.kindOf?_eq_some_iff.1 (not_not.1 hk)
    simp only [poll, hr]
    by_cases hs : r.status = .progressing
    · rw [if_neg (not_not.2 hs)]
      by_cases hp : m.faults.readyAfterPolls ≤ (m.polls.get? id).getD 0 + 1
      · rw [if_pos hp]
        simpa [Memory.deployed, looked] using Got.deployed hr hk hs hp
      · rw [if_neg hp]
        simpa [Memory.counted, looked, hr] using Got.counted hr hk hs (Nat.lt_of_not_le hp)
    · rw [if_pos hs]
      simpa [looked, hr] using Got.settled hr hk hs

inductive WasListed (m : Memory) (tag : Tag) : Except Refusal (List Listed) × Memory → Prop
  | failed (hf : m.faults.failListing = true) :
      m.WasListed tag (.error (.transport "listing unavailable"), m.listing)
  | nothing (ht : m.inventory.tagged tag = []) :
      m.WasListed tag (.error (.unprocessable ("no objects tagged " ++ tag.text)), m.listing)
  | listed : m.WasListed tag
      (.ok ((m.inventory.tagged tag).map fun e => ⟨e.1, e.2.kind.typeIdentifier⟩), m.listing)

theorem wasListed (m : Memory) (tag : Tag) : m.WasListed tag (m.list tag) := by
  rw [list]
  dsimp only
  split
  next hf => exact .failed hf
  next hf =>
    split
    next hn => exact .nothing (by simpa using (Bool.and_eq_true_iff.1 hn).1)
    next hn => exact .listed

inductive WasCreated (fresh : Nat → Identifier) (m : Memory) (r : Resource) :
    Except Refusal Identifier × Memory → Prop
  | refused (refusal : Refusal)
      (h : r.name ∈ m.faults.rejectCreate ∨ ¬ m.inventory.Resolves r) :
      m.WasCreated fresh r (.error refusal, m)
  | created (h : m.inventory.Resolves r) :
      m.WasCreated fresh r (.ok (fresh (m.issued + 1)), m.created fresh r)

theorem wasCreated (fresh : Nat → Identifier) (m : Memory) (r : Resource) :
    m.WasCreated fresh r (m.create fresh r) := by
  rw [create]
  split
  next h => exact .refused _ (.inl h)
  next h =>
    have hiff := Inventory.checkReferences_eq_ok_iff (v := m.inventory) (r := r)
    split
    next refusal hc => exact .refused _ (.inr fun h => by simp [hc] at hiff; exact hiff h)
    next hc => exact .created (hiff.1 hc)

/-- Whether a provider refuses to destroy an object although nothing refers to it. -/
def refusesDestroy (m : Memory) (id : Identifier) : Prop :=
  m.faults.rateLimitAfterDestroys ≠ none ∨ id ∈ m.faults.rejectDestroy ∨
    id ∈ m.faults.flakyDestroy

inductive WasDestroyed (m : Memory) (kind : Kind) (id : Identifier) :
    Except Refusal Unit × Memory → Prop
  | refused (refusal : Refusal) (m' : Memory) (hv : m'.inventory = m.inventory)
      (hj : m'.journal = m.journal) (hi : m'.issued = m.issued)
      (h : m.refusesDestroy id ∨ m.inventory.kindOf? id ≠ some kind ∨
        ∃ i r, m.inventory.objects.get? i = some r ∧ id ∈ r.references) :
      m.WasDestroyed kind id (.error refusal, m')
  | destroyed (hk : m.inventory.kindOf? id = some kind)
      (hr : ∀ i r, m.inventory.objects.get? i = some r → id ∉ r.references) :
      m.WasDestroyed kind id (.ok (), m.destroyed id)

theorem wasDestroyed (m : Memory) (kind : Kind) (id : Identifier) :
    m.WasDestroyed kind id (m.destroy kind id) := by
  unfold destroy
  extract_lets limited attempted
  split
  next hl =>
    refine .refused _ _ rfl rfl rfl (.inl (.inl fun h => ?_))
    simp [limited, h] at hl
  next hl =>
    split
    next hk => exact .refused _ _ rfl rfl rfl (.inr (.inl hk))
    next hk =>
      split
      next hr => exact .refused _ _ rfl rfl rfl (.inl (.inr (.inl hr)))
      next hr =>
        split
        next hf => exact .refused _ _ rfl rfl rfl (.inl (.inr (.inr hf)))
        next hf =>
          split
          next r href =>
            obtain ⟨i, hi⟩ := OrderedMap.mem_values_iff.1 (List.mem_of_find?_eq_some href)
            have hir : id ∈ r.references := by simpa using List.find?_some href
            exact .refused _ _ rfl rfl rfl (.inr (.inr ⟨i, r, hi, hir⟩))
          next href => exact .destroyed (not_not.1 hk) (Inventory.referrer?_eq_none_iff.1 href)

/-- Unless it is refused for another reason, an object is destroyed if nothing refers to it. -/
theorem destroy_eq (hf : ¬ m.refusesDestroy id) (hr : m.inventory.objects.get? id = some r) :
    m.destroy r.kind id = match m.inventory.referrer? id with
      | some q =>
        (.error (.rejected (r.kind.name ++ " " ++ id.text ++ " still referenced by " ++ q.describe)),
          { m with destroyAttempts := m.destroyAttempts + 1 })
      | none => (.ok (), m.destroyed id) := by
  obtain ⟨hlimit, hlocked, hflaky⟩ : m.faults.rateLimitAfterDestroys = none ∧
      id ∉ m.faults.rejectDestroy ∧ id ∉ m.faults.flakyDestroy := by
    simpa [refusesDestroy] using hf
  have hk : m.inventory.kindOf? id = some r.kind := Inventory.kindOf?_eq_some_iff.2 ⟨r, hr, rfl⟩
  simp only [destroy, hlimit, hk, hlocked, hflaky, Bool.false_eq_true, ne_eq, not_true_eq_false,
    ↓reduceIte]
  cases m.inventory.referrer? id <;> rfl

inductive WasTagged (m : Memory) (id : Identifier) (tag : Tag) :
    Except Refusal Unit × Memory → Prop
  | refused (refusal : Refusal)
      (h : m.faults.failTag = true ∨ m.inventory.objects.get? id = none) :
      m.WasTagged id tag (.error refusal, m)
  | tagged : m.WasTagged id tag (.ok (), m.tagged id tag)

theorem wasTagged (m : Memory) (id : Identifier) (tag : Tag) :
    m.WasTagged id tag (m.tag id tag) := by
  rw [Memory.tag]
  split
  next h =>
    refine .refused _ (.inr ?_)
    simpa [OrderedMap.contains] using h
  next h =>
    split
    next hf => exact .refused _ (.inl hf)
    next hf => exact .tagged

/-- The misbehaviour is the same, but for attempts to destroy that fail only once. -/
def FaultsKept (m m' : Memory) : Prop :=
  m'.faults = { m.faults with flakyDestroy := m'.faults.flakyDestroy } ∧
    m'.faults.flakyDestroy ⊆ m.faults.flakyDestroy

theorem FaultsKept.of_eq (h : m'.faults = m.faults) : m.FaultsKept m' := by
  rw [FaultsKept, h]
  exact ⟨rfl, List.Subset.refl _⟩

theorem faultsKept_destroy (m : Memory) (kind : Kind) (id : Identifier) :
    m.FaultsKept (m.destroy kind id).2 := by
  unfold destroy
  extract_lets limited attempted
  split
  · exact .of_eq rfl
  · split
    · exact .of_eq rfl
    · split
      · exact .of_eq rfl
      · split
        · exact ⟨rfl, List.filter_subset_self _⟩
        · split <;> exact .of_eq rfl

theorem faultsKept_answer (fresh : Nat → Identifier) (m : Memory) (c : Call) :
    m.FaultsKept ((provider fresh).answer c m).2 := by
  cases c with
  | get kind id =>
    have hgot := m.got kind id
    change m.FaultsKept (m.get kind id).2
    generalize m.get kind id = out at hgot
    cases hgot <;> exact .of_eq rfl
  | list tag =>
    have hlisted := m.wasListed tag
    change m.FaultsKept (m.list tag).2
    generalize m.list tag = out at hlisted
    cases hlisted <;> exact .of_eq rfl
  | create r =>
    have hcreated := m.wasCreated fresh r
    change m.FaultsKept (m.create fresh r).2
    generalize m.create fresh r = out at hcreated
    cases hcreated <;> exact .of_eq rfl
  | destroy kind id => exact m.faultsKept_destroy kind id
  | tag id tag =>
    have htagged := m.wasTagged id tag
    change m.FaultsKept (m.tag id tag).2
    generalize m.tag id tag = out at htagged
    cases htagged <;> exact .of_eq rfl

/-- The provider has been asked for objects that carry the tag, and may have deployed some. -/
structure Polled (tag : Tag) (m m' : Memory) : Prop where
  objects : ∀ id, m'.inventory.objects.get? id = m.inventory.objects.get? id ∨
    ∃ r, m.inventory.objects.get? id = some r ∧ r.status = .progressing ∧
      m.inventory.Carries tag id ∧
      m'.inventory.objects.get? id = some (r.withStatus (m.faults.finalStatus r.name))
  tags : m'.inventory.tags = m.inventory.tags
  loadBalancers : m'.inventory.loadBalancers = m.inventory.loadBalancers
  faults : m'.faults = m.faults
  issued : m'.issued = m.issued
  destroyed : m'.journal.destroyed = m.journal.destroyed

namespace Polled

theorem of_inventory_eq (hv : m'.inventory = m.inventory) (hf : m'.faults = m.faults)
    (hi : m'.issued = m.issued) (hd : m'.journal.destroyed = m.journal.destroyed) :
    Polled tag m m' :=
  ⟨fun _ => .inl (by rw [hv]), by rw [hv], by rw [hv], hf, hi, hd⟩

theorem refl (m : Memory) : Polled tag m m := of_inventory_eq rfl rfl rfl rfl

theorem carries_iff (h : Polled tag m m') {tag' : Tag} :
    m'.inventory.Carries tag' id ↔ m.inventory.Carries tag' id := by
  rw [Inventory.Carries, Inventory.taggedIds, h.tags]
  rfl

theorem trans {m'' : Memory} (h : Polled tag m m') (h' : Polled tag m' m'') :
    Polled tag m m'' where
  objects id := by
    rcases h'.objects id with hid' | ⟨r, hr, hs, ht, hid'⟩
    · rw [hid']
      exact h.objects id
    · rcases h.objects id with hid | ⟨q, hq, hqs, hqt, hid⟩
      · refine .inr ⟨r, hid ▸ hr, hs, h.carries_iff.1 ht, ?_⟩
        rw [hid', h.faults]
      · -- What has been deployed is not progressing.
        rw [hid] at hr
        cases hr
        simp [Faults.finalStatus] at hs
  tags := h'.tags.trans h.tags
  loadBalancers := h'.loadBalancers.trans h.loadBalancers
  faults := h'.faults.trans h.faults
  issued := h'.issued.trans h.issued
  destroyed := h'.destroyed.trans h.destroyed

/-- An object that has been there is there still, up to its status. -/
theorem exists_get? (h : Polled tag m m') (hr : m.inventory.objects.get? id = some r) :
    ∃ q, m'.inventory.objects.get? id = some q ∧ q.bare = r.bare ∧ q.identifier = r.identifier ∧
      (q = r ∨ r.status = .progressing ∧ m.inventory.Carries tag id ∧
        q.status = m.faults.finalStatus r.name) := by
  rcases h.objects id with hid | ⟨q, hq, hs, ht, hid⟩
  · exact ⟨r, hid.trans hr, rfl, rfl, .inl rfl⟩
  · rw [hr] at hq
    cases hq
    exact ⟨_, hid, by simp, by simp, .inr ⟨hs, ht, by simp⟩⟩

/-- An object that is there has been there before, up to its status. -/
theorem get?_of_get? (h : Polled tag m m') (hr : m'.inventory.objects.get? id = some r) :
    ∃ q, m.inventory.objects.get? id = some q ∧ r.bare = q.bare ∧ r.identifier = q.identifier ∧
      (r = q ∨ q.status = .progressing ∧ m.inventory.Carries tag id ∧
        r.status = m.faults.finalStatus q.name) := by
  rcases h.objects id with hid | ⟨q, hq, hs, ht, hid⟩
  · exact ⟨r, hid ▸ hr, rfl, rfl, .inl rfl⟩
  · rw [hid] at hr
    cases hr
    exact ⟨q, hq, by simp, by simp, .inr ⟨hs, ht, by simp⟩⟩

theorem resembles (h : Polled tag m m') : m.inventory.Resembles m'.inventory := by
  refine ⟨fun id => ?_, h.tags, h.loadBalancers⟩
  rcases h.objects id with hid | ⟨r, hr, -, -, hid⟩
  · rw [hid]
  · simp [hr, hid]

theorem stored (h : Polled tag m m') (hm : m.inventory.Stored) : m'.inventory.Stored :=
  h.resembles.stored hm

variable {lb : Identifier} {tag' : Tag}

theorem belongsTo (h : Polled tag m m') :
    m'.inventory.belongsTo tag' lb = m.inventory.belongsTo tag' lb :=
  h.resembles.belongsTo

theorem exists_owns (h : Polled tag m m') (hr : m.inventory.Owns tag' lb id r) :
    ∃ q, m'.inventory.Owns tag' lb id q ∧ q.bare = r.bare ∧ (q = r ∨ r.status = .progressing ∧
      q.status = m.faults.finalStatus r.name) := by
  obtain ⟨hr, ht, hb⟩ := hr
  obtain ⟨q, hq, hbare, -, hstatus⟩ := h.exists_get? hr
  refine ⟨q, ⟨hq, h.carries_iff.2 ht, ?_⟩, hbare, hstatus.imp_right fun hs => ⟨hs.1, hs.2.2⟩⟩
  rw [h.belongsTo, ← Inventory.belongsTo_bare, hbare, Inventory.belongsTo_bare, hb]

theorem owns_of_owns (h : Polled tag m m') (hr : m'.inventory.Owns tag' lb id r) :
    ∃ q, m.inventory.Owns tag' lb id q ∧ r.bare = q.bare ∧ (r = q ∨ q.status = .progressing ∧
      r.status = m.faults.finalStatus q.name) := by
  obtain ⟨hr, ht, hb⟩ := hr
  obtain ⟨q, hq, hbare, -, hstatus⟩ := h.get?_of_get? hr
  refine ⟨q, ⟨hq, h.carries_iff.1 ht, ?_⟩, hbare, hstatus.imp_right fun hs => ⟨hs.1, hs.2.2⟩⟩
  rw [h.belongsTo, ← Inventory.belongsTo_bare, hbare, Inventory.belongsTo_bare] at hb
  exact hb

/-- Nothing changes for a load balancer on which nothing is progressing. -/
theorem share_eq (h : Polled tag m m')
    (hs : ∀ id r, m.inventory.Owns tag' lb id r → r.status ≠ .progressing) :
    m'.inventory.share tag' lb = m.inventory.share tag' lb := by
  apply Inventory.share_eq_of_owns
  intro id r
  constructor
  · intro hr
    obtain ⟨q, hq, -, rfl | ⟨hp, -⟩⟩ := h.owns_of_owns hr
    · exact hq
    · exact absurd hp (hs id q hq)
  · intro hr
    obtain ⟨q, hq, -, rfl | ⟨hp, -⟩⟩ := h.exists_owns hr
    · exact hq
    · exact absurd hp (hs id r hr)

end Polled

/-- A look at an object changes at most its status. -/
theorem Got.resembles {out : Except Refusal Resource × Memory} (h : m.Got kind id out) :
    m.inventory.Resembles out.2.inventory := by
  cases h with
  | missing | settled | counted => exact .refl _
  | deployed hr => exact .of_withStatus hr _

/-- A look at a tagged object changes nothing else. -/
theorem Got.polled {out : Except Refusal Resource × Memory} (h : m.Got kind id out)
    (ht : m.inventory.Carries tag id) : Polled tag m out.2 := by
  cases h with
  | missing hk => exact .of_inventory_eq rfl rfl rfl rfl
  | settled hr hk hs => exact .of_inventory_eq rfl rfl rfl rfl
  | counted hr hk hs hp => exact .of_inventory_eq rfl rfl rfl rfl
  | @deployed r hr hk hs hp =>
    refine ⟨fun j => ?_, rfl, rfl, rfl, rfl, rfl⟩
    by_cases hj : id = j
    · subst hj
      exact .inr ⟨r, hr, hs, ht, by simp [Memory.deployed]⟩
    · exact .inl (by simp [Memory.deployed, hj])

/-- What a look at an object returns is what is there afterwards. -/
theorem Got.get? {out : Except Refusal Resource × Memory} (h : m.Got kind id out)
    (hk : m.inventory.kindOf? id = some kind) :
    ∃ r, out.1 = .ok r ∧ out.2.inventory.objects.get? id = some r ∧ r.kind = kind := by
  cases h with
  | missing hne => exact absurd hk hne
  | settled hr hk hs => exact ⟨_, rfl, hr, hk⟩
  | counted hr hk hs hp => exact ⟨_, rfl, hr, hk⟩
  | deployed hr hk hs hp => exact ⟨_, rfl, by simp [Memory.deployed], by simpa using hk⟩

theorem Got.eq_notFound {out : Except Refusal Resource × Memory} (h : m.Got kind id out)
    (hk : m.inventory.kindOf? id ≠ some kind) : out.1 = .error .notFound := by
  cases h with
  | missing => rfl
  | settled hr hkind | deployed hr hkind | counted hr hkind =>
    exact absurd (Inventory.kindOf?_eq_some_iff.2 ⟨_, hr, hkind⟩) hk

/-- A look at an object leaves all others as they are. -/
theorem Got.get?_of_ne {out : Except Refusal Resource × Memory} (h : m.Got kind id out)
    (hj : id ≠ j) : out.2.inventory.objects.get? j = m.inventory.objects.get? j := by
  cases h <;> simp [Memory.deployed, Memory.counted, looked, hj]

theorem Got.polls_of_ne {out : Except Refusal Resource × Memory} (h : m.Got kind id out)
    (hj : id ≠ j) : out.2.polls.get? j = m.polls.get? j := by
  cases h with
  | missing hk => rfl
  | settled hr hk hs => rfl
  | deployed hr hk hs hp => exact OrderedMap.get?_erase_of_ne _ hj
  | counted hr hk hs hp => exact OrderedMap.get?_insert_of_ne _ _ hj

theorem Got.listings {out : Except Refusal Resource × Memory} (h : m.Got kind id out) :
    out.2.journal.listings = m.journal.listings := by cases h <;> rfl

end Memory

end BalancerSync
