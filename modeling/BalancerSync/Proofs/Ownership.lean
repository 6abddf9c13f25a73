import BalancerSync.Proofs.Identifier
import BalancerSync.Proofs.Success
import BalancerSync.Proofs.Tidy
import BalancerSync.Proofs.Waiting

namespace BalancerSync

/-- The object has been created since. -/
def Memory.Bore (fresh : Nat → Identifier) (m m' : Memory) (id : Identifier) : Prop :=
  ∃ n, m.issued < n ∧ n ≤ m'.issued ∧ fresh n = id

open Program Engine World

variable {fresh : Nat → Identifier} {l : Layout} {m : Memory} {w w' : World}
  {gone : List Identifier} {id : Identifier} {r : Resource}

def Layout.Mine (l : Layout) (fresh : Nat → Identifier) (m m' : Memory) (id : Identifier) : Prop :=
  (∃ r, l.Owns m id r) ∨ m.Bore fresh m' id

/-- What may have become of a memory, when `gone` are the objects that have been destroyed. -/
structure Respects (fresh : Nat → Identifier) (l : Layout) (m : Memory) (gone : List Identifier)
    (w : World) : Prop where
  issued : m.issued ≤ w.memory.issued
  stored : w.inventory.Stored
  /-- What was there is there still, or has been destroyed. Only its status may have changed. -/
  old : ∀ id r, m.inventory.objects.get? id = some r →
    (w.inventory.objects.get? id = none ∧ id ∈ gone) ∨ w.inventory.objects.get? id = some r ∨
      (r.status = .progressing ∧ m.inventory.Carries l.service.tag id ∧
        ∃ status, w.inventory.objects.get? id = some (r.withStatus status))
  /-- What was not there has been created, is wanted, and carries the tag unless it is pending. -/
  new : ∀ id r, w.inventory.objects.get? id = some r → m.inventory.objects.get? id = none →
    m.Bore fresh w.memory id ∧ l.Wants (l.Owns w.memory) r.bare ∧
      (w.inventory.Carries l.service.tag id ∨ w.pending = some id)
  pending : ∀ id, w.pending = some id → (∀ tag, ¬ w.inventory.Carries tag id) ∧
    m.Bore fresh w.memory id
  otherTags : ∀ tag, tag ≠ l.service.tag → ∀ id,
    w.inventory.Carries tag id ↔ m.inventory.Carries tag id ∧ id ∉ gone
  ownTag : ∀ id, w.inventory.Carries l.service.tag id →
    m.inventory.Carries l.service.tag id ∨ m.Bore fresh w.memory id
  journal : w.memory.journal.destroyed = m.journal.destroyed ++ gone
  mine : ∀ id ∈ gone, l.Mine fresh m w.memory id

namespace Respects

theorem refl (hm : m.inventory.Stored) (latest : Option Snapshot) :
    Respects fresh l m [] (World.start m latest) where
  issued := Nat.le_refl _
  stored := hm
  old _ _ hr := .inr (.inl hr)
  new id r hr hnone := by
    rw [show (World.start m latest).inventory = m.inventory from rfl, hnone] at hr
    cases hr
  pending _ h := nomatch h
  otherTags _ _ _ := by simp [World.start]
  ownTag _ h := .inl h
  journal := (List.append_nil _).symm
  mine _ h := nomatch h

theorem not_bore (hf : m.Fresh fresh) (hid : m.inventory.Mentions id) {m' : Memory} :
    ¬ m.Bore fresh m' id := by
  rintro ⟨n, hn, -, rfl⟩
  exact hf.unmentioned n hn hid

/-- Only the status of what was there may have changed. -/
theorem bare_eq (h : Respects fresh l m gone w) {q : Resource}
    (hq : m.inventory.objects.get? id = some q) (hr : w.inventory.objects.get? id = some r) :
    r.bare = q.bare := by
  rcases h.old id q hq with ⟨hgone, -⟩ | hsame | ⟨-, -, status, hsame⟩
  · cases hr.symm.trans hgone
  · cases hr.symm.trans hsame
    rfl
  · cases hr.symm.trans hsame
    simp

/-- What belongs to the load balancer and the service did so from the beginning, or is new. -/
theorem mine_of_owns (h : Respects fresh l m gone w) (hf : m.Fresh fresh)
    (hr : l.Owns w.memory id r) : l.Mine fresh m w.memory id := by
  cases hold : m.inventory.objects.get? id with
  | none => exact .inr (h.new id r hr.1 hold).1
  | some q =>
    have hmention : m.inventory.Mentions id := .inl (OrderedMap.mem_keys_of_get? hold)
    have htag := (h.ownTag id hr.2.1).resolve_right (not_bore hf hmention)
    have hbare := h.bare_eq hold hr.1
    refine .inl ⟨q, hr.of_parent hold hbare.symm htag fun j p hj hp hpt => ?_⟩
    -- What an old object refers to is old.
    rw [← Resource.parent?_bare, hbare, Resource.parent?_bare] at hj
    have hmention : m.inventory.Mentions j :=
      .inr (.inr (.inr ⟨id, q, hold, Resource.mem_references_of_parent? hj⟩))
    have hnot : ¬ m.Bore fresh w.memory j := not_bore hf hmention
    cases hp' : m.inventory.objects.get? j with
    | none => exact absurd (h.new j p hp hp').1 hnot
    | some p' =>
      exact ⟨p', rfl, (h.bare_eq hp' hp).symm, (h.ownTag j hpt).resolve_right hnot⟩

/-- Only what is in the provider, and what is pending, matters. -/
theorem of_eq (h : Respects fresh l m gone w) (hv : w'.inventory = w.inventory)
    (hi : w'.memory.issued = w.memory.issued)
    (hj : w'.memory.journal.destroyed = w.memory.journal.destroyed)
    (hp : w'.pending = w.pending) : Respects fresh l m gone w' := by
  have hbore (id : Identifier) : m.Bore fresh w'.memory id ↔ m.Bore fresh w.memory id := by
    rw [Memory.Bore, Memory.Bore, hi]
  have howns : l.Owns w'.memory = l.Owns w.memory := by
    funext id r
    exact congrArg (fun v : Inventory => v.Owns l.service.tag l.loadBalancer id r) hv
  refine ⟨hi ▸ h.issued, hv ▸ h.stored, hv ▸ h.old, ?_, ?_, hv ▸ h.otherTags, ?_, hj ▸ h.journal, ?_⟩
  · intro id r hr hnone
    obtain ⟨hb, hw, hc⟩ := h.new id r (hv ▸ hr) hnone
    exact ⟨(hbore id).2 hb, howns ▸ hw, by rw [hv, hp]; exact hc⟩
  · intro id hid
    obtain ⟨hc, hb⟩ := h.pending id (hp ▸ hid)
    exact ⟨fun tag => hv ▸ hc tag, (hbore id).2 hb⟩
  · intro id hid
    exact (h.ownTag id (hv ▸ hid)).imp_right (hbore id).2
  · intro id hid
    exact (h.mine id hid).imp_right (hbore id).2

theorem polled (h : Respects fresh l m gone w) (hf : m.Fresh fresh)
    (hp : Polled l.service.tag w w') : Respects fresh l m gone w' := by
  obtain ⟨hw', hp⟩ := hp
  have hpending : w'.pending = w.pending := by rw [hw']
  have hbore (id : Identifier) : m.Bore fresh w'.memory id ↔ m.Bore fresh w.memory id := by
    rw [Memory.Bore, Memory.Bore, hp.issued]
  have hwithin : Holding.Within (l.Owns w.memory) (l.Owns w'.memory) := by
    rintro r id ⟨q, hq, rfl⟩
    obtain ⟨q', hq', hbare, -⟩ := hp.exists_owns hq
    exact ⟨q', hq', hbare⟩
  refine ⟨hp.issued ▸ h.issued, hp.stored h.stored, ?_, ?_, ?_, ?_, ?_, hp.destroyed ▸ h.journal, ?_⟩
  · intro id r hr
    rcases hp.objects id with hid | ⟨q, hq, hqs, hqt, hid⟩
    · rw [hid]
      exact h.old id r hr
    · have hmention : m.inventory.Mentions id := .inl (OrderedMap.mem_keys_of_get? hr)
      have hrt := (h.ownTag id hqt).resolve_right (not_bore hf hmention)
      rcases h.old id r hr with ⟨hgone, -⟩ | hsame | ⟨hs, -, status, hsame⟩
      · cases hq.symm.trans hgone
      · cases hq.symm.trans hsame
        exact .inr (.inr ⟨hqs, hrt, _, hid⟩)
      · cases hq.symm.trans hsame
        refine .inr (.inr ⟨hs, hrt, w.memory.faults.finalStatus (r.withStatus status).name, ?_⟩)
        rw [hid, Resource.withStatus_withStatus]
  · intro id r hr hnone
    obtain ⟨q, hq, hbare, -⟩ := hp.get?_of_get? hr
    obtain ⟨hb, hw, hc⟩ := h.new id q hq hnone
    refine ⟨(hbore id).2 hb, hbare ▸ hw.mono hwithin, ?_⟩
    rw [hpending]
    exact hc.imp_left hp.carries_iff.2
  · intro id hid
    obtain ⟨hc, hb⟩ := h.pending id (hpending ▸ hid)
    exact ⟨fun tag => mt hp.carries_iff.1 (hc tag), (hbore id).2 hb⟩
  · intro tag htag id
    exact hp.carries_iff.trans (h.otherTags tag htag id)
  · intro id hid
    exact (h.ownTag id (hp.carries_iff.1 hid)).imp_right (hbore id).2
  · intro id hid
    exact (h.mine id hid).imp_right (hbore id).2

/-- What a new identifier has to do with what is there: nothing. -/
theorem fresh_unused (h : Respects fresh l m gone w) (hf : m.Fresh fresh) :
    m.inventory.objects.get? (fresh (w.memory.issued + 1)) = none ∧
      w.inventory.objects.get? (fresh (w.memory.issued + 1)) = none ∧
      (∀ tag, ¬ w.inventory.Carries tag (fresh (w.memory.issued + 1))) ∧
      ¬ m.Bore fresh w.memory (fresh (w.memory.issued + 1)) := by
  have hlt : m.issued < w.memory.issued + 1 := Nat.lt_succ_of_le h.issued
  have hmention := hf.unmentioned _ hlt
  have hbore : ¬ m.Bore fresh w.memory (fresh (w.memory.issued + 1)) := by
    rintro ⟨n, hn, hle, heq⟩
    have := hf.distinct n _ hn hlt heq
    omega
  have hnone : m.inventory.objects.get? (fresh (w.memory.issued + 1)) = none :=
    OrderedMap.get?_eq_none_iff.2 fun hk => hmention (.inl hk)
  refine ⟨hnone, ?_, ?_, hbore⟩
  · cases hget : w.inventory.objects.get? (fresh (w.memory.issued + 1)) with
    | none => rfl
    | some r => exact absurd (h.new _ r hget hnone).1 hbore
  · intro tag hc
    by_cases htag : tag = l.service.tag
    · rcases h.ownTag _ (htag ▸ hc) with hc | hb
      · exact hmention (.inr (.inr (.inl ⟨_, hc⟩)))
      · exact hbore hb
    · exact hmention (.inr (.inr (.inl ⟨_, ((h.otherTags tag htag _).1 hc).1⟩)))

theorem bore_mono {m' m'' : Memory} (h : m.Bore fresh m' id) (hle : m'.issued ≤ m''.issued) :
    m.Bore fresh m'' id := by
  obtain ⟨n, hn, hn', heq⟩ := h
  exact ⟨n, hn, hn'.trans hle, heq⟩

theorem created (h : Respects fresh l m gone w) (hf : m.Fresh fresh) (hpending : w.pending = none)
    (hr : l.Wants (l.Owns w.memory) r) :
    Respects fresh l m gone { w with
      memory := w.memory.created fresh r
      pending := some (fresh (w.memory.issued + 1)) } := by
  obtain ⟨hold, hnow, hcarry, hnot⟩ := h.fresh_unused hf
  set id := fresh (w.memory.issued + 1)
  have hbore (j : Identifier) : m.Bore fresh w.memory j → m.Bore fresh (w.memory.created fresh r) j :=
    fun hb => bore_mono hb (Nat.le_succ _)
  have hborn : m.Bore fresh (w.memory.created fresh r) id :=
    ⟨_, Nat.lt_succ_of_le h.issued, Nat.le_refl _, rfl⟩
  have hget {j : Identifier} (hj : id ≠ j) :
      (w.memory.created fresh r).inventory.objects.get? j = w.inventory.objects.get? j := by
    rw [Memory.created, Inventory.get?_put, if_neg hj]
  have hwithin : Holding.Within (l.Owns w.memory) (l.Owns (w.memory.created fresh r)) := by
    rintro r id ⟨q, hq, rfl⟩
    exact ⟨q, hq.put hnow, rfl⟩
  refine ⟨h.issued.trans (Nat.le_succ _), h.stored.put (by simp), ?_, ?_, ?_, ?_, ?_, h.journal, ?_⟩
  · intro j q hq
    have hj : id ≠ j := by
      rintro rfl
      rw [hold] at hq
      cases hq
    dsimp only [World.inventory]
    rw [hget hj]
    exact h.old j q hq
  · intro j q hq hnone
    by_cases hj : id = j
    · subst hj
      refine ⟨hborn, ?_, .inr rfl⟩
      rw [World.inventory, Memory.created, Inventory.get?_put, if_pos rfl] at hq
      cases hq
      have hbare : ((r.withIdentifier id).withStatus
          (if w.memory.faults.readyAfterPolls = 0 then w.memory.faults.finalStatus r.name
            else .progressing)).bare = r := by simp [hr.bare]
      rw [hbare]
      exact hr.mono hwithin
    · obtain ⟨hb, hw, hc⟩ := h.new j q ((hget hj).symm.trans hq) hnone
      exact ⟨hbore j hb, hw.mono hwithin, .inl (hc.resolve_right (by simp [hpending]))⟩
  · rintro j hj
    cases hj
    exact ⟨hcarry, hborn⟩
  · exact h.otherTags
  · intro j hj
    exact (h.ownTag j hj).imp_right (hbore j)
  · intro j hj
    exact (h.mine j hj).imp_right (hbore j)

theorem tagged (h : Respects fresh l m gone w) (hpending : w.pending = some id) :
    Respects fresh l m gone { w with
      memory := w.memory.tagged id l.service.tag
      pending := none } := by
  have hcarries {tag : Tag} {j : Identifier} :
      (w.memory.tagged id l.service.tag).inventory.Carries tag j ↔
        (tag = l.service.tag ∧ j = id) ∨ w.inventory.Carries tag j := Inventory.carries_attach
  have hwithin : Holding.Within (l.Owns w.memory)
      (l.Owns (w.memory.tagged id l.service.tag)) := by
    rintro r j ⟨q, hq, rfl⟩
    exact ⟨q, hq.of_carries rfl fun j hj => hcarries.2 (.inr hj), rfl⟩
  refine ⟨h.issued, h.stored, h.old, ?_, nofun, ?_, ?_, h.journal, h.mine⟩
  · intro j q hq hnone
    obtain ⟨hb, hw, hc⟩ := h.new j q hq hnone
    refine ⟨hb, hw.mono hwithin, .inl (hcarries.2 ?_)⟩
    rcases hc with hc | hc
    · exact .inr hc
    · exact .inl ⟨rfl, Option.some.inj (hc.symm.trans hpending)⟩
  · intro tag htag j
    refine Iff.trans ?_ (h.otherTags tag htag j)
    simp [hcarries, htag]
  · intro j hj
    rcases hcarries.1 hj with ⟨-, rfl⟩ | hj
    · exact .inr (h.pending j hpending).2
    · exact h.ownTag j hj

/-- The destruction of an object that nothing refers to. -/
theorem destroyed (h : Respects fresh l m gone w) (hpending : w.pending = none)
    (hmine : l.Mine fresh m w.memory id)
    (href : ∀ i r, w.inventory.objects.get? i = some r → id ∉ r.references) :
    Respects fresh l m (gone ++ [id]) { w with memory := w.memory.destroyed id } := by
  have hget {j : Identifier} (hj : id ≠ j) :
      (w.memory.destroyed id).inventory.objects.get? j = w.inventory.objects.get? j := by
    rw [Memory.destroyed, Inventory.get?_remove, if_neg hj]
  have hcarries {tag : Tag} {j : Identifier} :
      (w.memory.destroyed id).inventory.Carries tag j ↔ j ≠ id ∧ w.inventory.Carries tag j :=
    Inventory.carries_remove
  -- Backends and frontends belong where they say.
  have hb {b : Backend} {j : Identifier} (hj : id ≠ j)
      (hhas : Holding.Has (l.Owns w.memory) (.backend b) j) :
      Holding.Has (l.Owns (w.memory.destroyed id)) (.backend b) j := by
    obtain ⟨q, ⟨hq, ht, hlb⟩, hqb⟩ := hhas
    refine ⟨q, ⟨(hget hj).trans hq, hcarries.2 ⟨hj.symm, ht⟩, ?_⟩, hqb⟩
    cases q <;> simp only [Resource.bare, reduceCtorEq] at hqb
    exact hlb
  have hf {f : Frontend} {j : Identifier} (hj : id ≠ j)
      (hhas : Holding.Has (l.Owns w.memory) (.frontend f) j) :
      Holding.Has (l.Owns (w.memory.destroyed id)) (.frontend f) j := by
    obtain ⟨q, ⟨hq, ht, hlb⟩, hqb⟩ := hhas
    refine ⟨q, ⟨(hget hj).trans hq, hcarries.2 ⟨hj.symm, ht⟩, ?_⟩, hqb⟩
    cases q <;> simp only [Resource.bare, reduceCtorEq] at hqb
    exact hlb
  have hne {i j : Identifier} {q : Resource} (hq : w.inventory.objects.get? i = some q)
      (hj : j ∈ q.bare.references) : id ≠ j := by
    rintro rfl
    exact href i q hq (Resource.references_bare q ▸ hj)
  refine ⟨h.issued, h.stored.remove, ?_, ?_, by simp [hpending], ?_, ?_, ?_, ?_⟩
  · intro j q hq
    by_cases hj : id = j
    · subst hj
      exact .inl ⟨by simp [World.inventory, Memory.destroyed], by simp⟩
    · dsimp only [World.inventory]
      rw [hget hj]
      exact (h.old j q hq).imp_left fun hgone => ⟨hgone.1, by simp [hgone.2]⟩
  · intro j q hq hnone
    have hj : id ≠ j := by
      rintro rfl
      simp [World.inventory, Memory.destroyed] at hq
    have hq : w.inventory.objects.get? j = some q := (hget hj).symm.trans hq
    obtain ⟨hbore, hw, hc⟩ := h.new j q hq hnone
    refine ⟨hbore, ?_, .inl (hcarries.2 ⟨hj.symm, hc.resolve_right (by simp [hpending])⟩)⟩
    have hrefs := fun i => hne (j := i) hq
    generalize q.bare = t at hw hrefs
    cases hw with
    | backend hp => exact .backend hp
    | frontend hp hb' =>
      exact .frontend hp (hb (hrefs _ (List.mem_cons_of_mem _ List.mem_cons_self)) hb')
    | @bind name port address backend frontend hp ha hb' hf' =>
      obtain ⟨f, hfo, hfb⟩ := hf'
      have hbackend : id ≠ backend := by
        apply hne hfo.1
        rw [hfb]
        exact List.mem_cons_of_mem _ List.mem_cons_self
      exact .bind hp ha (hb hbackend hb') (hf (hrefs _ List.mem_cons_self) ⟨f, hfo, hfb⟩)
    | server hp he hb' => exact .server hp he (hb (hrefs _ List.mem_cons_self) hb')
  · intro tag htag j
    dsimp only [World.inventory]
    rw [hcarries, h.otherTags tag htag, List.mem_append, List.mem_singleton]
    tauto
  · intro j hj
    exact h.ownTag j (hcarries.1 hj).2
  · change w.memory.journal.destroyed ++ [id] = _
    rw [h.journal, List.append_assoc]
  · intro j hj
    rcases List.mem_append.1 hj with hj | hj
    · exact h.mine j hj
    · cases List.mem_singleton.1 hj
      exact hmine

end Respects

def Clean (fresh : Nat → Identifier) (l : Layout) (m : Memory) (w : World) : Prop :=
  (∃ gone, Respects fresh l m gone w) ∧ w.pending = none

/-- What may come of a part of a reconciliation. Only if tagging fails an object is left pending. -/
def Safe {α : Type} (fresh : Nat → Identifier) (l : Layout) (m : Memory) :
    Except Failure α → World → Prop
  | .ok _, w => Clean fresh l m w
  | .error failure, w => (∃ gone, Respects fresh l m gone w) ∧
    (w.pending = none ∨ ∃ id reason, w.pending = some id ∧ failure = .notTagged id reason)

theorem Clean.safe {α : Type} (h : Clean fresh l m w) (out : Except Failure α) :
    Safe fresh l m out w := by
  cases out with
  | ok a => exact h
  | error failure => exact ⟨h.1, .inl h.2⟩

theorem Clean.polled (h : Clean fresh l m w) (hf : m.Fresh fresh)
    (hp : Polled l.service.tag w w') : Clean fresh l m w' := by
  obtain ⟨⟨gone, hr⟩, hpending⟩ := h
  exact ⟨⟨gone, hr.polled hf hp⟩, by rw [hp.1]; exact hpending⟩

theorem Clean.of_eq (h : Clean fresh l m w) (hm : w'.memory = w.memory)
    (hp : w'.pending = w.pending) : Clean fresh l m w' := by
  obtain ⟨⟨gone, hr⟩, hpending⟩ := h
  refine ⟨⟨gone, hr.of_eq ?_ ?_ ?_ hp⟩, hp.trans hpending⟩
  · exact congrArg Memory.inventory hm
  · exact congrArg Memory.issued hm
  · exact congrArg (fun m : Memory => m.journal.destroyed) hm

def CreatedTagged (fresh : Nat → Identifier) (l : Layout) (m : Memory) (w : World)
    (created : List Resource) (w' : World) : Prop :=
  Clean fresh l m w' ∧ Holding.Within (l.Owns w.memory) (l.Owns w'.memory) ∧
    (∀ id, w.inventory.Carries l.service.tag id → w'.inventory.Carries l.service.tag id) ∧
    ∀ r ∈ created, ∀ id, r.identifier = some id → w'.inventory.Carries l.service.tag id

theorem createTagged_meets (hf : m.Fresh fresh) (hc : Clean fresh l m w)
    (hr : l.Wants (l.Owns w.memory) r) :
    (createTagged l.service.tag r).Meets (adverse fresh) (fun out w' =>
      match out with
      | .ok created => CreatedTagged fresh l m w [created] w'
      | out => Safe fresh l m out w') w := by
  obtain ⟨⟨gone, hrespects⟩, hpending⟩ := hc
  have hinside : Respects fresh l m gone { w with inside := true } :=
    hrespects.of_eq rfl rfl rfl rfl
  refine meets_enter (meets_call ?_)
  have hcreated := w.memory.wasCreated fresh r
  rw [answer_create]
  dsimp only
  generalize w.memory.create fresh r = out at hcreated
  cases hcreated with
  | refused refusal h =>
    exact meets_exit ⟨⟨gone, hrespects.of_eq rfl rfl rfl rfl⟩, .inl hpending⟩
  | created hres =>
    have hafter := hinside.created hf hpending hr
    refine meets_call ?_
    rw [answer_tag]
    dsimp only
    set id := fresh (w.memory.issued + 1)
    have htagged := (w.memory.created fresh r).wasTagged id l.service.tag
    generalize (w.memory.created fresh r).tag id l.service.tag = out at htagged
    cases htagged with
    | refused refusal h =>
      refine meets_exit ⟨⟨gone, hafter.of_eq rfl rfl rfl rfl⟩, .inr ⟨id, refusal.message, rfl, rfl⟩⟩
    | tagged =>
      have hdone := hafter.tagged rfl
      refine meets_exit ⟨⟨⟨gone, hdone.of_eq rfl rfl rfl rfl⟩, rfl⟩, ?_, ?_, ?_⟩
      · rintro q j ⟨p, hp, rfl⟩
        refine ⟨p, ?_, rfl⟩
        have hnone := (hrespects.fresh_unused hf).2.1
        exact (hp.put hnone).of_carries rfl fun j hj => Inventory.carries_attach.2 (.inr hj)
      · exact fun j hj => Inventory.carries_attach.2 (.inr hj)
      · intro q hq j hj
        cases List.mem_singleton.1 hq
        rw [Resource.identifier_withIdentifier] at hj
        cases hj
        exact Inventory.carries_attach.2 (.inl ⟨rfl, rfl⟩)

theorem CreatedTagged.nil (hc : Clean fresh l m w) : CreatedTagged fresh l m w [] w :=
  ⟨hc, fun _ _ h => h, fun _ h => h, fun _ h => nomatch h⟩

theorem CreatedTagged.cons {w₁ w₂ : World} {rest : List Resource}
    (h₁ : CreatedTagged fresh l m w [r] w₁) (h₂ : CreatedTagged fresh l m w₁ rest w₂) :
    CreatedTagged fresh l m w (r :: rest) w₂ := by
  obtain ⟨-, hwithin₁, hkeep₁, hnew₁⟩ := h₁
  obtain ⟨hc, hwithin₂, hkeep₂, hnew₂⟩ := h₂
  refine ⟨hc, fun q j h => hwithin₂ q j (hwithin₁ q j h), fun j h => hkeep₂ j (hkeep₁ j h), ?_⟩
  intro q hq j hj
  rcases List.mem_cons.1 hq with rfl | hq
  · exact hkeep₂ j (hnew₁ _ (List.mem_singleton.2 rfl) j hj)
  · exact hnew₂ q hq j hj

theorem createEach_meets (hf : m.Fresh fresh) (rs : List Resource) (hc : Clean fresh l m w)
    (hrs : ∀ r ∈ rs, l.Wants (l.Owns w.memory) r) :
    (createEach l.service.tag rs).Meets (adverse fresh) (fun out w' =>
      match out with
      | .ok created => CreatedTagged fresh l m w created w'
      | out => Safe fresh l m out w') w := by
  induction rs generalizing w with
  | nil => exact .nil hc
  | cons r rs ih =>
    refine meets_checkpoint ?_ (hc.safe (.error .canceled : Except Failure Unit))
    refine (createTagged_meets hf hc (hrs r (by simp))).bind ?_ fun _ _ h => h
    intro created w₁ hcreated
    have hrs₁ : ∀ q ∈ rs, l.Wants (l.Owns w₁.memory) q :=
      fun q hq => (hrs q (List.mem_cons_of_mem _ hq)).mono hcreated.2.1
    refine (ih hcreated.1 hrs₁).bind ?_ fun _ _ h => h
    exact fun rest w₂ hrest => hcreated.cons hrest

theorem createAll_meets (hf : m.Fresh fresh) (b : Backoff) (rs : List Resource)
    (hc : Clean fresh l m w) (hrs : ∀ r ∈ rs, l.Wants (l.Owns w.memory) r) :
    (createAll l.service.tag b rs).Meets (adverse fresh) (Safe fresh l m) w := by
  refine (createEach_meets hf _ hc fun r hr => hrs r (mem_byRank_iff.1 hr).2).bind ?_
    fun _ _ h => h
  rintro created w₁ ⟨hc₁, -, -, hcarry⟩
  exact (settle_meets_polled created hcarry).mono fun _ _ hp => (hc₁.polled hf hp).safe _

def AllMine (fresh : Nat → Identifier) (l : Layout) (m m' : Memory) (rs : List Resource) : Prop :=
  ∀ r ∈ rs, ∀ id, r.identifier = some id → l.Mine fresh m m' id

theorem destroyPass_meets (refused queue : List Resource) (hc : Clean fresh l m w)
    (hrefused : AllMine fresh l m w.memory refused) (hqueue : AllMine fresh l m w.memory queue) :
    (destroyPass refused queue).Meets (adverse fresh) (fun out w' => Clean fresh l m w' ∧
      ∀ left, out = .ok left → AllMine fresh l m w'.memory left) w := by
  induction queue generalizing w refused with
  | nil => exact ⟨hc, fun _ h => Except.ok.inj h ▸ hrefused⟩
  | cons r queue ih =>
    have hhead := hqueue r (by simp)
    have htail : AllMine fresh l m w.memory queue :=
      fun q hq => hqueue q (List.mem_cons_of_mem _ hq)
    refine meets_checkpoint ?_ ⟨hc, nofun⟩
    split
    · exact ⟨hc, nofun⟩
    next id hid =>
      refine meets_call ?_
      have hdestroyed := w.memory.wasDestroyed r.kind id
      rw [answer_destroy]
      dsimp only
      generalize w.memory.destroy r.kind id = out at hdestroyed
      obtain ⟨⟨gone, hrespects⟩, hpending⟩ := hc
      cases hdestroyed with
      | refused refusal m' hv hj hi h =>
        have hc' : Clean fresh l m { w with memory := m' } :=
          ⟨⟨gone, hrespects.of_eq hv hi (congrArg Journal.destroyed hj) rfl⟩, hpending⟩
        have hmine {rs : List Resource} (h : AllMine fresh l m w.memory rs) :
            AllMine fresh l m m' rs :=
          fun q hq j hj => (h q hq j hj).imp_right fun hb => Respects.bore_mono hb hi.ge
        split
        next heq => cases heq
        · exact ih refused hc' (hmine hrefused) (hmine htail)
        · exact ⟨hc', nofun⟩
        · refine ih _ hc' (fun q hq => ?_) (hmine htail)
          rcases List.mem_append.1 hq with hq | hq
          · exact hmine hrefused q hq
          · cases List.mem_singleton.1 hq
            exact hmine hqueue r (by simp)
      | destroyed hk href =>
        exact ih refused ⟨⟨_, hrespects.destroyed hpending (hhead id hid) href⟩, hpending⟩
          hrefused htail

theorem destroyPasses_meets (passes : Nat) (pending : List Resource) (hc : Clean fresh l m w)
    (hmine : AllMine fresh l m w.memory pending) :
    (destroyPasses passes pending).Meets (adverse fresh) (Safe fresh l m) w := by
  induction passes generalizing w pending with
  | zero => exact hc
  | succ passes ih =>
    rw [destroyPasses]
    refine (destroyPass_meets [] pending hc nofun hmine).bind ?_ fun _ _ h => h.1.safe _
    rintro refused w₁ ⟨hc₁, hleft⟩
    split
    · exact hc₁
    · split
      · exact hc₁.safe _
      · exact ih refused hc₁ (hleft refused rfl)

theorem destroyAll_meets (rs : List Resource) (hc : Clean fresh l m w)
    (hmine : AllMine fresh l m w.memory rs) :
    (destroyAll rs).Meets (adverse fresh) (Safe fresh l m) w :=
  destroyPasses_meets _ _ hc fun r hr => hmine r (mem_byRank_iff.1 hr).2

namespace Reconciliation

theorem progressing_meets {post : Except Failure (List Resource) → World → Prop}
    (h : post (.ok ((w.latest.map (·.progressing)).getD [])) w) :
    progressing.Meets (adverse fresh) post w := by
  rintro w rfl
  refine ⟨trivial, ?_⟩
  rintro reply w ⟨rfl, rfl⟩
  exact h

theorem act_meets_safe {p : Plan} (hf : m.Fresh fresh) (hc : Clean fresh l m w)
    (hd : AllMine fresh l m w.memory p.destroy) (hw : ∀ r ∈ p.create, l.Wants (l.Owns w.memory) r) :
    ((direct l).act p).Meets (adverse fresh) (Safe fresh l m) w := by
  rw [act]
  split
  · exact createAll_meets hf _ _ hc hw
  · exact destroyAll_meets _ hc hd

theorem clean_of_checked {out : Except Failure Plan} (hc : Clean fresh l m w)
    (hf : m.Fresh fresh) (h : Checked l True w out w') : Clean fresh l m w' := by
  obtain ⟨hp, h⟩ := h
  have hp' : Polled l.service.tag w { w with memory := w'.memory } := ⟨rfl, hp⟩
  rcases h with ⟨-, hw', -⟩ | ⟨hw', -⟩
  · exact (hc.polled hf hp').of_eq rfl (by rw [hw'])
  · exact (hc.polled hf hp').of_eq rfl (by rw [hw'])

theorem converge_meets_safe (hf : m.Fresh fresh) (cycles : Nat) (hc : Clean fresh l m w) :
    ((direct l).converge cycles).Meets (adverse fresh) (Safe fresh l m) w := by
  induction cycles generalizing w with
  | zero => exact hc.safe _
  | succ cycles ih =>
    rw [converge_succ]
    refine meets_checkpoint ?_ (hc.safe _)
    obtain ⟨⟨gone, hrespects⟩, -⟩ := id hc
    refine (check_meets hrespects.stored).attempt fun out w₁ hchecked => ?_
    have hc₁ := clean_of_checked hc hf hchecked
    obtain ⟨⟨gone₁, hrespects₁⟩, -⟩ := id hc₁
    have hs := w₁.inventory.shareSnapshot_classified l.service.tag l.loadBalancer hrespects₁.stored
    have howns {id : Identifier} {r : Resource} : (w₁.shareSnapshot l).holding id r →
        l.Owns w₁.memory id r := (Inventory.holding_shareSnapshot hrespects₁.stored).1
    split
    next ids =>
      rcases hchecked.2 with ⟨-, hw₁, -⟩ | ⟨-, ⟨h, -⟩ | ⟨_, h, -⟩⟩
      · have hprogressing : progressing.Meets (adverse fresh) (fun out w' => w' = w₁ ∧
            out = .ok (w₁.shareSnapshot l).progressing) w₁ :=
          progressing_meets ⟨rfl, by rw [hw₁]; rfl⟩
        refine hprogressing.bind ?_ ?_
        · rintro rs w₂ ⟨rfl, hrs⟩
          cases hrs
          have hcarry : ∀ r ∈ (w₂.shareSnapshot l).progressing, ∀ id, r.identifier = some id →
              w₂.inventory.Carries l.service.tag id :=
            fun r hr id hid => (howns ⟨((hs.mem_progressing r).1 hr).1, hid⟩).2.1
          refine (settle_meets_polled _ hcarry).bind ?_ ?_
          · exact fun _ w₃ hp => ih (hc₁.polled hf hp)
          · exact fun _ w₃ hp => (hc₁.polled hf hp).safe _
        · rintro failure w₂ ⟨-, h⟩
          cases h
      · cases h
      · cases h
    next failure _ => exact hc₁.safe _
    next plan =>
      split
      · exact hc₁
      · refine meets_remember ?_
        rcases hchecked.2 with ⟨hplan, -, -⟩ | ⟨-, ⟨h, -⟩ | ⟨_, h, -⟩⟩
        · have hc₂ : Clean fresh l m { w₁ with latest := none } := hc₁.of_eq rfl rfl
          refine (act_meets_safe hf hc₂ ?_ ?_).bind (fun _ _ h => ih h) fun _ _ h => h
          · intro r hr id hid
            exact hrespects₁.mine_of_owns hf
              (howns ⟨Layout.mem_resources_of_plan hs hplan.symm hr, hid⟩)
          · intro r hr
            refine (Layout.wants_of_plan hs hplan.symm hr).mono ?_
            rintro q j ⟨p, hp, rfl⟩
            exact ⟨p, howns hp, rfl⟩
        · cases h
        · cases h

theorem reconcile_meets_safe (hf : m.Fresh fresh) (hc : Clean fresh l m w) :
    (direct l).reconcile.Meets (adverse fresh) (Safe fresh l m) w := by
  refine (converge_meets_safe hf _ hc).attempt fun out w' hout => ?_
  cases out with
  | error failure => exact hout
  | ok _ => exact hout

/-- Whatever has happened to a reconciliation that fetches its own snapshots, and whatever it has
come to: what it has destroyed belonged to its load balancer and service, or has been created by
itself. What it has created is wanted and tagged, except for one object if that could not be tagged.
All other objects, and all other tags, are as they were. -/
theorem touches_only_its_own {s : Schedule Memory Unit} {moves : List Schedule.Move}
    {before after : Option Snapshot} {out : Except Failure Unit}
    (hs : s.Starts (direct l).reconcile before) (hv : s.provider.inventory.Stored)
    (hf : s.provider.Fresh fresh)
    (hout : (s.play (Memory.provider fresh) moves).Ends out after) :
    let m := s.provider
    let m' := (s.play (Memory.provider fresh) moves).provider
    ∃ gone, m'.journal.destroyed = m.journal.destroyed ++ gone ∧
      (∀ id ∈ gone, (∃ r, l.Owns m id r) ∨ m.Bore fresh m' id) ∧
      (∀ id r, m'.inventory.objects.get? id = some r → m.Bore fresh m' id →
        l.Wants (l.Owns m') r.bare ∧
          (m'.inventory.Carries l.service.tag id ∨
            (∀ tag, ¬ m'.inventory.Carries tag id) ∧ ∃ reason, out = .error (.notTagged id reason))) ∧
      (∀ id r, m.inventory.objects.get? id = some r → id ∉ gone →
        m'.inventory.objects.get? id = some r ∨
          (r.status = .progressing ∧ m.inventory.Carries l.service.tag id ∧
            ∃ status, m'.inventory.objects.get? id = some (r.withStatus status))) ∧
      (∀ id r, m'.inventory.objects.get? id = some r → m.inventory.objects.get? id = none →
        m.Bore fresh m' id) ∧
      (∀ tag, tag ≠ l.service.tag → ∀ id,
        m'.inventory.Carries tag id ↔ m.inventory.Carries tag id ∧ id ∉ gone) := by
  have hclean : Clean fresh l s.provider (start s.provider before) :=
    ⟨⟨[], .refl hv before⟩, rfl⟩
  obtain ⟨w, hm, -, hsafe⟩ := exists_of_play hs (reconcile_meets_safe hf hclean) hout
  obtain ⟨⟨gone, h⟩, hpending⟩ : (∃ gone, Respects fresh l s.provider gone w) ∧
      (w.pending = none ∨ ∃ id reason, w.pending = some id ∧ out = .error (.notTagged id reason)) := by
    cases out with
    | ok _ => exact ⟨hsafe.1, .inl hsafe.2⟩
    | error failure =>
      refine ⟨hsafe.1, hsafe.2.imp_right ?_⟩
      rintro ⟨id, reason, hid, rfl⟩
      exact ⟨id, reason, hid, rfl⟩
  intro m m'
  rw [← show w.memory = m' from hm]
  refine ⟨gone, h.journal, h.mine, ?_, ?_, fun id r hr hnone => (h.new id r hr hnone).1, h.otherTags⟩
  · intro id r hr hbore
    have hnone : m.inventory.objects.get? id = none := by
      refine OrderedMap.get?_eq_none_iff.2 fun hk => ?_
      exact Respects.not_bore hf (.inl hk) hbore
    obtain ⟨-, hw, hc⟩ := h.new id r hr hnone
    refine ⟨hw, hc.imp_right fun hid => ⟨(h.pending id hid).1, ?_⟩⟩
    rcases hpending with hpending | ⟨j, reason, hj, rfl⟩
    · cases hid.symm.trans hpending
    · cases hid.symm.trans hj
      exact ⟨reason, rfl⟩
  · intro id r hr hgone
    exact (h.old id r hr).resolve_left fun hd => hgone hd.2

end Reconciliation

/-- New identifiers are longer than all that are there. -/
theorem Memory.fresh_scattered {m : Memory}
    (h : ∀ id ∈ m.inventory.mentioned, id.text.length < 32) : m.Fresh .scattered where
  unmentioned n _ hn := by
    have hshort := h _ (Inventory.mentions_iff_mem_mentioned.1 hn)
    have := Identifier.length_scattered n
    omega
  distinct _ _ _ _ h := Identifier.scattered_injective h

theorem sample_touches_only_its_own :
    Sample.before.Starts (Reconciliation.direct Sample.layout).reconcile none ∧
    Sample.before.provider.inventory.Stored ∧ Sample.before.provider.Fresh .scattered ∧
    Sample.after.Ends (.ok ()) Sample.latest ∧
    ∃ gone, Sample.after.provider.journal.destroyed = [] ++ gone ∧
      ∀ id ∈ gone, (∃ r, Sample.layout.Owns Sample.memory id r) ∨
        Sample.memory.Bore .scattered Sample.after.provider id := by
  have hs : Sample.before.Starts (Reconciliation.direct Sample.layout).reconcile none :=
    ⟨false, rfl⟩
  have hv : Sample.before.provider.inventory.Stored := by decide +kernel
  have hf : Sample.before.provider.Fresh .scattered := Memory.fresh_scattered (by decide +kernel)
  have hout : Sample.after.Ends (.ok ()) Sample.latest := by decide +kernel
  have hafter : Sample.after = Sample.before.play (Memory.provider .scattered) Sample.moves := by
    unfold Sample.after
    rfl
  refine ⟨hs, hv, hf, hout, ?_⟩
  rw [hafter] at hout ⊢
  obtain ⟨gone, hgone, hmine, -⟩ := Reconciliation.touches_only_its_own hs hv hf hout
  exact ⟨gone, hgone, hmine⟩

end BalancerSync
