import BalancerSync.Proofs.Shifting
import BalancerSync.Proofs.Succession

namespace BalancerSync

open Program World Schedule Reconciliation

variable {fresh : Nat → Identifier} {l : Layout} {tag : Tag} {lb id j : Identifier} {r q : Resource}
  {w w' : World} {m m' : Memory}

/-- No misbehaviour but that tagging may fail. -/
def Faults.TagsOnly (f : Faults) : Prop := f = { Faults.none with failTag := f.failTag }

theorem Faults.TagsOnly.kept (h : m.faults.TagsOnly) (hf : m.FaultsKept m') : m'.faults.TagsOnly := by
  obtain ⟨hf, hflaky⟩ := hf
  have hnil : m'.faults.flakyDestroy = [] := by
    rw [h] at hflaky
    exact List.subset_nil.1 hflaky
  rw [TagsOnly, hf, hnil, h]
  rfl

structure Memory.Littered (fresh : Nat → Identifier) (tag : Tag) (lb : Identifier) (m : Memory) :
    Prop where
  stored : m.inventory.Stored
  fresh : m.Fresh fresh
  registered : lb ∈ m.inventory.loadBalancers.keys
  resolved : ∀ id r, m.inventory.objects.get? id = some r → m.inventory.Resolves r
  apart : ∀ id r, m.inventory.objects.get? id = some r → id ∉ m.inventory.loadBalancers.keys
  placed : ∀ id r, m.inventory.objects.get? id = some r → m.inventory.belongsTo tag lb r = true
  rooted : ∀ id r j, m.inventory.objects.get? id = some r → j ∈ r.references →
    j ∈ m.inventory.loadBalancers.keys ∨ m.inventory.Carries tag j
  ready : ∀ id r, m.inventory.objects.get? id = some r → r.status = .ready false
  faults : m.faults.TagsOnly

/-- Only tagging may begin to fail, and end to. -/
def OnlyTagging : Faults.Setting → Prop
  | .failTag _ => True
  | _ => False

namespace Memory.Littered

theorem of_empty (hv : ∀ id, m.inventory.objects.get? id = none) (hf : m.Fresh fresh)
    (hlb : lb ∈ m.inventory.loadBalancers.keys) (hfaults : m.faults.TagsOnly) :
    m.Littered fresh tag lb := by
  have hnot {p : Prop} (id : Identifier) (r : Resource) (hr : m.inventory.objects.get? id = some r) :
      p := by
    rw [hv] at hr
    cases hr
  exact ⟨fun id r => hnot id r, hf, hlb, fun id r => hnot id r, fun id r => hnot id r,
    fun id r => hnot id r, fun id r _ hr => hnot id r hr, fun id r => hnot id r, hfaults⟩

/-- Nothing changes when ready objects are looked at. -/
theorem glanced (h : w.memory.Littered fresh tag lb) (hw : w.Glanced w')
    (hf : w'.memory.faults.TagsOnly) : w'.memory.Littered fresh tag lb := by
  have hget {id : Identifier} {r : Resource} (hr : w'.inventory.objects.get? id = some r) :
      w.inventory.objects.get? id = some r := by
    obtain ⟨q, hq, -⟩ := hw.resembles.symm.exists_get? hr
    have hq' := hw.settled id q hq (by simp [h.ready id q hq])
    exact hq.trans (hq'.symm.trans hr)
  refine ⟨hw.resembles.stored h.stored, h.fresh.of_mentions hw.issued fun _ => hw.resembles.mentions,
    hw.resembles.loadBalancers ▸ h.registered, fun id r hr => ?_, fun id r hr => ?_,
    fun id r hr => ?_, fun id r j hr hj => ?_, fun id r hr => h.ready id r (hget hr), hf⟩
  · exact (h.resolved id r (hget hr)).mono hw.resembles.loadBalancers fun _ _ _ hk =>
      hw.resembles.kindOf?_eq.trans hk
  · rw [hw.resembles.loadBalancers]
    exact h.apart id r (hget hr)
  · rw [hw.resembles.belongsTo]
    exact h.placed id r (hget hr)
  · rw [hw.resembles.loadBalancers, hw.resembles.carries_iff]
    exact h.rooted id r j (hget hr) hj

theorem of_inventory_eq (h : m.Littered fresh tag lb) (hv : m'.inventory = m.inventory)
    (hi : m'.issued = m.issued) (hf : m'.faults = m.faults) : m'.Littered fresh tag lb := by
  have hw : (World.start m none).Glanced (World.start m' none) := .of_inventory_eq hv rfl hi
  exact glanced h hw (h.faults.kept (.of_eq hf))

theorem created (h : m.Littered fresh l.service.tag l.loadBalancer) (hr : l.Wants (l.Owns m) r)
    (hres : m.inventory.Resolves r) :
    (m.created fresh r).Littered fresh l.service.tag l.loadBalancer := by
  have hid := h.fresh.unmentioned _ (Nat.lt_succ_self _)
  have hnone : m.inventory.objects.get? (fresh (m.issued + 1)) = none :=
    OrderedMap.get?_eq_none_iff.2 fun hk => hid (.inl hk)
  have hcarry : ¬ m.inventory.Carries l.service.tag (fresh (m.issued + 1)) :=
    fun hc => hid (.inr (.inr (.inl ⟨_, hc⟩)))
  have hstatus : (if m.faults.readyAfterPolls = 0 then m.faults.finalStatus r.name
      else .progressing) = .ready false := by
    rw [h.faults]
    rfl
  -- The new object is what was asked for, up to its identifier and its status.
  have hcases {p : Identifier → Resource → Prop}
      (hold : ∀ i q, m.inventory.objects.get? i = some q → p i q)
      (hnew : p (fresh (m.issued + 1))
        ((r.withIdentifier (fresh (m.issued + 1))).withStatus (.ready false)))
      (i : Identifier) (q : Resource) (hq : (m.created fresh r).inventory.objects.get? i = some q) :
      p i q := by
    rw [Memory.created, hstatus, Inventory.get?_put] at hq
    split at hq
    next hi =>
      cases hq
      exact hi ▸ hnew
    next => exact hold i q hq
  refine ⟨h.stored.put (by simp), h.fresh.created hres, h.registered, ?_, ?_, ?_, ?_, ?_, h.faults⟩
  · refine hcases (fun i q hq => (h.resolved i q hq).put hnone) ?_
    exact (Inventory.resolves_withStatus.2 (Inventory.resolves_withIdentifier.2 hres)).put hnone
  · exact hcases h.apart fun hlb => hid (.inr (.inl hlb))
  · refine hcases (fun i q hq => (Inventory.belongsTo_put hcarry q).trans (h.placed i q hq)) ?_
    refine (Inventory.belongsTo_put hcarry _).trans ?_
    rw [Inventory.belongsTo_withStatus, Inventory.belongsTo_withIdentifier]
    exact hr.belongsTo
  · intro i q j hq
    revert j
    refine hcases (p := fun _ q => ∀ j, j ∈ q.references → _)
      (fun i q hq j => h.rooted i q j hq) ?_ i q hq
    intro j hj
    rw [Resource.references_withStatus, Resource.references_withIdentifier] at hj
    rcases hr.references hj with rfl | ⟨t, p, hp, -⟩
    · exact .inl h.registered
    · exact .inr hp.2.1
  · exact hcases h.ready (Resource.status_withStatus ..)

/-- With more objects tagged, all that refers to tagged ones still does. -/
theorem tagged (h : m.Littered fresh tag lb) (hr : m.inventory.objects.get? id = some r) :
    (m.tagged id tag).Littered fresh tag lb where
  stored := h.stored
  fresh := h.fresh.of_mentions rfl fun _ => Inventory.mentions_of_attach hr
  registered := h.registered
  resolved i q hq := (h.resolved i q hq).attach
  apart := h.apart
  placed i q hq := Inventory.belongsTo_mono (v := m.inventory) rfl
    (fun _ hj => Inventory.carries_attach.2 (.inr hj)) (h.placed i q hq)
  rooted i q j hq hj := (h.rooted i q j hq hj).imp_right fun hc => Inventory.carries_attach.2 (.inr hc)
  ready := h.ready
  faults := h.faults

theorem destroyed (h : m.Littered fresh tag lb)
    (href : ∀ i p, m.inventory.objects.get? i = some p → id ∉ p.references) :
    (m.destroyed id).Littered fresh tag lb where
  stored := h.stored.remove
  fresh := h.fresh.of_mentions rfl fun _ => Inventory.mentions_of_remove
  registered := h.registered
  resolved i q hq := by
    have hq := (Inventory.get?_of_get?_remove hq).2
    exact (h.resolved i q hq).remove (href i q hq)
  apart i q hq := h.apart i q (Inventory.get?_of_get?_remove hq).2
  placed i q hq := by
    have hq := (Inventory.get?_of_get?_remove hq).2
    exact (Inventory.belongsTo_remove href hq).trans (h.placed i q hq)
  rooted i q j hq hj := by
    have hq := (Inventory.get?_of_get?_remove hq).2
    have hne : j ≠ id := fun heq => href i q hq (heq ▸ hj)
    exact (h.rooted i q j hq hj).imp_right fun hc => Inventory.carries_remove.2 ⟨hne, hc⟩
  ready i q hq := h.ready i q (Inventory.get?_of_get?_remove hq).2
  faults := h.faults

end Memory.Littered

namespace World

def Littering (fresh : Nat → Identifier) (tag : Tag) (lb : Identifier) (w : World) : Prop :=
  w.memory.Littered fresh tag lb ∧
    ∀ id, w.pending = some id → ∃ r, w.inventory.objects.get? id = some r

theorem Littering.dealt (h : w.Littering fresh l.service.tag l.loadBalancer)
    (hw : Dealt fresh l w w') (hf : w'.memory.faults.TagsOnly) :
    w'.Littering fresh l.service.tag l.loadBalancer := by
  obtain ⟨h, hpending⟩ := h
  cases hw with
  | looked hg =>
    refine ⟨h.glanced hg hf, fun id hid => ?_⟩
    obtain ⟨r, hr⟩ := hpending id (hg.pending ▸ hid)
    obtain ⟨q, hq, -⟩ := hg.resembles.exists_get? hr
    exact ⟨q, hq⟩
  | created hp hr hres =>
    refine ⟨h.created hr.1 hres, fun id hid => ?_⟩
    cases hid
    exact ⟨_, Inventory.get?_put.trans (if_pos rfl)⟩
  | tagged hp =>
    obtain ⟨r, hr⟩ := hpending _ hp
    exact ⟨h.tagged hr, nofun⟩
  | destroyed hp href => exact ⟨h.destroyed href, fun id hid => nomatch hp.symm.trans hid⟩

theorem littering_sustained :
    Sustained fresh (shifting fresh l True) (Littering fresh l.service.tag l.loadBalancer) where
  idle w := ⟨w.memory.faults, rfl⟩
  acts _ _ _ _ hw hdue hacts :=
    ⟨⟨hacts, fun _ => trivial⟩, hw.dealt (dealt_of_due hdue hacts) (hw.1.faults.kept hacts.faultsKept)⟩

theorem Littering.configure (h : w.Littering fresh tag lb) {setting : Faults.Setting}
    (hs : OnlyTagging setting) : (w.configure [setting]).Littering fresh tag lb := by
  refine ⟨h.1.glanced (w := w) (.of_inventory_eq rfl rfl rfl) ?_, h.2⟩
  cases setting with
  | failTag fails =>
    rw [Faults.TagsOnly, World.configure, Memory.configure, h.1.faults]
    rfl
  | _ => exact hs.elim

theorem littering_withstands : Withstands OnlyTagging (shifting fresh l True)
    (Littering fresh tag lb) fun (_ : Except Failure Unit) _ => True where
  set w setting hs hw := ⟨⟨w.memory.faults.set setting, rfl⟩, hw.configure hs⟩
  trans := shifting_trans
  post _ _ _ _ _ := trivial

end World

/-- Whatever reconciliations come to whose tags may be lost, they leave nothing else behind. -/
theorem Memory.Littered.succession (h : m.Littered fresh tag lb)
    (hm : Succession fresh (fun l => l.service.tag = tag ∧ l.loadBalancer = lb) OnlyTagging m m') :
    m'.Littered fresh tag lb := by
  have hstart {m : Memory} (h : m.Littered fresh tag lb) (latest : Option Snapshot) :
      (World.start m latest).Littering fresh tag lb := ⟨h, nofun⟩
  induction hm with
  | refl => exact h
  | set hm hp ih => exact ((hstart ih none).configure hp).1
  | @run l s before after os out hm hl hs hos hout ih =>
    obtain ⟨rfl, rfl⟩ := hl
    have hmeets : (direct l).reconcile.Meets (shifting fresh l True) (fun _ _ => True)
        (World.start s.provider before) :=
      (reconcile_meets_shifting ⟨ih.stored, ih.fresh, rfl⟩).mono fun _ _ _ => trivial
    have hfollows := (Follows.of_starts hs (hstart ih before) hmeets).pass littering_sustained
      littering_withstands os hos
    obtain ⟨w, hw, -, hlittering, -⟩ := hfollows.exists_of_ends hout
    exact hw ▸ hlittering.1

end BalancerSync
