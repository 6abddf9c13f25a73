import BalancerSync.Proofs.Crowd
import BalancerSync.Proofs.Together

namespace BalancerSync

open Program World

variable {fresh : Nat → Identifier} {l l' : Layout} {id : Identifier} {r : Resource}
  {s s' : Schedule Memory Unit} {t t' : Task Unit} {pending pending' : Option Identifier}
  {tag : Tag} {i j : Nat} {w w' : World}

namespace Inventory

variable {v v' : Inventory} {tags : List Tag}

def Apart (v : Inventory) (tags : List Tag) : Prop :=
  ∀ e ∈ v.objects.entries, ∀ tag ∈ tags, ∀ tag' ∈ tags,
    v.Carries tag e.1 → v.Carries tag' e.1 → tag = tag'

instance : Decidable (v.Apart tags) :=
  inferInstanceAs (Decidable (∀ e ∈ v.objects.entries, ∀ tag ∈ tags, ∀ tag' ∈ tags,
    v.Carries tag e.1 → v.Carries tag' e.1 → tag = tag'))

theorem apart_iff : v.Apart tags ↔ ∀ id r, v.objects.get? id = some r → ∀ tag ∈ tags,
    ∀ tag' ∈ tags, v.Carries tag id → v.Carries tag' id → tag = tag' :=
  ⟨fun h id r hr => h (id, r) (OrderedMap.get?_eq_some_iff.1 hr),
    fun h e he => h e.1 e.2 (OrderedMap.get?_eq_some_iff.2 he)⟩

theorem Apart.resembles (h : v.Apart tags) (hv : v.Resembles v') : v'.Apart tags := by
  refine apart_iff.2 fun id r hr tag ht tag' ht' hc hc' => ?_
  obtain ⟨q, hq, -⟩ := hv.symm.exists_get? hr
  exact apart_iff.1 h id q hq tag ht tag' ht' (hv.carries_iff.1 hc) (hv.carries_iff.1 hc')

theorem Apart.put (h : v.Apart tags) (hid : ∀ tag, ¬ v.Carries tag id) : (v.put id r).Apart tags := by
  refine apart_iff.2 fun j q hq tag ht tag' ht' hc hc' => ?_
  rw [get?_put] at hq
  split at hq
  next heq => exact absurd (heq ▸ hc) (hid tag)
  next => exact apart_iff.1 h j q hq tag ht tag' ht' hc hc'

theorem Apart.remove (h : v.Apart tags) : (v.remove id).Apart tags := by
  refine apart_iff.2 fun j q hq tag ht tag' ht' hc hc' => ?_
  exact apart_iff.1 h j q (get?_of_get?_remove hq).2 tag ht tag' ht' (carries_remove.1 hc).2
    (carries_remove.1 hc').2

theorem Apart.attach (h : v.Apart tags) (hid : ∀ tag, ¬ v.Carries tag id) :
    (v.attach id tag).Apart tags := by
  refine apart_iff.2 fun j q hq tag₁ ht tag₂ ht' hc hc' => ?_
  rcases carries_attach.1 hc with ⟨rfl, rfl⟩ | hc <;> rcases carries_attach.1 hc' with ⟨h₂, hj⟩ | hc'
  · exact h₂.symm
  · exact absurd hc' (hid tag₂)
  · exact absurd (hj ▸ hc) (hid tag₁)
  · exact apart_iff.1 h j q hq tag₁ ht tag₂ ht' hc hc'

end Inventory

def Reconciliation.Succeeded (fresh : Nat → Identifier) (l : Layout) (out : Except Failure Unit)
    (w : World) : Prop :=
  out = .ok () ∧ Resting fresh l w ∧ l.Serves w.inventory

theorem Layout.Serves.ripens {m m' : Memory} (h : l.Serves m.inventory)
    (hm : Holding.Ripens (l.Owns m) (l.Owns m')) : l.Serves m'.inventory :=
  h.of_owns fun _ _ => hm.iff_of_ready (Layout.owns_single _) fun _ _ hr => h.status_eq hr

namespace World

theorem busy_rely_refl (h : Sound fresh l w) : (busy fresh l).rely w w :=
  ⟨.refl h, fun _ => id⟩

theorem busy_rely_trans {w'' : World} (h : (busy fresh l).rely w w')
    (h' : (busy fresh l).rely w' w'') : (busy fresh l).rely w w'' :=
  ⟨h.1.trans h'.1, fun id hid => h'.2 id (h.2 id hid)⟩

end World

/-- Reconciliations that go on side by side, each with snapshots of its own. -/
abbrev Crowd := List Layout

namespace Crowd

structure Member (fresh : Nat → Identifier) (l : Layout) (w : World) (t : Task Unit) : Prop where
  notCanceled : t.canceled = false
  sound : Sound fresh l w
  meets : t.program.Meets (busy fresh l) (Reconciliation.Succeeded fresh l) w

theorem Member.rely (h : Member fresh l w t) (hr : (busy fresh l).rely w w') :
    Member fresh l w' t where
  notCanceled := h.notCanceled
  sound := hr.1.sound
  meets := by
    refine h.meets.stable hr (fun _ _ _ => busy_rely_trans) ?_
    rintro out w₁ w₂ ⟨hout, hw₁, hserves⟩ hr
    exact ⟨hout, hr.1.resting hw₁, hserves.ripens hr.1.ripens⟩

variable {ls : Crowd}

def occupied (ls : Crowd) (inside : Option Nat) : Option Tag :=
  (inside.bind fun i => ls[i]?).map fun l => l.service.tag

/-- The object that has not been tagged, if it is for the service with the tag. -/
def loose (ls : Crowd) (inside : Option Nat) (pending : Option Identifier) (tag : Tag) :
    Option Identifier := if ls.occupied inside = some tag then pending else none

theorem occupied_eq (hi : ls[i]? = some l) : ls.occupied (some i) = some l.service.tag := by
  rw [occupied, Option.bind_some, hi]
  rfl

theorem loose_of_eq (hi : ls[i]? = some l) (ht : l.service.tag = tag) :
    ls.loose (some i) pending tag = pending := by rw [loose, occupied_eq hi, ht, if_pos rfl]

theorem loose_of_ne (hi : ls[i]? = some l) (ht : l.service.tag ≠ tag) :
    ls.loose (some i) pending tag = none := by
  rw [loose, occupied_eq hi, if_neg fun h => ht (Option.some.inj h)]

theorem loose_nothing {inside : Option Nat} : ls.loose inside none tag = none := by
  rw [loose]
  split <;> rfl

theorem pending_of_loose {inside : Option Nat} (h : ls.loose inside pending tag = some id) :
    pending = some id := by
  rw [loose] at h
  split at h
  · exact h
  · cases h

def seen (ls : Crowd) (s : Schedule Memory Unit) (pending : Option Identifier) (i : Nat) (l : Layout)
    (t : Task Unit) : World where
  latest := t.latest
  inside := s.inside = some i
  leading := none
  left := false
  memory := s.provider
  pending := ls.loose s.inside pending l.service.tag

def tags (ls : Crowd) : List Tag := ls.map fun l => l.service.tag

structure Joint (fresh : Nat → Identifier) (ls : Crowd) (pending : Option Identifier)
    (s : Schedule Memory Unit) : Prop where
  notHeld : s.held = false
  length : s.tasks.length = ls.length
  member : ∀ i l t, ls[i]? = some l → s.tasks[i]? = some t →
    Member fresh l (ls.seen s pending i l t) t
  inside : ∀ i, s.inside = some i → i < ls.length
  nothing : s.inside = none → pending = none
  untagged : ∀ id, pending = some id → ∀ tag, ¬ s.provider.inventory.Carries tag id
  apart : s.provider.inventory.Apart ls.tags

/-- Task `i` has become another one, and whatever else has happened is none of the others' business. -/
theorem Joint.next (h : Joint fresh ls pending s) (hi : ls[i]? = some l)
    (htasks : s'.tasks = s.tasks.set i t') (hheld : s'.held = s.held)
    (hmember : Member fresh l (ls.seen s' pending' i l t') t')
    (hothers : ∀ j l' t, j ≠ i → ls[j]? = some l' → s.tasks[j]? = some t →
      (busy fresh l').rely (ls.seen s pending j l' t) (ls.seen s' pending' j l' t))
    (hinside : s'.inside = s.inside ∨ s'.inside = none ∨ s'.inside = some i)
    (hnothing : s'.inside = none → pending' = none)
    (huntagged : ∀ id, pending' = some id → ∀ tag, ¬ s'.provider.inventory.Carries tag id)
    (hapart : s'.provider.inventory.Apart ls.tags) : Joint fresh ls pending' s' where
  notHeld := hheld.trans h.notHeld
  length := by rw [htasks, List.length_set, h.length]
  member j l' t hj ht := by
    by_cases hji : j = i
    · subst hji
      cases hi.symm.trans hj
      rw [htasks, List.getElem?_set_self'] at ht
      obtain ⟨_, -, rfl⟩ := Option.map_eq_some_iff.1 ht
      exact hmember
    · rw [htasks, List.getElem?_set_ne (Ne.symm hji)] at ht
      exact (h.member j l' t hj ht).rely (hothers j l' t hji hj ht)
  inside j hj := by
    rcases hinside with heq | heq | heq
    · exact h.inside j (heq ▸ hj)
    · cases heq.symm.trans hj
    · cases heq.symm.trans hj
      exact (List.getElem?_eq_some_iff.1 hi).1
  nothing := hnothing
  untagged := huntagged
  apart := hapart

/-- Nothing has happened as far as another task can tell. -/
theorem Joint.rely_of_seen_eq (h : Joint fresh ls pending s) (hj : ls[j]? = some l)
    (ht : s.tasks[j]? = some t) (heq : ls.seen s' pending' j l t = ls.seen s pending j l t) :
    (busy fresh l).rely (ls.seen s pending j l t) (ls.seen s' pending' j l t) := by
  rw [heq]
  exact busy_rely_refl (h.member j l t hj ht).sound

theorem Joint.exists_task (h : Joint fresh ls pending s) (hi : ls[i]? = some l) :
    ∃ t, s.tasks[i]? = some t :=
  ⟨_, List.getElem?_eq_getElem (h.length ▸ (List.getElem?_eq_some_iff.1 hi).1)⟩

end Crowd

end BalancerSync
