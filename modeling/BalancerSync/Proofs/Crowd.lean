import BalancerSync.Proofs.Busy

namespace BalancerSync

open Program Engine World

variable {fresh : Nat → Identifier} {l l' : Layout} {id j : Identifier} {r : Resource} {kind : Kind}
  {tag tag' : Tag} {w : World} {m : Memory}

namespace Inventory

variable {v : Inventory} {lb : Identifier} {loose : Option Identifier}

theorem carries_attach_of_ne (hne : tag' ≠ tag) :
    (v.attach id tag').Carries tag j ↔ v.Carries tag j :=
  carries_attach.trans (or_iff_right fun h => hne h.1.symm)

theorem belongsTo_attach_of_ne (hne : tag' ≠ tag) :
    (v.attach id tag').belongsTo tag lb = v.belongsTo tag lb :=
  belongsTo_congr (fun _ => carries_attach_of_ne hne) fun _ => rfl

theorem owns_attach_of_ne (hne : tag' ≠ tag) :
    (v.attach id tag').Owns tag lb j r ↔ v.Owns tag lb j r := by
  rw [Owns, Owns, carries_attach_of_ne hne, belongsTo_attach_of_ne hne]
  rfl

theorem Closed.attach_of_ne (h : v.Closed tag loose) (hne : tag' ≠ tag) :
    (v.attach id tag').Closed tag loose where
  stored := h.stored
  resolved i p hp := (h.resolved i p hp).attach
  apart := h.apart
  tagged i p k q hp hq href hc :=
    (h.tagged i p k q hp hq href ((carries_attach_of_ne hne).1 hc)).imp_left
      (carries_attach_of_ne hne).2
  placed i f b hf hb hc := h.placed i f b hf hb ((carries_attach_of_ne hne).1 hc)

/-- What refers to nothing with the tag need not be tagged. -/
theorem Closed.seal (h : v.Closed tag (some id))
    (hid : ∀ r, v.objects.get? id = some r → ∀ j ∈ r.references, ∀ q,
      v.objects.get? j = some q → ¬ v.Carries tag j) : v.Closed tag none where
  stored := h.stored
  resolved := h.resolved
  apart := h.apart
  tagged i p k q hp hq href hc := by
    refine (h.tagged i p k q hp hq href hc).imp_right fun heq => ?_
    cases heq
    exact absurd hc (hid p hp k href q hq)
  placed := h.placed

end Inventory

namespace Memory.Whole

variable {pending : Option Identifier}

theorem tagged_of_ne (h : m.Whole fresh tag pending) (hne : tag' ≠ tag)
    (hr : m.inventory.objects.get? id = some r) : (m.tagged id tag').Whole fresh tag pending where
  closed := h.closed.attach_of_ne hne
  fresh := h.fresh.of_mentions rfl fun _ => Inventory.mentions_of_attach hr
  loose j hj := by
    obtain ⟨hobject, hc, href⟩ := h.loose j hj
    exact ⟨hobject, mt (Inventory.carries_attach_of_ne hne).1 hc, href⟩

/-- An object is created that has nothing to do with the tag. -/
theorem created_of_ne (h : m.Whole fresh tag none) (hres : m.inventory.Resolves r)
    (hplaced : ∀ f b, r = .frontend f → m.inventory.objects.get? f.defaultBackend = some (.backend b) →
      f.loadBalancer = b.loadBalancer)
    (href : ∀ j ∈ r.references, ∀ q, m.inventory.objects.get? j = some q →
      ¬ m.inventory.Carries tag j) : (m.created fresh r).Whole fresh tag none := by
  have hwhole := h.created hres hplaced
  refine ⟨hwhole.closed.seal fun q hq j hj p hp hc => ?_, hwhole.fresh, nofun⟩
  rw [Memory.created, Inventory.get?_put, if_pos rfl] at hq
  cases hq
  rw [Resource.references_withStatus, Resource.references_withIdentifier] at hj
  rw [Memory.created, Inventory.get?_put] at hp
  split at hp
  next heq =>
    exact h.not_carries tag (heq ▸ Inventory.carries_put.1 hc)
  next => exact href j hj p hp hc

end Memory.Whole

namespace Memory.Claimed

theorem listing (h : m.Claimed fresh tag j) : m.listing.Claimed fresh tag j := h

theorem created (h : m.Claimed fresh tag j) : (m.created fresh r).Claimed fresh tag j where
  left n hn := h.1 n (Nat.lt_of_succ_lt hn)
  right q hq := by
    rw [Memory.created, Inventory.get?_put, if_neg (h.1 _ (Nat.lt_succ_self _))] at hq
    exact h.2 q hq

theorem destroyed (h : m.Claimed fresh tag j) : (m.destroyed id).Claimed fresh tag j where
  left := h.1
  right q hq := by
    obtain ⟨hne, hq⟩ := Inventory.get?_of_get?_remove hq
    exact Inventory.carries_remove.2 ⟨hne, h.2 q hq⟩

theorem tagged (h : m.Claimed fresh tag j) : (m.tagged id tag').Claimed fresh tag j where
  left := h.1
  right q hq := Inventory.carries_attach.2 (.inr (h.2 q hq))

end Memory.Claimed

namespace World.Aside

theorem of_got {out : Except Refusal Resource × Memory} (hs : Sound fresh l w)
    (hgot : w.memory.Got kind id out) (hp : w.pending ≠ some id) :
    Aside fresh l w { w with memory := out.2 } := by
  refine ⟨⟨rfl, hs.got hgot⟩, hgot.awaited_of_harmless hs.tidy.harmless, fun _ => ⟨rfl, ?_⟩⟩
  intro j hj
  refine hgot.get?_of_ne ?_
  rintro rfl
  exact hp hj

theorem of_listing (hs : Sound fresh l w) :
    Aside fresh l w { w with memory := w.memory.listing } :=
  ⟨⟨rfl, hs.polled ⟨rfl, .of_inventory_eq rfl rfl rfl rfl⟩⟩,
    ⟨.of_owns fun _ _ => Iff.rfl, fun _ _ _ _ => le_rfl⟩,
    fun _ => ⟨rfl, fun _ _ => rfl⟩⟩

theorem of_created_of_ne (hs : Sound fresh l' w) (hlb : l.loadBalancer ∈ w.inventory.loadBalancers.keys)
    (hp : w.pending = none) (hr : l.Wants (l.Owns w.memory) r)
    (hapart : ∀ j q, l.Owns w.memory j q → ¬ w.inventory.Carries l'.service.tag j) :
    Aside fresh l' w { w with memory := w.memory.created fresh r } := by
  have htidy := hp ▸ hs.tidy
  refine ⟨⟨rfl, ?_, hs.registered, fun _ j q hj => ?_⟩,
    ⟨.of_owns fun j q => Inventory.owns_put_iff (htidy.not_carries _), fun _ _ _ _ => le_rfl⟩,
    fun _ => ⟨rfl, ?_⟩⟩
  · rw [hp]
    refine .of_whole (htidy.whole.created_of_ne (hr.resolves hlb) (fun f b hf hb => ?_) ?_)
      htidy.harmless
    · subst hf
      exact hr.placed hb
    · intro j hj q hq hc
      rcases hr.references hj with rfl | ⟨t, p, hp, -⟩
      · exact htidy.closed.apart _ q hq hlb
      · exact hapart j p hp hc
  · cases hp.symm.trans hj
  · intro j hj
    cases hp.symm.trans hj

/-- What has been created for another service is tagged. -/
theorem of_tagged_of_ne (hs : Sound fresh l w) (hne : tag ≠ l.service.tag)
    (hr : w.inventory.objects.get? id = some r) :
    Aside fresh l w { w with memory := w.memory.tagged id tag } := by
  refine ⟨⟨rfl, .of_whole (hs.tidy.whole.tagged_of_ne hne hr) hs.tidy.harmless, hs.registered, ?_⟩,
    ⟨.of_owns fun j q => Inventory.owns_attach_of_ne hne, fun _ _ _ _ => le_rfl⟩,
    fun _ => ⟨rfl, fun _ _ => rfl⟩⟩
  intro hi j q hj hq
  rw [World.inventory, Memory.tagged, Inventory.belongsTo_attach_of_ne hne]
  exact hs.elsewhere hi j q hj hq

end World.Aside

namespace World

theorem does_of_look (hq : (busy fresh l).allows (.watch (.get kind id)) w) :
    Does fresh l w (w.answer fresh (.get kind id)).2 := .looked (w.memory.got kind id) hq.2.2

theorem answer_list_snd : (w.answer fresh (.list tag)).2 = { w with memory := w.memory.listing } := by
  have hlisted := w.memory.wasListed tag
  rw [answer_list]
  generalize w.memory.list tag = out at hlisted
  cases hlisted <;> rfl

end World

end BalancerSync
