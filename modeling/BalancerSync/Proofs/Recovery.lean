import BalancerSync.Proofs.Ownership
import BalancerSync.Proofs.Shifting
import BalancerSync.Proofs.Succession

namespace BalancerSync

open Program World Schedule Reconciliation

variable {fresh : Nat → Identifier} {l : Layout} {tag : Tag} {id j : Identifier} {r q : Resource}
  {w w' : World} {m m' : Memory} {unique : Prop}

namespace Inventory

variable {v v' : Inventory} {loose loose' : Option Identifier}

/-- Closed, and only what is there carries tags. -/
structure Intact (v : Inventory) (tag : Tag) (loose : Option Identifier) : Prop
    extends Closed v tag loose where
  listed : ∀ t id, v.Carries t id → ∃ r, v.objects.get? id = some r

/-- No two tagged objects are alike, and the loose one counts as tagged. -/
def Unalike (v : Inventory) (tag : Tag) (loose : Option Identifier) : Prop :=
  ∀ i j r q, v.objects.get? i = some r → v.objects.get? j = some q →
    (v.Carries tag i ∨ loose = some i) → (v.Carries tag j ∨ loose = some j) → r.bare = q.bare → i = j

/-- If all objects have been there before, no two of them are alike. -/
theorem Unalike.of_former (h : v.Unalike tag loose)
    (hv : ∀ i r, v'.objects.get? i = some r → (v'.Carries tag i ∨ loose' = some i) →
      (v.Carries tag i ∨ loose = some i) ∧ ∃ q, v.objects.get? i = some q ∧ r.bare = q.bare) :
    v'.Unalike tag loose' := by
  intro i j r q hr hq hi hj hb
  obtain ⟨hi, r', hr', hbr⟩ := hv i r hr hi
  obtain ⟨hj, q', hq', hbq⟩ := hv j q hq hj
  exact h i j r' q' hr' hq' hi hj (hbr.symm.trans (hb.trans hbq))

theorem intact_iff : v.Intact tag loose ↔ v.Closed tag loose ∧
    ∀ e ∈ v.tags.entries, ∀ id ∈ e.2.keys, id ∈ v.objects.keys := by
  constructor
  · refine fun h => ⟨h.toClosed, fun e he id hid => OrderedMap.mem_keys_iff.2 (h.listed e.1 id ?_)⟩
    exact carries_iff.2 ⟨e.2, OrderedMap.get?_eq_some_iff.2 he, hid⟩
  · rintro ⟨hclosed, hlisted⟩
    refine ⟨hclosed, fun t id hc => ?_⟩
    obtain ⟨ids, hids, hid⟩ := carries_iff.1 hc
    exact OrderedMap.mem_keys_iff.1 (hlisted (t, ids) (OrderedMap.get?_eq_some_iff.1 hids) id hid)

theorem unalike_iff : v.Unalike tag loose ↔
    ∀ e ∈ v.objects.entries, ∀ d ∈ v.objects.entries, (v.Carries tag e.1 ∨ loose = some e.1) →
      (v.Carries tag d.1 ∨ loose = some d.1) → e.2.bare = d.2.bare → e.1 = d.1 :=
  ⟨fun h e he d hd => h e.1 d.1 e.2 d.2 (OrderedMap.get?_eq_some_iff.2 he)
      (OrderedMap.get?_eq_some_iff.2 hd),
    fun h i j r q hr hq => h (i, r) (OrderedMap.get?_eq_some_iff.1 hr) (j, q)
      (OrderedMap.get?_eq_some_iff.1 hq)⟩

instance : Decidable (v.Intact tag loose) := decidable_of_iff _ intact_iff.symm

instance : Decidable (v.Unalike tag loose) := decidable_of_iff _ unalike_iff.symm

end Inventory

namespace World

structure Recoverable (fresh : Nat → Identifier) (tag : Tag) (unique : Prop) (w : World) : Prop where
  whole : w.memory.Whole fresh tag w.pending
  listed : ∀ t id, w.inventory.Carries t id → ∃ r, w.inventory.objects.get? id = some r
  tagging : w.memory.faults.failTag = false
  unalike : unique → w.inventory.Unalike tag w.pending

namespace Recoverable

theorem intact (h : w.Recoverable fresh tag unique) : w.inventory.Intact tag w.pending :=
  ⟨h.whole.closed, h.listed⟩

theorem glanced (h : w.Recoverable fresh tag unique) (hw : w.Glanced w')
    (hf : w'.memory.faults.failTag = false) : w'.Recoverable fresh tag unique where
  whole := hw.pending ▸ h.whole.resembles hw.resembles hw.issued
  listed t id hc := by
    obtain ⟨r, hr⟩ := h.listed t id (hw.resembles.carries_iff.1 hc)
    obtain ⟨q, hq, -⟩ := hw.resembles.exists_get? hr
    exact ⟨q, hq⟩
  tagging := hf
  unalike hu := (h.unalike hu).of_former fun i r hr hi => by
    obtain ⟨q, hq, hb, -⟩ := hw.resembles.symm.exists_get? hr
    rw [hw.resembles.carries_iff, hw.pending] at hi
    exact ⟨hi, q, hq, hb.symm⟩

theorem created (h : w.Recoverable fresh l.service.tag unique) (hp : w.pending = none)
    (hr : l.Lacks w.memory r) (hres : w.inventory.Resolves r) :
    Recoverable fresh l.service.tag unique { w with
      memory := w.memory.created fresh r
      pending := some (fresh (w.memory.issued + 1)) } := by
  have hwhole : w.memory.Whole fresh l.service.tag none := hp ▸ h.whole
  have hid := hwhole.unmentioned
  have hget {i : Identifier} {p : Resource} (hi : w.inventory.objects.get? i = some p) :
      (w.memory.created fresh r).inventory.objects.get? i = some p := by
    refine (Inventory.get?_put.trans (if_neg ?_)).trans hi
    rintro rfl
    exact hid (.inl (OrderedMap.mem_keys_of_get? hi))
  refine ⟨hwhole.created hres fun f b hf hb => ?_, fun t i hc => ?_, h.tagging, fun hu => ?_⟩
  · subst hf
    exact hr.1.placed hb
  · obtain ⟨q, hq⟩ := h.listed t i hc
    exact ⟨q, hget hq⟩
  · have hbare : r.bare = r := hr.1.bare
    -- An object of the new memory is the new one, or one that was there and carries the tag.
    have hcases {i : Identifier} {p : Resource}
        (hp : (w.memory.created fresh r).inventory.objects.get? i = some p)
        (hi : w.inventory.Carries l.service.tag i ∨ some (fresh (w.memory.issued + 1)) = some i) :
        (i = fresh (w.memory.issued + 1) ∧ p.bare = r) ∨
          (w.inventory.objects.get? i = some p ∧ w.inventory.Carries l.service.tag i) := by
      rw [Memory.created, Inventory.get?_put] at hp
      split at hp
      next heq =>
        cases hp
        exact .inl ⟨heq.symm, by simp [hbare]⟩
      next hne => exact .inr ⟨hp, hi.resolve_right fun h => hne (Option.some.inj h)⟩
    intro i j p q hp hq hi hj hb
    rcases hcases hp hi with ⟨rfl, hpr⟩ | ⟨hp, hi⟩ <;> rcases hcases hq hj with ⟨rfl, hqr⟩ | ⟨hq, hj⟩
    · rfl
    · exact absurd (hb.symm.trans hpr) (hr.bare_ne hq hj)
    · exact absurd (hb.trans hqr) (hr.bare_ne hp hi)
    · exact h.unalike hu i j p q hp hq (.inl hi) (.inl hj) hb

theorem tagged (h : w.Recoverable fresh tag unique) (hp : w.pending = some id) :
    Recoverable fresh tag unique { w with memory := w.memory.tagged id tag, pending := none } := by
  have hwhole : w.memory.Whole fresh tag (some id) := hp ▸ h.whole
  refine ⟨hwhole.tagged, fun t i hc => ?_, h.tagging, fun hu => ?_⟩
  · rcases Inventory.carries_attach.1 hc with ⟨-, rfl⟩ | hc
    · exact (hwhole.loose i rfl).1
    · exact h.listed t i hc
  · refine (h.unalike hu).of_former fun i r hr hi => ⟨?_, r, hr, rfl⟩
    rcases Inventory.carries_attach.1 (hi.resolve_right nofun) with ⟨-, rfl⟩ | hc
    · exact .inr hp
    · exact .inl hc

theorem destroyed (h : w.Recoverable fresh tag unique) (hp : w.pending = none)
    (href : ∀ i p, w.inventory.objects.get? i = some p → id ∉ p.references) :
    Recoverable fresh tag unique { w with memory := w.memory.destroyed id } := by
  refine ⟨h.whole.destroyed (hp ▸ nofun) href, fun t i hc => ?_, h.tagging, fun hu => ?_⟩
  · obtain ⟨hne, hc⟩ := Inventory.carries_remove.1 hc
    obtain ⟨r, hr⟩ := h.listed t i hc
    exact ⟨r, (Inventory.get?_remove.trans (if_neg hne.symm)).trans hr⟩
  · exact (h.unalike hu).of_former fun i r hr hi =>
      ⟨hi.imp_left fun hc => (Inventory.carries_remove.1 hc).2, r,
        (Inventory.get?_of_get?_remove hr).2, rfl⟩

end Recoverable

/-- Whatever comes of a request that is due, it can be recovered from. -/
theorem Recoverable.dealt (h : w.Recoverable fresh l.service.tag unique) (hw : Dealt fresh l w w')
    (hf : w'.memory.faults.failTag = false) : w'.Recoverable fresh l.service.tag unique := by
  cases hw with
  | looked hg => exact h.glanced hg hf
  | created hp hr hres => exact h.created hp hr hres
  | tagged hp => exact h.tagged hp
  | destroyed hp href => exact h.destroyed hp href

theorem Recoverable.not_untagged {q : Request} {reply : q.Reply}
    (h : w.Recoverable fresh l.service.tag unique) (hdue : Due l q w)
    (hacts : Acts fresh True q w reply w') : ¬ Untagged q reply := by
  cases q with
  | call c =>
    cases c with
    | tag id tag =>
      obtain ⟨hp, rfl⟩ := hdue
      obtain ⟨rfl, -⟩ := Prod.mk.inj hacts
      have htagged := w.memory.wasTagged id l.service.tag
      change ¬ Untagged (.call (.tag id l.service.tag)) (w.memory.tag id l.service.tag).1
      generalize w.memory.tag id l.service.tag = out at htagged
      cases htagged with
      | tagged => exact not_false
      | refused refusal hrefused =>
        obtain ⟨⟨r, hr⟩, -⟩ := h.whole.loose id hp
        rcases hrefused with hf | hnone
        · cases h.tagging.symm.trans hf
        · cases hr.symm.trans hnone
    | get | list | create | destroy => exact not_false
  | watch | isCanceled | sleep | draw | latest | remember | enter | exit | arrive | release | leave =>
    exact not_false

/-- All settings but the one that makes tagging fail. -/
def Tagging : Faults.Setting → Prop
  | .failTag _ => False
  | _ => True

theorem recoverable_sustained :
    Sustained fresh (shifting fresh l False) (Recoverable fresh l.service.tag unique) where
  idle w := ⟨w.memory.faults, rfl⟩
  acts q w reply w' hw hdue hacts := by
    have hfails : w'.memory.faults.failTag = false := by
      rw [hacts.faultsKept.1]
      exact hw.tagging
    exact ⟨⟨hacts, hw.not_untagged hdue hacts⟩, hw.dealt (dealt_of_due hdue hacts) hfails⟩

theorem Recoverable.configure {setting : Faults.Setting} (h : w.Recoverable fresh tag unique)
    (hs : Tagging setting) : (w.configure [setting]).Recoverable fresh tag unique := by
  refine h.glanced (.of_inventory_eq rfl rfl rfl) ?_
  cases setting with
  | failTag => exact hs.elim
  | _ => exact h.tagging

theorem recoverable_withstands : Withstands Tagging (shifting fresh l False)
    (Recoverable fresh l.service.tag unique)
    fun (_ : Except Failure Unit) w' => w'.Tagged False where
  set w setting hs hw := ⟨⟨w.memory.faults.set setting, rfl⟩, hw.configure hs⟩
  trans := shifting_trans
  post := by
    rintro out w _ h ⟨f, rfl⟩
    exact h

end World

namespace Reconciliation

variable {s : Schedule Memory Unit} {before after : Option Snapshot} {os : List Occurrence}
  {out : Except Failure Unit} {uid : String}

/-- Whatever happens to a reconciliation, at any moment it can be recovered from. -/
theorem follows_recoverable (hs : s.Starts (direct l).reconcile before)
    (h : (World.start s.provider before).Recoverable fresh l.service.tag unique)
    (hos : ∀ o ∈ os, o.Permitted Tagging) :
    Follows (shifting fresh l False) (Recoverable fresh l.service.tag unique)
      (fun _ w' => w'.Tagged False) (s.pass fresh os) := by
  have hpoised : (World.start s.provider before).Poised fresh :=
    ⟨h.whole.closed.stored, h.whole.fresh, rfl⟩
  exact (Follows.of_starts hs h (reconcile_meets_shifting hpoised)).pass recoverable_sustained
    recoverable_withstands os hos

/-- What a reconciliation leaves can be recovered from, whatever it has come to. -/
theorem recoverable_of_ends (hs : s.Starts (direct l).reconcile before)
    (h : (World.start s.provider before).Recoverable fresh l.service.tag unique)
    (hos : ∀ o ∈ os, o.Permitted Tagging) (hout : (s.pass fresh os).Ends out after)
    (latest : Option Snapshot) :
    (World.start (s.pass fresh os).provider latest).Recoverable fresh l.service.tag unique := by
  obtain ⟨w, hm, -, hw, hpending⟩ := (follows_recoverable hs h hos).exists_of_ends hout
  rw [← hm]
  exact hw.glanced (.of_inventory_eq rfl (hpending.resolve_right not_false).symm rfl) hw.tagging

theorem recoverable_of_succession
    (h : ∀ latest, (World.start m latest).Recoverable fresh (.ofService uid) unique)
    (hm : Succession fresh (fun l => l.service.uid = uid) Tagging m m') (latest : Option Snapshot) :
    (World.start m' latest).Recoverable fresh (.ofService uid) unique := by
  induction hm generalizing latest with
  | refl => exact h latest
  | set hm hp ih => exact (ih latest).configure hp
  | @run l s before after os out hm hl hs hos hout ih =>
    subst hl
    exact recoverable_of_ends hs (ih before) hos hout latest

/-- Whatever reconciliations of services with one unique identifier come to, on whichever load
balancers, and however a provider misbehaves meanwhile as long as it attaches tags: each of them
leaves the provider intact for the next one. At most the object that is about to be tagged lacks its
tag in between. If nothing is there twice in the beginning, nothing ever is. -/
theorem leaves_intact (hclosed : m.inventory.Intact (.ofService uid) none) (hfresh : m.Fresh fresh)
    (htagging : m.faults.failTag = false)
    (hm : Succession fresh (fun l => l.service.uid = uid) Tagging m m') :
    (m'.inventory.Intact (.ofService uid) none ∧ (m.inventory.Unalike (.ofService uid) none →
      m'.inventory.Unalike (.ofService uid) none)) ∧
    ∀ (l : Layout) (s : Schedule Memory Unit) (before : Option Snapshot) (os : List Occurrence),
      l.service.uid = uid → s.provider = m' → s.Starts (direct l).reconcile before →
      (∀ o ∈ os, o.Permitted Tagging) →
      (∃ loose, (s.pass fresh os).provider.inventory.Intact (.ofService uid) loose) ∧
      (m.inventory.Unalike (.ofService uid) none →
        (s.pass fresh os).provider.inventory.Unalike (.ofService uid) none) := by
  have hstart (latest : Option Snapshot) : (World.start m latest).Recoverable fresh (.ofService uid)
      (m.inventory.Unalike (.ofService uid) none) :=
    ⟨⟨hclosed.toClosed, hfresh, nofun⟩, hclosed.listed, htagging, id⟩
  have hend := recoverable_of_succession hstart hm
  refine ⟨⟨(hend none).intact, (hend none).unalike⟩, ?_⟩
  rintro l s before os rfl rfl hs hos
  obtain ⟨t, w, -, ⟨hw, -⟩, hrecoverable, -⟩ := follows_recoverable hs (hend before) hos
  rw [← hw]
  refine ⟨⟨w.pending, hrecoverable.intact⟩, fun hu => ?_⟩
  exact (hrecoverable.unalike hu).of_former fun i r hr hi =>
    ⟨.inl (hi.resolve_right nofun), r, hr, rfl⟩

end Reconciliation

namespace Sample

def limited : List Occurrence :=
  .set (.rateLimitAfterDestroys (some 1)) :: List.replicate 12 (.move (.step 0))

def stopped : Schedule Memory Unit := before.pass .scattered limited

end Sample

theorem sample_leaves_intact :
    Sample.memory.inventory.Intact (.ofService "1") none ∧ Sample.memory.Fresh .scattered ∧
    Sample.memory.faults.failTag = false ∧ Sample.memory.inventory.Unalike (.ofService "1") none ∧
    Sample.stopped.Ends (.error (.rateLimited [⟨"b-1"⟩])) none ∧
    Succession .scattered (fun l => l.service.uid = "1") Tagging Sample.memory
      Sample.stopped.provider ∧
    Sample.stopped.provider.inventory.Intact (.ofService "1") none ∧
    Sample.stopped.provider.inventory.Unalike (.ofService "1") none := by
  have hintact : Sample.memory.inventory.Intact (.ofService "1") none := by decide +kernel
  have hfresh : Sample.memory.Fresh .scattered := Memory.fresh_scattered (by decide +kernel)
  have htagging : Sample.memory.faults.failTag = false := by decide +kernel
  have hunalike : Sample.memory.inventory.Unalike (.ofService "1") none := by decide +kernel
  have hout : Sample.stopped.Ends (.error (.rateLimited [⟨"b-1"⟩])) none := by decide +kernel
  have hpermitted : ∀ o ∈ Sample.limited, o.Permitted Tagging := by
    intro o ho
    rcases List.mem_cons.1 ho with rfl | ho
    · trivial
    · rw [List.eq_of_mem_replicate ho]
      trivial
  have hm : Succession .scattered (fun l => l.service.uid = "1") Tagging Sample.memory
      Sample.stopped.provider :=
    .run (l := Sample.layout) (s := Sample.before) .refl rfl ⟨false, rfl⟩ hpermitted hout
  obtain ⟨⟨hclosed, hunique⟩, -⟩ :=
    Reconciliation.leaves_intact hintact hfresh htagging hm
  exact ⟨hintact, hfresh, htagging, hunalike, hout, hm, hclosed, hunique hunalike⟩

end BalancerSync
