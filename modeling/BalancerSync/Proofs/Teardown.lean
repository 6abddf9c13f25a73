import BalancerSync.Proofs.Alone
import BalancerSync.Proofs.Leaks

namespace BalancerSync

open Program Engine World Schedule

variable {fresh : Nat → Identifier} {l : Layout} {tag : Tag} {lb id j : Identifier} {r q : Resource}
  {w w' : World} {m m' : Memory} {α : Type}

/-- An object without the tag refers to it, directly or through other objects. -/
inductive Inventory.Pinned (v : Inventory) (tag : Tag) : Identifier → Prop
  | untagged {id j : Identifier} {q : Resource} (hq : v.objects.get? j = some q)
      (href : id ∈ q.references) (hj : ¬ v.Carries tag j) : Pinned v tag id
  | pinned {id j : Identifier} {q : Resource} (hq : v.objects.get? j = some q)
      (href : id ∈ q.references) (hj : Pinned v tag j) : Pinned v tag id

/-- At the end of what pins an object there is an object without the tag, which is no backend. -/
theorem Inventory.Pinned.exists_untagged {v : Inventory} (h : v.Pinned tag id)
    (hresolved : ∀ id r, v.objects.get? id = some r → v.Resolves r)
    (hapart : ∀ id r, v.objects.get? id = some r → id ∉ v.loadBalancers.keys)
    (hr : v.objects.get? id = some r) :
    ∃ j q, v.objects.get? j = some q ∧ ¬ v.Carries tag j ∧ q.kind ≠ .backend := by
  induction h generalizing r with
  | @untagged id j q hq href hj =>
    refine ⟨j, q, hq, hj, fun hkind => ?_⟩
    have hlt := (hresolved j q hq).rank_lt href (hapart id r hr) hr
    rw [hkind] at hlt
    exact Nat.not_lt_zero _ hlt
  | pinned hq _ _ ih => exact ih hq

theorem Inventory.Resolves.exists_object {v : Inventory} (h : v.Resolves r)
    (hkind : r.kind ≠ .backend) : ∃ j q, j ∈ r.references ∧ v.objects.get? j = some q := by
  cases r with
  | backend b => exact absurd rfl hkind
  | frontend f =>
    obtain ⟨-, b, hb⟩ := h
    exact ⟨f.defaultBackend, _, by simp [Resource.references], hb⟩
  | bind b =>
    obtain ⟨f, hf⟩ := h
    exact ⟨b.frontend, _, List.mem_singleton_self _, hf⟩
  | server s =>
    obtain ⟨b, hb⟩ := h
    exact ⟨s.backend, _, List.mem_singleton_self _, hb⟩

open Classical in
noncomputable def Inventory.pins (v : Inventory) (tag : Tag) (r : Resource) : Bool :=
  decide (∃ id, r.identifier = some id ∧ v.Pinned tag id)

theorem Inventory.pins_iff {v : Inventory} (hid : r.identifier = some id) :
    v.pins tag r = true ↔ v.Pinned tag id := by
  simp only [pins, decide_eq_true_eq]
  constructor
  · rintro ⟨i, hi, hp⟩
    cases hid.symm.trans hi
    exact hp
  · exact fun hp => ⟨id, hid, hp⟩

namespace Engine

/-- Objects that are to be destroyed, and those of them that others keep in place. What keeps an
object in place stays, and whatever refers to any other one is to be destroyed as well. -/
structure Queued (m : Memory) (held : Resource → Bool) (queue : List Resource) : Prop where
  present : ∀ r ∈ queue, ∃ id, r.identifier = some id ∧ m.inventory.objects.get? id = some r
  nodup : queue.Nodup
  holder : ∀ r ∈ queue, ∀ id, r.identifier = some id → held r = true →
    ∃ j q, m.inventory.objects.get? j = some q ∧ id ∈ q.references ∧ (q ∈ queue → held q = true)
  free : ∀ r ∈ queue, ∀ id, r.identifier = some id → held r = false → ∀ j q,
    m.inventory.objects.get? j = some q → id ∈ q.references → q ∈ queue ∧ held q = false

structure Swept (fresh : Nat → Identifier) (tag : Tag) (lb : Identifier) (held : Resource → Bool)
    (queue : List Resource) (m m' : Memory) : Prop where
  littered : m'.Littered fresh tag lb
  get?_iff : ∀ id q, m'.inventory.objects.get? id = some q ↔
    m.inventory.objects.get? id = some q ∧ (q ∈ queue → held q = true)
  carries_iff : ∀ id q, m'.inventory.objects.get? id = some q →
    (m'.inventory.Carries tag id ↔ m.inventory.Carries tag id)

variable {held : Resource → Bool} {queue : List Resource}

theorem Swept.nil (hm : m.Littered fresh tag lb) : Swept fresh tag lb held [] m m :=
  ⟨hm, by simp, fun _ _ _ => Iff.rfl⟩

theorem Swept.cons {m'' : Memory} (h : Swept fresh tag lb held [r] m m')
    (h' : Swept fresh tag lb held queue m' m'') : Swept fresh tag lb held (r :: queue) m m'' where
  littered := h'.littered
  get?_iff id q := by
    rw [h'.get?_iff, h.get?_iff, List.mem_singleton, List.mem_cons, and_assoc, or_imp]
  carries_iff id q hq :=
    (h'.carries_iff id q hq).trans (h.carries_iff id q ((h'.get?_iff id q).1 hq).1)

theorem Swept.refused (hm : m.Littered fresh tag lb) (hheld : held r = true) (attempts : Nat) :
    Swept fresh tag lb held [r] m { m with destroyAttempts := attempts } where
  littered := hm.of_inventory_eq rfl rfl rfl
  get?_iff id q := by
    refine (and_iff_left fun hq => ?_).symm
    rw [List.mem_singleton.1 hq, hheld]
  carries_iff _ _ _ := Iff.rfl

/-- What is not held is destroyed as soon as nothing refers to it. -/
theorem Swept.destroyed (hm : m.Littered fresh tag lb) (hid : r.identifier = some id)
    (hr : m.inventory.objects.get? id = some r) (hheld : held r = false)
    (href : ∀ j q, m.inventory.objects.get? j = some q → id ∉ q.references) :
    Swept fresh tag lb held [r] m (m.destroyed id) where
  littered := hm.destroyed href
  get?_iff i q := by
    rw [Memory.destroyed, Inventory.get?_remove, List.mem_singleton]
    split
    next heq =>
      subst heq
      refine iff_of_false (by simp) ?_
      rintro ⟨hq, hkept⟩
      cases hr.symm.trans hq
      exact absurd (hkept rfl) (by simp [hheld])
    next hne =>
      refine ⟨fun hq => ⟨hq, fun heq => ?_⟩, fun hq => hq.1⟩
      cases heq
      exact absurd (Option.some.inj (hid.symm.trans (hm.stored i r hq))) hne
  carries_iff i q hq :=
    Inventory.carries_remove.trans (and_iff_right (Inventory.get?_of_get?_remove hq).1)

/-- Nothing refers any more to the first object that is not held, because what did was of higher
rank. -/
theorem Queued.not_mem_references (h : Queued m held (r :: queue)) (hm : m.Littered fresh tag lb)
    (hsorted : (r :: queue).Pairwise fun r q => q.kind.rank ≤ r.kind.rank)
    (hid : r.identifier = some id) (hr : m.inventory.objects.get? id = some r)
    (hheld : held r = false) (hq : m.inventory.objects.get? j = some q) : id ∉ q.references := by
  intro href
  have hlt := (hm.resolved j q hq).rank_lt href (hm.apart id r hr) hr
  rcases List.mem_cons.1 (h.free r (by simp) id hid hheld j q hq href).1 with rfl | hq
  · exact Nat.lt_irrefl _ hlt
  · exact Nat.lt_irrefl _ (hlt.trans_le ((List.pairwise_cons.1 hsorted).1 q hq))

/-- The first object has been destroyed, or is held. -/
theorem Queued.tail (h : Queued m held (r :: queue)) (hm : Swept fresh tag lb held [r] m m') :
    Queued m' held queue := by
  have hget (i : Identifier) (q : Resource) : m'.inventory.objects.get? i = some q ↔
      m.inventory.objects.get? i = some q ∧ (q = r → held q = true) := by
    rw [hm.get?_iff, List.mem_singleton]
  obtain ⟨hr, hnodup⟩ := List.nodup_cons.1 h.nodup
  refine ⟨fun q hq => ?_, hnodup, fun q hq i hi hheld => ?_, fun q hq i hi hheld j p hp href => ?_⟩
  · obtain ⟨i, hi, hget'⟩ := h.present q (List.mem_cons_of_mem _ hq)
    exact ⟨i, hi, (hget i q).2 ⟨hget', fun heq => absurd (heq ▸ hq) hr⟩⟩
  · obtain ⟨j, p, hp, href, hstays⟩ := h.holder q (List.mem_cons_of_mem _ hq) i hi hheld
    exact ⟨j, p, (hget j p).2 ⟨hp, fun heq => hstays (heq ▸ List.mem_cons_self)⟩, href,
      fun hp => hstays (List.mem_cons_of_mem _ hp)⟩
  · obtain ⟨hp, hne⟩ := (hget j p).1 hp
    obtain ⟨hmem, hfree⟩ := h.free q (List.mem_cons_of_mem _ hq) i hi hheld j p hp href
    refine ⟨(List.mem_cons.1 hmem).resolve_left fun heq => ?_, hfree⟩
    exact Bool.false_ne_true (hfree.symm.trans (hne heq))

/-- Requests in quiet surroundings. -/
theorem quiet_checkpoint {post : Except Failure α → World → Prop} {f : Unit → Program α}
    (h : (f ()).Meets (quiet fresh) post w) : (checkpoint >>= f).Meets (quiet fresh) post w := by
  rintro w rfl
  refine ⟨trivial, ?_⟩
  rintro canceled w ⟨hc, rfl⟩
  cases canceled with
  | false => exact h
  | true => exact (hc rfl).elim

theorem quiet_call {c : Call} {post : Except Failure α → World → Prop} {f : c.Answer → Program α}
    (h : (f (w.answer fresh c).1).Meets (quiet fresh) post (w.answer fresh c).2) :
    (request (.call c) >>= f).Meets (quiet fresh) post w := by
  rintro w rfl
  refine ⟨trivial, fun reply w' hreply => ?_⟩
  obtain ⟨rfl, rfl⟩ := Prod.mk.inj hreply
  exact h

theorem destroyPass_meets_quiet (refused queue : List Resource)
    (hw : w.memory.Littered fresh tag lb) (h : Queued w.memory held queue)
    (hsorted : queue.Pairwise fun r q => q.kind.rank ≤ r.kind.rank) :
    (destroyPass refused queue).Meets (quiet fresh) (fun out w' =>
      out = .ok (refused ++ queue.filter held) ∧
        Swept fresh tag lb held queue w.memory w'.memory) w := by
  induction queue generalizing w refused with
  | nil => exact ⟨by simp, hw, by simp, fun _ _ _ => Iff.rfl⟩
  | cons r queue ih =>
    obtain ⟨id, hid, hr⟩ := h.present r (by simp)
    have hrefuses : ¬ w.memory.refusesDestroy id := by
      rw [Memory.refusesDestroy, hw.faults]
      simp [Faults.none]
    simp only [destroyPass, hid]
    refine quiet_checkpoint (quiet_call ?_)
    rw [answer_destroy, Memory.destroy_eq hrefuses hr]
    cases hheld : held r with
    | true =>
      obtain ⟨j, p, hp, hmem, -⟩ := h.holder r (by simp) id hid hheld
      cases href : w.inventory.referrer? id with
      | none => exact absurd hmem (Inventory.referrer?_eq_none_iff.1 href j p hp)
      | some q =>
        have hswept := Swept.refused hw hheld (w.memory.destroyAttempts + 1)
        refine (ih (refused ++ [r]) hswept.littered (h.tail hswept) hsorted.of_cons).mono ?_
        rintro out w' ⟨rfl, hw'⟩
        exact ⟨by simp [hheld], hswept.cons hw'⟩
    | false =>
      have href : ∀ j q, w.inventory.objects.get? j = some q → id ∉ q.references :=
        fun j q hq => h.not_mem_references hw hsorted hid hr hheld hq
      rw [Inventory.referrer?_eq_none_iff.2 href]
      have hswept := Swept.destroyed hw hid hr hheld href
      refine (ih refused hswept.littered (h.tail hswept) hsorted.of_cons).mono ?_
      rintro out w' ⟨rfl, hw'⟩
      exact ⟨by simp [hheld], hswept.cons hw'⟩

/-- What is held is queued again, and nothing else. -/
theorem Queued.filter (h : Queued m held queue) (hm : Swept fresh tag lb held queue m m') :
    Queued m' held (queue.filter held) := by
  refine ⟨fun r hr => ?_, h.nodup.filter _, fun r hr id hid hheld => ?_, fun r hr _ _ hheld => ?_⟩
  · obtain ⟨hr, hheld⟩ := List.mem_filter.1 hr
    obtain ⟨id, hid, hget⟩ := h.present r hr
    exact ⟨id, hid, (hm.get?_iff id r).2 ⟨hget, fun _ => hheld⟩⟩
  · obtain ⟨j, q, hq, href, hstays⟩ := h.holder r (List.mem_filter.1 hr).1 id hid hheld
    exact ⟨j, q, (hm.get?_iff j q).2 ⟨hq, hstays⟩, href, fun hq => (List.mem_filter.1 hq).2⟩
  · rw [(List.mem_filter.1 hr).2] at hheld
    cases hheld

theorem Swept.of_filter {m'' : Memory} (h : Swept fresh tag lb held queue m m')
    (h' : Swept fresh tag lb held (queue.filter held) m' m'') :
    Swept fresh tag lb held queue m m'' where
  littered := h'.littered
  get?_iff id q := by
    rw [h'.get?_iff, h.get?_iff]
    exact and_iff_left fun hq => (List.mem_filter.1 hq).2
  carries_iff id q hq :=
    (h'.carries_iff id q hq).trans (h.carries_iff id q ((h'.get?_iff id q).1 hq).1)

/-- The passes come to an end when all that is left is held. -/
def okUnless (held : List Resource) : Except Failure Unit :=
  if held = [] then .ok () else .error (.notDestroyable (identifiers held))

theorem destroyPasses_meets_quiet (passes : Nat) (queue : List Resource)
    (hpasses : queue.length ≤ passes) (hw : w.memory.Littered fresh tag lb)
    (h : Queued w.memory held queue)
    (hsorted : queue.Pairwise fun r q => q.kind.rank ≤ r.kind.rank) :
    (destroyPasses passes queue).Meets (quiet fresh) (fun out w' =>
      out = okUnless (queue.filter held) ∧ Swept fresh tag lb held queue w.memory w'.memory) w := by
  induction passes generalizing w queue with
  | zero =>
    rw [List.length_eq_zero_iff.1 (Nat.le_zero.1 hpasses)]
    exact ⟨rfl, .nil hw⟩
  | succ passes ih =>
    refine (destroyPass_meets_quiet [] queue hw h hsorted).bind ?_ fun _ _ h => nomatch h.1
    rintro refused w₁ ⟨hrefused, hw₁⟩
    cases hrefused
    rw [List.nil_append]
    split
    next hempty => exact ⟨(if_pos (List.isEmpty_iff.1 hempty)).symm, hw₁⟩
    next hempty =>
      have hne : queue.filter held ≠ [] := fun hnil => hempty (List.isEmpty_iff.2 hnil)
      split
      next => exact ⟨(if_neg hne).symm, hw₁⟩
      next hlen =>
        have hlt := (List.length_filter_le held queue).lt_of_ne hlen
        refine (ih (queue.filter held) (by omega) hw₁.littered (h.filter hw₁)
          (hsorted.filter held)).mono ?_
        rintro out w₂ ⟨rfl, hw₂⟩
        exact ⟨by rw [List.filter_filter]; simp, hw₁.of_filter hw₂⟩

end Engine

/-- For the same service on the same load balancer. -/
def Layout.Kin (l l' : Layout) : Prop :=
  l'.service.tag = l.service.tag ∧ l'.loadBalancer = l.loadBalancer

/-- The layout of the service when nothing is to be reachable any more. -/
def Layout.emptied (l : Layout) : Layout := { l with service := l.service.emptied }

theorem Layout.targets_emptied {backends frontends : Resolved} :
    l.emptied.targets backends frontends = [] := rfl

/-- Nothing is created for an emptied service, and all that is there is destroyed. -/
theorem Layout.exists_plan_emptied {s : Snapshot} (hs : s.Classified)
    (hready : ∀ r ∈ s.resources, r.status = .ready false) : ∃ p, l.emptied.plan s = .ok p ∧
      p.create = [] ∧ p.destroy.Nodup ∧ ∀ r, r ∈ p.destroy ↔ r ∈ s.resources := by
  have hnone {rs : List Resource} {status : Readiness} (hne : status ≠ .ready)
      (hrs : ∀ r, r ∈ rs ↔ r ∈ s.resources ∧ r.readiness = status) : rs = [] := by
    refine List.eq_nil_iff_forall_not_mem.2 fun r hr => hne ?_
    obtain ⟨hr, hstatus⟩ := (hrs r).1 hr
    rw [← hstatus, Resource.readiness, hready r hr]
    rfl
  have hfailed : s.failed = [] := hnone (by decide) hs.mem_failed
  have hprogressing : s.progressing = [] := hnone (by decide) hs.mem_progressing
  obtain ⟨p, hp⟩ := exists_plan (l := l.emptied) hs .nil .nil
  obtain ⟨backends, frontends, h⟩ := exists_planned hs hp
  refine ⟨p, plan_eq_ok_iff.2 (.inr ⟨hfailed, hprogressing, hp⟩), ?_, h.destroy_nodup, fun r => ?_⟩
  · refine List.eq_nil_iff_forall_not_mem.2 fun r hr => ?_
    have ht := ((h.mem_create r).1 hr).1
    rw [targets_emptied] at ht
    cases ht
  · rw [h.mem_destroy, targets_emptied]
    simp

namespace Memory.Littered

/-- Nothing changes when a provider is polled on which everything is ready. -/
theorem inventory_eq_of_polled {tag' : Tag} (h : m.Littered fresh tag lb) (hp : Polled tag' m m') :
    m'.inventory = m.inventory := by
  have hobjects : m'.inventory.objects = m.inventory.objects := by
    refine OrderedMap.ext_get? fun id => ?_
    rcases hp.objects id with heq | ⟨r, hr, hstatus, -⟩
    · exact heq
    · cases hstatus.symm.trans (h.ready id r hr)
  rw [Inventory.mk.injEq]
  exact ⟨hp.loadBalancers, hobjects, hp.tags⟩

/-- Whatever carries the tag belongs to the load balancer. -/
theorem mem_share_iff (h : m.Littered fresh tag lb) :
    r ∈ (m.inventory.shareSnapshot tag lb).resources ↔
      ∃ id, m.inventory.objects.get? id = some r ∧ m.inventory.Carries tag id := by
  rw [Inventory.mem_share_resources_iff h.stored]
  constructor
  · rintro ⟨id, -, hr, hc, -⟩
    exact ⟨id, hr, hc⟩
  · rintro ⟨id, hr, hc⟩
    exact ⟨id, h.stored id r hr, hr, hc, h.placed id r hr⟩

theorem queued (h : m.Littered fresh tag lb) {queue : List Resource} (hn : queue.Nodup)
    (hqueue : ∀ r, r ∈ queue ↔
      ∃ id, m.inventory.objects.get? id = some r ∧ m.inventory.Carries tag id) :
    Queued m (m.inventory.pins tag) queue := by
  refine ⟨fun r hr => ?_, hn, fun r hr id hid hpinned => ?_,
    fun r hr id hid hfree j q hq href => ?_⟩
  · obtain ⟨id, hget, -⟩ := (hqueue r).1 hr
    exact ⟨id, h.stored id r hget, hget⟩
  · cases (Inventory.pins_iff hid).1 hpinned with
    | @untagged id j q hq href hj =>
      refine ⟨j, q, hq, href, fun hmem => ?_⟩
      obtain ⟨i, hi, hc⟩ := (hqueue q).1 hmem
      cases (h.stored i q hi).symm.trans (h.stored j q hq)
      exact absurd hc hj
    | @pinned id j q hq href hj =>
      exact ⟨j, q, hq, href, fun _ => (Inventory.pins_iff (h.stored j q hq)).2 hj⟩
  · have hfree : ¬ m.inventory.Pinned tag id := fun hp =>
      Bool.false_ne_true (hfree.symm.trans ((Inventory.pins_iff hid).2 hp))
    refine ⟨(hqueue q).2 ⟨j, hq, by_contra fun hj => hfree (.untagged hq href hj)⟩, ?_⟩
    refine Bool.eq_false_iff.2 fun hp => hfree (.pinned hq href ?_)
    exact (Inventory.pins_iff (h.stored j q hq)).1 hp

end Memory.Littered

/-- All that is tagged and not pinned has been destroyed, and what is left of the tagged objects. -/
structure Torn (fresh : Nat → Identifier) (tag : Tag) (lb : Identifier) (v : Inventory)
    (m' : Memory) (left : List Resource) : Prop where
  littered : m'.Littered fresh tag lb
  get?_iff : ∀ id r, m'.inventory.objects.get? id = some r ↔ v.objects.get? id = some r ∧
    (v.Carries tag id → v.Pinned tag id)
  carries_iff : ∀ id r, m'.inventory.objects.get? id = some r →
    (m'.inventory.Carries tag id ↔ v.Carries tag id)
  mem_left : ∀ r, r ∈ left ↔
    ∃ id, m'.inventory.objects.get? id = some r ∧ m'.inventory.Carries tag id

namespace Torn

variable {v : Inventory} {left : List Resource}

theorem of_inventory_eq {m'' : Memory} (h : Torn fresh tag lb v m' left)
    (hm : m''.Littered fresh tag lb) (hv : m''.inventory = m'.inventory) :
    Torn fresh tag lb v m'' left :=
  ⟨hm, fun id r => hv ▸ h.get?_iff id r, fun id r => hv ▸ h.carries_iff id r,
    fun r => hv ▸ h.mem_left r⟩

theorem of_forall_not_carries (hm : m'.Littered fresh tag lb) (hv : m'.inventory = v)
    (hnone : ∀ id r, v.objects.get? id = some r → ¬ v.Carries tag id) :
    Torn fresh tag lb v m' [] := by
  refine ⟨hm, fun id r => ?_, fun id r _ => by rw [hv], fun r => ⟨nofun, ?_⟩⟩
  · rw [hv]
    exact (and_iff_left_of_imp fun hr hc => absurd hc (hnone id r hr)).symm
  · rintro ⟨id, hr, hc⟩
    rw [hv] at hr hc
    exact absurd hc (hnone id r hr)

theorem forall_not_carries (h : Torn fresh tag lb v m' []) (id : Identifier) (r : Resource)
    (hr : m'.inventory.objects.get? id = some r) : ¬ m'.inventory.Carries tag id :=
  fun hc => nomatch (h.mem_left r).2 ⟨id, hr, hc⟩

theorem of_swept {queue : List Resource} (hm : m.Littered fresh tag lb)
    (hqueue : ∀ r, r ∈ queue ↔
      ∃ id, m.inventory.objects.get? id = some r ∧ m.inventory.Carries tag id)
    (h : Swept fresh tag lb (m.inventory.pins tag) queue m m') :
    Torn fresh tag lb m.inventory m' (queue.filter (m.inventory.pins tag)) := by
  -- An object is queued if it is tagged.
  have hqueued {id : Identifier} {r : Resource} (hr : m.inventory.objects.get? id = some r) :
      r ∈ queue ↔ m.inventory.Carries tag id := by
    rw [hqueue]
    constructor
    · rintro ⟨j, hj, hc⟩
      cases (hm.stored j r hj).symm.trans (hm.stored id r hr)
      exact hc
    · exact fun hc => ⟨id, hr, hc⟩
  refine ⟨h.littered, fun id r => ?_, h.carries_iff, fun r => ?_⟩
  · rw [h.get?_iff]
    refine and_congr_right fun hr => ?_
    rw [hqueued hr, Inventory.pins_iff (hm.stored id r hr)]
  · rw [List.mem_filter, hqueue]
    constructor
    · rintro ⟨⟨id, hr, hc⟩, hp⟩
      have hr' := (h.get?_iff id r).2 ⟨hr, fun _ => hp⟩
      exact ⟨id, hr', (h.carries_iff id r hr').2 hc⟩
    · rintro ⟨id, hr', hc'⟩
      obtain ⟨hr, hp⟩ := (h.get?_iff id r).1 hr'
      have hc := (h.carries_iff id r hr').1 hc'
      exact ⟨⟨id, hr, hc⟩, hp ((hqueued hr).2 hc)⟩

/-- Something tagged is left if an object without the tag refers to a tagged one, as all do but
backends. -/
theorem left_eq_nil_iff (h : Torn fresh tag lb m.inventory m' left) (hm : m.Littered fresh tag lb) :
    left = [] ↔ ∀ id r, m.inventory.objects.get? id = some r → ¬ m.inventory.Carries tag id →
      r.kind = .backend := by
  constructor
  · rintro rfl id r hr hc
    by_contra hkind
    obtain ⟨j, q, href, hq⟩ := (hm.resolved id r hr).exists_object hkind
    have hj := (hm.rooted id r j hr href).resolve_left (hm.apart j q hq)
    have hq' := (h.get?_iff j q).2 ⟨hq, fun _ => .untagged hr href hc⟩
    exact h.forall_not_carries j q hq' ((h.carries_iff j q hq').2 hj)
  · intro hbackend
    refine List.eq_nil_iff_forall_not_mem.2 fun r hr => ?_
    obtain ⟨id, hr', hc⟩ := (h.mem_left r).1 hr
    obtain ⟨hr, hp⟩ := (h.get?_iff id r).1 hr'
    obtain ⟨j, q, hq, hj, hkind⟩ :=
      (hp ((h.carries_iff id r hr').1 hc)).exists_untagged hm.resolved hm.apart hr
    exact hkind (hbackend j q hq hj)

end Torn

theorem destroyAll_meets_quiet {rs : List Resource} (hw : w.memory.Littered fresh tag lb)
    (hn : rs.Nodup) (hrs : ∀ r, r ∈ rs ↔
      ∃ id, w.inventory.objects.get? id = some r ∧ w.inventory.Carries tag id) :
    (destroyAll rs).Meets (quiet fresh) (fun out w' =>
      ∃ left, out = okUnless left ∧ Torn fresh tag lb w.inventory w'.memory left) w := by
  have hperm : (byRank [2, 1, 0] rs).Perm rs := byRank_perm (by decide) (by decide) hn
  have hqueue (r : Resource) := hperm.mem_iff.trans (hrs r)
  refine (destroyPasses_meets_quiet rs.length _ hperm.length_eq.le hw
    (hw.queued (hperm.nodup_iff.2 hn) hqueue) (byRank_descending rs)).mono ?_
  rintro out w' ⟨hout, hswept⟩
  exact ⟨_, hout, .of_swept hw hqueue hswept⟩

theorem World.quiet_lone : Lone fresh False (quiet fresh) := by
  refine ⟨fun _ _ h => h, fun q _ hq => ?_, fun _ _ _ _ h => h⟩
  cases q with
  | arrive | release | leave => exact hq.elim
  | call | watch | isCanceled | sleep | draw | latest | remember | enter | exit => trivial

namespace Reconciliation

/-- A check of the emptied service finds all tagged objects. -/
theorem check_meets_quiet (hw : w.memory.Littered fresh l.service.tag l.loadBalancer) :
    (direct l.emptied).check.Meets (quiet fresh) (fun out w' => ∃ p : Plan, out = .ok p ∧
      p.create = [] ∧ p.destroy.Nodup ∧
      (∀ r, r ∈ p.destroy ↔
        ∃ id, w.inventory.objects.get? id = some r ∧ w.inventory.Carries l.service.tag id) ∧
      w'.inventory = w.inventory ∧ w'.memory.Littered fresh l.service.tag l.loadBalancer) w := by
  refine (check_meets_lone (l := l.emptied) quiet_lone hw.stored).mono ?_
  rintro out w' ⟨hp, hchecked⟩
  have hv : w'.inventory = w.inventory := hw.inventory_eq_of_polled hp
  have hready (r : Resource) (hr : r ∈ (w'.shareSnapshot l.emptied).resources) :
      r.status = .ready false := by
    rw [World.shareSnapshot, hv] at hr
    obtain ⟨id, hr, -⟩ := hw.mem_share_iff.1 hr
    exact hw.ready id r hr
  have hstored : w'.inventory.Stored := hp.stored hw.stored
  obtain ⟨p, hplan, hcreate, hn, hdestroy⟩ :=
    Layout.exists_plan_emptied (l := l) (Inventory.shareSnapshot_classified _ _ hstored) hready
  rcases hchecked with ⟨rfl, -, -⟩ | ⟨-, ⟨-, hc⟩ | ⟨-, -, hf⟩⟩
  · refine ⟨p, hplan, hcreate, hn, fun r => ?_, hv, hw.of_inventory_eq hv hp.issued hp.faults⟩
    rw [hdestroy, hv]
    exact hw.mem_share_iff
  · exact hc.elim
  · rw [hw.faults] at hf
    cases hf

/-- When nothing is tagged any more, there is nothing to do. -/
theorem converge_meets_quiet_of_forall_not_carries (cycles : Nat)
    (hw : w.memory.Littered fresh l.service.tag l.loadBalancer)
    (hnone : ∀ id r, w.inventory.objects.get? id = some r →
      ¬ w.inventory.Carries l.service.tag id) :
    ((direct l.emptied).converge (cycles + 1)).Meets (quiet fresh) (fun out w' => out = .ok () ∧
      w'.inventory = w.inventory ∧ w'.memory.Littered fresh l.service.tag l.loadBalancer) w := by
  rw [converge_succ]
  refine quiet_checkpoint ((check_meets_quiet hw).attempt ?_)
  rintro out w₁ ⟨p, rfl, hcreate, -, hdestroy, hv, hw₁⟩
  have hd : p.destroy = [] := List.eq_nil_iff_forall_not_mem.2 fun r hr => by
    obtain ⟨id, hr, hc⟩ := (hdestroy r).1 hr
    exact hnone id r hr hc
  have hempty : p.isEmpty = true := by simp [Plan.isEmpty, hcreate, hd]
  simp only [if_pos hempty]
  exact ⟨rfl, hv, hw₁⟩

theorem converge_meets_quiet (cycles : Nat)
    (hw : w.memory.Littered fresh l.service.tag l.loadBalancer) :
    ((direct l.emptied).converge (cycles + 2)).Meets (quiet fresh)
      (fun out w' => ∃ left, out = okUnless left ∧
        Torn fresh l.service.tag l.loadBalancer w.inventory w'.memory left) w := by
  rw [converge_succ]
  refine quiet_checkpoint ((check_meets_quiet hw).attempt ?_)
  rintro out w₁ ⟨p, rfl, hcreate, hn, hdestroy, hv, hw₁⟩
  rw [← hv] at hdestroy ⊢
  by_cases hd : p.destroy = []
  · have hempty : p.isEmpty = true := by simp [Plan.isEmpty, hcreate, hd]
    simp only [if_pos hempty]
    refine ⟨[], rfl, .of_forall_not_carries hw₁ rfl fun id r hr hc => ?_⟩
    have := (hdestroy r).2 ⟨id, hr, hc⟩
    rw [hd] at this
    cases this
  · have hempty : ¬ p.isEmpty = true := by simp [Plan.isEmpty, hd]
    have hact : (direct l.emptied).act p = destroyAll p.destroy := by simp [act, hd]
    simp only [if_neg hempty, hact]
    refine Meets.request fun w₂ hw₂ => ⟨trivial, fun _ w₃ hw₃ => ?_⟩
    cases hw₂
    cases hw₃
    refine (destroyAll_meets_quiet (w := { w₁ with latest := none }) hw₁ hn hdestroy).bind ?_ ?_
    · rintro ⟨⟩ w₂ ⟨left, hout, htorn⟩
      have hleft : left = [] := by
        by_contra hne
        rw [okUnless, if_neg hne] at hout
        cases hout
      subst hleft
      refine (converge_meets_quiet_of_forall_not_carries cycles htorn.littered
        htorn.forall_not_carries).mono ?_
      rintro out w₃ ⟨rfl, hv₃, hw₃⟩
      exact ⟨[], rfl, htorn.of_inventory_eq hw₃ hv₃⟩
    · rintro failure w₂ ⟨left, hout, htorn⟩
      exact ⟨left, hout, htorn⟩

theorem reconcile_meets_quiet (hc : 2 ≤ l.settings.maxCycles)
    (hw : w.memory.Littered fresh l.service.tag l.loadBalancer) :
    (direct l.emptied).reconcile.Meets (quiet fresh) (fun out w' => ∃ left, out = okUnless left ∧
      Torn fresh l.service.tag l.loadBalancer w.inventory w'.memory left) w := by
  obtain ⟨cycles, hcycles⟩ : ∃ cycles, l.emptied.settings.maxCycles = cycles + 2 :=
    ⟨_, (Nat.sub_add_cancel hc).symm⟩
  have hconverge := converge_meets_quiet cycles hw
  rw [← hcycles] at hconverge
  refine hconverge.attempt fun out w' hout => ?_
  cases out with
  | error failure => exact hout
  | ok _ => exact hout

/-- Reconciliations have served a service on a load balancer and may have lost tags. When its
emptied service is reconciled, what goes is what is tagged and not pinned. That is all that is tagged
if none but backends lost their tags. If others did, the reconciliation tells what is left. -/
theorem tears_down_unless_pinned {k : Conditions Memory} {s : Surroundings Memory}
    (hs : s.Calm fresh k) (hnone : ∀ id, m.inventory.objects.get? id = none)
    (hlb : l.loadBalancer ∈ m.inventory.loadBalancers.keys) (hfresh : m.Fresh fresh)
    (hfaults : m.faults.TagsOnly)
    (hm : Succession fresh l.Kin OnlyTagging m s.provider)
    (hc : 2 ≤ l.settings.maxCycles) :
    ∃ left s', (direct l.emptied).reconcile.run (Surroundings.handler k) s =
        (some (okUnless left), s') ∧
      (∀ r, r ∈ left ↔ ∃ id, s'.provider.inventory.objects.get? id = some r ∧
        s'.provider.inventory.Carries l.service.tag id) ∧
      (left = [] ↔ ∀ id r, s.provider.inventory.objects.get? id = some r →
        ¬ s.provider.inventory.Carries l.service.tag id → r.kind = .backend) ∧
      ∀ id r, s'.provider.inventory.objects.get? id = some r ↔
        s.provider.inventory.objects.get? id = some r ∧
          (s.provider.inventory.Carries l.service.tag id →
            s.provider.inventory.Pinned l.service.tag id) := by
  have hlittered : s.provider.Littered fresh l.service.tag l.loadBalancer :=
    (Memory.Littered.of_empty hnone hfresh hlb hfaults).succession hm
  have hnear : (start s.provider s.latest).Near fresh k s := ⟨hs, rfl, rfl⟩
  obtain ⟨_, s', w', hrun, hw', left, rfl, htorn⟩ :=
    hnear.exists_run (reconcile_meets_quiet hc hlittered)
  rw [hw'.memory] at htorn
  exact ⟨left, s', hrun, htorn.mem_left, htorn.left_eq_nil_iff hlittered, htorn.get?_iff⟩

end Reconciliation

namespace Sample

/-- A provider without objects. -/
def vacant : Memory := .ofInventory { Inventory.empty with loadBalancers := .ofList [⟨"lb-1"⟩] } 0

def brief : Layout := { layout with settings := { layout.settings with maxCycles := 1 } }

def serving (l : Layout) (m : Memory) : Schedule Memory Unit :=
  (Schedule.initial m .empty).spawn (Reconciliation.direct l).reconcile false

def steps : List Occurrence := List.replicate 30 (.move (.step 0))

def begun : Memory := ((serving brief vacant).pass .scattered steps).provider

def leaking : Schedule Memory Unit :=
  (serving layout (begun.configure [.failTag true])).pass .scattered steps

def leaked : Memory := leaking.provider.configure [.failTag false]

/-- The last reconciliation, of the emptied service. -/
def last : Option (Except Failure Unit) × Surroundings Memory :=
  (Reconciliation.direct layout.emptied).reconcile.run
    (Surroundings.handler
      ⟨Memory.provider .scattered, Memory.provider .scattered, fun _ => false⟩) (.initial leaked)

theorem succession_leaked : Succession .scattered layout.Kin OnlyTagging vacant leaked := by
  have hsteps (o : Occurrence) (ho : o ∈ steps) : o.Permitted OnlyTagging := by
    rw [List.eq_of_mem_replicate ho]
    trivial
  have hbegun : ((serving brief vacant).pass .scattered steps).Ends
      (.error (.notConverged 1)) none := by decide +kernel
  have hleaking : leaking.Ends (.error (.notTagged (.scattered 2)
      "transport: tag service unavailable")) none := by decide +kernel
  have hrun : Succession .scattered layout.Kin OnlyTagging vacant begun :=
    .run (l := brief) (s := serving brief vacant) .refl ⟨rfl, rfl⟩ ⟨false, rfl⟩ hsteps hbegun
  have hfailing : Succession .scattered layout.Kin OnlyTagging vacant
      (begun.configure [.failTag true]) := hrun.set trivial
  exact (Succession.run (l := layout) (s := serving layout (begun.configure [.failTag true]))
    hfailing ⟨rfl, rfl⟩ ⟨false, rfl⟩ hsteps hleaking).set trivial

end Sample

/-- The frontend has lost its tag. Nothing looks for it any more, and it keeps the backend there. -/
theorem leaked_frontend_pins_backend :
    (∀ id, Sample.vacant.inventory.objects.get? id = none) ∧
    Sample.layout.loadBalancer ∈ Sample.vacant.inventory.loadBalancers.keys ∧
    Sample.vacant.faults = .none ∧
    Succession .scattered Sample.layout.Kin OnlyTagging Sample.vacant Sample.leaked ∧
    Sample.leaked.faults = .none ∧ Sample.layout.emptied.settings.validate = .ok () ∧
    7 ≤ Sample.layout.emptied.settings.maxCycles ∧
    Sample.last.1 = some (.error (.notDestroyable [.scattered 1])) ∧
    (Sample.last.2.provider.inventory.objects.get? (.scattered 1)).isSome = true ∧
    Sample.last.2.provider.inventory.Carries Sample.layout.service.tag (.scattered 1) := by
  have hlb : Sample.layout.loadBalancer ∈ Sample.vacant.inventory.loadBalancers.keys := by
    decide +kernel
  have hfaults : Sample.leaked.faults = .none := by decide +kernel
  have hout : Sample.last.1 = some (.error (.notDestroyable [.scattered 1])) := by decide +kernel
  have hthere : (Sample.last.2.provider.inventory.objects.get? (.scattered 1)).isSome = true := by
    decide +kernel
  have hcarries : Sample.last.2.provider.inventory.Carries Sample.layout.service.tag
      (.scattered 1) := by decide +kernel
  exact ⟨fun _ => rfl, hlb, rfl, Sample.succession_leaked, hfaults, by decide +kernel,
    by decide +kernel, hout, hthere, hcarries⟩

theorem sample_tears_down_unless_pinned :
    (Surroundings.initial Sample.leaked).Calm .scattered
      ⟨Memory.provider .scattered, Memory.provider .scattered, fun _ => false⟩ ∧
    (∀ id, Sample.vacant.inventory.objects.get? id = none) ∧
    Sample.layout.loadBalancer ∈ Sample.vacant.inventory.loadBalancers.keys ∧
    Sample.vacant.Fresh .scattered ∧ Sample.vacant.faults.TagsOnly ∧
    Succession .scattered Sample.layout.Kin OnlyTagging Sample.vacant Sample.leaked ∧
    2 ≤ Sample.layout.settings.maxCycles ∧
    ∃ left s', Sample.last = (some (okUnless left), s') ∧
      ∀ r, r ∈ left ↔ ∃ id, s'.provider.inventory.objects.get? id = some r ∧
        s'.provider.inventory.Carries Sample.layout.service.tag id := by
  have hs : (Surroundings.initial Sample.leaked).Calm .scattered
      ⟨Memory.provider .scattered, Memory.provider .scattered, fun _ => false⟩ :=
    ⟨⟨rfl, rfl, fun _ => rfl⟩, rfl, rfl⟩
  have hnone (id : Identifier) : Sample.vacant.inventory.objects.get? id = none := rfl
  have hlb : Sample.layout.loadBalancer ∈ Sample.vacant.inventory.loadBalancers.keys := by
    decide +kernel
  have hfresh : Sample.vacant.Fresh .scattered := Memory.fresh_scattered (by decide +kernel)
  have hc : 2 ≤ Sample.layout.settings.maxCycles := by decide +kernel
  refine ⟨hs, hnone, hlb, hfresh, rfl, Sample.succession_leaked, hc, ?_⟩
  obtain ⟨left, s', hrun, hleft, -⟩ := Reconciliation.tears_down_unless_pinned hs hnone hlb hfresh
    (by rfl) Sample.succession_leaked hc
  exact ⟨left, s', hrun, hleft⟩

end BalancerSync
