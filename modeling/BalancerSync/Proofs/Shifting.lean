import BalancerSync.Proofs.Requests
import BalancerSync.Proofs.Success
import BalancerSync.Proofs.Tidy

namespace BalancerSync

open Program Engine World

variable {fresh : Nat → Identifier} {l : Layout} {m : Memory} {r q : Resource} {id : Identifier}
  {w w' w'' : World} {leaky : Prop} {tag : Tag} {α : Type}

/-- The resource is wanted, and nothing that belongs to the load balancer is like it. -/
def Layout.Lacks (l : Layout) (m : Memory) (r : Resource) : Prop :=
  l.Wants (l.Owns m) r ∧ ∀ id, ¬ Holding.Has (l.Owns m) r id

namespace World

structure Glanced (w w' : World) : Prop where
  resembles : w.inventory.Resembles w'.inventory
  settled : ∀ id r, w.inventory.objects.get? id = some r → r.status ≠ .progressing →
    w'.inventory.objects.get? id = some r
  pending : w'.pending = w.pending
  issued : w'.memory.issued = w.memory.issued

def withFaults (w : World) (f : Faults) : World := { w with memory := { w.memory with faults := f } }

namespace Glanced

theorem of_inventory_eq (hv : w'.inventory = w.inventory) (hp : w'.pending = w.pending)
    (hi : w'.memory.issued = w.memory.issued) : w.Glanced w' where
  resembles := by
    rw [hv]
    exact .refl _
  settled id r hr _ := hv ▸ hr
  pending := hp
  issued := hi

theorem refl (w : World) : w.Glanced w := .of_inventory_eq rfl rfl rfl

theorem trans (h : w.Glanced w') (h' : w'.Glanced w'') : w.Glanced w'' where
  resembles := h.resembles.trans h'.resembles
  settled id r hr hs := h'.settled id r (h.settled id r hr hs) hs
  pending := h'.pending.trans h.pending
  issued := h'.issued.trans h.issued

theorem withFaults (h : w.Glanced w') (f : Faults) : w.Glanced (w'.withFaults f) :=
  h.trans (.of_inventory_eq rfl rfl rfl)

theorem has_iff (h : w.Glanced w') : Holding.Has (l.Owns w'.memory) r id ↔
    Holding.Has (l.Owns w.memory) r id := by
  constructor
  · rintro ⟨q, hq, rfl⟩
    obtain ⟨p, hp, hb, -⟩ := h.resembles.symm.exists_owns hq
    exact ⟨p, hp, hb⟩
  · rintro ⟨q, hq, rfl⟩
    obtain ⟨p, hp, hb, -⟩ := h.resembles.exists_owns hq
    exact ⟨p, hp, hb⟩

end Glanced

theorem glanced_answer {c : Call} (hc : c.Looks) : w.Glanced (w.answer fresh c).2 := by
  cases c with
  | get kind id =>
    have hgot := w.memory.got kind id
    rw [answer_get]
    generalize w.memory.get kind id = out at hgot
    refine ⟨hgot.resembles, fun j r hr hs => ?_, rfl, ?_⟩
    · by_cases hj : id = j
      · subst hj
        cases hgot with
        | missing | settled | counted => exact hr
        | deployed hr' _ hp =>
          cases hr.symm.trans hr'
          exact absurd hp hs
      · exact (hgot.get?_of_ne hj).trans hr
    · cases hgot <;> rfl
  | list tag =>
    have hlisted := w.memory.wasListed tag
    rw [answer_list]
    generalize w.memory.list tag = out at hlisted
    cases hlisted <;> exact .of_inventory_eq rfl rfl rfl
  | create r | destroy kind id | tag id tag => exact hc.elim

theorem Acts.glanced {cancelable : Prop} {q : Request} {reply : q.Reply} (hq : q.Looks)
    (h : Acts fresh cancelable q w reply w') : w.Glanced w' := by
  cases h.effect with
  | none => exact .refl _
  | call c | watch c => exact glanced_answer hq
  | remember latest => exact .of_inventory_eq rfl rfl rfl
  | enter | exit => exact hq.elim

theorem Acts.faultsKept {cancelable : Prop} {q : Request} {reply : q.Reply}
    (h : Acts fresh cancelable q w reply w') : w.memory.FaultsKept w'.memory := by
  rcases h.memory with heq | ⟨c, -, heq⟩
  · exact .of_eq (by rw [heq])
  · exact heq ▸ w.memory.faultsKept_answer fresh c

/-- The request is due: what is created is wanted and missing, and what has been created is tagged
before anything else is done. -/
def Due (l : Layout) : Request → World → Prop
  | .call (.create r), w => w.pending = none ∧ l.Lacks w.memory r
  | .call (.destroy _ _), w => w.pending = none
  | .call (.tag id tag), w => w.pending = some id ∧ tag = l.service.tag
  | .watch c, _ => c.Looks
  | .arrive _, _ | .release _, _ | .leave _, _ => False
  | _, _ => True

def Untagged : (q : Request) → q.Reply → Prop
  | .call (.tag _ _), .error _ => True
  | _, _ => False

/-- Surroundings in which the faults of the provider change at any time. Whether an object can stay
without its tag is up to them. -/
def shifting (fresh : Nat → Identifier) (l : Layout) (leaky : Prop) : Environment World where
  rely w w' := ∃ f, w' = w.withFaults f
  allows := Due l
  replies q w reply w' := Acts fresh True q w reply w' ∧ (Untagged q reply → leaky)

theorem shifting_trans (w w' w'' : World) (h : (shifting fresh l leaky).rely w w')
    (h' : (shifting fresh l leaky).rely w' w'') : (shifting fresh l leaky).rely w w'' := by
  obtain ⟨f, rfl⟩ := h
  obtain ⟨f', rfl⟩ := h'
  exact ⟨f', rfl⟩

theorem Glanced.of_rely (h : (shifting fresh l leaky).rely w w') : w.Glanced w' := by
  obtain ⟨f, rfl⟩ := h
  exact (Glanced.refl w).withFaults f

theorem due_of_looks {q : Request} (hq : q.Looks) : Due l q w := by
  cases q with
  | call c =>
    cases c with
    | get | list => trivial
    | create | destroy | tag => exact hq.elim
  | watch c => exact hq
  | isCanceled | sleep | draw | latest | remember => trivial
  | enter | exit | arrive | release | leave => exact hq.elim

inductive Dealt (fresh : Nat → Identifier) (l : Layout) (w : World) : World → Prop
  | looked {w' : World} (h : w.Glanced w') : Dealt fresh l w w'
  | created {r : Resource} (hp : w.pending = none) (hr : l.Lacks w.memory r)
      (hres : w.inventory.Resolves r) : Dealt fresh l w { w with
        memory := w.memory.created fresh r
        pending := some (fresh (w.memory.issued + 1)) }
  | tagged {id : Identifier} (hp : w.pending = some id) : Dealt fresh l w { w with
      memory := w.memory.tagged id l.service.tag
      pending := none }
  | destroyed {id : Identifier} (hp : w.pending = none)
      (href : ∀ i p, w.inventory.objects.get? i = some p → id ∉ p.references) :
      Dealt fresh l w { w with memory := w.memory.destroyed id }

theorem dealt_of_call {c : Call} (hdue : Due l (.call c) w) :
    Dealt fresh l w (w.answer fresh c).2 := by
  cases c with
  | get kind id => exact .looked (glanced_answer trivial)
  | list tag => exact .looked (glanced_answer trivial)
  | create r =>
    have hcreated := w.memory.wasCreated fresh r
    rw [answer_create]
    generalize w.memory.create fresh r = out at hcreated
    cases hcreated with
    | refused refusal h => exact .looked (.refl w)
    | created hres => exact .created hdue.1 hdue.2 hres
  | destroy kind id =>
    have hdestroyed := w.memory.wasDestroyed kind id
    rw [answer_destroy]
    generalize w.memory.destroy kind id = out at hdestroyed
    cases hdestroyed with
    | refused refusal m' hv hj hi h =>
      exact .looked (.of_inventory_eq hv rfl hi)
    | destroyed hk href => exact .destroyed hdue href
  | tag id tag =>
    obtain ⟨hp, rfl⟩ := hdue
    have htagged := w.memory.wasTagged id l.service.tag
    rw [answer_tag]
    generalize w.memory.tag id l.service.tag = out at htagged
    cases htagged with
    | refused refusal h => exact .looked (.refl w)
    | tagged => exact .tagged hp

theorem dealt_of_due {cancelable : Prop} {q : Request} {reply : q.Reply} (hdue : Due l q w)
    (hacts : Acts fresh cancelable q w reply w') : Dealt fresh l w w' := by
  cases q with
  | call c =>
    obtain ⟨-, rfl⟩ := Prod.mk.inj hacts
    exact dealt_of_call hdue
  | watch c => exact .looked (Acts.glanced (q := .watch c) hdue hacts)
  | isCanceled => exact .looked (Acts.glanced (q := .isCanceled) trivial hacts)
  | sleep d => exact .looked (Acts.glanced (q := .sleep d) trivial hacts)
  | draw => exact .looked (Acts.glanced (q := .draw) trivial hacts)
  | latest => exact .looked (Acts.glanced (q := .latest) trivial hacts)
  | remember latest => exact .looked (Acts.glanced (q := .remember latest) trivial hacts)
  | enter | exit =>
    cases hacts
    exact .looked (.of_inventory_eq rfl rfl rfl)
  | arrive | release | leave => exact hdue.elim

theorem looks_meets {p : Program α} (h : p.Makes Request.Looks) :
    p.Meets (shifting fresh l leaky) (fun _ w' => w.Glanced w') w := by
  refine h.meets (I := fun w' => w.Glanced w') (.refl w) ?_ (fun q w' hq _ => due_of_looks hq) ?_
  · exact fun w₁ w₂ hw₁ hw₂ => hw₁.trans (.of_rely hw₂)
  · intro q w₁ reply w₂ hq hw₁ hreply
    exact hw₁.trans (hreply.1.glanced hq)

end World

namespace Engine

/-- The objects of a listing are found as they are in the end. -/
theorem fetchListed_meets_shifting (entries : List (Identifier × Kind))
    (hn : (entries.map (·.1)).Nodup)
    (hk : ∀ e ∈ entries, w.inventory.kindOf? e.1 = some e.2) :
    (fetchListed (entries.map fun e => ⟨e.1, e.2.typeIdentifier⟩)).Meets (shifting fresh l leaky)
      (Returning fun rs w' =>
        List.Forall₂ (fun id r => w'.inventory.objects.get? id = some r) (entries.map (·.1)) rs ∧
        ∀ j, j ∉ entries.map (·.1) → w'.inventory.objects.get? j = w.inventory.objects.get? j) w := by
  induction entries generalizing w with
  | nil => exact ⟨.nil, fun _ _ => rfl⟩
  | cons e entries ih =>
    obtain ⟨id, kind⟩ := e
    have hn := List.nodup_cons.1 hn
    have hkind := hk (id, kind) (by simp)
    simp only [List.map_cons, fetchListed, Kind.ofTypeIdentifier?_typeIdentifier]
    rintro _ ⟨f, rfl⟩
    refine ⟨trivial, ?_⟩
    rintro reply w₁ ⟨⟨-, rfl, rfl⟩ | ⟨a, rfl, hget⟩, -⟩
    · trivial
    · rw [answer_get] at hget
      obtain ⟨rfl, rfl⟩ := Prod.mk.inj hget
      have hgot := (w.withFaults f).memory.got kind id
      obtain ⟨r, hr, hget, -⟩ := hgot.get? hkind
      rw [hr]
      have hk' : ∀ e ∈ entries,
          ((w.withFaults f).memory.get kind id).2.inventory.kindOf? e.1 = some e.2 := by
        intro e he
        have hne : id ≠ e.1 := fun h => hn.1 (List.mem_map.2 ⟨e, he, h.symm⟩)
        rw [Inventory.kindOf?, hgot.get?_of_ne hne]
        exact hk e (List.mem_cons_of_mem _ he)
      refine (ih (w := { w.withFaults f with memory := ((w.withFaults f).memory.get kind id).2 })
        hn.2 hk').bind ?_ fun _ _ _ => trivial
      rintro rs w₂ ⟨hrs, hother⟩
      refine ⟨.cons ((hother id hn.1).trans hget) hrs, fun j hj => ?_⟩
      rw [hother j fun h => hj (List.mem_cons_of_mem _ h)]
      exact hgot.get?_of_ne fun h => hj (h ▸ List.mem_cons_self)

/-- A snapshot is the one of what is there in the end. -/
theorem fetch_meets_shifting (w : World) : (fetch tag).Meets (shifting fresh l leaky)
    (Returning fun s w' => s = w'.inventory.snapshot tag) w := by
  refine (looks_meets (.checkpoint trivial)).bind (fun _ w₁ _ => ?_) fun _ _ _ => trivial
  refine Meets.request fun w₂ _ => ⟨trivial, ?_⟩
  rintro reply w₃ ⟨⟨-, rfl, rfl⟩ | ⟨a, rfl, hlist⟩, -⟩
  · trivial
  · rw [answer_list] at hlist
    obtain ⟨rfl, rfl⟩ := Prod.mk.inj hlist
    have hout := w₂.memory.wasListed tag
    generalize w₂.memory.list tag = out at hout
    cases hout with
    | failed hf => trivial
    | nothing ht =>
      change Snapshot.empty = Snapshot.ofList ((w₂.inventory.tagged tag).map (·.2))
      rw [ht]
      rfl
    | listed =>
      have hids := map_fst_listed w₂.inventory tag
      have hfetch := @fetchListed_meets_shifting fresh l { w₂ with memory := w₂.memory.listing } leaky
        ((w₂.inventory.tagged tag).map fun e => (e.1, e.2.kind))
        (hids ▸ w₂.inventory.tagged_ids_nodup tag) (by
          intro e he
          obtain ⟨⟨id, r⟩, hr, rfl⟩ := List.mem_map.1 he
          exact Inventory.kindOf?_eq_some_iff.2 ⟨r, (Inventory.mem_tagged_iff.1 hr).2, rfl⟩)
      rw [hids, ← map_listed_eq] at hfetch
      refine (hfetch.and (looks_meets (fetchListed_looks _))).bind ?_ fun _ _ _ => trivial
      rintro rs w₄ ⟨⟨hrs, -⟩, hw₄⟩
      exact congrArg Snapshot.ofList (map_tagged_eq hw₄.resembles.tags
        (fun id hid => hw₄.resembles.get?_eq_none_iff.2 hid) hrs).symm

end Engine

namespace World

/-- Every object is under its own identifier, new identifiers are new, and nothing is waiting for its
tag. -/
structure Poised (fresh : Nat → Identifier) (w : World) : Prop where
  stored : w.inventory.Stored
  fresh : w.memory.Fresh fresh
  pending : w.pending = none

theorem Glanced.poised (h : w.Glanced w') (hw : w.Poised fresh) : w'.Poised fresh where
  stored := h.resembles.stored hw.stored
  fresh := hw.fresh.of_mentions h.issued fun _ => h.resembles.mentions
  pending := h.pending.trans hw.pending

theorem Glanced.lacks (h : w.Glanced w') (hr : l.Lacks w.memory r) : l.Lacks w'.memory r :=
  ⟨hr.1.mono fun _ _ => h.has_iff.2, fun id hid => hr.2 id (h.has_iff.1 hid)⟩

def Tagged (leaky : Prop) (w : World) : Prop := w.pending = none ∨ leaky

end World

/-- No tagged object is like what is missing, because it would belong to the load balancer. -/
theorem Layout.Lacks.bare_ne (h : l.Lacks m r) (hq : m.inventory.objects.get? id = some q)
    (hc : m.inventory.Carries l.service.tag id) : q.bare ≠ r := by
  intro hb
  have hbelongs := h.1.belongsTo
  rw [← hb, Inventory.belongsTo_bare] at hbelongs
  exact h.2 id ⟨q, ⟨hq, hc, hbelongs⟩, hb⟩

/-- When something has been created and tagged, all that was missing is missing still, but for
itself. -/
theorem Layout.Lacks.created (hf : m.Fresh fresh) (hq : l.Lacks m q) (hr : r.bare = r) (hne : q ≠ r) :
    l.Lacks ((m.created fresh r).tagged (fresh (m.issued + 1)) l.service.tag) q := by
  have hid := hf.unmentioned _ (Nat.lt_succ_self _)
  refine ⟨hq.1.mono ?_, ?_⟩
  · rintro t j ⟨p, hp, rfl⟩
    have hnone : m.inventory.objects.get? (fresh (m.issued + 1)) = none :=
      OrderedMap.get?_eq_none_iff.2 fun hk => hid (.inl hk)
    exact ⟨p, (hp.put hnone).of_carries rfl fun j hj => Inventory.carries_attach.2 (.inr hj), rfl⟩
  · rintro j ⟨p, ⟨hp, hc, -⟩, hpq⟩
    rw [Memory.tagged, Memory.created, Inventory.get?_attach, Inventory.get?_put] at hp
    split at hp
    · cases hp
      rw [Resource.bare_withStatus, Resource.bare_withIdentifier, hr] at hpq
      exact hne hpq.symm
    next hj =>
      have hc : m.inventory.Carries l.service.tag j :=
        (Inventory.carries_attach.1 hc).resolve_left fun h => hj h.2.symm
      exact hq.bare_ne hp hc hpq

namespace Engine

def CreatedShifting (fresh : Nat → Identifier) (l : Layout) (leaky : Prop) (w : World)
    (rs : List Resource) (out : Except Failure α) (w' : World) : Prop :=
  w'.Tagged leaky ∧ Returning (fun _ w' => w'.Poised fresh ∧
    ∀ q, l.Lacks w.memory q → q ∉ rs → l.Lacks w'.memory q) out w'

theorem createTagged_meets_shifting (hw : w.Poised fresh) (hr : l.Lacks w.memory r) :
    (createTagged l.service.tag r).Meets (shifting fresh l leaky)
      (CreatedShifting fresh l leaky w [r]) w := by
  refine Meets.request fun w₁ hw₁ => ⟨trivial, ?_⟩
  rintro - _ ⟨rfl, -⟩
  refine Meets.request fun w₃ hw₃ => ?_
  have hinside : w₁.Glanced { w₁ with inside := true } := .of_inventory_eq rfl rfl rfl
  have hglanced : w.Glanced w₃ := (Glanced.of_rely hw₁).trans (hinside.trans (.of_rely hw₃))
  have hpoised := hglanced.poised hw
  refine ⟨⟨hpoised.pending, hglanced.lacks hr⟩, ?_⟩
  rintro reply w₄ ⟨hcall, -⟩
  rw [Acts, answer_create] at hcall
  have hcreated := w₃.memory.wasCreated fresh r
  generalize w₃.memory.create fresh r = out at hcall hcreated
  obtain ⟨rfl, rfl⟩ := Prod.mk.inj hcall
  cases hcreated with
  | refused refusal h =>
    rintro _ ⟨f, rfl⟩
    refine ⟨trivial, ?_⟩
    rintro - _ ⟨rfl, -⟩
    exact ⟨.inl hpoised.pending, trivial⟩
  | created hres =>
    set id := fresh (w₃.memory.issued + 1)
    rintro _ ⟨f, rfl⟩
    refine ⟨⟨rfl, rfl⟩, ?_⟩
    rintro reply w₅ ⟨hcall, hleaky⟩
    rw [Acts, answer_tag] at hcall
    set m := (World.withFaults _ f).memory with hm
    have htagged := m.wasTagged id l.service.tag
    generalize m.tag id l.service.tag = out at hcall htagged
    obtain ⟨rfl, rfl⟩ := Prod.mk.inj hcall
    rintro _ ⟨f', rfl⟩
    refine ⟨trivial, ?_⟩
    rintro - _ ⟨rfl, -⟩
    cases htagged with
    | refused refusal h => exact ⟨.inr (hleaky trivial), trivial⟩
    | tagged =>
      refine ⟨.inl rfl, ⟨?_, ?_, rfl⟩, fun q hq hne => ?_⟩
      · exact hpoised.stored.put (by simp)
      · exact (hpoised.fresh.created hres).of_mentions rfl fun j =>
          Inventory.mentions_of_attach (Inventory.get?_put.trans (if_pos rfl))
      · refine (hglanced.lacks hq).created hpoised.fresh hr.1.bare fun h => hne ?_
        exact h ▸ List.mem_singleton_self _

/-- Missing resources are created one by one. None of them is like another one. -/
theorem createEach_meets_shifting (rs : List Resource) (hw : w.Poised fresh) (hn : rs.Nodup)
    (hrs : ∀ r ∈ rs, l.Lacks w.memory r) :
    (createEach l.service.tag rs).Meets (shifting fresh l leaky)
      (CreatedShifting fresh l leaky w rs) w := by
  induction rs generalizing w with
  | nil => exact ⟨.inl hw.pending, hw, fun q hq _ => hq⟩
  | cons r rs ih =>
    obtain ⟨hr, hn⟩ := List.nodup_cons.1 hn
    refine (looks_meets (.checkpoint trivial)).bind (fun _ w₁ hw₁ => ?_) fun _ w₁ hw₁ =>
      ⟨.inl (hw₁.poised hw).pending, trivial⟩
    refine (createTagged_meets_shifting (hw₁.poised hw) (hw₁.lacks (hrs r (by simp)))).bind ?_
      fun _ _ h => h
    rintro created w₂ ⟨-, hw₂, hlacks⟩
    have hkeep (q : Resource) (hq : l.Lacks w.memory q) (hne : q ≠ r) : l.Lacks w₂.memory q :=
      hlacks q (hw₁.lacks hq) fun h => hne (List.mem_singleton.1 h)
    refine (ih hw₂ hn fun q hq => hkeep q (hrs q (List.mem_cons_of_mem _ hq)) ?_).bind ?_
      fun _ _ h => h
    · rintro rfl
      exact hr hq
    · rintro rest w₃ ⟨htagged, hw₃, hlacks₃⟩
      refine ⟨htagged, hw₃, fun q hq hne => hlacks₃ q (hkeep q hq ?_) ?_⟩
      · rintro rfl
        exact hne List.mem_cons_self
      · exact fun h => hne (List.mem_cons_of_mem _ h)

def Changed (fresh : Nat → Identifier) (leaky : Prop) (out : Except Failure α) (w : World) : Prop :=
  w.Tagged leaky ∧ Returning (fun _ w => w.Poised fresh) out w

theorem createAll_meets_shifting (b : Backoff) (rs : List Resource) (hw : w.Poised fresh)
    (hn : rs.Nodup) (hrs : ∀ r ∈ rs, l.Lacks w.memory r) :
    (createAll l.service.tag b rs).Meets (shifting fresh l leaky) (Changed fresh leaky) w := by
  refine (createEach_meets_shifting _ hw (byRank_nodup (by decide) hn) fun r hr =>
    hrs r (mem_byRank_iff.1 hr).2).bind ?_ fun _ _ h => ⟨h.1, trivial⟩
  rintro created w₁ ⟨-, hw₁, -⟩
  refine (looks_meets (settle_looks _ _)).mono fun out w₂ hw₂ => ?_
  have hw₂ := hw₂.poised hw₁
  exact ⟨.inl hw₂.pending, by cases out <;> first | exact hw₂ | trivial⟩

/-- Whatever is destroyed, new identifiers are still new. -/
theorem destroyAll_meets_shifting (rs : List Resource) (hw : w.Poised fresh) :
    (destroyAll rs).Meets (shifting fresh l leaky) (fun _ w' => w'.Poised fresh) w := by
  refine (destroyAll_destroys rs).meets (I := fun w => World.Poised fresh w) hw ?_ ?_ ?_
  · exact fun w₁ w₂ hw₁ h => (Glanced.of_rely h).poised hw₁
  · intro q w₁ hq hw₁
    cases q with
    | call c =>
      cases c with
      | destroy kind id => exact hw₁.pending
      | get | list | create | tag => exact hq.elim
    | isCanceled => trivial
    | watch | sleep | draw | latest | remember | enter | exit | arrive | release | leave =>
      exact hq.elim
  · rintro q w₁ reply w₂ hq hw₁ ⟨hacts, -⟩
    cases q with
    | call c =>
      cases c with
      | destroy kind id =>
        rw [Acts, answer_destroy] at hacts
        have hdestroyed := w₁.memory.wasDestroyed kind id
        generalize w₁.memory.destroy kind id = out at hacts hdestroyed
        obtain ⟨rfl, rfl⟩ := Prod.mk.inj hacts
        cases hdestroyed with
        | refused refusal m' hv hj hi h =>
          exact Glanced.poised (w := w₁) (.of_inventory_eq hv rfl hi) hw₁
        | destroyed hk href =>
          exact ⟨hw₁.stored.remove, hw₁.fresh.of_mentions rfl fun _ => Inventory.mentions_of_remove,
            hw₁.pending⟩
      | get | list | create | tag => exact hq.elim
    | isCanceled =>
      obtain ⟨-, rfl⟩ := hacts
      exact hw₁
    | watch | sleep | draw | latest | remember | enter | exit | arrive | release | leave =>
      exact hq.elim

end Engine

namespace Reconciliation

/-- What comes of a check: the plan is made from what is there. -/
theorem check_meets_shifting (hw : w.Poised fresh) :
    (direct l).check.Meets (shifting fresh l leaky) (fun out w' => w'.Poised fresh ∧
      Returning (fun p w' => l.plan (w'.shareSnapshot l) = .ok p) out w') w := by
  have hsnapshot : ((direct l).source.snapshot l.loadBalancer).Meets (shifting fresh l leaky)
      (fun out w' => w'.Poised fresh ∧ Returning (fun s w' => s = w'.shareSnapshot l) out w') w := by
    refine ((fetch_meets_shifting w).and (looks_meets (fetch_looks _))).bind ?_ ?_
    · rintro s w₁ ⟨rfl, hw₁⟩
      exact ⟨hw₁.poised hw, Inventory.narrowTo_snapshot (hw₁.poised hw).stored⟩
    · exact fun _ _ h => ⟨h.2.poised hw, trivial⟩
  refine hsnapshot.bind ?_ fun _ _ h => ⟨h.1, trivial⟩
  rintro s w₁ ⟨hw₁, rfl⟩
  rintro _ ⟨f, rfl⟩
  refine ⟨trivial, ?_⟩
  rintro - _ ⟨rfl, -⟩
  refine Meets.ofExcept ⟨⟨hw₁.stored, hw₁.fresh.of_mentions rfl fun _ => id, hw₁.pending⟩, ?_⟩
  change Returning _ (l.plan (w₁.shareSnapshot l)) _
  cases hp : l.plan (w₁.shareSnapshot l) with
  | ok p => exact hp
  | error failure => trivial

theorem lacks_of_plan {p : Plan} (hw : w.inventory.Stored) (hp : l.plan (w.shareSnapshot l) = .ok p)
    (hr : r ∈ p.create) : l.Lacks w.memory r := by
  have hs := w.inventory.shareSnapshot_classified l.service.tag l.loadBalancer hw
  have hwithin : (w.shareSnapshot l).holding.Within (l.Owns w.memory) := by
    rintro r id ⟨q, hq, hb⟩
    exact ⟨q, (Inventory.holding_shareSnapshot hw).1 hq, hb⟩
  refine ⟨(Layout.wants_of_plan hs hp hr).mono hwithin, ?_⟩
  rintro id ⟨q, hq, hb⟩
  exact (Layout.missing_of_plan hs hp).2 r hr q ((Inventory.holding_shareSnapshot hw).2 hq).1 hb

theorem act_meets_shifting {p : Plan} (hw : w.Poised fresh)
    (hp : l.plan (w.shareSnapshot l) = .ok p) :
    ((direct l).act p).Meets (shifting fresh l leaky) (Changed fresh leaky) w := by
  rw [act]
  split
  · have hs := w.inventory.shareSnapshot_classified l.service.tag l.loadBalancer hw.stored
    exact createAll_meets_shifting _ _ hw (Layout.missing_of_plan hs hp).1 fun r hr =>
      lacks_of_plan hw.stored hp hr
  · refine (destroyAll_meets_shifting _ hw).mono fun out w₁ hw₁ => ⟨.inl hw₁.pending, ?_⟩
    cases out <;> first | exact hw₁ | trivial

theorem converge_meets_shifting (cycles : Nat) (hw : w.Poised fresh) :
    ((direct l).converge cycles).Meets (shifting fresh l leaky) (fun _ w' => w'.Tagged leaky) w := by
  induction cycles generalizing w with
  | zero => exact .inl hw.pending
  | succ cycles ih =>
    rw [converge_succ]
    refine (looks_meets (.checkpoint trivial)).bind (fun _ w₁ hw₁ => ?_) fun _ w₁ hw₁ =>
      .inl (hw₁.poised hw).pending
    refine (check_meets_shifting (hw₁.poised hw)).attempt fun out w₂ hout => ?_
    obtain ⟨hw₂, hplan⟩ := hout
    split
    · refine (looks_meets progressing_looks).bind (fun rs w₃ hw₃ => ?_)
        fun _ w₃ hw₃ => .inl (hw₃.poised hw₂).pending
      refine (looks_meets (settle_looks _ _)).bind (fun _ w₄ hw₄ => ?_) fun _ w₄ hw₄ =>
        .inl ((hw₃.trans hw₄).poised hw₂).pending
      exact ih ((hw₃.trans hw₄).poised hw₂)
    · exact .inl hw₂.pending
    next p =>
      split
      · exact .inl hw₂.pending
      · rintro _ ⟨f, rfl⟩
        refine ⟨trivial, ?_⟩
        rintro - _ ⟨rfl, -⟩
        have hw₃ : World.Poised fresh { w₂.withFaults f with latest := none } :=
          ⟨hw₂.stored, hw₂.fresh.of_mentions rfl fun _ => id, hw₂.pending⟩
        exact (act_meets_shifting hw₃ hplan).bind (fun _ _ h => ih h.2) fun _ _ h => h.1

/-- However a reconciliation ends: unless something could not be tagged, nothing is waiting for its
tag. -/
theorem reconcile_meets_shifting (hw : w.Poised fresh) :
    (direct l).reconcile.Meets (shifting fresh l leaky) (fun _ w' => w'.Tagged leaky) w := by
  refine (converge_meets_shifting _ hw).attempt fun out w' hout => ?_
  cases out <;> exact hout

end Reconciliation

end BalancerSync
