import BalancerSync.Engine.Destruction
import BalancerSync.Proofs.Stages

namespace BalancerSync

open Program Engine World

variable {fresh : Nat → Identifier} {l : Layout} {id : Identifier} {r : Resource} {w w' : World}
  {S T : Holding} {queue : List Resource}

/-- An object that has just been created, and is deployed or will be when it is looked at. -/
def Resource.IsNew (r q : Resource) : Prop :=
  q.bare = r ∧ (q.status = .ready false ∨ q.status = .progressing)

theorem Memory.Tidy.exists_isNew {m : Memory} {steps : Nat} {tag : Tag} {pending : Option Identifier}
    {S : Holding} (h : m.Tidy fresh steps tag pending) (hr : l.Wants S r) :
    ∃ q, (m.created fresh r).inventory.objects.get? (fresh (m.issued + 1)) = some q ∧ r.IsNew q := by
  refine ⟨_, Inventory.get?_put.trans (if_pos rfl), by simp [hr.bare], ?_⟩
  rw [Resource.status_withStatus, h.harmless.finalStatus]
  split
  · exact .inl rfl
  · exact .inr rfl

/-- What is tagged is added to what the load balancer has. -/
theorem Layout.owns_tagged_iff {m : Memory} {q p : Resource} {j : Identifier}
    (href : ∀ i p, m.inventory.objects.get? i = some p → id ∉ p.references)
    (hq : m.inventory.objects.get? id = some q)
    (hb : m.inventory.belongsTo l.service.tag l.loadBalancer q = true) :
    l.Owns (m.tagged id l.service.tag) j p ↔ Holding.adding (l.Owns m) [(id, q)] j p := by
  refine (Inventory.owns_attach_iff href).trans (or_congr_right ?_)
  rw [List.mem_singleton, Prod.mk.injEq]
  constructor
  · rintro ⟨rfl, hp, -⟩
    exact ⟨rfl, Option.some.inj (hp.symm.trans hq)⟩
  · rintro ⟨rfl, rfl⟩
    exact ⟨rfl, hq, hb⟩

namespace Engine

/-- The object that has just been created is tagged, whatever other programs do in between. -/
theorem gentle_tag {α : Type} {post : Except Failure α → World → Prop}
    {f : Except Refusal Unit → Program α} (hw : Inside fresh l w) (hp : w.pending = none)
    (hr : l.Wants (l.Owns w.memory) r)
    (h : ∀ w' q, Steady fresh l { w with inside := false } w' → r.IsNew q →
      ((Holding.adding (l.Owns w.memory) [(fresh (w.memory.issued + 1), q)]).Ripens
        (l.Owns w'.memory)) → (f (.ok ())).Meets (gentle fresh l) post w') :
    (request (.call (.tag (fresh (w.memory.issued + 1)) l.service.tag)) >>= fun tagged =>
      request .exit >>= fun _ => f tagged).Meets (gentle fresh l) post { w with
        memory := w.memory.created fresh r
        pending := some (fresh (w.memory.issued + 1)) } := by
  obtain ⟨q, hq, hnew⟩ := hw.sound.tidy.exists_isNew hr
  refine gentle_call fun w₁ ha₁ => ?_
  obtain ⟨hp₁, hget⟩ := ha₁.mine hw.inside
  have hq₁ : w₁.inventory.objects.get? (fresh (w.memory.issued + 1)) = some q := (hget _ rfl).trans hq
  have hp₁ : w₁.pending = some (fresh (w.memory.issued + 1)) := hp₁
  have hw₁ := ha₁.inside (((Does.created hw hp hr).steady hw.sound).inside hw)
  have hripens₁ : Holding.Ripens (l.Owns w.memory) (l.Owns w₁.memory) :=
    (Holding.Ripens.of_iff fun _ _ => Inventory.owns_put_iff (hw.sound.tidy.not_carries _)).trans
      ha₁.ripens
  set id := fresh (w.memory.issued + 1)
  have hb : w₁.inventory.belongsTo l.service.tag l.loadBalancer q = true := by
    rw [← Inventory.belongsTo_bare, hnew.1]
    exact (hr.ripens hripens₁ (Layout.owns_single _)).belongsTo
  have htagged (j : Identifier) (p : Resource) := Layout.owns_tagged_iff (l := l) (j := j) (p := p)
    (hw₁.sound.tidy.loose id hp₁).2.2 hq₁ hb
  have htag := (hp₁ ▸ hw₁.sound.tidy).tag_eq
  refine ⟨⟨hw₁, hp₁, rfl⟩, ?_⟩
  rw [answer_tag, htag]
  intro w₃ ha₃
  have hw₃ := ha₃.inside (((Does.tagged hw₁ hp₁).steady hw₁.sound).inside hw₁)
  have hp₃ : w₃.pending = none := (ha₃.mine hw₁.inside).1
  refine ⟨⟨hw₃, hp₃⟩, ?_⟩
  rintro - w₄ rfl
  refine h _ q ⟨?_, hw₃.sound.turn hp₃ false⟩ hnew ?_
  · have hstance : w₃.toStance = w.toStance := ha₃.stance.trans ha₁.stance
    change { w₃.toStance with inside := false } = { w.toStance with inside := false }
    rw [hstance]
  · exact (hripens₁.adding _).trans ((Holding.Ripens.of_iff htagged).trans ha₃.ripens)

theorem createTagged_meets_gentle (hw : Resting fresh l w) (hr : l.Wants (l.Owns w.memory) r) :
    (createTagged l.service.tag r).Meets (gentle fresh l) (fun out w' => Steady fresh l w w' ∧
      ∃ id q, out = .ok (r.withIdentifier id) ∧ r.IsNew q ∧
        (Holding.adding (l.Owns w.memory) [(id, q)]).Ripens (l.Owns w'.memory)) w := by
  refine fun w₁ ha₁ => ⟨ha₁.resting hw, ?_⟩
  rintro - w₂ ⟨hp, rfl⟩
  have hw₁ := ha₁.resting hw
  have hw₂ := hw₁.enter
  refine gentle_call fun w₃ ha₃ => ?_
  have hw₃ := ha₃.inside hw₂
  have hp₃ : w₃.pending = none := (ha₃.mine rfl).1.trans hp
  have hripens₃ : Holding.Ripens (l.Owns w.memory) (l.Owns w₃.memory) := ha₁.ripens.trans ha₃.ripens
  have hr₃ := hr.ripens hripens₃ (Layout.owns_single _)
  refine ⟨⟨hw₃, hp₃, hr₃⟩, ?_⟩
  rw [answer_create, hw₃.sound.tidy.create_eq (hr₃.resolves ha₃.sound.registered)]
  dsimp only
  refine gentle_tag hw₃ hp₃ hr₃ fun w₄ q hsteady hnew hripens => ?_
  refine ⟨⟨?_, hsteady.sound⟩, _, q, rfl, hnew, (hripens₃.adding _).trans hripens⟩
  rw [hsteady.stance]
  change { w₃.toStance with inside := false } = w.toStance
  rw [ha₃.stance, ← hw.outside, ← ha₁.stance]

/-- All resources of a list are created, each under an identifier of its own. -/
theorem createEach_meets_gentle (rs : List Resource) (hw : Resting fresh l w)
    (hrs : ∀ r ∈ rs, l.Wants (l.Owns w.memory) r) :
    (createEach l.service.tag rs).Meets (gentle fresh l) (fun out w' => Steady fresh l w w' ∧
      ∃ es : List (Identifier × Resource), (es.map fun e => e.2.bare) = rs ∧
        out = .ok (es.map fun e => e.2.bare.withIdentifier e.1) ∧
        (∀ e ∈ es, e.2.bare.IsNew e.2) ∧
        (Holding.adding (l.Owns w.memory) es).Ripens (l.Owns w'.memory)) w := by
  induction rs generalizing w with
  | nil =>
    refine ⟨.refl hw.sound, [], rfl, rfl, nofun, ?_⟩
    rw [Holding.adding_nil]
    exact .refl _
  | cons r rs ih =>
    refine gentle_checkpoint fun w₁ ha₁ => ?_
    have hw₁ := ha₁.resting hw
    have hr₁ := (hrs r List.mem_cons_self).ripens ha₁.ripens (Layout.owns_single _)
    refine (createTagged_meets_gentle hw₁ hr₁).bind ?_ ?_
    · rintro _ w₂ ⟨hsteady, id, q, h, hnew, hripens⟩
      cases h
      have hripens : (Holding.adding (l.Owns w.memory) [(id, q)]).Ripens (l.Owns w₂.memory) :=
        (ha₁.ripens.adding _).trans hripens
      have hrs₂ : ∀ t ∈ rs, l.Wants (l.Owns w₂.memory) t := fun t ht =>
        (hrs t (List.mem_cons_of_mem _ ht)).mono fun p j hp =>
          (hripens.has_iff (Layout.owns_single _)).2 (Holding.has_adding.2 (.inl hp))
      refine (ih (hsteady.resting hw₁) hrs₂).bind ?_ ?_
      · rintro _ w₃ ⟨hsteady', es, hes, h, hnews, hripens'⟩
        cases h
        refine ⟨ha₁.toSteady.trans (hsteady.trans hsteady'), (id, q) :: es, by simp [hes, hnew.1],
          by simp [hnew.1], List.forall_mem_cons.2 ⟨?_, hnews⟩, ?_⟩
        · rw [hnew.1]
          exact hnew
        · rw [← List.singleton_append, ← Holding.adding_adding]
          exact (hripens.adding es).trans hripens'
      · rintro failure w₃ ⟨-, _, -, h, -⟩
        cases h
    · rintro failure w₂ ⟨-, _, _, h, -⟩
      cases h

/-- Wanted objects are created, and they are ready in the end. -/
theorem createAll_meets_gentle (hb : l.settings.backoff.validate = .ok ()) (rs : List Resource)
    (hw : Resting fresh l w) (hrs : ∀ r ∈ rs, l.Wants (l.Owns w.memory) r) :
    (createAll l.service.tag l.settings.backoff rs).Meets (gentle fresh l) (fun out w' =>
      out = .ok () ∧ Steady fresh l w w' ∧ ∃ es : List (Identifier × Resource),
        (es.map fun e => e.2.bare) = byRank [0, 1, 2] rs ∧
        (Holding.adding (l.Owns w.memory) es).Ripens (l.Owns w'.memory) ∧
        AllReady l w'.memory (es.map (·.1))) w := by
  have hwanted : ∀ r ∈ byRank [0, 1, 2] rs, l.Wants (l.Owns w.memory) r :=
    fun r hr => hrs r (mem_byRank_iff.1 hr).2
  refine (createEach_meets_gentle _ hw hwanted).bind ?_ ?_
  · rintro _ w₁ ⟨hsteady, es, hes, h, hnew, hripens⟩
    cases h
    have hids : identifiers (es.map fun e => e.2.bare.withIdentifier e.1) = es.map (·.1) := by
      simp [identifiers, List.filterMap_map]
    have hcreated : ∀ r ∈ es.map (fun e => e.2.bare.withIdentifier e.1), ∀ id,
        r.identifier = some id → r.readiness = .progressing ∧ ∃ q, l.Owns w₁.memory id q ∧
          q.kind = r.kind ∧ (q.status = .ready false ∨ q.status = .progressing) := by
      intro r hr id hid
      obtain ⟨e, he, rfl⟩ := List.mem_map.1 hr
      rw [Resource.identifier_withIdentifier] at hid
      cases hid
      refine ⟨?_, ?_⟩
      · rw [Resource.readiness, Resource.status_withIdentifier, Resource.status_bare]
        rfl
      · rcases hripens.kept e.1 e.2 (.inr he) with hq | ⟨-, hq⟩
        · exact ⟨_, hq, by simp, (hnew e he).2⟩
        · exact ⟨_, hq, by simp, .inl (by simp)⟩
    refine (settle_meets_gentle hb _ (hsteady.resting hw) hcreated).mono ?_
    rintro out w₂ ⟨hout, hsteady', hmatured, hready⟩
    exact ⟨hout, hsteady.trans hsteady', es, hes, hripens.trans hmatured.ripens, hids ▸ hready⟩
  · rintro failure w₁ ⟨-, _, -, h, -⟩
    cases h

end Engine

namespace World

theorem gentle_destroy {α : Type} {post : Except Failure α → World → Prop}
    {f : Except Refusal Unit → Program α} (hw : Resting fresh l w)
    (hd : Layout.Condemned (l.Owns w.memory) (r :: queue))
    (hsorted : (r :: queue).Pairwise fun r q => q.kind.rank ≤ r.kind.rank)
    (hid : r.identifier = some id)
    (h : ∀ w', Steady fresh l w w' →
      (Holding.without (l.Owns w.memory) [id]).Ripens (l.Owns w'.memory) →
      (f (.ok ())).Meets (gentle fresh l) post w') :
    (Program.request (.call (.destroy r.kind id)) >>= f).Meets (gentle fresh l) post w := by
  refine gentle_call fun w₁ ha => ?_
  have hw₁ := ha.resting hw
  have hd₁ := hd.ripens ha.ripens (Layout.owns_single _)
  obtain ⟨i, q, hi, hq, hkind⟩ := hd₁.held r List.mem_cons_self
  cases hid.symm.trans hi
  have href : ∀ i p, w₁.inventory.objects.get? i = some p → id ∉ p.references := fun i p hp hmem =>
    hd₁.not_mem_references hw₁.sound.tidy.closed hsorted hid (hw₁.owns_of_references hq hp hmem) hmem
  have howns (j : Identifier) (p : Resource) : l.Owns (w₁.memory.destroyed id) j p ↔
      Holding.without (l.Owns w₁.memory) [id] j p := by
    refine (Inventory.owns_remove_iff href).trans (and_comm.trans (and_congr_right fun _ => ?_))
    rw [List.mem_singleton]
  refine ⟨⟨hw₁, ⟨q, hq, hkind⟩, href⟩, ?_⟩
  rw [answer_destroy, ← hkind, hw₁.sound.tidy.destroy_eq hq.1 href]
  refine h _ (ha.toSteady.trans ⟨rfl, hw₁.sound.destroyed (hw₁.sound.pending_ne hq.2.1) href⟩) ?_
  exact (ha.ripens.without [id]).trans (.of_iff howns)

end World

namespace Engine

theorem destroyPass_meets_gentle (queue : List Resource) (hw : Resting fresh l w)
    (hd : Layout.Condemned (l.Owns w.memory) queue)
    (hsorted : queue.Pairwise fun r q => q.kind.rank ≤ r.kind.rank) :
    (destroyPass [] queue).Meets (gentle fresh l) (fun out w' => out = .ok [] ∧
      Steady fresh l w w' ∧
      (Holding.without (l.Owns w.memory) (identifiers queue)).Ripens (l.Owns w'.memory)) w := by
  induction queue generalizing w with
  | nil =>
    refine ⟨rfl, .refl hw.sound, ?_⟩
    rw [identifiers, List.filterMap_nil, Holding.without_nil]
    exact .refl _
  | cons r queue ih =>
    obtain ⟨id, -, hid, -⟩ := hd.held r List.mem_cons_self
    refine gentle_checkpoint fun w₁ ha => ?_
    rw [hid]
    refine gentle_destroy (ha.resting hw) (hd.ripens ha.ripens (Layout.owns_single _)) hsorted hid
      fun w₂ hsteady hripens => ?_
    have hripens : (Holding.without (l.Owns w.memory) [id]).Ripens (l.Owns w₂.memory) :=
      (ha.ripens.without [id]).trans hripens
    have htail := (hd.tail hid).ripens hripens (Layout.owns_single _)
    refine (ih (hsteady.resting (ha.resting hw)) htail (List.pairwise_cons.1 hsorted).2).mono ?_
    rintro out w₃ ⟨hout, hsteady', hripens'⟩
    refine ⟨hout, ha.toSteady.trans (hsteady.trans hsteady'), ?_⟩
    have hids : identifiers (r :: queue) = [id] ++ identifiers queue := by simp [identifiers, hid]
    rw [hids, ← Holding.without_without]
    exact (hripens.without _).trans hripens'

/-- What is condemned is destroyed, and nothing else. -/
theorem destroyAll_meets_gentle (rs : List Resource) (hw : Resting fresh l w)
    (hd : Layout.Condemned (l.Owns w.memory) rs) :
    (destroyAll rs).Meets (gentle fresh l) (fun out w' => out = .ok () ∧ Steady fresh l w w' ∧
      (Holding.without (l.Owns w.memory) (identifiers rs)).Ripens (l.Owns w'.memory)) w := by
  have hperm : (byRank [2, 1, 0] rs).Perm rs :=
    byRank_perm (by decide) (by decide) hd.queue_nodup
  have hcondemned : Layout.Condemned (l.Owns w.memory) (byRank [2, 1, 0] rs) :=
    hd.of_mem_iff (fun _ => hperm.mem_iff) (hperm.nodup_iff.2 hd.queue_nodup)
  have hwithout : Holding.without (l.Owns w.memory) (identifiers (byRank [2, 1, 0] rs)) =
      Holding.without (l.Owns w.memory) (identifiers rs) := by
    funext id r
    simp only [Holding.without, identifiers, List.mem_filterMap, hperm.mem_iff]
  rw [destroyAll]
  cases rs with
  | nil =>
    refine ⟨rfl, .refl hw.sound, ?_⟩
    rw [identifiers, List.filterMap_nil, Holding.without_nil]
    exact .refl _
  | cons r rs =>
    refine (destroyPass_meets_gentle _ hw hcondemned (byRank_descending _)).bind ?_ ?_
    · rintro refused w₁ ⟨h, hsteady, hripens⟩
      cases h
      exact ⟨rfl, hsteady, hwithout ▸ hripens⟩
    · rintro failure w₁ ⟨h, -⟩
      cases h

end Engine

end BalancerSync
