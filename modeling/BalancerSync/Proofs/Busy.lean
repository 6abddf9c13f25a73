import BalancerSync.Proofs.Gentle.Cycles

namespace BalancerSync

open Program Engine World

variable {fresh : Nat → Identifier} {l : Layout} {id : Identifier} {r : Resource} {kind : Kind}
  {m m' : Memory} {w w' : World} {ids : List Identifier} {es : List (Identifier × Resource)}

namespace Inventory

variable {v : Inventory} {tag : Tag} {lb : Identifier}

theorem hasBackend_iff_owns :
    v.hasBackend tag lb id = true ↔ ∃ r, v.Owns tag lb id r ∧ r.kind = .backend := by
  constructor
  · intro h
    obtain ⟨b, hb, hc, hlb⟩ := hasBackend_iff.1 h
    exact ⟨_, ⟨hb, hc, decide_eq_true hlb⟩, rfl⟩
  · rintro ⟨r, hr, hk⟩
    cases r <;> cases hk
    exact hr.backend

theorem hasFrontend_iff_owns :
    v.hasFrontend tag lb id = true ↔ ∃ r, v.Owns tag lb id r ∧ r.kind = .frontend := by
  constructor
  · intro h
    obtain ⟨f, hf, hc, hlb⟩ := hasFrontend_iff.1 h
    exact ⟨_, ⟨hf, hc, decide_eq_true hlb⟩, rfl⟩
  · rintro ⟨r, hr, hk⟩
    cases r <;> cases hk
    exact hr.frontend

end Inventory

namespace Snapshot

variable {v : Inventory} {tag : Tag} {lb : Identifier} {rs : List Resource}

theorem mem_backendIds_ofList_iff : id ∈ (ofList rs).backendIds lb ↔ ∃ q, q ∈ rs ∧
    q.kind = .backend ∧ q.identifier = some id ∧ v.belongsTo tag lb q = true := by
  simp only [backendIds, List.mem_filterMap, List.mem_filter, decide_eq_true_eq]
  constructor
  · rintro ⟨b, ⟨hb, hlb⟩, hid⟩
    rw [← backend_mem_resources, mem_resources_ofList] at hb
    exact ⟨_, hb, rfl, hid, decide_eq_true hlb⟩
  · rintro ⟨q, hq, hk, hid, hb⟩
    cases q <;> cases hk
    refine ⟨_, ⟨?_, of_decide_eq_true hb⟩, hid⟩
    rwa [← backend_mem_resources, mem_resources_ofList]

theorem mem_frontendIds_ofList_iff : id ∈ (ofList rs).frontendIds lb ↔ ∃ q, q ∈ rs ∧
    q.kind = .frontend ∧ q.identifier = some id ∧ v.belongsTo tag lb q = true := by
  simp only [frontendIds, List.mem_filterMap, List.mem_filter, decide_eq_true_eq]
  constructor
  · rintro ⟨f, ⟨hf, hlb⟩, hid⟩
    rw [← frontend_mem_resources, mem_resources_ofList] at hf
    exact ⟨_, hf, rfl, hid, decide_eq_true hlb⟩
  · rintro ⟨q, hq, hk, hid, hb⟩
    cases q <;> cases hk
    refine ⟨_, ⟨?_, of_decide_eq_true hb⟩, hid⟩
    rwa [← frontend_mem_resources, mem_resources_ofList]

end Snapshot

namespace Memory

/-- The identifier is not given out any more, and nothing without the tag is found under it. -/
def Claimed (fresh : Nat → Identifier) (tag : Tag) (m : Memory) (id : Identifier) : Prop :=
  (∀ n, m.issued < n → fresh n ≠ id) ∧
    ∀ r, m.inventory.objects.get? id = some r → m.inventory.Carries tag id

end Memory

namespace World

/-- Surroundings in which nothing fails and nothing is canceled, while others do the same to other load
balancers or for other services. -/
def busy (fresh : Nat → Identifier) (l : Layout) : Environment World where
  rely w w' := Aside fresh l w w' ∧
    ∀ id, w.memory.Claimed fresh l.service.tag id → w'.memory.Claimed fresh l.service.tag id
  allows q w :=
    match q with
    | .watch (.list tag) => Resting fresh l w ∧ tag = l.service.tag
    | .watch (.get _ id) => Resting fresh l w ∧ w.memory.Claimed fresh l.service.tag id
    | q => (gentle fresh l).allows q w
  replies := (gentle fresh l).replies

/-- What comes of a program in gentle surroundings comes of it in busy ones. -/
theorem busy_of_gentle {α : Type} {post : Except Failure α → World → Prop} {p : Program α}
    (h : p.Meets (gentle fresh l) post w) : p.Meets (busy fresh l) post w := by
  suffices hp : p.Meets (busy fresh l) (fun out w => post out w ∧ True) w from
    hp.mono fun _ _ h => h.1
  refine h.transfer (I := fun _ => True) trivial ?_ ?_ ?_
  · exact fun _ _ _ hrely => ⟨hrely.1, trivial⟩
  · intro q w _ hq
    cases q with
    | watch c => cases c <;> cases hq
    | _ => exact hq
  · exact fun _ _ _ _ _ _ hreply => ⟨hreply, trivial⟩

end World

namespace Memory

theorem Got.awaited_of_harmless {out : Except Refusal Resource × Memory} {steps : Nat}
    (h : m.Got kind id out) (hf : m.faults.Harmless steps) : Awaited l m out.2 := by
  by_cases hc : m.inventory.Carries l.service.tag id
  · exact h.awaited hf hc
  · have hne {j : Identifier} (hj : m.inventory.Carries l.service.tag j) : id ≠ j := by
      rintro rfl
      exact hc hj
    have howns (j : Identifier) (q : Resource) : l.Owns out.2 j q ↔ l.Owns m j q := by
      have hcarries : out.2.inventory.Carries l.service.tag j ↔ m.inventory.Carries l.service.tag j :=
        h.resembles.carries_iff
      rw [Layout.Owns, Layout.Owns, Inventory.Owns, Inventory.Owns, hcarries, h.resembles.belongsTo]
      exact and_congr_left fun hj => by rw [h.get?_of_ne (hne hj.1)]
    refine ⟨.of_owns howns, fun j q hq _ => ?_⟩
    rw [h.polls_of_ne (hne ((howns j q).1 hq).2.1)]

theorem Got.claimed {out : Except Refusal Resource × Memory} {tag : Tag} {j : Identifier}
    (h : m.Got kind id out) (hj : m.Claimed fresh tag j) : out.2.Claimed fresh tag j := by
  have hissued : out.2.issued = m.issued := by cases h <;> rfl
  refine ⟨fun n hn => hj.1 n (hissued ▸ hn), fun q hq => h.resembles.carries_iff.2 ?_⟩
  obtain ⟨q', hq', -⟩ := h.resembles.symm.exists_get? hq
  exact hj.2 q' hq'

/-- Where something belongs does not change when objects of the load balancer are deployed. -/
theorem Matured.belongsTo_eq (h : Matured l m m') :
    m'.inventory.belongsTo l.service.tag l.loadBalancer =
      m.inventory.belongsTo l.service.tag l.loadBalancer := by
  have howns (k : Kind) (j : Identifier) : (∃ q, l.Owns m' j q ∧ q.kind = k) ↔
      ∃ q, l.Owns m j q ∧ q.kind = k := by
    constructor
    · rintro ⟨q, hq, hk⟩
      rcases h.cases_of_owns hq with hq | ⟨p, hp, -, rfl⟩
      · exact ⟨q, hq, hk⟩
      · exact ⟨p, hp, by simpa using hk⟩
    · rintro ⟨q, hq, hk⟩
      rcases h.kept j q hq with hq | ⟨-, hq⟩
      · exact ⟨q, hq, hk⟩
      · exact ⟨_, hq, by simpa using hk⟩
  funext q
  cases q with
  | backend b => rfl
  | frontend f => rfl
  | bind b =>
    rw [Bool.eq_iff_iff]
    exact Inventory.hasFrontend_iff_owns.trans ((howns _ _).trans Inventory.hasFrontend_iff_owns.symm)
  | server s =>
    rw [Bool.eq_iff_iff]
    exact Inventory.hasBackend_iff_owns.trans ((howns _ _).trans Inventory.hasBackend_iff_owns.symm)

end Memory

/-- Objects that have been found under the identifiers of a listing, one after the other: those of the
load balancer each as it was in the beginning, or as it is, and some others. -/
structure Layout.Gathered (l : Layout) (ids : List Identifier) (m : Memory)
    (es : List (Identifier × Resource)) (m' : Memory) : Prop where
  sublist : (es.map (·.1)).Sublist ids
  identified : ∀ e ∈ es, e.2.identifier = some e.1
  since : ∀ e ∈ es, m'.inventory.belongsTo l.service.tag l.loadBalancer e.2 = true →
    l.Owns m e.1 e.2 ∨
      ∃ q, l.Owns m e.1 q ∧ q.status = .progressing ∧ e.2 = q.withStatus (.ready false)
  now : ∀ e ∈ es, m'.inventory.belongsTo l.service.tag l.loadBalancer e.2 = true →
    l.Owns m' e.1 e.2 ∨ (e.2.status = .progressing ∧ l.Owns m' e.1 (e.2.withStatus (.ready false)))
  complete : ∀ id ∈ ids, ∀ r, l.Owns m' id r → ∃ q, (id, q) ∈ es ∧ q.bare = r.bare

namespace Layout.Gathered

theorem of_matured {m₁ : Memory} (h : l.Gathered ids m₁ es m') (hm : m.Matured l m₁) :
    l.Gathered ids m es m' where
  sublist := h.sublist
  identified := h.identified
  since e he hb := by
    rcases h.since e he hb with hr | ⟨q, hq, hs, heq⟩
    · exact hm.cases_of_owns hr
    · rcases hm.cases_of_owns hq with hq | ⟨p, -, -, rfl⟩
      · exact .inr ⟨q, hq, hs, heq⟩
      · simp at hs
  now := h.now
  complete := h.complete

/-- Nothing has been found under an identifier, and nothing of the load balancer has been there. -/
theorem skip (h : l.Gathered ids m es m') (hid : ∀ r, ¬ l.Owns m' id r) :
    l.Gathered (id :: ids) m es m' where
  sublist := h.sublist.cons id
  identified := h.identified
  since := h.since
  now := h.now
  complete j hj q hq := by
    rcases List.mem_cons.1 hj with rfl | hj
    · exact absurd hq (hid q)
    · exact h.complete j hj q hq

theorem cons (h : l.Gathered ids m es m') (hm : m.Matured l m') (hid : r.identifier = some id)
    (hget : m.inventory.objects.get? id = some r) (hc : m.inventory.Carries l.service.tag id) :
    l.Gathered (id :: ids) m ((id, r) :: es) m' := by
  have howns (hb : m'.inventory.belongsTo l.service.tag l.loadBalancer r = true) : l.Owns m id r :=
    ⟨hget, hc, hm.belongsTo_eq ▸ hb⟩
  refine ⟨h.sublist.cons_cons id, List.forall_mem_cons.2 ⟨hid, h.identified⟩, ?_, ?_, ?_⟩
  · exact List.forall_mem_cons.2 ⟨fun hb => .inl (howns hb), h.since⟩
  · exact List.forall_mem_cons.2 ⟨fun hb => hm.kept id r (howns hb), h.now⟩
  · intro j hj q hq
    rcases List.mem_cons.1 hj with rfl | hj
    · refine ⟨r, List.mem_cons_self, ?_⟩
      rcases hm.cases_of_owns hq with hq | ⟨p, hp, -, rfl⟩
      · cases hq.1.symm.trans hget
        rfl
      · cases hp.1.symm.trans hget
        simp
    · obtain ⟨p, hp, hb⟩ := h.complete j hj q hq
      exact ⟨p, List.mem_cons_of_mem _ hp, hb⟩

variable {s : Snapshot}

/-- What has been gathered tells where something belongs as the provider itself does. -/
theorem belongsTo_eq (h : l.Gathered ids m es m')
    (hall : ∀ id r, l.Owns m' id r → id ∈ ids) :
    (Snapshot.ofList (es.map (·.2))).belongsTo l.loadBalancer =
      m'.inventory.belongsTo l.service.tag l.loadBalancer := by
  -- A backend or frontend on the load balancer has been found where it is now.
  have hfound (k : Kind) (id : Identifier) : (∃ q, l.Owns m' id q ∧ q.kind = k) ↔
      ∃ q, q ∈ es.map (·.2) ∧ q.kind = k ∧ q.identifier = some id ∧
        m'.inventory.belongsTo l.service.tag l.loadBalancer q = true := by
    constructor
    · rintro ⟨q, hq, hk⟩
      obtain ⟨p, hp, hb⟩ := h.complete id (hall id q hq) q hq
      refine ⟨p, List.mem_map.2 ⟨_, hp, rfl⟩, ?_, h.identified _ hp, ?_⟩
      · rw [← Resource.kind_bare, hb, Resource.kind_bare, hk]
      · rw [← Inventory.belongsTo_bare, hb, Inventory.belongsTo_bare]
        exact hq.2.2
    · rintro ⟨q, hq, hk, hid, hb⟩
      obtain ⟨e, he, rfl⟩ := List.mem_map.1 hq
      cases hid.symm.trans (h.identified e he)
      rcases h.now e he hb with hq | ⟨-, hq⟩
      · exact ⟨_, hq, hk⟩
      · exact ⟨_, hq, by simpa using hk⟩
  funext r
  cases r with
  | backend b => rfl
  | frontend f => rfl
  | bind b =>
    rw [Bool.eq_iff_iff, Snapshot.belongsTo, decide_eq_true_iff]
    exact Snapshot.mem_frontendIds_ofList_iff.trans
      ((hfound .frontend b.frontend).symm.trans Inventory.hasFrontend_iff_owns.symm)
  | server v =>
    rw [Bool.eq_iff_iff, Snapshot.belongsTo, decide_eq_true_iff]
    exact Snapshot.mem_backendIds_ofList_iff.trans
      ((hfound .backend v.backend).symm.trans Inventory.hasBackend_iff_owns.symm)

theorem narrowTo_eq (h : l.Gathered ids m es m') (hall : ∀ id r, l.Owns m' id r → id ∈ ids) :
    (Snapshot.ofList (es.map (·.2))).narrowTo l.loadBalancer = Snapshot.ofList
      ((es.map (·.2)).filter (m'.inventory.belongsTo l.service.tag l.loadBalancer)) := by
  rw [Snapshot.ofList_filter, Snapshot.narrowTo, h.belongsTo_eq hall]

theorem holding_iff (h : l.Gathered ids m es m') (hall : ∀ id r, l.Owns m' id r → id ∈ ids) :
    ((Snapshot.ofList (es.map (·.2))).narrowTo l.loadBalancer).holding id r ↔
      (id, r) ∈ es ∧ m'.inventory.belongsTo l.service.tag l.loadBalancer r = true := by
  rw [h.narrowTo_eq hall, Snapshot.holding, Snapshot.mem_resources_ofList, List.mem_filter]
  constructor
  · rintro ⟨⟨hr, hb⟩, hid⟩
    obtain ⟨⟨j, q⟩, he, rfl⟩ := List.mem_map.1 hr
    cases hid.symm.trans (h.identified _ he)
    exact ⟨he, hb⟩
  · rintro ⟨he, hb⟩
    exact ⟨⟨List.mem_map.2 ⟨_, he, rfl⟩, hb⟩, h.identified _ he⟩

/-- What has been gathered shows what there is on the load balancer. -/
theorem shows (h : l.Gathered ids m es m') (hm : m.Matured l m') (hids : ids.Nodup)
    (hall : ∀ id r, l.Owns m' id r → id ∈ ids) :
    l.Shows m ((Snapshot.ofList (es.map (·.2))).narrowTo l.loadBalancer) m' where
  classified := by
    rw [h.narrowTo_eq hall]
    refine Snapshot.classified_ofList (fun r hr => ?_) ?_
    · obtain ⟨e, he, rfl⟩ := List.mem_map.1 (List.mem_filter.1 hr).1
      exact ⟨e.1, h.identified e he⟩
    · have hmap : (es.map (·.2)).map Resource.identifier = (es.map (·.1)).map some := by
        rw [List.map_map, List.map_map]
        exact List.map_congr_left h.identified
      refine List.Nodup.sublist (List.filter_sublist.map _) ?_
      rw [hmap]
      exact (hids.sublist h.sublist).map (Option.some_injective _)
  since :=
    { kept := fun id r hr => by
        obtain ⟨t, ht, htr⟩ : ∃ t, l.Owns m' id t ∧ t.bare = r.bare := by
          rcases hm.kept id r hr with hr | ⟨-, hr⟩
          · exact ⟨r, hr, rfl⟩
          · exact ⟨_, hr, by simp⟩
        obtain ⟨q, hq, hqt⟩ := h.complete id (hall id t ht) t ht
        have hb : m'.inventory.belongsTo l.service.tag l.loadBalancer q = true := by
          rw [← Inventory.belongsTo_bare, hqt, Inventory.belongsTo_bare]
          exact ht.2.2
        rcases h.since _ hq hb with hq' | ⟨p, hp, hs, rfl⟩
        · cases hr.1.symm.trans hq'.1
          exact .inl ((h.holding_iff hall).2 ⟨hq, hb⟩)
        · cases hr.1.symm.trans hp.1
          exact .inr ⟨hs, (h.holding_iff hall).2 ⟨hq, hb⟩⟩
      former := fun id r hr => by
        obtain ⟨he, hb⟩ := (h.holding_iff hall).1 hr
        rcases h.since _ he hb with hr | ⟨q, hq, -⟩
        · exact ⟨r, hr⟩
        · exact ⟨q, hq⟩ }
  now :=
    { kept := fun id r hr => by
        obtain ⟨he, hb⟩ := (h.holding_iff hall).1 hr
        exact h.now _ he hb
      former := fun id r hr => by
        obtain ⟨q, hq, hqr⟩ := h.complete id (hall id r hr) r hr
        refine ⟨q, (h.holding_iff hall).2 ⟨hq, ?_⟩⟩
        rw [← Inventory.belongsTo_bare, hqr, Inventory.belongsTo_bare]
        exact hr.2.2 }

end Layout.Gathered

namespace Engine

theorem fetchListed_meets_busy (entries : List (Identifier × Kind)) (hw : Resting fresh l w)
    (hc : ∀ e ∈ entries, w.memory.Claimed fresh l.service.tag e.1)
    (hk : ∀ e ∈ entries, ∀ r, l.Owns w.memory e.1 r → r.kind = e.2) :
    (fetchListed (entries.map fun e => ⟨e.1, e.2.typeIdentifier⟩)).Meets (busy fresh l)
      (fun out w' => Steady fresh l w w' ∧ w.memory.Matured l w'.memory ∧ ∃ es,
        out = .ok (es.map (·.2)) ∧ l.Gathered (entries.map (·.1)) w.memory es w'.memory) w := by
  induction entries generalizing w with
  | nil =>
    exact ⟨.refl hw.sound, .refl _, [], rfl, List.Sublist.refl _, nofun, nofun, nofun, nofun⟩
  | cons e entries ih =>
    obtain ⟨id, kind⟩ := e
    simp only [List.map_cons, fetchListed, Kind.ofTypeIdentifier?_typeIdentifier]
    rintro w₁ ⟨ha, hclaims⟩
    have hw₁ := ha.resting hw
    have hc₁ : ∀ e ∈ (id, kind) :: entries, w₁.memory.Claimed fresh l.service.tag e.1 :=
      fun e he => hclaims _ (hc e he)
    have hid := hc₁ _ List.mem_cons_self
    refine ⟨⟨hw₁, hid⟩, ?_⟩
    rintro reply w₂ (⟨hcanceled, -⟩ | ⟨a, rfl, hget⟩)
    · exact hcanceled.elim
    rw [answer_get] at hget
    obtain ⟨rfl, rfl⟩ := Prod.mk.inj hget
    have hgot := w₁.memory.got kind id
    generalize w₁.memory.get kind id = out at hgot
    have hmatured : w₁.memory.Matured l out.2 :=
      (hgot.awaited_of_harmless hw₁.sound.tidy.harmless).toMatured
    have hmatured' : w.memory.Matured l out.2 := ha.awaited.toMatured.trans hmatured
    have hsteady : Steady fresh l w { w₁ with memory := out.2 } :=
      ha.toSteady.trans ⟨rfl, hw₁.sound.got hgot⟩
    have htail := ih (w := { w₁ with memory := out.2 }) (hsteady.resting hw)
      (fun e he => hgot.claimed (hc₁ e (List.mem_cons_of_mem _ he))) (fun e he r hr => by
        rcases hmatured'.cases_of_owns hr with hr | ⟨q, hq, -, rfl⟩
        · exact hk e (List.mem_cons_of_mem _ he) r hr
        · rw [Resource.kind_withStatus]
          exact hk e (List.mem_cons_of_mem _ he) q hq)
    by_cases hkind : w₁.inventory.kindOf? id = some kind
    · obtain ⟨r, hr, hget, -⟩ := hgot.get? hkind
      rw [hr]
      refine htail.bind ?_ ?_
      · rintro rs w₃ ⟨hsteady', hm', es, h, hes⟩
        cases h
        refine ⟨hsteady.trans hsteady', hmatured'.trans hm', (id, r) :: es, rfl, ?_⟩
        exact (hes.cons hm' (hsteady.sound.tidy.closed.stored id r hget) hget
          ((hgot.claimed hid).2 r hget)).of_matured hmatured'
      · rintro failure w₃ ⟨-, -, es, h, -⟩
        cases h
    · rw [hgot.eq_notFound hkind]
      refine htail.mono ?_
      rintro out' w₃ ⟨hsteady', hm', es, h, hes⟩
      refine ⟨hsteady.trans hsteady', hmatured'.trans hm', es, h, ?_⟩
      refine (hes.of_matured hmatured').skip fun r hr => hkind ?_
      obtain ⟨q, hq⟩ := (hmatured'.trans hm').former id r hr
      have hkind : q.kind = kind := hk _ List.mem_cons_self q hq
      rcases ha.ripens.kept id q hq with hq | ⟨-, hq⟩
      · exact Inventory.kindOf?_eq_some_iff.2 ⟨q, hq.1, hkind⟩
      · exact Inventory.kindOf?_eq_some_iff.2 ⟨_, hq.1, by rwa [Resource.kind_withStatus]⟩

theorem fetchTagged_meets_busy (hw : Resting fresh l w) :
    (fetchListed ((w.inventory.tagged l.service.tag).map fun e =>
      ⟨e.1, e.2.kind.typeIdentifier⟩)).Meets (busy fresh l) (fun out w' => Steady fresh l w w' ∧
        ∃ rs, out = .ok rs ∧
          l.Shows w.memory ((Snapshot.ofList rs).narrowTo l.loadBalancer) w'.memory) w := by
  have htagged : ∀ e ∈ (w.inventory.tagged l.service.tag).map fun e => (e.1, e.2.kind),
      ∃ r, w.inventory.Carries l.service.tag e.1 ∧
        w.inventory.objects.get? e.1 = some r ∧ r.kind = e.2 := by
    intro e he
    obtain ⟨⟨id, r⟩, hr, rfl⟩ := List.mem_map.1 he
    obtain ⟨hc, hr⟩ := Inventory.mem_tagged_iff.1 hr
    exact ⟨r, hc, hr, rfl⟩
  have hclaimed : ∀ e ∈ (w.inventory.tagged l.service.tag).map fun e => (e.1, e.2.kind),
      w.memory.Claimed fresh l.service.tag e.1 := by
    intro e he
    obtain ⟨r, hc, hr, -⟩ := htagged e he
    refine ⟨fun n hn heq => ?_, fun _ _ => hc⟩
    exact hw.sound.tidy.fresh.unmentioned n hn (heq ▸ .inl (OrderedMap.mem_keys_of_get? hr))
  have hkinds : ∀ e ∈ (w.inventory.tagged l.service.tag).map fun e => (e.1, e.2.kind), ∀ r,
      l.Owns w.memory e.1 r → r.kind = e.2 := by
    intro e he r hr
    obtain ⟨q, -, hq, hk⟩ := htagged e he
    cases hr.1.symm.trans hq
    exact hk
  rw [map_listed_eq]
  refine (fetchListed_meets_busy _ hw hclaimed hkinds).mono ?_
  rintro out w' ⟨hsteady, hm, es, h, hes⟩
  rw [map_fst_listed] at hes
  refine ⟨hsteady, _, h, hes.shows hm (w.inventory.tagged_ids_nodup _) fun id r hr => ?_⟩
  obtain ⟨q, hq⟩ := hm.former id r hr
  exact List.mem_map.2 ⟨(id, q), Inventory.mem_tagged_iff.2 ⟨hq.2.1, hq.1⟩, rfl⟩

/-- The part of a snapshot for the load balancer is as it should be. -/
theorem fetch_meets_busy (hw : Resting fresh l w) :
    (fetch l.service.tag).Meets (busy fresh l) (fun out w' => Steady fresh l w w' ∧ ∃ s,
      out = .ok s ∧ l.Shows w.memory (s.narrowTo l.loadBalancer) w'.memory) w := by
  refine (busy_of_gentle checkpoint_meets_gentle).bind ?_ ?_
  · rintro - w₁ ⟨-, ha₁⟩ w₂ ⟨ha₂, -⟩
    have ha := ha₁.trans ha₂
    have hw₂ := ha.resting hw
    refine ⟨⟨hw₂, rfl⟩, ?_⟩
    rintro reply w₃ (⟨hcanceled, -⟩ | ⟨a, rfl, hlist⟩)
    · exact hcanceled.elim
    rw [answer_list] at hlist
    obtain ⟨rfl, rfl⟩ := Prod.mk.inj hlist
    have hlisting : Resting fresh l { w₂ with memory := w₂.memory.listing } :=
      ⟨hw₂.sound.polled ⟨rfl, .of_inventory_eq rfl rfl rfl rfl⟩, hw₂.outside, hw₂.notLeading, hw₂.here⟩
    have hfetch := fetchTagged_meets_busy hlisting
    have hend {rs : List Resource} {w' : World}
        (h : Steady fresh l { w₂ with memory := w₂.memory.listing } w')
        (hs : l.Shows w₂.memory.listing ((Snapshot.ofList rs).narrowTo l.loadBalancer) w'.memory) :
        Steady fresh l w w' ∧ ∃ s, (Except.ok (.ofList rs) : Except Failure Snapshot) = .ok s ∧
          l.Shows w.memory (s.narrowTo l.loadBalancer) w'.memory :=
      ⟨ha.toSteady.trans ⟨h.stance, h.sound⟩, _, rfl, hs.classified, ha.ripens.trans hs.since, hs.now⟩
    have hout := w₂.memory.wasListed l.service.tag
    generalize w₂.memory.list l.service.tag = out at hout
    cases hout with
    | failed hf =>
      rw [hw₂.sound.tidy.harmless.1] at hf
      cases hf
    | nothing ht =>
      -- Only an empty listing is refused, and there is nothing to look at then.
      change w₂.memory.listing.inventory.tagged l.service.tag = [] at ht
      rw [World.inventory, ht] at hfetch
      obtain ⟨hsteady, rs, h, hs⟩ := hfetch
      cases h
      exact hend hsteady hs
    | listed =>
      refine hfetch.bind ?_ ?_
      · rintro rs w' ⟨hsteady, rs', h, hs⟩
        cases h
        exact hend hsteady hs
      · rintro failure w' ⟨-, rs, h, -⟩
        cases h
  · rintro failure w₁ ⟨h, -⟩
    cases h

theorem snapshot_meets_busy (hw : Resting fresh l w) :
    ((Source.direct l.service.tag).snapshot l.loadBalancer).Meets (busy fresh l)
      (fun out w' => Steady fresh l w w' ∧ ∃ s, out = .ok s ∧ l.Shows w.memory s w'.memory) w := by
  refine (fetch_meets_busy hw).bind ?_ ?_
  · rintro _ w' ⟨hsteady, s, h, hs⟩
    cases h
    exact ⟨hsteady, _, rfl, hs⟩
  · rintro failure w' ⟨-, s, h, -⟩
    cases h

end Engine

namespace Reconciliation

theorem direct_bears_busy : (direct l).Bears fresh (busy fresh l) fun _ => 0 where
  lift q post w hw hq := (busy_of_gentle hq).mono fun _ _ h => ⟨h, rfl⟩
  check w hw := by
    refine (snapshot_meets_busy (l := l) hw).bind ?_ ?_
    · rintro _ w₁ ⟨hsteady, s, h, hs⟩
      cases h
      rintro w₂ ⟨ha, -⟩
      refine ⟨trivial, ?_⟩
      rintro - w₃ rfl
      have hw₂ := ha.resting (hsteady.resting hw)
      refine Meets.ofExcept ⟨⟨_, ⟨hs.classified, hs.since, hs.now.trans ha.ripens⟩, ?_, rfl, rfl⟩,
        Nat.zero_le _⟩
      exact ⟨hw₂.sound.of_eq rfl rfl rfl, hw₂.outside, hw₂.notLeading, hw₂.here⟩
    · rintro failure w' ⟨-, s, h, -⟩
      cases h

/-- A reconciliation that fetches its own snapshots serves its service, whatever others do to theirs
meanwhile. -/
theorem direct_reconcile_meets_busy (hv : l.settings.validate = .ok ())
    (hc : 7 ≤ l.settings.maxCycles) (ha : l.service.externalAddresses.Nodup)
    (he : l.service.endpoints.Nodup) (hw : Resting fresh l w) :
    (direct l).reconcile.Meets (busy fresh l) (fun out w' => out = .ok () ∧ Resting fresh l w' ∧
      l.Serves w'.inventory) w := by
  have hb := backoff_validate_of_validate hv
  refine (converge_meets_bearing direct_bears_busy hb ha he _ hw Layout.stage_zero (Nat.zero_le _)
    (by rwa [Nat.zero_add])).attempt ?_
  rintro out w₁ ⟨rfl, hw₁, hserves, -⟩
  exact ⟨rfl, hw₁, hserves⟩

end Reconciliation

end BalancerSync
