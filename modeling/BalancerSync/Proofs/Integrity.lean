import BalancerSync.Proofs.Ownership
import BalancerSync.Proofs.Success

namespace BalancerSync

namespace Inventory

variable {v v' : Inventory} {tag : Tag} {id : Identifier} {r : Resource}

/-- Every object is under its own identifier, and all that it refers to is there. The index is about
objects only, and a tag is in it as long as something carries it. -/
structure Integral (v : Inventory) : Prop where
  stored : v.Stored
  resolved : ∀ id r, v.objects.get? id = some r → v.Resolves r
  indexed : ∀ tag id, v.Carries tag id → ∃ r, v.objects.get? id = some r
  carried : ∀ tag ∈ v.tags.keys, ∃ id, v.Carries tag id

theorem integral_iff : v.Integral ↔ v.Stored ∧
    (∀ e ∈ v.objects.entries, v.checkReferences e.2 = .ok ()) ∧
    ∀ tag ∈ v.tags.keys, (∀ id ∈ v.taggedIds tag, v.objects.contains id = true) ∧
      v.taggedIds tag ≠ [] := by
  have hcontains (id : Identifier) : v.objects.contains id = true ↔ ∃ r, v.objects.get? id = some r := by
    rw [OrderedMap.contains_iff_mem_keys, OrderedMap.mem_keys_iff]
  constructor
  · refine fun h => ⟨h.stored, fun e he => ?_, fun tag ht => ⟨fun id hid => ?_, ?_⟩⟩
    · exact checkReferences_eq_ok_iff.2 (h.resolved _ _ (OrderedMap.get?_eq_some_iff.2 he))
    · exact (hcontains id).2 (h.indexed tag id hid)
    · obtain ⟨id, hid⟩ := h.carried tag ht
      exact List.ne_nil_of_mem hid
  · rintro ⟨hstored, hresolved, htags⟩
    refine ⟨hstored, fun id r hr => ?_, fun tag id hc => ?_, fun tag ht => ?_⟩
    · exact checkReferences_eq_ok_iff.1 (hresolved _ (OrderedMap.get?_eq_some_iff.1 hr))
    · obtain ⟨ids, hids, -⟩ := carries_iff.1 hc
      exact (hcontains id).1 ((htags tag (OrderedMap.mem_keys_of_get? hids)).1 id hc)
    · exact List.exists_mem_of_ne_nil _ (htags tag ht).2

instance : Decidable v.Integral := decidable_of_iff _ integral_iff.symm

namespace Integral

theorem resembles (h : v.Integral) (hv : v.Resembles v') : v'.Integral where
  stored := hv.stored h.stored
  resolved id r hr := by
    obtain ⟨q, hq, hbare, -⟩ := hv.symm.exists_get? hr
    have hres : v.Resolves r := by
      rw [← resolves_bare, ← hbare, resolves_bare]
      exact h.resolved id q hq
    exact hres.mono hv.loadBalancers fun _ _ _ hk => hv.kindOf?_eq.trans hk
  indexed tag id hc := by
    obtain ⟨q, hq⟩ := h.indexed tag id (hv.carries_iff.1 hc)
    obtain ⟨r, hr, -⟩ := hv.exists_get? hq
    exact ⟨r, hr⟩
  carried tag ht := by
    obtain ⟨id, hid⟩ := h.carried tag (hv.tags ▸ ht)
    exact ⟨id, hv.carries_iff.2 hid⟩

theorem put (h : v.Integral) (hnone : v.objects.get? id = none) (hid : r.identifier = some id)
    (hr : v.Resolves r) : (v.put id r).Integral where
  stored := h.stored.put hid
  resolved j q hq := by
    rw [get?_put] at hq
    split at hq
    · cases hq
      exact hr.put hnone
    · exact (h.resolved j q hq).put hnone
  indexed tag j hc := by
    obtain ⟨q, hq⟩ := h.indexed tag j (carries_put.1 hc)
    rw [get?_put]
    split
    · exact ⟨r, rfl⟩
    · exact ⟨q, hq⟩
  carried tag ht := (h.carried tag ht).imp fun _ => carries_put.2

theorem remove (h : v.Integral) (href : ∀ j q, v.objects.get? j = some q → id ∉ q.references) :
    (v.remove id).Integral where
  stored := h.stored.remove
  resolved j q hq := by
    have hq := (get?_of_get?_remove hq).2
    exact (h.resolved j q hq).remove (href j q hq)
  indexed tag j hc := by
    obtain ⟨hj, hc⟩ := carries_remove.1 hc
    obtain ⟨q, hq⟩ := h.indexed tag j hc
    exact ⟨q, by rw [get?_remove, if_neg (Ne.symm hj), hq]⟩
  carried tag ht := by
    -- A tag that nothing carries any more has been filtered out.
    obtain ⟨ids, hids⟩ := OrderedMap.mem_keys_iff.1 ht
    have hne : ids.isEmpty = false := by
      have hids := hids
      simp only [Inventory.remove, OrderedMap.get?_filter_eq_some_iff] at hids
      simpa using hids.2
    obtain ⟨j, hj⟩ : ∃ j, j ∈ ids.keys := by
      by_contra hnone
      rw [OrderedMap.isEmpty_iff.2 (not_exists.1 hnone)] at hne
      cases hne
    exact ⟨j, carries_iff.2 ⟨ids, hids, hj⟩⟩

theorem attach (h : v.Integral) (hr : v.objects.get? id = some r) : (v.attach id tag).Integral where
  stored := h.stored
  resolved j q hq := (h.resolved j q hq).attach
  indexed tag' j hc := by
    rcases carries_attach.1 hc with ⟨-, rfl⟩ | hc
    · exact ⟨r, hr⟩
    · exact h.indexed tag' j hc
  carried tag' ht := by
    rcases OrderedMap.mem_keys_insert.1 ht with rfl | ht
    · exact ⟨id, carries_attach.2 (.inl ⟨rfl, rfl⟩)⟩
    · exact (h.carried tag' ht).imp fun _ hc => carries_attach.2 (.inr hc)

end Integral

/-- An object is gone, with its entries in the index, and nothing else is. -/
structure Loses (v : Inventory) (id : Identifier) (v' : Inventory) : Prop where
  present : ∃ r, v.objects.get? id = some r
  gone : v'.objects.get? id = none
  objects : ∀ j, j ≠ id → v'.objects.get? j = v.objects.get? j
  tags : ∀ tag j, v'.Carries tag j ↔ j ≠ id ∧ v.Carries tag j
  loadBalancers : v'.loadBalancers = v.loadBalancers

theorem loses_remove (hr : v.objects.get? id = some r) : v.Loses id (v.remove id) where
  present := ⟨r, hr⟩
  gone := by rw [get?_remove, if_pos rfl]
  objects _ hj := by rw [get?_remove, if_neg (Ne.symm hj)]
  tags _ _ := carries_remove
  loadBalancers := rfl

end Inventory

namespace Memory

variable {m m' : Memory} {fresh : Nat → Identifier} {c : Call} {kind : Kind} {id : Identifier}
  {r : Resource} {tag : Tag}

inductive Effect (fresh : Nat → Identifier) (m : Memory) :
    (c : Call) → c.Answer × Memory → Prop
  /-- Nothing that is kept is changed by a look, nor if the call fails. -/
  | kept {c : Call} {out : c.Answer × Memory} (hv : out.2.inventory = m.inventory)
      (hi : out.2.issued = m.issued) (h : c.Looks ∨ ∃ refusal, out.1 = .error refusal) :
      m.Effect fresh c out
  | deployed {id : Identifier} {r : Resource} (hr : m.inventory.objects.get? id = some r)
      (hs : r.status = .progressing) :
      m.Effect fresh (.get r.kind id)
        (.ok (r.withStatus (m.faults.finalStatus r.name)), m.deployed id r)
  | created {r : Resource} (h : m.inventory.Resolves r) :
      m.Effect fresh (.create r) (.ok (fresh (m.issued + 1)), m.created fresh r)
  | destroyed {id : Identifier} {r : Resource} (hr : m.inventory.objects.get? id = some r)
      (href : ∀ j q, m.inventory.objects.get? j = some q → id ∉ q.references) :
      m.Effect fresh (.destroy r.kind id) (.ok (), m.destroyed id)
  | tagged {id : Identifier} {tag : Tag} {r : Resource}
      (hr : m.inventory.objects.get? id = some r) :
      m.Effect fresh (.tag id tag) (.ok (), m.tagged id tag)

theorem effect (fresh : Nat → Identifier) (m : Memory) (c : Call) :
    m.Effect fresh c ((provider fresh).answer c m) := by
  cases c with
  | get kind id =>
    have hgot := m.got kind id
    change m.Effect fresh (.get kind id) (m.get kind id)
    generalize m.get kind id = out at hgot
    cases hgot with
    | missing | settled | counted => exact .kept rfl rfl (.inl trivial)
    | deployed hr hk hs hp =>
      subst hk
      exact .deployed hr hs
  | list tag =>
    have hlisted := m.wasListed tag
    change m.Effect fresh (.list tag) (m.list tag)
    generalize m.list tag = out at hlisted
    cases hlisted <;> exact .kept rfl rfl (.inl trivial)
  | create r =>
    have hcreated := m.wasCreated fresh r
    change m.Effect fresh (.create r) (m.create fresh r)
    generalize m.create fresh r = out at hcreated
    cases hcreated with
    | refused refusal h => exact .kept rfl rfl (.inr ⟨refusal, rfl⟩)
    | created h => exact .created h
  | destroy kind id =>
    have hdestroyed := m.wasDestroyed kind id
    change m.Effect fresh (.destroy kind id) (m.destroy kind id)
    generalize m.destroy kind id = out at hdestroyed
    cases hdestroyed with
    | refused refusal m' hv hj hi h => exact .kept hv hi (.inr ⟨refusal, rfl⟩)
    | destroyed hk href =>
      obtain ⟨r, hr, hk⟩ := Inventory.kindOf?_eq_some_iff.1 hk
      subst hk
      exact .destroyed hr href
  | tag id tag =>
    change m.Effect fresh (.tag id tag) (m.tag id tag)
    rw [Memory.tag]
    split
    · exact .kept rfl rfl (.inr ⟨_, rfl⟩)
    next hin =>
      split
      · exact .kept rfl rfl (.inr ⟨_, rfl⟩)
      · have hin : m.inventory.objects.contains id = true := by simpa using hin
        obtain ⟨r, hr⟩ := OrderedMap.mem_keys_iff.1 (OrderedMap.contains_iff_mem_keys.1 hin)
        exact .tagged hr

namespace Effect

variable {out : c.Answer × Memory}

/-- A call that fails changes nothing that is kept. -/
theorem inventory_of_error (h : m.Effect fresh c out) {refusal : Refusal}
    (hout : out.1 = .error refusal) : out.2.inventory = m.inventory := by
  cases h with
  | kept hv hi hk => exact hv
  | deployed | created | destroyed | tagged => cases hout

theorem loses {out : Except Refusal Unit × Memory} (h : m.Effect fresh (.destroy kind id) out)
    (hout : out.1 = .ok ()) : m.inventory.Loses id out.2.inventory := by
  cases h with
  | kept hv hi hk =>
    obtain ⟨refusal, hrefused⟩ := hk.resolve_left fun h => h
    cases hout.symm.trans hrefused
  | destroyed hr href => exact Inventory.loses_remove hr

theorem get?_cases (h : m.Effect fresh c out) (hf : m.Fresh fresh)
    (hr : m.inventory.objects.get? id = some r) :
    out.2.inventory.objects.get? id = some r ∨
    (c = .destroy r.kind id ∧ out.2.inventory.objects.get? id = none) ∨
    (c = .get r.kind id ∧ r.status = .progressing ∧
      ∃ status, out.2.inventory.objects.get? id = some (r.withStatus status)) := by
  cases h with
  | kept hv hi hk => exact .inl (by rw [hv, hr])
  | @deployed j q hq hs =>
    by_cases hj : j = id
    · subst hj
      cases hq.symm.trans hr
      exact .inr (.inr ⟨rfl, hs, _, Inventory.get?_put.trans (if_pos rfl)⟩)
    · exact .inl (by simp [Memory.deployed, hj, hr])
  | created hres =>
    have hne : fresh (m.issued + 1) ≠ id := by
      rintro rfl
      exact hf.unmentioned _ (Nat.lt_succ_self _) (.inl (OrderedMap.mem_keys_of_get? hr))
    exact .inl (by simp [Memory.created, hne, hr])
  | @destroyed j q hq href =>
    by_cases hj : j = id
    · subst hj
      cases hq.symm.trans hr
      exact .inr (.inl ⟨rfl, Inventory.get?_remove.trans (if_pos rfl)⟩)
    · exact .inl (by simp [Memory.destroyed, hj, hr])
  | tagged => exact .inl hr

theorem integral (h : m.Effect fresh c out) (hf : m.Fresh fresh) (hm : m.inventory.Integral) :
    out.2.inventory.Integral := by
  cases h with
  | kept hv hi hk => exact hv ▸ hm
  | deployed hr hs => exact hm.resembles (.of_withStatus hr _)
  | created hres =>
    refine hm.put ?_ (by simp) ?_
    · exact OrderedMap.get?_eq_none_iff.2 fun hk =>
        hf.unmentioned _ (Nat.lt_succ_self _) (.inl hk)
    · exact Inventory.resolves_withStatus.2 (Inventory.resolves_withIdentifier.2 hres)
  | destroyed hr href => exact hm.remove href
  | tagged hr => exact hm.attach hr

theorem still_fresh (h : m.Effect fresh c out) (hf : m.Fresh fresh) : out.2.Fresh fresh := by
  cases h with
  | kept hv hi hk => exact hf.of_mentions hi fun _ hid => hv ▸ hid
  | deployed hr hs =>
    exact hf.of_mentions rfl fun _ => (Inventory.Resembles.of_withStatus hr _).mentions
  | created hres => exact hf.created hres
  | destroyed hr href => exact hf.of_mentions rfl fun _ => Inventory.mentions_of_remove
  | tagged hr =>
    exact hf.of_mentions rfl fun _ => Inventory.mentions_of_attach hr

end Effect

/-- What happens to a provider. -/
inductive Event
  | call (c : Call)
  /-- It misbehaves differently from now on. -/
  | configure (faults : Faults)

def undergo (fresh : Nat → Identifier) (m : Memory) : Event → Memory
  | .call c => ((provider fresh).answer c m).2
  | .configure faults => { m with faults }

/-- The provider after all that has happened to it. -/
def later (fresh : Nat → Identifier) (m : Memory) (es : List Event) : Memory :=
  es.foldl (undergo fresh) m

theorem undergo_integral (hf : m.Fresh fresh) (hm : m.inventory.Integral) (e : Event) :
    (m.undergo fresh e).Fresh fresh ∧ (m.undergo fresh e).inventory.Integral := by
  cases e with
  | call c => exact ⟨(m.effect fresh c).still_fresh hf, (m.effect fresh c).integral hf hm⟩
  | configure faults => exact ⟨hf.of_mentions rfl fun _ hid => hid, hm⟩

theorem later_integral (hf : m.Fresh fresh) (hm : m.inventory.Integral) (es : List Event) :
    (m.later fresh es).Fresh fresh ∧ (m.later fresh es).inventory.Integral := by
  induction es generalizing m with
  | nil => exact ⟨hf, hm⟩
  | cons e es ih =>
    obtain ⟨hf, hm⟩ := undergo_integral hf hm e
    exact ih hf hm

/-- Whatever happens to a provider, what it keeps stays consistent, and so it is with whatever it is
asked for next. If that fails nothing is changed. What is destroyed goes away with its entries in the
index, and nothing else does. An object that stays is changed only by a look at it while it is
progressing, and then in its status only. -/
theorem keeps_integrity (hf : m.Fresh fresh) (hm : m.inventory.Integral) (es : List Event) :
    let m' := m.later fresh es
    let ask (c : Call) := (provider fresh).answer c m'
    m'.Fresh fresh ∧ m'.inventory.Integral ∧
    (∀ c refusal, (ask c).1 = .error refusal → (ask c).2.inventory = m'.inventory) ∧
    (∀ kind id, (ask (.destroy kind id)).1 = .ok () →
      m'.inventory.Loses id (ask (.destroy kind id)).2.inventory) ∧
    ∀ c id r, m'.inventory.objects.get? id = some r →
      (ask c).2.inventory.objects.get? id = some r ∨
      (c = .destroy r.kind id ∧ (ask c).2.inventory.objects.get? id = none) ∨
      (c = .get r.kind id ∧ r.status = .progressing ∧
        ∃ status, (ask c).2.inventory.objects.get? id = some (r.withStatus status)) := by
  intro m' ask
  obtain ⟨hf, hm⟩ := later_integral hf hm es
  have heffect (c : Call) : m'.Effect fresh c (ask c) := m'.effect fresh c
  exact ⟨hf, hm, fun c _ hout => (heffect c).inventory_of_error hout,
    fun kind id hout => (heffect (.destroy kind id)).loses hout,
    fun c _ _ hr => (heffect c).get?_cases hf hr⟩

end Memory

namespace Sample

/-- The connection fails while a frontend is destroyed, which is then tried again. Its backend follows,
and another one is created and tagged. -/
def events : List Memory.Event :=
  [.configure { Faults.none with flakyDestroy := [⟨"f-1"⟩], readyAfterPolls := 2 },
    .call (.destroy .frontend ⟨"f-1"⟩), .call (.destroy .frontend ⟨"f-1"⟩),
    .call (.destroy .backend ⟨"b-1"⟩),
    .call (.create (.backend ⟨none, "new.web", ⟨"lb-1"⟩, .tcp, .tcp, .progressing⟩)),
    .call (.tag (.scattered 1) (.ofService "1")), .call (.get .backend (.scattered 1))]

end Sample

theorem sample_keeps_integrity :
    Sample.memory.Fresh .scattered ∧ Sample.memory.inventory.Integral ∧
    (Sample.memory.later .scattered Sample.events).inventory.Integral ∧
    (Sample.memory.later .scattered Sample.events).journal.destroyed = [⟨"f-1"⟩, ⟨"b-1"⟩] ∧
    (Sample.memory.later .scattered Sample.events).inventory.Loses ⟨"b-2"⟩
      ((Sample.memory.later .scattered Sample.events).destroy .backend ⟨"b-2"⟩).2.inventory := by
  have hf : Sample.memory.Fresh .scattered := Memory.fresh_scattered (by decide +kernel)
  have hm : Sample.memory.inventory.Integral := by decide +kernel
  obtain ⟨-, hintegral, -, hdestroyed, -⟩ := Memory.keeps_integrity hf hm Sample.events
  exact ⟨hf, hm, hintegral, by decide +kernel, hdestroyed .backend ⟨"b-2"⟩ (by decide +kernel)⟩

end BalancerSync
