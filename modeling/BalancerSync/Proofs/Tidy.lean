import BalancerSync.Engine.Creation
import BalancerSync.Proofs.Layout
import BalancerSync.Proofs.Memory

namespace BalancerSync

namespace Inventory

variable {v v' : Inventory} {tag : Tag} {lb lb' id j : Identifier} {r q : Resource}

/-- Every object is under its own identifier, which is not that of a load balancer, and all that it
refers to is there. What refers to a tagged object is tagged unless it is the loose one, and a
frontend is on the load balancer of its backend. -/
structure Closed (v : Inventory) (tag : Tag) (loose : Option Identifier) : Prop where
  stored : v.Stored
  resolved : ∀ id r, v.objects.get? id = some r → v.Resolves r
  apart : ∀ id r, v.objects.get? id = some r → id ∉ v.loadBalancers.keys
  tagged : ∀ id r j q, v.objects.get? id = some r → v.objects.get? j = some q → j ∈ r.references →
    v.Carries tag j → v.Carries tag id ∨ loose = some id
  placed : ∀ id f b, v.objects.get? id = some (.frontend f) →
    v.objects.get? f.defaultBackend = some (.backend b) → v.Carries tag f.defaultBackend →
    f.loadBalancer = b.loadBalancer

theorem Resolves.mono (h : v.Resolves r) (hl : v'.loadBalancers = v.loadBalancers)
    (hk : ∀ j ∈ r.references, ∀ k, v.kindOf? j = some k → v'.kindOf? j = some k) : v'.Resolves r := by
  cases r with
  | backend b =>
    rw [Resolves, hl]
    exact h
  | frontend f =>
    refine ⟨hl.symm ▸ h.1, kindOf?_eq_backend_iff.1 (hk _ ?_ _ (kindOf?_eq_backend_iff.2 h.2))⟩
    simp [Resource.references]
  | bind b =>
    exact kindOf?_eq_frontend_iff.1 (hk _ (by simp [Resource.references]) _
      (kindOf?_eq_frontend_iff.2 h))
  | server s =>
    exact kindOf?_eq_backend_iff.1 (hk _ (by simp [Resource.references]) _
      (kindOf?_eq_backend_iff.2 h))

theorem Resolves.put (h : v.Resolves r) (hnone : v.objects.get? id = none) :
    (v.put id q).Resolves r := by
  refine h.mono rfl fun j _ k hk => ?_
  have hj : id ≠ j := by
    rintro rfl
    simp [kindOf?, hnone] at hk
  rwa [kindOf?, get?_put, if_neg hj]

theorem Resolves.remove (h : v.Resolves r) (hid : id ∉ r.references) : (v.remove id).Resolves r := by
  refine h.mono rfl fun j hj k hk => ?_
  have hne : id ≠ j := by
    rintro rfl
    exact hid hj
  rwa [kindOf?, get?_remove, if_neg hne]

theorem Resolves.attach (h : v.Resolves r) : (v.attach id tag).Resolves r :=
  h.mono rfl fun _ _ _ hk => hk

theorem resolves_bare : v.Resolves r.bare ↔ v.Resolves r := by cases r <;> rfl

theorem resolves_withIdentifier : v.Resolves (r.withIdentifier id) ↔ v.Resolves r := by
  cases r <;> rfl

theorem resolves_withStatus {status : Status} : v.Resolves (r.withStatus status) ↔ v.Resolves r := by
  cases r <;> rfl

theorem get?_of_get?_remove (h : (v.remove id).objects.get? j = some r) :
    j ≠ id ∧ v.objects.get? j = some r := by
  rw [get?_remove] at h
  split at h
  · cases h
  next hj => exact ⟨Ne.symm hj, h⟩

/-- What is referred to is a load balancer or an object. -/
theorem Resolves.references (h : v.Resolves r) (hj : j ∈ r.references) :
    j ∈ v.loadBalancers.keys ∨ ∃ q, v.objects.get? j = some q := by
  cases r <;> simp only [Resource.references, List.mem_cons, List.not_mem_nil, or_false] at hj
  · exact .inl (hj ▸ h)
  · rcases hj with rfl | rfl
    · exact .inl h.1
    · exact .inr (h.2.imp' _ fun _ hb => hb)
  · exact .inr (hj ▸ h.imp' _ fun _ hf => hf)
  · exact .inr (hj ▸ h.imp' _ fun _ hb => hb)

/-- An object that refers to another one is of higher rank. -/
theorem Resolves.rank_lt (h : v.Resolves r) (hj : j ∈ r.references) (hlb : j ∉ v.loadBalancers.keys)
    (hq : v.objects.get? j = some q) : q.kind.rank < r.kind.rank := by
  cases r <;> simp only [Resource.references, List.mem_cons, List.not_mem_nil, or_false] at hj
  · subst hj
    exact absurd h hlb
  · rcases hj with rfl | rfl
    · exact absurd h.1 hlb
    · obtain ⟨b, hb⟩ := h.2
      cases hb.symm.trans hq
      exact Nat.zero_lt_one
  · obtain ⟨f, hf⟩ := h
    subst hj
    cases hf.symm.trans hq
    exact Nat.one_lt_two
  · obtain ⟨b, hb⟩ := h
    subst hj
    cases hb.symm.trans hq
    exact Nat.zero_lt_two

/-- A tagged object belongs to one load balancer only. -/
theorem eq_of_belongsTo (h : v.belongsTo tag lb r = true) (h' : v.belongsTo tag lb' r = true) :
    lb = lb' := by
  cases r with
  | backend b => exact (of_decide_eq_true h).symm.trans (of_decide_eq_true h')
  | frontend f => exact (of_decide_eq_true h).symm.trans (of_decide_eq_true h')
  | bind b =>
    obtain ⟨f, hf, -, rfl⟩ := hasFrontend_iff.1 h
    obtain ⟨f', hf', -, rfl⟩ := hasFrontend_iff.1 h'
    cases hf.symm.trans hf'
    rfl
  | server s =>
    obtain ⟨b, hb, -, rfl⟩ := hasBackend_iff.1 h
    obtain ⟨b', hb', -, rfl⟩ := hasBackend_iff.1 h'
    cases hb.symm.trans hb'
    rfl

theorem belongsTo_withIdentifier : v.belongsTo tag lb (r.withIdentifier id) = v.belongsTo tag lb r := by
  cases r <;> rfl

theorem belongsTo_withStatus {status : Status} :
    v.belongsTo tag lb (r.withStatus status) = v.belongsTo tag lb r := by
  cases r <;> rfl

/-- Whether a resource belongs to a load balancer is up to the objects that it refers to. -/
theorem belongsTo_congr_of_references
    (hc : ∀ j ∈ r.references, v'.Carries tag j ↔ v.Carries tag j)
    (ho : ∀ j ∈ r.references, v.Carries tag j → v'.objects.get? j = v.objects.get? j) :
    v'.belongsTo tag lb r = v.belongsTo tag lb r := by
  cases r with
  | backend b => rfl
  | frontend f => rfl
  | bind b =>
    have hmem : b.frontend ∈ (Resource.bind b).references := List.mem_cons_self
    rw [Bool.eq_iff_iff]
    simp only [belongsTo, hasFrontend_iff, hc _ hmem]
    refine exists_congr fun f => ?_
    constructor <;> rintro ⟨hf, ht, hlb⟩ <;> exact ⟨by simpa [ho _ hmem ht] using hf, ht, hlb⟩
  | server s =>
    have hmem : s.backend ∈ (Resource.server s).references := List.mem_cons_self
    rw [Bool.eq_iff_iff]
    simp only [belongsTo, hasBackend_iff, hc _ hmem]
    refine exists_congr fun b => ?_
    constructor <;> rintro ⟨hb, ht, hlb⟩ <;> exact ⟨by simpa [ho _ hmem ht] using hb, ht, hlb⟩

theorem get?_put_of_carries (hid : ¬ v.Carries tag id) (hj : v.Carries tag j) :
    (v.put id q).objects.get? j = v.objects.get? j := by
  rw [get?_put, if_neg]
  rintro rfl
  exact hid hj

theorem belongsTo_put (hid : ¬ v.Carries tag id) (r : Resource) :
    (v.put id q).belongsTo tag lb r = v.belongsTo tag lb r :=
  belongsTo_congr_of_references (fun _ _ => carries_put) fun _ _ hj => get?_put_of_carries hid hj

/-- An object without the tag makes no difference. -/
theorem owns_put_iff (hid : ¬ v.Carries tag id) :
    (v.put id q).Owns tag lb j r ↔ v.Owns tag lb j r := by
  rw [Owns, Owns, carries_put, belongsTo_put hid]
  constructor <;> rintro ⟨hr, ht, hlb⟩ <;>
    exact ⟨by simpa only [get?_put_of_carries hid ht] using hr, ht, hlb⟩

theorem belongsTo_attach (href : ∀ i p, v.objects.get? i = some p → id ∉ p.references)
    (hr : v.objects.get? j = some r) :
    (v.attach id tag).belongsTo tag lb r = v.belongsTo tag lb r := by
  refine belongsTo_congr_of_references (fun i hi => ?_) fun _ _ _ => rfl
  rw [carries_attach]
  refine or_iff_right ?_
  rintro ⟨-, rfl⟩
  exact href j r hr hi

/-- An object that nothing refers to belongs to a load balancer as soon as it is tagged. -/
theorem owns_attach_iff (href : ∀ i p, v.objects.get? i = some p → id ∉ p.references) :
    (v.attach id tag).Owns tag lb j r ↔ v.Owns tag lb j r ∨
      (j = id ∧ v.objects.get? id = some r ∧ v.belongsTo tag lb r = true) := by
  rw [Owns, Owns, get?_attach, carries_attach]
  constructor
  · rintro ⟨hr, ⟨-, rfl⟩ | ht, hlb⟩
    · exact .inr ⟨rfl, hr, belongsTo_attach href hr ▸ hlb⟩
    · exact .inl ⟨hr, ht, belongsTo_attach href hr ▸ hlb⟩
  · rintro (⟨hr, ht, hlb⟩ | ⟨rfl, hr, hlb⟩)
    · exact ⟨hr, .inr ht, (belongsTo_attach href hr).symm ▸ hlb⟩
    · exact ⟨hr, .inl ⟨rfl, rfl⟩, (belongsTo_attach href hr).symm ▸ hlb⟩

theorem belongsTo_remove (href : ∀ i p, v.objects.get? i = some p → id ∉ p.references)
    (hr : v.objects.get? j = some r) : (v.remove id).belongsTo tag lb r = v.belongsTo tag lb r := by
  have hne {i : Identifier} (hi : i ∈ r.references) : id ≠ i := by
    rintro rfl
    exact href j r hr hi
  refine belongsTo_congr_of_references (fun i hi => ?_) fun i hi _ => ?_
  · rw [carries_remove]
    exact and_iff_right (hne hi).symm
  · rw [get?_remove, if_neg (hne hi)]

/-- When an object that nothing refers to is taken away the others still belong where they did. -/
theorem owns_remove_iff (href : ∀ i p, v.objects.get? i = some p → id ∉ p.references) :
    (v.remove id).Owns tag lb j r ↔ j ≠ id ∧ v.Owns tag lb j r := by
  rw [Owns, Owns, get?_remove, carries_remove]
  by_cases hj : id = j
  · simp [hj]
  · rw [if_neg hj]
    constructor
    · rintro ⟨hr, ⟨hji, ht⟩, hlb⟩
      exact ⟨hji, hr, ht, belongsTo_remove href hr ▸ hlb⟩
    · rintro ⟨hji, hr, ht, hlb⟩
      exact ⟨hr, ⟨hji, ht⟩, (belongsTo_remove href hr).symm ▸ hlb⟩

/-- What refers to an object of a load balancer belongs there as well if it is tagged. -/
theorem Closed.belongsTo_of_references {loose : Option Identifier} (h : v.Closed tag loose)
    (hr : v.Owns tag lb id r) (hq : v.objects.get? j = some q) (href : id ∈ q.references) :
    v.belongsTo tag lb q = true := by
  have hlb := h.apart id r hr.1
  have hres := h.resolved j q hq
  cases q <;> simp only [Resource.references, List.mem_cons, List.not_mem_nil, or_false] at href
  · subst href
    exact absurd hres hlb
  · next f =>
    rcases href with rfl | rfl
    · exact absurd hres.1 hlb
    · obtain ⟨b, hb⟩ := hres.2
      cases hb.symm.trans hr.1
      have hb := of_decide_eq_true hr.2.2
      exact decide_eq_true ((h.placed j f b hq hr.1 hr.2.1).trans hb)
  · obtain ⟨f, hf⟩ := hres
    subst href
    cases hf.symm.trans hr.1
    exact hr.frontend
  · obtain ⟨b, hb⟩ := hres
    subst href
    cases hb.symm.trans hr.1
    exact hr.backend

/-- Closedness, as it is checked object by object. -/
theorem closed_iff {loose : Option Identifier} : v.Closed tag loose ↔ v.Stored ∧
    ∀ e ∈ v.objects.entries, v.checkReferences e.2 = .ok () ∧ e.1 ∉ v.loadBalancers.keys ∧
      ∀ d ∈ v.objects.entries, d.1 ∈ e.2.references → v.Carries tag d.1 →
        (v.Carries tag e.1 ∨ loose = some e.1) ∧
        ∀ lb ∈ v.loadBalancers.keys, v.belongsTo tag lb d.2 = true → v.belongsTo tag lb e.2 = true := by
  constructor
  · refine fun h => ⟨h.stored, fun e he => ?_⟩
    have he := OrderedMap.get?_eq_some_iff.2 he
    refine ⟨checkReferences_eq_ok_iff.2 (h.resolved _ _ he), h.apart _ _ he, fun d hd href ht => ?_⟩
    have hd := OrderedMap.get?_eq_some_iff.2 hd
    exact ⟨h.tagged _ _ _ _ he hd href ht, fun lb _ hb =>
      h.belongsTo_of_references ⟨hd, ht, hb⟩ he href⟩
  · rintro ⟨hstored, h⟩
    have hentry (id : Identifier) (r : Resource) (hr : v.objects.get? id = some r) :=
      h (id, r) (OrderedMap.get?_eq_some_iff.1 hr)
    have hresolved (id : Identifier) (r : Resource) (hr : v.objects.get? id = some r) :
        v.Resolves r := checkReferences_eq_ok_iff.1 (hentry id r hr).1
    refine ⟨hstored, hresolved, fun id r hr => (hentry id r hr).2.1, ?_, fun id f b hf hb ht => ?_⟩
    · intro id r j q hr hq href ht
      exact ((hentry id r hr).2.2 (j, q) (OrderedMap.get?_eq_some_iff.1 hq) href ht).1
    · have href : f.defaultBackend ∈ (Resource.frontend f).references := by simp [Resource.references]
      refine of_decide_eq_true (((hentry id _ hf).2.2 (f.defaultBackend, .backend b)
        (OrderedMap.get?_eq_some_iff.1 hb) href ht).2 b.loadBalancer (hresolved _ _ hb) ?_)
      exact decide_eq_true rfl

instance {loose : Option Identifier} : Decidable (v.Closed tag loose) :=
  decidable_of_iff _ closed_iff.symm

theorem Closed.put (h : v.Closed tag none) (hid : ¬ v.Mentions id) (hq : q.identifier = some id)
    (hres : v.Resolves q)
    (hplaced : ∀ f b, q = .frontend f → v.objects.get? f.defaultBackend = some (.backend b) →
      v.Carries tag f.defaultBackend → f.loadBalancer = b.loadBalancer) :
    (v.put id q).Closed tag (some id) := by
  have hnone : v.objects.get? id = none := OrderedMap.get?_eq_none_iff.2 fun hk => hid (.inl hk)
  have hcarry : ¬ v.Carries tag id := fun hc => hid (.inr (.inr (.inl ⟨tag, hc⟩)))
  have hget {i : Identifier} {p : Resource} (hp : (v.put id q).objects.get? i = some p) :
      (i = id ∧ p = q) ∨ (i ≠ id ∧ v.objects.get? i = some p) := by
    rw [get?_put] at hp
    split at hp
    next hi => exact .inl ⟨hi.symm, (Option.some.inj hp).symm⟩
    next hi => exact .inr ⟨Ne.symm hi, hp⟩
  have hres' {i : Identifier} {p : Resource} (hp : (v.put id q).objects.get? i = some p) :
      v.Resolves p := by
    rcases hget hp with ⟨rfl, rfl⟩ | ⟨-, hp⟩
    · exact hres
    · exact h.resolved i p hp
  refine ⟨h.stored.put hq, fun i p hp => (hres' hp).put hnone, ?_, ?_, ?_⟩
  · intro i p hp hlb
    rcases hget hp with ⟨rfl, rfl⟩ | ⟨-, hp⟩
    · exact hid (.inr (.inl hlb))
    · exact h.apart i p hp hlb
  · intro i p j t hp ht hj hc
    rcases hget hp with ⟨rfl, rfl⟩ | ⟨-, hp⟩
    · exact .inr rfl
    · rcases hget ht with ⟨rfl, rfl⟩ | ⟨-, ht⟩
      · exact absurd hc hcarry
      · exact .inl ((h.tagged i p j t hp ht hj hc).resolve_right fun hl => by cases hl)
  · intro i f b hf hb hc
    rcases hget hb with ⟨heq, -⟩ | ⟨-, hb⟩
    · exact absurd (heq ▸ hc) hcarry
    · rcases hget hf with ⟨-, hf⟩ | ⟨-, hf⟩
      · exact hplaced f b hf.symm hb hc
      · exact h.placed i f b hf hb hc

theorem Closed.remove {loose : Option Identifier} (h : v.Closed tag loose)
    (href : ∀ i p, v.objects.get? i = some p → id ∉ p.references) :
    (v.remove id).Closed tag loose := by
  refine ⟨h.stored.remove, ?_, fun i p hp => h.apart i p (get?_of_get?_remove hp).2, ?_, ?_⟩
  · intro i p hp
    have hp := (get?_of_get?_remove hp).2
    exact (h.resolved i p hp).remove (href i p hp)
  · intro i p j t hp ht hj hc
    obtain ⟨hi, hp⟩ := get?_of_get?_remove hp
    rcases h.tagged i p j t hp (get?_of_get?_remove ht).2 hj (carries_remove.1 hc).2 with ht | ht
    · exact .inl (carries_remove.2 ⟨hi, ht⟩)
    · exact .inr ht
  · intro i f b hf hb hc
    exact h.placed i f b (get?_of_get?_remove hf).2 (get?_of_get?_remove hb).2
      (carries_remove.1 hc).2

theorem Closed.attach (h : v.Closed tag (some id))
    (href : ∀ i p, v.objects.get? i = some p → id ∉ p.references) :
    (v.attach id tag).Closed tag none := by
  refine ⟨h.stored, fun i p hp => (h.resolved i p hp).attach, h.apart, ?_, ?_⟩
  · intro i p j t hp ht hj hc
    have hne : j ≠ id := by
      rintro rfl
      exact href i p hp hj
    have hc := (carries_attach.1 hc).resolve_left fun h => hne h.2
    rcases h.tagged i p j t hp ht hj hc with hi | hi
    · exact .inl (carries_attach.2 (.inr hi))
    · exact .inl (carries_attach.2 (.inl ⟨rfl, (Option.some.inj hi).symm⟩))
  · intro i f b hf hb hc
    refine h.placed i f b hf hb ((carries_attach.1 hc).resolve_left ?_)
    rintro ⟨-, heq⟩
    exact href i _ hf (by simp [Resource.references, heq])

theorem mentions_of_put (hres : v.Resolves q) (h : (v.put id q).Mentions j) :
    v.Mentions j ∨ j = id := by
  rcases h with hk | hl | hc | ⟨i, p, hp, hj⟩
  · rcases OrderedMap.mem_keys_insert.1 hk with hk | hk
    · exact .inr hk
    · exact .inl (.inl hk)
  · exact .inl (.inr (.inl hl))
  · exact .inl (.inr (.inr (.inl hc)))
  · rw [get?_put] at hp
    split at hp
    · cases hp
      rcases hres.references hj with hj | ⟨t, ht⟩
      · exact .inl (.inr (.inl hj))
      · exact .inl (.inl (OrderedMap.mem_keys_of_get? ht))
    · exact .inl (.inr (.inr (.inr ⟨i, p, hp, hj⟩)))

theorem mentions_of_remove (h : (v.remove id).Mentions j) : v.Mentions j := by
  rcases h with hk | hl | ⟨tag, hc⟩ | ⟨i, p, hp, hj⟩
  · exact .inl (OrderedMap.mem_keys_erase.1 hk).2
  · exact .inr (.inl hl)
  · exact .inr (.inr (.inl ⟨tag, (carries_remove.1 hc).2⟩))
  · rw [get?_remove] at hp
    split at hp
    · cases hp
    · exact .inr (.inr (.inr ⟨i, p, hp, hj⟩))

theorem mentions_of_attach (hid : v.objects.get? id = some r) (h : (v.attach id tag).Mentions j) :
    v.Mentions j := by
  rcases h with hk | hl | ⟨tag', hc⟩ | hr
  · exact .inl hk
  · exact .inr (.inl hl)
  · rcases carries_attach.1 hc with ⟨-, rfl⟩ | hc
    · exact .inl (OrderedMap.mem_keys_of_get? hid)
    · exact .inr (.inr (.inl ⟨tag', hc⟩))
  · exact .inr (.inr (.inr hr))

namespace Resembles

variable {loose : Option Identifier}

theorem closed (h : v.Resembles v') (hv : v.Closed tag loose) : v'.Closed tag loose := by
  have hget {i : Identifier} {p : Resource} (hp : v'.objects.get? i = some p) :
      ∃ p', v.objects.get? i = some p' ∧ p.bare = p'.bare := by
    obtain ⟨p', hp', hb, -⟩ := h.symm.exists_get? hp
    exact ⟨p', hp', hb.symm⟩
  have href {p p' : Resource} (hb : p.bare = p'.bare) : p.references = p'.references := by
    rw [← Resource.references_bare p, hb, Resource.references_bare]
  refine ⟨h.stored hv.stored, ?_, ?_, ?_, ?_⟩
  · intro i p hp
    obtain ⟨p', hp', hb⟩ := hget hp
    have hres := resolves_bare.2 (hv.resolved i p' hp')
    rw [← hb, resolves_bare] at hres
    exact hres.mono h.loadBalancers fun j _ k hk => h.kindOf?_eq.trans hk
  · intro i p hp
    obtain ⟨p', hp', -⟩ := hget hp
    rw [h.loadBalancers]
    exact hv.apart i p' hp'
  · intro i p j t hp ht hj hc
    obtain ⟨p', hp', hb⟩ := hget hp
    obtain ⟨t', ht', -⟩ := hget ht
    rw [h.carries_iff] at hc ⊢
    exact hv.tagged i p' j t' hp' ht' (href hb ▸ hj) hc
  · intro i f b hf hb hc
    obtain ⟨f', hf', hff⟩ := hget hf
    obtain ⟨b', hb', hbb⟩ := hget hb
    cases f' <;> simp only [Resource.bare, reduceCtorEq] at hff
    cases b' <;> simp only [Resource.bare, reduceCtorEq] at hbb
    next f' b' =>
      have hlb := congrArg Frontend.loadBalancer (Resource.frontend.inj hff)
      have hdefault := congrArg Frontend.defaultBackend (Resource.frontend.inj hff)
      have hlb' := congrArg Backend.loadBalancer (Resource.backend.inj hbb)
      dsimp only at hlb hdefault hlb'
      rw [hlb, hlb']
      rw [hdefault] at hb' hc
      exact hv.placed i f' b' hf' hb' (h.carries_iff.1 hc)

theorem mentions (h : v.Resembles v') (hid : v'.Mentions id) : v.Mentions id := by
  rcases hid with hk | hl | ⟨tag', hc⟩ | ⟨i, p, hp, hj⟩
  · obtain ⟨p, hp⟩ := OrderedMap.mem_keys_iff.1 hk
    obtain ⟨p', hp', -⟩ := h.symm.exists_get? hp
    exact .inl (OrderedMap.mem_keys_of_get? hp')
  · exact .inr (.inl (h.loadBalancers ▸ hl))
  · exact .inr (.inr (.inl ⟨tag', h.carries_iff.1 hc⟩))
  · obtain ⟨p', hp', hb, -⟩ := h.symm.exists_get? hp
    refine .inr (.inr (.inr ⟨i, p', hp', ?_⟩))
    rwa [← Resource.references_bare, hb, Resource.references_bare]

theorem not_mem_references (h : v.Resembles v')
    (href : ∀ i p, v.objects.get? i = some p → id ∉ p.references) (i : Identifier) (p : Resource)
    (hp : v'.objects.get? i = some p) : id ∉ p.references := by
  obtain ⟨p', hp', hb, -⟩ := h.symm.exists_get? hp
  rw [← Resource.references_bare, ← hb, Resource.references_bare]
  exact href i p' hp'

end Resembles

end Inventory

namespace Memory

variable {fresh : Nat → Identifier} {steps : Nat} {tag : Tag} {m m' : Memory} {lb id j : Identifier}
  {pending : Option Identifier} {r q : Resource} {kind : Kind}

/-- A look at an object does not matter to a load balancer that the object does not belong to. -/
theorem Got.owns_iff {out : Except Refusal Resource × Memory} (h : m.Got kind id out)
    (ht : m.inventory.Carries tag id) (hid : ∀ q, ¬ m.inventory.Owns tag lb id q) :
    out.2.inventory.Owns tag lb j r ↔ m.inventory.Owns tag lb j r := by
  have hp := h.polled ht
  constructor
  · intro hr
    obtain ⟨q, hq, -⟩ := hp.owns_of_owns hr
    have hj : id ≠ j := by
      rintro rfl
      exact hid q hq
    rwa [← hq.1.symm.trans ((h.get?_of_ne hj).symm.trans hr.1) |> Option.some.inj]
  · intro hr
    obtain ⟨q, hq, -⟩ := hp.exists_owns hr
    have hj : id ≠ j := by
      rintro rfl
      exact hid r hr
    cases hr.1.symm.trans ((h.get?_of_ne hj).symm.trans hq.1)
    exact hq

/-- The identifiers that are still to be given out are new, and different from each other. -/
structure Fresh (fresh : Nat → Identifier) (m : Memory) : Prop where
  unmentioned : ∀ n, m.issued < n → ¬ m.inventory.Mentions (fresh n)
  distinct : ∀ n n', m.issued < n → m.issued < n' → fresh n = fresh n' → n = n'

theorem Fresh.of_mentions (h : m.Fresh fresh) (hi : m'.issued = m.issued)
    (hm : ∀ id, m'.inventory.Mentions id → m.inventory.Mentions id) : m'.Fresh fresh where
  unmentioned n hn hid := h.unmentioned n (hi ▸ hn) (hm _ hid)
  distinct n n' hn hn' heq := h.distinct n n' (hi ▸ hn) (hi ▸ hn') heq

theorem Fresh.created (h : m.Fresh fresh) (hr : m.inventory.Resolves r) :
    (m.created fresh r).Fresh fresh where
  unmentioned n hn hid := by
    have hlt : m.issued < n := Nat.lt_of_succ_lt hn
    have hres : m.inventory.Resolves ((r.withIdentifier (fresh (m.issued + 1))).withStatus
        (if m.faults.readyAfterPolls = 0 then m.faults.finalStatus r.name else .progressing)) :=
      Inventory.resolves_withStatus.2 (Inventory.resolves_withIdentifier.2 hr)
    rcases Inventory.mentions_of_put hres hid with hid | heq
    · exact h.unmentioned n hlt hid
    · exact absurd (h.distinct n _ hlt (Nat.lt_succ_self _) heq) (Nat.ne_of_gt hn)
  distinct n n' hn hn' heq :=
    h.distinct n n' (Nat.lt_of_succ_lt hn) (Nat.lt_of_succ_lt hn') heq

end Memory

/-- No misbehaviour but that objects are not deployed before they have been looked at a few times,
and that an empty listing may be refused. -/
def Faults.Harmless (f : Faults) (steps : Nat) : Prop :=
  f = { Faults.none with
    readyAfterPolls := f.readyAfterPolls
    unprocessableEmptyListing := f.unprocessableEmptyListing } ∧ f.readyAfterPolls ≤ steps + 1

instance {f : Faults} {steps : Nat} : Decidable (f.Harmless steps) := inferInstanceAs (Decidable (_ ∧ _))

theorem Faults.Harmless.finalStatus {f : Faults} {steps : Nat} (h : f.Harmless steps)
    (name : String) : f.finalStatus name = .ready false := by
  rw [h.1]
  rfl

/-- A provider that is closed up to the object that is to be tagged next. -/
structure Memory.Whole (fresh : Nat → Identifier) (tag : Tag) (m : Memory)
    (pending : Option Identifier) : Prop where
  closed : m.inventory.Closed tag pending
  fresh : m.Fresh fresh
  loose : ∀ id, pending = some id → (∃ r, m.inventory.objects.get? id = some r) ∧
    ¬ m.inventory.Carries tag id ∧ ∀ j r, m.inventory.objects.get? j = some r → id ∉ r.references

/-- A harmless provider that is closed up to the object that is to be tagged next. -/
structure Memory.Tidy (fresh : Nat → Identifier) (steps : Nat) (tag : Tag) (m : Memory)
    (pending : Option Identifier) : Prop where
  closed : m.inventory.Closed tag pending
  harmless : m.faults.Harmless steps
  fresh : m.Fresh fresh
  loose : ∀ id, pending = some id → (∃ r, m.inventory.objects.get? id = some r) ∧
    ¬ m.inventory.Carries tag id ∧ ∀ j r, m.inventory.objects.get? j = some r → id ∉ r.references

/-- What belongs to the load balancer and the service. -/
abbrev Layout.Owns (l : Layout) (m : Memory) (id : Identifier) (r : Resource) : Prop :=
  m.inventory.Owns l.service.tag l.loadBalancer id r

namespace Layout

variable {l : Layout} {m : Memory} {r : Resource}

theorem Wants.resolves (h : l.Wants (l.Owns m) r)
    (hlb : l.loadBalancer ∈ m.inventory.loadBalancers.keys) : m.inventory.Resolves r := by
  have hbackend {b : Backend} {id : Identifier} (hb : Holding.Has (l.Owns m) (.backend b) id) :
      ∃ b, m.inventory.objects.get? id = some (.backend b) := by
    obtain ⟨q, hq, hqb⟩ := hb
    cases q <;> simp only [Resource.bare, reduceCtorEq] at hqb
    exact ⟨_, hq.1⟩
  cases h with
  | backend hp => exact hlb
  | frontend hp hb => exact ⟨hlb, hbackend hb⟩
  | bind hp ha hb hf =>
    obtain ⟨q, hq, hqf⟩ := hf
    cases q <;> simp only [Resource.bare, reduceCtorEq] at hqf
    exact ⟨_, hq.1⟩
  | server hp he hb => exact hbackend hb

theorem Wants.belongsTo (h : l.Wants (l.Owns m) r) :
    m.inventory.belongsTo l.service.tag l.loadBalancer r = true := by
  cases h with
  | backend hp => exact decide_eq_true rfl
  | frontend hp hb => exact decide_eq_true rfl
  | bind hp ha hb hf =>
    obtain ⟨q, hq, hqf⟩ := hf
    cases q <;> simp only [Resource.bare, reduceCtorEq] at hqf
    exact hq.frontend
  | server hp he hb =>
    obtain ⟨q, hq, hqb⟩ := hb
    cases q <;> simp only [Resource.bare, reduceCtorEq] at hqb
    exact hq.backend

/-- A wanted frontend is on the load balancer of its backend. -/
theorem Wants.placed {f : Frontend} {b : Backend} (h : l.Wants (l.Owns m) (.frontend f))
    (hb : m.inventory.objects.get? f.defaultBackend = some (.backend b)) :
    f.loadBalancer = b.loadBalancer := by
  cases h with
  | frontend hp hhas =>
    obtain ⟨q, hq, hqb⟩ := hhas
    cases hq.1.symm.trans hb
    exact (of_decide_eq_true hq.2.2).symm

end Layout

namespace Memory.Whole

variable {fresh : Nat → Identifier} {tag : Tag} {m m' : Memory} {id : Identifier}
  {pending : Option Identifier} {r : Resource}

theorem resembles (h : m.Whole fresh tag pending) (hv : m.inventory.Resembles m'.inventory)
    (hi : m'.issued = m.issued) : m'.Whole fresh tag pending where
  closed := hv.closed h.closed
  fresh := h.fresh.of_mentions hi fun _ => hv.mentions
  loose j hj := by
    obtain ⟨⟨r, hr⟩, hc, href⟩ := h.loose j hj
    obtain ⟨q, hq, -⟩ := hv.exists_get? hr
    exact ⟨⟨q, hq⟩, mt hv.carries_iff.1 hc, hv.not_mem_references href⟩

theorem unmentioned (h : m.Whole fresh tag pending) :
    ¬ m.inventory.Mentions (fresh (m.issued + 1)) := h.fresh.unmentioned _ (Nat.lt_succ_self _)

theorem not_carries (h : m.Whole fresh tag pending) (tag' : Tag) :
    ¬ m.inventory.Carries tag' (fresh (m.issued + 1)) := fun hc =>
  h.unmentioned (.inr (.inr (.inl ⟨_, hc⟩)))

/-- An object is created whose references are there. -/
theorem created (h : m.Whole fresh tag none) (hres : m.inventory.Resolves r)
    (hplaced : ∀ f b, r = .frontend f → m.inventory.objects.get? f.defaultBackend = some (.backend b) →
      f.loadBalancer = b.loadBalancer) :
    (m.created fresh r).Whole fresh tag (some (fresh (m.issued + 1))) := by
  have hid := h.unmentioned
  refine ⟨h.closed.put hid (by simp) ?_ ?_, h.fresh.created hres, ?_⟩
  · exact Inventory.resolves_withStatus.2 (Inventory.resolves_withIdentifier.2 hres)
  · intro f b hf hb hc
    cases r <;> simp only [Resource.withIdentifier, Resource.withStatus, reduceCtorEq] at hf
    next f' =>
      cases hf
      exact hplaced f' b rfl hb
  · intro j hj
    cases hj
    refine ⟨⟨_, Inventory.get?_put.trans (if_pos rfl)⟩, h.not_carries tag, ?_⟩
    intro i p hp hj
    rw [Memory.created, Inventory.get?_put] at hp
    split at hp
    · cases hp
      rw [Resource.references_withStatus, Resource.references_withIdentifier] at hj
      rcases hres.references hj with hj | ⟨q, hq⟩
      · exact hid (.inr (.inl hj))
      · exact hid (.inl (OrderedMap.mem_keys_of_get? hq))
    · exact hid (.inr (.inr (.inr ⟨i, p, hp, hj⟩)))

theorem tagged (h : m.Whole fresh tag (some id)) : (m.tagged id tag).Whole fresh tag none := by
  obtain ⟨⟨r, hr⟩, -, href⟩ := h.loose id rfl
  exact ⟨h.closed.attach href, h.fresh.of_mentions rfl fun j => Inventory.mentions_of_attach hr, nofun⟩

/-- Another object that nothing refers to is destroyed. -/
theorem destroyed (h : m.Whole fresh tag pending) (hne : pending ≠ some id)
    (href : ∀ i p, m.inventory.objects.get? i = some p → id ∉ p.references) :
    (m.destroyed id).Whole fresh tag pending := by
  refine ⟨h.closed.remove href, h.fresh.of_mentions rfl fun j => Inventory.mentions_of_remove,
    fun j hj => ?_⟩
  obtain ⟨⟨r, hr⟩, hc, hrefj⟩ := h.loose j hj
  have hne : id ≠ j := by
    rintro rfl
    exact hne hj
  refine ⟨⟨r, ?_⟩, fun hc' => hc (Inventory.carries_remove.1 hc').2, fun i p hp => ?_⟩
  · rw [Memory.destroyed, Inventory.get?_remove, if_neg hne, hr]
  · rw [Memory.destroyed, Inventory.get?_remove] at hp
    split at hp
    · cases hp
    · exact hrefj i p hp

end Memory.Whole

namespace Memory.Tidy

variable {fresh : Nat → Identifier} {steps : Nat} {tag : Tag} {m m' : Memory} {id : Identifier}
  {pending : Option Identifier} {l : Layout} {r : Resource}

theorem whole (h : m.Tidy fresh steps tag pending) : m.Whole fresh tag pending :=
  ⟨h.closed, h.fresh, h.loose⟩

theorem of_whole (h : m.Whole fresh tag pending) (hf : m.faults.Harmless steps) :
    m.Tidy fresh steps tag pending := ⟨h.closed, hf, h.fresh, h.loose⟩

theorem polled (h : m.Tidy fresh steps tag pending) (hp : Polled tag m m') :
    m'.Tidy fresh steps tag pending :=
  of_whole (h.whole.resembles hp.resembles hp.issued) (hp.faults ▸ h.harmless)

theorem not_carries (h : m.Tidy fresh steps tag pending) (tag' : Tag) :
    ¬ m.inventory.Carries tag' (fresh (m.issued + 1)) := h.whole.not_carries tag'

theorem created (h : m.Tidy fresh steps l.service.tag none) (hr : l.Wants (l.Owns m) r)
    (hlb : l.loadBalancer ∈ m.inventory.loadBalancers.keys) :
    (m.created fresh r).Tidy fresh steps l.service.tag (some (fresh (m.issued + 1))) := by
  refine of_whole (h.whole.created (hr.resolves hlb) fun f b hf hb => ?_) h.harmless
  subst hf
  exact hr.placed hb

theorem tagged (h : m.Tidy fresh steps tag (some id)) : (m.tagged id tag).Tidy fresh steps tag none :=
  of_whole h.whole.tagged h.harmless

/-- An object that nothing refers to is destroyed. -/
theorem destroyed (h : m.Tidy fresh steps tag pending) (hne : pending ≠ some id)
    (href : ∀ i p, m.inventory.objects.get? i = some p → id ∉ p.references) :
    (m.destroyed id).Tidy fresh steps tag pending :=
  of_whole (h.whole.destroyed hne href) h.harmless

theorem create_eq (h : m.Tidy fresh steps tag pending) (hr : m.inventory.Resolves r) :
    m.create fresh r = (.ok (fresh (m.issued + 1)), m.created fresh r) := by
  have hcreated := m.wasCreated fresh r
  generalize m.create fresh r = out at hcreated
  cases hcreated with
  | refused refusal hrefused =>
    exfalso
    rcases hrefused with hname | hres
    · rw [h.harmless.1] at hname
      cases hname
    · exact hres hr
  | created hres => rfl

theorem tag_eq (h : m.Tidy fresh steps tag (some id)) :
    m.tag id tag = (.ok (), m.tagged id tag) := by
  have htagged := m.wasTagged id tag
  generalize m.tag id tag = out at htagged
  cases htagged with
  | refused refusal hrefused =>
    exfalso
    obtain ⟨⟨q, hq⟩, -⟩ := h.loose id rfl
    rcases hrefused with hf | hnone
    · rw [h.harmless.1] at hf
      cases hf
    · cases hq.symm.trans hnone
  | tagged => rfl

theorem destroy_eq (h : m.Tidy fresh steps tag pending) (hr : m.inventory.objects.get? id = some r)
    (href : ∀ i p, m.inventory.objects.get? i = some p → id ∉ p.references) :
    m.destroy r.kind id = (.ok (), m.destroyed id) := by
  have hf : ¬ m.refusesDestroy id := by
    rw [Memory.refusesDestroy, h.harmless.1]
    simp [Faults.none]
  rw [Memory.destroy_eq hf hr, Inventory.referrer?_eq_none_iff.2 href]

end Memory.Tidy

namespace Engine

variable {ranks : List Nat} {rs : List Resource} {r : Resource}

theorem mem_byRank_iff : r ∈ byRank ranks rs ↔ r.kind.rank ∈ ranks ∧ r ∈ rs := by
  simp only [byRank, List.mem_flatMap, List.mem_filter, decide_eq_true_eq]
  constructor
  · rintro ⟨rank, hrank, hr, rfl⟩
    exact ⟨hrank, hr⟩
  · rintro ⟨hrank, hr⟩
    exact ⟨_, hrank, hr, rfl⟩

theorem rank_le_two (k : Kind) : k.rank = 0 ∨ k.rank = 1 ∨ k.rank = 2 := by cases k <;> simp [Kind.rank]

theorem byRank_pairwise {R : Nat → Nat → Prop} (hR : ranks.Pairwise R) (hrefl : ∀ n, R n n)
    (rs : List Resource) : (byRank ranks rs).Pairwise fun r q => R r.kind.rank q.kind.rank := by
  refine List.pairwise_flatMap.2 ⟨fun rank _ => ?_, hR.imp fun h r hr q hq => ?_⟩
  · refine List.pairwise_of_forall_mem_list fun r hr q hq => ?_
    rw [of_decide_eq_true (List.mem_filter.1 hr).2, of_decide_eq_true (List.mem_filter.1 hq).2]
    exact hrefl rank
  · rw [of_decide_eq_true (List.mem_filter.1 hr).2, of_decide_eq_true (List.mem_filter.1 hq).2]
    exact h

theorem byRank_nodup (hranks : ranks.Nodup) (hrs : rs.Nodup) : (byRank ranks rs).Nodup := by
  refine List.nodup_flatMap.2 ⟨fun rank _ => hrs.filter _, hranks.imp fun hne r hr hq => hne ?_⟩
  exact (of_decide_eq_true (List.mem_filter.1 hr).2).symm.trans
    (of_decide_eq_true (List.mem_filter.1 hq).2)

theorem byRank_perm (hranks : ranks.Nodup) (hall : ∀ rank < 3, rank ∈ ranks) (hrs : rs.Nodup) :
    (byRank ranks rs).Perm rs := by
  apply (List.perm_ext_iff_of_nodup (byRank_nodup hranks hrs) hrs).2
  intro r
  rw [mem_byRank_iff]
  apply and_iff_right (hall _ _)
  rcases rank_le_two r.kind with h | h | h <;> omega

theorem byRank_descending (rs : List Resource) :
    (byRank [2, 1, 0] rs).Pairwise fun r q => q.kind.rank ≤ r.kind.rank :=
  byRank_pairwise (R := fun n n' => n' ≤ n) (by decide) Nat.le_refl rs

end Engine

end BalancerSync
