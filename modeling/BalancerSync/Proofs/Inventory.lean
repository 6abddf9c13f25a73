import BalancerSync.Inventory
import BalancerSync.Proofs.OrderedMap

namespace BalancerSync

namespace Resource

/-- The resource without an identifier, and progressing. -/
def bare : Resource → Resource
  | backend b => backend { b with identifier := none, status := .progressing }
  | frontend f => frontend { f with identifier := none, status := .progressing }
  | bind b => bind { b with identifier := none, status := .progressing }
  | server s => server { s with identifier := none, status := .progressing }

/-- The object that tells where the resource belongs, unless the resource does so itself. -/
def parent? : Resource → Option Identifier
  | backend _ | frontend _ => none
  | bind b => some b.frontend
  | server s => some s.backend

theorem mem_references_of_parent? {r : Resource} {id : Identifier} (h : r.parent? = some id) :
    id ∈ r.references := by
  cases r <;> cases h <;> exact List.mem_singleton.2 rfl

variable (r : Resource) (id : Identifier) (status : Status)

@[simp] theorem parent?_bare : r.bare.parent? = r.parent? := by cases r <;> rfl

@[simp] theorem kind_withIdentifier : (r.withIdentifier id).kind = r.kind := by cases r <;> rfl

@[simp] theorem kind_withStatus : (r.withStatus status).kind = r.kind := by cases r <;> rfl

@[simp] theorem name_withIdentifier : (r.withIdentifier id).name = r.name := by cases r <;> rfl

@[simp] theorem name_withStatus : (r.withStatus status).name = r.name := by cases r <;> rfl

@[simp] theorem identifier_withIdentifier : (r.withIdentifier id).identifier = some id := by
  cases r <;> rfl

@[simp] theorem identifier_withStatus : (r.withStatus status).identifier = r.identifier := by
  cases r <;> rfl

@[simp] theorem status_withIdentifier : (r.withIdentifier id).status = r.status := by cases r <;> rfl

@[simp] theorem status_bare : r.bare.status = .progressing := by cases r <;> rfl

@[simp] theorem status_withStatus : (r.withStatus status).status = status := by cases r <;> rfl

@[simp] theorem references_withIdentifier : (r.withIdentifier id).references = r.references := by
  cases r <;> rfl

@[simp] theorem references_withStatus : (r.withStatus status).references = r.references := by
  cases r <;> rfl

@[simp] theorem bare_withIdentifier : (r.withIdentifier id).bare = r.bare := by cases r <;> rfl

@[simp] theorem bare_withStatus : (r.withStatus status).bare = r.bare := by cases r <;> rfl

@[simp] theorem bare_bare : r.bare.bare = r.bare := by cases r <;> rfl

@[simp] theorem kind_bare : r.bare.kind = r.kind := by cases r <;> rfl

@[simp] theorem references_bare : r.bare.references = r.references := by cases r <;> rfl

@[simp] theorem withStatus_withStatus (status' : Status) :
    (r.withStatus status).withStatus status' = r.withStatus status' := by cases r <;> rfl

theorem eq_of_bare {r s : Resource} (hb : r.bare = s.bare) (hi : r.identifier = s.identifier)
    (hs : r.status = s.status) : r = s := by
  rcases r with ⟨⟨⟩⟩ | ⟨⟨⟩⟩ | ⟨⟨⟩⟩ | ⟨⟨⟩⟩ <;> rcases s with ⟨⟨⟩⟩ | ⟨⟨⟩⟩ | ⟨⟨⟩⟩ | ⟨⟨⟩⟩ <;>
    simp_all [bare, identifier, Resource.status]

end Resource

namespace Inventory

variable {v : Inventory} {id j : Identifier} {r : Resource} {tag : Tag} {lb : Identifier}

/-- Whether the tag is attached to the identifier. -/
def Carries (v : Inventory) (tag : Tag) (id : Identifier) : Prop := id ∈ v.taggedIds tag

instance : Decidable (v.Carries tag id) := inferInstanceAs (Decidable (_ ∈ _))

@[simp] theorem get?_put : (v.put id r).objects.get? j = if id = j then some r else v.objects.get? j :=
  OrderedMap.get?_insert ..

@[simp] theorem get?_remove :
    (v.remove id).objects.get? j = if id = j then none else v.objects.get? j :=
  OrderedMap.get?_erase ..

@[simp] theorem get?_attach : (v.attach id tag).objects.get? j = v.objects.get? j := rfl

@[simp] theorem loadBalancers_put : (v.put id r).loadBalancers = v.loadBalancers := rfl

@[simp] theorem loadBalancers_remove : (v.remove id).loadBalancers = v.loadBalancers := rfl

@[simp] theorem loadBalancers_attach : (v.attach id tag).loadBalancers = v.loadBalancers := rfl

theorem carries_iff : v.Carries tag id ↔ ∃ ids, v.tags.get? tag = some ids ∧ id ∈ ids.keys := by
  rw [Carries, taggedIds]
  cases v.tags.get? tag <;> simp

@[simp] theorem carries_put {id' : Identifier} :
    (v.put id r).Carries tag id' ↔ v.Carries tag id' := Iff.rfl

theorem carries_attach {tag' : Tag} {id' : Identifier} :
    (v.attach id tag).Carries tag' id' ↔ (tag' = tag ∧ id' = id) ∨ v.Carries tag' id' := by
  rw [carries_iff, carries_iff]
  by_cases ht : tag = tag'
  · subst ht
    cases h : v.tags.get? tag <;>
      simp [attach, h, OrderedMap.mem_keys_insert]
  · simp [attach, OrderedMap.get?_insert, ht, Ne.symm ht]

theorem carries_remove {id' : Identifier} :
    (v.remove id).Carries tag id' ↔ id' ≠ id ∧ v.Carries tag id' := by
  have h : ∀ ids, (v.remove id).tags.get? tag = some ids ↔
      (∃ old, v.tags.get? tag = some old ∧ old.erase id = ids) ∧ ids.isEmpty = false := by
    intro ids
    simp [remove, OrderedMap.get?_filter_eq_some_iff, OrderedMap.get?_mapValues]
  rw [carries_iff, carries_iff]
  constructor
  · rintro ⟨ids, hids, hid⟩
    obtain ⟨⟨old, hold, rfl⟩, -⟩ := (h ids).1 hids
    obtain ⟨hne, hold'⟩ := OrderedMap.mem_keys_erase.1 hid
    exact ⟨hne, old, hold, hold'⟩
  · rintro ⟨hne, old, hold, hid⟩
    have hmem : id' ∈ (old.erase id).keys := OrderedMap.mem_keys_erase.2 ⟨hne, hid⟩
    refine ⟨old.erase id, (h _).2 ⟨⟨old, hold, rfl⟩, ?_⟩, hmem⟩
    rw [← Bool.not_eq_true, OrderedMap.isEmpty_iff]
    exact fun hempty => hempty id' hmem

theorem mem_tagged_iff :
    (id, r) ∈ v.tagged tag ↔ v.Carries tag id ∧ v.objects.get? id = some r := by
  simp only [tagged, List.mem_filterMap, Option.map_eq_some_iff, Carries, Prod.mk.injEq]
  constructor
  · rintro ⟨_, hid, _, hr, rfl, rfl⟩
    exact ⟨hid, hr⟩
  · rintro ⟨hid, hr⟩
    exact ⟨id, hid, r, hr, rfl, rfl⟩

theorem taggedIds_nodup (v : Inventory) (tag : Tag) : (v.taggedIds tag).Nodup :=
  OrderedMap.keys_nodup _

theorem map_fst_filterMap (f : Identifier → Option Resource) (ids : List Identifier) :
    ((ids.filterMap fun id => (f id).map fun r => (id, r)).map (·.1)).Sublist ids := by
  induction ids with
  | nil => simp
  | cons id rest ih =>
    cases h : f id
    · simpa [h] using ih.cons id
    · simpa [h] using ih.cons_cons id

theorem tagged_ids_nodup (v : Inventory) (tag : Tag) : ((v.tagged tag).map (·.1)).Nodup :=
  (v.taggedIds_nodup tag).sublist (map_fst_filterMap v.objects.get? _)

theorem kindOf?_eq_some_iff {k : Kind} :
    v.kindOf? id = some k ↔ ∃ r, v.objects.get? id = some r ∧ r.kind = k := by
  simp [kindOf?]

theorem referrer?_eq_none_iff :
    v.referrer? id = none ↔ ∀ j r, v.objects.get? j = some r → id ∉ r.references := by
  simp only [referrer?, List.find?_eq_none, OrderedMap.mem_values_iff, decide_eq_true_eq]
  exact ⟨fun h j r hr => h r ⟨j, hr⟩, fun h r ⟨j, hr⟩ => h j r hr⟩

/-- All that a resource refers to is there and of the right kind. -/
def Resolves (v : Inventory) : Resource → Prop
  | .backend b => b.loadBalancer ∈ v.loadBalancers.keys
  | .frontend f =>
    f.loadBalancer ∈ v.loadBalancers.keys ∧ ∃ b, v.objects.get? f.defaultBackend = some (.backend b)
  | .bind b => ∃ f, v.objects.get? b.frontend = some (.frontend f)
  | .server s => ∃ b, v.objects.get? s.backend = some (.backend b)

theorem Resolves.exists_parent (h : v.Resolves r) (hj : r.parent? = some j) :
    ∃ p, v.objects.get? j = some p := by
  cases r <;> cases hj
  · obtain ⟨f, hf⟩ := h
    exact ⟨_, hf⟩
  · obtain ⟨b, hb⟩ := h
    exact ⟨_, hb⟩

theorem kindOf?_eq_backend_iff :
    v.kindOf? id = some .backend ↔ ∃ b, v.objects.get? id = some (.backend b) := by
  rw [kindOf?_eq_some_iff]
  constructor
  · rintro ⟨r, hr, hk⟩
    cases r <;> first | exact ⟨_, hr⟩ | cases hk
  · rintro ⟨b, hb⟩
    exact ⟨_, hb, rfl⟩

theorem kindOf?_eq_frontend_iff :
    v.kindOf? id = some .frontend ↔ ∃ f, v.objects.get? id = some (.frontend f) := by
  rw [kindOf?_eq_some_iff]
  constructor
  · rintro ⟨r, hr, hk⟩
    cases r <;> first | exact ⟨_, hr⟩ | cases hk
  · rintro ⟨b, hb⟩
    exact ⟨_, hb, rfl⟩

theorem requireLoadBalancer_eq_ok_iff (name : String) :
    v.requireLoadBalancer name lb = .ok () ↔ lb ∈ v.loadBalancers.keys := by
  rw [requireLoadBalancer, ← OrderedMap.contains_iff_mem_keys]
  split <;> simp_all

theorem requireObject_eq_ok_iff (name : String) {k : Kind} :
    v.requireObject name k id = .ok () ↔ v.kindOf? id = some k := by
  rw [requireObject]
  split <;> simp_all

theorem checkReferences_eq_ok_iff : v.checkReferences r = .ok () ↔ v.Resolves r := by
  cases r with
  | backend b => exact requireLoadBalancer_eq_ok_iff b.name
  | frontend f =>
    rw [Resolves, ← requireLoadBalancer_eq_ok_iff f.name, ← kindOf?_eq_backend_iff,
      ← requireObject_eq_ok_iff f.name, checkReferences]
    cases v.requireLoadBalancer f.name f.loadBalancer <;> simp [bind, Except.bind]
  | bind b => exact (requireObject_eq_ok_iff b.name).trans kindOf?_eq_frontend_iff
  | server s => exact (requireObject_eq_ok_iff s.name).trans kindOf?_eq_backend_iff

def hasBackend (v : Inventory) (tag : Tag) (lb id : Identifier) : Bool :=
  match v.objects.get? id with
  | some (.backend b) => v.Carries tag id ∧ b.loadBalancer = lb
  | _ => false

def hasFrontend (v : Inventory) (tag : Tag) (lb id : Identifier) : Bool :=
  match v.objects.get? id with
  | some (.frontend f) => v.Carries tag id ∧ f.loadBalancer = lb
  | _ => false

/-- Backends and frontends belong to the load balancer that they name, binds and servers to that of
their frontend or backend if it is tagged. -/
def belongsTo (v : Inventory) (tag : Tag) (lb : Identifier) : Resource → Bool
  | .backend b => b.loadBalancer = lb
  | .frontend f => f.loadBalancer = lb
  | .bind b => v.hasFrontend tag lb b.frontend
  | .server s => v.hasBackend tag lb s.backend

/-- The tagged objects that belong to a load balancer. -/
def share (v : Inventory) (tag : Tag) (lb : Identifier) : List (Identifier × Resource) :=
  (v.tagged tag).filter fun e => v.belongsTo tag lb e.2

/-- Whether an object is there, tagged, and belongs to a load balancer. -/
def Owns (v : Inventory) (tag : Tag) (lb id : Identifier) (r : Resource) : Prop :=
  v.objects.get? id = some r ∧ v.Carries tag id ∧ v.belongsTo tag lb r = true

theorem hasBackend_iff : v.hasBackend tag lb id = true ↔
    ∃ b, v.objects.get? id = some (.backend b) ∧ v.Carries tag id ∧ b.loadBalancer = lb := by
  rw [hasBackend]
  split
  next b h => simp [h]
  next h => simpa using fun b hb => absurd hb (h b)

theorem hasFrontend_iff : v.hasFrontend tag lb id = true ↔
    ∃ f, v.objects.get? id = some (.frontend f) ∧ v.Carries tag id ∧ f.loadBalancer = lb := by
  rw [hasFrontend]
  split
  next f h => simp [h]
  next h => simpa using fun f hf => absurd hf (h f)

theorem mem_share_iff : (id, r) ∈ v.share tag lb ↔ v.Owns tag lb id r := by
  rw [share, List.mem_filter, mem_tagged_iff, Owns]
  tauto

theorem share_ids_nodup (v : Inventory) (tag : Tag) (lb : Identifier) :
    ((v.share tag lb).map (·.1)).Nodup :=
  (v.tagged_ids_nodup tag).sublist (List.filter_sublist.map _)

theorem Owns.backend {b : Backend} (h : v.Owns tag lb id (.backend b)) :
    v.hasBackend tag lb id = true :=
  hasBackend_iff.2 ⟨b, h.1, h.2.1, by simpa [belongsTo] using h.2.2⟩

theorem Owns.frontend {f : Frontend} (h : v.Owns tag lb id (.frontend f)) :
    v.hasFrontend tag lb id = true :=
  hasFrontend_iff.2 ⟨f, h.1, h.2.1, by simpa [belongsTo] using h.2.2⟩

theorem tagged_increasing (v : Inventory) (tag : Tag) :
    (v.tagged tag).Pairwise fun e e' => e.1 < e'.1 := by
  refine List.pairwise_filterMap.2 ((OrderedMap.keys_increasing _).imp ?_)
  rintro id id' hlt e he e' he'
  obtain ⟨r, -, rfl⟩ := Option.map_eq_some_iff.1 he
  obtain ⟨r', -, rfl⟩ := Option.map_eq_some_iff.1 he'
  exact hlt

theorem share_increasing (v : Inventory) (tag : Tag) (lb : Identifier) :
    (v.share tag lb).Pairwise fun e e' => e.1 < e'.1 :=
  (v.tagged_increasing tag).filter _

/-- Lists in the order of their identifiers are told by what is in them. -/
theorem eq_of_increasing {α : Type} {es es' : List (Identifier × α)}
    (h : es.Pairwise fun e e' => e.1 < e'.1) (h' : es'.Pairwise fun e e' => e.1 < e'.1)
    (hmem : ∀ e, e ∈ es ↔ e ∈ es') : es = es' := by
  have _ : Std.Irrefl fun e e' : Identifier × α => e.1 < e'.1 := ⟨fun e => LinearKey.irrefl e.1⟩
  have _ : Std.Antisymm fun e e' : Identifier × α => e.1 < e'.1 :=
    ⟨fun e _ h k => absurd (LinearKey.trans h k) (LinearKey.irrefl e.1)⟩
  exact h.eq_of_mem_iff h' hmem

/-- What belongs to a load balancer is told by which objects do. -/
theorem share_eq_of_owns {v' : Inventory}
    (h : ∀ id r, v.Owns tag lb id r ↔ v'.Owns tag lb id r) : v.share tag lb = v'.share tag lb := by
  refine eq_of_increasing (v.share_increasing tag lb) (v'.share_increasing tag lb) ?_
  rintro ⟨id, r⟩
  rw [mem_share_iff, mem_share_iff, h]

theorem belongsTo_bare (v : Inventory) (r : Resource) :
    v.belongsTo tag lb r.bare = v.belongsTo tag lb r := by cases r <;> rfl

theorem hasBackend_eq : v.hasBackend tag lb id =
    match (v.objects.get? id).map Resource.bare with
    | some (.backend b) => decide (v.Carries tag id ∧ b.loadBalancer = lb)
    | _ => false := by
  rw [hasBackend]
  rcases v.objects.get? id with _ | r
  · rfl
  · cases r <;> rfl

theorem hasFrontend_eq : v.hasFrontend tag lb id =
    match (v.objects.get? id).map Resource.bare with
    | some (.frontend f) => decide (v.Carries tag id ∧ f.loadBalancer = lb)
    | _ => false := by
  rw [hasFrontend]
  rcases v.objects.get? id with _ | r
  · rfl
  · cases r <;> rfl

/-- Where resources belong does not depend on the status of what they refer to. -/
theorem belongsTo_congr {v' : Inventory} (hc : ∀ id, v'.Carries tag id ↔ v.Carries tag id)
    (ho : ∀ id, (v'.objects.get? id).map Resource.bare = (v.objects.get? id).map Resource.bare) :
    v'.belongsTo tag lb = v.belongsTo tag lb := by
  have hb (id : Identifier) : v'.hasBackend tag lb id = v.hasBackend tag lb id := by
    simp only [hasBackend_eq, ho, hc]
  have hf (id : Identifier) : v'.hasFrontend tag lb id = v.hasFrontend tag lb id := by
    simp only [hasFrontend_eq, ho, hc]
  funext r
  cases r <;> simp [belongsTo, hb, hf]

theorem hasBackend_mono {v' : Inventory} (ho : v'.objects = v.objects)
    (hc : ∀ id, v.Carries tag id → v'.Carries tag id) (h : v.hasBackend tag lb id = true) :
    v'.hasBackend tag lb id = true := by
  obtain ⟨b, hb, ht, hlb⟩ := hasBackend_iff.1 h
  exact hasBackend_iff.2 ⟨b, ho ▸ hb, hc id ht, hlb⟩

theorem hasFrontend_mono {v' : Inventory} (ho : v'.objects = v.objects)
    (hc : ∀ id, v.Carries tag id → v'.Carries tag id) (h : v.hasFrontend tag lb id = true) :
    v'.hasFrontend tag lb id = true := by
  obtain ⟨f, hf, ht, hlb⟩ := hasFrontend_iff.1 h
  exact hasFrontend_iff.2 ⟨f, ho ▸ hf, hc id ht, hlb⟩

/-- With more objects tagged, what belongs to a load balancer still does. -/
theorem belongsTo_mono {v' : Inventory} (ho : v'.objects = v.objects)
    (hc : ∀ id, v.Carries tag id → v'.Carries tag id) (h : v.belongsTo tag lb r = true) :
    v'.belongsTo tag lb r = true := by
  cases r with
  | backend b => exact h
  | frontend f => exact h
  | bind b => exact hasFrontend_mono ho hc h
  | server s => exact hasBackend_mono ho hc h

theorem Owns.of_carries {v' : Inventory} (h : v.Owns tag lb id r) (ho : v'.objects = v.objects)
    (hc : ∀ id, v.Carries tag id → v'.Carries tag id) : v'.Owns tag lb id r :=
  ⟨ho ▸ h.1, hc id h.2.1, belongsTo_mono ho hc h.2.2⟩

/-- What belongs to a load balancer does so elsewhere, if the object is there that tells. -/
theorem Owns.of_parent {v' : Inventory} {q : Resource} (h : v.Owns tag lb id r)
    (hq : v'.objects.get? id = some q) (hb : q.bare = r.bare) (hc : v'.Carries tag id)
    (hparent : ∀ j p, r.parent? = some j → v.objects.get? j = some p → v.Carries tag j →
      ∃ p', v'.objects.get? j = some p' ∧ p'.bare = p.bare ∧ v'.Carries tag j) :
    v'.Owns tag lb id q := by
  refine ⟨hq, hc, ?_⟩
  rw [← belongsTo_bare, hb, belongsTo_bare]
  have hbelongs := h.2.2
  cases r with
  | backend b => exact hbelongs
  | frontend f => exact hbelongs
  | bind b =>
    obtain ⟨f, hf, hft, hlb⟩ := hasFrontend_iff.1 hbelongs
    obtain ⟨p', hp', hbare, hpc⟩ := hparent _ _ rfl hf hft
    cases p' <;> simp only [Resource.bare, reduceCtorEq] at hbare
    have hsame := congrArg Frontend.loadBalancer (Resource.frontend.inj hbare)
    exact hasFrontend_iff.2 ⟨_, hp', hpc, hsame.trans hlb⟩
  | server s =>
    obtain ⟨b, hb, hbt, hlb⟩ := hasBackend_iff.1 hbelongs
    obtain ⟨p', hp', hbare, hpc⟩ := hparent _ _ rfl hb hbt
    cases p' <;> simp only [Resource.bare, reduceCtorEq] at hbare
    have hsame := congrArg Backend.loadBalancer (Resource.backend.inj hbare)
    exact hasBackend_iff.2 ⟨_, hp', hpc, hsame.trans hlb⟩

/-- What belongs to a load balancer still does when another object is added. -/
theorem Owns.put {q : Resource} (h : v.Owns tag lb id r) (hnone : v.objects.get? j = none) :
    (v.put j q).Owns tag lb id r := by
  have hkeep {i : Identifier} {p : Resource} (hp : v.objects.get? i = some p) :
      (v.put j q).objects.get? i = some p := by
    have hne : j ≠ i := by
      rintro rfl
      rw [hnone] at hp
      cases hp
    rw [get?_put, if_neg hne, hp]
  exact h.of_parent (hkeep h.1) rfl h.2.1 fun i p _ hp ht => ⟨p, hkeep hp, rfl, ht⟩

/-- The objects and the tags are the same. -/
def Agrees (v v' : Inventory) : Prop := v'.objects = v.objects ∧ v'.tags = v.tags

theorem Agrees.owns_iff {v' : Inventory} (h : v.Agrees v') :
    v'.Owns tag lb id r ↔ v.Owns tag lb id r := by
  obtain ⟨⟩ := v
  obtain ⟨⟩ := v'
  obtain ⟨rfl, rfl⟩ := h
  exact Iff.rfl

theorem Agrees.share_eq {v' : Inventory} (h : v.Agrees v') : v'.share tag lb = v.share tag lb :=
  share_eq_of_owns fun _ _ => h.owns_iff

/-- The same objects are there under the same identifiers, up to their status, with the same tags. -/
structure Resembles (v v' : Inventory) : Prop where
  objects : ∀ id, (v'.objects.get? id).map (Resource.withStatus .progressing) =
    (v.objects.get? id).map (Resource.withStatus .progressing)
  tags : v'.tags = v.tags
  loadBalancers : v'.loadBalancers = v.loadBalancers

namespace Resembles

variable {v' : Inventory}

theorem refl (v : Inventory) : v.Resembles v := ⟨fun _ => rfl, rfl, rfl⟩

theorem symm (h : v.Resembles v') : v'.Resembles v :=
  ⟨fun id => (h.objects id).symm, h.tags.symm, h.loadBalancers.symm⟩

theorem trans {v'' : Inventory} (h : v.Resembles v') (h' : v'.Resembles v'') : v.Resembles v'' :=
  ⟨fun id => (h'.objects id).trans (h.objects id), h'.tags.trans h.tags,
    h'.loadBalancers.trans h.loadBalancers⟩

theorem of_withStatus (hr : v.objects.get? id = some r) (status : Status) :
    v.Resembles (v.put id (r.withStatus status)) := by
  refine ⟨fun j => ?_, rfl, rfl⟩
  rw [get?_put]
  split
  next hj => simp [← hj, hr]
  next => rfl

theorem carries_iff (h : v.Resembles v') : v'.Carries tag id ↔ v.Carries tag id := by
  rw [Carries, taggedIds, h.tags]
  rfl

theorem exists_get? (h : v.Resembles v') (hr : v.objects.get? id = some r) :
    ∃ q, v'.objects.get? id = some q ∧ q.bare = r.bare ∧ q.identifier = r.identifier := by
  have hid := h.objects id
  rw [hr] at hid
  obtain ⟨q, hq, heq⟩ := Option.map_eq_some_iff.1 hid
  refine ⟨q, hq, ?_, ?_⟩
  · simpa using congrArg Resource.bare heq
  · simpa using congrArg Resource.identifier heq

theorem map_bare_get? (h : v.Resembles v') (id : Identifier) :
    (v'.objects.get? id).map Resource.bare = (v.objects.get? id).map Resource.bare := by
  have hbare (o : Option Resource) :
      o.map Resource.bare = (o.map (Resource.withStatus .progressing)).map Resource.bare := by
    cases o <;> simp
  rw [hbare, h.objects, ← hbare]

theorem kindOf?_eq (h : v.Resembles v') : v'.kindOf? id = v.kindOf? id := by
  have hkind (o : Option Resource) : o.map Resource.kind = (o.map Resource.bare).map Resource.kind := by
    cases o <;> simp
  rw [kindOf?, hkind, h.map_bare_get?, ← hkind, kindOf?]

theorem get?_eq_none_iff (h : v.Resembles v') : v'.objects.get? id = none ↔ v.objects.get? id = none := by
  rw [← Option.map_eq_none_iff, h.objects, Option.map_eq_none_iff]

theorem belongsTo (h : v.Resembles v') : v'.belongsTo tag lb = v.belongsTo tag lb :=
  belongsTo_congr (fun _ => h.carries_iff) h.map_bare_get?

theorem exists_owns (h : v.Resembles v') (hr : v.Owns tag lb id r) :
    ∃ q, v'.Owns tag lb id q ∧ q.bare = r.bare ∧ q.identifier = r.identifier := by
  obtain ⟨hr, ht, hb⟩ := hr
  obtain ⟨q, hq, hbare, hid⟩ := h.exists_get? hr
  refine ⟨q, ⟨hq, h.carries_iff.2 ht, ?_⟩, hbare, hid⟩
  rw [h.belongsTo, ← belongsTo_bare, hbare, belongsTo_bare, hb]

end Resembles

/-- Every object is stored under its own identifier. -/
def Stored (v : Inventory) : Prop := ∀ id r, v.objects.get? id = some r → r.identifier = some id

theorem Agrees.stored {v' : Inventory} (h : v.Agrees v') (hv : v.Stored) : v'.Stored := by
  intro id r hr
  exact hv id r (h.1 ▸ hr)

theorem Stored.put (h : v.Stored) (hr : r.identifier = some id) : (v.put id r).Stored := by
  intro j s hs
  rw [get?_put] at hs
  split at hs
  next hj =>
    cases hs
    rw [hr, hj]
  next => exact h j s hs

theorem Stored.remove (h : v.Stored) : (v.remove id).Stored := by
  intro j s hs
  rw [get?_remove] at hs
  split at hs
  · cases hs
  · exact h j s hs

def Mentions (v : Inventory) (id : Identifier) : Prop :=
  id ∈ v.objects.keys ∨ id ∈ v.loadBalancers.keys ∨ (∃ tag, v.Carries tag id) ∨
    ∃ j r, v.objects.get? j = some r ∧ id ∈ r.references

def mentioned (v : Inventory) : List Identifier :=
  v.objects.keys ++ v.loadBalancers.keys ++ v.tags.values.flatMap OrderedMap.keys
    ++ v.objects.values.flatMap Resource.references

theorem mentions_iff_mem_mentioned : v.Mentions id ↔ id ∈ v.mentioned := by
  simp only [Mentions, mentioned, List.mem_append, List.mem_flatMap, OrderedMap.mem_values_iff,
    carries_iff, or_assoc]
  refine or_congr_right (or_congr_right (or_congr ?_ ?_))
  · constructor
    · rintro ⟨tag, ids, hids, hid⟩
      exact ⟨ids, ⟨tag, hids⟩, hid⟩
    · rintro ⟨ids, ⟨tag, hids⟩, hid⟩
      exact ⟨tag, ids, hids, hid⟩
  · constructor
    · rintro ⟨j, r, hr, hid⟩
      exact ⟨r, ⟨j, hr⟩, hid⟩
    · rintro ⟨r, ⟨j, hr⟩, hid⟩
      exact ⟨j, r, hr, hid⟩

theorem Resembles.stored {v' : Inventory} (h : v.Resembles v') (hv : v.Stored) : v'.Stored := by
  intro id r hr
  obtain ⟨q, hq, -, hid⟩ := h.symm.exists_get? hr
  exact hid.symm.trans (hv id q hq)

theorem stored_iff : v.Stored ↔ ∀ e ∈ v.objects.entries, e.2.identifier = some e.1 :=
  ⟨fun h e he => h e.1 e.2 (OrderedMap.get?_eq_some_iff.2 he),
    fun h id r hr => h (id, r) (OrderedMap.get?_eq_some_iff.1 hr)⟩

instance : Decidable (v.Mentions id) := decidable_of_iff _ mentions_iff_mem_mentioned.symm

instance : Decidable v.Stored := decidable_of_iff _ stored_iff.symm

end Inventory

end BalancerSync
