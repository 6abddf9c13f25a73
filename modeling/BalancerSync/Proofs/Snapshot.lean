import BalancerSync.Snapshot
import BalancerSync.Proofs.Inventory
import BalancerSync.Proofs.Comparison

namespace BalancerSync

namespace Snapshot

variable {rs : List Resource} {s : Snapshot} {r : Resource} {id : Identifier}

@[simp] theorem backend_mem_resources {b : Backend} :
    .backend b ∈ s.resources ↔ b ∈ s.backends := by simp [resources]

@[simp] theorem frontend_mem_resources {f : Frontend} :
    .frontend f ∈ s.resources ↔ f ∈ s.frontends := by simp [resources]

@[simp] theorem bind_mem_resources {b : Bind} : .bind b ∈ s.resources ↔ b ∈ s.binds := by
  simp [resources]

@[simp] theorem server_mem_resources {v : Server} : .server v ∈ s.resources ↔ v ∈ s.servers := by
  simp [resources]

theorem resources_ofList_cons (r : Resource) (rs : List Resource) :
    (ofList (r :: rs)).resources.Perm (r :: (ofList rs).resources) := by
  cases r with
  | backend b => exact .refl _
  | frontend f => exact (List.perm_middle.append_right _).append_right _
  | bind b => exact List.perm_middle.append_right _
  | server v => exact List.perm_middle

theorem resources_ofList_perm (rs : List Resource) : (ofList rs).resources.Perm rs := by
  induction rs with
  | nil => exact .refl _
  | cons r rest ih => exact (resources_ofList_cons r rest).trans (ih.cons r)

@[simp] theorem mem_resources_ofList : r ∈ (ofList rs).resources ↔ r ∈ rs :=
  (resources_ofList_perm rs).mem_iff

theorem ofList_filter (p : Resource → Bool) (rs : List Resource) :
    ofList (rs.filter p) =
      { backends := (ofList rs).backends.filter fun b => p (.backend b)
        frontends := (ofList rs).frontends.filter fun f => p (.frontend f)
        binds := (ofList rs).binds.filter fun b => p (.bind b)
        servers := (ofList rs).servers.filter fun v => p (.server v)
        failed := (ofList rs).failed.filter p
        progressing := (ofList rs).progressing.filter p } := by
  have hcomm (q : Resource → Bool) : (rs.filter p).filter q = (rs.filter q).filter p := by
    rw [List.filter_filter, List.filter_filter]
    simp only [Bool.and_comm]
  simp only [ofList, hcomm, mk.injEq, and_true]
  refine ⟨?_, ?_, ?_, ?_⟩ <;> rw [List.filterMap_filter, List.filter_filterMap] <;>
    congr 1 <;> funext r <;> cases r <;> simp [Option.filter]

/-- All resources have identifiers of their own, and those that are not ready are listed again. -/
structure Classified (s : Snapshot) : Prop where
  identified : ∀ r ∈ s.resources, ∃ id, r.identifier = some id
  distinct : (s.resources.map Resource.identifier).Nodup
  mem_failed : ∀ r, r ∈ s.failed ↔ r ∈ s.resources ∧ r.readiness = .failed
  mem_progressing : ∀ r, r ∈ s.progressing ↔ r ∈ s.resources ∧ r.readiness = .progressing

theorem classified_ofList (hid : ∀ r ∈ rs, ∃ id, r.identifier = some id)
    (hd : (rs.map Resource.identifier).Nodup) : (ofList rs).Classified where
  identified r hr := hid r (mem_resources_ofList.1 hr)
  distinct := (((resources_ofList_perm rs).map _).nodup_iff).2 hd
  mem_failed r := by
    rw [mem_resources_ofList]
    simp [ofList]
  mem_progressing r := by
    rw [mem_resources_ofList]
    simp [ofList]

namespace Classified

theorem eq_of_identifier (h : s.Classified) {r q : Resource} (hr : r ∈ s.resources)
    (hq : q ∈ s.resources) (hid : r.identifier = q.identifier) : r = q :=
  List.inj_on_of_nodup_map h.distinct hr hq hid

theorem nodup (h : s.Classified) : s.resources.Nodup := h.distinct.of_map _

theorem backends_nodup (h : s.Classified) : s.backends.Nodup := by
  have hn := h.nodup
  simp only [resources, List.append_assoc] at hn
  exact hn.of_append_left.of_map _

theorem frontends_nodup (h : s.Classified) : s.frontends.Nodup := by
  have hn := h.nodup
  simp only [resources, List.append_assoc] at hn
  exact hn.of_append_right.of_append_left.of_map _

theorem binds_nodup (h : s.Classified) : s.binds.Nodup := by
  have hn := h.nodup
  simp only [resources, List.append_assoc] at hn
  exact hn.of_append_right.of_append_right.of_append_left.of_map _

theorem servers_nodup (h : s.Classified) : s.servers.Nodup := by
  have hn := h.nodup
  rw [resources] at hn
  exact hn.of_append_right.of_map _

end Classified

theorem mem_identifiers {id : Identifier} :
    id ∈ identifiers rs ↔ ∃ r ∈ rs, r.identifier = some id := by simp [identifiers]

theorem map_identifier (hid : ∀ r ∈ rs, ∃ id, r.identifier = some id) :
    rs.map Resource.identifier = (identifiers rs).map some := by
  rw [identifiers, List.map_filterMap, ← List.filterMap_eq_map]
  refine List.filterMap_congr fun r hr => ?_
  obtain ⟨id, hr⟩ := hid r hr
  simp [hr]

theorem map_identifier_nodup (h : (identifiers rs).Nodup)
    (hid : ∀ r ∈ rs, ∃ id, r.identifier = some id) : (rs.map Resource.identifier).Nodup := by
  rw [map_identifier hid]
  exact h.map fun _ _ => Option.some.inj

theorem nodup_of_identifiers_nodup (h : (identifiers rs).Nodup)
    (hid : ∀ r ∈ rs, ∃ id, r.identifier = some id) : rs.Nodup :=
  (map_identifier_nodup h hid).of_map _

/-- Resources are told apart by their identifiers. -/
theorem eq_of_identifiers_nodup (h : (identifiers rs).Nodup) {q : Resource} (hr : r ∈ rs)
    (hq : q ∈ rs) (hrid : r.identifier = some id) (hqid : q.identifier = some id) : r = q := by
  by_contra hne
  have hpairwise := List.pairwise_filterMap.1 h
  have hsymm : Std.Symm fun r q : Resource => ∀ i, r.identifier = some i →
      ∀ j, q.identifier = some j → i ≠ j := ⟨fun _ _ hrq i hi j hj => (hrq j hj i hi).symm⟩
  exact hpairwise.forall hr hq hne id hrid id hqid rfl

theorem mem_of_mem_distinct {seen : List Identifier} (h : r ∈ distinct seen rs) : r ∈ rs := by
  induction rs generalizing seen with
  | nil => exact h
  | cons q rest ih =>
    rw [distinct] at h
    split at h
    · rcases List.mem_cons.1 h with rfl | h
      · simp
      · exact List.mem_cons_of_mem _ (ih h)
    · split at h
      · exact List.mem_cons_of_mem _ (ih h)
      · rcases List.mem_cons.1 h with rfl | h
        · simp
        · exact List.mem_cons_of_mem _ (ih h)

/-- Every identifier that has not been seen before is kept. -/
theorem exists_mem_distinct (seen : List Identifier) (hr : r ∈ rs)
    (hid : r.identifier = some id) (hs : id ∉ seen) : ∃ q ∈ distinct seen rs, q.identifier = some id := by
  induction rs generalizing seen with
  | nil => simp at hr
  | cons q rest ih =>
    rw [distinct]
    split
    next hq =>
      rcases List.mem_cons.1 hr with rfl | hr
      · rw [hid] at hq
        cases hq
      · obtain ⟨p, hp, hpid⟩ := ih seen hr hs
        exact ⟨p, List.mem_cons_of_mem _ hp, hpid⟩
    next j hq =>
      by_cases hj : j = id
      · subst hj
        rw [if_neg hs]
        exact ⟨q, by simp, hq⟩
      · have hr : r ∈ rest := by
          rcases List.mem_cons.1 hr with rfl | hr
          · exact absurd (Option.some.inj (hq.symm.trans hid)) hj
          · exact hr
        split
        · exact ih seen hr hs
        · obtain ⟨p, hp, hpid⟩ := ih (j :: seen) hr (by simp [hs, Ne.symm hj])
          exact ⟨p, List.mem_cons_of_mem _ hp, hpid⟩

theorem identifiers_distinct_nodup (seen : List Identifier) (rs : List Resource) :
    (identifiers (distinct seen rs)).Nodup ∧ ∀ id ∈ identifiers (distinct seen rs), id ∉ seen := by
  induction rs generalizing seen with
  | nil => simp [distinct, identifiers]
  | cons r rest ih =>
    rw [distinct]
    split
    next hr => simpa [identifiers, hr] using ih seen
    next id hr =>
      split
      next hs => exact ih seen
      next hs =>
        obtain ⟨hn, hnew⟩ := ih (id :: seen)
        have hcons : identifiers (r :: distinct (id :: seen) rest) =
            id :: identifiers (distinct (id :: seen) rest) := by simp [identifiers, hr]
        rw [hcons, List.nodup_cons]
        refine ⟨⟨fun h => hnew id h (by simp), hn⟩, fun j hj => ?_⟩
        rcases List.mem_cons.1 hj with rfl | hj
        · exact hs
        · exact fun h => hnew j hj (List.mem_cons_of_mem _ h)

theorem identifiers_failedWithDependents_nodup (s : Snapshot) :
    (identifiers s.failedWithDependents).Nodup := (identifiers_distinct_nodup _ _).1

namespace Classified

theorem mem_resources_of_dependents (hr : r ∈ s.dependents) : r ∈ s.resources := by
  simp only [dependents, orphanedFrontends, List.mem_append, List.mem_map, List.mem_filter] at hr
  rcases hr with (⟨f, hf, rfl⟩ | ⟨b, hb, rfl⟩) | ⟨v, hv, rfl⟩
  · simpa using hf.1
  · simpa using hb.1
  · simpa using hv.1

theorem mem_failedWithDependents_iff (h : s.Classified) :
    r ∈ s.failedWithDependents ↔ r ∈ s.failed ∨ r ∈ s.dependents := by
  rw [failedWithDependents]
  have hres : ∀ q ∈ s.failed ++ s.dependents, q ∈ s.resources := by
    intro q hq
    rcases List.mem_append.1 hq with hq | hq
    · exact ((h.mem_failed q).1 hq).1
    · exact mem_resources_of_dependents hq
  constructor
  · exact fun hr => List.mem_append.1 (mem_of_mem_distinct hr)
  · intro hr
    have hr := List.mem_append.2 hr
    obtain ⟨id, hid⟩ := h.identified r (hres r hr)
    obtain ⟨q, hq, hqid⟩ := exists_mem_distinct [] hr hid (by simp)
    have hqr : q = r :=
      h.eq_of_identifier (hres q (mem_of_mem_distinct hq)) (hres r hr) (hqid.trans hid.symm)
    exact hqr ▸ hq

theorem mem_resources_of_failedWithDependents (h : s.Classified)
    (hr : r ∈ s.failedWithDependents) : r ∈ s.resources := by
  rcases h.mem_failedWithDependents_iff.1 hr with hr | hr
  · exact ((h.mem_failed r).1 hr).1
  · exact mem_resources_of_dependents hr

theorem mem_failedIds_of_backend (h : s.Classified) {b : Backend}
    (hb : .backend b ∈ s.failedWithDependents) (hid : b.identifier = some id) :
    id ∈ s.failedIds := by
  rcases h.mem_failedWithDependents_iff.1 hb with hb | hb
  · exact mem_identifiers.2 ⟨_, hb, hid⟩
  · simp [dependents] at hb

theorem mem_doomedFrontendIds_of_frontend (h : s.Classified) {f : Frontend}
    (hf : .frontend f ∈ s.failedWithDependents) (hid : f.identifier = some id) :
    id ∈ s.doomedFrontendIds := by
  rw [doomedFrontendIds, List.mem_append]
  rcases h.mem_failedWithDependents_iff.1 hf with hf | hf
  · exact .inr (mem_identifiers.2 ⟨.frontend f, by simp [hf, Resource.kind], hid⟩)
  · refine .inl (List.mem_filterMap.2 ⟨f, ?_, hid⟩)
    simpa [dependents] using hf

theorem frontend_mem_failedWithDependents (h : s.Classified) {f : Frontend} {b : Backend}
    (hf : f ∈ s.frontends) (hb : .backend b ∈ s.failedWithDependents)
    (hid : b.identifier = some f.defaultBackend) : .frontend f ∈ s.failedWithDependents := by
  have hfailed := h.mem_failedIds_of_backend hb hid
  exact h.mem_failedWithDependents_iff.2 (.inr (by simp [dependents, orphanedFrontends, hf, hfailed]))

theorem server_mem_failedWithDependents (h : s.Classified) {v : Server} {b : Backend}
    (hv : v ∈ s.servers) (hb : .backend b ∈ s.failedWithDependents)
    (hid : b.identifier = some v.backend) : .server v ∈ s.failedWithDependents := by
  have hfailed := h.mem_failedIds_of_backend hb hid
  exact h.mem_failedWithDependents_iff.2 (.inr (by simp [dependents, hv, hfailed]))

theorem bind_mem_failedWithDependents (h : s.Classified) {b : Bind} {f : Frontend}
    (hb : b ∈ s.binds) (hf : .frontend f ∈ s.failedWithDependents)
    (hid : f.identifier = some b.frontend) : .bind b ∈ s.failedWithDependents := by
  have hdoomed := h.mem_doomedFrontendIds_of_frontend hf hid
  exact h.mem_failedWithDependents_iff.2 (.inr (by simp [dependents, hb, hdoomed]))

end Classified

end Snapshot

namespace Inventory

variable {v : Inventory} {tag : Tag} {lb id : Identifier} {r : Resource}

/-- All that carries the tag. -/
def snapshot (v : Inventory) (tag : Tag) : Snapshot := .ofList ((v.tagged tag).map (·.2))

def shareSnapshot (v : Inventory) (tag : Tag) (lb : Identifier) : Snapshot :=
  .ofList ((v.share tag lb).map (·.2))

theorem mem_backendIds_snapshot_iff (h : v.Stored) :
    id ∈ (v.snapshot tag).backendIds lb ↔ v.hasBackend tag lb id = true := by
  have hmem (b : Backend) : b ∈ (v.snapshot tag).backends ↔
      ∃ j, v.Carries tag j ∧ v.objects.get? j = some (.backend b) := by
    rw [← Snapshot.backend_mem_resources, snapshot, Snapshot.mem_resources_ofList]
    simp [mem_tagged_iff]
  simp only [Snapshot.backendIds, List.mem_filterMap, List.mem_filter, decide_eq_true_eq,
    hasBackend_iff, hmem]
  constructor
  · rintro ⟨b, ⟨⟨j, hj, hb⟩, hlb⟩, hid⟩
    cases Option.some.inj ((h j _ hb).symm.trans hid)
    exact ⟨b, hb, hj, hlb⟩
  · rintro ⟨b, hb, hid, hlb⟩
    exact ⟨b, ⟨⟨id, hid, hb⟩, hlb⟩, h id _ hb⟩

theorem mem_frontendIds_snapshot_iff (h : v.Stored) :
    id ∈ (v.snapshot tag).frontendIds lb ↔ v.hasFrontend tag lb id = true := by
  have hmem (f : Frontend) : f ∈ (v.snapshot tag).frontends ↔
      ∃ j, v.Carries tag j ∧ v.objects.get? j = some (.frontend f) := by
    rw [← Snapshot.frontend_mem_resources, snapshot, Snapshot.mem_resources_ofList]
    simp [mem_tagged_iff]
  simp only [Snapshot.frontendIds, List.mem_filterMap, List.mem_filter, decide_eq_true_eq,
    hasFrontend_iff, hmem]
  constructor
  · rintro ⟨f, ⟨⟨j, hj, hf⟩, hlb⟩, hid⟩
    cases Option.some.inj ((h j _ hf).symm.trans hid)
    exact ⟨f, hf, hj, hlb⟩
  · rintro ⟨f, hf, hid, hlb⟩
    exact ⟨f, ⟨⟨id, hid, hf⟩, hlb⟩, h id _ hf⟩

theorem belongsTo_snapshot (h : v.Stored) :
    (v.snapshot tag).belongsTo lb = v.belongsTo tag lb := by
  funext r
  cases r with
  | backend b => rfl
  | frontend f => rfl
  | bind b =>
    rw [Bool.eq_iff_iff, Snapshot.belongsTo, decide_eq_true_iff, mem_frontendIds_snapshot_iff h]
    rfl
  | server s =>
    rw [Bool.eq_iff_iff, Snapshot.belongsTo, decide_eq_true_iff, mem_backendIds_snapshot_iff h]
    rfl

/-- The snapshot for a load balancer holds exactly what belongs to it. -/
theorem narrowTo_snapshot (h : v.Stored) :
    (v.snapshot tag).narrowTo lb = v.shareSnapshot tag lb := by
  have hshare : (v.share tag lb).map (·.2) =
      ((v.tagged tag).map (·.2)).filter (v.belongsTo tag lb) := by
    rw [share, List.filter_map]
    rfl
  rw [shareSnapshot, hshare, Snapshot.ofList_filter, Snapshot.narrowTo, belongsTo_snapshot h]
  rfl

theorem mem_share_resources_iff (h : v.Stored) :
    r ∈ (v.shareSnapshot tag lb).resources ↔
      ∃ id, r.identifier = some id ∧ v.Owns tag lb id r := by
  rw [shareSnapshot, Snapshot.mem_resources_ofList, List.mem_map]
  constructor
  · rintro ⟨⟨id, q⟩, hq, rfl⟩
    have ho := mem_share_iff.1 hq
    exact ⟨id, h id q ho.1, ho⟩
  · rintro ⟨id, -, ho⟩
    exact ⟨(id, r), mem_share_iff.2 ho, rfl⟩

theorem shareSnapshot_classified (tag : Tag) (lb : Identifier) (h : v.Stored) :
    (v.shareSnapshot tag lb).Classified := by
  have hid : ∀ e ∈ v.share tag lb, e.2.identifier = some e.1 :=
    fun e he => h e.1 e.2 (mem_share_iff.1 he).1
  apply Snapshot.classified_ofList
  · intro r hr
    obtain ⟨e, he, rfl⟩ := List.mem_map.1 hr
    exact ⟨e.1, hid e he⟩
  · have hmap : ((v.share tag lb).map (·.2)).map Resource.identifier =
        ((v.share tag lb).map (·.1)).map some := by
      rw [List.map_map, List.map_map]
      exact List.map_congr_left hid
    rw [hmap]
    exact (v.share_ids_nodup tag lb).map (Option.some_injective _)

end Inventory

end BalancerSync
