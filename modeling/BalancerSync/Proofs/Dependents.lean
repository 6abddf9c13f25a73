import Mathlib.Logic.Relation
import BalancerSync.Proofs.Snapshot

namespace BalancerSync

def Resource.upstream? : Resource → Option Identifier
  | backend _ => none
  | frontend f => some f.defaultBackend
  | bind b => some b.frontend
  | server s => some s.backend

/-- The kind of the resources that a resource is meant to refer to. -/
def Kind.upstream? : Kind → Option Kind
  | backend => none
  | frontend | server => some backend
  | bind => some frontend

namespace Snapshot

variable {s : Snapshot} {rs : List Resource} {r q : Resource} {id : Identifier}

/-- One resource of the snapshot refers to another one. -/
def Refers (s : Snapshot) (r q : Resource) : Prop :=
  r ∈ s.resources ∧ q ∈ s.resources ∧ r.upstream? ≠ none ∧ q.identifier = r.upstream?

instance : Decidable (s.Refers r q) := inferInstanceAs (Decidable (_ ∧ _))

/-- No resource refers to one of the wrong kind. It may refer to one that is not there. -/
def WellKinded (s : Snapshot) : Prop :=
  ∀ r ∈ s.resources, ∀ q ∈ s.resources, s.Refers r q → r.kind.upstream? = some q.kind

instance : Decidable s.WellKinded := inferInstanceAs (Decidable (∀ _ ∈ _, _))

/-- The set contains what has failed and, with a backend or a frontend, all that refers to it. -/
structure Gathers (s : Snapshot) (P : Resource → Prop) : Prop where
  failed : ∀ r ∈ s.resources, r.readiness = .failed → P r
  frontends : ∀ f ∈ s.frontends, ∀ b, P (.backend b) → b.identifier = some f.defaultBackend →
    P (.frontend f)
  servers : ∀ v ∈ s.servers, ∀ b, P (.backend b) → b.identifier = some v.backend → P (.server v)
  binds : ∀ b ∈ s.binds, ∀ f, P (.frontend f) → f.identifier = some b.frontend → P (.bind b)

/-- The smallest set of resources that contains what has failed and all that refers to it. -/
structure FailedClosure (s : Snapshot) (rs : List Resource) : Prop where
  /-- Every resource is told once, -/
  once : (rs.map Resource.identifier).Nodup
  /-- and those that have failed come first. -/
  failed_first : ∃ failed rest, rs = failed ++ rest ∧ (∀ r ∈ failed, r.readiness = .failed) ∧
    ∀ r ∈ rest, r.readiness ≠ .failed
  gathers : s.Gathers (· ∈ rs)
  least : ∀ P, s.Gathers P → ∀ r ∈ rs, P r
  /-- What is not in the set refers to nothing in it, -/
  apart : ∀ r q, s.Refers r q → r ∉ rs → q ∉ rs
  /-- and what has not failed refers to something that has, directly or through others. -/
  chained : ∀ r ∈ rs, r.readiness ≠ .failed →
    ∃ q ∈ rs, q.readiness = .failed ∧ Relation.TransGen s.Refers r q

/-- What has been seen is left out, of the second list as well. -/
theorem exists_distinct_append (seen : List Identifier) (rs qs : List Resource) :
    ∃ seen', distinct seen (rs ++ qs) = distinct seen rs ++ distinct seen' qs ∧
      ∀ r ∈ rs, ∀ id, r.identifier = some id → id ∈ seen' := by
  suffices h : ∃ seen', distinct seen (rs ++ qs) = distinct seen rs ++ distinct seen' qs ∧
      (∀ id ∈ seen, id ∈ seen') ∧ ∀ r ∈ rs, ∀ id, r.identifier = some id → id ∈ seen' by
    obtain ⟨seen', heq, -, hseen⟩ := h
    exact ⟨seen', heq, hseen⟩
  induction rs generalizing seen with
  | nil => exact ⟨seen, rfl, fun _ h => h, nofun⟩
  | cons r rest ih =>
    rw [List.cons_append, distinct, distinct]
    cases hid : r.identifier with
    | none =>
      obtain ⟨seen', heq, hkept, hseen⟩ := ih seen
      refine ⟨seen', by simp only [heq, List.cons_append], hkept, ?_⟩
      intro q hq id hqid
      rcases List.mem_cons.1 hq with rfl | hq
      · rw [hid] at hqid
        cases hqid
      · exact hseen q hq id hqid
    | some j =>
      by_cases hj : j ∈ seen
      · obtain ⟨seen', heq, hkept, hseen⟩ := ih seen
        refine ⟨seen', by simp only [if_pos hj, heq], hkept, ?_⟩
        intro q hq id hqid
        rcases List.mem_cons.1 hq with rfl | hq
        · cases hid.symm.trans hqid
          exact hkept j hj
        · exact hseen q hq id hqid
      · obtain ⟨seen', heq, hkept, hseen⟩ := ih (j :: seen)
        refine ⟨seen', by simp only [if_neg hj, heq, List.cons_append], ?_, ?_⟩
        · intro id hs
          exact hkept id (List.mem_cons_of_mem _ hs)
        · intro q hq id hqid
          rcases List.mem_cons.1 hq with rfl | hq
          · cases hid.symm.trans hqid
            exact hkept j List.mem_cons_self
          · exact hseen q hq id hqid

namespace Classified

theorem failed_first (h : s.Classified) : ∃ failed rest, s.failedWithDependents = failed ++ rest ∧
    (∀ r ∈ failed, r.readiness = .failed) ∧ ∀ r ∈ rest, r.readiness ≠ .failed := by
  obtain ⟨seen, heq, hseen⟩ := exists_distinct_append [] s.failed s.dependents
  refine ⟨_, _, heq, ?_, ?_⟩
  · intro r hr
    exact ((h.mem_failed r).1 (mem_of_mem_distinct hr)).2
  · intro r hr hfailed
    have hmem := mem_resources_of_dependents (mem_of_mem_distinct hr)
    obtain ⟨id, hid⟩ := h.identified r hmem
    have hold := hseen r ((h.mem_failed r).2 ⟨hmem, hfailed⟩) id hid
    exact (identifiers_distinct_nodup seen s.dependents).2 id (mem_identifiers.2 ⟨r, hr, hid⟩) hold

theorem gathers (h : s.Classified) : s.Gathers (· ∈ s.failedWithDependents) where
  failed r hr hfailed := h.mem_failedWithDependents_iff.2 (.inl ((h.mem_failed r).2 ⟨hr, hfailed⟩))
  frontends _ hf _ hb hid := h.frontend_mem_failedWithDependents hf hb hid
  servers _ hv _ hb hid := h.server_mem_failedWithDependents hv hb hid
  binds _ hb _ hf hid := h.bind_mem_failedWithDependents hb hf hid

/-- What a resource refers to has failed, and it is of the right kind. -/
theorem exists_failed (h : s.Classified) (hk : s.WellKinded) (hr : r ∈ s.resources)
    (hid : r.upstream? = some id) (hfailed : id ∈ s.failedIds) :
    ∃ q ∈ s.resources, q.readiness = .failed ∧ q.identifier = some id ∧
      r.kind.upstream? = some q.kind := by
  obtain ⟨q, hq, hqid⟩ := mem_identifiers.1 hfailed
  obtain ⟨hq, hready⟩ := (h.mem_failed q).1 hq
  refine ⟨q, hq, hready, hqid, hk r hr q hq ⟨hr, hq, ?_, hqid.trans hid.symm⟩⟩
  rw [hid]
  exact Option.some_ne_none id

variable {P : Resource → Prop}

theorem backend_of_failedIds (h : s.Classified) (hk : s.WellKinded) (hP : s.Gathers P)
    (hr : r ∈ s.resources) (hid : r.upstream? = some id) (hkind : r.kind.upstream? = some .backend)
    (hfailed : id ∈ s.failedIds) : ∃ b, P (.backend b) ∧ b.identifier = some id := by
  obtain ⟨q, hq, hready, hqid, hqk⟩ := h.exists_failed hk hr hid hfailed
  rw [hkind] at hqk
  cases q with
  | backend b => exact ⟨b, hP.failed _ hq hready, hqid⟩
  | frontend | bind | server => cases hqk

theorem orphaned (h : s.Classified) (hk : s.WellKinded) (hP : s.Gathers P) {f : Frontend}
    (hf : f ∈ s.orphanedFrontends) : P (.frontend f) := by
  obtain ⟨hf, hfailed⟩ := List.mem_filter.1 hf
  obtain ⟨b, hb, hid⟩ := h.backend_of_failedIds hk hP (frontend_mem_resources.2 hf) rfl rfl
    (of_decide_eq_true hfailed)
  exact hP.frontends f hf b hb hid

theorem frontend_of_doomed (h : s.Classified) (hk : s.WellKinded) (hP : s.Gathers P)
    (hid : id ∈ s.doomedFrontendIds) : ∃ f, P (.frontend f) ∧ f.identifier = some id := by
  rw [doomedFrontendIds, List.mem_append] at hid
  rcases hid with hid | hid
  · obtain ⟨f, hf, hid⟩ := List.mem_filterMap.1 hid
    exact ⟨f, h.orphaned hk hP hf, hid⟩
  · obtain ⟨r, hr, hid⟩ := mem_identifiers.1 hid
    obtain ⟨hr, hkind⟩ := List.mem_filter.1 hr
    obtain ⟨hr, hfailed⟩ := (h.mem_failed r).1 hr
    cases r with
    | frontend f => exact ⟨f, hP.failed _ hr hfailed, hid⟩
    | backend | bind | server => simp [Resource.kind] at hkind

theorem least (h : s.Classified) (hk : s.WellKinded) (hP : s.Gathers P)
    (hr : r ∈ s.failedWithDependents) : P r := by
  rcases h.mem_failedWithDependents_iff.1 hr with hr | hr
  · obtain ⟨hr, hfailed⟩ := (h.mem_failed r).1 hr
    exact hP.failed r hr hfailed
  · simp only [dependents, List.mem_append, List.mem_map, List.mem_filter, decide_eq_true_eq] at hr
    rcases hr with (⟨f, hf, rfl⟩ | ⟨b, ⟨hb, hdoomed⟩, rfl⟩) | ⟨v, ⟨hv, hfailed⟩, rfl⟩
    · exact h.orphaned hk hP hf
    · obtain ⟨f, hf, hid⟩ := h.frontend_of_doomed hk hP hdoomed
      exact hP.binds b hb f hf hid
    · obtain ⟨b, hb, hid⟩ := h.backend_of_failedIds hk hP (server_mem_resources.2 hv) rfl rfl hfailed
      exact hP.servers v hv b hb hid

end Classified

/-- What refers to a member of a set that gathers is a member. -/
theorem Gathers.of_refers {P : Resource → Prop} (hP : s.Gathers P) (hk : s.WellKinded)
    (hrq : s.Refers r q) (hq : P q) : P r := by
  have hkind := hk r hrq.1 q hrq.2.1 hrq
  obtain ⟨hr, -, -, hid⟩ := hrq
  cases r with
  | backend b => cases hkind
  | frontend f =>
    cases q with
    | backend b => exact hP.frontends f (frontend_mem_resources.1 hr) b hq hid
    | frontend | bind | server => cases hkind
  | bind b =>
    cases q with
    | frontend f => exact hP.binds b (bind_mem_resources.1 hr) f hq hid
    | backend | bind | server => cases hkind
  | server v =>
    cases q with
    | backend b => exact hP.servers v (server_mem_resources.1 hr) b hq hid
    | frontend | bind | server => cases hkind

/-- The resources that have failed, or that refer to one that has. -/
theorem gathers_chained (s : Snapshot) : s.Gathers fun r => r ∈ s.resources ∧
    (r.readiness ≠ .failed → ∃ q ∈ s.resources, q.readiness = .failed ∧
      Relation.TransGen s.Refers r q) := by
  have hstep {r q : Resource} (hrq : s.Refers r q) (hq : q ∈ s.resources ∧
      (q.readiness ≠ .failed → ∃ p ∈ s.resources, p.readiness = .failed ∧
        Relation.TransGen s.Refers q p)) : r ∈ s.resources ∧
      (r.readiness ≠ .failed → ∃ p ∈ s.resources, p.readiness = .failed ∧
        Relation.TransGen s.Refers r p) := by
    refine ⟨hrq.1, fun _ => ?_⟩
    by_cases hfailed : q.readiness = .failed
    · exact ⟨q, hq.1, hfailed, .single hrq⟩
    · obtain ⟨p, hp, hpf, hchain⟩ := hq.2 hfailed
      exact ⟨p, hp, hpf, hchain.head hrq⟩
  refine ⟨fun r hr hfailed => ⟨hr, fun hnot => absurd hfailed hnot⟩, ?_, ?_, ?_⟩
  · intro f hf b hb hid
    exact hstep ⟨frontend_mem_resources.2 hf, hb.1, Option.some_ne_none _, hid⟩ hb
  · intro v hv b hb hid
    exact hstep ⟨server_mem_resources.2 hv, hb.1, Option.some_ne_none _, hid⟩ hb
  · intro b hb f hf hid
    exact hstep ⟨bind_mem_resources.2 hb, hf.1, Option.some_ne_none _, hid⟩ hf

/-- Whether anything is progressing makes no difference to what has failed. -/
theorem exists_classified (hid : ∀ r ∈ s.resources, ∃ id, r.identifier = some id)
    (hd : (s.resources.map Resource.identifier).Nodup)
    (hf : ∀ r, r ∈ s.failed ↔ r ∈ s.resources ∧ r.readiness = .failed) :
    ∃ progressing, ({ s with progressing } : Snapshot).Classified := by
  refine ⟨s.resources.filter fun r => r.readiness = .progressing, hid, hd, hf, ?_⟩
  intro r
  rw [List.mem_filter, decide_eq_true_eq]
  exact Iff.rfl

/-- Whoever checks references lists resources of the right kind only. -/
theorem wellKinded_of_resolves {v : Inventory}
    (hv : ∀ r ∈ s.resources, ∀ id, r.identifier = some id → v.objects.get? id = some r)
    (hres : ∀ r ∈ s.resources, v.Resolves r) : s.WellKinded := by
  intro r hr q hq hrq
  obtain ⟨-, -, hne, hid⟩ := hrq
  have hresolves := hres r hr
  cases r with
  | backend b => exact absurd rfl hne
  | frontend f =>
    obtain ⟨-, b, hb⟩ := hresolves
    cases hb.symm.trans (hv q hq _ hid)
    rfl
  | bind b =>
    obtain ⟨f, hf⟩ := hresolves
    cases hf.symm.trans (hv q hq _ hid)
    rfl
  | server v =>
    obtain ⟨b, hb⟩ := hresolves
    cases hb.symm.trans (hv q hq _ hid)
    rfl

/-- What is to be destroyed first is the smallest set that contains what has failed and all that
refers to it. -/
theorem failedClosure_failedWithDependents
    (hid : ∀ r ∈ s.resources, ∃ id, r.identifier = some id)
    (hd : (s.resources.map Resource.identifier).Nodup)
    (hf : ∀ r, r ∈ s.failed ↔ r ∈ s.resources ∧ r.readiness = .failed) (hk : s.WellKinded) :
    s.FailedClosure s.failedWithDependents := by
  obtain ⟨progressing, hs⟩ := exists_classified hid hd hf
  have hmem (r : Resource) (hr : r ∈ s.failedWithDependents) : r ∈ s.resources :=
    hs.mem_resources_of_failedWithDependents hr
  have hgathers : s.Gathers (· ∈ s.failedWithDependents) :=
    ⟨hs.gathers.failed, hs.gathers.frontends, hs.gathers.servers, hs.gathers.binds⟩
  have hleast (P : Resource → Prop) (hP : s.Gathers P) (r : Resource)
      (hr : r ∈ s.failedWithDependents) : P r :=
    hs.least hk ⟨hP.failed, hP.frontends, hP.servers, hP.binds⟩ hr
  refine ⟨?_, hs.failed_first, hgathers, hleast, ?_, ?_⟩
  · apply map_identifier_nodup s.identifiers_failedWithDependents_nodup
    intro r hr
    exact hid r (hmem r hr)
  · intro r q hrq hr hq
    exact hr (hgathers.of_refers hk hrq hq)
  · intro r hr hready
    obtain ⟨-, hchained⟩ := hleast _ (gathers_chained s) r hr
    obtain ⟨q, hq, hfailed, hchain⟩ := hchained hready
    exact ⟨q, hgathers.failed q hq hfailed, hfailed, hchain⟩

end Snapshot

namespace Sample

/-- A backend has failed, and all but one other backend depend on it. -/
def fallen : List Resource :=
  [.bind ⟨some ⟨"i-1"⟩, "a", ⟨"f-1"⟩, .v4 ⟨[192, 0, 2, 1], rfl⟩, 80, .ready false⟩,
    .frontend ⟨some ⟨"f-1"⟩, "a", ⟨"lb-1"⟩, ⟨"b-1"⟩, .tcp, .ready false⟩,
    .server ⟨some ⟨"v-1"⟩, "a", ⟨"b-1"⟩, .v4 ⟨[192, 0, 2, 2], rfl⟩, 80, true, .ready true⟩,
    .backend ⟨some ⟨"b-1"⟩, "a", ⟨"lb-1"⟩, .tcp, .tcp, .ready true⟩]

def standing : Resource := .backend ⟨some ⟨"b-2"⟩, "b", ⟨"lb-1"⟩, .tcp, .tcp, .ready false⟩

end Sample

theorem sample_failedClosure :
    (Snapshot.ofList (Sample.standing :: Sample.fallen)).WellKinded ∧
    (Snapshot.ofList (Sample.standing :: Sample.fallen)).FailedClosure
      (Snapshot.ofList (Sample.standing :: Sample.fallen)).failedWithDependents ∧
    (Snapshot.ofList (Sample.standing :: Sample.fallen)).failedWithDependents.Perm Sample.fallen := by
  have hid : ∀ r ∈ Sample.standing :: Sample.fallen, ∃ id, r.identifier = some id := by
    simp [Sample.standing, Sample.fallen, Resource.identifier]
  have hs := Snapshot.classified_ofList hid (by decide +kernel)
  have hk : (Snapshot.ofList (Sample.standing :: Sample.fallen)).WellKinded := by decide +kernel
  exact ⟨hk, Snapshot.failedClosure_failedWithDependents hs.identified hs.distinct hs.mem_failed hk,
    by decide +kernel⟩

namespace Sample

/-- A frontend has failed. Another one takes it for its backend, and a server takes that one for its
backend. -/
def failedFrontend : Resource :=
  .frontend ⟨some ⟨"f-1"⟩, "a", ⟨"lb-1"⟩, ⟨"b-1"⟩, .tcp, .ready true⟩

def misledFrontend : Resource :=
  .frontend ⟨some ⟨"f-2"⟩, "b", ⟨"lb-1"⟩, ⟨"f-1"⟩, .tcp, .ready false⟩

def misledServer : Resource :=
  .server ⟨some ⟨"v-1"⟩, "c", ⟨"f-2"⟩, .v4 ⟨[192, 0, 2, 2], rfl⟩, 80, true, .ready false⟩

def crossed : Snapshot := .ofList [failedFrontend, misledFrontend, misledServer]

end Sample

/-- The misled frontend goes although there is no backend, and the server stays although it refers to
that frontend. -/
theorem not_failedClosure_crossed :
    (∀ r ∈ Sample.crossed.resources, ∃ id, r.identifier = some id) ∧
    (Sample.crossed.resources.map Resource.identifier).Nodup ∧
    (∀ r, r ∈ Sample.crossed.failed ↔ r ∈ Sample.crossed.resources ∧ r.readiness = .failed) ∧
    Sample.crossed.failedWithDependents = [Sample.failedFrontend, Sample.misledFrontend] ∧
    Sample.crossed.backends = [] ∧
    Sample.crossed.Refers Sample.misledServer Sample.misledFrontend ∧
    ¬ Sample.crossed.FailedClosure Sample.crossed.failedWithDependents := by
  have hid : ∀ r ∈ [Sample.failedFrontend, Sample.misledFrontend, Sample.misledServer],
      ∃ id, r.identifier = some id := by
    simp [Sample.failedFrontend, Sample.misledFrontend, Sample.misledServer, Resource.identifier]
  have hs : Sample.crossed.Classified := Snapshot.classified_ofList hid (by decide +kernel)
  have hout : Sample.crossed.failedWithDependents =
      [Sample.failedFrontend, Sample.misledFrontend] := by decide +kernel
  have hrefers : Sample.crossed.Refers Sample.misledServer Sample.misledFrontend := by
    decide +kernel
  refine ⟨hs.identified, hs.distinct, hs.mem_failed, hout, rfl, hrefers, ?_⟩
  intro h
  have hstays : Sample.misledServer ∉ Sample.crossed.failedWithDependents := by decide +kernel
  apply h.apart _ _ hrefers hstays
  rw [hout]
  exact List.mem_cons_of_mem _ List.mem_cons_self

end BalancerSync
