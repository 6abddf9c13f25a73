import BalancerSync.Plan
import BalancerSync.Proofs.Snapshot

namespace BalancerSync

namespace Service

theorem resourceName_cons (part : String) (rest : List String) (service : String) :
    resourceName (part :: rest) service =
      (if part = "" then ""
        else if resourceName rest service = "" then part
        else part ++ ".") ++ resourceName rest service := by
  have hempty : resourceName rest service = "" ↔
      (rest ++ [service]).filter (fun part => part ≠ "") = [] := by
    constructor
    · intro h
      cases hl : (rest ++ [service]).filter (fun part => part ≠ "") with
      | nil => rfl
      | cons s l =>
        have hs : s ∈ (rest ++ [service]).filter (fun part => part ≠ "") := by
          rw [hl]
          exact List.mem_cons_self
        have hs : s ≠ "" := by simpa using (List.mem_filter.1 hs).2
        rw [resourceName, hl] at h
        cases l with
        | nil => exact absurd (by simpa using h) hs
        | cons t l =>
          rw [String.intercalate_cons_cons] at h
          have := congrArg String.length h
          simp at this
    · intro h
      rw [resourceName, h, String.intercalate_nil]
  by_cases hp : part = ""
  · subst hp
    simp [resourceName]
  · rw [if_neg hp]
    have hcons : resourceName (part :: rest) service =
        ".".intercalate (part :: (rest ++ [service]).filter fun part => part ≠ "") := by
      simp [resourceName, hp]
    by_cases hr : resourceName rest service = ""
    · rw [if_pos hr, hr, hcons, hempty.1 hr]
      simp
    · rw [if_neg hr, hcons, String.intercalate_cons_of_ne_nil (mt hempty.2 hr)]
      rfl

theorem resourceName_injective {p q : String} {rest : List String} {service : String}
    (h : resourceName (p :: rest) service = resourceName (q :: rest) service) : p = q := by
  have hdot (s : String) : s ++ "." ≠ "" := by
    intro h
    have := congrArg String.length h
    simp at this
  rw [resourceName_cons, resourceName_cons, String.append_left_inj] at h
  by_cases hp : p = "" <;> by_cases hq : q = "" <;> simp only [hp, hq, if_true, if_false] at h
  · rw [hp, hq]
  · split at h
    · exact absurd h.symm hq
    · exact absurd h.symm (hdot q)
  · split at h
    · exact absurd h hp
    · exact absurd h (hdot p)
  · split at h
    · exact h
    · exact (String.append_left_inj ".").1 h

end Service

abbrev Holding := Identifier → Resource → Prop

namespace Holding

def Has (S : Holding) (r : Resource) (id : Identifier) : Prop := ∃ q, S id q ∧ q.bare = r

def Within (S T : Holding) : Prop := ∀ r id, S.Has r id → T.Has r id

end Holding

namespace Layout

/-- A resource is wanted as soon as all that it refers to is held. -/
inductive Wants (l : Layout) (S : Holding) : Resource → Prop
  | backend {port : String} (hp : port ∈ l.service.ports.keys) : l.Wants S (.backend (l.backend port))
  | frontend {port : String} {backend : Identifier} (hp : port ∈ l.service.ports.keys)
      (hb : S.Has (.backend (l.backend port)) backend) :
      l.Wants S (.frontend (l.frontend port backend))
  | bind {name : String} {port : Port} {address : Address} {backend frontend : Identifier}
      (hp : l.service.ports.get? name = some port) (ha : address ∈ l.service.externalAddresses)
      (hb : S.Has (.backend (l.backend name)) backend)
      (hf : S.Has (.frontend (l.frontend name backend)) frontend) :
      l.Wants S (.bind (l.bind name port.external frontend address))
  | server {name : String} {port : Port} {endpoint : Endpoint} {backend : Identifier}
      (hp : l.service.ports.get? name = some port) (he : endpoint ∈ l.service.endpoints)
      (hb : S.Has (.backend (l.backend name)) backend) :
      l.Wants S (.server (l.server name port.internal backend endpoint))

variable {l : Layout} {S T : Holding} {r : Resource} {id : Identifier}

theorem Wants.bare (h : l.Wants S r) : r.bare = r := by cases h <;> rfl

theorem Wants.mono (h : l.Wants S r) (hST : S.Within T) : l.Wants T r := by
  cases h with
  | backend hp => exact .backend hp
  | frontend hp hb => exact .frontend hp (hST _ _ hb)
  | bind hp ha hb hf => exact .bind hp ha (hST _ _ hb) (hST _ _ hf)
  | server hp he hb => exact .server hp he (hST _ _ hb)

theorem Wants.references (h : l.Wants S r) {j : Identifier} (hj : j ∈ r.references) :
    j = l.loadBalancer ∨ ∃ t, S.Has t j := by
  cases h with
  | backend hp => exact .inl (List.mem_singleton.1 hj)
  | frontend hp hb =>
    rcases List.mem_cons.1 hj with hj | hj
    · exact .inl hj
    · cases List.mem_singleton.1 hj
      exact .inr ⟨_, hb⟩
  | bind hp ha hb hf =>
    cases List.mem_singleton.1 hj
    exact .inr ⟨_, hf⟩
  | server hp he hb =>
    cases List.mem_singleton.1 hj
    exact .inr ⟨_, hb⟩

structure Neat (l : Layout) (S : Holding) : Prop where
  wanted : ∀ id r, S id r → l.Wants S r.bare
  unique : ∀ r i j, S.Has r i → S.Has r j → i = j

def wave : Kind → Nat
  | .backend => 0
  | .frontend | .server => 1
  | .bind => 2

def Filled (l : Layout) (waves : Nat) (S : Holding) : Prop :=
  ∀ r, l.Wants S r → wave r.kind < waves → ∃ id, S.Has r id

theorem filled_zero : l.Filled 0 S := fun _ _ h => absurd h (Nat.not_lt_zero _)

theorem Filled.held (h : l.Filled 3 S) (hr : l.Wants S r) : ∃ id, S.Has r id :=
  h r hr (by cases r <;> simp [wave, Resource.kind])

/-- If all that was wanted has been added, the next wave is there. -/
theorem Filled.next {waves : Nat} (h : l.Filled waves S) (hST : S.Within T) (hT : l.Neat T)
    (hadd : ∀ r, l.Wants S r → ∃ id, T.Has r id) : l.Filled (waves + 1) T := by
  -- What comes with an earlier wave has no second like in `T`, so it was held in `S`.
  have hback {r : Resource} {id : Identifier} (hw : l.Wants S r) (hr : T.Has r id)
      (hk : wave r.kind < waves) : S.Has r id := by
    obtain ⟨j, hj⟩ := h r hw hk
    exact hT.unique r j id (hST r j hj) hr ▸ hj
  intro r hr hk
  apply hadd
  cases hr with
  | backend hp => exact .backend hp
  | frontend hp hb =>
    have hk : 1 < waves + 1 := hk
    exact .frontend hp (hback (.backend hp) hb (by simp only [wave, Resource.kind]; omega))
  | bind hp ha hb hf =>
    have hk : 2 < waves + 1 := hk
    have hkeys := OrderedMap.mem_keys_of_get? hp
    have hb := hback (.backend hkeys) hb (by simp only [wave, Resource.kind]; omega)
    exact .bind hp ha hb (hback (.frontend hkeys hb) hf (by simp only [wave, Resource.kind]; omega))
  | server hp he hb =>
    have hk : 1 < waves + 1 := hk
    have hkeys := OrderedMap.mem_keys_of_get? hp
    exact .server hp he (hback (.backend hkeys) hb (by simp only [wave, Resource.kind]; omega))

end Layout

end BalancerSync
