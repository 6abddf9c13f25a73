import BalancerSync.Proofs.Layout

namespace BalancerSync

variable {S T U : Holding} {id : Identifier} {r q : Resource} {l : Layout}

namespace Holding

def Single (S : Holding) : Prop := ∀ id r q, S id r → S id q → r = q

structure Ripens (S T : Holding) : Prop where
  kept : ∀ id r, S id r → T id r ∨ (r.status = .progressing ∧ T id (r.withStatus (.ready false)))
  former : ∀ id r, T id r → ∃ q, S id q

def without (S : Holding) (ids : List Identifier) : Holding := fun id r => S id r ∧ id ∉ ids

def adding (S : Holding) (es : List (Identifier × Resource)) : Holding :=
  fun id r => S id r ∨ (id, r) ∈ es

namespace Ripens

theorem of_iff (h : ∀ id r, T id r ↔ S id r) : S.Ripens T where
  kept id r hr := .inl ((h id r).2 hr)
  former id r hr := ⟨r, (h id r).1 hr⟩

theorem refl (S : Holding) : S.Ripens S := of_iff fun _ _ => Iff.rfl

theorem trans (h : S.Ripens T) (h' : T.Ripens U) : S.Ripens U where
  kept id r hr := by
    rcases h.kept id r hr with hr | ⟨hs, hr⟩
    · exact h'.kept id r hr
    · refine .inr ⟨hs, (h'.kept id _ hr).resolve_right ?_⟩
      simp
  former id r hr := by
    obtain ⟨q, hq⟩ := h'.former id r hr
    exact h.former id q hq

/-- An object that is held has been held, or has been deployed since. -/
theorem cases (h : S.Ripens T) (hT : T.Single) (hr : T id r) :
    S id r ∨ ∃ q, S id q ∧ q.status = .progressing ∧ r = q.withStatus (.ready false) := by
  obtain ⟨q, hq⟩ := h.former id r hr
  rcases h.kept id q hq with hq' | ⟨hs, hq'⟩
  · exact .inl (hT id q r hq' hr ▸ hq)
  · exact .inr ⟨q, hq, hs, hT id r _ hr hq'⟩

theorem has_iff (h : S.Ripens T) (hT : T.Single) : T.Has r id ↔ S.Has r id := by
  constructor
  · rintro ⟨q, hq, rfl⟩
    rcases h.cases hT hq with hq | ⟨p, hp, -, rfl⟩
    · exact ⟨q, hq, rfl⟩
    · exact ⟨p, hp, by simp⟩
  · rintro ⟨q, hq, rfl⟩
    rcases h.kept id q hq with hq | ⟨-, hq⟩
    · exact ⟨q, hq, rfl⟩
    · exact ⟨_, hq, by simp⟩

theorem iff_of_ready (h : S.Ripens T) (hT : T.Single)
    (hready : ∀ id r, S id r → r.status = .ready false) : T id r ↔ S id r := by
  constructor
  · intro hr
    rcases h.cases hT hr with hr | ⟨q, hq, hs, -⟩
    · exact hr
    · cases (hready id q hq).symm.trans hs
  · intro hr
    refine (h.kept id r hr).resolve_right fun hs => ?_
    cases (hready id r hr).symm.trans hs.1

theorem without (h : S.Ripens T) (ids : List Identifier) :
    (S.without ids).Ripens (T.without ids) where
  kept id r hr := (h.kept id r hr.1).imp (⟨·, hr.2⟩) fun hs => ⟨hs.1, hs.2, hr.2⟩
  former id r hr := (h.former id r hr.1).imp fun _ hq => ⟨hq, hr.2⟩

theorem adding (h : S.Ripens T) (es : List (Identifier × Resource)) :
    (S.adding es).Ripens (T.adding es) where
  kept id r hr := by
    rcases hr with hr | hr
    · exact (h.kept id r hr).imp .inl fun hs => ⟨hs.1, .inl hs.2⟩
    · exact .inl (.inr hr)
  former id r hr := by
    rcases hr with hr | hr
    · exact (h.former id r hr).imp fun _ => .inl
    · exact ⟨r, .inr hr⟩

end Ripens

theorem without_nil : S.without [] = S := by
  funext id r
  simp [without]

theorem without_without (ids ids' : List Identifier) :
    (S.without ids).without ids' = S.without (ids ++ ids') := by
  funext id r
  simp only [without, List.mem_append, not_or, and_assoc]

theorem adding_nil : S.adding [] = S := by
  funext id r
  simp [adding]

theorem adding_adding (es es' : List (Identifier × Resource)) :
    (S.adding es).adding es' = S.adding (es ++ es') := by
  funext id r
  simp only [adding, List.mem_append, or_assoc]

theorem has_adding {es : List (Identifier × Resource)} :
    (S.adding es).Has r id ↔ S.Has r id ∨ ∃ q, (id, q) ∈ es ∧ q.bare = r := by
  constructor
  · rintro ⟨q, hq | hq, hr⟩
    · exact .inl ⟨q, hq, hr⟩
    · exact .inr ⟨q, hq, hr⟩
  · rintro (⟨q, hq, hr⟩ | ⟨q, hq, hr⟩)
    · exact ⟨q, .inl hq, hr⟩
    · exact ⟨q, .inr hq, hr⟩

end Holding

theorem Layout.Wants.ripens (h : l.Wants S r) (hST : S.Ripens T) (hT : T.Single) : l.Wants T r :=
  h.mono fun _ _ => (hST.has_iff hT).2

end BalancerSync
