import BalancerSync.Engine.Source
import BalancerSync.Proofs.Exchanges
import BalancerSync.Proofs.Program

namespace BalancerSync

open Program

def Call.isList : Call → Bool
  | .list _ => true
  | _ => false

namespace Program

variable {α β : Type}

/-- What a program comes to that is not canceled, and whose calls are these and get these answers.
Nothing if its calls are others, or if it asks for anything but calls that it can give up. -/
def replay : Program α → List Exchange → Option (Except Failure α)
  | done a, [] => some (.ok a)
  | fail failure, [] => some (.error failure)
  | ask .isCanceled next, exchanges => (next false).replay exchanges
  | ask (.watch c) next, x :: exchanges =>
    if h : x.1 = c then (next (some (h ▸ x.2))).replay exchanges else none
  | _, _ => none

theorem map_eq_error_iff {f : α → β} {out : Except Failure α} {failure : Failure} :
    out.map f = .error failure ↔ out = .error failure := by
  cases out <;> simp [Except.map]

theorem replay_watch (c : Call) (answer : c.Answer) (next : Option c.Answer → Program α)
    (exchanges : List Exchange) : (ask (.watch c) next).replay (⟨c, answer⟩ :: exchanges) =
      (next (some answer)).replay exchanges := dif_pos rfl

theorem replay_watch_eq_some {c : Call} {next : Option c.Answer → Program α}
    {exchanges : List Exchange} {out : Except Failure α}
    (h : (ask (.watch c) next).replay exchanges = some out) : ∃ answer rest,
      exchanges = ⟨c, answer⟩ :: rest ∧ (next (some answer)).replay rest = some out := by
  cases exchanges with
  | nil => cases h
  | cons x rest =>
    obtain ⟨c', answer⟩ := x
    rw [replay] at h
    split at h
    next hc =>
      subst hc
      exact ⟨answer, rest, rfl, h⟩
    next => cases h

/-- The result of a replay is made into another one. -/
theorem replay_map (f : α → β) (p : Program α) (exchanges : List Exchange) :
    (p >>= fun a => done (f a)).replay exchanges = (p.replay exchanges).map (Except.map f) := by
  induction p generalizing exchanges with
  | done a | fail failure => cases exchanges <;> rfl
  | ask q next ih =>
    cases q with
    | isCanceled => exact ih false exchanges
    | watch c =>
      cases exchanges with
      | nil => rfl
      | cons x rest =>
        rw [ask_bind, replay, replay]
        split
        · exact ih _ rest
        · rfl
    | _ => rfl

end Program

namespace Engine

variable {tag : Tag} {lb : Identifier} {exchanges : List Exchange} {n : Nat}

theorem replay_fetchListed {entries : List Listed} {out : Except Failure (List Resource)}
    (h : (fetchListed entries).replay exchanges = some out) :
    out ≠ .error .canceled ∧ ∀ x ∈ exchanges, x.1.isList = false := by
  induction entries generalizing exchanges out with
  | nil =>
    cases exchanges with
    | nil =>
      cases h
      exact ⟨by simp, by simp⟩
    | cons x rest => cases h
  | cons entry entries ih =>
    rw [fetchListed] at h
    cases hkind : Kind.ofTypeIdentifier? entry.typeIdentifier with
    | none =>
      rw [hkind] at h
      exact ih h
    | some kind =>
      rw [hkind] at h
      obtain ⟨answer, rest, hexchanges, hrest⟩ := replay_watch_eq_some h
      rw [hexchanges, List.forall_mem_cons]
      rcases answer with refusal | resource
      · cases refusal with
        | notFound => exact (ih hrest).imp_right fun hlists => ⟨rfl, hlists⟩
        | _ =>
          cases rest with
          | nil =>
            cases hrest
            exact ⟨by simp, rfl, by simp⟩
          | cons x rest => cases hrest
      · obtain ⟨out', hout', rfl⟩ := Option.map_eq_some_iff.1 ((replay_map _ _ _).symm.trans hrest)
        obtain ⟨hcanceled, hlists⟩ := ih hout'
        exact ⟨fun hout => hcanceled (map_eq_error_iff.1 hout), rfl, hlists⟩

/-- A fetch that is not canceled lists the tag once, before all else. -/
theorem replay_fetch {out : Except Failure Snapshot} (h : (fetch tag).replay exchanges = some out) :
    out ≠ .error .canceled ∧ ∃ answer gets, exchanges = ⟨.list tag, answer⟩ :: gets ∧
      ∀ x ∈ gets, x.1.isList = false := by
  obtain ⟨answer, rest, hexchanges, hrest⟩ := replay_watch_eq_some (c := .list tag) h
  rcases answer with refusal | listed
  · -- There is nothing to look at.
    have hnil : rest = [] := by
      cases rest with
      | nil => rfl
      | cons x rest => cases refusal <;> cases hrest
    subst hnil
    refine ⟨?_, _, [], hexchanges, by simp⟩
    cases refusal <;> cases hrest <;> simp
  · obtain ⟨out', hout', rfl⟩ := Option.map_eq_some_iff.1 ((replay_map _ _ _).symm.trans hrest)
    obtain ⟨hcanceled, hlists⟩ := replay_fetchListed hout'
    exact ⟨fun hout => hcanceled (map_eq_error_iff.1 hout), _, _, hexchanges, hlists⟩

theorem countP_isList_of_replay {out : Except Failure Snapshot}
    (h : (fetch tag).replay exchanges = some out) :
    exchanges.countP (fun x => x.1.isList) = 1 := by
  obtain ⟨-, answer, gets, rfl, hgets⟩ := replay_fetch h
  have hnone : gets.countP (fun x => x.1.isList) = 0 := by
    rw [List.countP_eq_zero]
    exact fun x hx => by simp [hgets x hx]
  rw [List.countP_cons_of_pos rfl, hnone]

/-- A load balancer that fetches for itself gets its part of what it would fetch for all of them. -/
theorem replay_direct (tag : Tag) (lb : Identifier) (exchanges : List Exchange) :
    ((Source.direct tag).snapshot lb).replay exchanges =
      ((fetch tag).replay exchanges).map (Except.map (·.narrowTo lb)) := replay_map ..

def listing (tag : Tag) : Environment Nat where
  rely n n' := n' = n
  allows q n :=
    match q with
    | .watch (.list tag') => tag' = tag ∧ n = 0
    | .watch (.get _ _) | .isCanceled => True
    | _ => False
  replies q n reply n' := n' = n + ((q.exchange? reply).toList).countP fun x => x.1.isList

/-- Whatever it gets to hear, a fetch lists the tag at most once. -/
theorem fetchListed_meets_listing (entries : List Listed) :
    (fetchListed entries).Meets (listing tag) (fun _ _ => True) n := by
  induction entries with
  | nil => trivial
  | cons entry entries ih =>
    rw [fetchListed]
    cases Kind.ofTypeIdentifier? entry.typeIdentifier with
    | none => exact ih
    | some kind =>
      rintro n rfl
      refine ⟨trivial, fun answer n' hn' => ?_⟩
      obtain rfl : n' = n := by cases answer <;> exact hn'
      rcases answer with _ | refusal | resource
      · trivial
      · cases refusal <;> first | exact ih | trivial
      · exact ih.bind (fun _ _ _ => trivial) fun _ _ _ => trivial

theorem fetch_meets_listing (tag : Tag) : (fetch tag).Meets (listing tag) (fun _ _ => True) 0 := by
  rintro n rfl
  refine ⟨trivial, ?_⟩
  rintro canceled n rfl
  cases canceled with
  | true => trivial
  | false =>
    rintro n rfl
    refine ⟨⟨rfl, rfl⟩, fun answer n hn => ?_⟩
    rcases answer with _ | refusal | listed
    · trivial
    · cases refusal <;> trivial
    · exact (fetchListed_meets_listing listed).bind (fun _ _ _ => trivial) fun _ _ _ => trivial

end Engine

end BalancerSync
