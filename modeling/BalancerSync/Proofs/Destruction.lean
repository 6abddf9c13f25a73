import Mathlib.Tactic.Ring
import BalancerSync.Proofs.Alone
import BalancerSync.Proofs.Requests
import BalancerSync.Proofs.Snapshot

namespace BalancerSync

open Program

variable {σ : Type}

/-- A call to destroy an object, and its answer. -/
structure Attempt where
  kind : Kind
  id : Identifier
  answer : Except Refusal Unit
  deriving DecidableEq

namespace Attempt

def event (a : Attempt) : Event := .called (.destroy a.kind a.id)

def Of (a : Attempt) (r : Resource) : Prop := r.kind = a.kind ∧ r.identifier = some a.id

def IsGone (a : Attempt) : Prop := a.answer = .ok () ∨ a.answer = .error .notFound

def IsLimited (a : Attempt) : Prop := a.answer = .error .rateLimited

def IsRefused (a : Attempt) : Prop := ¬ a.IsGone ∧ ¬ a.IsLimited

variable {a : Attempt} {r : Resource}

instance : Decidable (a.Of r) := inferInstanceAs (Decidable (_ ∧ _))
instance : Decidable a.IsGone := inferInstanceAs (Decidable (_ ∨ _))
instance : Decidable a.IsLimited := inferInstanceAs (Decidable (_ = _))
instance : Decidable a.IsRefused := inferInstanceAs (Decidable (_ ∧ _))

theorem Of.identifier_eq {q : Resource} (h : a.Of r) (h' : a.Of q) : r.identifier = q.identifier :=
  h.2.trans h'.2.symm

theorem IsGone.not_isLimited (h : a.IsGone) : ¬ a.IsLimited := by
  intro hl
  rcases h with h | h <;> exact absurd (h.symm.trans hl) (by simp)

end Attempt

def Provider.Grants (p : Provider σ) : σ → List Attempt → σ → Prop
  | s, [], s' => s' = s
  | s, a :: rest, s' => (p.answer (.destroy a.kind a.id) s).1 = a.answer ∧
      p.Grants (p.answer (.destroy a.kind a.id) s).2 rest s'

theorem Provider.grants_append {p : Provider σ} {s s' : σ} {before after : List Attempt} :
    p.Grants s (before ++ after) s' ↔ ∃ t, p.Grants s before t ∧ p.Grants t after s' := by
  induction before generalizing s with
  | nil => simp [Grants]
  | cons a before ih =>
    rw [List.cons_append, Grants, ih]
    constructor
    · rintro ⟨ha, t, hb, hafter⟩
      exact ⟨t, ⟨ha, hb⟩, hafter⟩
    · rintro ⟨t, ⟨ha, hb⟩, hafter⟩
      exact ⟨ha, t, hb, hafter⟩

/-- The attempts are all that has happened. -/
structure Surroundings.Attempted (k : Conditions σ) (s : Surroundings σ) (attempts : List Attempt)
    (s' : Surroundings σ) : Prop extends s'.Uncanceled k where
  leads : s'.leads = none
  grants : k.own.Grants s.provider attempts s'.provider
  events : s'.events = (attempts.map Attempt.event).reverse ++ s.events

namespace Engine

variable {attempts : List Attempt} {pending queue refused : List Resource} {a : Attempt}
  {r : Resource} {out : Except Failure Unit}

def Gone (attempts : List Attempt) (r : Resource) : Prop := ∃ a ∈ attempts, a.Of r ∧ a.IsGone

instance : Decidable (Gone attempts r) := inferInstanceAs (Decidable (∃ a ∈ attempts, _))

def remaining (attempts : List Attempt) (rs : List Resource) : List Resource :=
  rs.filter fun r => ¬ Gone attempts r

/-- What destroying resources may come to. -/
structure Accounts (pending : List Resource) (attempts : List Attempt)
    (out : Except Failure Unit) : Prop where
  /-- No other objects are attempted, -/
  attempted : ∀ a ∈ attempts, ∃ r ∈ pending, a.Of r
  few : attempts.length ≤ pending.length * (pending.length + 1) / 2
  /-- and none after it was found gone. -/
  gone_once : attempts.Pairwise fun a b => a.IsGone → b.id ≠ a.id
  ok_iff : out = .ok () ↔ ∀ r ∈ pending, Gone attempts r
  /-- The provider limits no attempt but the last one. -/
  limited_last : ∀ a ∈ attempts.dropLast, ¬ a.IsLimited
  limited : (∃ a ∈ attempts, a.IsLimited) → ∃ ids, out = .error (.rateLimited ids) ∧
    ids.Nodup ∧ ids.Perm (identifiers (remaining attempts pending))
  /-- Without a limit, what is left was refused in the last pass, which attempted nothing else. -/
  stuck : (∀ a ∈ attempts, ¬ a.IsLimited) → out ≠ .ok () → ∃ before last,
    attempts = before ++ last ∧ (∀ a ∈ last, a.IsRefused) ∧
    out = .error (.notDestroyable (last.map Attempt.id)) ∧ (last.map Attempt.id).Nodup ∧
    (last.map Attempt.id).Perm (identifiers (remaining attempts pending))

inductive Tried : List Resource → List Attempt → List Resource → Prop
  | nil : Tried [] [] []
  | gone {r : Resource} {queue : List Resource} {a : Attempt} {attempts : List Attempt}
      {refused : List Resource} (ha : a.Of r) (hg : a.IsGone)
      (h : Tried queue attempts refused) : Tried (r :: queue) (a :: attempts) refused
  | refused {r : Resource} {queue : List Resource} {a : Attempt} {attempts : List Attempt}
      {refused : List Resource} (ha : a.Of r) (hr : a.IsRefused)
      (h : Tried queue attempts refused) : Tried (r :: queue) (a :: attempts) (r :: refused)

inductive PassEnds (before : List Resource) :
    List Resource → List Attempt → Except Failure (List Resource) → Prop
  | whole {queue : List Resource} {attempts : List Attempt} {refused : List Resource}
      (h : Tried queue attempts refused) : PassEnds before queue attempts (.ok (before ++ refused))
  | limited {queue : List Resource} {attempts : List Attempt} {refused rest : List Resource}
      {r : Resource} {a : Attempt} (h : Tried queue attempts refused) (ha : a.Of r)
      (hl : a.IsLimited) : PassEnds before (queue ++ r :: rest) (attempts ++ [a])
        (.error (.rateLimited (a.id :: identifiers (before ++ refused) ++ identifiers rest)))

namespace Tried

theorem sublist (h : Tried queue attempts refused) : refused.Sublist queue := by
  induction h with
  | nil => exact .refl _
  | gone _ _ _ ih => exact ih.cons _
  | refused _ _ _ ih => exact ih.cons_cons _

theorem length_eq (h : Tried queue attempts refused) : attempts.length = queue.length := by
  induction h with
  | nil => rfl
  | gone _ _ _ ih => rw [List.length_cons, List.length_cons, ih]
  | refused _ _ _ ih => rw [List.length_cons, List.length_cons, ih]

theorem exists_of (h : Tried queue attempts refused) (ha : a ∈ attempts) : ∃ r ∈ queue, a.Of r := by
  induction h with
  | nil => cases ha
  | gone hr _ _ ih | refused hr _ _ ih =>
    rcases List.mem_cons.1 ha with rfl | ha
    · exact ⟨_, List.mem_cons_self, hr⟩
    · obtain ⟨q, hq, haq⟩ := ih ha
      exact ⟨q, List.mem_cons_of_mem _ hq, haq⟩

theorem not_isLimited (h : Tried queue attempts refused) (ha : a ∈ attempts) : ¬ a.IsLimited := by
  induction h with
  | nil => cases ha
  | gone _ hg _ ih =>
    rcases List.mem_cons.1 ha with rfl | ha
    · exact hg.not_isLimited
    · exact ih ha
  | refused _ hr _ ih =>
    rcases List.mem_cons.1 ha with rfl | ha
    · exact hr.2
    · exact ih ha

/-- Each resource is attempted once, in the order of the queue. -/
theorem map_id (h : Tried queue attempts refused) :
    attempts.map Attempt.id = identifiers queue := by
  induction h with
  | nil => rfl
  | gone ha _ _ ih | refused ha _ _ ih => rw [List.map_cons, ih, identifiers, identifiers,
      List.filterMap_cons_some ha.2]

theorem some_id_mem (h : Tried queue attempts refused) (ha : a ∈ attempts) :
    some a.id ∈ queue.map Resource.identifier := by
  obtain ⟨q, hq, haq⟩ := h.exists_of ha
  rw [← haq.2]
  exact List.mem_map_of_mem hq

theorem gone_once (h : Tried queue attempts refused) (hd : (queue.map Resource.identifier).Nodup) :
    attempts.Pairwise fun a b => a.IsGone → b.id ≠ a.id := by
  induction h with
  | nil => exact .nil
  | gone ha _ h ih | refused ha _ h ih =>
    obtain ⟨hr, hd⟩ := List.nodup_cons.1 hd
    apply List.Pairwise.cons _ (ih hd)
    intro b hb _ heq
    have hmem := h.some_id_mem hb
    rw [heq, ← ha.2] at hmem
    exact hr hmem

/-- If as much is refused as was attempted, all of it is refused. -/
theorem forall_isRefused (h : Tried queue attempts refused) (hlen : refused.length = queue.length) :
    ∀ a ∈ attempts, a.IsRefused := by
  induction h with
  | nil => nofun
  | gone _ _ h _ =>
    have := h.sublist.length_le
    rw [List.length_cons] at hlen
    omega
  | refused _ hr _ ih =>
    intro a ha
    rcases List.mem_cons.1 ha with rfl | ha
    · exact hr
    · exact ih (Nat.succ.inj hlen) a ha

end Tried

theorem gone_append {before after : List Attempt} :
    Gone (before ++ after) r ↔ Gone before r ∨ Gone after r := by
  simp only [Gone, List.mem_append, or_and_right, exists_or]

theorem remaining_append_attempts (before after : List Attempt) (rs : List Resource) :
    remaining (before ++ after) rs = remaining after (remaining before rs) := by
  rw [remaining, remaining, remaining, List.filter_filter]
  apply List.filter_congr
  intro r _
  rw [decide_not, decide_not, decide_not, Bool.eq_iff_iff]
  simp [gone_append, and_comm]

theorem remaining_eq_nil_iff {rs : List Resource} :
    remaining attempts rs = [] ↔ ∀ r ∈ rs, Gone attempts r := by
  rw [remaining, List.filter_eq_nil_iff]
  simp

/-- What was not attempted remains, and what was attempted but is not gone. -/
theorem remaining_eq_self (h : ∀ a ∈ attempts, ∀ r ∈ queue, a.Of r → ¬ a.IsGone) :
    remaining attempts queue = queue := by
  apply List.filter_eq_self.2
  intro r hr
  apply decide_eq_true
  rintro ⟨a, ha, har, hg⟩
  exact h a ha r hr har hg

theorem identifiers_nodup {rs : List Resource} (h : (rs.map Resource.identifier).Nodup) :
    (identifiers rs).Nodup := by
  have heq : identifiers rs = (rs.map Resource.identifier).filterMap id := by
    rw [List.filterMap_map]
    rfl
  rw [heq]
  apply h.filterMap
  intro x y id hx hy
  exact (Option.mem_def.1 hx).trans (Option.mem_def.1 hy).symm

/-- The first attempt of a pass is the only one that tells of its resource. -/
theorem remaining_cons (ha : a.Of r) (hr : r.identifier ∉ queue.map Resource.identifier)
    (hne : ∀ b ∈ attempts, ¬ b.Of r) : remaining (a :: attempts) (r :: queue) =
      if a.IsGone then remaining attempts queue else r :: remaining attempts queue := by
  have hqueue : remaining (a :: attempts) queue = remaining attempts queue := by
    have hself : remaining [a] queue = queue := by
      apply remaining_eq_self
      intro b hb q hq hbq
      rw [List.mem_singleton.1 hb] at hbq
      apply absurd _ hr
      rw [ha.identifier_eq hbq]
      exact List.mem_map_of_mem hq
    rw [← List.singleton_append, remaining_append_attempts, hself]
  have hgone : Gone (a :: attempts) r ↔ a.IsGone := by
    rw [Gone, List.exists_mem_cons_iff]
    constructor
    · intro h
      rcases h with h | ⟨b, hb, hbr, _⟩
      · exact h.2
      · exact absurd hbr (hne b hb)
    · intro h
      exact .inl ⟨ha, h⟩
  rw [← hqueue, remaining, List.filter_cons]
  by_cases h : a.IsGone
  · rw [if_pos h, if_neg (by simpa [hgone] using h)]
    rfl
  · rw [if_neg h, if_pos (by simpa [hgone] using h)]
    rfl

namespace Tried

theorem not_of (h : Tried queue attempts refused)
    (hr : r.identifier ∉ queue.map Resource.identifier) (ha : a ∈ attempts) : ¬ a.Of r := by
  intro har
  apply hr
  rw [har.2]
  exact h.some_id_mem ha

theorem refused_eq (h : Tried queue attempts refused)
    (hd : (queue.map Resource.identifier).Nodup) : refused = remaining attempts queue := by
  induction h with
  | nil => rfl
  | gone ha hg h ih =>
    obtain ⟨hr, hd⟩ := List.nodup_cons.1 hd
    rw [remaining_cons ha hr (fun b hb => h.not_of hr hb), if_pos hg]
    exact ih hd
  | refused ha hrefused h ih =>
    obtain ⟨hr, hd⟩ := List.nodup_cons.1 hd
    rw [remaining_cons ha hr (fun b hb => h.not_of hr hb), if_neg hrefused.1, ih hd]

end Tried

inductive Passes : List Resource → List Attempt → Except Failure Unit → Prop
  | done {queue : List Resource} {attempts : List Attempt} (h : Tried queue attempts []) :
      Passes queue attempts (.ok ())
  | stuck {queue : List Resource} {attempts : List Attempt} {refused : List Resource}
      (h : Tried queue attempts refused) (hne : refused ≠ [])
      (hlen : refused.length = queue.length) :
      Passes queue attempts (.error (.notDestroyable (identifiers refused)))
  | limited {queue : List Resource} {attempts : List Attempt} {refused rest : List Resource}
      {r : Resource} {a : Attempt} (h : Tried queue attempts refused) (ha : a.Of r)
      (hl : a.IsLimited) : Passes (queue ++ r :: rest) (attempts ++ [a])
        (.error (.rateLimited (a.id :: identifiers refused ++ identifiers rest)))
  | again {queue : List Resource} {attempts attempts' : List Attempt} {refused : List Resource}
      {out : Except Failure Unit} (h : Tried queue attempts refused) (hne : refused ≠ [])
      (hlen : refused.length ≠ queue.length) (h' : Passes refused attempts' out) :
      Passes queue (attempts ++ attempts') out

namespace Passes

theorem exists_of (h : Passes queue attempts out) (ha : a ∈ attempts) : ∃ r ∈ queue, a.Of r := by
  induction h with
  | done h | stuck h _ _ => exact h.exists_of ha
  | limited h har _ =>
    rcases List.mem_append.1 ha with ha | ha
    · obtain ⟨q, hq, haq⟩ := h.exists_of ha
      exact ⟨q, List.mem_append_left _ hq, haq⟩
    · rw [List.mem_singleton.1 ha]
      exact ⟨_, List.mem_append_right _ List.mem_cons_self, har⟩
  | again h _ _ _ ih =>
    rcases List.mem_append.1 ha with ha | ha
    · exact h.exists_of ha
    · obtain ⟨q, hq, haq⟩ := ih ha
      exact ⟨q, h.sublist.subset hq, haq⟩

/-- A pass that is not the last one finds at least one resource gone. -/
theorem two_mul_length_le (h : Passes queue attempts out) :
    2 * attempts.length ≤ queue.length * (queue.length + 1) := by
  have hwhole (n : Nat) : 2 * n ≤ n * (n + 1) := by
    cases n with
    | zero => exact Nat.le_refl _
    | succ n =>
      rw [Nat.mul_comm]
      exact Nat.mul_le_mul_left _ (by omega)
  induction h with
  | done h | stuck h _ _ =>
    rw [h.length_eq]
    exact hwhole _
  | @limited queue attempts refused rest r a h _ _ =>
    have hlen : (attempts ++ [a]).length ≤ (queue ++ r :: rest).length := by
      rw [List.length_append, List.length_append, h.length_eq, List.length_singleton,
        List.length_cons]
      omega
    exact (Nat.mul_le_mul_left 2 hlen).trans (hwhole _)
  | @again queue attempts attempts' refused out h _ hlen _ ih =>
    obtain ⟨n, hn⟩ : ∃ n, queue.length = n + 1 := by
      have := h.sublist.length_le
      exact ⟨queue.length - 1, by omega⟩
    have hle : refused.length ≤ n := by
      have := h.sublist.length_le
      omega
    have hrest : refused.length * (refused.length + 1) ≤ n * (n + 1) :=
      Nat.mul_le_mul hle (by omega)
    rw [List.length_append, h.length_eq, hn]
    have hsum : (n + 1) * (n + 1 + 1) = 2 * (n + 1) + n * (n + 1) := by ring
    omega

theorem gone_once (h : Passes queue attempts out) (hd : (queue.map Resource.identifier).Nodup) :
    attempts.Pairwise fun a b => a.IsGone → b.id ≠ a.id := by
  induction h with
  | done h | stuck h _ _ => exact h.gone_once hd
  | @limited queue attempts refused rest r a h har _ =>
    rw [List.map_append, List.nodup_append] at hd
    refine List.pairwise_append.2 ⟨h.gone_once hd.1, List.pairwise_singleton _ _, ?_⟩
    intro b hb c hc _ heq
    rw [List.mem_singleton.1 hc] at heq
    apply hd.2.2 _ (h.some_id_mem hb) r.identifier (by simp)
    rw [har.2, heq]
  | @again queue attempts attempts' refused out h _ _ h' ih =>
    have hd' := (h.sublist.map Resource.identifier).nodup hd
    refine List.pairwise_append.2 ⟨h.gone_once hd, ih hd', ?_⟩
    intro a ha b hb hg heq
    obtain ⟨q, hq, hbq⟩ := h'.exists_of hb
    obtain ⟨r, hr, har⟩ := h.exists_of ha
    have hrq : r = q := by
      apply List.inj_on_of_nodup_map hd hr (h.sublist.subset hq)
      rw [har.2, hbq.2, heq]
    rw [h.refused_eq hd, remaining, List.mem_filter, decide_eq_true_eq] at hq
    exact hq.2 ⟨a, ha, hrq ▸ har, hg⟩

end Passes

inductive Verdict (left : List Resource) : List Attempt → Except Failure Unit → Prop
  | ok {attempts : List Attempt} (hleft : left = []) (hfree : ∀ a ∈ attempts, ¬ a.IsLimited) :
      Verdict left attempts (.ok ())
  | stuck {before last : List Attempt} (hleft : left ≠ [])
      (hfree : ∀ a ∈ before ++ last, ¬ a.IsLimited) (hlast : ∀ a ∈ last, a.IsRefused)
      (hids : last.map Attempt.id = identifiers left) :
      Verdict left (before ++ last) (.error (.notDestroyable (last.map Attempt.id)))
  | limited {before : List Attempt} {a : Attempt} {ids : List Identifier} (hleft : left ≠ [])
      (hfree : ∀ b ∈ before, ¬ b.IsLimited) (hl : a.IsLimited)
      (hids : ids.Perm (identifiers left)) :
      Verdict left (before ++ [a]) (.error (.rateLimited ids))

/-- Attempts that the provider did not limit may have been made before. -/
theorem Verdict.append {left : List Resource} {before : List Attempt}
    (h : Verdict left attempts out) (hbefore : ∀ a ∈ before, ¬ a.IsLimited) :
    Verdict left (before ++ attempts) out := by
  cases h with
  | ok hleft hfree =>
    exact .ok hleft (List.forall_mem_append.2 ⟨hbefore, hfree⟩)
  | stuck hleft hfree hlast hids =>
    rw [← List.append_assoc]
    apply Verdict.stuck hleft _ hlast hids
    rw [List.append_assoc]
    exact List.forall_mem_append.2 ⟨hbefore, hfree⟩
  | limited hleft hfree hl hids =>
    rw [← List.append_assoc]
    exact .limited hleft (List.forall_mem_append.2 ⟨hbefore, hfree⟩) hl hids

namespace Passes

theorem verdict (h : Passes queue attempts out) (hd : (queue.map Resource.identifier).Nodup) :
    Verdict (remaining attempts queue) attempts out := by
  induction h with
  | done h =>
    rw [← h.refused_eq hd]
    exact .ok rfl fun a ha => h.not_isLimited ha
  | @stuck queue attempts refused h hne hlen =>
    rw [← h.refused_eq hd]
    have hids : attempts.map Attempt.id = identifiers refused := by
      rw [h.sublist.eq_of_length hlen]
      exact h.map_id
    rw [← hids]
    have hverdict : Verdict refused ([] ++ attempts) _ :=
      .stuck hne (fun a ha => h.not_isLimited ha) (h.forall_isRefused hlen) hids
    exact hverdict
  | @limited queue attempts refused rest r a h har hl =>
    rw [List.map_append, List.nodup_append] at hd
    have hqueue : remaining (attempts ++ [a]) queue = refused := by
      rw [remaining_append_attempts, ← h.refused_eq hd.1]
      apply remaining_eq_self
      intro b hb q _ _ hg
      rw [List.mem_singleton.1 hb] at hg
      exact hg.not_isLimited hl
    have hrest : remaining (attempts ++ [a]) (r :: rest) = r :: rest := by
      apply remaining_eq_self
      intro b hb q hq hbq hg
      rcases List.mem_append.1 hb with hb | hb
      · exact hd.2.2 _ (h.some_id_mem hb) _ (List.mem_map_of_mem hq) hbq.2.symm
      · rw [List.mem_singleton.1 hb] at hg
        exact hg.not_isLimited hl
    have hleft : remaining (attempts ++ [a]) (queue ++ r :: rest) = refused ++ r :: rest := by
      rw [remaining, List.filter_append]
      exact congrArg₂ _ hqueue hrest
    have hids : identifiers (refused ++ r :: rest) =
        identifiers refused ++ a.id :: identifiers rest := by
      rw [identifiers, List.filterMap_append, List.filterMap_cons_some har.2]
      rfl
    rw [hleft]
    apply Verdict.limited (by simp) (fun b hb => h.not_isLimited hb) hl
    rw [hids]
    exact List.perm_middle.symm
  | @again queue attempts attempts' refused out h _ _ h' ih =>
    rw [remaining_append_attempts, ← h.refused_eq hd]
    exact (ih ((h.sublist.map Resource.identifier).nodup hd)).append fun a ha => h.not_isLimited ha

/-- Nothing is told twice, and nothing but what is left. -/
theorem accounts (h : Passes queue attempts out) (hperm : queue.Perm pending)
    (hd : (pending.map Resource.identifier).Nodup) : Accounts pending attempts out := by
  have hqueue : (queue.map Resource.identifier).Nodup := (hperm.map _).nodup_iff.2 hd
  have hleft : (remaining attempts queue).Perm (remaining attempts pending) := hperm.filter _
  have hids : (identifiers (remaining attempts queue)).Perm
      (identifiers (remaining attempts pending)) := hleft.filterMap _
  have hn : (identifiers (remaining attempts pending)).Nodup :=
    identifiers_nodup ((List.filter_sublist.map Resource.identifier).nodup hd)
  have hnil : remaining attempts queue = [] ↔ ∀ r ∈ pending, Gone attempts r := by
    rw [remaining_eq_nil_iff]
    simp only [hperm.mem_iff]
  have hv := h.verdict hqueue
  refine ⟨?_, ?_, h.gone_once hqueue, ?_, ?_, ?_, ?_⟩
  · intro a ha
    obtain ⟨r, hr, har⟩ := h.exists_of ha
    exact ⟨r, hperm.mem_iff.1 hr, har⟩
  · apply (Nat.le_div_iff_mul_le Nat.two_pos).2
    rw [Nat.mul_comm, ← hperm.length_eq]
    exact h.two_mul_length_le
  · rw [← hnil]
    cases hv with
    | ok hleft _ => exact iff_of_true rfl hleft
    | stuck hleft _ _ _ | limited hleft _ _ _ => exact iff_of_false nofun hleft
  · cases hv with
    | ok _ hfree | stuck _ hfree _ _ => exact fun a ha => hfree a (List.dropLast_subset _ ha)
    | limited _ hfree _ _ =>
      rw [List.dropLast_concat]
      exact hfree
  · rintro ⟨a, ha, hl⟩
    cases hv with
    | ok _ hfree | stuck _ hfree _ _ => exact absurd hl (hfree a ha)
    | @limited _ _ ids _ _ _ hp => exact ⟨ids, rfl, (hp.trans hids).nodup_iff.2 hn, hp.trans hids⟩
  · intro hfree hne
    cases hv with
    | ok _ _ => exact absurd rfl hne
    | @stuck before last _ _ hlast heq =>
      rw [← heq] at hids
      exact ⟨before, last, rfl, hlast, rfl, hids.nodup_iff.2 hn, hids⟩
    | limited _ _ hl _ => exact absurd hl (hfree _ (by simp))

end Passes

/-- Surroundings that do nothing but answer attempts, in whatever way. They keep the attempts. -/
def attempting : Environment (List Attempt) where
  rely attempts attempts' := attempts' = attempts
  allows q _ := q.Destroys
  replies
    | .call (.destroy kind id), attempts, answer, attempts' =>
      attempts' = attempts ++ [⟨kind, id, answer⟩]
    | .isCanceled, attempts, canceled, attempts' => canceled = false ∧ attempts' = attempts
    | _, _, _, _ => False

namespace PassEnds

variable {before : List Resource} {out : Except Failure (List Resource)}

theorem cons_gone (ha : a.Of r) (hg : a.IsGone) (h : PassEnds before queue attempts out) :
    PassEnds before (r :: queue) (a :: attempts) out := by
  cases h with
  | whole h => exact .whole (h.gone ha hg)
  | limited h hb hl => exact .limited (h.gone ha hg) hb hl

theorem cons_refused (ha : a.Of r) (hr : a.IsRefused)
    (h : PassEnds (before ++ [r]) queue attempts out) :
    PassEnds before (r :: queue) (a :: attempts) out := by
  cases h with
  | whole h =>
    rw [List.append_assoc]
    exact .whole (h.refused ha hr)
  | limited h hb hl =>
    rw [List.append_assoc]
    exact .limited (h.refused ha hr) hb hl

end PassEnds

theorem attempting_checkpoint {α : Type} {post : Except Failure α → List Attempt → Prop}
    {f : Unit → Program α} (h : (f ()).Meets attempting post attempts) :
    (checkpoint >>= f).Meets attempting post attempts := by
  intro s hs
  cases hs
  refine ⟨trivial, ?_⟩
  intro canceled s hreply
  obtain ⟨hc, hs⟩ := hreply
  cases hc
  cases hs
  exact h

theorem attempting_destroy {α : Type} {post : Except Failure α → List Attempt → Prop}
    {kind : Kind} {id : Identifier} {f : Except Refusal Unit → Program α}
    (h : ∀ answer, (f answer).Meets attempting post (attempts ++ [⟨kind, id, answer⟩])) :
    (request (.call (.destroy kind id)) >>= f).Meets attempting post attempts := by
  intro s hs
  cases hs
  refine ⟨trivial, ?_⟩
  intro answer s hs
  cases hs
  exact h answer

theorem destroyPass_meets_attempting (before : List Resource)
    (hid : ∀ r ∈ queue, ∃ id, r.identifier = some id) :
    (destroyPass before queue).Meets attempting (fun out s => ∃ new, s = attempts ++ new ∧
      PassEnds before queue new out) attempts := by
  induction queue generalizing before attempts with
  | nil =>
    have hends : PassEnds before [] [] (.ok (before ++ [])) := .whole .nil
    rw [List.append_nil] at hends
    exact ⟨[], (List.append_nil _).symm, hends⟩
  | cons r queue ih =>
    obtain ⟨id, hr⟩ := hid r List.mem_cons_self
    have hid (q : Resource) (hq : q ∈ queue) := hid q (List.mem_cons_of_mem _ hq)
    simp only [destroyPass, hr]
    apply attempting_checkpoint
    apply attempting_destroy
    intro answer
    have hof : Attempt.Of ⟨r.kind, id, answer⟩ r := ⟨rfl, hr⟩
    -- The attempt, and then whatever comes of a pass over the rest.
    have hrest (before' : List Resource) (hcons : ∀ new out, PassEnds before' queue new out →
        PassEnds before (r :: queue) (⟨r.kind, id, answer⟩ :: new) out) :
        (destroyPass before' queue).Meets attempting (fun out s => ∃ new, s = attempts ++ new ∧
          PassEnds before (r :: queue) new out) (attempts ++ [⟨r.kind, id, answer⟩]) := by
      apply (ih before' hid).mono
      intro out s h
      obtain ⟨new, hs, hends⟩ := h
      exact ⟨_, hs.trans (List.append_assoc _ _ _), hcons new out hends⟩
    cases answer with
    | ok _ => exact hrest before fun _ _ => .cons_gone hof (.inl rfl)
    | error refusal =>
      cases refusal with
      | notFound => exact hrest before fun _ _ => .cons_gone hof (.inr rfl)
      | rateLimited =>
        have hends : PassEnds before ([] ++ r :: queue) ([] ++ [⟨r.kind, id, _⟩])
            (.error (.rateLimited (id :: identifiers (before ++ []) ++ identifiers queue))) :=
          .limited .nil hof rfl
        rw [List.append_nil] at hends
        exact ⟨_, rfl, hends⟩
      | unprocessable | rejected | transport =>
        apply hrest (before ++ [r])
        intro new out
        apply PassEnds.cons_refused hof
        simp [Attempt.IsRefused, Attempt.IsGone, Attempt.IsLimited]

theorem destroyPasses_meets_attempting (passes : Nat) (hpasses : queue.length ≤ passes)
    (hid : ∀ r ∈ queue, ∃ id, r.identifier = some id) :
    (destroyPasses passes queue).Meets attempting (fun out s => ∃ new, s = attempts ++ new ∧
      Passes queue new out) attempts := by
  induction passes generalizing queue attempts with
  | zero =>
    rw [List.length_eq_zero_iff.1 (Nat.le_zero.1 hpasses)]
    exact ⟨[], (List.append_nil _).symm, .done .nil⟩
  | succ passes ih =>
    apply (destroyPass_meets_attempting [] hid).bind
    · intro refused s h
      obtain ⟨new, hs, hends⟩ := h
      rw [hs]
      cases hends with
      | @whole _ _ refused h =>
        rw [List.nil_append]
        split
        next hempty =>
          rw [List.isEmpty_iff.1 hempty] at h
          exact ⟨new, rfl, .done h⟩
        next hempty =>
          have hne : refused ≠ [] := fun hnil => hempty (List.isEmpty_iff.2 hnil)
          split
          next hlen => exact ⟨new, rfl, .stuck h hne hlen⟩
          next hlen =>
            have hle := h.sublist.length_le
            apply (ih (by omega) fun r hr => hid r (h.sublist.subset hr)).mono
            intro out s h
            obtain ⟨new', hs, hpasses⟩ := h
            exact ⟨new ++ new', hs.trans (List.append_assoc _ _ _), .again h hne hlen hpasses⟩
    · intro failure s h
      obtain ⟨new, hs, hends⟩ := h
      cases hends with
      | limited h ha hl => exact ⟨_, hs, .limited h ha hl⟩

end Engine

namespace Surroundings

variable {k : Conditions σ} {s t : Surroundings σ} {attempts : List Attempt}

theorem Attempted.nil (hs : s.Uncanceled k) (hl : s.leads = none) : s.Attempted k [] s :=
  { hs with leads := hl, grants := rfl, events := rfl }

theorem Attempted.handler (h : s.Attempted k attempts t) {q : Request} (hq : q.Destroys) :
    ∃ reply attempts', (handler k q t).1 = some reply ∧
      Engine.attempting.replies q attempts reply attempts' ∧
      s.Attempted k attempts' (handler k q t).2 := by
  cases q with
  | call c =>
    cases c with
    | destroy kind id =>
      rw [Surroundings.handler, answer_eq h.leads]
      refine ⟨_, _, rfl, rfl, ⟨(h.record _).notCanceled, h.noTime, h.noEvent⟩, h.leads, ?_, ?_⟩
      · exact Provider.grants_append.2 ⟨t.provider, h.grants, rfl, rfl⟩
      · show Event.called _ :: t.events = _
        rw [h.events, List.map_append, List.reverse_append]
        rfl
    | get | list | create | tag => exact hq.elim
  | isCanceled => exact ⟨false, attempts, congrArg some h.notCanceled, ⟨rfl, rfl⟩, h⟩
  | _ => exact hq.elim

end Surroundings

namespace Engine

theorem exists_passes {k : Conditions σ} {s : Surroundings σ} {rs : List Resource}
    (hs : s.Uncanceled k) (hl : s.leads = none) (hid : ∀ r ∈ rs, ∃ id, r.identifier = some id)
    (hn : rs.Nodup) : ∃ attempts out s',
      (destroyAll rs).run (Surroundings.handler k) s = (some out, s') ∧
      s.Attempted k attempts s' ∧ Passes (byRank [2, 1, 0] rs) attempts out := by
  have hperm : (byRank [2, 1, 0] rs).Perm rs := byRank_perm (by decide) (by decide) hn
  have hmeets : (destroyAll rs).Meets attempting _ [] :=
    destroyPasses_meets_attempting rs.length hperm.length_eq.le
      fun r hr => hid r (hperm.mem_iff.1 hr)
  obtain ⟨out, s', attempts, hrun, hattempted, new, hnew, hpasses⟩ :=
    Meets.exists_run (R := fun attempts t => s.Attempted k attempts t) (fun _ => rfl)
      (fun _ _ _ h hq => h.handler hq) (.nil hs hl) hmeets
  rw [List.nil_append] at hnew
  rw [hnew] at hattempted
  exact ⟨new, out, s', hrun, hattempted, hpasses⟩

/-- Without a cancellation, destroying comes to an end whatever the provider answers, and tells what
it has not found gone. -/
theorem destroyAll_accounts {k : Conditions σ} {s : Surroundings σ} {pending : List Resource}
    (hs : s.Uncanceled k) (hl : s.leads = none)
    (hid : ∀ r ∈ pending, ∃ id, r.identifier = some id)
    (hd : (pending.map Resource.identifier).Nodup) : ∃ attempts out s',
      (destroyAll pending).run (Surroundings.handler k) s = (some out, s') ∧
      s.Attempted k attempts s' ∧ Accounts pending attempts out := by
  have hn : pending.Nodup := hd.of_map _
  obtain ⟨attempts, out, s', hrun, hattempted, hpasses⟩ := exists_passes hs hl hid hn
  have hperm : (byRank [2, 1, 0] pending).Perm pending := byRank_perm (by decide) (by decide) hn
  exact ⟨attempts, out, s', hrun, hattempted, hpasses.accounts hperm hd⟩

end Engine

namespace Sample

/-- A provider that refuses two of three attempts, and ends the second pass. -/
def prompted : Provider (List (Except Refusal Unit)) where
  answer
    | .destroy _ _, answers => (answers.headD (.ok ()), answers.tail)
    | .get _ _, answers | .create _, answers | .tag _ _, answers => (.error .notFound, answers)
    | .list _, answers => (.ok [], answers)

def answers : List (Except Refusal Unit) :=
  [.error (.rejected "busy"), .ok (), .error (.transport "connection reset"), .error .notFound,
    .error .rateLimited]

def discarded : List Resource :=
  [.backend ⟨some ⟨"b-1"⟩, "a", ⟨"lb-1"⟩, .tcp, .tcp, .ready false⟩,
    .frontend ⟨some ⟨"f-1"⟩, "a", ⟨"lb-1"⟩, ⟨"b-1"⟩, .tcp, .ready false⟩,
    .frontend ⟨some ⟨"f-2"⟩, "b", ⟨"lb-1"⟩, ⟨"b-1"⟩, .tcp, .ready true⟩]

end Sample

theorem sample_accounts :
    (Surroundings.initial Sample.answers).Uncanceled
      ⟨Sample.prompted, Sample.prompted, fun _ => false⟩ ∧
    (Surroundings.initial Sample.answers).leads = none ∧
    (∀ r ∈ Sample.discarded, ∃ id, r.identifier = some id) ∧
    (Sample.discarded.map Resource.identifier).Nodup ∧
    ∃ attempts s', (Engine.destroyAll Sample.discarded).run
        (Surroundings.handler ⟨Sample.prompted, Sample.prompted, fun _ => false⟩)
        (.initial Sample.answers) = (some (.error (.rateLimited [⟨"b-1"⟩])), s') ∧
      Engine.Accounts Sample.discarded attempts (.error (.rateLimited [⟨"b-1"⟩])) := by
  have hs : (Surroundings.initial Sample.answers).Uncanceled
      ⟨Sample.prompted, Sample.prompted, fun _ => false⟩ := ⟨rfl, rfl, fun _ => rfl⟩
  have hid : ∀ r ∈ Sample.discarded, ∃ id, r.identifier = some id := by
    simp [Sample.discarded, Resource.identifier]
  have hd : (Sample.discarded.map Resource.identifier).Nodup := by decide +kernel
  have hout : ((Engine.destroyAll Sample.discarded).run
      (Surroundings.handler ⟨Sample.prompted, Sample.prompted, fun _ => false⟩)
      (.initial Sample.answers)).1 = some (.error (.rateLimited [⟨"b-1"⟩])) := by decide +kernel
  obtain ⟨attempts, out, s', hrun, -, haccounts⟩ := Engine.destroyAll_accounts hs rfl hid hd
  rw [hrun] at hout
  cases hout
  exact ⟨hs, rfl, hid, hd, attempts, s', hrun, haccounts⟩

end BalancerSync
