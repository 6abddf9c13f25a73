import Mathlib.Data.List.Nodup
import BalancerSync.Proofs.Comparison

namespace BalancerSync

open Comparable

namespace Difference

variable {α : Type} [Comparable α] {a b t : α} {targets before present : List α} {i : Nat}

def keeps (targets present : List α) (i : Nat) : Bool :=
  present[i]?.any fun a => targets.any (alike a) && !(present.take i).any (alike a)

def kept (targets present : List α) : List α :=
  (present.zipIdx.filter fun e => keeps targets present e.2).map (·.1)

theorem any_alike_iff {l : List α} : l.any (alike a) = true ↔ ∃ b ∈ l, bare b = bare a := by
  simp only [List.any_eq_true, alike_iff, @eq_comm _ (bare a)]

theorem keeps_iff : keeps targets present i = true ↔ ∃ a, present[i]? = some a ∧
    (∃ t ∈ targets, bare t = bare a) ∧ ∀ b ∈ present.take i, bare b ≠ bare a := by
  have hany (a : α) : (targets.any (alike a) && !(present.take i).any (alike a)) = true ↔
      (∃ t ∈ targets, bare t = bare a) ∧ ∀ b ∈ present.take i, bare b ≠ bare a := by
    rw [Bool.and_eq_true, any_alike_iff, Bool.not_eq_true', Bool.eq_false_iff, Ne, any_alike_iff]
    simp only [not_exists, not_and, ne_eq]
  unfold keeps
  cases present[i]? with
  | none => simp
  | some a => simpa using hany a

abbrev untaken (targets before : List α) : List α := targets.filter fun t => !before.any (alike t)

theorem untaken_concat (targets before : List α) (a : α) :
    untaken targets (before ++ [a]) = (untaken targets before).filter fun t => !alike t a := by
  rw [List.filter_filter]
  apply List.filter_congr
  intro t _
  simp [Bool.and_comm]

theorem any_untaken : (untaken targets before).any (alike a) =
    (targets.any (alike a) && !before.any (alike a)) := by
  rw [Bool.eq_iff_iff, Bool.and_eq_true, Bool.not_eq_true', Bool.eq_false_iff, Ne, any_alike_iff,
    any_alike_iff, any_alike_iff]
  simp only [List.mem_filter, Bool.not_eq_true', Bool.eq_false_iff, Ne, any_alike_iff]
  constructor
  · rintro ⟨t, ⟨ht, hno⟩, hta⟩
    rw [hta] at hno
    exact ⟨⟨t, ht, hta⟩, hno⟩
  · rintro ⟨⟨t, ht, hta⟩, hno⟩
    rw [← hta] at hno
    exact ⟨t, ⟨ht, hno⟩, hta⟩

/-- No two targets are alike, so an object takes all the targets that it is like. -/
theorem eraseP_alike (ht : (targets.map bare).Nodup) :
    targets.eraseP (alike a) = targets.filter fun t => !alike t a := by
  have hswap : (fun t => alike t a) = alike a := by
    funext t
    simp only [alike, eq_comm]
  induction targets with
  | nil => rfl
  | cons t rest ih =>
    obtain ⟨hnot, hrest⟩ := List.nodup_cons.1 ht
    by_cases hat : alike a t = true
    · have hall : ∀ s ∈ rest, alike a s = false := by
        intro s hs
        apply Bool.eq_false_iff.2
        intro has
        apply hnot
        rw [← alike_iff.1 hat, alike_iff.1 has]
        exact List.mem_map_of_mem hs
      have hta : alike t a = true := (congrFun hswap t).trans hat
      rw [List.eraseP_cons_of_pos hat, List.filter_cons_of_neg (by simp [hta]), eq_comm,
        List.filter_eq_self]
      intro s hs
      have hsa : alike s a = false := (congrFun hswap s).trans (hall s hs)
      simp [hsa]
    · have hta : alike t a = false := (congrFun hswap t).trans (Bool.eq_false_iff.2 hat)
      rw [List.eraseP_cons_of_neg hat, List.filter_cons_of_pos (by simp [hta]), ih hrest]

theorem keeps_append (targets before : List α) (a : α) (rest : List α) :
    keeps targets (before ++ a :: rest) before.length = (untaken targets before).any (alike a) := by
  rw [any_untaken]
  unfold keeps
  simp

/-- The objects after those of `before`. Those that are not kept are left over. -/
theorem leftOver_untaken (ht : (targets.map bare).Nodup) (before present : List α) :
    leftOver (untaken targets before) present = ((present.zipIdx before.length).filter
      fun e => !keeps targets (before ++ present) e.2).map (·.1) := by
  induction present generalizing before with
  | nil => rfl
  | cons a rest ih =>
    have hnext := ih (before ++ [a])
    rw [untaken_concat, List.length_append, List.length_singleton, List.append_assoc,
      List.singleton_append] at hnext
    have hnodup : ((untaken targets before).map bare).Nodup :=
      ht.sublist (List.filter_sublist.map _)
    have hkeeps := keeps_append targets before a rest
    rw [leftOver, List.zipIdx_cons, List.filter_cons]
    by_cases htaken : (untaken targets before).any (alike a) = true
    · rw [if_pos htaken, eraseP_alike hnodup, hnext]
      simp [hkeeps, htaken]
    · have hall : ∀ t ∈ untaken targets before, (!alike t a) = true := by
        intro t htm
        rw [Bool.not_eq_true', Bool.eq_false_iff]
        intro hta
        apply htaken
        exact any_alike_iff.2 ⟨t, htm, alike_iff.1 hta⟩
      rw [List.filter_eq_self.2 hall] at hnext
      rw [if_neg htaken, hnext]
      simp [hkeeps, Bool.eq_false_iff.2 htaken]

theorem leftOver_eq (ht : (targets.map bare).Nodup) (present : List α) : leftOver targets present =
    (present.zipIdx.filter fun e => !keeps targets present e.2).map (·.1) := by
  have h := leftOver_untaken ht [] present
  have hall : untaken targets [] = targets := by simp
  rw [hall] at h
  exact h

theorem mem_kept_iff : a ∈ kept targets present ↔
    ∃ i, present[i]? = some a ∧ keeps targets present i = true := by
  simp only [kept, List.mem_map, List.mem_filter, List.mem_zipIdx_iff_getElem?, Prod.exists]
  constructor
  · rintro ⟨_, i, ⟨hi, hk⟩, rfl⟩
    exact ⟨i, hi, hk⟩
  · rintro ⟨i, hi, hk⟩
    exact ⟨a, i, ⟨hi, hk⟩, rfl⟩

/-- No two of the objects that are kept are alike. -/
theorem kept_nodup (targets present : List α) : ((kept targets present).map bare).Nodup := by
  have hlt : present.zipIdx.Pairwise fun e f => e.2 < f.2 := by
    have h := List.pairwise_lt_range' (s := 0) (n := present.length) 1
    rw [← List.zipIdx_map_snd] at h
    exact List.pairwise_map.1 h
  unfold kept
  rw [List.map_map, List.Nodup, List.pairwise_map]
  refine (hlt.filter _).imp_of_mem ?_
  intro e f he hf hef hbare
  obtain ⟨hfm, hkeeps⟩ := List.mem_filter.1 hf
  obtain ⟨a, ha, -, hfirst⟩ := keeps_iff.1 hkeeps
  have hfa : f.1 = a := Option.some.inj ((List.mem_zipIdx_iff_getElem?.1 hfm).symm.trans ha)
  have hem := List.mem_zipIdx_iff_getElem?.1 (List.mem_filter.1 he).1
  have htake : (present.take f.2)[e.2]? = some e.1 := (List.getElem?_take_of_lt hef).trans hem
  apply hfirst e.1 (List.mem_of_getElem? htake)
  rw [← hfa]
  exact hbare

/-- What is kept for a target is what is found first. -/
theorem keeps_and_alike_iff (ht : t ∈ targets) :
    (keeps targets present i = true ∧ ∃ a, present[i]? = some a ∧ bare a = bare t) ↔
      present.findIdx? (alike t) = some i := by
  rw [List.findIdx?_eq_some_iff_getElem]
  constructor
  · rintro ⟨hkeeps, a, ha, hat⟩
    obtain ⟨b, hb, -, hfirst⟩ := keeps_iff.1 hkeeps
    cases ha.symm.trans hb
    obtain ⟨hi, rfl⟩ := List.getElem?_eq_some_iff.1 ha
    refine ⟨hi, alike_iff.2 hat.symm, ?_⟩
    intro j hj htj
    have hjm : present[j] ∈ present.take i := by
      apply List.mem_take_iff_getElem.2
      exact ⟨j, by omega, rfl⟩
    apply hfirst _ hjm
    rw [hat, alike_iff.1 htj]
  · rintro ⟨hi, hti, hfirst⟩
    have ha : present[i]? = some present[i] := List.getElem?_eq_getElem hi
    refine ⟨keeps_iff.2 ⟨_, ha, ⟨t, ht, alike_iff.1 hti⟩, ?_⟩, _, ha, (alike_iff.1 hti).symm⟩
    intro b hb hbi
    obtain ⟨j, hj, rfl⟩ := List.mem_take_iff_getElem.1 hb
    apply hfirst j (by omega)
    rw [alike_iff, alike_iff.1 hti, hbi]

theorem mem_missing_iff_not_any : t ∈ missing targets present ↔
    t ∈ targets ∧ ¬ ∃ a ∈ present, bare a = bare t := by
  rw [mem_missing_iff]
  simp only [not_exists, not_and, ne_eq, eq_comm]

theorem missing_eq (targets present : List α) :
    missing targets present = targets.filter fun t => !present.any (alike t) := by
  apply List.filter_congr
  intro t _
  rw [findMatch?, Bool.eq_iff_iff, Option.isNone_iff_eq_none, List.find?_eq_none,
    Bool.not_eq_true', List.any_eq_false]

/-- What is kept and what is created are one object for each target. -/
theorem kept_append_missing_perm (ht : (targets.map bare).Nodup) (present : List α) :
    ((kept targets present ++ missing targets present).map bare).Perm (targets.map bare) := by
  have hmissing : ((missing targets present).map bare).Nodup :=
    ht.sublist (List.filter_sublist.map _)
  have hdisjoint : List.Disjoint ((kept targets present).map bare)
      ((missing targets present).map bare) := by
    intro key hkept hcreated
    obtain ⟨a, ha, rfl⟩ := List.mem_map.1 hkept
    obtain ⟨t, htm, hta⟩ := List.mem_map.1 hcreated
    obtain ⟨i, hi, -⟩ := mem_kept_iff.1 ha
    exact (mem_missing_iff_not_any.1 htm).2 ⟨a, List.mem_of_getElem? hi, hta.symm⟩
  rw [List.map_append]
  apply (List.perm_ext_iff_of_nodup ((kept_nodup _ _).append hmissing hdisjoint) ht).2
  intro key
  rw [List.mem_append]
  constructor
  · rintro (h | h)
    · obtain ⟨a, ha, rfl⟩ := List.mem_map.1 h
      obtain ⟨i, hi, hkeeps⟩ := mem_kept_iff.1 ha
      obtain ⟨b, hb, ⟨t, htm, htb⟩, -⟩ := keeps_iff.1 hkeeps
      cases hi.symm.trans hb
      exact List.mem_map.2 ⟨t, htm, htb⟩
    · exact (List.filter_sublist.map _).subset h
  · intro h
    obtain ⟨t, htm, rfl⟩ := List.mem_map.1 h
    cases hfound : present.findIdx? (alike t) with
    | some i =>
      obtain ⟨hkeeps, a, ha, hat⟩ := (keeps_and_alike_iff htm).2 hfound
      exact .inl (List.mem_map.2 ⟨a, mem_kept_iff.2 ⟨i, ha, hkeeps⟩, hat⟩)
    | none =>
      refine .inr (List.mem_map_of_mem (mem_missing_iff_not_any.2 ⟨htm, ?_⟩))
      rintro ⟨a, ha, hat⟩
      have hno := List.findIdx?_eq_none_iff.1 hfound a ha
      rw [alike_iff.2 hat.symm] at hno
      cases hno

/-- One object for each target, in any order, is what is wanted. -/
theorem between_eq_empty (ht : (targets.map bare).Nodup)
    (h : (present.map bare).Perm (targets.map bare)) : between targets present = .ok ⟨[], []⟩ := by
  have hpresent : (present.map bare).Nodup := h.nodup_iff.2 ht
  have hmissing : missing targets present = [] := by
    apply List.eq_nil_iff_forall_not_mem.2
    intro t hm
    obtain ⟨htm, hno⟩ := mem_missing_iff_not_any.1 hm
    exact hno (List.mem_map.1 (h.mem_iff.2 (List.mem_map_of_mem htm)))
  have hleft : leftOver targets present = [] := by
    apply List.eq_nil_iff_forall_not_mem.2
    intro a ha
    obtain ⟨ham, hno⟩ := (mem_leftOver_iff ht (hpresent.of_map _)).1 ha
    obtain ⟨t, htm, hta⟩ := List.mem_map.1 (h.mem_iff.1 (List.mem_map_of_mem ham))
    obtain ⟨b, hb⟩ := exists_findMatch? ham hta
    have hba : bare b = bare a := (bare_of_findMatch? hb).symm.trans hta
    have heq : b = a := List.inj_on_of_nodup_map hpresent (mem_of_findMatch? hb) ham hba
    exact hno t htm (heq ▸ hb)
  rw [between_eq_ok_iff, hmissing, hleft]
  exact ⟨ht, rfl⟩

theorem exists_of_repeated? (h : repeated? before targets = some t) :
    ∃ earlier later, targets = earlier ++ t :: later ∧
      ∃ s, (s ∈ before ∨ s ∈ earlier) ∧ bare s = bare t := by
  induction targets generalizing before with
  | nil => cases h
  | cons a rest ih =>
    rw [repeated?] at h
    split at h
    next hany =>
      cases h
      obtain ⟨s, hs, hst⟩ := any_alike_iff.1 hany
      exact ⟨[], rest, rfl, s, .inl hs, hst⟩
    next =>
      obtain ⟨earlier, later, rfl, s, hs, hst⟩ := ih h
      refine ⟨a :: earlier, later, rfl, s, ?_, hst⟩
      rcases hs with hs | hs
      · rcases List.mem_cons.1 hs with rfl | hs
        · exact .inr List.mem_cons_self
        · exact .inl hs
      · exact .inr (List.mem_cons_of_mem _ hs)

/-- Every target takes the first object that is like it. -/
structure FirstMatch (targets present : List α) (d : Difference α) : Prop where
  /-- Created is what nothing is like, in the order of the targets, -/
  create_eq : d.create = targets.filter fun t => !present.any (alike t)
  create_sublist : d.create.Sublist targets
  /-- and destroyed is what is not kept, in the order of the objects. -/
  destroy_eq : d.destroy = (present.zipIdx.filter fun e => !keeps targets present e.2).map (·.1)
  destroy_sublist : d.destroy.Sublist present
  /-- What is kept for a target is the object that is found for it. -/
  kept_iff : ∀ t ∈ targets, ∀ i,
    (keeps targets present i = true ∧ ∃ a, present[i]? = some a ∧ bare a = bare t) ↔
      present.findIdx? (alike t) = some i
  found : ∀ t, findMatch? t present = (present.findIdx? (alike t)).bind fun i => present[i]?
  /-- What is kept and what is created are all that is wanted, under whatever identifiers, in
  whatever state and in whatever order they are then there. -/
  settled : ∀ arranged : List α,
    (arranged.map bare).Perm ((kept targets present ++ d.create).map bare) →
      between targets arranged = .ok ⟨[], []⟩

/-- The comparison fails if two targets are alike, with the name of the second one. Otherwise every
target takes the first object that is like it. -/
theorem fails_or_matches_first (targets present : List α) :
    (¬ (targets.map bare).Nodup ↔ ∃ earlier t later, targets = earlier ++ t :: later ∧
      bare t ∈ earlier.map bare ∧
        between targets present = .error (.duplicateResource (kind α) (name t))) ∧
    ((targets.map bare).Nodup →
      ∃ d, between targets present = .ok d ∧ d.FirstMatch targets present) := by
  constructor
  · constructor
    · intro hdup
      cases hr : repeated? [] targets with
      | none => exact absurd ((repeated?_eq_none_iff [] targets).1 hr).1 hdup
      | some t =>
        obtain ⟨earlier, later, heq, s, hs, hst⟩ := exists_of_repeated? hr
        have hs : s ∈ earlier := hs.resolve_left List.not_mem_nil
        refine ⟨earlier, t, later, heq, List.mem_map.2 ⟨s, hs, hst⟩, ?_⟩
        rw [between, hr]
    · rintro ⟨earlier, t, later, -, -, herror⟩ hn
      rw [between_eq_ok_iff.2 ⟨hn, rfl⟩] at herror
      cases herror
  · intro hn
    refine ⟨⟨missing targets present, leftOver targets present⟩, between_eq_ok_iff.2 ⟨hn, rfl⟩, ?_⟩
    refine ⟨missing_eq targets present, List.filter_sublist, leftOver_eq hn present,
      leftOver_sublist targets present, fun t ht i => keeps_and_alike_iff ht,
      fun t => List.find?_eq_bind_findIdx?_getElem?, ?_⟩
    intro arranged h
    exact between_eq_empty hn (h.trans (kept_append_missing_perm hn present))

end Difference

namespace Sample

/-- Two objects are like the first target, and none like the second one. -/
def named (name : String) (id : Option Identifier) (status : Status) : Backend where
  identifier := id
  name
  loadBalancer := ⟨"lb-1"⟩
  mode := .tcp
  healthCheck := .tcp
  status

def targets : List Backend := [named "a" none .progressing, named "b" none .progressing]

def first : Backend := named "a" (some ⟨"2"⟩) .progressing

def others : List Backend :=
  [named "c" (some ⟨"1"⟩) (.ready false), named "a" (some ⟨"3"⟩) (.ready false)]

def arranged : List Backend :=
  [named "b" (some ⟨"4"⟩) (.ready true), { first with status := .ready false }]

end Sample

open Difference in
theorem sample_matches_first : (Sample.targets.map bare).Nodup ∧
    ∃ d, between Sample.targets (Sample.others.insertIdx 1 Sample.first) = .ok d ∧
      d.create = Sample.targets.tail ∧ d.destroy = Sample.others ∧
      between Sample.targets Sample.arranged = .ok ⟨[], []⟩ := by
  have hn : (Sample.targets.map bare).Nodup := by decide +kernel
  obtain ⟨d, hd, hmatch⟩ :=
    (fails_or_matches_first Sample.targets (Sample.others.insertIdx 1 Sample.first)).2 hn
  have hcreate : d.create = Sample.targets.tail := hmatch.create_eq.trans (by decide +kernel)
  have hdestroy : d.destroy = Sample.others := hmatch.destroy_eq.trans (by decide +kernel)
  refine ⟨hn, d, hd, hcreate, hdestroy, hmatch.settled Sample.arranged ?_⟩
  rw [hcreate]
  decide +kernel

end BalancerSync
