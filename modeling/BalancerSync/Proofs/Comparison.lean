import BalancerSync.Comparison
import BalancerSync.Proofs.Inventory

namespace BalancerSync

open Comparable

class LawfulComparable (α : Type) extends Comparable α where
  toResource_injective : ∀ {a b : α}, toResource a = toResource b → a = b
  toResource_bare : ∀ a : α, toResource (bare a) = (toResource a).bare
  kind_toResource : ∀ a : α, (toResource a).kind = kind

namespace LawfulComparable

instance : LawfulComparable Backend where
  toResource_injective := Resource.backend.inj
  toResource_bare _ := rfl
  kind_toResource _ := rfl

instance : LawfulComparable Frontend where
  toResource_injective := Resource.frontend.inj
  toResource_bare _ := rfl
  kind_toResource _ := rfl

instance : LawfulComparable Bind where
  toResource_injective := Resource.bind.inj
  toResource_bare _ := rfl
  kind_toResource _ := rfl

instance : LawfulComparable Server where
  toResource_injective := Resource.server.inj
  toResource_bare _ := rfl
  kind_toResource _ := rfl

end LawfulComparable

namespace Difference

variable {α : Type} [Comparable α] {a b t : α} {targets present : List α}

theorem alike_iff : alike a b = true ↔ bare a = bare b := decide_eq_true_iff

theorem mem_of_findMatch? (h : findMatch? t present = some a) : a ∈ present :=
  List.mem_of_find?_eq_some h

theorem bare_of_findMatch? (h : findMatch? t present = some a) : bare t = bare a :=
  alike_iff.1 (List.find?_some h)

theorem findMatch?_eq_none_iff :
    findMatch? t present = none ↔ ∀ a ∈ present, bare t ≠ bare a := by
  simp [findMatch?, List.find?_eq_none, alike_iff]

theorem exists_findMatch? (ha : a ∈ present) (h : bare t = bare a) :
    ∃ b, findMatch? t present = some b := by
  cases hb : findMatch? t present with
  | none => exact absurd h (findMatch?_eq_none_iff.1 hb a ha)
  | some b => exact ⟨b, rfl⟩

theorem findMatch?_cons_of_alike (h : bare t = bare a) :
    findMatch? t (a :: present) = some a := by
  rw [findMatch?, List.find?_cons, alike_iff.2 h]

theorem findMatch?_cons_of_not_alike (h : bare t ≠ bare a) :
    findMatch? t (a :: present) = findMatch? t present := by
  have hf : alike t a = false := Bool.eq_false_iff.2 (mt alike_iff.1 h)
  rw [findMatch?, List.find?_cons, hf]
  rfl

theorem leftOver_sublist (targets present : List α) :
    (leftOver targets present).Sublist present := by
  induction present generalizing targets with
  | nil => simp [leftOver]
  | cons a rest ih =>
    rw [leftOver]
    split
    · exact (ih _).cons a
    · exact (ih _).cons_cons a

/-- Taking out the target that an object is like leaves the targets that it is not like. -/
theorem mem_eraseP_alike (ht : (targets.map bare).Nodup) :
    t ∈ targets.eraseP (alike a) ↔ t ∈ targets ∧ bare t ≠ bare a := by
  induction targets with
  | nil => simp
  | cons s rest ih =>
    have ht := List.nodup_cons.1 ht
    by_cases hs : bare a = bare s
    · rw [List.eraseP_cons_of_pos (alike_iff.2 hs)]
      have hrest : t ∈ rest → bare t ≠ bare a := by
        intro hm h
        exact ht.1 (List.mem_map.2 ⟨t, hm, h.trans hs⟩)
      constructor
      · intro hm
        exact ⟨List.mem_cons_of_mem _ hm, hrest hm⟩
      · rintro ⟨hm, hne⟩
        rcases List.mem_cons.1 hm with rfl | hm
        · exact absurd hs.symm hne
        · exact hm
    · rw [List.eraseP_cons_of_neg (mt alike_iff.1 hs), List.mem_cons, List.mem_cons, ih ht.2]
      constructor
      · rintro (rfl | ⟨hm, hne⟩)
        · exact ⟨.inl rfl, Ne.symm hs⟩
        · exact ⟨.inr hm, hne⟩
      · rintro ⟨rfl | hm, hne⟩
        · exact .inl rfl
        · exact .inr ⟨hm, hne⟩

/-- An object is left over unless it is the first one that is like some target. -/
theorem mem_leftOver_iff (ht : (targets.map bare).Nodup) (hp : present.Nodup) :
    a ∈ leftOver targets present ↔
      a ∈ present ∧ ∀ t ∈ targets, findMatch? t present ≠ some a := by
  induction present generalizing targets with
  | nil => simp [leftOver]
  | cons b rest ih =>
    have hp := List.nodup_cons.1 hp
    rw [leftOver]
    split
    next htaken =>
      obtain ⟨s, hs, hbs⟩ := List.any_eq_true.1 htaken
      have hbs := (alike_iff.1 hbs).symm
      have ht' : ((targets.eraseP (alike b)).map bare).Nodup :=
        ht.sublist (List.eraseP_sublist.map _)
      rw [ih ht' hp.2]
      constructor
      · rintro ⟨ha, h⟩
        refine ⟨List.mem_cons_of_mem _ ha, fun t htm heq => ?_⟩
        by_cases htb : bare t = bare b
        · rw [findMatch?_cons_of_alike htb] at heq
          cases heq
          exact hp.1 ha
        · rw [findMatch?_cons_of_not_alike htb] at heq
          exact h t ((mem_eraseP_alike ht).2 ⟨htm, htb⟩) heq
      · rintro ⟨ha, h⟩
        have hne : a ≠ b := by
          rintro rfl
          exact h s hs (findMatch?_cons_of_alike hbs)
        refine ⟨(List.mem_cons.1 ha).resolve_left hne, fun t htm heq => ?_⟩
        obtain ⟨htm, htb⟩ := (mem_eraseP_alike ht).1 htm
        exact h t htm (by rw [findMatch?_cons_of_not_alike htb, heq])
    next htaken =>
      have hno : ∀ t ∈ targets, bare t ≠ bare b := by
        intro t htm h
        exact htaken (List.any_eq_true.2 ⟨t, htm, alike_iff.2 h.symm⟩)
      rw [List.mem_cons, ih ht hp.2, List.mem_cons]
      constructor
      · rintro (rfl | ⟨ha, h⟩)
        · exact ⟨.inl rfl, fun t htm heq => hno t htm (bare_of_findMatch? heq)⟩
        · refine ⟨.inr ha, fun t htm => ?_⟩
          rw [findMatch?_cons_of_not_alike (hno t htm)]
          exact h t htm
      · rintro ⟨rfl | ha, h⟩
        · exact .inl rfl
        · refine .inr ⟨ha, fun t htm => ?_⟩
          rw [← findMatch?_cons_of_not_alike (hno t htm)]
          exact h t htm

theorem mem_missing_iff :
    t ∈ missing targets present ↔ t ∈ targets ∧ ∀ a ∈ present, bare t ≠ bare a := by
  rw [missing, List.mem_filter, Option.isNone_iff_eq_none, findMatch?_eq_none_iff]

theorem repeated?_eq_none_iff (before targets : List α) :
    repeated? before targets = none ↔
      (targets.map bare).Nodup ∧ ∀ t ∈ targets, ∀ s ∈ before, bare t ≠ bare s := by
  induction targets generalizing before with
  | nil => simp [repeated?]
  | cons t rest ih =>
    have hany : before.any (alike t) = true ↔ ∃ s ∈ before, bare t = bare s := by
      simp [alike_iff]
    rw [repeated?]
    split
    next h =>
      obtain ⟨s, hs, hts⟩ := hany.1 h
      simp only [reduceCtorEq, false_iff]
      exact fun hall => hall.2 t (by simp) s hs hts
    next h =>
      rw [ih, List.map_cons, List.nodup_cons]
      have hno : ∀ s ∈ before, bare t ≠ bare s := fun s hs hts => h (hany.2 ⟨s, hs, hts⟩)
      constructor
      · rintro ⟨hrest, hbefore⟩
        refine ⟨⟨?_, hrest⟩, ?_⟩
        · intro hmem
          obtain ⟨u, hu, hut⟩ := List.mem_map.1 hmem
          exact hbefore u hu t (by simp) hut
        · intro u hu s hs
          rcases List.mem_cons.1 hu with rfl | hu
          · exact hno s hs
          · exact hbefore u hu s (List.mem_cons_of_mem _ hs)
      · rintro ⟨⟨ht, hrest⟩, hbefore⟩
        refine ⟨hrest, fun u hu s hs => ?_⟩
        rcases List.mem_cons.1 hs with rfl | hs
        · exact fun hus => ht (List.mem_map.2 ⟨u, hu, hus⟩)
        · exact hbefore u (List.mem_cons_of_mem _ hu) s hs

theorem between_eq_ok_iff {d : Difference α} :
    between targets present = .ok d ↔
      (targets.map bare).Nodup ∧ d = ⟨missing targets present, leftOver targets present⟩ := by
  have h := repeated?_eq_none_iff [] targets
  rw [between]
  cases hr : repeated? [] targets with
  | none =>
    have hn := (h.1 hr).1
    simp [hn, eq_comm]
  | some a =>
    have hn : ¬ (targets.map bare).Nodup := by
      intro hn
      rw [h.2 ⟨hn, by simp⟩] at hr
      cases hr
    simp [hn]

end Difference

end BalancerSync
