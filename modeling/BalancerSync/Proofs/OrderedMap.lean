import BalancerSync.OrderedMap
import Mathlib.Data.List.Basic
import Mathlib.Data.List.Pairwise
import Mathlib.Data.List.Nodup
import Mathlib.Data.List.Sort

namespace BalancerSync.OrderedMap

variable {κ α β : Type} [LinearKey κ]

theorem mem_of_find {k : κ} {a : α} {l : List (κ × α)} (h : find k l = some a) : (k, a) ∈ l := by
  induction l with
  | nil => simp [find] at h
  | cons e rest ih =>
    rw [find] at h
    split at h
    next hk =>
      cases hk
      cases h
      simp
    next => exact List.mem_cons_of_mem _ (ih h)

theorem find_of_mem {k : κ} {a : α} {l : List (κ × α)} (hl : Increasing l) (h : (k, a) ∈ l) :
    find k l = some a := by
  induction l with
  | nil => simp at h
  | cons e rest ih =>
    have hl := List.pairwise_cons.1 hl
    rw [find]
    rcases List.mem_cons.1 h with rfl | h
    · simp
    · have hlt := hl.1 _ h
      have hne : e.1 ≠ k := by
        rintro rfl
        exact LinearKey.irrefl _ hlt
      rw [if_neg hne]
      exact ih hl.2 h

variable {m : OrderedMap κ α} {k j : κ} {a b : α}

theorem get?_eq_some_iff : m.get? k = some a ↔ (k, a) ∈ m.entries :=
  ⟨mem_of_find, find_of_mem m.increasing⟩

theorem mem_keys_iff : k ∈ m.keys ↔ ∃ a, m.get? k = some a := by
  simp [keys, get?_eq_some_iff]

theorem mem_keys_of_get? (h : m.get? k = some a) : k ∈ m.keys := mem_keys_iff.2 ⟨a, h⟩

theorem mem_values_iff : a ∈ m.values ↔ ∃ k, m.get? k = some a := by
  simp [values, get?_eq_some_iff]

theorem get?_eq_none_iff : m.get? k = none ↔ k ∉ m.keys := by
  rw [mem_keys_iff]
  cases h : m.get? k <;> simp

theorem contains_iff_mem_keys : m.contains k = true ↔ k ∈ m.keys := by
  rw [contains, mem_keys_iff, Option.isSome_iff_exists]

theorem keys_increasing (m : OrderedMap κ α) : m.keys.Pairwise (· < ·) :=
  List.pairwise_map.2 m.increasing

theorem ne_of_lt {a b : κ} (h : a < b) : a ≠ b := by
  rintro rfl
  exact LinearKey.irrefl _ h

theorem keys_nodup (m : OrderedMap κ α) : m.keys.Nodup := m.keys_increasing.imp ne_of_lt

theorem ext_get? {m m' : OrderedMap κ α} (h : ∀ k, m.get? k = m'.get? k) : m = m' := by
  have _ : Std.Irrefl fun a b : κ × α => a.1 < b.1 := ⟨fun a => LinearKey.irrefl a.1⟩
  have _ : Std.Antisymm fun a b : κ × α => a.1 < b.1 :=
    ⟨fun a _ h k => absurd (LinearKey.trans h k) (LinearKey.irrefl a.1)⟩
  apply OrderedMap.ext
  apply m.increasing.eq_of_mem_iff m'.increasing
  rintro ⟨k, a⟩
  rw [← get?_eq_some_iff, ← get?_eq_some_iff, h k]

@[simp] theorem get?_empty : (∅ : OrderedMap κ α).get? k = none := rfl

@[simp] theorem keys_empty : (∅ : OrderedMap κ α).keys = [] := rfl

theorem find_place (k j : κ) (a : α) (l : List (κ × α)) :
    find j (place k a l) = if k = j then some a else find j l := by
  induction l with
  | nil => rfl
  | cons e rest ih =>
    obtain ⟨i, b⟩ := e
    rw [place]
    split
    next => rfl
    next hk =>
      split
      next hi =>
        rw [find, find, ih]
        by_cases hj : i = j
        · have : k ≠ j := fun h => LinearKey.irrefl j (by rw [hj, h] at hi; exact hi)
          simp [hj, this]
        · simp [hj]
      next hi =>
        cases LinearKey.trichotomous hk hi
        by_cases hj : k = j <;> simp [find, hj]

theorem get?_insert (m : OrderedMap κ α) (k j : κ) (a : α) :
    (m.insert k a).get? j = if k = j then some a else m.get? j := find_place k j a m.entries

@[simp] theorem get?_insert_self (m : OrderedMap κ α) (k : κ) (a : α) :
    (m.insert k a).get? k = some a := by rw [get?_insert, if_pos rfl]

theorem get?_insert_of_ne (m : OrderedMap κ α) (a : α) (h : k ≠ j) :
    (m.insert k a).get? j = m.get? j := by rw [get?_insert, if_neg h]

theorem get?_filter_eq_some_iff (p : κ → α → Bool) :
    (m.filter p).get? k = some a ↔ m.get? k = some a ∧ p k a = true := by
  simp [get?_eq_some_iff, filter]

theorem get?_erase (m : OrderedMap κ α) (k j : κ) :
    (m.erase k).get? j = if k = j then none else m.get? j := by
  apply Option.ext
  intro a
  have h : (m.erase k).get? j = some a ↔ m.get? j = some a ∧ j ≠ k := by
    simp [get?_eq_some_iff, erase]
  rw [h]
  by_cases hk : k = j
  · simp [hk]
  · simp [hk, Ne.symm hk]

@[simp] theorem get?_erase_self (m : OrderedMap κ α) (k : κ) : (m.erase k).get? k = none := by
  rw [get?_erase, if_pos rfl]

theorem get?_erase_of_ne (m : OrderedMap κ α) (h : k ≠ j) : (m.erase k).get? j = m.get? j := by
  rw [get?_erase, if_neg h]

theorem get?_mapValues (m : OrderedMap κ α) (f : κ → α → β) (k : κ) :
    (m.mapValues f).get? k = (m.get? k).map (f k) := by
  apply Option.ext
  intro b
  simp only [get?_eq_some_iff, mapValues, List.mem_map, Option.map_eq_some_iff, Prod.mk.injEq]
  constructor
  · rintro ⟨⟨j, a⟩, ha, rfl, rfl⟩
    exact ⟨a, ha, rfl⟩
  · rintro ⟨a, ha, rfl⟩
    exact ⟨(k, a), ha, rfl, rfl⟩

theorem isEmpty_iff : m.isEmpty = true ↔ ∀ k, k ∉ m.keys := by
  simp [isEmpty, keys, List.eq_nil_iff_forall_not_mem]

theorem mem_keys_insert : j ∈ (m.insert k a).keys ↔ j = k ∨ j ∈ m.keys := by
  rw [mem_keys_iff, mem_keys_iff, get?_insert]
  by_cases h : k = j <;> simp [h, eq_comm]

theorem mem_keys_erase : j ∈ (m.erase k).keys ↔ j ≠ k ∧ j ∈ m.keys := by
  rw [mem_keys_iff, mem_keys_iff, get?_erase]
  by_cases h : k = j <;> simp [h, eq_comm]

theorem get?_foldl_insert (f : κ → α) (l : List κ) (m : OrderedMap κ α) :
    ((l.map fun k => (k, f k)).foldl (fun m e => m.insert e.1 e.2) m).get? k =
      if k ∈ l then some (f k) else m.get? k := by
  induction l generalizing m with
  | nil => simp
  | cons j l ih =>
    rw [List.map_cons, List.foldl_cons, ih, get?_insert]
    by_cases hk : k ∈ l
    · simp [hk]
    · by_cases hj : j = k
      · simp [hj]
      · simp [hk, hj, Ne.symm hj]

theorem get?_ofList_map (f : κ → α) (l : List κ) :
    (ofList (l.map fun k => (k, f k))).get? k = if k ∈ l then some (f k) else none :=
  get?_foldl_insert f l empty

theorem get?_foldl_insert_of_increasing {l : List (κ × α)} (hl : Increasing l)
    (m : OrderedMap κ α) : (l.foldl (fun m e => m.insert e.1 e.2) m).get? k =
      (find k l).or (m.get? k) := by
  induction l generalizing m with
  | nil => rfl
  | cons e l ih =>
    obtain ⟨j, a⟩ := e
    obtain ⟨hj, hl⟩ := List.pairwise_cons.1 hl
    rw [List.foldl_cons, ih hl, get?_insert, find]
    by_cases hk : j = k
    · have hnone : find k l = none := Option.eq_none_iff_forall_ne_some.2 fun b hb =>
        ne_of_lt (hj _ (mem_of_find hb)) hk
      rw [if_pos hk, if_pos hk, hnone, Option.none_or, Option.some_or]
    · rw [if_neg hk, if_neg hk]

theorem ofList_entries (m : OrderedMap κ α) : ofList m.entries = m :=
  ext_get? fun _ => (get?_foldl_insert_of_increasing m.increasing empty).trans (Option.or_none)

theorem ofList_toList (s : OrderedSet κ) : OrderedSet.ofList (OrderedSet.toList s) = s :=
  ext_get? fun k => by
    rw [OrderedSet.ofList, get?_ofList_map, OrderedSet.toList]
    cases h : s.get? k with
    | none => rw [if_neg (get?_eq_none_iff.1 h)]
    | some u => rw [if_pos (mem_keys_of_get? h)]

theorem mem_keys_set_ofList {l : List κ} : k ∈ (OrderedSet.ofList l).keys ↔ k ∈ l := by
  rw [mem_keys_iff, OrderedSet.ofList, get?_ofList_map]
  by_cases h : k ∈ l <;> simp [h]

end BalancerSync.OrderedMap
