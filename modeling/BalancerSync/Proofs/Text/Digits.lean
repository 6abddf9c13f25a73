import BalancerSync.Text.Digits
import Mathlib.Algebra.Group.Nat.Defs
import Mathlib.Data.List.Basic

namespace BalancerSync.Text

variable {base n m d width : Nat} {c : Char} {cs ds : List Char}

theorem digitValue?_digitChar (hbase : base ≤ 16) (hd : d < base) :
    digitValue? base d.digitChar = some d := by
  have h : ∀ d : Fin 16, ∀ base : Fin 17, d.val < base.val →
      digitValue? base (Nat.digitChar d) = some d.val := by decide +kernel
  exact h ⟨d, by omega⟩ ⟨base, by omega⟩ hd

theorem extendNumber?_append :
    extendNumber? base n (cs ++ ds) = (extendNumber? base n cs).bind (extendNumber? base · ds) := by
  induction cs generalizing n with
  | nil => rfl
  | cons c cs ih =>
    rw [List.cons_append, extendNumber?, extendNumber?]
    cases digitValue? base c with
    | none => rfl
    | some v => exact ih

theorem extendNumber?_digitChar (hbase : base ≤ 16) (hd : d < base) :
    extendNumber? base n [d.digitChar] = some (n * base + d) := by
  rw [extendNumber?, digitValue?_digitChar hbase hd]
  rfl

theorem extendNumber?_toDigits (hb : 1 < base) (hbase : base ≤ 16) :
    extendNumber? base 0 (Nat.toDigits base n) = some n := by
  induction n using Nat.base_induction base hb with
  | single d hd =>
    rw [Nat.toDigits_of_lt_base hd, extendNumber?_digitChar hbase hd, Nat.zero_mul, Nat.zero_add]
  | digit m d hd hm ih =>
    rw [← Nat.toDigits_append_toDigits hb hm hd, extendNumber?_append, ih, Option.bind_some,
      Nat.toDigits_of_lt_base hd, extendNumber?_digitChar hbase hd, Nat.mul_comm]

theorem extendNumber?_replicate_zero (hb : 0 < base) (zeros : Nat) :
    extendNumber? base 0 (List.replicate zeros '0') = some 0 := by
  have hzero : digitValue? base '0' = some 0 := by simp [digitValue?, hb]
  induction zeros with
  | zero => rfl
  | succ zeros ih =>
    rw [List.replicate_succ, extendNumber?, hzero]
    simpa using ih

theorem readNumber?_eq_extendNumber? (h : cs ≠ []) :
    readNumber? base cs = extendNumber? base 0 cs := by
  cases cs with
  | nil => exact absurd rfl h
  | cons c cs => rfl

theorem readNumber?_toDigits (hb : 1 < base) (hbase : base ≤ 16) :
    readNumber? base (Nat.toDigits base n) = some n := by
  rw [readNumber?_eq_extendNumber? Nat.toDigits_ne_nil, extendNumber?_toDigits hb hbase]

theorem readNumber?_paddedDigits (hb : 1 < base) (hbase : base ≤ 16) :
    readNumber? base (paddedDigits base width n) = some n := by
  have hne : paddedDigits base width n ≠ [] := by simp [paddedDigits, Nat.toDigits_ne_nil]
  rw [readNumber?_eq_extendNumber? hne, paddedDigits, extendNumber?_append,
    extendNumber?_replicate_zero (by omega), Option.bind_some, extendNumber?_toDigits hb hbase]

theorem extendNumber?_eq_none (hc : c ∈ cs) (h : digitValue? base c = none) :
    extendNumber? base n cs = none := by
  induction cs generalizing n with
  | nil => cases hc
  | cons c' cs ih =>
    rw [extendNumber?]
    rcases List.mem_cons.1 hc with rfl | hc
    · rw [h]
      rfl
    · cases digitValue? base c' with
      | none => rfl
      | some v => exact ih hc

theorem readNumber?_eq_none (hc : c ∈ cs) (h : digitValue? base c = none) :
    readNumber? base cs = none := by
  rw [readNumber?_eq_extendNumber? (List.ne_nil_of_mem hc), extendNumber?_eq_none hc h]

theorem notMem_toDigits (hb : 1 < base) (hbase : base ≤ 16) (hc : digitValue? base c = none) :
    c ∉ Nat.toDigits base n := by
  intro h
  have hread := extendNumber?_toDigits (n := n) hb hbase
  rw [extendNumber?_eq_none h hc] at hread
  cases hread

theorem notMem_map_toDigits {α : Type} {value : α → Nat} {as : List α} (hb : 1 < base)
    (hbase : base ≤ 16) (hc : digitValue? base c = none) :
    ∀ ds ∈ as.map fun a => Nat.toDigits base (value a), c ∉ ds := by
  intro ds hds
  obtain ⟨a, -, rfl⟩ := List.mem_map.1 hds
  exact notMem_toDigits hb hbase hc

theorem head?_toDigits_ne_zero (hb : 1 < base) (hn : 0 < n) :
    (Nat.toDigits base n).head? ≠ some '0' := by
  induction n using Nat.base_induction base hb with
  | single d hd =>
    rw [Nat.toDigits_of_lt_base hd, List.head?_cons, Ne, Option.some.injEq, Nat.digitChar_eq_zero]
    omega
  | digit m d hd hm ih =>
    rw [← Nat.toDigits_append_toDigits hb hm hd, List.head?_append_of_ne_nil _ Nat.toDigits_ne_nil]
    exact ih hm

theorem length_paddedDigits : width ≤ (paddedDigits base width n).length := by
  simp only [paddedDigits, List.length_append, List.length_replicate]
  omega

theorem length_paddedDigits_of_lt (hb : 1 < base) (hw : 0 < width) (hn : n < base ^ width) :
    (paddedDigits base width n).length = width := by
  have hle := (Nat.length_toDigits_le_iff hb hw).2 hn
  simp only [paddedDigits, List.length_append, List.length_replicate]
  omega

end BalancerSync.Text
