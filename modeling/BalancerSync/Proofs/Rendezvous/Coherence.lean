import BalancerSync.Proofs.Rendezvous.Chronicle
import Mathlib.Data.List.Nodup
import Mathlib.Data.List.Pairwise

namespace BalancerSync.Rendezvous

variable {κ β : Type}

inductive Fate (rounds : List (Round κ β)) (slots : List (κ × Option Nat)) (a : Nat) :
    Arrival κ β → Prop
  | waits {k : κ} {c w : Bool} (h : (k, some a) ∈ slots) :
      Fate rounds slots a ⟨k, c, .waiting .open w⟩
  /-- Belongs to the round that is being led. -/
  | called {r : Round κ β} {k : κ} {c w : Bool} (hr : r ∈ rounds) (ho : r.outcome = none)
      (ha : a ∈ r.members) (hne : a ≠ r.leader) : Fate rounds slots a ⟨k, c, .waiting .open w⟩
  | leads {r : Round κ β} {k : κ} {c : Bool} (hr : r ∈ rounds) (ho : r.outcome = none)
      (ha : a = r.leader) : Fate rounds slots a ⟨k, c, .leading r.members⟩
  | holds {r : Round κ β} {outcome : Outcome β} {k : κ} {c w : Bool} (hr : r ∈ rounds)
      (ho : r.outcome = some outcome) (ha : a ∈ r.members) :
      Fate rounds slots a ⟨k, c, .waiting (.holds outcome) w⟩
  | took {r : Round κ β} {outcome : Outcome β} {k : κ} {c : Bool} (hr : r ∈ rounds)
      (ho : r.outcome = some outcome) (ha : a ∈ r.members) :
      Fate rounds slots a ⟨k, c, .ended outcome⟩
  /-- Was canceled while it waited. -/
  | gaveUp {k : κ} (hs : some a ∉ slots.map (·.2)) :
      Fate rounds slots a ⟨k, true, .ended (.error .canceled)⟩
  /-- Its slot was taken away. -/
  | closed {k : κ} {c w : Bool} (hs : some a ∉ slots.map (·.2))
      (hr : a ∉ rounds.flatMap Round.members) : Fate rounds slots a ⟨k, c, .waiting .closed w⟩
  | denied {k : κ} {c : Bool} {denial : Denial} (hs : some a ∉ slots.map (·.2))
      (hr : a ∉ rounds.flatMap Round.members) : Fate rounds slots a ⟨k, c, .ended (.error denial)⟩
  | dropped {k : κ} {c : Bool} : Fate rounds slots a ⟨k, c, .dropped⟩

structure Round.Sound (m : Rendezvous κ β) (r : Round κ β) : Prop where
  leader : r.leader ∈ r.members
  full : ∀ s ∈ r.slots, s.2.isSome = true
  begun : ∀ a ∈ r.members, a < r.begun
  begun_le : r.begun ≤ m.next
  /-- Nobody else ends a round than its leader. -/
  led : r.outcome = none → m.stage? r.leader = some (.leading r.members)

structure Coherent (rounds : List (Round κ β)) (m : Rendezvous κ β) : Prop where
  keys : (m.slots.map (·.1)).Nodup
  owner : ∀ k a, (k, some a) ∈ m.slots → ∃ c stage, m.arrivals[a]? = some ⟨k, c, stage⟩
  /-- Whoever fills a slot belongs to no round. -/
  apart : ∀ k a, (k, some a) ∈ m.slots → ∀ r ∈ rounds, a ∉ r.members
  /-- Nobody belongs to two rounds. -/
  once : (rounds.flatMap Round.members).Nodup
  fate : ∀ a arrival, m.arrivals[a]? = some arrival → Fate rounds m.slots a arrival
  sound : ∀ r ∈ rounds, r.Sound m
  former : ∀ r ∈ rounds.tail, r.isOver = true
  leading : m.leading = true ↔ ∃ r ∈ rounds, r.outcome = none
  count : m.rounds = (rounds.filter Round.isOver).length

variable {rounds rounds' : List (Round κ β)} {m m' : Rendezvous κ β} {slots : List (κ × Option Nat)}
  {k j : κ} {a b : Nat} {c w : Bool} {outcome : Outcome β} {stage : Stage β} {r : Round κ β}
  {arrival : Arrival κ β} {round : List Nat}

theorem Round.Sound.mono (h : r.Sound m) (hnext : m.next ≤ m'.next)
    (hled : r.outcome = none → m'.stage? r.leader = some (.leading r.members)) : r.Sound m' :=
  ⟨h.leader, h.full, h.begun, Nat.le_trans h.begun_le hnext, hled⟩

theorem coherent_empty : Coherent [] (empty : Rendezvous κ β) where
  keys := List.nodup_nil
  owner _ _ h := by cases h
  apart _ _ h := by cases h
  once := List.nodup_nil
  fate _ _ h := by cases h
  sound _ h := by cases h
  former _ h := by cases h
  leading := by simp [empty]
  count := rfl

theorem mem_map_snd_iff : some a ∈ slots.map (·.2) ↔ ∃ k, (k, some a) ∈ slots := by
  simp [List.mem_map]

theorem slot?_eq_some_iff [DecidableEq κ] (h : (m.slots.map (·.1)).Nodup) {filler : Option Nat} :
    m.slot? k = some filler ↔ (k, filler) ∈ m.slots := by
  rw [slot?]
  constructor
  · intro hfind
    obtain ⟨s, hs, rfl⟩ := Option.map_eq_some_iff.1 hfind
    have hk : s.1 = k := by simpa using List.find?_some hs
    rw [← hk]
    exact List.mem_of_find?_eq_some hs
  · intro hmem
    cases hfind : m.slots.find? fun s => s.1 = k with
    | none => simpa using List.find?_eq_none.1 hfind _ hmem
    | some s =>
      have hk : s.1 = k := by simpa using List.find?_some hfind
      have heq : s = (k, filler) :=
        List.inj_on_of_nodup_map h (List.mem_of_find?_eq_some hfind) hmem hk
      rw [heq]
      rfl

namespace Coherent

variable (h : Coherent rounds m)

include h

theorem fillers_nodup : (m.slots.filterMap (·.2)).Nodup := by
  rw [List.Nodup, List.pairwise_filterMap]
  refine (List.pairwise_map.1 h.keys).imp_of_mem fun {s s'} hs hs' hne a ha a' ha' heq => hne ?_
  obtain ⟨_, _, hb⟩ := h.owner s.1 a (ha ▸ hs)
  obtain ⟨_, _, hb'⟩ := h.owner s'.1 a (heq ▸ ha' ▸ hs')
  exact congrArg Arrival.key (Option.some.inj (hb.symm.trans hb'))

theorem not_slot_of_mem (hr : r ∈ rounds) (ha : a ∈ r.members) : some a ∉ m.slots.map (·.2) := by
  intro hs
  obtain ⟨k, hk⟩ := mem_map_snd_iff.1 hs
  exact h.apart k a hk r hr ha

/-- Whoever fills a slot waits, unless it has been given up. -/
theorem waits_of_slot (hk : (k, some a) ∈ m.slots) :
    (∃ c w, m.arrivals[a]? = some ⟨k, c, .waiting .open w⟩) ∨
      ∃ c, m.arrivals[a]? = some ⟨k, c, .dropped⟩ := by
  obtain ⟨c, stage, ha⟩ := h.owner k a hk
  have hs : some a ∈ m.slots.map (·.2) := mem_map_snd_iff.2 ⟨k, hk⟩
  have hout (r : Round κ β) (hr : r ∈ rounds) : a ∉ r.members := h.apart k a hk r hr
  cases h.fate a _ ha with
  | waits _ => exact .inl ⟨c, _, ha⟩
  | called hr ho hmem hne => exact absurd hmem (hout _ hr)
  | leads hr ho hleader => exact absurd (hleader ▸ (h.sound _ hr).leader) (hout _ hr)
  | holds hr ho hmem => exact absurd hmem (hout _ hr)
  | took hr ho hmem => exact absurd hmem (hout _ hr)
  | gaveUp hn => exact absurd hs hn
  | closed hn hr => exact absurd hs hn
  | denied hn hr => exact absurd hs hn
  | dropped => exact .inr ⟨c, ha⟩

/-- There is at most one round that is not over, and it is the latest. -/
theorem eq_of_open {r' : Round κ β} (hr : r ∈ rounds) (ho : r.outcome = none) (hr' : r' ∈ rounds)
    (ho' : r'.outcome = none) : r = r' := by
  -- Every round but the latest is over.
  have hlatest {q : Round κ β} (hq : q ∈ rounds) (ho : q.outcome = none) : rounds.head? = some q := by
    cases hrounds : rounds with
    | nil => rw [hrounds] at hq; cases hq
    | cons p rest =>
      rw [hrounds] at hq
      rcases List.mem_cons.1 hq with rfl | hq
      · rfl
      · have := h.former q (by rw [hrounds]; exact hq)
        rw [Round.isOver, ho] at this
        cases this
  exact Option.some.inj ((hlatest hr ho).symm.trans (hlatest hr' ho'))

theorem eq_of_mem {r' : Round κ β} (hr : r ∈ rounds) (ha : a ∈ r.members) (hr' : r' ∈ rounds)
    (ha' : a ∈ r'.members) : r = r' := by
  by_contra hne
  have : Std.Symm (Function.onFun List.Disjoint (Round.members : Round κ β → List Nat)) :=
    ⟨fun _ _ h _ ha ha' => h ha' ha⟩
  exact (List.nodup_flatMap.1 h.once).2.forall hr hr' hne ha ha'

theorem exists_arrival (hr : r ∈ rounds) (ha : a ∈ r.members) : ∃ arrival, m.arrivals[a]? = some arrival := by
  have hs := h.sound r hr
  have hlt : a < m.arrivals.length := Nat.lt_of_lt_of_le (hs.begun a ha) hs.begun_le
  exact ⟨_, List.getElem?_eq_getElem hlt⟩

theorem leader_of_leading (ha : m.stage? a = some (.leading round)) :
    ∃ r ∈ rounds, r.outcome = none ∧ r.leader = a ∧ r.members = round := by
  rw [stage?] at ha
  obtain ⟨key, canceled, harrival⟩ := exists_of_stage? ha
  cases h.fate a _ harrival with
  | leads hr ho hleader => exact ⟨_, hr, ho, hleader.symm, rfl⟩

theorem eq_cons_of_open (hr : r ∈ rounds) (ho : r.outcome = none) : ∃ rest, rounds = r :: rest := by
  cases hrounds : rounds with
  | nil => rw [hrounds] at hr; cases hr
  | cons p rest =>
    rw [hrounds] at hr
    rcases List.mem_cons.1 hr with rfl | hq
    · exact ⟨rest, rfl⟩
    · have := h.former r (by rw [hrounds]; exact hq)
      rw [Round.isOver, ho] at this
      cases this

end Coherent

end BalancerSync.Rendezvous
